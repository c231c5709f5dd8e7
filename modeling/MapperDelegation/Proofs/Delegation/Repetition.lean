import MapperDelegation.Proofs.Delegation.Ordering

set_option relaxedAutoImplicit false
set_option autoImplicit false

/-!
# Repeated runs

A generator that drops repetitions and has no bound on errors does not notice that it runs over a
unit again. What a run over a unit reports depends on the unit and on the options only, and all of
it is held already since the earlier run, whatever other units came in between. Runs over single
units therefore do not change what a run over the whole model lists in the end, but for the order
of diagnostics of one place.

## Main results

* `Generator.runUnit_eq_self` — a repeated run leaves the generator as it is.
* `Generator.perm_finish` — what is listed does not depend on how often units are run over.
* `Generator.repeated_of_runUnits` — both of them for all runs over a reachable model.
-/

namespace MapperDelegation

namespace Generator

section Repetition

variable {c : Catalog} {o : Options} {g g' : Generator} {us us' : List UnitId}
  {reports reports' : List UnitReport}

variable (hlimit : o.limits.errorLimit = 0) (hdedup : o.limits.deduplicate)
  (h : (start o).runUnits c us = .ok (reports, g))
include hlimit hdedup h

/-- A run over a unit that was run over before yields the report on it and leaves the generator as
it is: all that would be added to the queue is held there already. -/
lemma runUnit_eq_self {u : UnitId} (hu : u ∈ us) {r : UnitReport} (hr : c.report o u = .ok r) :
    g.runUnit c u = .ok (r, g) := by
  obtain ⟨s, hs, rfl⟩ := Catalog.report_eq_ok_iff.mp hr
  have hoptions : g.options = o := (forall₂_of_runUnits h).2
  have hdedup' : g.queue.limits.deduplicate := by
    rw [queue_of_runUnits h, Queue.limits_addAll]
    exact hdedup
  have hheld : s.reported c.symbols o ⊆ g.queue.diagnostics := by
    intro d hd
    rw [← Catalog.reported_eq hs] at hd
    exact (mem_diagnostics_iff hlimit h).mpr ⟨u, hu, hd⟩
  have hqueue : g.queue.addAll (s.reported c.symbols o) = g.queue :=
    (unbounded_of_runUnits hlimit h).addAll_eq_self hdedup' hheld
  refine runUnit_eq_ok_iff.mpr ⟨s, hs, by rw [hoptions], ?_⟩
  rw [hoptions]
  exact congrArg (Generator.mk g.options) hqueue.symm

/-- Runs over the same units, however often and in whichever order, hold the same diagnostics. -/
lemma perm_diagnostics_of_mem_iff (h' : (start o).runUnits c us' = .ok (reports', g'))
    (hunits : ∀ u, u ∈ us ↔ u ∈ us') : g.diagnostics.Perm g'.diagnostics := by
  rw [diagnostics, diagnostics, queue_of_runUnits h, queue_of_runUnits h']
  refine (unbounded_start hlimit).perm_addAll_of_mem_iff hdedup fun d => ?_
  simp only [List.mem_flatMap, hunits]

/-- Runs over the same units, however often and in whichever order, list the same diagnostics. -/
lemma perm_finish (h' : (start o).runUnits c us' = .ok (reports', g'))
    (hunits : ∀ u, u ∈ us ↔ u ∈ us') : g.finish.Perm g'.finish :=
  (unbounded_of_runUnits hlimit h).perm_flush.trans
    ((perm_diagnostics_of_mem_iff hlimit hdedup h h' hunits).trans
      (unbounded_of_runUnits hlimit h').perm_flush.symm)

end Repetition

/-- **Repeated runs change nothing**: a generator without a bound on errors that drops repetitions
may run over any units of a reachable model. A repetition of any of these runs yields the report
that it yielded before and leaves the generator as it is, with all its diagnostics in their order.
A run over the whole model that follows yields the same reports as one by a new generator, and it
lists the same diagnostics, possibly in another order.

**Proof sketch.** The diagnostics on a unit are held once it was run over. A run over the whole
model runs over all units again, and those that were run over before make no difference to what is
held in the end. -/
theorem repeated_of_runUnits {c : Catalog} (hc : c.Reachable) (o : Options)
    (hlimit : o.limits.errorLimit = 0) (hdedup : o.limits.deduplicate) {history : List UnitId}
    (hhistory : ∀ v ∈ history, v.index < c.model.units.length) :
    ∃ earlier g, (start o).runUnits c history = .ok (earlier, g) ∧
      List.Forall₂ (fun u r => g.runUnit c u = .ok (r, g)) history earlier ∧
      ∃ out fresh, g.runModel c = .ok out ∧ (start o).runModel c = .ok fresh ∧
        out.reports = fresh.reports ∧ out.diagnostics.Perm fresh.diagnostics := by
  obtain ⟨earlier, g, hearlier⟩ := (start o).exists_runUnits hc.wellFormed hhistory
  obtain ⟨out, hout⟩ := g.exists_runModel hc.wellFormed
  obtain ⟨fresh, hfresh⟩ := (start o).exists_runModel hc.wellFormed
  refine ⟨earlier, g, hearlier, ?again, out, fresh, hout, hfresh, ?reports, ?diagnostics⟩
  case again =>
    have hreports := (List.forall₂_and_left _ _).mpr
      ⟨fun _ hu => hu, (forall₂_of_runUnits hearlier).1⟩
    exact hreports.imp fun u r hr => runUnit_eq_self hlimit hdedup hearlier hr.1 hr.2
  case reports =>
    have hreports := forall₂_of_runModel hout
    rw [(forall₂_of_runUnits hearlier).2] at hreports
    exact Catalog.eq_of_forall₂_report hreports (forall₂_of_runModel hfresh)
  case diagnostics =>
    obtain ⟨g₁, hruns, hdiagnostics⟩ := runModel_eq_ok_iff.mp hout
    obtain ⟨g₂, hruns', hdiagnostics'⟩ := runModel_eq_ok_iff.mp hfresh
    rw [hdiagnostics, hdiagnostics']
    refine perm_finish hlimit hdedup (runUnits_append hearlier hruns) hruns' fun u => ?_
    rw [List.mem_append, or_iff_right_iff_imp]
    exact fun hu => Model.mem_unitIds_iff.mpr (hhistory u hu)

/-- After runs over two mappers, one of them twice, every repetition is without effect, and so are
all these runs for a run over the whole model. -/
theorem repeated_contestedMapping :
    Catalog.contestedMapping.Reachable ∧ Options.deduplicating.limits.errorLimit = 0 ∧
      Options.deduplicating.limits.deduplicate ∧
      Catalog.contestedMapping.model.units.length = 2 ∧
      ∃ earlier g, (start .deduplicating).runUnits .contestedMapping [⟨1⟩, ⟨0⟩, ⟨1⟩] =
          .ok (earlier, g) ∧
        List.Forall₂ (fun u r => g.runUnit .contestedMapping u = .ok (r, g)) [⟨1⟩, ⟨0⟩, ⟨1⟩]
          earlier ∧
        ∃ out fresh, g.runModel .contestedMapping = .ok out ∧
          (start .deduplicating).runModel .contestedMapping = .ok fresh ∧
          out.reports = fresh.reports ∧ out.diagnostics.Perm fresh.diagnostics :=
  ⟨Catalog.reachable_ofEntries _, rfl, rfl, by decide +kernel,
    repeated_of_runUnits (Catalog.reachable_ofEntries _) .deduplicating rfl rfl
      (by decide +kernel)⟩

end Generator

end MapperDelegation
