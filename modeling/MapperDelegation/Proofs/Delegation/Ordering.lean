import MapperDelegation.Proofs.Delegation.Emission

set_option relaxedAutoImplicit false
set_option autoImplicit false

/-!
# The order of runs

All runs of a generator feed one queue, and what the queue drops may depend on what it holds.
Without a bound on errors the order in which the units are run over makes no difference all the
same, whether or not repetitions are dropped: each unit gets the same report in every run, and the
listings at the end differ at most in the order of diagnostics of one place.

## Main results

* `Generator.exists_report` — one function tells the reports of all runs.
* `Generator.ascending_finish` — listings follow the order of places.
* `Generator.runUnits_perm` — runs over the same units in another order agree.
-/

namespace MapperDelegation

namespace Generator

variable {c : Catalog} {o : Options} {g : Generator} {us us' : List UnitId}
  {reports : List UnitReport}

/-- The reports of all runs under the same options are told unit by unit by one function. -/
lemma exists_report (c : Catalog) (o : Options) : ∃ report : UnitId → UnitReport,
    ∀ (us : List UnitId) (reports : List UnitReport) (g : Generator),
      (start o).runUnits c us = .ok (reports, g) → reports = us.map report := by
  have hreport : ∀ u, ∃ report, ∀ r, c.report o u = .ok r → report = r := by
    intro u
    cases h : c.report o u with
    | error e => exact ⟨.ofVerdicts u [], by simp⟩
    | ok r => exact ⟨r, fun r' hr' => Except.ok.inj hr'⟩
  choose report hreport using hreport
  refine ⟨report, fun us reports g h => ?_⟩
  have hequal : List.Forall₂ (· = ·) (us.map report) reports :=
    List.forall₂_map_left_iff.mpr ((forall₂_of_runUnits h).1.imp fun u r hr => hreport u r hr)
  rw [List.forall₂_eq_eq_eq] at hequal
  exact hequal.symm

section Unbounded

variable (hlimit : o.limits.errorLimit = 0)
include hlimit

/-- Without a bound on errors a new generator has an unbounded queue. -/
lemma unbounded_start : (start o).queue.Unbounded := Queue.unbounded_empty hlimit

variable (h : (start o).runUnits c us = .ok (reports, g))
include h

/-- Without a bound on errors a generator drops nothing but repetitions. -/
lemma unbounded_of_runUnits : g.queue.Unbounded := by
  rw [queue_of_runUnits h]
  exact (unbounded_start hlimit).addAll _

/-- Every diagnostic of a generator is one of those on the units of its runs. -/
lemma mem_diagnostics_iff {d : Diagnostic} :
    d ∈ g.diagnostics ↔ ∃ u ∈ us, d ∈ c.reported o u := by
  rw [diagnostics, queue_of_runUnits h, (unbounded_start hlimit).mem_addAll_iff]
  simp [start]

/-- A generator lists its diagnostics in the order of their places. -/
lemma ascending_finish : Diagnostic.Ascending g.finish := by
  refine (unbounded_of_runUnits hlimit h).ascending_flush fun d hd => ?_
  obtain ⟨u, -, hd⟩ := (mem_diagnostics_iff hlimit h).mp hd
  exact Catalog.exists_primarySpan hd

/-- Runs over the same units in another order yield the same diagnostics in another order. -/
lemma perm_diagnostics {g' : Generator} {reports' : List UnitReport}
    (h' : (start o).runUnits c us' = .ok (reports', g')) (hperm : us.Perm us') :
    g.diagnostics.Perm g'.diagnostics := by
  rw [diagnostics, diagnostics, queue_of_runUnits h, queue_of_runUnits h']
  exact (unbounded_start hlimit).perm_addAll (hperm.flatMap_right _)

end Unbounded

/-- **The order of runs is immaterial**: if there is no bound on errors, then runs of new generators
over the same units of a reachable model, each in an order of its own, succeed and yield the same
report for every unit, wherever and however often it is run over. They agree on whether there is an
error, and their listings are in the order of places and hold the same diagnostics.

**Proof sketch.** A report depends on the unit and on the options only. The diagnostics on the units
are added to the queues in different orders, so that the queues hold the same ones in different
orders, and with right counts they agree on the number of errors. -/
theorem runUnits_perm (hc : c.Reachable) (o : Options) (hlimit : o.limits.errorLimit = 0)
    (hus : ∀ u ∈ us, u.index < c.model.units.length) (hperm : us.Perm us') :
    ∃ (report : UnitId → UnitReport) (g g' : Generator),
      (start o).runUnits c us = .ok (us.map report, g) ∧
      (start o).runUnits c us' = .ok (us'.map report, g') ∧
      g.hasErrors = g'.hasErrors ∧ g.finish.Perm g'.finish ∧
      Diagnostic.Ascending g.finish ∧ Diagnostic.Ascending g'.finish := by
  have hm := hc.wellFormed
  have hus' : ∀ u ∈ us', u.index < c.model.units.length := fun u hu =>
    hus u (hperm.mem_iff.mpr hu)
  obtain ⟨report, hreport⟩ := exists_report c o
  obtain ⟨reports, g, h⟩ := (start o).exists_runUnits hm hus
  obtain ⟨reports', g', h'⟩ := (start o).exists_runUnits hm hus'
  obtain rfl := hreport us reports g h
  obtain rfl := hreport us' reports' g' h'
  have hdiagnostics := perm_diagnostics hlimit h h' hperm
  have hcounts := (tracked_of_runUnits (Queue.tracked_empty o.limits) h).1
  have hcounts' := (tracked_of_runUnits (Queue.tracked_empty o.limits) h').1
  have herrors : g.hasErrors = g'.hasErrors :=
    hcounts.toAccounted.hasErrors_eq_of_perm hcounts'.toAccounted hdiagnostics
  have hfinish : g.finish.Perm g'.finish :=
    (unbounded_of_runUnits hlimit h).perm_flush.trans
      (hdiagnostics.trans (unbounded_of_runUnits hlimit h').perm_flush.symm)
  exact ⟨report, g, g', h, h', herrors, hfinish, ascending_finish hlimit h,
    ascending_finish hlimit h'⟩

end Generator

/-- Strict options under which repetitions are dropped. -/
def Options.deduplicating : Options :=
  { Options.strict with limits := { errorLimit := 0, deduplicate := true } }

/-- Runs over two mappers in different orders agree, although repetitions are dropped and the second
run over a mapper therefore adds nothing. -/
theorem Generator.runUnits_perm_contestedMapping :
    Catalog.contestedMapping.Reachable ∧ Catalog.contestedMapping.model.units.length = 2 ∧
      ∃ (report : UnitId → UnitReport) (g g' : Generator),
        (start .deduplicating).runUnits .contestedMapping [⟨0⟩, ⟨1⟩, ⟨0⟩] =
          .ok ([⟨0⟩, ⟨1⟩, ⟨0⟩].map report, g) ∧
        (start .deduplicating).runUnits .contestedMapping [⟨1⟩, ⟨0⟩, ⟨0⟩] =
          .ok ([⟨1⟩, ⟨0⟩, ⟨0⟩].map report, g') ∧
        g.hasErrors = g'.hasErrors ∧ g.finish.Perm g'.finish ∧
        Diagnostic.Ascending g.finish ∧ Diagnostic.Ascending g'.finish :=
  ⟨Catalog.reachable_ofEntries _, by decide +kernel,
    runUnits_perm (Catalog.reachable_ofEntries _) .deduplicating rfl (by decide +kernel)
      (by decide)⟩

/-- The second run over the first mapper adds nothing. -/
example : ((Generator.start .deduplicating).runUnits .contestedMapping [⟨0⟩, ⟨1⟩, ⟨0⟩]).map
    (fun r => r.2.diagnostics.map (·.code.text)) =
      .ok ["E1003", "W1002", "W1001", "E1003"] := by decide +kernel

end MapperDelegation
