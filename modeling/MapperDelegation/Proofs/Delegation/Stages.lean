import MapperDelegation.Proofs.Delegation.Emission

set_option relaxedAutoImplicit false
set_option autoImplicit false

/-!
# No step is refused

An examination asks for one stage after the other, and a request that the stages do not allow would
end it with an internal problem. The requests fit together on every way through the pipeline, so
that no examination ends like this: every delegating method comes to a last stage, and no internal
error is ever reported.

## Main definitions

* `Queue.External` — no diagnostic of a queue is about the generator or the reporting itself.

## Main results

* `Scope.isTerminal_stage_examine` — every examination comes to a last stage.
* `Generator.external_of_runUnits` — no run adds an internal error to the diagnostics.
* `Generator.settled_of_runModel` — both together, for all runs over a reachable model.
-/

namespace MapperDelegation

/-! ## Examinations -/

/-- A fault of a declaration is none of the generator. -/
lemma Method.isInternalError_of_validate {m : Method} {p : Problem} (h : m.validate = .error p) :
    p.cause.code.isInternalError = false := by
  rcases m.eq_of_validate h with rfl | rfl <;> rfl

/-- A remark on the choice of a delegate is not about the generator. -/
lemma Resolution.isInternalError_of_mem_remarks {r : Resolution} {o : Options} {m : Method}
    {p : Problem} (h : p ∈ r.remarks o m) : p.cause.code.isInternalError = false := by
  rcases r.eq_of_mem_remarks h with rfl | rfl <;> rfl

namespace Scope

variable {s : Scope} {symbols : SymbolTable} {o : Options} {x : Member}

/-- A method that is examined comes to a last stage. -/
lemma isTerminal_stage_examine : (s.examine symbols o x).stage.isTerminal := by
  rcases s.examine_cases symbols o x with ⟨_, -, -, h⟩ | ⟨-, -, h⟩ | ⟨_, -, -, -, h⟩ <;>
    rw [h] <;> rfl

/-- An examination reports nothing about the generator itself. -/
lemma isInternalError_of_mem_problems {p : Problem} (hp : p ∈ (s.examine symbols o x).problems) :
    p.cause.code.isInternalError = false := by
  rcases s.examine_cases symbols o x with ⟨_, hv, -, h⟩ | ⟨-, -, h⟩ | ⟨_, -, -, -, h⟩
  · rw [h] at hp
    exact List.mem_singleton.mp hp ▸ Method.isInternalError_of_validate hv
  · rw [h] at hp
    exact List.mem_singleton.mp hp ▸ rfl
  · rw [h] at hp
    exact Resolution.isInternalError_of_mem_remarks hp

end Scope

/-! ## Runs -/

/-- No diagnostic of a queue is about the generator or the reporting itself. -/
def Queue.External (q : Queue) : Prop := ∀ d ∈ q.diagnostics, d.code.isInternalError = false

namespace Catalog

variable {c : Catalog} {o : Options} {u : UnitId}

/-- What a run over a unit reports is not about the generator itself. -/
lemma isInternalError_of_mem_reported {d : Diagnostic} (hd : d ∈ c.reported o u) :
    d.code.isInternalError = false := by
  obtain ⟨s, x, p, -, -, hp, rfl⟩ := exists_problem_of_mem_reported hd
  rw [Problem.code_diagnostic]
  exact Scope.isInternalError_of_mem_problems hp

/-- Every outcome of a report is a last stage. -/
lemma isTerminal_of_report {r : UnitReport} (h : c.report o u = .ok r) {id : MethodId}
    {stage : Stage} (hid : (id, stage) ∈ r.outcomes) : stage.isTerminal := by
  obtain ⟨s, -, rfl⟩ := report_eq_ok_iff.mp h
  rw [Scope.outcomes_ofVerdicts, List.mem_map] at hid
  obtain ⟨x, -, heq⟩ := hid
  obtain ⟨-, rfl⟩ := Prod.mk.inj heq
  exact Scope.isTerminal_stage_examine

end Catalog

namespace Generator

variable {c : Catalog} {g g' : Generator} {us : List UnitId} {reports : List UnitReport}

/-- A run over a unit adds nothing about the generator itself to the diagnostics. -/
lemma external_of_runUnit {u : UnitId} {r : UnitReport} (hq : g.queue.External)
    (h : g.runUnit c u = .ok (r, g')) : g'.queue.External := by
  intro d hd
  rw [queue_eq_of_runUnit h] at hd
  rcases Queue.of_mem_addAll hd with hd | hd
  · exact hq d hd
  · exact Catalog.isInternalError_of_mem_reported hd

/-- Runs add nothing about the generator itself to the diagnostics.

**Proof sketch.** Induction on the units, with what the queue holds as the invariant. -/
lemma external_of_runUnits (hq : g.queue.External) (h : g.runUnits c us = .ok (reports, g')) :
    g'.queue.External := by
  induction us generalizing g reports with
  | nil =>
    obtain ⟨rfl, rfl⟩ := runUnits_nil_eq_ok_iff.mp h
    exact hq
  | cons u us ih =>
    obtain ⟨r, g₁, rest, hr, hrest, rfl⟩ := runUnits_cons_eq_ok_iff.mp h
    exact ih (external_of_runUnit hq hr) hrest

/-- Every outcome that runs report is a last stage. -/
lemma isTerminal_of_runUnits (h : g.runUnits c us = .ok (reports, g')) {r : UnitReport}
    (hr : r ∈ reports) {id : MethodId} {stage : Stage} (hid : (id, stage) ∈ r.outcomes) :
    stage.isTerminal := by
  obtain ⟨u, -, hreport⟩ := exists_mem_of_forall₂ (forall₂_of_runUnits h).1 hr
  exact Catalog.isTerminal_of_report hreport hid

/-- **No internal errors**: after any runs over units of a reachable model, a run over the whole
model succeeds. No step of any examination in these runs is refused, whatever is in the queue, every
outcome that they report is a last stage, and at no time is there an internal error among the
diagnostics.

**Proof sketch.** Examinations are not refused any step, so that each of them ends by its verdict,
at a last stage and without an internal problem. The queue holds nothing but what was reported on
the units, and a listing adds at most the closing error. -/
theorem settled_of_runModel (hc : c.Reachable) (o : Options) {history : List UnitId}
    (hhistory : ∀ v ∈ history, v.index < c.model.units.length) :
    ∃ earlier g out, (start o).runUnits c history = .ok (earlier, g) ∧ g.runModel c = .ok out ∧
      (∀ u ∈ history ++ c.model.unitIds, ∃ s, c.model.scope u = .ok s ∧ ∀ x ∈ s.delegating,
        ∀ q, ∃ ending after, (s.pipeline c.symbols o x).run { queue := q } = .ok ending after) ∧
      (∀ r ∈ earlier ++ out.reports, ∀ id stage, (id, stage) ∈ r.outcomes →
        stage = .rendered ∨ stage = .rejected ∨ stage = .unresolved) ∧
      ∀ d ∈ g.diagnostics ++ out.diagnostics, d.code ≠ .internal := by
  have hm := hc.wellFormed
  obtain ⟨earlier, g, hearlier⟩ := (start o).exists_runUnits hm hhistory
  obtain ⟨out, hout⟩ := g.exists_runModel hm
  obtain ⟨g', hreports, hdiagnostics⟩ := runModel_eq_ok_iff.mp hout
  refine ⟨earlier, g, out, hearlier, hout, ?steps, ?stages, ?codes⟩
  case steps =>
    intro u hu
    have hlt : u.index < c.model.units.length := by
      rcases List.mem_append.mp hu with hu | hu
      · exact hhistory u hu
      · exact Model.mem_unitIds_iff.mp hu
    obtain ⟨s, hs⟩ := hm.exists_scope hlt
    refine ⟨s, hs, fun x _ q => ?_⟩
    obtain ⟨ending, after, hrun, -⟩ := s.yields_pipeline c.symbols o x q
    exact ⟨ending, after, hrun⟩
  case stages =>
    intro r hr id stage hid
    have hterminal : stage.isTerminal := by
      rcases List.mem_append.mp hr with hr | hr
      · exact isTerminal_of_runUnits hearlier hr hid
      · exact isTerminal_of_runUnits hreports hr hid
    cases stage <;> simp_all [Stage.isTerminal]
  case codes =>
    have hq : g.queue.External := external_of_runUnits (by simp [Queue.External, start]) hearlier
    have hq' : g'.queue.External := external_of_runUnits hq hreports
    have hcode : ∀ d : Diagnostic, d.code.isInternalError = false → d.code ≠ .internal := by
      intro d hd hinternal
      rw [hinternal] at hd
      cases hd
    intro d hd
    rcases List.mem_append.mp hd with hd | hd
    · exact hcode d (hq d hd)
    · rw [hdiagnostics] at hd
      rcases Queue.of_mem_flush hd with hd | rfl
      · exact hcode d (hq' d hd)
      · simp

end Generator

/-- The runs over two mappers, in which some methods have a delegate and others have none, are not
refused any step. Errors are dropped in these runs, but none of them is an internal one. -/
theorem Generator.settled_contestedMapping :
    Catalog.contestedMapping.Reachable ∧ Catalog.contestedMapping.model.units.length = 2 ∧
      ∃ earlier g out,
        (start { Options.strict with limits := { errorLimit := 1 } }).runUnits .contestedMapping
          [⟨1⟩, ⟨0⟩, ⟨1⟩] = .ok (earlier, g) ∧
        g.runModel .contestedMapping = .ok out ∧
        (∀ u ∈ [⟨1⟩, ⟨0⟩, ⟨1⟩] ++ Catalog.contestedMapping.model.unitIds,
          ∃ s, Catalog.contestedMapping.model.scope u = .ok s ∧ ∀ x ∈ s.delegating,
            ∀ q, ∃ ending after, (s.pipeline Catalog.contestedMapping.symbols
              { Options.strict with limits := { errorLimit := 1 } } x).run { queue := q } =
                .ok ending after) ∧
        (∀ r ∈ earlier ++ out.reports, ∀ id stage, (id, stage) ∈ r.outcomes →
          stage = .rendered ∨ stage = .rejected ∨ stage = .unresolved) ∧
        ∀ d ∈ g.diagnostics ++ out.diagnostics, d.code ≠ .internal :=
  ⟨Catalog.reachable_ofEntries _, by decide +kernel,
    settled_of_runModel (Catalog.reachable_ofEntries _)
      { Options.strict with limits := { errorLimit := 1 } } (by decide +kernel)⟩

end MapperDelegation
