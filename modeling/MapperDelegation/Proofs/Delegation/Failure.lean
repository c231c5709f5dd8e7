import MapperDelegation.Proofs.Delegation.Outcome
import MapperDelegation.Proofs.Report.Errors

set_option relaxedAutoImplicit false
set_option autoImplicit false

/-!
# Failures and the errors that tell of them

A delegating method gets no body for one of two reasons, each of which is reported as an error: its
declaration is refused, or it has no delegate. Reports and diagnostics are put together separately,
the former from the ends of the examinations, the latter by a queue that may drop errors. They agree
all the same on whether something went wrong.

## Main definitions

* `Scope.failure?` — the problem by which a method gets no body.
* `Scope.reported` — the diagnostics that the examination of a unit gives rise to.
* `UnitReport.HasFailure` — some method of the unit got no body.

## Main results

* `Scope.filter_isError_reported` — the errors reported are the failures of the methods.
* `Generator.hasErrors_iff_exists_failure` — a run over a model tells of an error exactly if some
  report has a failure.
-/

namespace MapperDelegation

/-! ## Failures of single methods -/

/-- A refused declaration is an error. -/
lemma Method.isWarning_of_validate {m : Method} {p : Problem} (h : m.validate = .error p) :
    p.isWarning = false := by
  rcases m.eq_of_validate h with rfl | rfl <;> rfl

/-- A remark on the choice of a delegate is a warning. -/
lemma Resolution.isWarning_of_mem_remarks {r : Resolution} {o : Options} {m : Method} {p : Problem}
    (h : p ∈ r.remarks o m) : p.isWarning = true := by
  rcases r.eq_of_mem_remarks h with rfl | rfl <;> rfl

/-- The report on a problem is an error unless the problem is a warning. -/
lemma Problem.isError_diagnostic (symbols : SymbolTable) (p : Problem) :
    (p.diagnostic symbols).isError = !p.isWarning := by
  rw [← p.isWarning_diagnostic symbols, Diagnostic.isWarning_eq_not_isError, Bool.not_not]

namespace Scope

variable {s : Scope} {symbols : SymbolTable} {o : Options} {u : UnitId} {x : Member}

/-- The problem by which a method gets no body: a fault of its declaration, or else the lack of a
delegate. -/
def failure? (s : Scope) (o : Options) (x : Member) : Option Problem :=
  match x.method.validate with
  | .error p => some p
  | .ok () =>
    match s.find (o.criteriaFor x.method) x with
    | none => some (s.noDelegate x.method)
    | some _ => none

/-- The errors among the problems of a method are its failure, if there is one. -/
lemma filter_problems_examine :
    (s.examine symbols o x).problems.filter (!·.isWarning) = (s.failure? o x).toList := by
  rcases examine_cases s symbols o x with ⟨p, hv, -, h⟩ | ⟨hv, hf, h⟩ | ⟨r, hv, -, hf, h⟩
  · simp [h, failure?, hv, Method.isWarning_of_validate hv]
  · simp [h, failure?, hv, hf, noDelegate, Method.problem, Problem.isWarning, Cause.isWarning]
  · have hremarks : (r.remarks o x.method).filter (!·.isWarning) = [] := by
      rw [List.filter_eq_nil_iff]
      intro p hp
      simp [Resolution.isWarning_of_mem_remarks hp]
    simp [h, failure?, hv, hf, hremarks]

/-- A method without a failure ends up rendered, any other one rejected or unresolved. -/
lemma isSome_failure?_iff (symbols : SymbolTable) : (s.failure? o x).isSome ↔
    (s.examine symbols o x).stage = .rejected ∨ (s.examine symbols o x).stage = .unresolved := by
  rcases examine_cases s symbols o x with ⟨p, hv, -, h⟩ | ⟨hv, hf, h⟩ | ⟨r, hv, -, hf, h⟩
  · simp [h, failure?, hv]
  · simp [h, failure?, hv, hf]
  · simp [h, failure?, hv, hf]

/-! ## Failures of units -/

/-- The diagnostics that the examination of the delegating methods gives rise to. -/
def reported (s : Scope) (symbols : SymbolTable) (o : Options) : List Diagnostic :=
  ((s.verdicts symbols o).flatMap (·.problems)).map (·.diagnostic symbols)

/-- The errors that are reported are the failures of the delegating methods. -/
lemma filter_isError_reported :
    (s.reported symbols o).filter (·.isError) =
      (s.delegating.filterMap (s.failure? o)).map (·.diagnostic symbols) := by
  have herror : ∀ p : Problem, (p.diagnostic symbols).isError = !p.isWarning :=
    Problem.isError_diagnostic symbols
  simp only [reported, verdicts, List.filter_map, Function.comp_def, herror]
  congr 1
  induction s.delegating with
  | nil => rfl
  | cons x xs ih =>
    rw [List.map_cons, List.flatMap_cons, List.filter_append, ih, filter_problems_examine]
    cases h : s.failure? o x <;> simp [h]

/-- An error is reported exactly if some delegating method has a failure. -/
lemma exists_isError_reported_iff : (∃ d ∈ s.reported symbols o, d.isError) ↔
    ∃ x ∈ s.delegating, (s.failure? o x).isSome := by
  have hmem : ∀ d, d ∈ s.reported symbols o ∧ d.isError ↔
      ∃ x ∈ s.delegating, ∃ p, s.failure? o x = some p ∧ p.diagnostic symbols = d := by
    intro d
    rw [← List.mem_filter, filter_isError_reported]
    simp only [List.mem_map, List.mem_filterMap]
    constructor
    · rintro ⟨p, ⟨x, hx, hp⟩, rfl⟩
      exact ⟨x, hx, p, hp, rfl⟩
    · rintro ⟨x, hx, p, hp, rfl⟩
      exact ⟨p, ⟨x, hx, hp⟩, rfl⟩
  simp only [hmem, Option.isSome_iff_exists]
  constructor
  · rintro ⟨d, x, hx, p, hp, -⟩
    exact ⟨x, hx, p, hp⟩
  · rintro ⟨x, hx, p, hp⟩
    exact ⟨_, x, hx, p, hp, rfl⟩

end Scope

/-- Some delegating method of the unit got no body: the unit fails as a whole, or a declaration is
refused. -/
def UnitReport.HasFailure (r : UnitReport) : Prop := r.aborted ∨ ∃ id, (id, .rejected) ∈ r.outcomes

/-- A report has a failure exactly if an error is reported. -/
lemma Scope.hasFailure_iff {s : Scope} {symbols : SymbolTable} {o : Options} {u : UnitId} :
    (UnitReport.ofVerdicts u (s.verdicts symbols o)).HasFailure ↔
      ∃ d ∈ s.reported symbols o, d.isError := by
  rw [exists_isError_reported_iff, UnitReport.HasFailure, aborted_ofVerdicts_iff,
    outcomes_ofVerdicts]
  simp only [isSome_failure?_iff symbols, List.mem_map, Prod.mk.injEq]
  constructor
  · rintro (⟨x, hx, h⟩ | ⟨_, x, hx, -, h⟩)
    · exact ⟨x, hx, .inr h⟩
    · exact ⟨x, hx, .inl h⟩
  · rintro ⟨x, hx, h | h⟩
    · exact .inr ⟨_, x, hx, rfl, h⟩
    · exact .inl ⟨x, hx, h⟩

/-! ## Failures of runs -/

namespace Generator

variable {c : Catalog} {g g' : Generator} {us : List UnitId} {reports : List UnitReport}

/-- A run over a unit adds what the examination of its methods gives rise to. -/
lemma queue_of_runUnit {u : UnitId} {r : UnitReport} (h : g.runUnit c u = .ok (r, g')) :
    ∃ s, c.model.scope u = .ok s ∧ r = .ofVerdicts u (s.verdicts c.symbols g.options) ∧
      g'.queue = g.queue.addAll (s.reported c.symbols g.options) := by
  obtain ⟨s, hs, hr, rfl⟩ := runUnit_eq_ok_iff.mp h
  exact ⟨s, hs, hr, rfl⟩

/-- The queue of a generator counts an error after a run exactly if it did so before or some report
of the run has a failure.

**Proof sketch.** Induction on the units: the reports on each of them have a failure exactly if an
error is added to the queue, and a queue counts an error once one was added. -/
lemma tracked_of_runUnits (hq : g.queue.Tracked) (h : g.runUnits c us = .ok (reports, g')) :
    g'.queue.Tracked ∧ (0 < g'.queue.errorCount ↔
      0 < g.queue.errorCount ∨ ∃ r ∈ reports, r.HasFailure) := by
  induction us generalizing g reports with
  | nil =>
    obtain ⟨rfl, rfl⟩ := runUnits_nil_eq_ok_iff.mp h
    exact ⟨hq, by simp⟩
  | cons u us ih =>
    obtain ⟨r, g₁, rest, hr, hrest, rfl⟩ := runUnits_cons_eq_ok_iff.mp h
    obtain ⟨s, -, rfl, hqueue⟩ := queue_of_runUnit hr
    have hq₁ : g₁.queue.Tracked := by
      rw [hqueue]
      exact hq.addAll _
    obtain ⟨hq', hcount⟩ := ih hq₁ hrest
    refine ⟨hq', ?_⟩
    rw [hcount, hqueue, hq.errorCount_addAll_pos_iff, ← Scope.hasFailure_iff (u := u)]
    simp only [List.mem_cons, exists_eq_or_imp, or_assoc]

/-- The reports of earlier runs over some units are among those of a run over the whole model. -/
lemma mem_reports_of_runUnits {out : Output} (hus : ∀ u ∈ us, u.index < c.model.units.length)
    (h : g.runUnits c us = .ok (reports, g')) (hout : g'.runModel c = .ok out) :
    ∀ r ∈ reports, r ∈ out.reports := by
  intro r hr
  obtain ⟨hreports, hoptions⟩ := forall₂_of_runUnits h
  obtain ⟨u, hu, hreport⟩ := exists_mem_of_forall₂ hreports hr
  obtain ⟨r', hr', hreport'⟩ := exists_mem_of_forall₂ (forall₂_of_runModel hout).flip
    (Model.mem_unitIds_iff.mpr (hus u hu))
  rw [hoptions] at hreport'
  rwa [eq_of_eq_ok hreport hreport']

/-- **Errors and failures agree**: whatever units a generator has run over before, and however its
diagnostics are filtered, a run over a reachable model succeeds, and its diagnostics tell of an
error exactly if one of its reports says that the unit failed or that a method was rejected.

**Proof sketch.** The queue counts an error exactly if some report, of this run or of an earlier
one, has a failure, and the listing shows an error exactly if the queue counts one. The reports of
the earlier runs return in the run over the whole model. -/
theorem hasErrors_iff_exists_failure (hc : c.Reachable) (o : Options) {history : List UnitId}
    (hhistory : ∀ v ∈ history, v.index < c.model.units.length) :
    ∃ earlier g out, (start o).runUnits c history = .ok (earlier, g) ∧ g.runModel c = .ok out ∧
      (out.hasErrors.isSome ↔
        ∃ r ∈ out.reports, r.aborted ∨ ∃ id, (id, .rejected) ∈ r.outcomes) := by
  have hm := hc.wellFormed
  obtain ⟨earlier, g, hearlier⟩ := (start o).exists_runUnits hm hhistory
  obtain ⟨out, hout⟩ := g.exists_runModel hm
  refine ⟨earlier, g, out, hearlier, hout, ?_⟩
  obtain ⟨g', hreports, hdiagnostics⟩ := runModel_eq_ok_iff.mp hout
  obtain ⟨hq, hbefore⟩ := tracked_of_runUnits (Queue.tracked_empty o.limits) hearlier
  obtain ⟨hq', hcount⟩ := tracked_of_runUnits hq hreports
  calc out.hasErrors.isSome
      ↔ ∃ d ∈ g'.queue.flush.1, d.isError := by
        rw [Output.hasErrors, hdiagnostics, finish, Guarantee.ofErrorCount?, Option.isSome_ite,
          List.countP_pos_iff]
    _ ↔ 0 < g'.queue.errorCount := hq'.exists_isError_mem_flush_iff
    _ ↔ (∃ r ∈ earlier, r.HasFailure) ∨ ∃ r ∈ out.reports, r.HasFailure := by
        rw [hcount, hbefore]
        simp [start]
    _ ↔ ∃ r ∈ out.reports, r.HasFailure := by
        rw [or_iff_right_iff_imp]
        rintro ⟨r, hr, hfailure⟩
        exact ⟨r, mem_reports_of_runUnits hhistory hearlier hout r hr, hfailure⟩

end Generator

/-- Two mappers, each with one delegating method. The one has no delegate, the other one has a body
already. -/
def Catalog.failingMapping : Catalog := .ofEntries [
  .unit "com.NameMapper" .unknown,
  .unit "com.UserMapper" .unknown,
  .method ⟨0⟩ (.ofClauses "toName" [.param "user" "User", .returns "Name", .delegating]),
  .method ⟨1⟩ (.ofClauses "toUser"
    [.param "name" "Name", .returns "User", .delegating, .implemented .default])]

/-- The errors and the failures of the two mappers agree, although the error on either of them may
be dropped: earlier runs have reported it, and there is room for one error only. -/
theorem Generator.hasErrors_failingMapping :
    Catalog.failingMapping.Reachable ∧ Catalog.failingMapping.model.units.length = 2 ∧
      ∃ earlier g out,
        (start { limits := { errorLimit := 1 } }).runUnits .failingMapping [⟨1⟩, ⟨1⟩] =
          .ok (earlier, g) ∧
        g.runModel .failingMapping = .ok out ∧
        (out.hasErrors.isSome ↔
          ∃ r ∈ out.reports, r.aborted ∨ ∃ id, (id, .rejected) ∈ r.outcomes) :=
  ⟨Catalog.reachable_ofEntries _, by decide +kernel,
    hasErrors_iff_exists_failure (Catalog.reachable_ofEntries _) { limits := { errorLimit := 1 } }
      (by decide +kernel)⟩

/-- The one error that is kept stands for both failures. -/
example : ((Generator.start { limits := { errorLimit := 1 } }).runModel .failingMapping).map
    (fun out => (out.reports.map (·.aborted), out.diagnostics.map (·.code))) =
      .ok ([true, false], [.noDelegate, .tooManyErrors]) := by decide +kernel

end MapperDelegation
