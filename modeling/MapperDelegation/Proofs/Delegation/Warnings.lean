import MapperDelegation.Proofs.Delegation.Failure

set_option relaxedAutoImplicit false
set_option autoImplicit false

/-!
# Warnings are without consequences

The options tell how a name asked for is compared, which warnings are given, and how diagnostics are
filtered. Only the first of these has an influence on what is generated. Warnings pass through the
same queue as errors, with its bound, its test for repetitions and its order by place, but they do
not change which errors are listed, nor their order.

## Main results

* `Scope.stage_examine`, `Scope.generated_examine` — what an examination yields, warnings apart.
* `Scope.ofVerdicts_eq_of_matching_eq` — reports depend on the comparison of names only.
* `Generator.sameErrors_of_runUnits` — generators that filter alike keep the same errors.
* `Generator.runModel_of_matching_eq` — so do runs over a whole model, and they list them alike.
-/

namespace MapperDelegation

attribute [ext] UnitReport

/-- The criteria of a search depend on the comparison of names only. -/
lemma Options.criteriaFor_eq_of_matching_eq {o o' : Options} (h : o.matching = o'.matching) :
    o.criteriaFor = o'.criteriaFor := by
  funext m
  rw [criteriaFor, criteriaFor, h]

/-! ## Reports -/

namespace Scope

variable {s : Scope} {symbols : SymbolTable} {o o' : Options} {u : UnitId} {x : Member}

/-- The last stage that a method reaches, in terms of its declaration and of the search. -/
lemma stage_examine : (s.examine symbols o x).stage =
    match x.method.validate, s.find (o.criteriaFor x.method) x with
    | .error _, _ => .rejected
    | .ok (), none => .unresolved
    | .ok (), some _ => .rendered := by
  rcases examine_cases s symbols o x with ⟨p, hv, -, h⟩ | ⟨hv, hf, h⟩ | ⟨r, hv, -, hf, h⟩
  · simp [h, hv]
  · simp [h, hv, hf]
  · simp [h, hv, hf]

/-- The body that is generated for a method, in terms of its declaration and of the search. -/
lemma generated_examine : (s.examine symbols o x).generated =
    match x.method.validate with
    | .error _ => none
    | .ok () => (s.find (o.criteriaFor x.method) x).map (s.generate symbols x) := by
  rcases examine_cases s symbols o x with ⟨p, hv, -, h⟩ | ⟨hv, hf, h⟩ | ⟨r, hv, -, hf, h⟩
  · simp [h, hv]
  · simp [h, hv, hf]
  · simp [h, hv, hf]

variable (h : o.matching = o'.matching)
include h

/-- The failure of a method depends on the comparison of names only. -/
lemma failure?_eq_of_matching_eq : s.failure? o = s.failure? o' := by
  funext x
  rw [failure?, failure?, Options.criteriaFor_eq_of_matching_eq h]

/-- The report on a unit depends on the comparison of names only. -/
lemma ofVerdicts_eq_of_matching_eq :
    UnitReport.ofVerdicts u (s.verdicts symbols o) =
      UnitReport.ofVerdicts u (s.verdicts symbols o') := by
  have hstage : ∀ x, (s.examine symbols o x).stage = (s.examine symbols o' x).stage := by
    intro x
    rw [stage_examine, stage_examine, Options.criteriaFor_eq_of_matching_eq h]
  have hgenerated : ∀ x,
      (s.examine symbols o x).generated = (s.examine symbols o' x).generated := by
    intro x
    rw [generated_examine, generated_examine, Options.criteriaFor_eq_of_matching_eq h]
  have haborted : (UnitReport.ofVerdicts u (s.verdicts symbols o)).aborted =
      (UnitReport.ofVerdicts u (s.verdicts symbols o')).aborted := by
    rw [Bool.eq_iff_iff, aborted_ofVerdicts_iff, aborted_ofVerdicts_iff]
    simp only [hstage]
  refine UnitReport.ext rfl ?_ ?_ haborted
  · simp only [generated_ofVerdicts, haborted, hgenerated]
  · simp only [outcomes_ofVerdicts, hstage]

/-- The errors reported on a unit depend on the comparison of names only. -/
lemma filter_reported_eq_of_matching_eq :
    (s.reported symbols o).filter (·.isError) = (s.reported symbols o').filter (·.isError) := by
  rw [filter_isError_reported, filter_isError_reported, failure?_eq_of_matching_eq h]

end Scope

/-! ## Runs -/

namespace Generator

variable {c : Catalog} {g g₁ : Generator} {us : List UnitId} {reports : List UnitReport}

/-- Generators that compare names alike yield the same reports, and if their queues had the same
errors before, they have so afterwards.

**Proof sketch.** Induction on the units: each of them gets the same report from both generators,
and the same errors are added to both queues, among different warnings. -/
lemma sameErrors_of_runUnits (g' : Generator)
    (hmatching : g.options.matching = g'.options.matching)
    (h : g.runUnits c us = .ok (reports, g₁)) :
    ∃ g₁', g'.runUnits c us = .ok (reports, g₁') ∧
      (g.queue.SameErrors g'.queue → g₁.queue.SameErrors g₁'.queue) := by
  induction us generalizing g g' reports with
  | nil =>
    obtain ⟨rfl, rfl⟩ := runUnits_nil_eq_ok_iff.mp h
    exact ⟨g', rfl, id⟩
  | cons u us ih =>
    obtain ⟨r, g₂, rest, hr, hrest, rfl⟩ := runUnits_cons_eq_ok_iff.mp h
    obtain ⟨s, hs, rfl, rfl⟩ := runUnit_eq_ok_iff.mp hr
    have hr' : g'.runUnit c u = .ok (UnitReport.ofVerdicts u (s.verdicts c.symbols g.options),
        g'.emit c.symbols (s.verdicts c.symbols g'.options)) :=
      runUnit_eq_ok_iff.mpr ⟨s, hs, Scope.ofVerdicts_eq_of_matching_eq hmatching, rfl⟩
    obtain ⟨g₁', hrest', herrors⟩ := ih (g := g.emit c.symbols (s.verdicts c.symbols g.options))
      (g'.emit c.symbols (s.verdicts c.symbols g'.options)) hmatching hrest
    refine ⟨g₁', runUnits_cons_eq_ok_iff.mpr ⟨_, _, _, hr', hrest', rfl⟩, fun hqueue => ?_⟩
    exact herrors (hqueue.addAll (Scope.filter_reported_eq_of_matching_eq hmatching))

/-- **Warnings have no consequences**: a run over a reachable model succeeds, and under any two
options that compare names alike it yields the same reports. If the diagnostics are also filtered
alike, the same errors are listed in the same order, the closing one included.

**Proof sketch.** The two generators yield the same reports unit by unit. Under the same limits
their queues start with the same errors, namely none, and so they end with the same ones, whose
order in a listing does not depend on the warnings among them. -/
theorem runModel_of_matching_eq (hc : c.Reachable) (o o' : Options)
    (hmatching : o.matching = o'.matching) :
    ∃ out out', (start o).runModel c = .ok out ∧ (start o').runModel c = .ok out' ∧
      out.reports = out'.reports ∧
      (o.limits = o'.limits →
        out.diagnostics.filter (·.isError) = out'.diagnostics.filter (·.isError)) := by
  obtain ⟨out, hout⟩ := (start o).exists_runModel hc.wellFormed
  obtain ⟨g₁, hreports, hdiagnostics⟩ := runModel_eq_ok_iff.mp hout
  obtain ⟨g₁', hreports', herrors⟩ := sameErrors_of_runUnits (start o') hmatching hreports
  have hout' : (start o').runModel c = .ok ⟨out.reports, g₁'.finish⟩ :=
    runModel_eq_ok_iff.mpr ⟨g₁', hreports', rfl⟩
  refine ⟨out, _, hout, hout', rfl, fun hlimits => ?_⟩
  have hstart : (start o).queue.SameErrors (start o').queue := ⟨hlimits, rfl, rfl, rfl⟩
  rw [hdiagnostics]
  exact (herrors hstart).filter_flush

end Generator

/-- A mapper of users that uses a mapper of addresses. Its three delegating methods have two
delegates, one in the mapper itself, and none. -/
def Catalog.contestedMapping : Catalog := .ofEntries [
  .unit "com.AddressMapper" .unknown,
  .unit "com.UserMapper" .unknown,
  .use ⟨1⟩ ⟨0⟩ none,
  .method ⟨0⟩ (.ofClauses "toDto" [.param "address" "Address", .returns "AddressDto"]),
  .method ⟨0⟩ (.ofClauses "toShortDto" [.param "address" "Address", .returns "AddressDto"]),
  .method ⟨1⟩ (.ofClauses "log" [.param "user" "User", .implemented .default]),
  .method ⟨1⟩ (.ofClauses "mapAddress"
    [.param "source" "Address", .returns "AddressDto", .delegating, .declaredAt ⟨5, 6⟩]),
  .method ⟨1⟩ (.ofClauses "audit" [.param "user" "User", .delegating, .declaredAt ⟨3, 4⟩]),
  .method ⟨1⟩ (.ofClauses "mapName"
    [.param "name" "Name", .returns "String", .delegating, .declaredAt ⟨1, 2⟩]),
  .method ⟨0⟩ (.ofClauses "mapCity" [.param "city" "City", .returns "String", .delegating])]

/-- The run with all warnings and the run without any yield the same reports and errors, although
the queues of both drop errors. -/
theorem Generator.runModel_contestedMapping :
    Catalog.contestedMapping.Reachable ∧
      ∃ out out', (start { limits := { errorLimit := 1 } }).runModel .contestedMapping = .ok out ∧
        (start { Options.strict with limits := { errorLimit := 1 } }).runModel .contestedMapping =
          .ok out' ∧
        out.reports = out'.reports ∧
        out.diagnostics.filter (·.isError) = out'.diagnostics.filter (·.isError) := by
  obtain ⟨out, out', hout, hout', hreports, herrors⟩ :=
    runModel_of_matching_eq (Catalog.reachable_ofEntries _ : Catalog.contestedMapping.Reachable)
      { limits := { errorLimit := 1 } } { Options.strict with limits := { errorLimit := 1 } } rfl
  exact ⟨Catalog.reachable_ofEntries _, out, out', hout, hout', hreports, herrors rfl⟩

/-- Two warnings and one error are kept, and one error is dropped. -/
example : ((Generator.start { Options.strict with limits := { errorLimit := 1 } }).runUnits
    .contestedMapping [⟨0⟩, ⟨1⟩]).map
      (fun r => (r.2.diagnostics.map (·.code), r.2.queue.suppressed)) =
        .ok ([.noDelegate, .ambiguous, .sameUnit], 1) := by decide +kernel

end MapperDelegation
