import MapperDelegation.Proofs.Delegation.Run

set_option relaxedAutoImplicit false
set_option autoImplicit false

/-!
# Reports account for their unit

A report tells of every delegating method of its unit how far it came, and gives the bodies that
were generated. This file relates the report to the model: to the methods that belong to the unit,
to the test of their declarations, and to the lists of candidates that the two passes of the search
find for each of them.

## Main definitions

* `UnitReport.AccountsFor` — what a report on a unit has to say, in terms of the model alone.
* `Model.Completes` — no delegating method of a unit lacks a delegate.

## Main results

* `Generator.accountsFor_of_runUnit` — after any earlier runs, a run over a unit of a reachable
  model succeeds, and its report accounts for the unit.
* `UnitReport.AccountsFor.exists_generated_iff` — which methods get a body.
-/

namespace MapperDelegation

/-! ## What a report has to say -/

/-- What a report on the unit `u` has to say under the options `o`. -/
structure UnitReport.AccountsFor (r : UnitReport) (m : Model) (o : Options) (u : UnitId) :
    Prop where
  unit_eq : r.unit = u
  /-- The outcomes stand in the order of declaration, and none of them twice. -/
  sorted : (r.outcomes.map (·.1)).Pairwise (·.index < ·.index)
  /-- There is one for each delegating method of the unit and for nothing else. -/
  mem_outcomes_iff : ∀ id, id ∈ r.outcomes.map (·.1) ↔
    ∃ method, m.method id = .ok method ∧ method.unit = u ∧ method.isDelegating
  /-- A method ends up rejected if its declaration is refused, rendered if it is accepted and one
  of the passes finds a candidate, and unresolved otherwise. -/
  stage_iff : ∀ id stage method, (id, stage) ∈ r.outcomes → m.method id = .ok method →
    ∃ cross same, m.crossUnit (o.criteriaFor method) id = .ok cross ∧
      m.sameUnit (o.criteriaFor method) id = .ok same ∧
      (stage = .rejected ↔ ∃ p, method.validate = .error p) ∧
      (stage = .rendered ↔ method.validate = .ok () ∧ (cross ≠ [] ∨ same ≠ [])) ∧
      (stage = .unresolved ↔ method.validate = .ok () ∧ cross = [] ∧ same = [])
  aborted_iff : r.aborted ↔ ∃ id, (id, .unresolved) ∈ r.outcomes
  generated_eq_nil : r.aborted → r.generated = []
  /-- The bodies stand in the order of declaration, one for each method that ends up rendered. -/
  map_method_generated : ¬ r.aborted →
    r.generated.map (·.method) = (r.outcomes.filter (·.2 = .rendered)).map (·.1)
  /-- Each body calls the delegate that a search from its method finds. -/
  resolve_eq : ∀ g ∈ r.generated, ∃ method, m.method g.method = .ok method ∧
    m.resolve (o.criteriaFor method) g.method = .ok (some g.reference)

/-! ## What the verdicts of a scope amount to -/

namespace Scope

variable {s : Scope} {symbols : SymbolTable} {o : Options} {u : UnitId}

/-- The outcomes are the stages that the delegating methods reach. -/
lemma outcomes_ofVerdicts :
    (UnitReport.ofVerdicts u (s.verdicts symbols o)).outcomes =
      s.delegating.map fun x => (x.id, (s.examine symbols o x).stage) := by
  simp [UnitReport.ofVerdicts, verdicts]

/-- A unit fails when one of its delegating methods ends up unresolved. -/
lemma aborted_ofVerdicts_iff :
    (UnitReport.ofVerdicts u (s.verdicts symbols o)).aborted ↔
      ∃ x ∈ s.delegating, (s.examine symbols o x).stage = .unresolved := by
  simp only [UnitReport.ofVerdicts, verdicts, List.any_map, List.any_eq_true, Function.comp_apply,
    ← isFatal_examine_iff]

/-- Unless the unit fails, the bodies are those of the verdicts. -/
lemma generated_ofVerdicts :
    (UnitReport.ofVerdicts u (s.verdicts symbols o)).generated =
      if (UnitReport.ofVerdicts u (s.verdicts symbols o)).aborted then [] else
        s.delegating.filterMap fun x => (s.examine symbols o x).generated := by
  simp only [UnitReport.ofVerdicts, verdicts, List.filterMap_map]
  rfl

/-- Each body calls the delegate of a delegating method. -/
lemma mem_generated_ofVerdicts {g : GeneratedMethod}
    (h : g ∈ (UnitReport.ofVerdicts u (s.verdicts symbols o)).generated) :
    ∃ x ∈ s.delegating, x.method.validate = .ok () ∧
      ∃ chosen, s.find (o.criteriaFor x.method) x = some chosen ∧
        g = s.generate symbols x chosen := by
  rw [generated_ofVerdicts] at h
  split at h
  · cases h
  · obtain ⟨x, hx, hg⟩ := List.mem_filterMap.mp h
    exact ⟨x, hx, generated_examine_eq_some_iff.mp hg⟩

/-- The bodies stand in the order of their methods.

**Proof sketch.** Induction on the list. The three ends of the examination of its first member
agree on whether there is a body and whether the member ends up rendered. -/
lemma map_method_filterMap_generated (xs : List Member) :
    (xs.filterMap fun x => (s.examine symbols o x).generated).map (·.method) =
      (xs.filter fun x => (s.examine symbols o x).stage = .rendered).map (·.id) := by
  induction xs with
  | nil => rfl
  | cons x xs ih =>
    rcases examine_cases s symbols o x with ⟨p, -, -, h⟩ | ⟨-, -, h⟩ | ⟨r, -, -, -, h⟩
    · simpa [h] using ih
    · simpa [h] using ih
    · simpa [h, generate] using ih

end Scope

/-! ## Reports of a run -/

/-- The report on a unit of a well-formed model accounts for it.

**Proof sketch.** The outcomes come from the delegating members of the scope, which are the
delegating methods of the unit, and a search from one of these in the model is the search from it
in the scope. The rest is read off the ends of the examinations. -/
lemma Catalog.accountsFor_of_report {c : Catalog} {o : Options} {u : UnitId} {r : UnitReport}
    (hm : c.model.WellFormed) (h : c.report o u = .ok r) : r.AccountsFor c.model o u := by
  obtain ⟨s, hs, rfl⟩ := report_eq_ok_iff.mp h
  have hdelegating := fun x => hm.mem_delegating_iff (x := x) hs
  have hids : ((UnitReport.ofVerdicts u (s.verdicts c.symbols o)).outcomes.map (·.1)) =
      s.delegating.map (·.id) := by
    simp [Scope.outcomes_ofVerdicts]
  refine ⟨rfl, ?sorted, ?mem, ?stage, ?aborted, ?empty, ?order, ?resolve⟩
  case sorted =>
    rw [hids]
    exact hm.sorted_delegating hs
  case mem =>
    intro id
    rw [hids, List.mem_map]
    constructor
    · rintro ⟨x, hx, rfl⟩
      exact ⟨x.method, (hdelegating x).mp hx⟩
    · rintro ⟨method, hmethod⟩
      exact ⟨⟨id, method⟩, (hdelegating ⟨id, method⟩).mpr hmethod, rfl⟩
  case stage =>
    intro id stage method hmem hmethod
    rw [Scope.outcomes_ofVerdicts, List.mem_map] at hmem
    obtain ⟨x, hx, heq⟩ := hmem
    obtain ⟨rfl, rfl⟩ := Prod.mk.inj heq
    obtain rfl : x.method = method := eq_of_eq_ok ((hdelegating x).mp hx).1 hmethod
    have hmembers : x ∈ s.members := List.mem_of_mem_filter hx
    refine ⟨_, _, hm.inScopeOf_eq _ hs hmembers, hm.inScopeOf_eq _ hs hmembers,
      Scope.stage_examine_eq_rejected_iff, ?_, ?_⟩
    · rw [Scope.stage_examine_eq_rendered_iff, Ne, Scope.find_eq_none_iff,
        Classical.not_and_iff_not_or_not]
    · rw [Scope.stage_examine_eq_unresolved_iff, Scope.find_eq_none_iff]
  case aborted =>
    simp [Scope.aborted_ofVerdicts_iff, Scope.outcomes_ofVerdicts]
  case empty =>
    intro haborted
    rw [Scope.generated_ofVerdicts, if_pos haborted]
  case order =>
    intro haborted
    rw [Scope.generated_ofVerdicts, if_neg haborted, Scope.map_method_filterMap_generated,
      Scope.outcomes_ofVerdicts, List.filter_map, List.map_map]
    rfl
  case resolve =>
    intro g hg
    obtain ⟨x, hx, -, chosen, hchosen, rfl⟩ := Scope.mem_generated_ofVerdicts hg
    refine ⟨x.method, ((hdelegating x).mp hx).1, ?_⟩
    simp only [Scope.generate]
    rw [Model.resolve, hm.inScopeOf_eq _ hs (List.mem_of_mem_filter hx), Scope.resolve, hchosen]
    rfl

/-- **Reports account for their units**: whatever units a generator has run over before, a run over
a unit of a reachable model succeeds, and its report accounts for the unit.

**Proof sketch.** Reachable models are well-formed, so that no run fails. The earlier runs leave the
options as they were, and the report depends on nothing else. -/
theorem Generator.accountsFor_of_runUnit {c : Catalog} (hc : c.Reachable) (o : Options)
    {history : List UnitId} (hhistory : ∀ v ∈ history, v.index < c.model.units.length)
    {u : UnitId} (hu : u.index < c.model.units.length) :
    ∃ earlier g r g', (Generator.start o).runUnits c history = .ok (earlier, g) ∧
      g.runUnit c u = .ok (r, g') ∧ r.AccountsFor c.model o u := by
  have hm := hc.wellFormed
  obtain ⟨earlier, g, hearlier⟩ := (Generator.start o).exists_runUnits hm hhistory
  obtain ⟨r, g', hr⟩ := g.exists_runUnit hm hu
  have hoptions : g.options = o := (forall₂_of_runUnits hearlier).2
  refine ⟨earlier, g, r, g', hearlier, hr, ?_⟩
  rw [← hoptions]
  exact Catalog.accountsFor_of_report hm (report_of_runUnit hr).1

/-- A mapper of users that uses a mapper of addresses. One of its two delegating methods has a
delegate there, the other one has none at all. -/
def Catalog.userMapping : Catalog := .ofEntries [
  .unit "com.AddressMapper" .unknown,
  .unit "com.UserMapper" .unknown,
  .use ⟨1⟩ ⟨0⟩ none,
  .method ⟨0⟩ (.ofClauses "toDto" [.param "address" "Address", .returns "AddressDto"]),
  .method ⟨1⟩ (.ofClauses "mapName" [.param "name" "Name", .returns "String", .delegating]),
  .method ⟨1⟩ (.ofClauses "mapAddress"
    [.param "source" "Address", .returns "AddressDto", .delegating])]

/-- The second run over the mapper of users accounts for it like the first one. -/
theorem Generator.accountsFor_userMapping :
    Catalog.userMapping.Reachable ∧ Catalog.userMapping.model.units.length = 2 ∧
      ∃ earlier g r g',
        (Generator.start .strict).runUnits .userMapping [⟨1⟩, ⟨0⟩] = .ok (earlier, g) ∧
        g.runUnit .userMapping ⟨1⟩ = .ok (r, g') ∧
        r.AccountsFor Catalog.userMapping.model .strict ⟨1⟩ :=
  ⟨Catalog.reachable_ofEntries _, by decide +kernel,
    accountsFor_of_runUnit (Catalog.reachable_ofEntries _) .strict (by decide +kernel)
      (by decide +kernel)⟩

/-- The method without a delegate makes the unit fail, the one with a delegate is examined all the
same. -/
example : (Catalog.userMapping.report .strict ⟨1⟩).map (fun r => (r.outcomes, r.aborted)) =
    .ok ([(⟨1⟩, .unresolved), (⟨2⟩, .rendered)], true) := by decide +kernel

/-! ## Units that fail -/

namespace Model

/-- No delegating method of the unit that is accepted lacks a delegate. -/
def Completes (m : Model) (o : Options) (u : UnitId) : Prop :=
  ∀ id method, m.method id = .ok method → method.unit = u → method.isDelegating →
    method.validate = .ok () → m.resolve (o.criteriaFor method) id ≠ .ok none

variable {m : Model} {c : Criteria} {id : MethodId}

/-- Where one search from a method succeeds, both passes of any other do so. -/
lemma exists_candidates {α : Type} {f : Scope → Member → α} {y : α}
    (h : m.inScopeOf id f = .ok y) (c : Criteria) :
    ∃ cross same, m.crossUnit c id = .ok cross ∧ m.sameUnit c id = .ok same := by
  obtain ⟨x, s, hx, hs, -⟩ := inScopeOf_eq_ok_iff.mp h
  exact ⟨_, _, inScopeOf_eq_ok_iff.mpr ⟨x, s, hx, hs, rfl⟩,
    inScopeOf_eq_ok_iff.mpr ⟨x, s, hx, hs, rfl⟩⟩

/-- The delegate of a method is the first of its candidates. -/
lemma resolve_eq {method : Method} {cross same : List Candidate}
    (hmethod : m.method id = .ok method) (hcross : m.crossUnit c id = .ok cross)
    (hsame : m.sameUnit c id = .ok same) :
    m.resolve c id = .ok ((cross ++ same).head?.map (·.reference method)) := by
  obtain ⟨x, s, hx, hs, rfl⟩ := inScopeOf_eq_ok_iff.mp hcross
  obtain ⟨x', s', hx', hs', rfl⟩ := inScopeOf_eq_ok_iff.mp hsame
  obtain rfl : x = x' := eq_of_eq_ok hx hx'
  obtain rfl : s = s' := eq_of_eq_ok hs hs'
  obtain rfl : x.method = method := eq_of_eq_ok (member_eq_ok_iff.mp hx).2 hmethod
  refine inScopeOf_eq_ok_iff.mpr ⟨x, s, hx, hs, ?_⟩
  rw [Scope.resolve, Scope.find_eq_head?]

end Model

namespace UnitReport.AccountsFor

variable {r : UnitReport} {m : Model} {o : Options} {u : UnitId} (h : r.AccountsFor m o u)
include h

/-- The last stage of an accepted method tells whether the search from it finds something. -/
lemma method_of_mem {id : MethodId} {stage : Stage} (hid : (id, stage) ∈ r.outcomes) :
    ∃ method, m.method id = .ok method ∧ method.unit = u ∧ method.isDelegating ∧
      (stage = .unresolved ↔
        method.validate = .ok () ∧ m.resolve (o.criteriaFor method) id = .ok none) ∧
      (stage = .rendered ↔
        method.validate = .ok () ∧ m.resolve (o.criteriaFor method) id ≠ .ok none) := by
  obtain ⟨method, hmethod, hunit, hdelegating⟩ :=
    (h.mem_outcomes_iff id).mp (List.mem_map_of_mem hid)
  obtain ⟨cross, same, hcross, hsame, -, hrendered, hunresolved⟩ :=
    h.stage_iff id stage method hid hmethod
  refine ⟨method, hmethod, hunit, hdelegating, ?_, ?_⟩
  · simp [hunresolved, Model.resolve_eq hmethod hcross hsame]
  · simp [hrendered, Model.resolve_eq hmethod hcross hsame, imp_iff_not_or]

/-- Every delegating method of the unit has come to a last stage. -/
lemma exists_stage {id : MethodId} {method : Method} (hmethod : m.method id = .ok method)
    (hunit : method.unit = u) (hdelegating : method.isDelegating) :
    ∃ stage, (id, stage) ∈ r.outcomes := by
  obtain ⟨⟨_, stage⟩, hid, rfl⟩ :=
    List.mem_map.mp ((h.mem_outcomes_iff id).mpr ⟨method, hmethod, hunit, hdelegating⟩)
  exact ⟨stage, hid⟩

/-- A unit fails unless it completes. -/
lemma aborted_iff_not_completes : r.aborted ↔ ¬ m.Completes o u := by
  rw [h.aborted_iff]
  constructor
  · rintro ⟨id, hid⟩ hcompletes
    obtain ⟨method, hmethod, hunit, hdelegating, hunresolved, -⟩ := h.method_of_mem hid
    obtain ⟨hvalid, hresolve⟩ := hunresolved.mp rfl
    exact hcompletes id method hmethod hunit hdelegating hvalid hresolve
  · intro hcompletes
    simp only [Model.Completes, not_forall, not_not] at hcompletes
    obtain ⟨id, method, hmethod, hunit, hdelegating, hvalid, hresolve⟩ := hcompletes
    obtain ⟨stage, hid⟩ := h.exists_stage hmethod hunit hdelegating
    obtain ⟨method', hmethod', -, -, hunresolved, -⟩ := h.method_of_mem hid
    obtain rfl : method = method' := eq_of_eq_ok hmethod hmethod'
    obtain rfl := hunresolved.mpr ⟨hvalid, hresolve⟩
    exact ⟨id, hid⟩

/-- A body is generated for each accepted method of a unit that completes. -/
lemma exists_generated_iff {id : MethodId} :
    (∃ g ∈ r.generated, g.method = id) ↔ ∃ method, m.method id = .ok method ∧ method.unit = u ∧
      method.isDelegating ∧ method.validate = .ok () ∧ m.Completes o u := by
  by_cases haborted : r.aborted
  · have hcompletes := h.aborted_iff_not_completes.mp haborted
    simp [h.generated_eq_nil haborted, hcompletes]
  have hcompletes : m.Completes o u := not_not.mp (mt h.aborted_iff_not_completes.mpr haborted)
  have hrendered : (∃ g ∈ r.generated, g.method = id) ↔ (id, .rendered) ∈ r.outcomes := by
    rw [← List.mem_map, h.map_method_generated haborted]
    simp
  rw [hrendered]
  constructor
  · intro hid
    obtain ⟨method, hmethod, hunit, hdelegating, -, hstage⟩ := h.method_of_mem hid
    exact ⟨method, hmethod, hunit, hdelegating, (hstage.mp rfl).1, hcompletes⟩
  · rintro ⟨method, hmethod, hunit, hdelegating, hvalid, -⟩
    obtain ⟨stage, hid⟩ := h.exists_stage hmethod hunit hdelegating
    obtain ⟨method', hmethod', -, -, -, hstage⟩ := h.method_of_mem hid
    obtain rfl : method = method' := eq_of_eq_ok hmethod hmethod'
    obtain rfl := hstage.mpr ⟨hvalid, hcompletes id method hmethod hunit hdelegating hvalid⟩
    exact hid

end UnitReport.AccountsFor

end MapperDelegation
