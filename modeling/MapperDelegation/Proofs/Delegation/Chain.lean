import Mathlib.Data.Set.Finite.List
import Mathlib.Order.WellFounded
import MapperDelegation.Proofs.Delegation.Outcome

set_option relaxedAutoImplicit false
set_option autoImplicit false

/-!
# Chains of delegates

A body that is generated may call a method whose own body is generated. The second pass of the
search leaves delegating methods out, but the first one does not, so that a chain goes on exactly
where the first candidate in a used unit delegates in turn. Units may use each other, and then a
chain may run in a circle.

## Main definitions

* `Output.Calls`, `Output.Generates` — which method calls which, by the bodies of a run.
* `Output.Ends` — following the calls leads to a method without a generated body.
* `Model.HandsOver` — a delegating method calls another one, by the model alone.
* `Model.Uses` — the use of one unit by another.

## Main results

* `Output.handsOver_iff` — a chain goes on exactly where a method hands over.
* `Generator.cycles_of_runModel` — the circles of a run are those of `Model.HandsOver`, the chains
  that do not end are those that run into one, and each needs a circle of uses.
-/

namespace MapperDelegation

open Relation

/-! ## Ends of chains -/

section Chains

variable {α : Type} {r : α → α → Prop} {a b x : α}

/-- Where every step is determined, a chain that ends does not run into a circle.

**Proof sketch.** Induction along the chain. At its end no step leads on, and before that the first
step of a circle is the step of the chain, so that the circle can be entered one place later. -/
lemma not_transGen_of_end (hr : Relator.RightUnique r) (hab : ReflTransGen r a b)
    (hend : ∀ y, ¬ r b y) : ¬ TransGen r a a := by
  induction hab using ReflTransGen.head_induction_on with
  | refl =>
    intro hcircle
    obtain ⟨y, hy, -⟩ := TransGen.head'_iff.mp hcircle
    exact hend y hy
  | head hstep _ ih =>
    intro hcircle
    obtain ⟨y, hy, hback⟩ := TransGen.head'_iff.mp hcircle
    obtain rfl := hr hstep hy
    exact ih (TransGen.tail' hback hstep)

/-- Where only finitely many places lead on, a chain that does not end runs into a circle.

**Proof sketch.** Without a circle the places that lead on and can be reached are well-founded by
the steps, so one of them is last. The next place is then one that does not lead on. -/
lemma exists_end_of_not_transGen (hfinite : {x | ∃ y, r x y}.Finite)
    (hcircle : ∀ x, ReflTransGen r a x → ¬ TransGen r x x) :
    ∃ b, ReflTransGen r a b ∧ ∀ y, ¬ r b y := by
  by_contra! hnone
  let reached : Set α := {x | ReflTransGen r a x ∧ ∃ y, r x y}
  have : Finite reached := (hfinite.subset fun x hx => hx.2).to_subtype
  let later : reached → reached → Prop := fun x y => TransGen r y x
  have : IsTrans reached later := ⟨fun x y z hxy hyz => hyz.trans hxy⟩
  have : Std.Irrefl later := ⟨fun x => hcircle x x.2.1⟩
  obtain ⟨⟨last, hlast, y, hy⟩, -, hmin⟩ := (Finite.wellFounded_of_trans_of_irrefl later).has_min
    Set.univ ⟨⟨a, .refl, hnone a .refl⟩, trivial⟩
  -- the place after the last one leads on as well, so it comes later still
  have hreached : ReflTransGen r a y := hlast.tail hy
  exact hmin ⟨y, hreached, hnone y hreached⟩ trivial (TransGen.single hy)

/-- A chain ends exactly if it does not run into a circle. -/
lemma exists_end_iff (hr : Relator.RightUnique r) (hfinite : {x | ∃ y, r x y}.Finite) :
    (∃ b, ReflTransGen r a b ∧ ∀ y, ¬ r b y) ↔ ¬ ∃ x, ReflTransGen r a x ∧ TransGen r x x := by
  constructor
  · rintro ⟨b, hab, hend⟩ ⟨x, hax, hcircle⟩
    rcases ReflTransGen.total_of_right_unique hr hab hax with hbx | hxb
    · obtain ⟨y, hy, -⟩ := TransGen.head'_iff.mp hcircle
      rcases hbx.cases_head with rfl | ⟨z, hz, -⟩
      · exact hend y hy
      · exact hend z hz
    · exact not_transGen_of_end hr hxb hend hcircle
  · intro hnone
    apply exists_end_of_not_transGen hfinite
    intro x hax hcircle
    exact hnone ⟨x, hax, hcircle⟩

end Chains

/-! ## Calls by the bodies of a run -/

namespace Output

/-- Some generated body of the method `a` calls the method `b`. -/
def Calls (out : Output) (a b : MethodId) : Prop :=
  ∃ r ∈ out.reports, ∃ g ∈ r.generated, g.method = a ∧ g.reference.target = b

instance (out : Output) (a b : MethodId) : Decidable (out.Calls a b) :=
  inferInstanceAs (Decidable (∃ r ∈ out.reports, ∃ g ∈ r.generated, _))

/-- Some body of the method is generated. -/
def Generates (out : Output) (id : MethodId) : Prop :=
  ∃ r ∈ out.reports, ∃ g ∈ r.generated, g.method = id

/-- Following the calls from a method leads to one without a generated body. -/
def Ends (out : Output) (id : MethodId) : Prop :=
  ∃ last, ReflTransGen out.Calls id last ∧ ¬ out.Generates last

/-- A method with a generated body is one that calls another. -/
lemma generates_iff {out : Output} {id : MethodId} : out.Generates id ↔ ∃ b, out.Calls id b := by
  constructor
  · rintro ⟨r, hr, g, hg, hid⟩
    exact ⟨g.reference.target, r, hr, g, hg, hid, rfl⟩
  · rintro ⟨b, r, hr, g, hg, hid, -⟩
    exact ⟨r, hr, g, hg, hid⟩

/-- A run generates finitely many bodies. -/
lemma finite_calls (out : Output) : {a | ∃ b, out.Calls a b}.Finite := by
  refine ((out.reports.flatMap (·.generated)).map (·.method)).finite_toSet.subset ?_
  rintro a ⟨b, r, hr, g, hg, rfl, -⟩
  exact List.mem_map_of_mem (List.mem_flatMap_of_mem hr hg)

end Output

/-! ## Delegation in a model -/

namespace Model

/-- The delegating method `a` hands over to the delegating method `b`: its unit completes, and `b`
is the first candidate in the units that it uses. -/
def HandsOver (m : Model) (o : Options) (a b : MethodId) : Prop :=
  ∃ method first rest, m.method a = .ok method ∧ method.isDelegating ∧
    method.validate = .ok () ∧ m.Completes o method.unit ∧
    m.crossUnit (o.criteriaFor method) a = .ok (first :: rest) ∧
    first.target.id = b ∧ first.target.method.isDelegating

/-- One unit uses another. -/
def Uses (m : Model) (u v : UnitId) : Prop :=
  ∃ unit, m.unit u = .ok unit ∧ ∃ use ∈ unit.uses, use.unit = v

namespace WellFormed

variable {m : Model} {o : Options} {c : Criteria} {a b : MethodId} {source target : Method}
  {candidate : Candidate} {found : List Candidate}

variable (hm : m.WellFormed)
include hm

/-- A candidate of the first pass is a method of a unit that the unit of the searching method
uses. -/
lemma target_of_mem_crossUnit (ha : m.method a = .ok source)
    (hfound : m.crossUnit c a = .ok found) (h : candidate ∈ found) :
    m.method candidate.target.id = .ok candidate.target.method ∧
      m.Uses source.unit candidate.target.method.unit := by
  obtain ⟨x, s, hx, hs, rfl⟩ := inScopeOf_eq_ok_iff.mp hfound
  obtain rfl : source = x.method := eq_of_eq_ok ha (member_eq_ok_iff.mp hx).2
  obtain ⟨unit, use, hunit, huse, -, hlookup, htarget, -⟩ := hm.of_mem_crossUnit hs h
  exact ⟨hlookup, unit, hunit, use, huse, htarget.symm⟩

/-- A candidate of the second pass does not delegate. -/
lemma target_of_mem_sameUnit (hfound : m.sameUnit c a = .ok found) (h : candidate ∈ found) :
    m.method candidate.target.id = .ok candidate.target.method ∧
      candidate.target.method.isDelegating = false := by
  obtain ⟨x, s, -, hs, rfl⟩ := inScopeOf_eq_ok_iff.mp hfound
  obtain ⟨-, hlookup, -, -, hplain, -⟩ := hm.of_mem_sameUnit hs h
  exact ⟨hlookup, hplain⟩

/-- A method hands over to a method of a unit that its own unit uses. -/
lemma uses_of_handsOver (h : m.HandsOver o a b) (ha : m.method a = .ok source)
    (hb : m.method b = .ok target) : m.Uses source.unit target.unit := by
  obtain ⟨method, first, rest, -, -, -, -, hcross, rfl, -⟩ := h
  obtain ⟨hlookup, huses⟩ := hm.target_of_mem_crossUnit ha hcross List.mem_cons_self
  rwa [eq_of_eq_ok hb hlookup]

/-- A chain of methods that hand over leads along the uses of their units. -/
lemma transGen_uses (h : TransGen (m.HandsOver o) a b) (ha : m.method a = .ok source)
    (hb : m.method b = .ok target) : TransGen m.Uses source.unit target.unit := by
  induction h generalizing target with
  | single hstep => exact .single (hm.uses_of_handsOver hstep ha hb)
  | tail _ hstep ih =>
    have ⟨method, _, _, hmethod, _⟩ := hstep
    exact (ih hmethod).tail (hm.uses_of_handsOver hstep hmethod hb)

end WellFormed

end Model

/-! ## Chains in a model -/

namespace Output

variable {c : Catalog} {g : Generator} {out : Output} {a b : MethodId}

variable (hm : c.model.WellFormed) (hout : g.runModel c = .ok out)
include hm hout

/-- The reports of a run account for the units of the model. -/
lemma accountsFor_of_mem {r : UnitReport} (hr : r ∈ out.reports) :
    ∃ u, r.AccountsFor c.model g.options u := by
  obtain ⟨u, -, hreport⟩ := exists_mem_of_forall₂ (Generator.forall₂_of_runModel hout) hr
  exact ⟨u, Catalog.accountsFor_of_report hm hreport⟩

/-- Each unit of the model has its report. -/
lemma exists_accountsFor {u : UnitId} (hu : u.index < c.model.units.length) :
    ∃ r ∈ out.reports, r.AccountsFor c.model g.options u := by
  obtain ⟨r, hr, hreport⟩ := exists_mem_of_forall₂ (Generator.forall₂_of_runModel hout).flip
    (Model.mem_unitIds_iff.mpr hu)
  exact ⟨r, hr, Catalog.accountsFor_of_report hm hreport⟩

/-- A method calls the delegate that the search finds, provided that it is accepted and that its
unit completes. -/
lemma calls_iff : out.Calls a b ↔ ∃ method reference, c.model.method a = .ok method ∧
    method.isDelegating ∧ method.validate = .ok () ∧
    c.model.Completes g.options method.unit ∧
    c.model.resolve (g.options.criteriaFor method) a = .ok (some reference) ∧
    reference.target = b := by
  constructor
  · rintro ⟨r, hr, body, hbody, rfl, rfl⟩
    obtain ⟨u, haccounts⟩ := accountsFor_of_mem hm hout hr
    obtain ⟨method, hmethod, hresolve⟩ := haccounts.resolve_eq body hbody
    obtain ⟨method', hmethod', rfl, hdelegating, hvalid, hcompletes⟩ :=
      haccounts.exists_generated_iff.mp ⟨body, hbody, rfl⟩
    obtain rfl : method = method' := eq_of_eq_ok hmethod hmethod'
    exact ⟨method, body.reference, hmethod, hdelegating, hvalid, hcompletes, hresolve, rfl⟩
  · rintro ⟨method, reference, hmethod, hdelegating, hvalid, hcompletes, hresolve, rfl⟩
    obtain ⟨r, hr, haccounts⟩ := exists_accountsFor hm hout (hm.owned hmethod)
    obtain ⟨body, hbody, rfl⟩ := haccounts.exists_generated_iff.mpr
      ⟨method, hmethod, rfl, hdelegating, hvalid, hcompletes⟩
    obtain ⟨method', hmethod', hresolve'⟩ := haccounts.resolve_eq body hbody
    obtain rfl : method = method' := eq_of_eq_ok hmethod hmethod'
    have href : some reference = some body.reference :=
      eq_of_eq_ok hresolve hresolve'
    exact ⟨r, hr, body, hbody, rfl, congrArg (·.target) (Option.some.inj href).symm⟩

/-- Every step along the calls is determined. -/
lemma rightUnique_calls : Relator.RightUnique out.Calls := by
  intro a b b' hb hb'
  obtain ⟨method, reference, hmethod, -, -, -, hresolve, rfl⟩ := (calls_iff hm hout).mp hb
  obtain ⟨method', reference', hmethod', -, -, -, hresolve', rfl⟩ := (calls_iff hm hout).mp hb'
  obtain rfl : method = method' := eq_of_eq_ok hmethod hmethod'
  have href := Option.some.inj (eq_of_eq_ok hresolve hresolve')
  rw [href]

/-- **Where chains go on**: a call leads to a delegating method exactly where a method hands over.

**Proof sketch.** The delegate is the first candidate of the two passes. The second pass leaves
delegating methods out, so a delegate that delegates in turn was found by the first one. -/
theorem handsOver_iff : c.model.HandsOver g.options a b ↔
    out.Calls a b ∧ ∃ method, c.model.method b = .ok method ∧ method.isDelegating := by
  rw [calls_iff hm hout]
  constructor
  · rintro ⟨method, first, rest, hmethod, hdelegating, hvalid, hcompletes, hcross, rfl, hfirst⟩
    obtain ⟨-, same, -, hsame⟩ := Model.exists_candidates hcross (g.options.criteriaFor method)
    obtain ⟨htarget, -⟩ := hm.target_of_mem_crossUnit hmethod hcross List.mem_cons_self
    have hresolve := Model.resolve_eq hmethod hcross hsame
    exact ⟨⟨method, _, hmethod, hdelegating, hvalid, hcompletes, hresolve, rfl⟩,
      first.target.method, htarget, hfirst⟩
  · rintro ⟨⟨method, reference, hmethod, hdelegating, hvalid, hcompletes, hresolve, rfl⟩,
      target, htarget, htarget'⟩
    obtain ⟨cross, same, hcross, hsame⟩ :=
      Model.exists_candidates hresolve (g.options.criteriaFor method)
    rw [Model.resolve_eq hmethod hcross hsame] at hresolve
    obtain ⟨first, hfirst, rfl⟩ := Option.map_eq_some_iff.mp (Except.ok.inj hresolve)
    cases cross with
    | nil =>
      -- found by the second pass, which leaves delegating methods out
      obtain ⟨hlookup, hplain⟩ := hm.target_of_mem_sameUnit hsame (List.mem_of_mem_head? hfirst)
      obtain rfl : target = first.target.method := eq_of_eq_ok htarget hlookup
      rw [hplain] at htarget'
      cases htarget'
    | cons first' rest =>
      obtain rfl : first' = first := Option.some.inj hfirst
      obtain ⟨hlookup, -⟩ := hm.target_of_mem_crossUnit hmethod hcross List.mem_cons_self
      obtain rfl : target = first'.target.method := eq_of_eq_ok htarget hlookup
      exact ⟨method, first', rest, hmethod, hdelegating, hvalid, hcompletes, hcross, rfl, htarget'⟩

/-- A chain of calls that leads to a delegating method is a chain of methods that hand over. -/
lemma transGen_handsOver (h : TransGen out.Calls a b) :
    (∃ method, c.model.method b = .ok method ∧ method.isDelegating) →
      TransGen (c.model.HandsOver g.options) a b := by
  induction h with
  | single hcall =>
    intro hb
    exact .single ((handsOver_iff hm hout).mpr ⟨hcall, hb⟩)
  | tail _ hcall ih =>
    intro hb
    obtain ⟨method, -, hmethod, hdelegating, -⟩ := (calls_iff hm hout).mp hcall
    have hchain := ih ⟨method, hmethod, hdelegating⟩
    exact hchain.tail ((handsOver_iff hm hout).mpr ⟨hcall, hb⟩)

/-- A circle of calls is a circle of methods that hand over.

**Proof sketch.** Every method on the circle calls the next one, so it delegates, and a call that
leads to a delegating method is one by which a method hands over. -/
lemma transGen_calls_self_iff :
    TransGen out.Calls a a ↔ TransGen (c.model.HandsOver g.options) a a := by
  constructor
  · intro h
    obtain ⟨b, hcall, -⟩ := TransGen.head'_iff.mp h
    obtain ⟨method, -, hmethod, hdelegating, -⟩ := (calls_iff hm hout).mp hcall
    exact transGen_handsOver hm hout h ⟨method, hmethod, hdelegating⟩
  · intro h
    exact TransGen.mono (fun _ _ hstep => ((handsOver_iff hm hout).mp hstep).1) _ _ h

/-- The circles that a chain of calls runs into are those that methods which hand over run into. -/
lemma exists_circle_iff :
    (∃ x, ReflTransGen out.Calls a x ∧ TransGen out.Calls x x) ↔
      ∃ x, ReflTransGen (c.model.HandsOver g.options) a x ∧
        TransGen (c.model.HandsOver g.options) x x := by
  apply exists_congr
  intro x
  rw [transGen_calls_self_iff hm hout, and_congr_left_iff]
  intro hcircle
  obtain ⟨y, ⟨method, -, -, hmethod, hdelegating, -⟩, -⟩ := TransGen.head'_iff.mp hcircle
  constructor
  · intro h
    rcases reflTransGen_iff_eq_or_transGen.mp h with rfl | h
    · exact .refl
    · exact (transGen_handsOver hm hout h ⟨method, hmethod, hdelegating⟩).to_reflTransGen
  · intro h
    exact ReflTransGen.mono (fun _ _ hstep => ((handsOver_iff hm hout).mp hstep).1) _ _ h

end Output

/-- **The circles of a run**: a run over a reachable model succeeds, and

* a method reaches itself along the calls exactly if it does so along methods that hand over;
* following the calls from a method leads to one without a generated body exactly if it does not
  run into such a circle;
* the unit of a method on a circle reaches itself along the uses, so that there is no circle
  unless units use each other.

**Proof sketch.** The circles are compared call by call. A run generates finitely many bodies and
every call is determined, so that a chain of calls either ends or runs into a circle. -/
theorem Generator.cycles_of_runModel {c : Catalog} (hc : c.Reachable) (g : Generator) :
    ∃ out, g.runModel c = .ok out ∧
      (∀ id, TransGen out.Calls id id ↔ TransGen (c.model.HandsOver g.options) id id) ∧
      (∀ id, out.Ends id ↔ ¬ ∃ x, ReflTransGen (c.model.HandsOver g.options) id x ∧
        TransGen (c.model.HandsOver g.options) x x) ∧
      ∀ id method, c.model.method id = .ok method → TransGen out.Calls id id →
        TransGen c.model.Uses method.unit method.unit := by
  have hm := hc.wellFormed
  obtain ⟨out, hout⟩ := g.exists_runModel hm
  refine ⟨out, hout, fun id => Output.transGen_calls_self_iff hm hout, ?_, ?_⟩
  · intro id
    rw [← Output.exists_circle_iff hm hout,
      ← exists_end_iff (Output.rightUnique_calls hm hout) out.finite_calls]
    simp only [Output.Ends, Output.generates_iff, not_exists]
  · intro id method hmethod hcircle
    rw [Output.transGen_calls_self_iff hm hout] at hcircle
    exact hm.transGen_uses hcircle hmethod hmethod

/-- Two mappers that use each other, each with a method that delegates to the other one. -/
def Catalog.mutualMapping : Catalog := .ofEntries [
  .unit "com.OrderMapper" .unknown,
  .unit "com.CustomerMapper" .unknown,
  .use ⟨0⟩ ⟨1⟩ none,
  .use ⟨1⟩ ⟨0⟩ none,
  .method ⟨0⟩ (.ofClauses "toDto" [.param "order" "Order", .returns "OrderDto", .delegating]),
  .method ⟨1⟩ (.ofClauses "toDto" [.param "order" "Order", .returns "OrderDto", .delegating])]

/-- The circles of the run over the two mappers. -/
theorem Generator.cycles_mutualMapping :
    Catalog.mutualMapping.Reachable ∧ ∃ out, (start {}).runModel .mutualMapping = .ok out ∧
      (∀ id, TransGen out.Calls id id ↔
        TransGen (Catalog.mutualMapping.model.HandsOver {}) id id) ∧
      (∀ id, out.Ends id ↔ ¬ ∃ x,
        ReflTransGen (Catalog.mutualMapping.model.HandsOver {}) id x ∧
        TransGen (Catalog.mutualMapping.model.HandsOver {}) x x) ∧
      ∀ id method, Catalog.mutualMapping.model.method id = .ok method →
        TransGen out.Calls id id →
          TransGen Catalog.mutualMapping.model.Uses method.unit method.unit :=
  ⟨Catalog.reachable_ofEntries _, cycles_of_runModel (Catalog.reachable_ofEntries _) (start {})⟩

/-- The two methods call each other, and the calls from them do not end. -/
theorem Generator.exists_cycle_mutualMapping :
    ∃ out, (start {}).runModel .mutualMapping = .ok out ∧ out.Calls ⟨0⟩ ⟨1⟩ ∧
      out.Calls ⟨1⟩ ⟨0⟩ ∧ TransGen out.Calls ⟨0⟩ ⟨0⟩ ∧ out.Generates ⟨0⟩ ∧ ¬ out.Ends ⟨0⟩ := by
  have hm : Catalog.mutualMapping.model.WellFormed :=
    (Catalog.reachable_ofEntries _).wellFormed
  obtain ⟨out, hout⟩ := (start {}).exists_runModel hm
  have hcalls : ((start {}).runModel .mutualMapping).map
      (fun out => decide (out.Calls ⟨0⟩ ⟨1⟩ ∧ out.Calls ⟨1⟩ ⟨0⟩)) = .ok true := by decide +kernel
  rw [hout] at hcalls
  obtain ⟨hforth, hback⟩ := of_decide_eq_true (Except.ok.inj hcalls)
  have hcircle : TransGen out.Calls ⟨0⟩ ⟨0⟩ := .tail (.single hforth) hback
  refine ⟨out, hout, hforth, hback, hcircle, Output.generates_iff.mpr ⟨_, hforth⟩, ?_⟩
  rintro ⟨last, hlast, hend⟩
  have hnone : ∀ y, ¬ out.Calls last y := by
    intro y hy
    apply hend
    exact Output.generates_iff.mpr ⟨y, hy⟩
  exact not_transGen_of_end (Output.rightUnique_calls hm hout) hlast hnone hcircle

end MapperDelegation
