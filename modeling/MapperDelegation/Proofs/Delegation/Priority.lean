import Mathlib.Data.Prod.Lex
import MapperDelegation.Proofs.Delegation.Emission
import MapperDelegation.Proofs.Delegation.Range
import MapperDelegation.Proofs.Delegation.Soundness

set_option relaxedAutoImplicit false
set_option autoImplicit false

/-!
# The priority of delegates

A method is offered delegates at two kinds of places. The used units offer their public methods,
each at a pair of positions: the one of the unit among the used units, and the one of the method in
that unit. The unit of the method offers its other members at their positions. The search goes
through these places in their order, those of used units first, and the second kind counts only if
there is nothing of the first kind at all.

## Main definitions

* `InOrder`, `IsFirst` — a list of what stands at some positions, and what stands at the first one.
* `Criteria.Admits` — the methods that will do as a delegate.
* `Model.CrossOffer`, `Model.OwnOffer` — what is offered to a method at which position.
* `Model.SearchAnswer` — what a search has to answer, in terms of the offers.

## Main results

* `InOrder.head?_eq_some_iff` — a list in order begins with what stands at the first position.
* `Scope.inOrder_crossUnit`, `Scope.inOrder_sameUnit` — the two passes go through the positions in
  order.
* `Catalog.find_of_reachable` — both ways of searching answer by the order of positions.
-/

namespace MapperDelegation

/-! ## Lists in the order of positions -/

section Positions

variable {ι α β : Type} {R : ι → α → Prop} {xs : List α} {x : α}

/-- The list `xs` has what `R` places at the positions, each entry once and in their order. -/
def InOrder [LT ι] (R : ι → α → Prop) (xs : List α) : Prop :=
  ∃ entries : List (ι × α), entries.Pairwise (·.1 < ·.1) ∧
    (∀ i x, (i, x) ∈ entries ↔ R i x) ∧ entries.map (·.2) = xs

/-- What `R` places at the first position where it places anything. -/
def IsFirst [LE ι] (R : ι → α → Prop) (x : α) : Prop := ∃ i, R i x ∧ ∀ j y, R j y → i ≤ j

namespace InOrder

lemma congr [LT ι] {R' : ι → α → Prop} (h : InOrder R xs) (hR : ∀ i x, R i x ↔ R' i x) :
    InOrder R' xs := by
  obtain ⟨entries, hsorted, hmem, hxs⟩ := h
  exact ⟨entries, hsorted, fun i x => (hmem i x).trans (hR i x), hxs⟩

/-- A list in order begins with what stands at the first position. -/
lemma head?_eq_some_iff [LinearOrder ι] (h : InOrder R xs) :
    xs.head? = some x ↔ IsFirst R x := by
  obtain ⟨entries, hsorted, hmem, rfl⟩ := h
  cases entries with
  | nil =>
    have hnone : ∀ i y, ¬ R i y := fun i y hy => List.not_mem_nil ((hmem i y).mpr hy)
    simp [IsFirst, hnone]
  | cons first rest =>
    have hfirst : R first.1 first.2 := (hmem first.1 first.2).mp List.mem_cons_self
    have hleast := (List.pairwise_cons.mp hsorted).1
    rw [List.map_cons, List.head?_cons, Option.some.injEq]
    constructor
    · rintro rfl
      refine ⟨first.1, hfirst, fun j y hy => ?_⟩
      rcases List.mem_cons.mp ((hmem j y).mpr hy) with heq | hrest
      · rw [← heq]
      · exact (hleast _ hrest).le
    · rintro ⟨i, hi, hmin⟩
      rcases List.mem_cons.mp ((hmem i x).mpr hi) with heq | hrest
      · rw [← heq]
      · exact absurd (hmin _ _ hfirst) (not_le_of_gt (hleast _ hrest))

/-- A list in order is empty if there is nothing at any position. -/
lemma eq_nil_iff [LT ι] (h : InOrder R xs) : xs = [] ↔ ∀ i x, ¬ R i x := by
  obtain ⟨entries, -, hmem, rfl⟩ := h
  rw [List.map_eq_nil_iff, List.eq_nil_iff_forall_not_mem]
  simp [← hmem]

end InOrder

/-- The positions of a list in their order. -/
lemma pairwise_zipIdx (xs : List α) : xs.zipIdx.Pairwise (·.2 < ·.2) := by
  have h : (xs.zipIdx.map Prod.snd).Pairwise (· < ·) := by
    rw [List.zipIdx_map_snd]
    exact List.pairwise_lt_range'
  rwa [List.pairwise_map] at h

/-- The entries of a list that pass a test are in the order of their positions. -/
lemma inOrder_filter_map (xs : List α) (p : α → Bool) (f : α → β) :
    InOrder (fun (i : ℕ) y => ∃ x, xs[i]? = some x ∧ p x ∧ y = f x) ((xs.filter p).map f) := by
  refine ⟨(xs.zipIdx.filter fun e => p e.1).map fun e => (e.2, f e.1), ?_, ?_, ?_⟩
  · rw [List.pairwise_map]
    exact (pairwise_zipIdx xs).filter _
  · intro i y
    simp only [List.mem_map, List.mem_filter, List.mem_zipIdx_iff_getElem?, Prod.mk.injEq]
    constructor
    · rintro ⟨⟨x, j⟩, ⟨hx, hp⟩, rfl, rfl⟩
      exact ⟨x, hx, hp, rfl⟩
    · rintro ⟨x, hx, hp, rfl⟩
      exact ⟨(x, i), ⟨hx, hp⟩, rfl, rfl⟩
  · conv_rhs => rw [← List.zipIdx_map_fst 0 xs, List.filter_map, List.map_map]
    rw [List.map_map]
    rfl

/-- Lists one after the other, each of them in order, are in the order of pairs of positions.

**Proof sketch.** Each entry gets the position of its list in front of its own. Within one list the
second positions grow, and from one list to the next the first ones do. -/
lemma inOrder_flatMap (xs : List α) {f : α → List β} {R : α → ℕ → β → Prop}
    (h : ∀ x, InOrder (R x) (f x)) :
    InOrder (fun (position : ℕ ×ₗ ℕ) y =>
      ∃ x, xs[(ofLex position).1]? = some x ∧ R x (ofLex position).2 y) (xs.flatMap f) := by
  choose entries hsorted hmem hmap using h
  refine ⟨xs.zipIdx.flatMap fun e => (entries e.1).map fun entry => (toLex (e.2, entry.1), entry.2),
    ?_, ?_, ?_⟩
  · rw [List.pairwise_flatMap]
    constructor
    · rintro ⟨x, i⟩ -
      rw [List.pairwise_map]
      refine (hsorted x).imp ?_
      intro a b hlt
      exact Prod.Lex.toLex_lt_toLex.mpr (.inr ⟨rfl, hlt⟩)
    · refine (pairwise_zipIdx xs).imp ?_
      intro a b hlt e he e' he'
      obtain ⟨entry, -, rfl⟩ := List.mem_map.mp he
      obtain ⟨entry', -, rfl⟩ := List.mem_map.mp he'
      exact Prod.Lex.toLex_lt_toLex.mpr (.inl hlt)
  · intro position y
    simp only [List.mem_flatMap, List.mem_map, List.mem_zipIdx_iff_getElem?, Prod.mk.injEq]
    constructor
    · rintro ⟨⟨x, i⟩, hx, ⟨j, z⟩, hentry, rfl, rfl⟩
      exact ⟨x, hx, (hmem x j z).mp hentry⟩
    · rintro ⟨x, hx, hy⟩
      exact ⟨(x, (ofLex position).1), hx, ((ofLex position).2, y), (hmem x _ y).mpr hy, rfl, rfl⟩
  · conv_rhs => rw [← List.zipIdx_map_fst 0 xs, List.flatMap_map]
    rw [List.map_flatMap]
    simp only [List.map_map, Function.comp_def, hmap]

end Positions

/-! ## Offers -/

/-- The methods that will do as a delegate of `source`: those that go by the name that is asked for,
and if no name is asked for, those of the same signature. -/
def Criteria.Admits (c : Criteria) (source candidate : Method) : Prop :=
  match c.qualifier with
  | some (.byName name) => candidate.GoesBy c.matching name
  | _ => candidate.returnType = source.returnType ∧ candidate.paramTypes = source.paramTypes

namespace Model

/-- What the used units of `user` offer to the method `source`: at the position `(i, j)` it is the
`j`-th method of the `i`-th used unit, if this is a public one that meets the criteria. -/
def CrossOffer (m : Model) (c : Criteria) (source : Method) (user : MapperUnit)
    (position : ℕ ×ₗ ℕ) (candidate : Candidate) : Prop :=
  ∃ use used, user.uses[(ofLex position).1]? = some use ∧ m.unit use.unit = .ok used ∧
    used.methods[(ofLex position).2]? = some candidate.target.id ∧
    m.method candidate.target.id = .ok candidate.target.method ∧
    candidate.owner = .usedUnit use ∧
    candidate.target.method.visibility = .all ∧ candidate.target.method.kind = .method ∧
    c.Admits source candidate.target.method

/-- What the unit `user` itself offers to its method `source`: at the position `j` it is the `j`-th
member, if this is another method that is not private, does not delegate and meets the criteria. -/
def OwnOffer (m : Model) (c : Criteria) (source : Member) (user : MapperUnit) (position : ℕ)
    (candidate : Candidate) : Prop :=
  user.methods[position]? = some candidate.target.id ∧
    m.method candidate.target.id = .ok candidate.target.method ∧
    candidate.owner = .sameUnit ∧ candidate.target.id ≠ source.id ∧
    candidate.target.method.visibility ≠ .unit ∧ candidate.target.method.kind = .method ∧
    candidate.target.method.delegate = none ∧
    c.Admits source.method candidate.target.method

/-- What a search has to answer, alone and with the alternatives, if `cross` and `own` are the
offers of the used units and of the unit itself. -/
structure SearchAnswer (cross : ℕ ×ₗ ℕ → Candidate → Prop) (own : ℕ → Candidate → Prop)
    (found : Option Candidate) (resolution : Option Resolution) : Prop where
  /-- The first offer of the used units is chosen, or the first one of the unit itself if the used
  units offer nothing. -/
  found_eq_some_iff : ∀ candidate, found = some candidate ↔
    IsFirst cross candidate ∨ (∀ i x, ¬ cross i x) ∧ IsFirst own candidate
  found_eq_none_iff : found = none ↔ (∀ i x, ¬ cross i x) ∧ ∀ i x, ¬ own i x
  map_chosen_eq : resolution.map (·.chosen) = found
  /-- The chosen offer and the alternatives are all the offers of the kind that decides, in the
  order of their positions. -/
  inOrder : ∀ r, resolution = some r →
    (∃ i x, cross i x) ∧ InOrder cross (r.chosen :: r.alternatives) ∨
      (∀ i x, ¬ cross i x) ∧ InOrder own (r.chosen :: r.alternatives)

end Model

/-! ## The two passes -/

/-- The test of a candidate lets through the methods that meet the criteria. -/
lemma Criteria.accepts_iff_admits {c : Criteria} {source candidate : Method} :
    c.accepts source candidate ↔ c.Admits source candidate := by
  have hsignature : source.compatible candidate ↔
      candidate.returnType = source.returnType ∧ candidate.paramTypes = source.paramTypes := by
    rw [Method.compatible_iff]
    exact and_congr eq_comm eq_comm
  obtain ⟨matching, qualifier⟩ := c
  rcases qualifier with _ | name | type
  · exact hsignature
  · exact Method.admits_byName_iff
  · exact hsignature

namespace Scope

variable {s : Scope} {c : Criteria} {x y : Member}

/-- The test of the first pass, spelled out. -/
lemma crossTest_iff : (y.method.isMethod && y.method.isPublic && c.accepts x.method y.method) ↔
    y.method.visibility = .all ∧ y.method.kind = .method ∧ c.Admits x.method y.method := by
  rw [Bool.and_eq_true, Bool.and_eq_true, Criteria.accepts_iff_admits]
  simp only [Method.isMethod, Method.isPublic, decide_eq_true_eq]
  rw [and_assoc, and_left_comm]

/-- The test of the second pass, spelled out. -/
lemma ownTest_iff : (y.id ≠ x.id && !y.method.isDelegating && y.method.isMethod &&
      y.method.visibility ≠ .unit && c.accepts x.method y.method) ↔
    y.id ≠ x.id ∧ y.method.visibility ≠ .unit ∧ y.method.kind = .method ∧
      y.method.delegate = none ∧ c.Admits x.method y.method := by
  rw [Bool.and_eq_true, Criteria.accepts_iff_admits]
  simp only [Bool.and_eq_true, Method.isMethod, Method.isDelegating, decide_eq_true_eq,
    Bool.not_eq_true', Option.isSome_eq_false_iff, Option.isNone_iff_eq_none]
  constructor
  · rintro ⟨⟨⟨⟨hother, hdelegate⟩, hkind⟩, hvisible⟩, hadmits⟩
    exact ⟨hother, hvisible, hkind, hdelegate, hadmits⟩
  · rintro ⟨hother, hvisible, hkind, hdelegate, hadmits⟩
    exact ⟨⟨⟨⟨hother, hdelegate⟩, hkind⟩, hvisible⟩, hadmits⟩

/-- The first pass goes through the used units and through the members of each of them in order. -/
lemma inOrder_crossUnit : InOrder (fun (position : ℕ ×ₗ ℕ) candidate =>
    ∃ p, s.providers[(ofLex position).1]? = some p ∧ ∃ y, p.members[(ofLex position).2]? = some y ∧
      (y.method.isMethod && y.method.isPublic && c.accepts x.method y.method) ∧
      candidate = ⟨y, .usedUnit p.use⟩) (s.crossUnit c x) :=
  inOrder_flatMap _ fun _ => inOrder_filter_map _ _ _

/-- The second pass goes through the members of the unit in order. -/
lemma inOrder_sameUnit : InOrder (fun (position : ℕ) candidate =>
    ∃ y, s.members[position]? = some y ∧ (y.id ≠ x.id && !y.method.isDelegating &&
      y.method.isMethod && y.method.visibility ≠ .unit && c.accepts x.method y.method) ∧
      candidate = ⟨y, .sameUnit⟩) (s.sameUnit c x) :=
  inOrder_filter_map _ _ _

/-- A search answers by the order of positions if both passes go through them in order.

**Proof sketch.** The delegate is the first candidate of both passes, one after the other, and the
alternatives are the candidates after it in the pass that decides. -/
lemma searchAnswer {cross : ℕ ×ₗ ℕ → Candidate → Prop} {own : ℕ → Candidate → Prop}
    (hcross : InOrder cross (s.crossUnit c x)) (hown : InOrder own (s.sameUnit c x)) :
    Model.SearchAnswer cross own (s.find c x) (s.resolveAll c x) := by
  have hchosen := s.map_chosen_resolveAll c x
  by_cases hempty : s.crossUnit c x = []
  · have hnone := hcross.eq_nil_iff.mp hempty
    have hfirst : ∀ candidate, ¬ IsFirst cross candidate :=
      fun candidate ⟨i, hi, _⟩ => hnone i candidate hi
    have hcandidates : s.candidates c x = s.sameUnit c x := by
      rw [candidates_eq, if_pos hempty]
    refine ⟨fun candidate => ?_, ?_, hchosen, fun r hr => .inr ⟨hnone, ?_⟩⟩
    · rw [find_eq_head?_candidates, hcandidates, hown.head?_eq_some_iff]
      simp [hfirst, hnone]
    · rw [find_eq_head?_candidates, hcandidates, List.head?_eq_none_iff, hown.eq_nil_iff]
      simp [hnone]
    · rwa [← resolveAll_eq_some_iff.mp hr, hcandidates]
  · have hsome : ∃ i candidate, cross i candidate := by
      rw [hcross.eq_nil_iff] at hempty
      simpa using hempty
    have hnone : ¬ ∀ i candidate, ¬ cross i candidate := by simpa using hsome
    have hcandidates : s.candidates c x = s.crossUnit c x := by
      rw [candidates_eq, if_neg hempty]
    refine ⟨fun candidate => ?_, ?_, hchosen, fun r hr => .inl ⟨hsome, ?_⟩⟩
    · rw [find_eq_head?_candidates, hcandidates, hcross.head?_eq_some_iff,
        or_iff_left fun h => hnone h.1]
    · rw [find_eq_head?_candidates, hcandidates, List.head?_eq_none_iff]
      exact iff_of_false hempty fun h => hnone h.1
    · rwa [← resolveAll_eq_some_iff.mp hr, hcandidates]

end Scope

/-! ## Offers of a model -/

namespace Model

variable {m : Model} {u : UnitId} {user : MapperUnit} {s : Scope} {c : Criteria} {x : Member}

variable (hs : m.scope u = .ok s) (hu : m.unit u = .ok user)
include hs hu

/-- What the first pass finds are the offers of the used units. -/
lemma inOrder_crossOffer : InOrder (m.CrossOffer c x.method user) (s.crossUnit c x) := by
  obtain ⟨unit, hunit, -, -, hproviders⟩ := scope_eq_ok_iff.mp hs
  obtain rfl : unit = user := eq_of_eq_ok hunit hu
  refine Scope.inOrder_crossUnit.congr fun position candidate => ?_
  constructor
  · rintro ⟨p, hp, y, hy, htest, rfl⟩
    obtain ⟨use, huse, hprovider⟩ := exists_getElem?_of_forall₂ hproviders.flip hp
    obtain ⟨rfl, ⟨used, hused, -⟩, hmembers⟩ := provider_eq_ok_iff.mp hprovider
    obtain ⟨hid, hmethod⟩ := (getElem?_members_iff hused hmembers).mp hy
    exact ⟨p.use, used, huse, hused, hid, hmethod, rfl, Scope.crossTest_iff.mp htest⟩
  · rintro ⟨use, used, huse, hused, hid, hmethod, howner, htest⟩
    obtain ⟨p, hp, hprovider⟩ := exists_getElem?_of_forall₂ hproviders huse
    obtain ⟨rfl, -, hmembers⟩ := provider_eq_ok_iff.mp hprovider
    exact ⟨p, hp, candidate.target, (getElem?_members_iff hused hmembers).mpr ⟨hid, hmethod⟩,
      Scope.crossTest_iff.mpr htest, by rw [← howner]⟩

/-- What the second pass finds are the offers of the unit itself. -/
lemma inOrder_ownOffer : InOrder (m.OwnOffer c x user) (s.sameUnit c x) := by
  obtain ⟨-, -, -, hmembers, -⟩ := scope_eq_ok_iff.mp hs
  refine Scope.inOrder_sameUnit.congr fun position candidate => ?_
  constructor
  · rintro ⟨y, hy, htest, rfl⟩
    obtain ⟨hid, hmethod⟩ := (getElem?_members_iff hu hmembers).mp hy
    exact ⟨hid, hmethod, rfl, Scope.ownTest_iff.mp htest⟩
  · rintro ⟨hid, hmethod, howner, htest⟩
    exact ⟨candidate.target, (getElem?_members_iff hu hmembers).mpr ⟨hid, hmethod⟩,
      Scope.ownTest_iff.mpr htest, by rw [← howner]⟩

end Model

/-- **The order of priority**: a search from a method of a reachable model succeeds with and without
alternatives. It answers by the positions of used units and of methods, whatever the criteria.

**Proof sketch.** The scope of a unit shows at each position what the model stores there, and the
two passes go through the positions in order. -/
theorem Catalog.find_of_reachable {c : Catalog} (hc : c.Reachable) (criteria : Criteria)
    {id : MethodId} (hid : id.index < c.model.methods.length) :
    ∃ source user found resolution, c.model.method id = .ok source ∧
      c.model.unit source.unit = .ok user ∧ c.model.find criteria id = .ok found ∧
      c.model.resolveAll criteria id = .ok resolution ∧
      Model.SearchAnswer (c.model.CrossOffer criteria source user)
        (c.model.OwnOffer criteria ⟨id, source⟩ user) found resolution := by
  have hm := hc.wellFormed
  have hmethod : c.model.method id = .ok c.model.methods[id.index] :=
    Model.method_eq_ok_iff.mpr (List.getElem?_eq_getElem hid)
  obtain ⟨user, huser⟩ := Model.exists_unit (hm.owned hmethod)
  obtain ⟨s, hs, hx⟩ := hm.exists_scope_of_method hmethod
  have hcross := Model.inOrder_crossOffer (c := criteria) (x := ⟨id, c.model.methods[id.index]⟩)
    hs huser
  exact ⟨_, user, _, _, hmethod, huser, hm.inScopeOf_eq _ hs hx, hm.inScopeOf_eq _ hs hx,
    Scope.searchAnswer hcross (Model.inOrder_ownOffer hs huser)⟩

/-- The search from a method that has two delegates in a used unit. -/
theorem Catalog.find_contestedMapping :
    contestedMapping.Reachable ∧ 3 < contestedMapping.model.methods.length ∧
      ∃ source user found resolution, contestedMapping.model.method ⟨3⟩ = .ok source ∧
        contestedMapping.model.unit source.unit = .ok user ∧
        contestedMapping.model.find {} ⟨3⟩ = .ok found ∧
        contestedMapping.model.resolveAll {} ⟨3⟩ = .ok resolution ∧
        Model.SearchAnswer (contestedMapping.model.CrossOffer {} source user)
          (contestedMapping.model.OwnOffer {} ⟨⟨3⟩, source⟩ user) found resolution :=
  ⟨reachable_ofEntries _, by decide +kernel,
    find_of_reachable (reachable_ofEntries _) {} (by decide +kernel)⟩

/-- Both methods of the used unit match, and the one that comes first is chosen. -/
example : (Catalog.contestedMapping.model.resolveAll {} ⟨3⟩).map (·.map fun r =>
    (r.chosen.target.id, r.alternatives.map (·.target.id))) = .ok (some (⟨0⟩, [⟨1⟩])) := by
  decide +kernel

end MapperDelegation
