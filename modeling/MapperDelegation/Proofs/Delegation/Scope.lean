import MapperDelegation.Delegation.Scope
import MapperDelegation.Proofs.Mapper.WellFormed

set_option relaxedAutoImplicit false
set_option autoImplicit false

/-!
# Scopes of well-formed models

In a well-formed model every unit has a scope, and the scope shows what it should: the members of
the unit are the methods that belong to it, and behind each use stand the members of the used
unit. A search that starts from a method therefore takes place in the scope in which the method
itself stands.

## Main definitions

* `Scope.candidates` — the candidates of the pass that decides.

## Main results

* `Model.WellFormed.exists_scope` — every unit has a scope.
* `Model.WellFormed.mem_members_iff`, `Model.WellFormed.mem_delegating_iff` — the members of a unit
  are the methods that belong to it.
* `Model.WellFormed.inScopeOf_eq` — a search from a member of a scope is a search in that scope.
* `Scope.mem_crossUnit_iff`, `Scope.mem_sameUnit_iff` — what the two passes find.
* `Scope.find_eq_head?` — the delegate is the first candidate of the two passes.
* `Scope.find_eq_head?_candidates`, `Scope.resolveAll_eq` — both searches told by the candidates of
  the pass that decides.
* `Model.WellFormed.of_mem_crossUnit`, `Model.WellFormed.of_mem_sameUnit` — where the candidates
  stand in the model.
-/

namespace MapperDelegation

/-! ## What a scope shows -/

namespace Model

variable {m : Model} {u : UnitId} {unit : MapperUnit} {s : Scope} {x : Member}

/-- A member is a method under its handle. -/
lemma member_eq_ok_iff {id : MethodId} :
    m.member id = .ok x ↔ x.id = id ∧ m.method id = .ok x.method := by
  obtain ⟨id', method⟩ := x
  simp only [member, map_eq_ok_iff, Member.mk.injEq]
  constructor
  · rintro ⟨_, hmethod, rfl, rfl⟩
    exact ⟨rfl, hmethod⟩
  · rintro ⟨rfl, hmethod⟩
    exact ⟨_, hmethod, rfl, rfl⟩

/-- The members of a unit are looked up one by one. -/
lemma members_eq_ok_iff {members : List Member} :
    m.members u = .ok members ↔ ∃ unit, m.unit u = .ok unit ∧
      List.Forall₂ (fun id x => m.member id = .ok x) unit.methods members := by
  simp only [Model.members, bind_eq_ok_iff, mapM_eq_ok_iff]

/-- The handles of the members are those that the unit lists. -/
lemma map_id_members {members : List Member} (hu : m.unit u = .ok unit)
    (h : m.members u = .ok members) : members.map (·.id) = unit.methods := by
  obtain ⟨unit', hu', hmembers⟩ := members_eq_ok_iff.mp h
  obtain rfl : unit = unit' := eq_of_eq_ok hu hu'
  have hids : List.Forall₂ (· = ·) unit.methods (members.map (·.id)) :=
    List.forall₂_map_right_iff.mpr (hmembers.imp fun _ _ hx => (member_eq_ok_iff.mp hx).1.symm)
  rw [List.forall₂_eq_eq_eq] at hids
  exact hids.symm

/-- At each position stands the method whose handle the unit lists there. -/
lemma getElem?_members_iff {members : List Member} (hu : m.unit u = .ok unit)
    (h : m.members u = .ok members) {i : Nat} :
    members[i]? = some x ↔ unit.methods[i]? = some x.id ∧ m.method x.id = .ok x.method := by
  obtain ⟨unit', hu', hmembers⟩ := members_eq_ok_iff.mp h
  obtain rfl : unit = unit' := eq_of_eq_ok hu hu'
  constructor
  · intro hx
    obtain ⟨id, hid, hmember⟩ := exists_getElem?_of_forall₂ hmembers.flip hx
    obtain ⟨rfl, hmethod⟩ := member_eq_ok_iff.mp hmember
    exact ⟨hid, hmethod⟩
  · rintro ⟨hid, hmethod⟩
    obtain ⟨y, hy, hmember⟩ := exists_getElem?_of_forall₂ hmembers hid
    obtain rfl : x = y := eq_of_eq_ok (member_eq_ok_iff.mpr ⟨rfl, hmethod⟩) hmember
    exact hy

/-- A provider shows the type and the members of the used unit. -/
lemma provider_eq_ok_iff {use : UsedUnit} {p : Provider} :
    m.provider use = .ok p ↔ p.use = use ∧ (∃ unit, m.unit use.unit = .ok unit ∧
      p.type = unit.type) ∧ m.members use.unit = .ok p.members := by
  obtain ⟨use', type, members⟩ := p
  simp only [provider, bind_eq_ok_iff, pure, Except.pure, Except.ok.injEq, Provider.mk.injEq]
  constructor
  · rintro ⟨unit, hunit, members', hmembers, rfl, rfl, rfl⟩
    exact ⟨rfl, ⟨unit, hunit, rfl⟩, hmembers⟩
  · rintro ⟨rfl, ⟨unit, hunit, rfl⟩, hmembers⟩
    exact ⟨unit, hunit, members, hmembers, rfl, rfl, rfl⟩

/-- A scope shows the members of its unit and one provider for each use. -/
lemma scope_eq_ok_iff :
    m.scope u = .ok s ↔ ∃ unit, m.unit u = .ok unit ∧ s.unitName = unit.name ∧
      m.members u = .ok s.members ∧
      List.Forall₂ (fun use p => m.provider use = .ok p) unit.uses s.providers := by
  obtain ⟨unitName, members, providers⟩ := s
  simp only [Model.scope, bind_eq_ok_iff, mapM_eq_ok_iff, pure, Except.pure, Except.ok.injEq,
    Scope.mk.injEq]
  constructor
  · rintro ⟨unit, hunit, members', hmembers, providers', hproviders, rfl, rfl, rfl⟩
    exact ⟨unit, hunit, rfl, hmembers, hproviders⟩
  · rintro ⟨unit, hunit, rfl, hmembers, hproviders⟩
    exact ⟨unit, hunit, members, hmembers, providers, hproviders, rfl, rfl, rfl⟩

/-- A search from a method takes place in the scope of its unit. -/
lemma inScopeOf_eq_ok_iff {α : Type} {id : MethodId} {f : Scope → Member → α} {a : α} :
    m.inScopeOf id f = .ok a ↔
      ∃ x s, m.member id = .ok x ∧ m.scope x.method.unit = .ok s ∧ f s x = a := by
  simp only [inScopeOf, bind_eq_ok_iff, pure, Except.pure, Except.ok.injEq]
  constructor
  · rintro ⟨x, hx, s, hs, h⟩
    exact ⟨x, s, hx, hs, h⟩
  · rintro ⟨x, s, hx, hs, h⟩
    exact ⟨x, hx, s, hs, h⟩

namespace WellFormed

variable (hm : m.WellFormed)
include hm

/-- The members of a unit are the methods that belong to it. -/
lemma mem_members_iff {members : List Member} (h : m.members u = .ok members) :
    x ∈ members ↔ m.method x.id = .ok x.method ∧ x.method.unit = u := by
  obtain ⟨unit, hunit, -⟩ := members_eq_ok_iff.mp h
  have hlisted := (hm.unit hunit).mem_methods_iff
  simp only [List.mem_iff_getElem?, getElem?_members_iff hunit h, exists_and_right]
  rw [← List.mem_iff_getElem?, hlisted]
  constructor
  · rintro ⟨⟨method, hmethod, hunit'⟩, hmethod'⟩
    obtain rfl : x.method = method := eq_of_eq_ok hmethod' hmethod
    exact ⟨hmethod', hunit'⟩
  · rintro ⟨hmethod, hunit'⟩
    exact ⟨⟨x.method, hmethod, hunit'⟩, hmethod⟩

/-- The delegating members of a scope are the delegating methods of its unit. -/
lemma mem_delegating_iff (hs : m.scope u = .ok s) :
    x ∈ s.delegating ↔
      m.method x.id = .ok x.method ∧ x.method.unit = u ∧ x.method.isDelegating := by
  obtain ⟨-, -, -, hmembers, -⟩ := scope_eq_ok_iff.mp hs
  rw [Scope.delegating, List.mem_filter, hm.mem_members_iff hmembers, and_assoc]

/-- The members of a unit can all be looked up. -/
lemma exists_members (hu : u.index < m.units.length) : ∃ members, m.members u = .ok members := by
  obtain ⟨unit, hunit⟩ := exists_unit hu
  obtain ⟨members, hmembers⟩ : ∃ members, unit.methods.mapM m.member = .ok members := by
    refine exists_mapM_eq_ok fun id hid => ?_
    obtain ⟨method, hmethod, -⟩ := ((hm.unit hunit).mem_methods_iff id).mp hid
    exact ⟨⟨id, method⟩, member_eq_ok_iff.mpr ⟨rfl, hmethod⟩⟩
  exact ⟨members, members_eq_ok_iff.mpr ⟨unit, hunit, mapM_eq_ok_iff.mp hmembers⟩⟩

/-- Every unit has a scope. -/
lemma exists_scope (hu : u.index < m.units.length) : ∃ s, m.scope u = .ok s := by
  obtain ⟨unit, hunit⟩ := exists_unit hu
  obtain ⟨members, hmembers⟩ := hm.exists_members hu
  obtain ⟨providers, hproviders⟩ : ∃ providers, unit.uses.mapM m.provider = .ok providers := by
    refine exists_mapM_eq_ok fun use huse => ?_
    have hlt := (hm.unit hunit).known use huse
    obtain ⟨used, hused⟩ := exists_unit hlt
    obtain ⟨members, hmembers⟩ := hm.exists_members hlt
    exact ⟨⟨use, used.type, members⟩, provider_eq_ok_iff.mpr ⟨rfl, ⟨used, hused, rfl⟩, hmembers⟩⟩
  exact ⟨⟨unit.name, members, providers⟩,
    scope_eq_ok_iff.mpr ⟨unit, hunit, rfl, hmembers, mapM_eq_ok_iff.mp hproviders⟩⟩

/-- A search from a member of a scope is a search in that scope. -/
lemma inScopeOf_eq {α : Type} (f : Scope → Member → α) (hs : m.scope u = .ok s)
    (hx : x ∈ s.members) : m.inScopeOf x.id f = .ok (f s x) := by
  obtain ⟨-, -, -, hmembers, -⟩ := scope_eq_ok_iff.mp hs
  obtain ⟨hmethod, rfl⟩ := (hm.mem_members_iff hmembers).mp hx
  exact inScopeOf_eq_ok_iff.mpr ⟨x, s, member_eq_ok_iff.mpr ⟨rfl, hmethod⟩, hs, rfl⟩

/-- The delegating members of a scope stand in the order of declaration. -/
lemma sorted_delegating (hs : m.scope u = .ok s) :
    (s.delegating.map (·.id)).Pairwise (·.index < ·.index) := by
  obtain ⟨unit, hunit, -, hmembers, -⟩ := scope_eq_ok_iff.mp hs
  refine List.Pairwise.sublist (List.filter_sublist.map _) ?_
  rw [map_id_members hunit hmembers]
  exact (hm.unit hunit).sorted

end WellFormed

end Model

/-! ## What the search finds -/

namespace Scope

variable {s : Scope} {c : Criteria} {source : Member} {candidate : Candidate}

/-- The used units offer their public methods that meet the criteria. -/
lemma mem_crossUnit_iff :
    candidate ∈ s.crossUnit c source ↔ ∃ p ∈ s.providers, candidate.target ∈ p.members ∧
      candidate.owner = .usedUnit p.use ∧ candidate.target.method.isMethod ∧
      candidate.target.method.isPublic ∧ c.accepts source.method candidate.target.method := by
  obtain ⟨target, owner⟩ := candidate
  simp only [crossUnit, List.mem_flatMap, candidatesOf, List.mem_map, List.mem_filter,
    Bool.and_eq_true, Candidate.mk.injEq]
  constructor
  · rintro ⟨p, hp, x, ⟨hx, ⟨hmethod, hpublic⟩, haccepts⟩, rfl, rfl⟩
    exact ⟨p, hp, hx, rfl, hmethod, hpublic, haccepts⟩
  · rintro ⟨p, hp, hx, rfl, hmethod, hpublic, haccepts⟩
    exact ⟨p, hp, target, ⟨hx, ⟨hmethod, hpublic⟩, haccepts⟩, rfl, rfl⟩

/-- The unit itself offers its other methods that meet the criteria, but for private ones and for
those that delegate. -/
lemma mem_sameUnit_iff :
    candidate ∈ s.sameUnit c source ↔ candidate.target ∈ s.members ∧
      candidate.owner = .sameUnit ∧ candidate.target.id ≠ source.id ∧
      candidate.target.method.isDelegating = false ∧ candidate.target.method.isMethod ∧
      candidate.target.method.visibility ≠ .unit ∧
      c.accepts source.method candidate.target.method := by
  obtain ⟨target, owner⟩ := candidate
  simp only [sameUnit, List.mem_map, List.mem_filter, Bool.and_eq_true, decide_eq_true_eq,
    Bool.not_eq_true', Candidate.mk.injEq]
  constructor
  · rintro ⟨x, ⟨hx, ⟨⟨⟨hne, hplain⟩, hmethod⟩, hshared⟩, haccepts⟩, rfl, rfl⟩
    exact ⟨hx, rfl, hne, hplain, hmethod, hshared, haccepts⟩
  · rintro ⟨hx, rfl, hne, hplain, hmethod, hshared, haccepts⟩
    exact ⟨target, ⟨hx, ⟨⟨⟨hne, hplain⟩, hmethod⟩, hshared⟩, haccepts⟩, rfl, rfl⟩

/-- The candidates of the pass that decides: the used units if they have any, and the unit itself
otherwise. -/
def candidates (s : Scope) (c : Criteria) (source : Member) : List Candidate :=
  match s.crossUnit c source with
  | [] => s.sameUnit c source
  | found => found

/-- The delegate is the first candidate of the two passes. -/
lemma find_eq_head? :
    s.find c source = (s.crossUnit c source ++ s.sameUnit c source).head? := by
  rw [find, List.head?_append]

/-- The delegate is the first candidate of the pass that decides. -/
lemma find_eq_head?_candidates : s.find c source = (s.candidates c source).head? := by
  rw [find_eq_head?, candidates]
  cases s.crossUnit c source <;> rfl

/-- The delegate is a candidate of the pass that decides. -/
lemma mem_candidates_of_find (h : s.find c source = some candidate) :
    candidate ∈ s.candidates c source := by
  rw [find_eq_head?_candidates] at h
  exact List.mem_of_mem_head? h

/-- The search with alternatives tells the candidates of the pass that decides. -/
lemma resolveAll_eq : s.resolveAll c source = match s.candidates c source with
    | [] => none
    | chosen :: alternatives => some { chosen, alternatives } := by
  rw [resolveAll, candidates]
  cases s.crossUnit c source with
  | cons chosen alternatives => rfl
  | nil => cases s.sameUnit c source <;> rfl

/-- The search with alternatives tells the candidates of the pass that decides. -/
lemma resolveAll_eq_some_iff {r : Resolution} :
    s.resolveAll c source = some r ↔ s.candidates c source = r.chosen :: r.alternatives := by
  obtain ⟨chosen, alternatives⟩ := r
  rw [resolveAll_eq]
  cases s.candidates c source <;> simp

/-- Both ways of searching choose the same delegate. -/
lemma map_chosen_resolveAll (s : Scope) (c : Criteria) (source : Member) :
    (s.resolveAll c source).map (·.chosen) = s.find c source := by
  rw [resolveAll_eq, find_eq_head?_candidates]
  cases s.candidates c source <;> rfl

/-- A method has no delegate exactly when both passes find nothing. -/
lemma find_eq_none_iff :
    s.find c source = none ↔ s.crossUnit c source = [] ∧ s.sameUnit c source = [] := by
  rw [find_eq_head?, List.head?_eq_none_iff, List.append_eq_nil_iff]

/-- The delegate is found by one of the two passes. -/
lemma mem_of_find (h : s.find c source = some candidate) :
    candidate ∈ s.crossUnit c source ∨ candidate ∈ s.sameUnit c source := by
  rw [find_eq_head?] at h
  exact List.mem_append.mp (List.mem_of_mem_head? h)

end Scope

/-! ## Where the candidates stand -/

namespace Model.WellFormed

variable {m : Model} {u : UnitId} {s : Scope} {c : Criteria} {source : Member}
  {candidate : Candidate}

variable (hm : m.WellFormed) (hs : m.scope u = .ok s)
include hm hs

/-- A candidate of the first pass is a public method of a unit that the unit uses, and it is found
with the use of that unit. -/
lemma of_mem_crossUnit (h : candidate ∈ s.crossUnit c source) :
    ∃ unit use, m.unit u = .ok unit ∧ use ∈ unit.uses ∧ candidate.owner = .usedUnit use ∧
      m.method candidate.target.id = .ok candidate.target.method ∧
      candidate.target.method.unit = use.unit ∧ candidate.target.method.isMethod ∧
      candidate.target.method.isPublic ∧ c.accepts source.method candidate.target.method := by
  obtain ⟨unit, hunit, -, -, hproviders⟩ := scope_eq_ok_iff.mp hs
  obtain ⟨p, hp, htarget, howner, hmethod, hpublic, haccepts⟩ := Scope.mem_crossUnit_iff.mp h
  obtain ⟨use, huse, hprovider⟩ := exists_mem_of_forall₂ hproviders hp
  obtain ⟨rfl, -, hmembers⟩ := provider_eq_ok_iff.mp hprovider
  obtain ⟨hlookup, hunit'⟩ := (hm.mem_members_iff hmembers).mp htarget
  exact ⟨unit, p.use, hunit, huse, howner, hlookup, hunit', hmethod, hpublic, haccepts⟩

/-- A candidate of the second pass is another method of the unit, neither private nor one that
delegates in turn. -/
lemma of_mem_sameUnit (h : candidate ∈ s.sameUnit c source) :
    candidate.owner = .sameUnit ∧ m.method candidate.target.id = .ok candidate.target.method ∧
      candidate.target.method.unit = u ∧ candidate.target.id ≠ source.id ∧
      candidate.target.method.isDelegating = false ∧ candidate.target.method.isMethod ∧
      candidate.target.method.visibility ≠ .unit ∧
      c.accepts source.method candidate.target.method := by
  obtain ⟨-, -, -, hmembers, -⟩ := scope_eq_ok_iff.mp hs
  obtain ⟨htarget, howner, hne, hplain, hmethod, hshared, haccepts⟩ :=
    Scope.mem_sameUnit_iff.mp h
  obtain ⟨hlookup, hunit⟩ := (hm.mem_members_iff hmembers).mp htarget
  exact ⟨howner, hlookup, hunit, hne, hplain, hmethod, hshared, haccepts⟩

end Model.WellFormed

end MapperDelegation
