import MapperDelegation.Delegation.Call
import MapperDelegation.Proofs.Delegation.Run
import MapperDelegation.Proofs.Mapper.Handles

set_option relaxedAutoImplicit false
set_option autoImplicit false

/-!
# Handles in range

A search follows handles that the model stores: the unit of a method, the units that a unit uses,
the members of a unit. What it finds carries handles in turn, which lead back to the delegate and to
the unit that owns it. In a reachable model all of them are in range, so that no look-up fails,
neither in a search nor in a run.

## Main definitions

* `Model.Closed` — every handle that the model stores is in range.
* `Model.ownerType` — the type of the owner of a delegate, looked up by its handle.
* `Model.Traces`, `Model.Searchable` — the handles of a candidate, and all that a search looks up,
  are in range.

## Main results

* `Model.WellFormed.traces_of_mem_candidates` — the handles of candidates lead back to the model.
* `Model.WellFormed.searchable` — a search from a method succeeds.
* `Catalog.inRange_of_reachable` — no look-up in a reachable model fails.
-/

namespace MapperDelegation

/-! ## Handles -/

namespace Model

/-- Every handle that the model stores is in range. -/
structure Closed (m : Model) : Prop where
  uses : ∀ unit ∈ m.units, ∀ use ∈ unit.uses, use.unit.index < m.units.length
  members : ∀ unit ∈ m.units, ∀ id ∈ unit.methods, id.index < m.methods.length
  declaring : ∀ method ∈ m.methods, method.unit.index < m.units.length

/-- The type that has to be imported for calls of methods of an owner, looked up by the handle of
the owner. -/
def ownerType (m : Model) : Owner → Except OutOfRange (Option TypeSymbol)
  | .sameUnit => .ok none
  | .usedUnit use => (fun unit => some unit.type) <$> m.unit use.unit

/-- The handles that a candidate for the method `id` carries lead back to the model. -/
structure Traces (m : Model) (id : MethodId) (candidate : Candidate) : Prop where
  target : m.method candidate.target.id = .ok candidate.target.method
  declaring : ∃ unit, m.unit candidate.target.method.unit = .ok unit
  /-- The call of the candidate can be put together from the handles. -/
  reference : ∃ method, m.method id = .ok method ∧
    m.reference id candidate.target.id candidate.owner = .ok (candidate.reference method)
  /-- The type to import is found by the handle of the owner. -/
  owner : ∃ method s, m.method id = .ok method ∧ m.scope method.unit = .ok s ∧
    m.ownerType candidate.owner = .ok (s.typeOf candidate.owner)

/-- All that the validation of a method and a search from it look up is in range. -/
structure Searchable (m : Model) (c : Criteria) (id : MethodId) : Prop where
  validate : ∃ answer, Method.validate <$> m.method id = .ok answer
  declaring : ∃ method unit, m.method id = .ok method ∧ m.unit method.unit = .ok unit
  crossUnit : ∃ found, m.crossUnit c id = .ok found ∧ ∀ candidate ∈ found, m.Traces id candidate
  sameUnit : ∃ found, m.sameUnit c id = .ok found ∧ ∀ candidate ∈ found, m.Traces id candidate
  find : ∃ found, m.find c id = .ok found
  resolve : ∃ found, m.resolve c id = .ok found
  resolveAll : ∃ found, m.resolveAll c id = .ok found

/-! ## Well-formed models -/

namespace WellFormed

variable {m : Model} {u : UnitId} {s : Scope} {c : Criteria} {x : Member} {candidate : Candidate}

variable (hm : m.WellFormed)
include hm

/-- A well-formed model stores handles in range only. -/
lemma closed : m.Closed where
  uses unit hunit := by
    obtain ⟨i, hi⟩ := List.getElem?_of_mem hunit
    have hfound : m.unit ⟨i⟩ = .ok unit := unit_eq_ok_iff.mpr hi
    exact (hm.unit hfound).known
  members unit hunit id hid := by
    obtain ⟨i, hi⟩ := List.getElem?_of_mem hunit
    have hfound : m.unit ⟨i⟩ = .ok unit := unit_eq_ok_iff.mpr hi
    obtain ⟨method, hmethod, -⟩ := ((hm.unit hfound).mem_methods_iff id).mp hid
    exact index_lt_of_method hmethod
  declaring method hmethod := by
    obtain ⟨i, hi⟩ := List.getElem?_of_mem hmethod
    have hfound : m.method ⟨i⟩ = .ok method := method_eq_ok_iff.mpr hi
    exact hm.owned hfound

/-- Every method stands in the scope of its unit. -/
lemma exists_scope_of_method {id : MethodId} {method : Method}
    (hmethod : m.method id = .ok method) :
    ∃ s, m.scope method.unit = .ok s ∧ ⟨id, method⟩ ∈ s.members := by
  obtain ⟨s, hs⟩ := hm.exists_scope (hm.owned hmethod)
  obtain ⟨-, -, -, hmembers, -⟩ := scope_eq_ok_iff.mp hs
  exact ⟨s, hs, (hm.mem_members_iff hmembers).mpr ⟨hmethod, rfl⟩⟩

variable (hs : m.scope u = .ok s)
include hs

/-- The delegate of a candidate is found by its handle. -/
lemma method_of_mem_candidates (h : candidate ∈ s.crossUnit c x ++ s.sameUnit c x) :
    m.method candidate.target.id = .ok candidate.target.method := by
  rcases List.mem_append.mp h with h | h
  · obtain ⟨-, -, -, -, -, htarget, -⟩ := hm.of_mem_crossUnit hs h
    exact htarget
  · obtain ⟨-, htarget, -⟩ := hm.of_mem_sameUnit hs h
    exact htarget

/-- The type to import for a candidate is the type of its owner.

**Proof sketch.** Behind a use stands a provider with the type of the used unit, and so does the one
that the import takes its type from, since it belongs to the same use. -/
lemma ownerType_of_mem_candidates (h : candidate ∈ s.crossUnit c x ++ s.sameUnit c x) :
    m.ownerType candidate.owner = .ok (s.typeOf candidate.owner) := by
  rcases List.mem_append.mp h with h | h
  · obtain ⟨p, hp, -, howner, -⟩ := Scope.mem_crossUnit_iff.mp h
    obtain ⟨unit, hunit, -, -, hproviders⟩ := scope_eq_ok_iff.mp hs
    obtain ⟨first, hfirst⟩ : ∃ first, s.providers.find? (·.use = p.use) = some first := by
      rw [← Option.isSome_iff_exists, List.find?_isSome]
      exact ⟨p, hp, by simp⟩
    have huse : first.use = p.use := by simpa using List.find?_some hfirst
    obtain ⟨use, -, hprovider⟩ :=
      exists_mem_of_forall₂ hproviders (List.mem_of_find?_eq_some hfirst)
    obtain ⟨rfl, ⟨used, hused, htype⟩, -⟩ := provider_eq_ok_iff.mp hprovider
    rw [howner, ownerType, Scope.typeOf, hfirst, ← huse, hused, Option.map_some, htype]
    rfl
  · obtain ⟨howner, -⟩ := hm.of_mem_sameUnit hs h
    rw [howner]
    rfl

/-- **Where candidates come from**: all handles that a candidate carries lead back to the model. -/
lemma traces_of_mem_candidates (hx : x ∈ s.members)
    (h : candidate ∈ s.crossUnit c x ++ s.sameUnit c x) : m.Traces x.id candidate := by
  obtain ⟨-, -, -, hmembers, -⟩ := scope_eq_ok_iff.mp hs
  obtain ⟨hmethod, rfl⟩ := (hm.mem_members_iff hmembers).mp hx
  have htarget := hm.method_of_mem_candidates hs h
  have hmember : m.member candidate.target.id = .ok candidate.target :=
    member_eq_ok_iff.mpr ⟨rfl, htarget⟩
  refine ⟨htarget, exists_unit (hm.owned htarget), ⟨x.method, hmethod, ?_⟩,
    ⟨x.method, s, hmethod, hs, hm.ownerType_of_mem_candidates hs h⟩⟩
  rw [Model.reference, hmethod, hmember]
  rfl

omit hs in
/-- A search from a method of the model succeeds, and all that it finds can be traced back.

**Proof sketch.** A search from a method is a search in the scope of its unit, which exists. -/
lemma searchable (c : Criteria) {id : MethodId} (hid : id.index < m.methods.length) :
    m.Searchable c id := by
  have hmethod : m.method id = .ok m.methods[id.index] :=
    method_eq_ok_iff.mpr (List.getElem?_eq_getElem hid)
  obtain ⟨s, hs, hx⟩ := hm.exists_scope_of_method hmethod
  obtain ⟨unit, hunit⟩ := exists_unit (hm.owned hmethod)
  exact {
    validate := ⟨m.methods[id.index].validate, by rw [hmethod]; rfl⟩
    declaring := ⟨_, unit, hmethod, hunit⟩
    crossUnit := ⟨_, hm.inScopeOf_eq _ hs hx, fun candidate h =>
      hm.traces_of_mem_candidates hs hx (List.mem_append_left _ h)⟩
    sameUnit := ⟨_, hm.inScopeOf_eq _ hs hx, fun candidate h =>
      hm.traces_of_mem_candidates hs hx (List.mem_append_right _ h)⟩
    find := ⟨_, hm.inScopeOf_eq _ hs hx⟩
    resolve := ⟨_, hm.inScopeOf_eq _ hs hx⟩
    resolveAll := ⟨_, hm.inScopeOf_eq _ hs hx⟩ }

end WellFormed

end Model

/-! ## Reachable models -/

/-- **No look-up fails**: a reachable model stores handles in range only, validation and search
succeed for every method, whatever the criteria, and find nothing but what can be traced back, and
after any runs over units of the model, runs over a unit and over the whole model succeed.

**Proof sketch.** A reachable model is well-formed. -/
theorem Catalog.inRange_of_reachable {c : Catalog} (hc : c.Reachable) :
    c.model.Closed ∧
      (∀ (criteria : Criteria) (id : MethodId), id.index < c.model.methods.length →
        c.model.Searchable criteria id) ∧
      ∀ (o : Options) (history : List UnitId), (∀ v ∈ history, v.index < c.model.units.length) →
        ∃ reports g, (Generator.start o).runUnits c history = .ok (reports, g) ∧
          (∀ u : UnitId, u.index < c.model.units.length → ∃ r g', g.runUnit c u = .ok (r, g')) ∧
          ∃ out, g.runModel c = .ok out := by
  have hm := hc.wellFormed
  refine ⟨hm.closed, fun criteria id hid => hm.searchable criteria hid, ?_⟩
  intro o history hhistory
  obtain ⟨reports, g, h⟩ := (Generator.start o).exists_runUnits hm hhistory
  exact ⟨reports, g, h, fun u hu => g.exists_runUnit hm hu, g.exists_runModel hm⟩

/-- Entries that were refused leave no handle out of range: a search succeeds also for a name that
is not among the symbols, and so do runs. -/
theorem Catalog.inRange_contested :
    contested.Reachable ∧ contested.model.methods.length = 3 ∧ contested.model.units.length = 3 ∧
      contested.model.Closed ∧
      contested.model.Searchable { qualifier := some (.byName ⟨99⟩) } ⟨1⟩ ∧
      ∃ reports g, (Generator.start .strict).runUnits contested [⟨1⟩, ⟨2⟩] = .ok (reports, g) ∧
        (∃ r g', g.runUnit contested ⟨0⟩ = .ok (r, g')) ∧
        ∃ out, g.runModel contested = .ok out := by
  have hc : contested.Reachable := reachable_ofEntries _
  obtain ⟨hclosed, hsearch, hruns⟩ := inRange_of_reachable hc
  obtain ⟨reports, g, h, hunit, hmodel⟩ := hruns .strict [⟨1⟩, ⟨2⟩] (by decide +kernel)
  exact ⟨hc, by decide +kernel, by decide +kernel, hclosed, hsearch _ ⟨1⟩ (by decide +kernel),
    reports, g, h, hunit ⟨0⟩ (by decide +kernel), hmodel⟩

end MapperDelegation
