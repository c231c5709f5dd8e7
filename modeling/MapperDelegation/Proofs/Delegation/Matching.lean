import MapperDelegation.Proofs.Delegation.Emission
import MapperDelegation.Proofs.Delegation.Range

set_option relaxedAutoImplicit false
set_option autoImplicit false

/-!
# Comparing names with identifiers and tags

A name that is asked for may be compared with identifiers, with tags, or with either of them. The
last way is the join of the other two. Both passes go through the methods that are eligible for any
criteria and keep those that are accepted, so they list under the last way what they list under one
of the others. The delegate is the first accepted one among all eligible methods, those of used
units first. If it is accepted for its identifier, then it is also the first one of those accepted
for their identifiers, and likewise for tags, so that no third delegate comes about.

## Main definitions

* `Scope.usedMethods`, `Scope.ownMethods` — the methods that are eligible for any criteria.
* `Findings`, `Model.findings` — all that a search tells.
* `Findings.Joins` — one search tells what two others tell together.

## Main results

* `Scope.find_eq_find?` — the delegate is the first accepted one of the eligible methods.
* `find?_or_eq_some` — what is first by one of two tests is first by this test alone.
* `Catalog.joins_of_reachable` — comparing with either joins the two ways of comparing.
-/

namespace MapperDelegation

/-! ## First entries -/

section FirstEntries

variable {α : Type} {p q : α → Bool} {xs : List α}

/-- The first entry that passes one of two tests is the first one that passes this test. -/
lemma find?_or_eq_some {x : α} (h : xs.find? (fun a => p a || q a) = some x) :
    xs.find? p = some x ∨ xs.find? q = some x := by
  obtain ⟨hx, before, after, rfl, hbefore⟩ := List.find?_eq_some_iff_append.mp h
  have hfails : ∀ a ∈ before, p a = false ∧ q a = false := by simpa using hbefore
  rcases Bool.or_eq_true_iff.mp hx with hp | hq
  · exact .inl (List.find?_eq_some_iff_append.mpr
      ⟨hp, before, after, rfl, fun a ha => by simp [hfails a ha]⟩)
  · exact .inr (List.find?_eq_some_iff_append.mpr
      ⟨hq, before, after, rfl, fun a ha => by simp [hfails a ha]⟩)

/-- No entry passes one of two tests exactly if none passes either test. -/
lemma find?_or_eq_none_iff :
    xs.find? (fun a => p a || q a) = none ↔ xs.find? p = none ∧ xs.find? q = none := by
  simp only [List.find?_eq_none, Bool.or_eq_true, not_or]
  exact forall₂_and

end FirstEntries

/-! ## Eligible methods -/

namespace Scope

variable {s : Scope} {c : Criteria} {x : Member}

/-- The methods of used units that are eligible for any criteria, in the order of the search. -/
def usedMethods (s : Scope) : List Candidate :=
  s.providers.flatMap fun p =>
    (p.members.filter fun y => y.method.isMethod && y.method.isPublic).map
      (Candidate.mk · (.usedUnit p.use))

/-- The members of the unit itself that are eligible as delegates of `x` for any criteria, in the
order of the search. -/
def ownMethods (s : Scope) (x : Member) : List Candidate :=
  (s.members.filter fun y => y.id ≠ x.id && !y.method.isDelegating && y.method.isMethod
    && y.method.visibility ≠ .unit).map (Candidate.mk · .sameUnit)

/-- The first pass keeps the accepted methods of used units. -/
lemma crossUnit_eq_filter :
    s.crossUnit c x = s.usedMethods.filter fun y => c.accepts x.method y.target.method := by
  rw [crossUnit, usedMethods, List.filter_flatMap]
  congr 1
  funext p
  simp only [candidatesOf, List.filter_map, List.filter_filter, Function.comp_def,
    Bool.and_comm (c.accepts _ _)]

/-- The second pass keeps the accepted members of the unit itself. -/
lemma sameUnit_eq_filter :
    s.sameUnit c x = (s.ownMethods x).filter fun y => c.accepts x.method y.target.method := by
  simp only [sameUnit, ownMethods, List.filter_map, List.filter_filter, Function.comp_def,
    Bool.and_comm (c.accepts _ _)]

/-- The delegate is the first accepted one of the eligible methods, those of used units first. -/
lemma find_eq_find? : s.find c x =
    (s.usedMethods ++ s.ownMethods x).find? fun y => c.accepts x.method y.target.method := by
  rw [find_eq_head?, crossUnit_eq_filter, sameUnit_eq_filter, ← List.filter_append,
    List.head?_filter]

end Scope

/-! ## Findings -/

/-- All that a search tells: the candidates of both passes, the delegate, as a candidate and as a
reference, and the delegate with the other candidates of its pass. -/
structure Findings where
  crossUnit : List Candidate
  sameUnit : List Candidate
  delegate : Option Candidate
  reference : Option Reference
  resolution : Option Resolution

/-- All that a search from a method tells. -/
def Model.findings (m : Model) (c : Criteria) (id : MethodId) : Except OutOfRange Findings := do
  let crossUnit ← m.crossUnit c id
  let sameUnit ← m.sameUnit c id
  let delegate ← m.find c id
  let reference ← m.resolve c id
  let resolution ← m.resolveAll c id
  return { crossUnit, sameUnit, delegate, reference, resolution }

/-- A search tells what the searches `a` and `b` tell together. Each pass lists the candidates of
both in the order of the search, and the delegate is the one of `a` or the one of `b`. -/
structure Findings.Joins (f a b : Findings) : Prop where
  mem_crossUnit_iff : ∀ candidate,
    candidate ∈ f.crossUnit ↔ candidate ∈ a.crossUnit ∨ candidate ∈ b.crossUnit
  mem_sameUnit_iff : ∀ candidate,
    candidate ∈ f.sameUnit ↔ candidate ∈ a.sameUnit ∨ candidate ∈ b.sameUnit
  crossUnit_sublist : a.crossUnit.Sublist f.crossUnit ∧ b.crossUnit.Sublist f.crossUnit
  sameUnit_sublist : a.sameUnit.Sublist f.sameUnit ∧ b.sameUnit.Sublist f.sameUnit
  delegate_eq_none_iff : f.delegate = none ↔ a.delegate = none ∧ b.delegate = none
  delegate_eq : f.delegate.isSome → f.delegate = a.delegate ∨ f.delegate = b.delegate

/-- All that a search in a scope tells. -/
def Scope.findings (s : Scope) (c : Criteria) (x : Member) : Findings where
  crossUnit := s.crossUnit c x
  sameUnit := s.sameUnit c x
  delegate := s.find c x
  reference := s.resolve c x
  resolution := s.resolveAll c x

/-- A search from a member of a scope tells what the scope shows. -/
lemma Model.WellFormed.findings_eq {m : Model} {u : UnitId} {s : Scope} {x : Member}
    (hm : m.WellFormed) (hs : m.scope u = .ok s) (hx : x ∈ s.members) (c : Criteria) :
    m.findings c x.id = .ok (s.findings c x) := by
  simp only [Model.findings, Model.crossUnit, Model.sameUnit, Model.find, Model.resolve,
    Model.resolveAll, hm.inScopeOf_eq _ hs hx]
  rfl

/-! ## Ways of comparing -/

/-- A method is accepted for its identifier or its tag if it is so for one of them. -/
lemma Criteria.accepts_identifierOrTag (name : Symbol) (source candidate : Method) :
    Criteria.accepts ⟨.identifierOrTag, some (.byName name)⟩ source candidate =
      (Criteria.accepts ⟨.identifier, some (.byName name)⟩ source candidate ||
        Criteria.accepts ⟨.namedTag, some (.byName name)⟩ source candidate) := rfl

/-- Unless a name is asked for, it does not matter how names are compared. -/
lemma Criteria.accepts_of_no_name {q : Option Qualifier} (hq : ∀ name, q ≠ some (.byName name))
    (matching : QualifierMatching) (source candidate : Method) :
    Criteria.accepts ⟨matching, q⟩ source candidate = source.compatible candidate := by
  rcases q with _ | (name | type)
  · rfl
  · exact absurd rfl (hq name)
  · rfl

namespace Scope

variable {s : Scope} {x : Member}

/-- Comparing a name with identifiers and tags joins the two ways of comparing. -/
lemma joins_findings (s : Scope) (x : Member) (name : Symbol) :
    (s.findings ⟨.identifierOrTag, some (.byName name)⟩ x).Joins
      (s.findings ⟨.identifier, some (.byName name)⟩ x)
      (s.findings ⟨.namedTag, some (.byName name)⟩ x) := by
  simp only [findings, crossUnit_eq_filter, sameUnit_eq_filter, find_eq_find?,
    Criteria.accepts_identifierOrTag]
  refine ⟨fun candidate => ?_, fun candidate => ?_, ⟨?_, ?_⟩, ⟨?_, ?_⟩, find?_or_eq_none_iff,
    fun hsome => ?_⟩
  · simp only [List.mem_filter, Bool.or_eq_true, and_or_left]
  · simp only [List.mem_filter, Bool.or_eq_true, and_or_left]
  · exact List.monotone_filter_right _ fun _ h => by simp [h]
  · exact List.monotone_filter_right _ fun _ h => by simp [h]
  · exact List.monotone_filter_right _ fun _ h => by simp [h]
  · exact List.monotone_filter_right _ fun _ h => by simp [h]
  · obtain ⟨found, hfound⟩ := Option.isSome_iff_exists.mp hsome
    rw [hfound]
    exact (find?_or_eq_some hfound).imp Eq.symm Eq.symm

/-- Unless a name is asked for, searches tell the same however names are compared. -/
lemma findings_of_no_name {q : Option Qualifier} (hq : ∀ name, q ≠ some (.byName name))
    (matching matching' : QualifierMatching) :
    s.findings ⟨matching, q⟩ x = s.findings ⟨matching', q⟩ x := by
  have haccepts : Criteria.accepts ⟨matching, q⟩ = Criteria.accepts ⟨matching', q⟩ := by
    funext source candidate
    rw [Criteria.accepts_of_no_name hq, Criteria.accepts_of_no_name hq]
  simp only [findings, resolve, resolveAll, crossUnit_eq_filter, sameUnit_eq_filter,
    find_eq_find?, haccepts]

end Scope

/-- **Comparing with either joins the two**: a search from a method of a reachable model succeeds.
If a name is asked for, then comparing it with identifiers or tags finds what comparing it with
identifiers and comparing it with tags find together, and the delegate is that of the one or of the
other. If no name is asked for, all searches tell the same.

**Proof sketch.** Both passes filter the eligible methods, and the delegate is the first one that
passes, where a method passes for either if it passes for one. -/
theorem Catalog.joins_of_reachable {c : Catalog} (hc : c.Reachable) {id : MethodId}
    (hid : id.index < c.model.methods.length) :
    (∀ name, ∃ byIdentifier byTag byEither,
      c.model.findings ⟨.identifier, some (.byName name)⟩ id = .ok byIdentifier ∧
      c.model.findings ⟨.namedTag, some (.byName name)⟩ id = .ok byTag ∧
      c.model.findings ⟨.identifierOrTag, some (.byName name)⟩ id = .ok byEither ∧
      byEither.Joins byIdentifier byTag) ∧
    ∀ q : Option Qualifier, (∀ name, q ≠ some (.byName name)) →
      ∃ found, ∀ matching, c.model.findings ⟨matching, q⟩ id = .ok found := by
  have hm := hc.wellFormed
  have hmethod : c.model.method id = .ok c.model.methods[id.index] :=
    Model.method_eq_ok_iff.mpr (List.getElem?_eq_getElem hid)
  obtain ⟨s, hs, hx⟩ := hm.exists_scope_of_method hmethod
  refine ⟨fun name => ?_, fun q hq => ?_⟩
  · exact ⟨_, _, _, hm.findings_eq hs hx _, hm.findings_eq hs hx _, hm.findings_eq hs hx _,
      s.joins_findings _ name⟩
  · refine ⟨s.findings ⟨.identifier, q⟩ ⟨id, c.model.methods[id.index]⟩, fun matching => ?_⟩
    rw [hm.findings_eq hs hx, Scope.findings_of_no_name hq matching .identifier]

/-- A mapper that asks for a delegate by a name, which a method of its own bears as the identifier
and a method of a used unit as the tag. -/
def Catalog.taggedMapping : Catalog := .ofEntries [
  .unit "com.AddressMapper" .unknown,
  .unit "com.UserMapper" .unknown,
  .use ⟨1⟩ ⟨0⟩ none,
  .method ⟨1⟩ (.ofClauses "toDto" [.param "address" "Address", .implemented .default]),
  .method ⟨0⟩ (.ofClauses "convert" [.param "address" "Address", .tagged "toDto"]),
  .method ⟨1⟩ (.ofClauses "mapAddress" [.param "address" "Address", .qualifiedByName "toDto"])]

/-- The three ways of comparing for the method that asks for a delegate, by the name and by a
type. -/
theorem Catalog.joins_taggedMapping :
    taggedMapping.Reachable ∧ taggedMapping.model.methods.length = 3 ∧
      ∃ name, name = taggedMapping.symbols.symbolOf "toDto" ∧
        (∃ byIdentifier byTag byEither,
          taggedMapping.model.findings ⟨.identifier, some (.byName name)⟩ ⟨2⟩ = .ok byIdentifier ∧
          taggedMapping.model.findings ⟨.namedTag, some (.byName name)⟩ ⟨2⟩ = .ok byTag ∧
          taggedMapping.model.findings ⟨.identifierOrTag, some (.byName name)⟩ ⟨2⟩ = .ok byEither ∧
          byEither.Joins byIdentifier byTag) ∧
        ∃ found, ∀ matching,
          taggedMapping.model.findings ⟨matching, some (.byType ⟨name⟩)⟩ ⟨2⟩ = .ok found := by
  have hc : taggedMapping.Reachable := reachable_ofEntries _
  have hid : (⟨2⟩ : MethodId).index < taggedMapping.model.methods.length := by decide +kernel
  obtain ⟨hname, hother⟩ := joins_of_reachable hc hid
  exact ⟨hc, by decide +kernel, _, rfl, hname _, hother _ (by simp)⟩

/-- The delegates for an identifier, for a tag and for either: that of the unit itself, and twice
that of the used unit. -/
example : [QualifierMatching.identifier, .namedTag, .identifierOrTag].map (fun matching =>
    (Catalog.taggedMapping.model.find
      ⟨matching, some (.byName (Catalog.taggedMapping.symbols.symbolOf "toDto"))⟩ ⟨2⟩).map
        (·.map (·.target.id))) =
    [.ok (some ⟨0⟩), .ok (some ⟨1⟩), .ok (some ⟨1⟩)] := by decide +kernel

end MapperDelegation
