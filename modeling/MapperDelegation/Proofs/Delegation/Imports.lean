import MapperDelegation.Proofs.Delegation.Emission
import MapperDelegation.Proofs.Delegation.Range
import MapperDelegation.Proofs.Delegation.Soundness
import MapperDelegation.Proofs.Mapper.UnitTypes
import MapperDelegation.Proofs.Symbol.Sequence

set_option relaxedAutoImplicit false
set_option autoImplicit false

/-!
# Types to import

A generated body needs the types of the parameters of its method, the return type, and the type of
the unit that is called if it is another one. These may coincide, and each type is imported once, at
the place of its first use. The type of a used unit tells which unit this is.

## Main definitions

* `GeneratedMethod.usedTypes` — the types that a body uses, in order and with repetitions.
* `GeneratedMethod.ImportsTypes` — a body imports the types that it uses.

## Main results

* `pairwise_idxOf_eraseDups` — what is left of a list without its repetitions is in the order of
  first appearance.
* `Model.WellFormed.typeOf_of_mem_candidates` — the type that is imported for a candidate.
* `Generator.importsTypes_of_runs` — all bodies of all runs import the types that they use.
-/

namespace MapperDelegation

/-! ## First appearances -/

section Appearances

variable {α : Type} [DecidableEq α]

/-- What is left of a list without its repetitions is in the order of first appearance.

**Proof sketch.** Induction on the list from its end. The last entry is left if it has not appeared
before, and then everything else appears before it. -/
lemma pairwise_idxOf_eraseDups (xs : List α) :
    xs.eraseDups.Pairwise fun a b => xs.idxOf a < xs.idxOf b := by
  induction xs using List.reverseRecOn with
  | nil => exact .nil
  | append_singleton xs x ih =>
    have hkept : xs.eraseDups.Pairwise fun a b => (xs ++ [x]).idxOf a < (xs ++ [x]).idxOf b := by
      refine ih.imp_of_mem fun {a b} ha hb hlt => ?_
      rwa [List.idxOf_append_of_mem (List.mem_eraseDups.mp ha),
        List.idxOf_append_of_mem (List.mem_eraseDups.mp hb)]
    rw [eraseDups_concat]
    split
    case isTrue => exact hkept
    case isFalse hx =>
      refine List.pairwise_append.mpr ⟨hkept, List.pairwise_singleton _ _, fun a ha b hb => ?_⟩
      obtain rfl := List.mem_singleton.mp hb
      have hmem := List.mem_eraseDups.mp ha
      rw [List.idxOf_append_of_mem hmem, List.idxOf_append_of_notMem hx]
      exact Nat.lt_of_lt_of_le (List.idxOf_lt_length_of_mem hmem) (Nat.le_add_right _ _)

/-- No entry of a list without its repetitions is there twice. -/
lemma nodup_eraseDups (xs : List α) : xs.eraseDups.Nodup :=
  (pairwise_idxOf_eraseDups xs).imp fun hlt heq => Nat.ne_of_lt hlt (congrArg xs.idxOf heq)

end Appearances

/-! ## The types of a body -/

namespace GeneratedMethod

/-- The types that the body generated for `method` uses: those of the parameters, then the return
type unless it is `void`, then the type of the owner of the delegate if this is another unit. -/
def usedTypes (g : GeneratedMethod) (method : Method) (owner : MapperUnit) : List TypeSymbol :=
  method.paramTypes ++ (if method.returnType.isVoid then [] else [method.returnType]) ++
    if g.reference.owner.isSameUnit then [] else [owner.type]

/-- The body generated for `method`, which calls `target` in the unit `owner`, imports the types
that it uses. -/
structure ImportsTypes (g : GeneratedMethod) (c : Catalog) (method target : Method)
    (owner : MapperUnit) : Prop where
  method_eq : c.model.method g.method = .ok method ∧ method.isDelegating
  target_eq : c.model.method g.reference.target = .ok target
  owner_eq : c.model.unit target.unit = .ok owner
  /-- A call stays in the unit exactly if the delegate stands there. -/
  isSameUnit_iff : g.reference.owner.isSameUnit ↔ target.unit = method.unit
  nodup : g.requiredTypes.Nodup
  eq : g.requiredTypes = (g.usedTypes method owner).eraseDups
  /-- The types are imported in the order of their first use. -/
  ordered : g.requiredTypes.Pairwise fun a b =>
    (g.usedTypes method owner).idxOf a < (g.usedTypes method owner).idxOf b
  mem_iff : ∀ type, type ∈ g.requiredTypes ↔
    type ∈ method.paramTypes ∨ (type = method.returnType ∧ method.returnType ≠ .void) ∨
      (type = owner.type ∧ target.unit ≠ method.unit)
  /-- The qualified name of the owner tells where the delegate stands. -/
  owner_unique : ∀ u other, c.model.unit u = .ok other →
    c.symbols.lookup other.type.name = c.symbols.lookup owner.type.name → u = target.unit

/-- What a body uses comes from one of three sources. -/
lemma mem_usedTypes_iff {g : GeneratedMethod} {method target : Method} {owner : MapperUnit}
    (hsame : g.reference.owner.isSameUnit ↔ target.unit = method.unit) {type : TypeSymbol} :
    type ∈ g.usedTypes method owner ↔
      type ∈ method.paramTypes ∨ (type = method.returnType ∧ method.returnType ≠ .void) ∨
        (type = owner.type ∧ target.unit ≠ method.unit) := by
  have hreturned : type ∈ (if method.returnType.isVoid then [] else [method.returnType]) ↔
      type = method.returnType ∧ method.returnType ≠ .void := by
    by_cases hvoid : method.returnType = .void <;> simp [TypeSymbol.isVoid, hvoid]
  have howned : type ∈ (if g.reference.owner.isSameUnit then [] else [owner.type]) ↔
      type = owner.type ∧ target.unit ≠ method.unit := by
    rw [Ne, ← hsame]
    cases g.reference.owner.isSameUnit <;> simp
  rw [usedTypes, List.mem_append, List.mem_append, or_assoc, hreturned, howned]

end GeneratedMethod

namespace Model.WellFormed

variable {m : Model} {u : UnitId} {s : Scope} {c : Criteria} {x : Member} {candidate : Candidate}

/-- The type that is imported for a candidate is the one of the unit where it stands, unless it
stands in the searching unit. -/
lemma typeOf_of_mem_candidates (hm : m.WellFormed) (hs : m.scope u = .ok s)
    (h : candidate ∈ s.crossUnit c x ++ s.sameUnit c x) {owner : MapperUnit}
    (howner : m.unit candidate.target.method.unit = .ok owner) :
    (s.typeOf candidate.owner).toList =
      if candidate.owner.isSameUnit then [] else [owner.type] := by
  have htype := hm.ownerType_of_mem_candidates hs h
  rcases List.mem_append.mp h with hmem | hmem
  · obtain ⟨-, use, -, -, huse, -, hunit, -⟩ := hm.of_mem_crossUnit hs hmem
    rw [hunit] at howner
    have hfound : m.ownerType candidate.owner = .ok (some owner.type) := by
      rw [huse, ownerType, howner]
      rfl
    rw [eq_of_eq_ok htype hfound, huse]
    rfl
  · obtain ⟨hsame, -⟩ := hm.of_mem_sameUnit hs hmem
    rw [hsame]
    rfl

end Model.WellFormed

/-! ## Runs -/

namespace Catalog

variable {c : Catalog} {o : Options} {u : UnitId}

/-- **Imports of a body**: a body that is generated for a delegating method imports the types that
it uses.

**Proof sketch.** The type that the scope has for the owner of the delegate is the one of its unit,
so that the list of the body is the one of the types in use without its repetitions. -/
lemma Reachable.importsTypes_generate (hc : c.Reachable) {s : Scope}
    (hs : c.model.scope u = .ok s) {x : Member} (hx : x ∈ s.delegating) {chosen : Candidate}
    (hchosen : s.find (o.criteriaFor x.method) x = some chosen) :
    ∃ owner,
      (s.generate c.symbols x chosen).ImportsTypes c x.method chosen.target.method owner := by
  have hm := hc.wellFormed
  obtain ⟨hmethod, hunit, hdelegating⟩ := (hm.mem_delegating_iff hs).mp hx
  have hmem : chosen ∈ s.crossUnit (o.criteriaFor x.method) x ++
      s.sameUnit (o.criteriaFor x.method) x := List.mem_append.mpr (Scope.mem_of_find hchosen)
  have htarget := hm.method_of_mem_candidates hs hmem
  obtain ⟨owner, howner⟩ := Model.exists_unit (hm.owned htarget)
  have hsame : chosen.owner.isSameUnit ↔ chosen.target.method.unit = x.method.unit := by
    rw [hunit]
    exact hm.isSameUnit_iff hs (Scope.mem_candidates_of_find hchosen)
  have heq : (s.generate c.symbols x chosen).requiredTypes =
      ((s.generate c.symbols x chosen).usedTypes x.method owner).eraseDups := by
    have htypes := hm.typeOf_of_mem_candidates hs hmem howner
    exact congrArg (fun owned => (x.method.paramTypes ++
      (if x.method.returnType.isVoid then [] else [x.method.returnType]) ++ owned).eraseDups) htypes
  refine ⟨owner, ⟨hmethod, hdelegating⟩, htarget, howner, hsame, ?nodup, heq, ?ordered, ?mem,
    fun v other hv htype => hc.unit_eq_of_lookup_type_eq hv howner htype⟩
  case nodup =>
    rw [heq]
    exact nodup_eraseDups _
  case ordered =>
    rw [heq]
    exact pairwise_idxOf_eraseDups _
  case mem =>
    intro type
    rw [heq, List.mem_eraseDups]
    exact GeneratedMethod.mem_usedTypes_iff hsame

/-- All bodies of the report on a unit import the types that they use. -/
lemma Reachable.importsTypes_of_report (hc : c.Reachable) {r : UnitReport}
    (hr : c.report o u = .ok r) {g : GeneratedMethod} (hg : g ∈ r.generated) :
    ∃ method target owner, g.ImportsTypes c method target owner := by
  obtain ⟨s, hs, rfl⟩ := report_eq_ok_iff.mp hr
  obtain ⟨x, hx, -, chosen, hchosen, rfl⟩ := Scope.mem_generated_ofVerdicts hg
  exact ⟨_, _, hc.importsTypes_generate hs hx hchosen⟩

end Catalog

namespace Generator

/-- **Imports**: runs over the units of a reachable catalogue and over all of it succeed, whatever
was run over before, and each body that they generate imports the types that it uses. These are the
types of the parameters of its method, the return type unless it is `void`, and the type of the unit
of the delegate if that is another one. Each is imported once, in the order of first use, and no
other unit of the catalogue has the type of this one.

**Proof sketch.** The reports of all runs are those on single units, and every body in one of them
is generated for a delegating method. -/
theorem importsTypes_of_runs {c : Catalog} (hc : c.Reachable) (g : Generator) :
    (∀ u : UnitId, u.index < c.model.units.length → ∃ r g', g.runUnit c u = .ok (r, g') ∧
      ∀ body ∈ r.generated, ∃ method target owner, body.ImportsTypes c method target owner) ∧
    ∃ out, g.runModel c = .ok out ∧ ∀ r ∈ out.reports,
      ∀ body ∈ r.generated, ∃ method target owner, body.ImportsTypes c method target owner := by
  have hm := hc.wellFormed
  constructor
  · intro u hu
    obtain ⟨r, g', hr⟩ := g.exists_runUnit hm hu
    exact ⟨r, g', hr, fun body => hc.importsTypes_of_report (report_of_runUnit hr).1⟩
  · obtain ⟨out, hout⟩ := g.exists_runModel hm
    refine ⟨out, hout, fun r hr body => ?_⟩
    obtain ⟨u, -, hreport⟩ := exists_mem_of_forall₂ (forall₂_of_runModel hout) hr
    exact hc.importsTypes_of_report hreport

end Generator

/-- A mapper of orders whose methods use some types several times: one type is that of a parameter,
the return type, and that of the used unit in one, and a parameter type recurs later. -/
def Catalog.repeatedMapping : Catalog := .ofEntries [
  .unit "com.Price" .unknown,
  .unit "com.OrderMapper" .unknown,
  .use ⟨1⟩ ⟨0⟩ (some "prices"),
  .method ⟨0⟩ (.ofClauses "round" [.param "price" "com.Price", .returns "com.Price"]),
  .method ⟨0⟩ (.ofClauses "log"
    [.param "old" "Order", .param "rate" "Rate", .param "new" "Order"]),
  .method ⟨1⟩ (.ofClauses "total"
    [.param "price" "com.Price", .returns "com.Price", .delegating]),
  .method ⟨1⟩ (.ofClauses "audit"
    [.param "old" "Order", .param "rate" "Rate", .param "new" "Order", .delegating])]

/-- The bodies of the mapper import each type once. -/
theorem Generator.importsTypes_repeatedMapping :
    Catalog.repeatedMapping.Reachable ∧
      (Catalog.repeatedMapping.report {} ⟨1⟩).map (fun r => r.generated.map fun body =>
        body.requiredTypes.map fun type => Catalog.repeatedMapping.symbols.lookup type.name) =
          .ok [["com.Price"], ["Order", "Rate", "com.Price"]] ∧
      (∃ r g', (start {}).runUnit .repeatedMapping ⟨1⟩ = .ok (r, g') ∧ ∀ body ∈ r.generated,
        ∃ method target owner, body.ImportsTypes .repeatedMapping method target owner) ∧
      ∃ out, (start {}).runModel .repeatedMapping = .ok out ∧ ∀ r ∈ out.reports,
        ∀ body ∈ r.generated, ∃ method target owner,
          body.ImportsTypes .repeatedMapping method target owner := by
  have hc : Catalog.repeatedMapping.Reachable := Catalog.reachable_ofEntries _
  obtain ⟨hunits, hmodel⟩ := importsTypes_of_runs hc (start {})
  exact ⟨hc, by decide +kernel, hunits ⟨1⟩ (by decide +kernel), hmodel⟩

end MapperDelegation
