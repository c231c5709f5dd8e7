set_option autoImplicit false

/-!
# Mapping directives

Annotations on a method may prescribe how its body is to be generated. The recognised ones
form a closed list; any other annotation is ignored. A method that delegates must not carry
one of them, the naming annotation excepted.

## Main definitions

* `Directive` — the recognised annotations, in a fixed order.
* `DirectiveSet` — a set of directives, one bit for each.
* `DirectiveSet.conflicting` — the directives of a set that rule out delegation.

## Main results

* `DirectiveSet.has_insert`, `DirectiveSet.has_conflicting`, `DirectiveSet.mem_kinds` —
  membership after each operation.
* `DirectiveSet.isEmpty_iff` — the empty set is the one without members.
-/

namespace MapperDelegation

/-! ## Single directives -/

/-- The annotations that are recognised on a method. -/
inductive Directive where
  | mapping
  | mappings
  | beanMapping
  | iterableMapping
  | mapMapping
  | valueMapping
  | valueMappings
  | named
deriving DecidableEq

namespace Directive

/-- The directives in their fixed order. -/
def all : List Directive :=
  [mapping, mappings, beanMapping, iterableMapping, mapMapping, valueMapping, valueMappings, named]

/-- The place of a directive in the fixed order, which is its bit in a set. -/
def place : Directive → Nat
  | mapping => 0
  | mappings => 1
  | beanMapping => 2
  | iterableMapping => 3
  | mapMapping => 4
  | valueMapping => 5
  | valueMappings => 6
  | named => 7

/-- The simple name of the annotation. -/
def simpleName : Directive → String
  | mapping => "Mapping"
  | mappings => "Mappings"
  | beanMapping => "BeanMapping"
  | iterableMapping => "IterableMapping"
  | mapMapping => "MapMapping"
  | valueMapping => "ValueMapping"
  | valueMappings => "ValueMappings"
  | named => "Named"

/-- A directive as it is shown in reports. -/
def text (d : Directive) : String := "@" ++ d.simpleName

/-- The qualified name of the annotation. -/
def qualifiedName (d : Directive) : String := "org.mapstruct." ++ d.simpleName

/-- The directive that an annotation stands for, if it is one of the recognised ones. -/
def ofQualifiedName? (name : String) : Option Directive :=
  all.find? (·.qualifiedName = name)

/-- Whether a directive prescribes a body. All do, but for the naming annotation. -/
def prescribesBody (d : Directive) : Bool := d ≠ named

/-- No directive is missing from the fixed order. -/
theorem mem_all (d : Directive) : d ∈ all := by cases d <;> decide

end Directive

/-! ## Sets of directives -/

/-- A set of directives, held as one bit for each place of the fixed order. -/
structure DirectiveSet where
  bits : BitVec 8
deriving DecidableEq

namespace DirectiveSet

/-- The set without directives. -/
def empty : DirectiveSet := ⟨0⟩

/-- The set of one directive. -/
def singleton (d : Directive) : DirectiveSet := ⟨BitVec.twoPow 8 d.place⟩

/-- Whether a directive belongs to a set. -/
def has (s : DirectiveSet) (d : Directive) : Bool := s.bits.getLsbD d.place

/-- A set with one more directive. -/
def insert (s : DirectiveSet) (d : Directive) : DirectiveSet := ⟨s.bits ||| (singleton d).bits⟩

/-- The directives of a list, as a set. -/
def ofList (ds : List Directive) : DirectiveSet := ds.foldl insert empty

/-- The directives among some annotations, which are given by their qualified names. What is not
recognised is left out. -/
def ofAnnotations (names : List String) : DirectiveSet :=
  ofList (names.filterMap Directive.ofQualifiedName?)

/-- The set with the given bits, none when a bit belongs to no directive. -/
def ofBits? (n : Nat) : Option DirectiveSet :=
  if n < 0x100 then some ⟨BitVec.ofNat 8 n⟩ else none

/-- The directives of a set, in their fixed order. -/
def kinds (s : DirectiveSet) : List Directive := Directive.all.filter s.has

/-- Whether a set has no directive. -/
def isEmpty (s : DirectiveSet) : Bool := s.bits = 0

/-- The directives of a set that prescribe a body. -/
def conflicting (s : DirectiveSet) : DirectiveSet :=
  ⟨s.bits &&& (ofList (Directive.all.filter Directive.prescribesBody)).bits⟩

/-! ## Membership -/

@[simp] theorem has_empty (d : Directive) : empty.has d = false := by
  simp [has, empty]

@[simp] theorem has_insert (s : DirectiveSet) (d e : Directive) :
    (s.insert d).has e = (s.has e || decide (d = e)) := by
  cases d <;> cases e <;> simp [has, insert, singleton, Directive.place]

@[simp] theorem has_conflicting (s : DirectiveSet) (d : Directive) :
    s.conflicting.has d = (s.has d && d.prescribesBody) := by
  have hmask : (ofList (Directive.all.filter Directive.prescribesBody)).bits = 0x7F#8 := by decide
  cases d <;> simp [has, conflicting, hmask, Directive.place, Directive.prescribesBody]

theorem mem_kinds {s : DirectiveSet} {d : Directive} : d ∈ s.kinds ↔ s.has d := by
  simp [kinds, Directive.mem_all]

/-- Every bit belongs to a directive, so a set without directives has no bits. -/
theorem isEmpty_iff {s : DirectiveSet} : s.isEmpty ↔ ∀ d, s.has d = false := by
  constructor
  · intro h d
    simp [has, of_decide_eq_true h]
  · intro h
    refine decide_eq_true (BitVec.eq_of_getLsbD_eq fun i hi => ?_)
    obtain ⟨d, rfl⟩ : ∃ d : Directive, d.place = i := by
      have hplace : ∀ j : Fin 8, ∃ d ∈ Directive.all, d.place = j := by decide
      obtain ⟨d, -, hd⟩ := hplace ⟨i, hi⟩
      exact ⟨d, hd⟩
    simpa [has] using h d

end DirectiveSet

end MapperDelegation
