import MapperDelegation.Mapper.Method

set_option autoImplicit false

/-!
# Models

A model holds every mapper unit and every method of one compilation, each in one list; units and
methods refer to one another by their positions in these lists. All orders are orders of
declaration: a unit's members are tried in their order, and its used units have priority in
theirs. Units are also entered under their simple names, which lead to their positions.

## Main definitions

* `MapperUnit`, `UsedUnit` — a unit, and a unit that another one uses.
* `Model` — the units and the methods, and the units by their simple names.
* `Model.unit`, `Model.method` — look-up by handle, which fails on a handle out of range.
* `Model.unitByName` — look-up by simple name.
* `Model.members` — the members of a unit with their handles.
-/

namespace MapperDelegation

/-! ## Units -/

/-- A unit as its user sees it: the unit, and the variable through which generated code reaches
it. -/
structure UsedUnit where
  unit : UnitId
  accessVariable : Symbol
deriving DecidableEq

/-- A declared mapper unit. -/
structure MapperUnit where
  /-- The simple name. -/
  name : Symbol
  /-- The qualified name, as a type. -/
  type : TypeSymbol
  methods : List MethodId
  /-- The used units, those of higher priority first. -/
  uses : List UsedUnit
  span : Span
deriving DecidableEq

/-! ## Look-up by position -/

/-- A handle that lies outside the list that it points into. -/
structure OutOfRange where
  size : Nat
  index : Nat
deriving DecidableEq

/-- The wording of the error. -/
def OutOfRange.message (e : OutOfRange) : String :=
  s!"index out of bounds: the len is {e.size} but the index is {e.index}"

/-- The entry of a list at a position. -/
def entryAt {α : Type} (xs : List α) (i : Nat) : Except OutOfRange α :=
  match xs[i]? with
  | some x => .ok x
  | none => .error ⟨xs.length, i⟩

theorem entryAt_eq_ok_iff {α : Type} {xs : List α} {i : Nat} {x : α} :
    entryAt xs i = .ok x ↔ xs[i]? = some x := by
  unfold entryAt
  split <;> simp_all

/-! ## Models -/

/-- A method together with its handle. -/
structure Member where
  id : MethodId
  method : Method
deriving DecidableEq

/-- All units and all methods, each in the order of declaration. -/
structure Model where
  units : List MapperUnit := []
  methods : List Method := []
  /-- The units by their simple names. Of several entries for one name the newest counts. -/
  unitsByName : List (Symbol × UnitId) := []
deriving DecidableEq

namespace Model

/-- The handle that the next unit will have. -/
def nextUnit (m : Model) : UnitId := ⟨m.units.length⟩

/-- The handle that the next method will have. -/
def nextMethod (m : Model) : MethodId := ⟨m.methods.length⟩

/-- The unit with a handle. -/
def unit (m : Model) (u : UnitId) : Except OutOfRange MapperUnit := entryAt m.units u.index

/-- The method with a handle. -/
def method (m : Model) (id : MethodId) : Except OutOfRange Method := entryAt m.methods id.index

/-- The method with a handle, the handle included. -/
def member (m : Model) (id : MethodId) : Except OutOfRange Member := Member.mk id <$> m.method id

/-- The handles of all units. -/
def unitIds (m : Model) : List UnitId := (List.range m.units.length).map UnitId.mk

/-- The unit that was entered under a simple name. -/
def unitByName (m : Model) (name : Symbol) : Option UnitId := m.unitsByName.lookup name

/-- The members of a unit. -/
def members (m : Model) (u : UnitId) : Except OutOfRange (List Member) := do
  let unit ← m.unit u
  unit.methods.mapM m.member

/-- The members of a unit that delegate. -/
def delegatingMembers (m : Model) (u : UnitId) : Except OutOfRange (List Member) :=
  List.filter (·.method.isDelegating) <$> m.members u

/-! ## Growth -/

/-- A model with one more unit, which is entered under its simple name as well. -/
def addUnit (m : Model) (unit : MapperUnit) : Model :=
  { m with
    units := m.units ++ [unit]
    unitsByName := (unit.name, m.nextUnit) :: m.unitsByName }

/-- A model in which a unit uses one more unit. -/
def addUse (m : Model) (u : UnitId) (use : UsedUnit) : Model :=
  { m with units := m.units.modify u.index fun unit => { unit with uses := unit.uses ++ [use] } }

/-- A model with one more method, which is entered among the members of a unit. -/
def addMethod (m : Model) (u : UnitId) (method : Method) : Model :=
  { m with
    units := m.units.modify u.index fun unit =>
      { unit with methods := unit.methods ++ [m.nextMethod] }
    methods := m.methods ++ [method] }

end Model

end MapperDelegation
