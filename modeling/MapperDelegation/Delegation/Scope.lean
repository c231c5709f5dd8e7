import MapperDelegation.Delegation.Criteria
import MapperDelegation.Mapper.Model

set_option autoImplicit false

/-!
# Scopes and the search for delegates

The scope of a unit is all that its delegating methods can see: the members of the unit itself
and those of the units it uses. Delegates are searched in two passes. The first one goes
through the used units in their order and takes public methods only. The second one, which
counts only if the first one finds nothing, goes through the unit itself and leaves out the
searching method, private members and methods that delegate in turn.

## Main definitions

* `Scope`, `Model.scope` — the members that a unit can see.
* `Candidate` — a method that will do as a delegate, and where it was found.
* `Scope.crossUnit`, `Scope.sameUnit` — the two passes.
* `Scope.find`, `Scope.resolveAll` — the first candidate of the pass that decides, alone and
  together with the others.
-/

namespace MapperDelegation

/-! ## Scopes -/

/-- A used unit with its type and its members. -/
structure Provider where
  use : UsedUnit
  type : TypeSymbol
  members : List Member
deriving DecidableEq

/-- What the delegating methods of a unit can see. -/
structure Scope where
  /-- The simple name of the unit. -/
  unitName : Symbol
  members : List Member
  /-- The used units, those of higher priority first. -/
  providers : List Provider
deriving DecidableEq

/-- A used unit with its type and its members, looked up in a model. -/
def Model.provider (m : Model) (use : UsedUnit) : Except OutOfRange Provider := do
  let unit ← m.unit use.unit
  let members ← m.members use.unit
  return { use, type := unit.type, members }

/-- The scope of a unit. -/
def Model.scope (m : Model) (u : UnitId) : Except OutOfRange Scope := do
  let unit ← m.unit u
  let members ← m.members u
  let providers ← unit.uses.mapM m.provider
  return { unitName := unit.name, members, providers }

/-! ## Candidates -/

/-- Where a delegate stands as seen from the delegating method. -/
inductive Owner where
  /-- In the same unit: it is called without a receiver. -/
  | sameUnit
  /-- In a used unit: it is called through the access variable. -/
  | usedUnit (use : UsedUnit)
deriving DecidableEq

/-- The variable through which the methods of an owner are called. -/
def Owner.accessVariable : Owner → Option Symbol
  | sameUnit => none
  | usedUnit use => some use.accessVariable

/-- Whether an owner is the unit of the delegating method. -/
def Owner.isSameUnit (o : Owner) : Bool := o = sameUnit

/-- A method that will do as a delegate. -/
structure Candidate where
  target : Member
  owner : Owner
deriving DecidableEq

/-- The candidate that is chosen, and the others in the order of the search. -/
structure Resolution where
  chosen : Candidate
  alternatives : List Candidate
deriving DecidableEq

/-- Whether there was a choice. -/
def Resolution.isAmbiguous (r : Resolution) : Bool := !r.alternatives.isEmpty

/-! ## The search -/

namespace Scope

/-- The candidates among the public methods of one used unit. -/
def candidatesOf (c : Criteria) (source : Method) (p : Provider) : List Candidate :=
  let eligible := p.members.filter fun member =>
    member.method.isMethod && member.method.isPublic && c.accepts source member.method
  eligible.map (Candidate.mk · (.usedUnit p.use))

/-- The candidates among the used units. -/
def crossUnit (s : Scope) (c : Criteria) (source : Member) : List Candidate :=
  s.providers.flatMap (candidatesOf c source.method)

/-- The candidates among the members of the unit itself. -/
def sameUnit (s : Scope) (c : Criteria) (source : Member) : List Candidate :=
  let eligible := s.members.filter fun member =>
    member.id ≠ source.id && !member.method.isDelegating && member.method.isMethod
      && member.method.visibility ≠ .unit && c.accepts source.method member.method
  eligible.map (Candidate.mk · .sameUnit)

/-- The delegate of a method: the first candidate among the used units, or else the first one in
the unit itself. -/
def find (s : Scope) (c : Criteria) (source : Member) : Option Candidate :=
  (s.crossUnit c source).head?.or (s.sameUnit c source).head?

/-- The delegate of a method, with the other candidates of the pass that found it. -/
def resolveAll (s : Scope) (c : Criteria) (source : Member) : Option Resolution :=
  match s.crossUnit c source with
  | chosen :: alternatives => some { chosen, alternatives }
  | [] =>
    match s.sameUnit c source with
    | chosen :: alternatives => some { chosen, alternatives }
    | [] => none

/-- The members that delegate. -/
def delegating (s : Scope) : List Member := s.members.filter (·.method.isDelegating)

/-- The type that has to be imported for calls of methods of an owner. -/
def typeOf (s : Scope) : Owner → Option TypeSymbol
  | .sameUnit => none
  | .usedUnit use => (s.providers.find? (·.use = use)).map (·.type)

end Scope

/-! ## Searching in a model -/

namespace Model

/-- Looks up a method and the scope of its unit, and hands both on. -/
def inScopeOf {α : Type} (m : Model) (id : MethodId) (f : Scope → Member → α) :
    Except OutOfRange α := do
  let source ← m.member id
  let scope ← m.scope source.method.unit
  return f scope source

/-- The candidates for a method among the used units. -/
def crossUnit (m : Model) (c : Criteria) (id : MethodId) : Except OutOfRange (List Candidate) :=
  m.inScopeOf id fun scope source => scope.crossUnit c source

/-- The candidates for a method in its own unit. -/
def sameUnit (m : Model) (c : Criteria) (id : MethodId) : Except OutOfRange (List Candidate) :=
  m.inScopeOf id fun scope source => scope.sameUnit c source

/-- The delegate of a method. -/
def find (m : Model) (c : Criteria) (id : MethodId) : Except OutOfRange (Option Candidate) :=
  m.inScopeOf id fun scope source => scope.find c source

/-- The delegate of a method, with the other candidates of the same pass. -/
def resolveAll (m : Model) (c : Criteria) (id : MethodId) :
    Except OutOfRange (Option Resolution) :=
  m.inScopeOf id fun scope source => scope.resolveAll c source

/-- Whether one method can be called in place of another. -/
def compatible (m : Model) (source target : MethodId) : Except OutOfRange Bool := do
  let source ← m.method source
  let target ← m.method target
  return source.compatible target

end Model

end MapperDelegation
