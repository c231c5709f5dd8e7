import MapperDelegation.Mapper.Method

set_option autoImplicit false

/-!
# Criteria for delegates

Which methods will do as a delegate: those of the right signature or, when the delegating method
asks for a name, those of that name, whatever their signature.

## Main definitions

* `Qualifier` — what the delegate annotation asks for.
* `QualifierMatching` — how a name is compared with a method.
* `Criteria`, `Criteria.accepts` — the test that every candidate undergoes.
-/

namespace MapperDelegation

/-- What a name asked for is compared with. -/
inductive QualifierMatching where
  /-- The identifier of the method. -/
  | identifier
  /-- The name given by the naming annotation. -/
  | namedTag
  /-- Either of the two. -/
  | identifierOrTag
deriving DecidableEq

/-- A restriction of the choice of a delegate. -/
inductive Qualifier where
  | byName (name : Symbol)
  /-- A qualifying type is carried along but does not narrow the choice. -/
  | byType (type : TypeSymbol)
deriving DecidableEq

/-- The qualifier of a delegate annotation: its first name, or else its first type. -/
def DelegateRequest.qualifier (a : DelegateRequest) : Option Qualifier :=
  (a.qualifyingNames.head?.map .byName).or (a.qualifyingTypes.head?.map .byType)

/-- The qualifier that a method asks for. -/
def Method.qualifier (m : Method) : Option Qualifier := m.delegate.bind (·.qualifier)

namespace Qualifier

/-- The string that a qualifier is given by, as a symbol. -/
def value : Qualifier → Symbol
  | byName name => name
  | byType type => type.name

/-- Whether a method passes a qualifier. -/
def admits (q : Qualifier) (matching : QualifierMatching) (candidate : Method) : Bool :=
  match q, matching with
  | byName name, .identifier => candidate.name = name
  | byName name, .namedTag => candidate.tag = some name
  | byName name, .identifierOrTag => candidate.name = name || candidate.tag = some name
  | byType _, _ => true

/-- A qualifier as it is described in reports. -/
def describe (symbols : SymbolTable) : Qualifier → String
  | byName name => s!"name `{symbols.lookup name}`"
  | byType type => s!"type `{symbols.lookup type.name}`"

end Qualifier

/-- The qualifier of a search, if there is one, and how its name is compared. -/
structure Criteria where
  matching : QualifierMatching := .identifierOrTag
  qualifier : Option Qualifier := none
deriving DecidableEq

/-- Whether a method will do as the delegate of another one. A name asked for decides alone;
otherwise the signatures have to agree. -/
def Criteria.accepts (c : Criteria) (source candidate : Method) : Bool :=
  match c.qualifier with
  | some (.byName name) => (Qualifier.byName name).admits c.matching candidate
  | _ => source.compatible candidate

end MapperDelegation
