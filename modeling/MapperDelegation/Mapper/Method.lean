import MapperDelegation.Symbol
import MapperDelegation.Mapper.Span
import MapperDelegation.Mapper.Directive

set_option autoImplicit false

/-!
# Methods

What is known about one member of a mapper unit: its signature, where it stands, who may call
it, whether it has a body, and the annotations that matter for delegation.

## Main definitions

* `UnitId`, `MethodId` — positions of units and of methods in a model.
* `Method` — a declared member.
* `DelegateRequest` — the annotation that asks for a delegate; a method that carries it
  delegates.
* `Method.compatible` — whether one method can be called in place of another.

## Main results

* `Method.compatible_iff` — this is a matter of the types that are returned and taken.
-/

namespace MapperDelegation

/-! ## Handles -/

/-- The position of a mapper unit in its model. -/
structure UnitId where
  index : Nat
deriving DecidableEq

/-- A unit's handle as it is shown to a developer. -/
def UnitId.text (u : UnitId) : String := s!"UnitId({u.index})"

/-- The position of a method in its model, all units taken together. -/
structure MethodId where
  index : Nat
deriving DecidableEq

/-- A method's handle as it is shown to a developer. -/
def MethodId.text (m : MethodId) : String := s!"MethodId({m.index})"

/-! ## Attributes of a member -/

/-- A parameter: its name and its type. -/
structure Param where
  name : Symbol
  type : TypeSymbol
deriving DecidableEq

/-- Constructors are declared like methods but never take part in delegation. -/
inductive MemberKind where
  | method
  | constructor
deriving DecidableEq

/-- Who may call a member. -/
inductive Visibility where
  | all
  | subtypes
  | package
  | unit
deriving DecidableEq

/-- The body that a declaration already has. -/
inductive Implementation where
  /-- No body: the declaration is abstract. -/
  | abstract
  /-- The default body of an interface method. -/
  | default
  /-- The body of a method of a class. -/
  | concrete
deriving DecidableEq

/-- The annotation that asks for a delegate, with the qualifiers that narrow the choice, each
list in the order of the annotation. -/
structure DelegateRequest where
  qualifyingTypes : List TypeSymbol := []
  qualifyingNames : List Symbol := []
  span : Span := .unknown
deriving DecidableEq

/-- Whether an annotation narrows the choice at all. -/
def DelegateRequest.isQualified (a : DelegateRequest) : Bool :=
  !a.qualifyingTypes.isEmpty || !a.qualifyingNames.isEmpty

/-! ## Methods -/

/-- A declared member of a mapper unit. -/
structure Method where
  name : Symbol
  /-- In the order of declaration, which is also the order of the arguments of a call. -/
  params : List Param
  returnType : TypeSymbol
  /-- The declaring unit. -/
  unit : UnitId
  /-- The name given by the naming annotation. -/
  tag : Option Symbol
  delegate : Option DelegateRequest
  /-- Whether the method overrides one of a supertype. -/
  overrides : Bool
  kind : MemberKind
  visibility : Visibility
  implementation : Implementation
  directives : DirectiveSet
  span : Span
deriving DecidableEq

namespace Method

/-- Whether the body of a method is to be a call of a delegate. -/
def isDelegating (m : Method) : Bool := m.delegate.isSome

/-- Whether a member is a method rather than a constructor. -/
def isMethod (m : Method) : Bool := m.kind = .method

/-- Whether other units may call a member. -/
def isPublic (m : Method) : Bool := m.visibility = .all

/-- Whether a declaration has no body yet. -/
def isAbstract (m : Method) : Bool := m.implementation = .abstract

/-- Whether some directive on a method prescribes its body. -/
def hasConflictingDirective (m : Method) : Bool := !m.directives.conflicting.isEmpty

/-- The number of parameters. -/
def arity (m : Method) : Nat := m.params.length

/-- The types of the parameters, in order. -/
def paramTypes (m : Method) : List TypeSymbol := m.params.map (·.type)

/-- The names of the parameters, in order. -/
def paramNames (m : Method) : List Symbol := m.params.map (·.name)

/-- Whether `target` can be called in place of `source` with the same arguments: it returns the
same type, takes as many parameters, and takes the same type at each place. The names of the
parameters do not matter. -/
def compatible (source target : Method) : Bool :=
  source.returnType = target.returnType && source.arity = target.arity &&
    (source.params.zip target.params).all fun (s, t) => s.type = t.type

/-- Lists of parameters have the same types if they are equally long and agree at each place that
both have: no list of types passes for a longer one that begins like it. -/
theorem map_type_eq_iff {ps qs : List Param} : ps.map (·.type) = qs.map (·.type) ↔
    ps.length = qs.length ∧ ∀ pair ∈ ps.zip qs, pair.1.type = pair.2.type := by
  induction ps generalizing qs with
  | nil => cases qs <;> simp
  | cons p ps ih =>
    cases qs with
    | nil => simp
    | cons q qs => simp [ih, and_left_comm]

/-- Signatures agree if the types of what is returned and of all parameters do. -/
theorem compatible_iff {source target : Method} : source.compatible target ↔
    source.returnType = target.returnType ∧ source.paramTypes = target.paramTypes := by
  simp only [compatible, Bool.and_eq_true, decide_eq_true_eq, List.all_eq_true, and_assoc]
  rw [paramTypes, paramTypes, map_type_eq_iff, arity, arity]

end Method

end MapperDelegation
