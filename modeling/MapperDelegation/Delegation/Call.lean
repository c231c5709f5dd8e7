import MapperDelegation.Delegation.Scope

set_option autoImplicit false

/-!
# Calls of delegates

The body of a delegating method is one call. It hands on the parameters of the method by
position and returns what the delegate returns, if anything.

## Main definitions

* `Reference` — the method to call, where it stands, and the arguments.
* `Reference.ofTarget` — the reference of a delegating method to a target.
* `callText` — the text of a call, such as `addressMapper.toDto( address )`.
* `Body` — the statement around a call.

## Main results

* `Reference.arguments_ofTarget` — which parameters are handed on.
-/

namespace MapperDelegation

/-! ## References -/

/-- The call that a delegating method makes. -/
structure Reference where
  target : MethodId
  targetName : Symbol
  owner : Owner
  /-- The arguments, which are parameters of the delegating method, in the order of the call. -/
  arguments : List Symbol
deriving DecidableEq

/-- The reference of a delegating method to a target. The parameters of the target are bound to
those of the delegating method at the same places; what is left over on either side is
ignored, which happens only for a target chosen by name. -/
def Reference.ofTarget (source : Method) (target : Member) (owner : Owner) : Reference where
  target := target.id
  targetName := target.method.name
  owner := owner
  arguments := (target.method.params.zip source.params).map fun (_, param) => param.name

/-- The first parameters are handed on, as many as the target takes. -/
theorem Reference.arguments_ofTarget (source : Method) (target : Member) (owner : Owner) :
    (Reference.ofTarget source target owner).arguments =
      source.paramNames.take target.method.arity := by
  simp only [ofTarget, Method.paramNames, Method.arity]
  generalize source.params = ps
  generalize target.method.params = taken
  induction taken generalizing ps with
  | nil => rfl
  | cons q taken ih =>
    cases ps with
    | nil => rfl
    | cons p ps => simp [ih]

/-- The reference of a delegating method to a candidate. -/
def Candidate.reference (c : Candidate) (source : Method) : Reference :=
  .ofTarget source c.target c.owner

/-- The delegate of a method as a reference. -/
def Scope.resolve (s : Scope) (c : Criteria) (source : Member) : Option Reference :=
  (s.find c source).map (·.reference source.method)

/-- The delegate of a method as a reference. -/
def Model.resolve (m : Model) (c : Criteria) (id : MethodId) :
    Except OutOfRange (Option Reference) :=
  m.inScopeOf id fun scope source => scope.resolve c source

/-- The reference of a method to a target that the caller has chosen. -/
def Model.reference (m : Model) (source target : MethodId) (owner : Owner) :
    Except OutOfRange Reference := do
  let source ← m.method source
  let target ← m.member target
  return .ofTarget source target owner

/-! ## Texts -/

/-- What stands in place of a call when there is no delegate. -/
def missingCall : String := "/* no delegate call found */"

/-- The text of a call with the given arguments. -/
def Reference.callText (symbols : SymbolTable) (r : Reference) (arguments : List Symbol) :
    String :=
  let receiver := match r.owner.accessVariable with
    | none => ""
    | some v => symbols.lookup v ++ "."
  let list := ", ".intercalate (arguments.map symbols.lookup)
  s!"{receiver}{symbols.lookup r.targetName}( {list} )"

/-- The text of a call with the given arguments, or a comment when there is nothing to call. -/
def callText (symbols : SymbolTable) (reference : Option Reference) (arguments : List Symbol) :
    String :=
  match reference with
  | none => missingCall
  | some r => r.callText symbols arguments

/-- The single statement of a generated body. -/
inductive Body where
  | returning (call : String)
  | statement (call : String)
deriving DecidableEq

namespace Body

/-- The body of a method around a call: its value is returned unless the method is `void`. -/
def around (m : Method) (call : String) : Body :=
  if m.returnType.isVoid then .statement call else .returning call

/-- The call of a body. -/
def call : Body → String
  | returning call => call
  | statement call => call

/-- The text of a body. -/
def text : Body → String
  | returning call => s!"return {call};"
  | statement call => s!"{call};"

end Body

end MapperDelegation
