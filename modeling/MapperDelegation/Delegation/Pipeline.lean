import MapperDelegation.Delegation.Call
import MapperDelegation.Delegation.Options
import MapperDelegation.Delegation.Problem

set_option autoImplicit false

/-!
# Examination of single methods

A delegating method is validated, its delegate is searched, and its body is rendered. The
examination keeps track of the stage that the method has reached, and adds a diagnostic to the
queue for each problem that it meets. A step that the stages do not allow would end it, to be
reported as an internal problem, which never happens.

## Main definitions

* `GeneratedMethod` — a body with what is needed to emit it.
* `Progress`, `Pipeline` — the stage of the method under examination and the diagnostics so far, and
  the steps that advance them.
* `Ending` — how an examination ends.
* `Scope.pipeline`, `Scope.runMethod` — the examination, step by step and as a whole.
-/

namespace MapperDelegation

/-! ## Results -/

/-- A body that was generated. -/
structure GeneratedMethod where
  method : MethodId
  reference : Reference
  body : Body
  /-- Whether the generated method is to be marked as overriding. -/
  overrides : Bool
  /-- The types to import, each once, in the order of their first use. -/
  requiredTypes : List TypeSymbol
deriving DecidableEq

/-- How the examination of a method ends. -/
inductive Ending where
  | generated (body : GeneratedMethod)
  /-- The method may not delegate. The unit goes on without it. -/
  | rejected
  /-- The unit fails. The evidence is that of the error that was reported. -/
  | fatal (evidence : Guarantee)
deriving DecidableEq

/-- The types that a body needs: those of the parameters, the return type unless it is `void`,
and the type of the owner of the delegate if that is another unit. -/
def Scope.requiredTypes (s : Scope) (m : Method) (owner : Owner) : List TypeSymbol :=
  let returned := if m.returnType.isVoid then [] else [m.returnType]
  (m.paramTypes ++ returned ++ (s.typeOf owner).toList).eraseDups

/-! ## Steps -/

/-- How far a method has come, and the diagnostics so far, those on other methods included. -/
structure Progress where
  stage : Stage := .declared
  queue : Queue

/-- Steps of an examination. One that is refused ends it. -/
abbrev Pipeline : Type → Type := EStateM TransitionError Progress

namespace Pipeline

/-- Moves the method to another stage. -/
def advance (goal : Stage) : Pipeline Unit := do
  let progress ← get
  match progress.stage.advance goal with
  | .ok stage => set { progress with stage }
  | .error error => throw error

/-- Reports a problem as an error, and gives evidence of it. -/
def reportError (symbols : SymbolTable) (p : Problem) : Pipeline Guarantee :=
  modifyGet fun progress =>
    let (evidence, queue) := progress.queue.emitError (p.diagnostic symbols)
    (evidence, { progress with queue })

/-- Reports a problem as a warning if a condition calls for it. -/
def warnIf (condition : Bool) (symbols : SymbolTable) (p : Problem) : Pipeline Unit :=
  if condition then
    modify fun progress => { progress with queue := (progress.queue.add (p.diagnostic symbols)).2 }
  else return ()

end Pipeline

/-! ## The examination of one method -/

/-- The delegate of a method by the options, with the other candidates if they are to be
reported. -/
def Scope.choose (s : Scope) (o : Options) (source : Member) : Option Resolution :=
  match o.ambiguity with
  | .firstMatch => (s.find (o.criteriaFor source.method) source).map (Resolution.mk · [])
  | .warn => s.resolveAll (o.criteriaFor source.method) source

/-- The problem of a method without a delegate. -/
def Scope.noDelegate (s : Scope) (m : Method) : Problem :=
  let requestedAt := (m.delegate.map (·.span)).getD .unknown
  m.problem (.noDelegate s.unitName m.qualifier requestedAt)

/-- The body of a method that calls a candidate. -/
def Scope.generate (s : Scope) (symbols : SymbolTable) (source : Member) (chosen : Candidate) :
    GeneratedMethod :=
  let reference := chosen.reference source.method
  { method := source.id
    reference
    body := .around source.method (reference.callText symbols reference.arguments)
    overrides := source.method.overrides
    requiredTypes := s.requiredTypes source.method chosen.owner }

/-- Validates a method, searches its delegate and renders its body, as far as it gets. -/
def Scope.pipeline (s : Scope) (symbols : SymbolTable) (o : Options) (source : Member) :
    Pipeline Ending := do
  match source.method.validate with
  | .error problem =>
    Pipeline.advance .rejected
    let _ ← Pipeline.reportError symbols problem
    return .rejected
  | .ok () =>
    Pipeline.advance .validated
    Pipeline.advance .resolving
    match s.choose o source with
    | none =>
      Pipeline.advance .unresolved
      let evidence ← Pipeline.reportError symbols (s.noDelegate source.method)
      return .fatal evidence
    | some r =>
      Pipeline.advance .resolved
      let reference := r.chosen.reference source.method
      Pipeline.warnIf (o.warnSameUnit && reference.owner.isSameUnit) symbols
        (source.method.problem (.sameUnit reference.targetName))
      Pipeline.warnIf r.isAmbiguous symbols
        (source.method.problem
          (.ambiguous reference.targetName (r.alternatives.map (·.target.method.name))))
      Pipeline.advance .rendered
      return .generated (s.generate symbols source r.chosen)

/-- Examines a method from its declaration on, with the diagnostics so far at hand. A refused step
is reported as a problem and makes the unit fail. -/
def Scope.runMethod (s : Scope) (symbols : SymbolTable) (o : Options) (q : Queue)
    (source : Member) : Ending × Progress :=
  match (s.pipeline symbols o source).run { queue := q } with
  | .ok ending progress => (ending, progress)
  | .error error progress =>
    let problem := source.method.problem (.internal error)
    let (evidence, queue) := progress.queue.emitError (problem.diagnostic symbols)
    (.fatal evidence, { progress with queue })

end MapperDelegation
