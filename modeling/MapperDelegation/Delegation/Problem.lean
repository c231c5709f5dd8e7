import MapperDelegation.Delegation.Criteria
import MapperDelegation.Delegation.Stage
import MapperDelegation.Report.Diagnostic

set_option autoImplicit false

/-!
# Problems

What can go wrong with a delegating method, and how it is reported.

## Main definitions

* `Cause` — the kinds of problems with what their reports have to tell.
* `Problem` — a cause and the method that it concerns.
* `Problem.diagnostic` — the report on a problem.
* `Method.validate` — the conditions that a method must meet in order to delegate.
-/

namespace MapperDelegation

/-! ## Kinds of problems -/

/-- What is wrong with a delegating method. -/
inductive Cause where
  /-- The method is not abstract. -/
  | hasBody (implementation : Implementation)
  /-- The method carries directives that prescribe a body. -/
  | conflictingDirectives (directives : DirectiveSet)
  /-- There is no candidate, neither among the used units nor in the unit itself. The span is the
  one of the delegate annotation. -/
  | noDelegate (unit : Symbol) (qualifier : Option Qualifier) (requestedAt : Span)
  /-- The delegate stands in the same unit. -/
  | sameUnit (delegate : Symbol)
  /-- There are other candidates than the chosen one. -/
  | ambiguous (chosen : Symbol) (others : List Symbol)
  /-- A step of the generation was refused. -/
  | internal (error : TransitionError)
deriving DecidableEq

namespace Cause

/-- Whether a problem is reported as a warning only. -/
def isWarning : Cause → Bool
  | sameUnit _ | ambiguous _ _ => true
  | _ => false

/-- Whether a problem with one method makes the whole unit fail. -/
def isFatal : Cause → Bool
  | noDelegate .. | internal _ => true
  | _ => false

end Cause

/-- A problem with a delegating method, which stands at the given place. -/
structure Problem where
  span : Span
  method : Symbol
  cause : Cause
deriving DecidableEq

/-- Whether a problem is reported as a warning only. -/
def Problem.isWarning (p : Problem) : Bool := p.cause.isWarning

/-- Whether a problem with one method makes the whole unit fail. -/
def Problem.isFatal (p : Problem) : Bool := p.cause.isFatal

/-- A problem with a method. -/
def Method.problem (m : Method) (cause : Cause) : Problem := ⟨m.span, m.name, cause⟩

/-! ## Reports -/

/-- What a report says about the body that is in the way. -/
def Implementation.foundText : Implementation → String
  | .default => "a default body"
  | .concrete | .abstract => "a body"

/-- Items of a report, each in backquotes. -/
def quotedList (items : List String) : String :=
  ", ".intercalate (items.map fun item => s!"`{item}`")

/-- The report on a problem. -/
def Problem.diagnostic (symbols : SymbolTable) (p : Problem) : Diagnostic :=
  let method := symbols.lookup p.method
  match p.cause with
  | .hasBody implementation =>
    Diagnostic.error .hasBody
      |>.withMessage s!"delegating method `{method}` must be abstract"
      |>.withLabel p.span s!"`{method}` already has {implementation.foundText}"
      |>.withNote "only unimplemented methods can delegate"
      |>.withSuggestion "remove the body, or remove the delegate annotation"
  | .conflictingDirectives directives =>
    let list := quotedList (directives.kinds.map Directive.text)
    Diagnostic.error .conflictingDirective
      |>.withMessage s!"delegating method `{method}` cannot carry mapping directives"
      |>.withLabel p.span s!"found {list}"
      |>.withNote "a delegating method's body is a single call to its delegate"
      |>.withSuggestion s!"remove {list}"
  | .noDelegate unit qualifier requestedAt =>
    let missing := match qualifier with
      | some (.byName _) => "no matching method"
      | _ => "no compatible method"
    let report := Diagnostic.error .noDelegate
      |>.withMessage s!"no delegate found for `{method}`"
      |>.withLabel p.span s!"{missing} in `{symbols.lookup unit}` or the mappers it uses"
      |>.withSecondaryLabel requestedAt "delegation requested here"
    let report := match qualifier with
      | some q =>
        report.withNote s!"candidates were restricted by qualifier {q.describe symbols}"
      | none => report
    report.withSuggestion "declare a public method with the same parameter types and return type"
  | .sameUnit delegate =>
    Diagnostic.warning .sameUnit
      |>.withMessage s!"`{method}` delegates to `{symbols.lookup delegate}` in the same mapper"
      |>.withLabel p.span "resolved within the declaring mapper"
  | .ambiguous chosen others =>
    let chosen := symbols.lookup chosen
    Diagnostic.warning .ambiguous
      |>.withMessage s!"`{method}` has more than one compatible delegate; using `{chosen}`"
      |>.withLabel p.span s!"delegates to `{chosen}`"
      |>.withNote s!"also compatible: {quotedList (others.map symbols.lookup)}"
      |>.withSuggestion "add a name qualifier to pick one explicitly"
  | .internal error =>
    Diagnostic.error .internal
      |>.withMessage s!"internal error while generating `{method}`: {error.message}"
      |>.withLabel p.span "while generating this method"

/-- A problem and its report agree on the severity. -/
theorem Problem.isWarning_diagnostic (symbols : SymbolTable) (p : Problem) :
    (p.diagnostic symbols).isWarning = p.isWarning := by
  obtain ⟨span, method, cause⟩ := p
  cases cause with
  | noDelegate unit qualifier requestedAt => cases qualifier <;> rfl
  | _ => rfl

/-! ## Validation -/

/-- Checks that a method may delegate: it must be abstract, and no directive may prescribe its
body. A body is reported before any directive. -/
def Method.validate (m : Method) : Except Problem Unit :=
  if !m.isAbstract then .error (m.problem (.hasBody m.implementation))
  else if m.hasConflictingDirective then
    .error (m.problem (.conflictingDirectives m.directives.conflicting))
  else .ok ()

end MapperDelegation
