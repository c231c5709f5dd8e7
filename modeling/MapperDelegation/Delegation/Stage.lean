set_option autoImplicit false

/-!
# Stages of generation

A delegating method passes through a few stages from its declaration to its rendered body. Each
stage has a fixed choice of next ones, and a request for any other is refused.

## Main definitions

* `Stage` — how far a method has come.
* `Stage.canAdvance` — the steps that are allowed.
* `Stage.advance` — one step, or the refusal of it.
-/

namespace MapperDelegation

/-- How far a delegating method has come. -/
inductive Stage where
  | declared
  | validated
  | resolving
  | resolved
  | rendered
  /-- The declaration does not allow delegation. -/
  | rejected
  /-- There is no delegate. -/
  | unresolved
deriving DecidableEq

/-- The refusal of a step. -/
structure TransitionError where
  origin : Stage
  goal : Stage
deriving DecidableEq

namespace Stage

/-- All stages. -/
def all : List Stage :=
  [declared, validated, resolving, resolved, rendered, rejected, unresolved]

/-- A stage as it is shown in reports. -/
def text : Stage → String
  | declared => "declared"
  | validated => "validated"
  | resolving => "resolving"
  | resolved => "resolved"
  | rendered => "rendered"
  | rejected => "rejected"
  | unresolved => "resolution failed"

/-- Whether a stage is a last one. -/
def isTerminal : Stage → Bool
  | rendered | rejected | unresolved => true
  | _ => false

/-- Whether a step is allowed. -/
def canAdvance : Stage → Stage → Bool
  | declared, validated | declared, rejected => true
  | validated, resolving => true
  | resolving, resolved | resolving, unresolved => true
  | resolved, rendered => true
  | _, _ => false

/-- The stages that may follow. -/
def next (s : Stage) : List Stage := all.filter s.canAdvance

/-- A step to another stage. -/
def advance (s goal : Stage) : Except TransitionError Stage :=
  if s.canAdvance goal then .ok goal else .error ⟨s, goal⟩

/-- The stage after a request, which a refusal leaves as it was. -/
def afterRequest (s goal : Stage) : Stage := if s.canAdvance goal then goal else s

/-- No stage is missing from the list. -/
theorem mem_all (s : Stage) : s ∈ all := by cases s <;> decide

/-- The last stages are those without a next one. -/
theorem isTerminal_iff (s : Stage) : s.isTerminal ↔ s.next = [] := by cases s <;> decide

end Stage

/-- The wording of a refusal. -/
def TransitionError.message (e : TransitionError) : String :=
  s!"illegal method state transition: {e.origin.text} -> {e.goal.text}"

end MapperDelegation
