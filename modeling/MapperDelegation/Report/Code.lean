set_option autoImplicit false

/-!
# Diagnostic codes

Every diagnostic carries a code by which it can be looked up: an `E` for errors or a `W` for
warnings, and four digits. The thousands group the codes: delegation (`1`) and internal
matters (`9`).

## Main definitions

* `Code` — the codes, named for what they report.
* `Code.text`, `Code.ofText?` — the written form, and reading it without regard to case.
-/

namespace MapperDelegation

/-- What a diagnostic is about. -/
inductive Code where
  /-- A delegating method has a body. -/
  | hasBody
  /-- A delegating method carries a directive that prescribes a body. -/
  | conflictingDirective
  | noDelegate
  /-- The delegate belongs to the unit of the delegating method. -/
  | sameUnit
  /-- More than one method would do as a delegate. -/
  | ambiguous
  | internal
  | tooManyErrors
deriving DecidableEq

namespace Code

/-- The codes in the order of the documentation. -/
def all : List Code :=
  [hasBody, conflictingDirective, noDelegate, sameUnit, ambiguous, internal, tooManyErrors]

/-- The written form of a code. -/
def text : Code → String
  | hasBody => "E1001"
  | conflictingDirective => "E1002"
  | noDelegate => "E1003"
  | sameUnit => "W1001"
  | ambiguous => "W1002"
  | internal => "E9001"
  | tooManyErrors => "E9002"

/-- One line on what a code means. -/
def description : Code → String
  | hasBody => "delegating method must be abstract"
  | conflictingDirective => "delegating method carries a conflicting mapping directive"
  | noDelegate => "no delegate found"
  | sameUnit => "delegate resolved within the same mapper"
  | ambiguous => "ambiguous delegate"
  | internal => "internal error"
  | tooManyErrors => "too many errors"

/-- Whether a code stands for an error in a declaration. -/
def isDelegationError : Code → Bool
  | hasBody | conflictingDirective | noDelegate => true
  | _ => false

/-- Whether a code stands for an error of the generator or of the reporting itself. -/
def isInternalError : Code → Bool
  | internal | tooManyErrors => true
  | _ => false

/-- Whether a code stands for a warning. -/
def isWarning : Code → Bool
  | sameUnit | ambiguous => true
  | _ => false

/-- The code with a written form, in which letters of either case will do. The letters of codes
are ASCII letters and no other character has one of them, or a digit, as its capital. -/
def ofText? (s : String) : Option Code := all.find? (·.text = s.toUpper)

/-- No code is missing from the list. -/
theorem mem_all (c : Code) : c ∈ all := by cases c <;> decide

end Code

end MapperDelegation
