import MapperDelegation.Delegation.Criteria
import MapperDelegation.Report.Queue

set_option autoImplicit false

/-!
# Options of generation

## Main definitions

* `Options` — how delegates are chosen and what is reported about the choice. By default a name
  asked for is compared with identifiers and tags alike, the first candidate is taken without
  comment, and every diagnostic is kept.
* `Options.strict` — the same choice with every warning.
-/

namespace MapperDelegation

/-- What is done when more than one candidate would do. The first one is taken in any case. -/
inductive AmbiguityPolicy where
  | firstMatch
  /-- A warning lists the others. -/
  | warn
deriving DecidableEq

/-- How delegates are chosen and what is reported. -/
structure Options where
  matching : QualifierMatching := .identifierOrTag
  ambiguity : AmbiguityPolicy := .firstMatch
  /-- Whether a delegate in the unit of the delegating method is worth a warning. -/
  warnSameUnit : Bool := false
  limits : Limits := .unlimited
deriving DecidableEq

/-- The default choice of delegates, with every warning. -/
def Options.strict : Options := { ambiguity := .warn, warnSameUnit := true }

/-- The criteria by which the delegate of a method is searched. -/
def Options.criteriaFor (o : Options) (m : Method) : Criteria :=
  { matching := o.matching, qualifier := m.qualifier }

end MapperDelegation
