import MapperDelegation.Report.Diagnostic

set_option autoImplicit false

/-!
# Diagnostic queues

A queue collects diagnostics until they are listed. It may drop what it holds already, and it
may stop taking errors once there are enough of them. Whoever reports an error receives a
`Guarantee` in return, so that a failure cannot go unreported.

## Main definitions

* `Limits` — the bound on errors and whether repetitions are dropped.
* `Queue` — the diagnostics held, with their counts.
* `Queue.add`, `Queue.emitError` — taking one more diagnostic.
* `Queue.flush` — the diagnostics in order of place, and the empty queue.
-/

namespace MapperDelegation

/-! ## Limits and guarantees -/

/-- How a queue filters what is added to it. -/
structure Limits where
  /-- The number of errors after which further ones are dropped; zero for no bound. -/
  errorLimit : Nat := 10
  /-- Whether a diagnostic equal to one in the queue is dropped. -/
  deduplicate : Bool := true
deriving DecidableEq

/-- No filtering at all. -/
def Limits.unlimited : Limits := { errorLimit := 0, deduplicate := false }

/-- Evidence that some error was reported. -/
structure Guarantee where
deriving DecidableEq

/-- What the evidence says. -/
def Guarantee.text (_ : Guarantee) : String := "error(s) emitted"

/-- The evidence that a positive number of errors gives. -/
def Guarantee.ofErrorCount? (count : Nat) : Option Guarantee := if 0 < count then some {} else none

/-- The diagnostic that closes a listing from which errors were dropped. -/
def tooManyErrors (limit : Nat) : Diagnostic :=
  Diagnostic.error .tooManyErrors
    |>.withMessage s!"aborting after {limit} errors"
    |>.withNote "raise `error_limit` in the diagnostic configuration to see more"

/-! ## Queues -/

/-- Diagnostics in the order in which they were added, and the counts that belong to them. -/
structure Queue where
  limits : Limits := {}
  diagnostics : List Diagnostic := []
  errorCount : Nat := 0
  warningCount : Nat := 0
  /-- The number of errors dropped because of the bound. -/
  suppressed : Nat := 0
deriving DecidableEq

namespace Queue

/-- Whether the queue takes no more errors. -/
def limitReached (q : Queue) : Bool :=
  0 < q.limits.errorLimit && q.limits.errorLimit ≤ q.errorCount

/-- Appends a diagnostic and counts it. -/
def push (q : Queue) (d : Diagnostic) : Queue :=
  { q with
    diagnostics := q.diagnostics ++ [d]
    errorCount := q.errorCount + d.isError.toNat
    warningCount := q.warningCount + d.isWarning.toNat }

/-- Adds a diagnostic unless a filter drops it, and tells whether it was added. The bound is
tried first, so a repeated error beyond it counts as dropped because of the bound. -/
def add (q : Queue) (d : Diagnostic) : Bool × Queue :=
  if d.isError && q.limitReached then (false, { q with suppressed := q.suppressed + 1 })
  else if q.limits.deduplicate && q.diagnostics.contains d then (false, q)
  else (true, q.push d)

/-- Adds an error and gives evidence of it. The evidence holds also when a filter drops the
error, as both filters presuppose an error in the queue. -/
def emitError (q : Queue) (d : Diagnostic) : Guarantee × Queue := ({}, (q.add d).2)

/-- Adds diagnostics one after the other. -/
def addAll (q : Queue) (ds : List Diagnostic) : Queue := ds.foldl (fun q d => (q.add d).2) q

/-- Evidence of an error, if the queue holds one. -/
def hasErrors (q : Queue) : Option Guarantee := Guarantee.ofErrorCount? q.errorCount

/-- The number of diagnostics held. -/
def size (q : Queue) : Nat := q.diagnostics.length

/-- Whether the queue holds nothing. -/
def isEmpty (q : Queue) : Bool := q.diagnostics.isEmpty

/-- The diagnostics in order of place, those of one place in the order in which they were added,
with a closing error if any were dropped because of the bound. The queue is left empty. -/
def flush (q : Queue) : List Diagnostic × Queue :=
  let sorted := q.diagnostics.mergeSort Diagnostic.mayPrecede
  let closing := if 0 < q.suppressed then [tooManyErrors q.limits.errorLimit] else []
  (sorted ++ closing, { limits := q.limits })

end Queue

end MapperDelegation
