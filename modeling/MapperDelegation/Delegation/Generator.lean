import MapperDelegation.Delegation.Pipeline
import MapperDelegation.Mapper.Catalog

set_option autoImplicit false

/-!
# Generators

A generator examines the delegating methods of a unit one after the other, in the order of
declaration. A method that may not delegate is left out. A method without a delegate makes the
whole unit fail: none of its bodies is kept, but its other methods are examined all the same,
so that each of them is reported.

## Main definitions

* `UnitReport`, `Output` — what a run over a unit, or over a whole model, produces.
* `Generator` — options, and the queue of the diagnostics so far.
* `Generator.runUnit`, `Generator.runModel` — the generation for one unit and for all of them.
-/

namespace MapperDelegation

/-! ## Whole units -/

/-- What became of a unit. -/
structure UnitReport where
  unit : UnitId
  /-- The generated bodies in the order of declaration, none if the unit failed. -/
  generated : List GeneratedMethod
  /-- The last stage of every delegating method, in the order of declaration. -/
  outcomes : List (MethodId × Stage)
  /-- Whether the unit failed. -/
  aborted : Bool
deriving DecidableEq

namespace UnitReport

/-- The report on a unit of which no method was examined yet. -/
def start (unit : UnitId) : UnitReport :=
  { unit, generated := [], outcomes := [], aborted := false }

/-- Enters the last stage of a method and the ending of its examination. -/
def record (r : UnitReport) (id : MethodId) (stage : Stage) (ending : Ending) : UnitReport :=
  let r := { r with outcomes := r.outcomes ++ [(id, stage)] }
  match ending with
  | .generated body => { r with generated := r.generated ++ [body] }
  | .rejected => r
  | .fatal _ => { r with aborted := true }

/-- The report after the last method: none of the bodies of a unit that failed is kept. -/
def close (r : UnitReport) : UnitReport := if r.aborted then { r with generated := [] } else r

/-- The last stage of a method of the unit. -/
def outcome? (r : UnitReport) (id : MethodId) : Option Stage := r.outcomes.lookup id

/-- The body generated for a method of the unit. -/
def generatedFor? (r : UnitReport) (id : MethodId) : Option GeneratedMethod :=
  r.generated.find? (·.method = id)

end UnitReport

/-- Examines one more method of a unit and enters what became of it in the report. -/
def Scope.runNext (s : Scope) (symbols : SymbolTable) (o : Options)
    (sofar : UnitReport × Queue) (source : Member) : UnitReport × Queue :=
  let (report, queue) := sofar
  let (ending, progress) := s.runMethod symbols o queue source
  (report.record source.id progress.stage ending, progress.queue)

/-! ## Generators -/

/-- A generator at work: its options and the diagnostics so far. -/
structure Generator where
  options : Options
  queue : Queue
deriving DecidableEq

/-- What a run over a whole model produced. -/
structure Output where
  /-- One report for each unit, in the order of declaration. -/
  reports : List UnitReport
  /-- The diagnostics in order of place. -/
  diagnostics : List Diagnostic
deriving DecidableEq

namespace Output

/-- The report on a unit. -/
def report? (o : Output) (u : UnitId) : Option UnitReport := o.reports.find? (·.unit = u)

/-- Evidence of an error, if there is one among the diagnostics. -/
def hasErrors (o : Output) : Option Guarantee :=
  Guarantee.ofErrorCount? (o.diagnostics.countP (·.isError))

end Output

namespace Generator

/-- A generator that has not reported anything yet. -/
def start (options : Options) : Generator := ⟨options, { limits := options.limits }⟩

/-- The diagnostics so far, in the order of their discovery. -/
def diagnostics (g : Generator) : List Diagnostic := g.queue.diagnostics

/-- Evidence of an error, if one was reported so far. -/
def hasErrors (g : Generator) : Option Guarantee := g.queue.hasErrors

/-- Generates the bodies of the delegating methods of a unit. All of them are examined, one after
the other, also when the unit has failed already. -/
def runUnit (g : Generator) (c : Catalog) (u : UnitId) :
    Except OutOfRange (UnitReport × Generator) := do
  let scope ← c.model.scope u
  let (report, queue) := scope.delegating.foldl (scope.runNext c.symbols g.options)
    (.start u, g.queue)
  return (report.close, { g with queue })

/-- Runs over some units one after the other. -/
def runUnits (g : Generator) (c : Catalog) :
    List UnitId → Except OutOfRange (List UnitReport × Generator)
  | [] => return ([], g)
  | u :: us => do
    let (report, g) ← g.runUnit c u
    let (reports, g) ← g.runUnits c us
    return (report :: reports, g)

/-- The diagnostics so far in order of place, which ends the work of the generator. -/
def finish (g : Generator) : List Diagnostic := g.queue.flush.1

/-- Runs over every unit and lists the diagnostics, those of earlier runs included. -/
def runModel (g : Generator) (c : Catalog) : Except OutOfRange Output := do
  let (reports, g) ← g.runUnits c c.model.unitIds
  return { reports, diagnostics := g.finish }

end Generator

end MapperDelegation
