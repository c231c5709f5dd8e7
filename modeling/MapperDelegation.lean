import MapperDelegation.Text.Uppercase
import MapperDelegation.Text.Lowercase
import MapperDelegation.Symbol
import MapperDelegation.Mapper.Span
import MapperDelegation.Mapper.Directive
import MapperDelegation.Mapper.Method
import MapperDelegation.Mapper.Declaration
import MapperDelegation.Mapper.Model
import MapperDelegation.Mapper.AccessVariable
import MapperDelegation.Mapper.Catalog
import MapperDelegation.Report.Code
import MapperDelegation.Report.Diagnostic
import MapperDelegation.Report.Queue
import MapperDelegation.Delegation.Criteria
import MapperDelegation.Delegation.Scope
import MapperDelegation.Delegation.Call
import MapperDelegation.Delegation.Stage
import MapperDelegation.Delegation.Options
import MapperDelegation.Delegation.Problem
import MapperDelegation.Delegation.Pipeline
import MapperDelegation.Delegation.Generator
import MapperDelegation.Proofs.Symbol.Entering
import MapperDelegation.Proofs.Symbol.Renaming
import MapperDelegation.Proofs.Mapper.Lookup
import MapperDelegation.Proofs.Mapper.WellFormed
import MapperDelegation.Proofs.Mapper.Entering
import MapperDelegation.Proofs.Mapper.Handles
import MapperDelegation.Proofs.Mapper.Renaming
import MapperDelegation.Proofs.Mapper.Refusal
import MapperDelegation.Proofs.Delegation.Scope
import MapperDelegation.Proofs.Delegation.Verdict
import MapperDelegation.Proofs.Delegation.Run
import MapperDelegation.Proofs.Delegation.Outcome
import MapperDelegation.Proofs.Delegation.Chain
import MapperDelegation.Proofs.Delegation.Soundness
import MapperDelegation.Proofs.Delegation.Failure
import MapperDelegation.Proofs.Delegation.Warnings
import MapperDelegation.Proofs.Delegation.Renaming
import MapperDelegation.Proofs.Delegation.Transcript
import MapperDelegation.Proofs.Report.Accounting
import MapperDelegation.Proofs.Report.Sorting
import MapperDelegation.Proofs.Report.Errors
import MapperDelegation.Proofs.Report.Unbounded
import MapperDelegation.Proofs.Delegation.Emission
import MapperDelegation.Proofs.Delegation.Ordering
import MapperDelegation.Proofs.Delegation.Range
import MapperDelegation.Proofs.Delegation.Closure
import MapperDelegation.Proofs.Delegation.Stages
import MapperDelegation.Proofs.Report.Narrowing
import MapperDelegation.Proofs.Delegation.ErrorLimit
import MapperDelegation.Proofs.Delegation.Priority
import MapperDelegation.Proofs.Report.Journal
import MapperDelegation.Proofs.Report.Closing
import MapperDelegation.Proofs.Delegation.Overloads
import MapperDelegation.Proofs.Delegation.Growth
import MapperDelegation.Proofs.Delegation.Matching
import MapperDelegation.Proofs.Delegation.Repetition
import MapperDelegation.Proofs.Delegation.Strings
import MapperDelegation.Proofs.Delegation.Locality
import MapperDelegation.Proofs.Mapper.Pruning
import MapperDelegation.Proofs.Delegation.Steering
import MapperDelegation.Proofs.Symbol.Sequence
import MapperDelegation.Proofs.Mapper.Clauses
import MapperDelegation.Proofs.Mapper.Signature
import MapperDelegation.Proofs.Delegation.Distinct
import MapperDelegation.Proofs.Delegation.Reading
import MapperDelegation.Proofs.Delegation.Requests
import MapperDelegation.Proofs.Delegation.Validation
import MapperDelegation.Proofs.Mapper.UnitTypes
import MapperDelegation.Proofs.Delegation.Imports
