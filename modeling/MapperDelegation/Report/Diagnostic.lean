import MapperDelegation.Mapper.Span
import MapperDelegation.Report.Code

set_option autoImplicit false

/-!
# Diagnostics

A diagnostic is one report on the declarations: a code, a message, labels that point at places,
notes, and suggestions.

## Main definitions

* `Diagnostic` — a report; `Diagnostic.error` and `Diagnostic.warning` start one and the
  functions `Diagnostic.with…` add to it.
* `Diagnostic.primarySpan` — the place that a report is about.
* `Diagnostic.text` — a report as plain text.
-/

namespace MapperDelegation

/-! ## Parts of a report -/

/-- The weight of a report. -/
inductive Severity where
  | error
  | warning
deriving DecidableEq

/-- A severity as it is shown in reports. -/
def Severity.text : Severity → String
  | error => "error"
  | warning => "warning"

/-- A remark on a place. Primary labels mark what a report is about, the others give context. -/
structure Label where
  span : Span
  message : String
  isPrimary : Bool
deriving DecidableEq

/-- The line of a label. An arrow marks the primary ones. -/
def Label.line (l : Label) : String :=
  let marker := if l.isPrimary then "-->" else "   "
  s!"\n  {marker} {l.span.text}: {l.message}"

/-- One report. -/
structure Diagnostic where
  code : Code
  severity : Severity
  message : String := ""
  labels : List Label := []
  notes : List String := []
  suggestions : List String := []
deriving DecidableEq

namespace Diagnostic

/-! ## Making reports -/

/-- An error without any text yet. -/
def error (code : Code) : Diagnostic := { code, severity := .error }

/-- A warning without any text yet. -/
def warning (code : Code) : Diagnostic := { code, severity := .warning }

/-- Sets the message. -/
def withMessage (d : Diagnostic) (message : String) : Diagnostic := { d with message }

/-- Appends a primary label. -/
def withLabel (d : Diagnostic) (span : Span) (message : String) : Diagnostic :=
  { d with labels := d.labels ++ [⟨span, message, true⟩] }

/-- Appends a label for context. -/
def withSecondaryLabel (d : Diagnostic) (span : Span) (message : String) : Diagnostic :=
  { d with labels := d.labels ++ [⟨span, message, false⟩] }

/-- Appends a note. -/
def withNote (d : Diagnostic) (note : String) : Diagnostic := { d with notes := d.notes ++ [note] }

/-- Appends a suggestion. -/
def withSuggestion (d : Diagnostic) (suggestion : String) : Diagnostic :=
  { d with suggestions := d.suggestions ++ [suggestion] }

/-! ## Reading reports -/

/-- Whether a report is an error. -/
def isError (d : Diagnostic) : Bool := d.severity = .error

/-- Whether a report is a warning. -/
def isWarning (d : Diagnostic) : Bool := d.severity = .warning

/-- The place of the first primary label. -/
def primarySpan (d : Diagnostic) : Option Span := (d.labels.find? (·.isPrimary)).map (·.span)

/-- The labels for context. -/
def secondaryLabels (d : Diagnostic) : List Label := d.labels.filter (!·.isPrimary)

/-- Whether a report may stand before another one in a listing by place. Reports come in the
order of their primary spans, those without one last. -/
def mayPrecede (d e : Diagnostic) : Bool :=
  match d.primarySpan, e.primarySpan with
  | some s, some t => s.le t
  | none, some _ => false
  | _, none => true

/-- A report is an error or a warning and not both. -/
theorem isWarning_eq_not_isError (d : Diagnostic) : d.isWarning = !d.isError := by
  cases h : d.severity <;> simp [isWarning, isError, h]

/-! ## Plain text -/

/-- The lines of a report: severity, code and message, then the labels, the notes and the
suggestions. -/
def text (d : Diagnostic) : String :=
  let heading := s!"{d.severity.text} [{d.code.text}]: {d.message}"
  let labels := d.labels.map Label.line
  let notes := d.notes.map fun note => s!"\n  = note: {note}"
  let suggestions := d.suggestions.map fun suggestion => s!"\n  = help: {suggestion}"
  String.join (heading :: (labels ++ notes ++ suggestions))

end Diagnostic

end MapperDelegation
