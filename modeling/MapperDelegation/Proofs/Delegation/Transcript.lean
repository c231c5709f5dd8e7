import MapperDelegation.Proofs.Delegation.Renaming
import MapperDelegation.Proofs.Delegation.Run

set_option relaxedAutoImplicit false
set_option autoImplicit false

/-!
# Transcripts of sessions

A session fills a catalogue entry by entry and then runs a generator over its units. What its user
sees are the answers to the entries and, with the strings in place of the symbols, the reports and
the diagnostics. None of this depends on what the symbol table held before the session, although
every symbol may be another one.

## Main definitions

* `Reference.spelled`, `GeneratedMethod.spelled`, `UnitReport.spelled` — reports with strings in
  place of symbols.
* `Generator.transcript` — what some runs and a final run over the whole model show.
* `Catalog.ofSession`, `session` — the catalogue of a whole session, its answers and its transcript.

## Main results

* `Generator.transcript_transfer` — a renaming does not show in a transcript.
* `Catalog.addAll_of_subset` — entries over a table that holds all their strings already.
* `session_eq_session` — sessions that differ in the initial table only look the same.
-/

namespace MapperDelegation

variable {f : Symbol → Symbol} {t u : SymbolTable}

/-! ## Reports with strings -/

/-- A reference with strings in place of symbols. -/
structure SpelledReference where
  target : MethodId
  targetName : String
  /-- The used unit and its access variable, if the target stands in another unit. -/
  owner : Option (UnitId × String)
  arguments : List String
deriving DecidableEq

/-- A generated method with strings in place of symbols. -/
structure SpelledMethod where
  method : MethodId
  reference : SpelledReference
  body : Body
  overrides : Bool
  requiredTypes : List String
deriving DecidableEq

/-- A report with strings in place of symbols. -/
structure SpelledReport where
  unit : UnitId
  generated : List SpelledMethod
  outcomes : List (MethodId × Stage)
  aborted : Bool
deriving DecidableEq

/-- The used unit of an owner, and the text of its access variable. -/
def Owner.spelled (t : SymbolTable) : Owner → Option (UnitId × String)
  | sameUnit => none
  | usedUnit use => some (use.unit, t.lookup use.accessVariable)

/-- A reference spelled by a symbol table. -/
def Reference.spelled (t : SymbolTable) (r : Reference) : SpelledReference where
  target := r.target
  targetName := t.lookup r.targetName
  owner := r.owner.spelled t
  arguments := r.arguments.map t.lookup

/-- A generated method spelled by a symbol table. -/
def GeneratedMethod.spelled (t : SymbolTable) (g : GeneratedMethod) : SpelledMethod where
  method := g.method
  reference := g.reference.spelled t
  body := g.body
  overrides := g.overrides
  requiredTypes := g.requiredTypes.map fun type => t.lookup type.name

/-- A report spelled by a symbol table. -/
def UnitReport.spelled (t : SymbolTable) (r : UnitReport) : SpelledReport where
  unit := r.unit
  generated := r.generated.map (·.spelled t)
  outcomes := r.outcomes
  aborted := r.aborted

/-- A renamed reference is spelled alike. -/
lemma Reference.spelled_rename (h : Renaming f t u) (r : Reference) :
    (r.rename f).spelled u = r.spelled t := by
  have howner : (r.owner.rename f).spelled u = r.owner.spelled t := by
    cases r.owner with
    | sameUnit => rfl
    | usedUnit use => simp only [Owner.spelled, Owner.rename, UsedUnit.rename, h.lookup]
  have hlookup : u.lookup ∘ f = t.lookup := funext h.lookup
  simp only [spelled, rename, howner, h.lookup, List.map_map, hlookup]

/-- A renamed generated method is spelled alike. -/
lemma GeneratedMethod.spelled_rename (h : Renaming f t u) (g : GeneratedMethod) :
    (g.rename f).spelled u = g.spelled t := by
  simp only [spelled, rename, Reference.spelled_rename h, List.map_map, Function.comp_def,
    TypeSymbol.rename, h.lookup]

/-- A renamed report is spelled alike. -/
lemma UnitReport.spelled_rename (h : Renaming f t u) (r : UnitReport) :
    (r.rename f).spelled u = r.spelled t := by
  simp only [spelled, rename, List.map_map, Function.comp_def, GeneratedMethod.spelled_rename h]

/-! ## Transcripts -/

/-- What a generator shows of its runs. -/
structure Transcript where
  /-- The reports of the runs over single units. -/
  reports : List SpelledReport
  /-- The reports of the final run over all units. -/
  finalReports : List SpelledReport
  /-- The diagnostics that the final run lists. -/
  diagnostics : List Diagnostic
deriving DecidableEq

/-- Runs over some units one after the other, then over the whole model. -/
def Generator.transcript (g : Generator) (c : Catalog) (history : List UnitId) :
    Except OutOfRange Transcript := do
  let (reports, g) ← g.runUnits c history
  let output ← g.runModel c
  return {
    reports := reports.map (·.spelled c.symbols)
    finalReports := output.reports.map (·.spelled c.symbols)
    diagnostics := output.diagnostics }

/-- A renaming does not show in a transcript. -/
theorem Generator.transcript_transfer {c : Catalog} (h : Renaming f c.symbols u) (g : Generator)
    (history : List UnitId) : g.transcript (c.transfer f u) history = g.transcript c history := by
  have hspelled : ∀ reports : List UnitReport, (reports.map (·.rename f)).map (·.spelled u) =
      reports.map (·.spelled c.symbols) := fun reports => by
    simp only [List.map_map, Function.comp_def, UnitReport.spelled_rename h]
  rw [transcript, transcript, g.runUnits_transfer h, bind_map_left]
  refine bind_congr fun ⟨reports, g'⟩ => ?_
  simp only [Prod.map, id, g'.runModel_transfer h, bind_map_left]
  refine bind_congr fun output => ?_
  have hsymbols : (c.transfer f u).symbols = u := rfl
  rw [hsymbols, hspelled, Output.rename, hspelled]

/-- A transcript puts together what the runs over single units and the run over all of them show. -/
lemma Generator.transcript_eq_ok_iff {c : Catalog} {g : Generator} {history : List UnitId}
    {transcript : Transcript} : g.transcript c history = .ok transcript ↔
      ∃ reports g' output, g.runUnits c history = .ok (reports, g') ∧
        g'.runModel c = .ok output ∧
        transcript = ⟨reports.map (·.spelled c.symbols),
          output.reports.map (·.spelled c.symbols), output.diagnostics⟩ := by
  simp only [Generator.transcript, bind_eq_ok_iff, pure, Except.pure, Except.ok.injEq]
  constructor
  · rintro ⟨⟨reports, g'⟩, hreports, output, houtput, rfl⟩
    exact ⟨reports, g', output, hreports, houtput, rfl⟩
  · rintro ⟨reports, g', output, hreports, houtput, rfl⟩
    exact ⟨(reports, g'), hreports, output, houtput, rfl⟩

/-- Runs over a reachable model come to their end if and only if all handles are in range. -/
lemma Generator.exists_transcript_iff {c : Catalog} (hc : c.Reachable) (g : Generator)
    {history : List UnitId} : (∃ transcript, g.transcript c history = .ok transcript) ↔
      ∀ v ∈ history, v.index < c.model.units.length := by
  constructor
  · rintro ⟨transcript, h⟩ v hv
    obtain ⟨reports, g', -, hreports, -⟩ := transcript_eq_ok_iff.mp h
    obtain ⟨r, -, hr⟩ := exists_mem_of_forall₂ (forall₂_of_runUnits hreports).1.flip hv
    obtain ⟨s, hs, -⟩ := Catalog.report_eq_ok_iff.mp hr
    obtain ⟨unit, hunit, -⟩ := Model.scope_eq_ok_iff.mp hs
    exact Model.index_lt_of_unit hunit
  · intro h
    obtain ⟨reports, g', hreports⟩ := g.exists_runUnits hc.wellFormed h
    obtain ⟨output, houtput⟩ := g'.exists_runModel hc.wellFormed
    exact ⟨_, transcript_eq_ok_iff.mpr ⟨reports, g', output, hreports, houtput, rfl⟩⟩

/-! ## Sessions -/

/-- The catalogue of a session, whose entries are added to an empty model over the table `t`. -/
def Catalog.ofSession (t : SymbolTable) (entries : List Entry) : Catalog :=
  (({ symbols := t } : Catalog).addAll entries).2

/-- The answers to some entries, which are added to an empty model over the table `t`, and the
transcript of runs over the catalogue that they lead to. -/
def session (t : SymbolTable) (entries : List Entry) (o : Options) (history : List UnitId) :
    List (Except ModelError Added) × Except OutOfRange Transcript :=
  let answers := (({ symbols := t } : Catalog).addAll entries).1
  (answers, (Generator.start o).transcript (.ofSession t entries) history)

/-- Entries are answered alike over any table that holds already the strings that are in use at the
end of a session, and the catalogue afterwards is that of the session with its symbols renamed. -/
lemma Catalog.addAll_of_subset {entries : List Entry}
    (h : (Catalog.ofSession t entries).symbols.strings ⊆ u.strings) :
    ({ symbols := u } : Catalog).addAll entries = ((({ symbols := t } : Catalog).addAll entries).1,
      (ofSession t entries).transfer ((ofSession t entries).symbols.translate u) u) :=
  addAll_transfer (SymbolTable.renaming_translate h) (Reachable.start t).knows (List.prefix_refl _)

/-- A session looks the same over any table that holds already the strings that are in use at its
end. -/
lemma session_of_subset {entries : List Entry}
    (h : (Catalog.ofSession t entries).symbols.strings ⊆ u.strings) (o : Options)
    (history : List UnitId) : session u entries o history = session t entries o history := by
  rw [session, Catalog.ofSession, Catalog.addAll_of_subset h]
  exact Prod.ext rfl (Generator.transcript_transfer (SymbolTable.renaming_translate h) _ history)

/-- **What the symbol table held before does not matter**: the same entries over any two tables are
answered alike, and the same runs under the same options show the same reports and diagnostics.
They come to their end if and only if they are over units of the model.

**Proof sketch.** Both sessions look like the one over a table that holds the strings of both from
the outset: at its end a session has entered all its strings, and the translation of its symbols to
those of the larger table commutes with every entry and with every run. -/
theorem session_eq_session (t t' : SymbolTable) (entries : List Entry) (o : Options)
    (history : List UnitId) :
    session t entries o history = session t' entries o history ∧
      ((∃ transcript, (session t entries o history).2 = .ok transcript) ↔
        ∀ v ∈ history, v.index < (Catalog.ofSession t entries).model.units.length) := by
  let strings := (Catalog.ofSession t' entries).symbols.strings
  have hstrings := (Catalog.ofSession t entries).symbols.prefix_internAll strings
  have hsubset : strings ⊆ ((Catalog.ofSession t entries).symbols.internAll strings).strings :=
    fun _ hs => SymbolTable.mem_strings_internAll hs
  refine ⟨?same, ?ends⟩
  case same =>
    rw [← session_of_subset hstrings.subset, ← session_of_subset hsubset]
  case ends =>
    have hreachable : (Catalog.ofSession t entries).Reachable :=
      (Catalog.Reachable.start t).addAll entries
    exact Generator.exists_transcript_iff hreachable _

/-- A table that was used for something else before. -/
def SymbolTable.secondHand : SymbolTable :=
  SymbolTable.empty.internAll ["AddressDto", "retired", "addressMapper"]

/-- Two mappers, of which the second one delegates to the first one, and the first one fails for
want of a delegate. One of the entries is refused. -/
def addressEntries : List Entry := [
  .unit "com.AddressMapper" .unknown,
  .unit "com.UserMapper" .unknown,
  .use ⟨1⟩ ⟨0⟩ none,
  .use ⟨1⟩ ⟨0⟩ (some "addresses"),
  .method ⟨0⟩ (.ofClauses "toDto" [.param "address" "Address", .returns "AddressDto"]),
  .method ⟨1⟩ (.ofClauses "toAddress"
    [.param "address" "Address", .returns "AddressDto", .delegating]),
  .method ⟨0⟩ (.ofClauses "toName" [.param "user" "User", .returns "Name", .delegating])]

/-- The access variable has another symbol over the used table, and nobody sees it. -/
theorem session_addressEntries :
    (Catalog.ofSession .empty addressEntries).symbols.symbolOf "addressMapper" ≠
        (Catalog.ofSession .secondHand addressEntries).symbols.symbolOf "addressMapper" ∧
      session .empty addressEntries {} [⟨1⟩] = session .secondHand addressEntries {} [⟨1⟩] ∧
      ∃ transcript, (session .empty addressEntries {} [⟨1⟩]).2 = .ok transcript := by
  obtain ⟨hsame, hends⟩ := session_eq_session .empty .secondHand addressEntries {} [⟨1⟩]
  exact ⟨by decide +kernel, hsame, hends.mpr (by decide +kernel)⟩

/-- The body calls the delegate through the access variable. -/
example : (session .secondHand addressEntries {} [⟨1⟩]).2.map
    (fun transcript => (transcript.finalReports.map (·.generated.map (·.body.text)),
      transcript.diagnostics.map (·.code))) =
    .ok ([[], ["return addressMapper.toDto( address );"]], [.noDelegate]) := by decide +kernel

end MapperDelegation
