import MapperDelegation.Proofs.Delegation.Ordering
import MapperDelegation.Proofs.Delegation.Transcript
import MapperDelegation.Proofs.Mapper.Pruning

set_option relaxedAutoImplicit false
set_option autoImplicit false

/-!
# What steers delegation

Of the qualifiers of a delegating method only the first name has a say in the choice of a delegate.
The others are entered in the symbol table and kept in the model, but no step of a run depends on
them: a pruned model yields the same reports. The one trace that they leave is the note with which
a report on a missing delegate tells of the first type, in case that there is no name.

## Main definitions

* `Qualifier.prune`, `Criteria.prune`, `Scope.prune`, `Verdict.prune` — what the search works with,
  sees and yields, without the qualifiers that do not steer.
* `Diagnostic.AgreesUpToNotes` — diagnostics that differ at most in the notes on a missing delegate.

## Main results

* `Scope.candidates_prune` — the candidates in a pruned scope.
* `Scope.examine_prune` — the verdict on a pruned method.
* `Catalog.report_prune`, `Catalog.forall₂_reported_of_prune_eq` — reports and diagnostics on units
  of a pruned model.
* `session_of_prune_eq` — sessions whose entries differ in qualifiers that do not steer.
-/

namespace MapperDelegation

/-! ## Criteria -/

/-- A qualifier in so far as it steers. -/
def Qualifier.prune : Qualifier → Option Qualifier
  | byName name => some (byName name)
  | byType _ => none

/-- The qualifier that a pruned method asks for. -/
lemma Method.qualifier_prune (m : Method) : m.prune.qualifier = m.qualifier.bind (·.prune) := by
  cases hdelegate : m.delegate with
  | none => simp [qualifier, prune, hdelegate]
  | some a =>
    cases hnames : a.qualifyingNames <;> cases htypes : a.qualifyingTypes <;>
      simp [qualifier, prune, hdelegate, DelegateRequest.qualifier, DelegateRequest.prune, hnames,
        htypes, Qualifier.prune]

/-- Criteria in so far as they steer. -/
def Criteria.prune (c : Criteria) : Criteria :=
  { c with qualifier := c.qualifier.bind (·.prune) }

/-- The criteria for a pruned method. -/
lemma Options.criteriaFor_prune (o : Options) (m : Method) :
    o.criteriaFor m.prune = (o.criteriaFor m).prune := by
  simp [criteriaFor, Criteria.prune, Method.qualifier_prune]

/-- A pruned method will do as the delegate of another one if and only if it did so before. -/
lemma Criteria.accepts_prune (c : Criteria) (source candidate : Method) :
    c.prune.accepts source.prune candidate.prune = c.accepts source candidate := by
  obtain ⟨matching, qualifier⟩ := c
  rcases qualifier with _ | (name | type)
  · rfl
  · cases matching <;> rfl
  · rfl

/-! ## Scopes -/

/-- A used unit of a scope whose methods are pruned. -/
def Provider.prune (p : Provider) : Provider := { p with members := p.members.map .prune }

/-- A scope whose methods are pruned. -/
def Scope.prune (s : Scope) : Scope :=
  { s with members := s.members.map .prune, providers := s.providers.map .prune }

/-- A used unit of a pruned model. -/
lemma Model.provider_prune (m : Model) (use : UsedUnit) :
    m.prune.provider use = Provider.prune <$> m.provider use := by
  rw [provider, provider, unit_prune, members_prune, map_bind]
  refine bind_congr fun unit => ?_
  rw [bind_map_left, map_bind]
  rfl

/-- The scope of a unit of a pruned model. -/
lemma Model.scope_prune (m : Model) (u : UnitId) :
    m.prune.scope u = Scope.prune <$> m.scope u := by
  rw [scope, scope, unit_prune, members_prune, map_bind]
  refine bind_congr fun unit => ?_
  rw [bind_map_left, map_bind]
  refine bind_congr fun members => ?_
  have hproviders := mapM_map_eq (g := id) m.provider_prune unit.uses
  rw [List.map_id] at hproviders
  rw [hproviders, bind_map_left, map_bind]
  rfl

/-! ## Candidates -/

/-- A candidate whose method is pruned. -/
def Candidate.prune (c : Candidate) : Candidate := ⟨c.target.prune, c.owner⟩

/-- A resolution whose methods are pruned. -/
def Resolution.prune (r : Resolution) : Resolution := ⟨r.chosen.prune, r.alternatives.map .prune⟩

namespace Scope

variable (s : Scope) (c : Criteria) (source : Member) (o : Options)

/-- The candidates among the methods of one pruned unit. -/
lemma candidatesOf_prune (p : Provider) :
    candidatesOf c.prune source.method.prune p.prune =
      (candidatesOf c source.method p).map .prune := by
  simp only [candidatesOf, Provider.prune, List.filter_map, List.map_map, Function.comp_def,
    Member.prune, Method.isMethod_prune, Method.isPublic_prune, Criteria.accepts_prune]
  rfl

/-- The candidates among the used units of a pruned scope. -/
lemma crossUnit_prune :
    s.prune.crossUnit c.prune source.prune = (s.crossUnit c source).map .prune := by
  have hsource : source.prune.method = source.method.prune := rfl
  simp only [crossUnit, prune, hsource, List.flatMap_map, List.map_flatMap, candidatesOf_prune]

/-- The candidates among the members of a pruned unit itself. -/
lemma sameUnit_prune :
    s.prune.sameUnit c.prune source.prune = (s.sameUnit c source).map .prune := by
  simp only [sameUnit, prune, List.filter_map, List.map_map, Function.comp_def, Member.prune,
    Method.isMethod_prune, Method.isDelegating_prune, Method.visibility_prune,
    Criteria.accepts_prune]
  rfl

/-- The candidates in a pruned scope are the pruned candidates. -/
theorem candidates_prune :
    s.prune.candidates c.prune source.prune = (s.candidates c source).map .prune := by
  simp only [candidates, crossUnit_prune, sameUnit_prune]
  cases s.crossUnit c source <;> rfl

/-- The choice of a delegate by the options in a pruned scope. -/
lemma choose_prune : s.prune.choose o source.prune = (s.choose o source).map .prune := by
  have hcriteria : o.criteriaFor source.prune.method = (o.criteriaFor source.method).prune :=
    o.criteriaFor_prune source.method
  rw [choose, choose, hcriteria, find_eq_head?_candidates, find_eq_head?_candidates, resolveAll_eq,
    resolveAll_eq, candidates_prune]
  cases o.ambiguity with
  | firstMatch => cases s.candidates (o.criteriaFor source.method) source <;> rfl
  | warn => cases s.candidates (o.criteriaFor source.method) source <;> rfl

/-- The members of a pruned scope that delegate. -/
lemma delegating_prune : s.prune.delegating = s.delegating.map .prune := by
  simp [delegating, prune, List.filter_map, Function.comp_def, Member.prune]

/-- The type to import for an owner in a pruned scope. -/
lemma typeOf_prune (owner : Owner) : s.prune.typeOf owner = s.typeOf owner := by
  cases owner with
  | sameUnit => rfl
  | usedUnit use =>
    simp only [typeOf, prune, List.find?_map, Option.map_map]
    rfl

/-- The body of a pruned method. -/
lemma generate_prune (symbols : SymbolTable) (chosen : Candidate) :
    s.prune.generate symbols source.prune chosen.prune = s.generate symbols source chosen := by
  have htypes : s.prune.requiredTypes source.prune.method chosen.prune.owner =
      s.requiredTypes source.method chosen.owner := by
    rw [requiredTypes, requiredTypes, typeOf_prune]
    rfl
  rw [generate, generate, htypes]
  rfl

end Scope

/-! ## Problems and verdicts -/

/-- The cause of a problem, whose qualifier is reported in so far as it steers. -/
def Cause.prune : Cause → Cause
  | noDelegate unit qualifier requestedAt => noDelegate unit (qualifier.bind (·.prune)) requestedAt
  | cause => cause

/-- A problem, whose qualifier is reported in so far as it steers. -/
def Problem.prune (p : Problem) : Problem := { p with cause := p.cause.prune }

@[simp] lemma Problem.isFatal_prune (p : Problem) : p.prune.isFatal = p.isFatal := by
  obtain ⟨span, method, cause⟩ := p
  cases cause <;> rfl

/-- The problem of a pruned method without a delegate. -/
lemma Scope.noDelegate_prune (s : Scope) (m : Method) :
    s.prune.noDelegate m.prune = (s.noDelegate m).prune := by
  have hspan : m.prune.delegate.map (·.span) = m.delegate.map (·.span) := by
    simp only [Method.prune, Option.map_map]
    rfl
  simp only [noDelegate, Method.qualifier_prune, hspan]
  rfl

/-- A refused declaration is reported without its qualifier. -/
lemma Method.prune_of_validate {m : Method} {p : Problem} (h : m.validate = .error p) :
    p.prune = p := by
  rcases m.eq_of_validate h with rfl | rfl <;> rfl

/-- The remarks on the choice of a delegate of a pruned method. They do not show a qualifier. -/
lemma Resolution.remarks_prune (r : Resolution) (o : Options) (m : Method) :
    r.prune.remarks o m.prune = (r.remarks o m).map .prune := by
  have hambiguous : r.prune.isAmbiguous = r.isAmbiguous := by simp [isAmbiguous, prune]
  have hothers : r.prune.alternatives.map (·.target.method.name) =
      r.alternatives.map (·.target.method.name) := by
    simp only [prune, List.map_map]
    rfl
  simp only [remarks, hambiguous, hothers, List.map_append]
  congr 1
  · rw [apply_ite (List.map Problem.prune)]
    rfl
  · rw [apply_ite (List.map Problem.prune)]
    rfl

/-- A verdict whose problems show qualifiers in so far as these steer. -/
def Verdict.prune (v : Verdict) : Verdict := { v with problems := v.problems.map .prune }

/-- **Verdicts on pruned methods**: a pruned method comes as far as before, with the same body and
the same problems, but for the qualifier that the problem of a missing delegate tells.

**Proof sketch.** A declaration is accepted or refused whatever its qualifiers, and the choice of a
delegate yields the pruned candidates. Bodies do not depend on the annotation that asks for them. -/
theorem Scope.examine_prune (s : Scope) (symbols : SymbolTable) (o : Options) (source : Member) :
    s.prune.examine symbols o source.prune = (s.examine symbols o source).prune := by
  have hvalidate : source.prune.method.validate = source.method.validate := rfl
  have hmethod : source.prune.method = source.method.prune := rfl
  rw [examine, examine, choose_prune, hvalidate, hmethod]
  cases hv : source.method.validate with
  | error p =>
    simp only [Verdict.prune, List.map_cons, List.map_nil, Method.prune_of_validate hv]
    rfl
  | ok =>
    cases s.choose o source with
    | none =>
      simp only [Option.map_none, noDelegate_prune]
      rfl
    | some r =>
      have hchosen : r.prune.chosen = r.chosen.prune := rfl
      simp only [Option.map_some, Resolution.remarks_prune, hchosen, generate_prune]
      rfl

/-- The verdicts on the delegating members of a pruned scope. -/
lemma Scope.verdicts_prune (s : Scope) (symbols : SymbolTable) (o : Options) :
    s.prune.verdicts symbols o = (s.verdicts symbols o).map .prune := by
  simp only [verdicts, delegating_prune, List.map_map]
  exact List.map_congr_left fun x _ => s.examine_prune symbols o x

/-- Reports do not show the problems of a unit, but whether one of them is fatal. -/
lemma UnitReport.ofVerdicts_prune (u : UnitId) (verdicts : List Verdict) :
    ofVerdicts u (verdicts.map .prune) = ofVerdicts u verdicts := by
  have hfatal : ∀ v : Verdict, v.prune.problems.any (·.isFatal) = v.problems.any (·.isFatal) :=
    fun v => by simp [Verdict.prune, Function.comp_def]
  simp only [ofVerdicts, List.any_map, Function.comp_def, hfatal, List.filterMap_map, List.map_map]
  rfl

/-! ## Diagnostics -/

namespace Diagnostic

/-- Two diagnostics are the same, or they report a missing delegate and differ at most in their
notes. -/
def AgreesUpToNotes (d e : Diagnostic) : Prop :=
  d = e ∨ d.code = .noDelegate ∧ { d with notes := e.notes } = e

/-- A diagnostic, without its notes if it reports a missing delegate. -/
def withoutRestriction (d : Diagnostic) : Diagnostic :=
  if d.code = .noDelegate then { d with notes := [] } else d

lemma code_withoutRestriction (d : Diagnostic) : d.withoutRestriction.code = d.code := by
  unfold withoutRestriction
  split <;> rfl

/-- The place of a diagnostic does not depend on its notes. -/
lemma primarySpan_withoutRestriction (d : Diagnostic) :
    d.withoutRestriction.primarySpan = d.primarySpan := by
  unfold withoutRestriction
  split <;> rfl

/-- Two diagnostics agree up to notes exactly if they are the same once these are left out. -/
lemma agreesUpToNotes_iff {d e : Diagnostic} :
    d.AgreesUpToNotes e ↔ d.withoutRestriction = e.withoutRestriction := by
  constructor
  · rintro (rfl | ⟨hcode, heq⟩)
    · rfl
    · rw [← heq]
      simp [withoutRestriction, hcode]
  · intro h
    have hcode : d.code = e.code := by
      rw [← code_withoutRestriction, h, code_withoutRestriction]
    unfold withoutRestriction at h
    by_cases hd : d.code = .noDelegate
    · rw [if_pos hd, if_pos (hcode ▸ hd)] at h
      exact .inr ⟨hd, congrArg ({ · with notes := e.notes }) h⟩
    · rw [if_neg hd, if_neg (hcode ▸ hd)] at h
      exact .inl h

/-- Lists of diagnostics agree one by one exactly if they are the same without the notes on missing
delegates. -/
lemma forall₂_agreesUpToNotes_iff {ds es : List Diagnostic} :
    List.Forall₂ AgreesUpToNotes ds es ↔
      ds.map withoutRestriction = es.map withoutRestriction := by
  rw [← List.forall₂_eq_eq_eq, List.forall₂_map_left_iff, List.forall₂_map_right_iff]
  exact ⟨fun h => h.imp fun _ _ => agreesUpToNotes_iff.mp,
    fun h => h.imp fun _ _ => agreesUpToNotes_iff.mpr⟩

/-- Listings agree if the diagnostics do. -/
lemma forall₂_mergeSort {ds es : List Diagnostic} (h : List.Forall₂ AgreesUpToNotes ds es) :
    List.Forall₂ AgreesUpToNotes (ds.mergeSort mayPrecede) (es.mergeSort mayPrecede) := by
  have hsort : ∀ ds : List Diagnostic, (ds.mergeSort mayPrecede).map withoutRestriction =
      (ds.map withoutRestriction).mergeSort mayPrecede := fun ds =>
    List.map_mergeSort fun d _ e _ => by
      simp only [mayPrecede, primarySpan_withoutRestriction]
  rw [forall₂_agreesUpToNotes_iff] at h ⊢
  rw [hsort, hsort, h]

end Diagnostic

/-- The report on a problem shows the qualifier in a note only. -/
lemma Problem.withoutRestriction_diagnostic_prune (p : Problem) (symbols : SymbolTable) :
    (p.prune.diagnostic symbols).withoutRestriction =
      (p.diagnostic symbols).withoutRestriction := by
  obtain ⟨span, method, cause⟩ := p
  cases cause with
  | noDelegate unit qualifier requestedAt => rcases qualifier with _ | (name | type) <;> rfl
  | _ => rfl

/-! ## Runs -/

namespace Catalog

variable {c c' : Catalog} {o : Options} {u : UnitId}

/-- The reports on the units of a pruned model are the same. -/
theorem report_prune : c.prune.report o u = c.report o u := by
  have hscope : c.prune.model.scope u = Scope.prune <$> c.model.scope u := c.model.scope_prune u
  have hsymbols : c.prune.symbols = c.symbols := rfl
  simp only [report, hscope, ← comp_map, Function.comp_def, hsymbols, Scope.verdicts_prune,
    UnitReport.ofVerdicts_prune]

/-- What is reported on a unit of a pruned model differs in notes on missing delegates only. -/
lemma map_withoutRestriction_reported_prune :
    (c.prune.reported o u).map (·.withoutRestriction) =
      (c.reported o u).map (·.withoutRestriction) := by
  have hscope : c.prune.model.scope u = Scope.prune <$> c.model.scope u := c.model.scope_prune u
  have hsymbols : c.prune.symbols = c.symbols := rfl
  cases hs : c.model.scope u with
  | error e => simp [reported, hscope, hs, Functor.map, Except.map]
  | ok s =>
    rw [hs] at hscope
    rw [reported_eq hs, reported_eq hscope]
    simp only [Scope.reported, hsymbols, Scope.verdicts_prune, Verdict.prune, List.flatMap_map,
      List.map_flatMap, List.map_map, Function.comp_def,
      Problem.withoutRestriction_diagnostic_prune]

variable (h : c.prune = c'.prune)
include h

/-- Models that are the same when pruned have the same units. -/
lemma units_of_prune_eq : c.model.units = c'.model.units := (congrArg (·.model.units) h :)

lemma unitIds_of_prune_eq : c.model.unitIds = c'.model.unitIds := by
  rw [Model.unitIds, units_of_prune_eq h, Model.unitIds]

/-- Models that are the same when pruned get the same reports. -/
lemma report_of_prune_eq (o : Options) (u : UnitId) : c.report o u = c'.report o u := by
  rw [← report_prune, h, report_prune]

/-- The diagnostics on models that are the same when pruned agree one by one. -/
lemma forall₂_reported_of_prune_eq (o : Options) (us : List UnitId) :
    List.Forall₂ Diagnostic.AgreesUpToNotes (us.flatMap (c.reported o))
      (us.flatMap (c'.reported o)) := by
  rw [Diagnostic.forall₂_agreesUpToNotes_iff]
  simp only [List.map_flatMap]
  refine congrArg us.flatMap (funext fun u => ?_)
  rw [← map_withoutRestriction_reported_prune, h, map_withoutRestriction_reported_prune]

end Catalog

namespace Generator

variable {c c' : Catalog} {o : Options} {us : List UnitId} {g g' : Generator}
  {reports reports' : List UnitReport}

/-- If diagnostics are not filtered, then all that were reported are listed. -/
lemma finish_of_unlimited (hlimits : o.limits = .unlimited)
    (h : (start o).runUnits c us = .ok (reports, g)) :
    g.finish = (us.flatMap (c.reported o)).mergeSort Diagnostic.mayPrecede := by
  have hlimit : o.limits.errorLimit = 0 := by rw [hlimits]; rfl
  have hkeep : (start o).queue.limits.deduplicate = false := by
    simp [start, hlimits, Limits.unlimited]
  have hdiagnostics : ((start o).queue.addAll (us.flatMap (c.reported o))).diagnostics =
      us.flatMap (c.reported o) := (unbounded_start hlimit).diagnostics_addAll hkeep
  rw [finish, (unbounded_of_runUnits hlimit h).flush_eq, queue_of_runUnits h]
  exact congrArg (List.mergeSort · Diagnostic.mayPrecede) hdiagnostics

/-- Runs over models that are the same when pruned yield the same reports. -/
lemma reports_eq_of_prune_eq (h : c.prune = c'.prune) {g₁ g₁' : Generator}
    (hoptions : g.options = g'.options) (hreports : g.runUnits c us = .ok (reports, g₁))
    (hreports' : g'.runUnits c' us = .ok (reports', g₁')) :
    reports = reports' ∧ g₁.options = g₁'.options := by
  obtain ⟨hall, hkept⟩ := forall₂_of_runUnits hreports
  obtain ⟨hall', hkept'⟩ := forall₂_of_runUnits hreports'
  simp only [← hoptions, ← Catalog.report_of_prune_eq h] at hall'
  exact ⟨Catalog.eq_of_forall₂_report hall hall', by rw [hkept, hkept', hoptions]⟩

/-- Transcripts of runs over models that are the same when pruned show the same reports, and their
diagnostics agree if none of them is filtered. -/
lemma transcript_of_prune_eq (h : c.prune = c'.prune) {history : List UnitId}
    {transcript transcript' : Transcript}
    (htranscript : (start o).transcript c history = .ok transcript)
    (htranscript' : (start o).transcript c' history = .ok transcript') :
    transcript.reports = transcript'.reports ∧ transcript.finalReports = transcript'.finalReports ∧
      (o.limits = .unlimited → List.Forall₂ Diagnostic.AgreesUpToNotes transcript.diagnostics
        transcript'.diagnostics) := by
  obtain ⟨reports, g, out, hreports, hout, rfl⟩ := transcript_eq_ok_iff.mp htranscript
  obtain ⟨reports', g', out', hreports', hout', rfl⟩ := transcript_eq_ok_iff.mp htranscript'
  obtain ⟨g₁, hfinal, hdiagnostics⟩ := runModel_eq_ok_iff.mp hout
  obtain ⟨g₁', hfinal', hdiagnostics'⟩ := runModel_eq_ok_iff.mp hout'
  have hsymbols : c.symbols = c'.symbols := (congrArg Catalog.symbols h :)
  rw [← Catalog.unitIds_of_prune_eq h] at hfinal'
  obtain ⟨hfirst, hoptions⟩ := reports_eq_of_prune_eq h rfl hreports hreports'
  obtain ⟨hsecond, -⟩ := reports_eq_of_prune_eq h hoptions hfinal hfinal'
  refine ⟨by rw [hfirst, hsymbols], by rw [hsecond, hsymbols], fun hlimits => ?_⟩
  rw [hdiagnostics, hdiagnostics', finish_of_unlimited hlimits (runUnits_append hreports hfinal),
    finish_of_unlimited hlimits (runUnits_append hreports' hfinal')]
  exact Diagnostic.forall₂_mergeSort (Catalog.forall₂_reported_of_prune_eq h o _)

end Generator

/-! ## Sessions -/

/-- Over a table that holds already the strings that are in use at its end, the pruned catalogue of
a session is the one of the pruned entries. -/
lemma Catalog.addAll_map_prune {t u : SymbolTable} {entries : List Entry}
    (h : (ofSession t entries).symbols.strings ⊆ u.strings) :
    ({ symbols := u } : Catalog).addAll (entries.map .prune) =
      ((({ symbols := u } : Catalog).addAll entries).1, (ofSession u entries).prune) := by
  have hsymbols : (({ symbols := u } : Catalog).addAll entries).2.symbols = u := by
    rw [addAll_of_subset h]
    rfl
  exact addAll_prune (c := { symbols := u }) hsymbols

/-- **Only the first qualifying name steers delegation**: consider two sessions, over any tables,
whose entries differ at most in the qualifying types of delegating methods and in their qualifying
names after the first. The entries are answered alike, and the runs show the same reports. If no
diagnostic is filtered, then equally many are listed in both sessions, and each of them differs from
its counterpart at most in its notes, and only if it reports a missing delegate.

**Proof sketch.** Both sessions look like sessions over one table that holds the strings of both.
Over such a table the qualifiers that do not steer enter no string, so that the catalogues become
the same one when they are pruned. Pruning changes no report, and a diagnostic by the note on the
qualifier only; and the order of a listing does not depend on notes. -/
theorem session_of_prune_eq (t t' : SymbolTable) {entries entries' : List Entry}
    (h : entries.map (·.prune) = entries'.map (·.prune)) (o : Options) {history : List UnitId}
    (hhistory : ∀ v ∈ history, v.index < (Catalog.ofSession t entries).model.units.length) :
    (session t entries o history).1 = (session t' entries' o history).1 ∧
      ∃ transcript transcript', (session t entries o history).2 = .ok transcript ∧
        (session t' entries' o history).2 = .ok transcript' ∧
        transcript.reports = transcript'.reports ∧
        transcript.finalReports = transcript'.finalReports ∧
        (o.limits = .unlimited → List.Forall₂ Diagnostic.AgreesUpToNotes transcript.diagnostics
          transcript'.diagnostics) := by
  obtain ⟨u, hstrings, hstrings'⟩ : ∃ u : SymbolTable,
      (Catalog.ofSession t entries).symbols.strings ⊆ u.strings ∧
        (Catalog.ofSession t' entries').symbols.strings ⊆ u.strings :=
    let strings := (Catalog.ofSession t' entries').symbols.strings
    ⟨(Catalog.ofSession t entries).symbols.internAll strings,
      (SymbolTable.prefix_internAll _ _).subset, fun _ hs => SymbolTable.mem_strings_internAll hs⟩
  -- over the common table both lists of entries lead to catalogues that are the same when pruned
  have hprune := Catalog.addAll_map_prune hstrings
  rw [h, Catalog.addAll_map_prune hstrings', Prod.mk.injEq] at hprune
  obtain ⟨hanswers, hpruned⟩ := hprune
  have hsession := session_of_subset hstrings o history
  have hsession' := session_of_subset hstrings' o history
  have hreachable : ∀ es, (Catalog.ofSession u es).Reachable := (Catalog.Reachable.start u).addAll
  refine ⟨?answers, ?runs⟩
  case answers =>
    rw [← hsession, ← hsession']
    exact hanswers.symm
  case runs =>
    obtain ⟨transcript, htranscript⟩ :=
      (Generator.exists_transcript_iff ((Catalog.Reachable.start t).addAll entries)
        (.start o)).mpr hhistory
    have hover : (Generator.start o).transcript (.ofSession u entries) history = .ok transcript :=
      (congrArg Prod.snd hsession).trans htranscript
    -- the units are the same as well, so that the second session runs to its end like the first
    have hrange := (Generator.exists_transcript_iff (hreachable entries) _).mp ⟨transcript, hover⟩
    rw [← Catalog.units_of_prune_eq hpruned] at hrange
    obtain ⟨transcript', hover'⟩ :=
      (Generator.exists_transcript_iff (hreachable entries') (.start o)).mpr hrange
    have htranscript' := (congrArg Prod.snd hsession').symm.trans hover'
    exact ⟨transcript, transcript', htranscript, htranscript',
      Generator.transcript_of_prune_eq hpruned.symm hover hover'⟩

/-- Two mappers with a delegating method each. The first one asks for a delegate by its name, and
possibly by further names and by types, and gets it; the second one possibly by types, in vain. -/
def steeredEntries (names types : List String) : List Entry := [
  .unit "com.AddressMapper" .unknown,
  .unit "com.UserMapper" .unknown,
  .use ⟨1⟩ ⟨0⟩ none,
  .method ⟨0⟩ (.ofClauses "toDto" [.param "address" "Address", .returns "AddressDto"]),
  .method ⟨1⟩ (.ofClauses "toAddress" ([.param "address" "Address", .returns "AddressDto",
    .qualifiedByName "toDto"] ++ names.map .qualifiedByName ++ types.map .qualifiedByType)),
  .method ⟨0⟩ (.ofClauses "toName" ([.param "user" "User", .returns "Name", .delegating] ++
    types.map .qualifiedByType))]

/-- Further names and types shift the numbers of all later symbols, but no report shows them. -/
theorem session_steeredEntries :
    (steeredEntries [] []).map (·.prune) = (steeredEntries ["name"] ["Strict"]).map (·.prune) ∧
      (Catalog.ofSession .empty (steeredEntries [] [])).model.units.length = 2 ∧
      (session .empty (steeredEntries [] []) {} [⟨1⟩]).1 =
        (session .secondHand (steeredEntries ["name"] ["Strict"]) {} [⟨1⟩]).1 ∧
      ∃ transcript transcript',
        (session .empty (steeredEntries [] []) {} [⟨1⟩]).2 = .ok transcript ∧
        (session .secondHand (steeredEntries ["name"] ["Strict"]) {} [⟨1⟩]).2 =
          .ok transcript' ∧
        transcript.reports = transcript'.reports ∧
        transcript.finalReports = transcript'.finalReports ∧
        List.Forall₂ Diagnostic.AgreesUpToNotes transcript.diagnostics
          transcript'.diagnostics := by
  have hprune : (steeredEntries [] []).map (·.prune) =
      (steeredEntries ["name"] ["Strict"]).map (·.prune) := by decide +kernel
  have hunits : (Catalog.ofSession .empty (steeredEntries [] [])).model.units.length = 2 := by
    decide +kernel
  have hhistory : ∀ v ∈ [UnitId.mk 1],
      v.index < (Catalog.ofSession .empty (steeredEntries [] [])).model.units.length := by
    simp [hunits]
  obtain ⟨hanswers, transcript, transcript', h, h', hreports, hfinal, hdiagnostics⟩ :=
    session_of_prune_eq .empty .secondHand hprune {} hhistory
  exact ⟨hprune, hunits, hanswers, transcript, transcript', h, h', hreports, hfinal,
    hdiagnostics rfl⟩

/-- The one diagnostic tells of the type in a note. -/
example : (session .secondHand (steeredEntries ["name"] ["Strict"]) {} [⟨1⟩]).2.map
    (fun transcript => transcript.diagnostics.map (·.notes)) =
    .ok [["candidates were restricted by qualifier type `Strict`"]] := by decide +kernel

end MapperDelegation
