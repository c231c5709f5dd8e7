import MapperDelegation.Proofs.Delegation.Warnings
import MapperDelegation.Proofs.Report.Unbounded

set_option relaxedAutoImplicit false
set_option autoImplicit false

/-!
# The diagnostics of a run

What is reported on a delegating method follows from its declaration and from the candidates that
the two passes of the search find for it: one error if it gets no body, and otherwise the warnings
that the options ask for. A run over a unit reports on its delegating methods one after the other,
and a queue without any filter keeps all of it.

## Main definitions

* `Method.causes`, `Model.causes` — the problems of a delegating method, in terms of the model.
* `Cause.code`, `Diagnostic.Tells` — what a diagnostic has to show of a problem.
* `Catalog.Due` — the diagnostics on a delegating method, one for each of its problems.
* `Catalog.reported` — the diagnostics that a run over a unit gives rise to.

## Main results

* `Scope.problems_examine` — an examination notes these problems and no others.
* `Generator.queue_of_runUnits` — a run adds the diagnostics of its units one after the other.
* `Generator.diagnostics_of_runUnit` — without filters a run over a unit appends exactly the
  diagnostics that are due for its delegating methods.
-/

namespace MapperDelegation

/-! ## What is to be reported -/

/-- What the options ask to be said about the choice of a delegate: that it stands in the same unit,
and which other candidates there are, in the order of the search. -/
def Method.remarks (m : Method) (o : Options) (chosen : Candidate) (others : List Candidate) :
    List Cause :=
  let name := chosen.target.method.name
  (if o.warnSameUnit ∧ chosen.target.method.unit = m.unit then [.sameUnit name] else []) ++
    (if o.ambiguity = .warn ∧ others ≠ [] then
      [.ambiguous name (others.map (·.target.method.name))] else [])

/-- The problems of a delegating method. They are a body, or else directives that prescribe one, or
else the lack of candidates, or else what is to be said about the choice. The candidates are those
of the pass that decides, in the order of the search, and the first of them is chosen. -/
def Method.causes (m : Method) (o : Options) (unitName : Symbol) (found : List Candidate) :
    List Cause :=
  if m.implementation ≠ .abstract then [.hasBody m.implementation]
  else if m.directives.kinds.any (·.prescribesBody) then
    [.conflictingDirectives m.directives.conflicting]
  else match found with
    | [] => [.noDelegate unitName m.qualifier ((m.delegate.map (·.span)).getD .unknown)]
    | chosen :: others => m.remarks o chosen others

/-- The problems of a delegating method of a model. The first pass decides if it finds anything, and
the second one otherwise. -/
def Model.causes (m : Model) (o : Options) (x : Member) : Except OutOfRange (List Cause) := do
  let unit ← m.unit x.method.unit
  let cross ← m.crossUnit (o.criteriaFor x.method) x.id
  let same ← m.sameUnit (o.criteriaFor x.method) x.id
  return x.method.causes o unit.name (if cross = [] then same else cross)

/-- The code under which a problem is reported. -/
def Cause.code : Cause → Code
  | hasBody _ => .hasBody
  | conflictingDirectives _ => .conflictingDirective
  | noDelegate .. => .noDelegate
  | sameUnit _ => .sameUnit
  | ambiguous _ _ => .ambiguous
  | internal _ => .internal

/-- A diagnostic is the report on a problem with a method. -/
structure Diagnostic.Tells (d : Diagnostic) (symbols : SymbolTable) (m : Method) (cause : Cause) :
    Prop where
  eq_diagnostic : d = (m.problem cause).diagnostic symbols
  code_eq : d.code = cause.code
  /-- Codes of errors start with an `E`. -/
  isError_iff : d.isError ↔ d.code.text.toList.head? = some 'E'
  /-- The one primary label stands at the declaration. -/
  primary : (d.labels.filter (·.isPrimary)).map (·.span) = [m.span]
  /-- The candidates that were not chosen are listed by their names. -/
  others : ∀ chosen others, cause = .ambiguous chosen others →
    d.notes = ["also compatible: " ++ ", ".intercalate (others.map fun name =>
      "`" ++ symbols.lookup name ++ "`")]

/-- The diagnostics `ds` are those that are due for the delegating method `x`, one for each of its
problems. -/
def Catalog.Due (c : Catalog) (o : Options) (x : Member) (ds : List Diagnostic) : Prop :=
  ∃ causes, c.model.causes o x = .ok causes ∧
    List.Forall₂ (fun cause d => d.Tells c.symbols x.method cause) causes ds

/-! ## Reports on problems -/

/-- The codes of errors start with an `E`, those of warnings do not. -/
lemma Code.head?_text (c : Code) : c.text.toList.head? = some 'E' ↔ c.isWarning = false := by
  cases c <;> decide

/-- A problem is reported as a warning exactly if its code is one of a warning. -/
lemma Cause.isWarning_code (cause : Cause) : cause.code.isWarning = cause.isWarning := by
  cases cause <;> rfl

namespace Problem

variable (symbols : SymbolTable) (p : Problem)

/-- A report carries the code of its problem. -/
lemma code_diagnostic : (p.diagnostic symbols).code = p.cause.code := by
  obtain ⟨span, method, cause⟩ := p
  cases cause with
  | noDelegate unit qualifier requestedAt => cases qualifier <;> rfl
  | _ => rfl

/-- The one primary label of a report stands at the place of the problem. -/
lemma primary_diagnostic :
    ((p.diagnostic symbols).labels.filter (·.isPrimary)).map (·.span) = [p.span] := by
  obtain ⟨span, method, cause⟩ := p
  cases cause with
  | noDelegate unit qualifier requestedAt => cases qualifier <;> rfl
  | _ => rfl

/-- A report is about the place of the problem. -/
lemma primarySpan_diagnostic : (p.diagnostic symbols).primarySpan = some p.span := by
  rw [Diagnostic.primarySpan, ← List.head?_filter, ← List.head?_map, p.primary_diagnostic]
  rfl

end Problem

/-- Items given by symbols are quoted one by one. -/
lemma quotedList_map (symbols : SymbolTable) (names : List Symbol) :
    quotedList (names.map symbols.lookup) =
      ", ".intercalate (names.map fun name => "`" ++ symbols.lookup name ++ "`") := by
  rw [quotedList, List.map_map]
  rfl

/-- The report on a problem tells of it. -/
lemma Method.tells_diagnostic (symbols : SymbolTable) (m : Method) (cause : Cause) :
    ((m.problem cause).diagnostic symbols).Tells symbols m cause where
  eq_diagnostic := rfl
  code_eq := (m.problem cause).code_diagnostic symbols
  isError_iff := by
    rw [Problem.isError_diagnostic, Problem.code_diagnostic, Code.head?_text, Cause.isWarning_code,
      Bool.not_eq_true']
    rfl
  primary := (m.problem cause).primary_diagnostic symbols
  others chosen others h := by
    rw [h, ← quotedList_map]
    rfl

/-! ## The problems that an examination notes -/

/-- A method carries a directive in the way exactly if one of its directives prescribes a body. -/
lemma Method.hasConflictingDirective_eq (m : Method) :
    m.hasConflictingDirective = m.directives.kinds.any (·.prescribesBody) := by
  rw [Bool.eq_iff_iff, hasConflictingDirective, Bool.not_eq_true', ← Bool.not_eq_true,
    DirectiveSet.isEmpty_iff]
  simp [DirectiveSet.mem_kinds]

/-- The remarks on a choice are those that the options ask for. -/
lemma Resolution.remarks_eq {o : Options} {m : Method} {chosen : Candidate}
    {others : List Candidate}
    (howner : chosen.owner.isSameUnit ↔ chosen.target.method.unit = m.unit) :
    (Resolution.mk chosen (if o.ambiguity = .warn then others else [])).remarks o m =
      (m.remarks o chosen others).map m.problem := by
  simp only [remarks, isAmbiguous, Method.remarks, List.map_append, Bool.and_eq_true, howner]
  congr 1
  · split <;> rfl
  · cases o.ambiguity <;> cases others <;> simp

namespace Scope

variable {s : Scope} {symbols : SymbolTable} {o : Options} {x : Member}

/-- The candidates are those of the first pass, if there are any, and those of the second one
otherwise. -/
lemma candidates_eq {c : Criteria} :
    s.candidates c x = if s.crossUnit c x = [] then s.sameUnit c x else s.crossUnit c x := by
  unfold candidates
  cases s.crossUnit c x <;> simp

/-- The choice of a delegate tells of the other candidates if the options ask for them. -/
lemma choose_eq : s.choose o x = match s.candidates (o.criteriaFor x.method) x with
    | [] => none
    | chosen :: others => some ⟨chosen, if o.ambiguity = .warn then others else []⟩ := by
  rw [choose, find_eq_head?_candidates, resolveAll_eq]
  cases s.candidates (o.criteriaFor x.method) x <;> cases o.ambiguity <;> rfl

end Scope

namespace Model.WellFormed

variable {m : Model} {u : UnitId} {s : Scope} {o : Options} {x : Member}

variable (hm : m.WellFormed) (hs : m.scope u = .ok s)
include hm hs

/-- A candidate is owned by the searching unit exactly if it stands in it. -/
lemma isSameUnit_iff {c : Criteria} {candidate : Candidate} (h : candidate ∈ s.candidates c x) :
    candidate.owner.isSameUnit ↔ candidate.target.method.unit = u := by
  rw [Scope.candidates_eq] at h
  split at h
  · obtain ⟨howner, -, hunit, -⟩ := hm.of_mem_sameUnit hs h
    simp [howner, hunit, Owner.isSameUnit]
  · obtain ⟨unit, use, hunit, huse, howner, -, htarget, -⟩ := hm.of_mem_crossUnit hs h
    have hother := (hm.unit hunit).other use huse
    simp [howner, htarget, hother, Owner.isSameUnit]

/-- **The problems of a method**: an examination notes the problems that follow from the declaration
and from the candidates, in the same order.

**Proof sketch.** The cases of the verdict in closed form are those of the declaration and of the
list of candidates. A delegate is reported for standing in the same unit by its owner, and no unit
uses itself. -/
lemma problems_examine (symbols : SymbolTable) (hx : x.method.unit = u) :
    (s.examine symbols o x).problems =
      (x.method.causes o s.unitName (s.candidates (o.criteriaFor x.method) x)).map
        x.method.problem := by
  rw [Scope.examine, Scope.choose_eq, Method.causes.eq_def]
  rcases x.method.validate_cases with ⟨hbody, hv⟩ | ⟨hbody, hconflict, hv⟩ | ⟨hbody, hconflict, hv⟩
  · simp [hv, hbody]
  · rw [Method.hasConflictingDirective_eq] at hconflict
    simp [hv, hbody, hconflict]
  · rw [Method.hasConflictingDirective_eq] at hconflict
    cases hfound : s.candidates (o.criteriaFor x.method) x with
    | nil => simp [hv, hbody, hconflict, Scope.noDelegate]
    | cons chosen others =>
      have hchosen : chosen.owner.isSameUnit ↔ chosen.target.method.unit = x.method.unit := by
        rw [hx]
        exact hm.isSameUnit_iff hs (hfound ▸ List.mem_cons_self)
      simpa [hv, hbody, hconflict] using Resolution.remarks_eq hchosen

/-- The problems of a member of a scope are those that follow from what the scope shows. -/
lemma causes_eq (hx : x ∈ s.members) : m.causes o x =
    .ok (x.method.causes o s.unitName (s.candidates (o.criteriaFor x.method) x)) := by
  obtain ⟨unit, hunit, hname, hmembers, -⟩ := scope_eq_ok_iff.mp hs
  obtain ⟨-, rfl⟩ := (hm.mem_members_iff hmembers).mp hx
  have hcross : m.crossUnit (o.criteriaFor x.method) x.id = .ok _ := hm.inScopeOf_eq _ hs hx
  have hsame : m.sameUnit (o.criteriaFor x.method) x.id = .ok _ := hm.inScopeOf_eq _ hs hx
  rw [causes, hunit, hcross, hsame, Scope.candidates_eq, hname]
  rfl

end Model.WellFormed

/-! ## What a run adds to the diagnostics -/

/-- The diagnostics that the examination of a scope gives rise to, method by method. -/
lemma Scope.reported_eq {s : Scope} {symbols : SymbolTable} {o : Options} :
    s.reported symbols o = (s.delegating.map fun x =>
      (s.examine symbols o x).problems.map (·.diagnostic symbols)).flatten := by
  rw [reported, verdicts, List.flatMap_map, List.map_flatMap, List.flatMap_def]

/-- The diagnostics that a run over a unit gives rise to, none if there is no such unit. -/
def Catalog.reported (c : Catalog) (o : Options) (u : UnitId) : List Diagnostic :=
  match c.model.scope u with
  | .ok s => s.reported c.symbols o
  | .error _ => []

section

variable {c : Catalog} {o : Options} {u : UnitId}

lemma Catalog.reported_eq {s : Scope} (hs : c.model.scope u = .ok s) :
    c.reported o u = s.reported c.symbols o := by
  rw [reported, hs]

/-- What is reported on a unit are the problems that the examination of its delegating methods
notes. -/
lemma Catalog.exists_problem_of_mem_reported {d : Diagnostic} (hd : d ∈ c.reported o u) :
    ∃ s x p, c.model.scope u = .ok s ∧ x ∈ s.delegating ∧
      p ∈ (s.examine c.symbols o x).problems ∧ p.diagnostic c.symbols = d := by
  unfold reported at hd
  split at hd
  · next s hs =>
    obtain ⟨x, hx, p, hp, rfl⟩ : ∃ x ∈ s.delegating, ∃ p ∈ (s.examine c.symbols o x).problems,
        p.diagnostic c.symbols = d := by simpa [Scope.reported_eq] using hd
    exact ⟨s, x, p, hs, hx, hp, rfl⟩
  · cases hd

/-- A diagnostic of a run has a place. -/
lemma Catalog.exists_primarySpan {d : Diagnostic} (hd : d ∈ c.reported o u) :
    ∃ span, d.primarySpan = some span := by
  obtain ⟨-, -, p, -, -, -, rfl⟩ := exists_problem_of_mem_reported hd
  exact ⟨p.span, p.primarySpan_diagnostic c.symbols⟩

/-- The diagnostics on a unit are those that are due for its delegating methods, in their order.

**Proof sketch.** The delegating methods of the unit are those of its scope, and the problems that
the examination of such a method notes are those that follow from the model. -/
lemma Catalog.exists_due (hm : c.model.WellFormed) (hu : u.index < c.model.units.length) :
    ∃ members dss, c.model.delegatingMembers u = .ok members ∧
      List.Forall₂ (c.Due o) members dss ∧ c.reported o u = dss.flatten := by
  obtain ⟨s, hs⟩ := hm.exists_scope hu
  obtain ⟨-, -, -, hmembers, -⟩ := Model.scope_eq_ok_iff.mp hs
  refine ⟨s.delegating, _, ?_, ?_, (reported_eq hs).trans Scope.reported_eq⟩
  · rw [Model.delegatingMembers, hmembers]
    rfl
  · rw [List.forall₂_map_right_iff, List.forall₂_same]
    intro x hx
    have hmem : x ∈ s.members := List.mem_of_mem_filter hx
    refine ⟨_, hm.causes_eq hs hmem, ?_⟩
    rw [hm.problems_examine hs c.symbols ((hm.mem_members_iff hmembers).mp hmem).2, List.map_map,
      List.forall₂_map_right_iff, List.forall₂_same]
    intro cause _
    exact x.method.tells_diagnostic c.symbols cause

end

namespace Generator

variable {c : Catalog} {g g' : Generator} {u : UnitId} {us : List UnitId}

/-- A run over a unit adds the diagnostics on it. -/
lemma queue_eq_of_runUnit {r : UnitReport} (h : g.runUnit c u = .ok (r, g')) :
    g'.queue = g.queue.addAll (c.reported g.options u) := by
  obtain ⟨s, hs, -, hqueue⟩ := queue_of_runUnit h
  rw [hqueue, Catalog.reported_eq hs]

/-- A run over some units adds the diagnostics on each of them.

**Proof sketch.** Induction on the units: what is added for a unit depends on the options only, and
these stay as they are. -/
lemma queue_of_runUnits {reports : List UnitReport} (h : g.runUnits c us = .ok (reports, g')) :
    g'.queue = g.queue.addAll (us.flatMap (c.reported g.options)) := by
  induction us generalizing g reports with
  | nil =>
    obtain ⟨rfl, rfl⟩ := runUnits_nil_eq_ok_iff.mp h
    rfl
  | cons u us ih =>
    obtain ⟨r, g₁, rest, hr, hrest, rfl⟩ := runUnits_cons_eq_ok_iff.mp h
    rw [ih hrest, (report_of_runUnit hr).2, queue_eq_of_runUnit hr, List.flatMap_cons,
      Queue.addAll_append]

/-- **What is reported**: if diagnostics are not filtered, then whatever units a generator has run
over before, a run over a unit of a reachable model succeeds and appends exactly the diagnostics
that are due for the delegating methods of the unit, in the order of declaration.

**Proof sketch.** A queue without filters appends all that is added to it, and what a run adds are
the diagnostics that are due. -/
theorem diagnostics_of_runUnit (hc : c.Reachable) (o : Options) (hlimits : o.limits = .unlimited)
    {history : List UnitId} (hhistory : ∀ v ∈ history, v.index < c.model.units.length)
    (hu : u.index < c.model.units.length) :
    ∃ earlier g r g' members dss, (start o).runUnits c history = .ok (earlier, g) ∧
      g.runUnit c u = .ok (r, g') ∧ c.model.delegatingMembers u = .ok members ∧
      List.Forall₂ (c.Due o) members dss ∧ g'.diagnostics = g.diagnostics ++ dss.flatten := by
  have hm := hc.wellFormed
  obtain ⟨earlier, g, hearlier⟩ := (start o).exists_runUnits hm hhistory
  obtain ⟨r, g', hr⟩ := g.exists_runUnit hm hu
  obtain ⟨members, dss, hmembers, hdue, hreported⟩ := Catalog.exists_due (o := o) hm hu
  refine ⟨earlier, g, r, g', members, dss, hearlier, hr, hmembers, hdue, ?_⟩
  have hoptions : g.options = o := (forall₂_of_runUnits hearlier).2
  have hqueue := queue_of_runUnits hearlier
  have hnew : (start o).queue.Unbounded := Queue.unbounded_empty (by rw [hlimits]; rfl)
  have hq : g.queue.Unbounded := hqueue ▸ hnew.addAll _
  have hkeep : g.queue.limits.deduplicate = false := by
    rw [hqueue, Queue.limits_addAll]
    simp [start, hlimits, Limits.unlimited]
  rw [diagnostics, diagnostics, queue_eq_of_runUnit hr, hq.diagnostics_addAll hkeep, hoptions,
    hreported]

end Generator

/-- A run over the mapper of users after a run over both mappers appends what is due, be it an error
or a warning. -/
theorem Generator.diagnostics_contestedMapping :
    Catalog.contestedMapping.Reachable ∧ Options.strict.limits = .unlimited ∧
      Catalog.contestedMapping.model.units.length = 2 ∧
      ∃ earlier g r g' members dss,
        (Generator.start .strict).runUnits .contestedMapping [⟨1⟩, ⟨0⟩] = .ok (earlier, g) ∧
        g.runUnit .contestedMapping ⟨1⟩ = .ok (r, g') ∧
        Catalog.contestedMapping.model.delegatingMembers ⟨1⟩ = .ok members ∧
        List.Forall₂ (Catalog.contestedMapping.Due .strict) members dss ∧
        g'.diagnostics = g.diagnostics ++ dss.flatten :=
  ⟨Catalog.reachable_ofEntries _, rfl, by decide +kernel,
    diagnostics_of_runUnit (Catalog.reachable_ofEntries _) .strict rfl (by decide +kernel)
      (by decide +kernel)⟩

/-- The three delegating methods have two delegates, one in the same mapper, and none. -/
example : ((Generator.start .strict).runUnits .contestedMapping [⟨1⟩]).map
    (fun r => r.2.diagnostics.map fun d => (d.code.text, d.primarySpan)) =
      .ok [("W1002", some ⟨5, 6⟩), ("W1001", some ⟨3, 4⟩), ("E1003", some ⟨1, 2⟩)] := by
  decide +kernel

end MapperDelegation
