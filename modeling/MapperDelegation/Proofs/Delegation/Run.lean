import MapperDelegation.Delegation.Generator
import MapperDelegation.Proofs.Delegation.Verdict

set_option relaxedAutoImplicit false
set_option autoImplicit false

/-!
# Reports of a run

The report on a unit depends on the catalogue and on the options, but not on the diagnostics that
a generator holds already. A run over several units therefore yields the reports that each of
the units would get on its own, and on a well-formed model it always comes to its end.

## Main definitions

* `Scope.verdicts` — the verdicts on the delegating methods of a scope.
* `UnitReport.ofVerdicts`, `Generator.emit` — the report and the diagnostics by some verdicts.
* `Catalog.report` — the report on one unit under given options.

## Main results

* `Generator.runUnit_eq` — a run over a unit goes by the verdicts, whatever came before.
* `Generator.runUnit_eq_ok_iff` — hence it yields this report.
* `Generator.forall₂_of_runUnits`, `Generator.forall₂_of_runModel` — so do longer runs.
* `Generator.exists_runUnits`, `Generator.exists_runModel` — runs over a well-formed model succeed.
-/

namespace MapperDelegation

/-! ## The report on one unit -/

/-- The report on a unit by the verdicts on its delegating methods. -/
def UnitReport.ofVerdicts (unit : UnitId) (verdicts : List Verdict) : UnitReport :=
  let aborted := verdicts.any (·.problems.any (·.isFatal))
  { unit
    generated := if aborted then [] else verdicts.filterMap (·.generated)
    outcomes := verdicts.map fun v => (v.method, v.stage)
    aborted }

/-- Adds the reports on the problems of some verdicts to the queue. -/
def Generator.emit (g : Generator) (symbols : SymbolTable) (verdicts : List Verdict) : Generator :=
  let problems := verdicts.flatMap (·.problems)
  { g with queue := g.queue.addAll (problems.map (·.diagnostic symbols)) }

/-- The verdicts on the delegating methods of a scope, in the order of declaration. -/
def Scope.verdicts (s : Scope) (symbols : SymbolTable) (o : Options) : List Verdict :=
  s.delegating.map (s.examine symbols o)

/-- The report on a unit under given options. -/
def Catalog.report (c : Catalog) (o : Options) (u : UnitId) : Except OutOfRange UnitReport :=
  (fun s => .ofVerdicts u (s.verdicts c.symbols o)) <$> c.model.scope u

namespace Catalog

variable {c : Catalog} {o : Options} {u : UnitId} {r : UnitReport}

/-- The report on a unit puts together the verdicts on its delegating methods. -/
lemma report_eq_ok_iff :
    c.report o u = .ok r ↔ ∃ s, c.model.scope u = .ok s ∧
      r = .ofVerdicts u (s.verdicts c.symbols o) := by
  rw [report, map_eq_ok_iff]
  exact exists_congr fun s => and_congr_right fun _ => eq_comm

/-- There is at most one report on each of some units. -/
lemma eq_of_forall₂_report {us : List UnitId} {reports reports' : List UnitReport}
    (h : List.Forall₂ (fun u r => c.report o u = .ok r) us reports)
    (h' : List.Forall₂ (fun u r => c.report o u = .ok r) us reports') : reports = reports' := by
  have hunique : Relator.RightUnique fun u r => c.report o u = .ok r :=
    fun _ _ _ hr hr' => eq_of_eq_ok hr hr'
  exact List.right_unique_forall₂' hunique h h'

end Catalog

/-! ## Examinations one after the other -/

/-- The report after one more method, by the verdict on it. -/
def UnitReport.enter (r : UnitReport) (v : Verdict) : UnitReport :=
  r.record v.method v.stage v.ending

/-- One more method is entered in the report by its verdict, and its problems are reported. -/
lemma Scope.runNext_eq (s : Scope) (symbols : SymbolTable) (o : Options) (r : UnitReport)
    (q : Queue) (x : Member) : s.runNext symbols o (r, q) x =
      (r.enter (s.examine symbols o x),
        q.addAll ((s.examine symbols o x).problems.map (·.diagnostic symbols))) := by
  rw [runNext, runMethod_eq, UnitReport.enter, method_examine]

/-- Some methods are entered in the report by their verdicts, and their problems are reported in
the order of the methods. -/
lemma Scope.foldl_runNext (s : Scope) (symbols : SymbolTable) (o : Options) (r : UnitReport)
    (q : Queue) (xs : List Member) : xs.foldl (s.runNext symbols o) (r, q) =
      ((xs.map (s.examine symbols o)).foldl .enter r,
        q.addAll (((xs.map (s.examine symbols o)).flatMap (·.problems)).map
          (·.diagnostic symbols))) := by
  induction xs generalizing r q with
  | nil => rfl
  | cons x xs ih =>
    rw [List.foldl_cons, runNext_eq, ih, List.map_cons, List.foldl_cons, List.flatMap_cons,
      List.map_append, Queue.addAll_append]

/-- The body that one verdict adds to a report. -/
def Verdict.body? (v : Verdict) : Option GeneratedMethod :=
  if v.problems.any (·.isFatal) then none else v.generated

/-- One verdict adds an outcome, and either a body or, if it is fatal, the failure of the unit. -/
lemma UnitReport.enter_eq (r : UnitReport) (v : Verdict) : r.enter v =
    { unit := r.unit
      generated := r.generated ++ v.body?.toList
      outcomes := r.outcomes ++ [(v.method, v.stage)]
      aborted := r.aborted || v.problems.any (·.isFatal) } := by
  unfold enter record Verdict.ending Verdict.body?
  cases v.problems.any (·.isFatal) with
  | true => simp
  | false => cases v.generated <;> simp

/-- Some verdicts add their outcomes and their bodies, and the failure of the unit if one of them is
fatal. -/
lemma UnitReport.foldl_enter (r : UnitReport) (verdicts : List Verdict) :
    verdicts.foldl enter r =
      { unit := r.unit
        generated := r.generated ++ verdicts.filterMap (·.body?)
        outcomes := r.outcomes ++ verdicts.map fun v => (v.method, v.stage)
        aborted := r.aborted || verdicts.any (·.problems.any (·.isFatal)) } := by
  induction verdicts generalizing r with
  | nil => simp
  | cons v verdicts ih =>
    rw [List.foldl_cons, ih, enter_eq]
    cases hbody : v.body? <;> simp [hbody, Bool.or_assoc]

/-- The report that is closed after some verdicts is the report by these verdicts. -/
lemma UnitReport.close_foldl_enter (u : UnitId) (verdicts : List Verdict) :
    (verdicts.foldl enter (.start u)).close = .ofVerdicts u verdicts := by
  rw [foldl_enter, ofVerdicts]
  cases h : verdicts.any (·.problems.any (·.isFatal)) with
  | true => simp [close, start]
  | false =>
    have hbodies : verdicts.filterMap (·.body?) = verdicts.filterMap (·.generated) := by
      refine List.filterMap_congr fun v hv => if_neg ?_
      exact List.any_eq_false.mp h v hv
    simp [close, start, hbodies]

/-! ## Runs -/

namespace Generator

variable {c : Catalog} {g g' : Generator} {u : UnitId} {us : List UnitId}

/-- **Runs by verdicts**: a run over a unit reports what the verdicts on its delegating methods say,
whatever is in the queue, and adds their problems to it. -/
theorem runUnit_eq (g : Generator) (c : Catalog) (u : UnitId) :
    g.runUnit c u = (fun s : Scope => (.ofVerdicts u (s.verdicts c.symbols g.options),
      g.emit c.symbols (s.verdicts c.symbols g.options))) <$> c.model.scope u := by
  rw [runUnit, map_eq_pure_bind]
  refine bind_congr fun s => ?_
  rw [s.foldl_runNext]
  simp only [UnitReport.close_foldl_enter]
  rfl

/-- A run over a unit yields the report on it and adds to the diagnostics. -/
lemma runUnit_eq_ok_iff {r : UnitReport} :
    g.runUnit c u = .ok (r, g') ↔ ∃ s, c.model.scope u = .ok s ∧
      r = .ofVerdicts u (s.verdicts c.symbols g.options) ∧
      g' = g.emit c.symbols (s.verdicts c.symbols g.options) := by
  rw [runUnit_eq, map_eq_ok_iff]
  refine exists_congr fun s => and_congr_right fun _ => ?_
  rw [Prod.mk.injEq, eq_comm, eq_comm (a := g')]

/-- A run over a unit yields the report on it, whatever was reported before. -/
lemma report_of_runUnit {r : UnitReport} (h : g.runUnit c u = .ok (r, g')) :
    c.report g.options u = .ok r ∧ g'.options = g.options := by
  obtain ⟨s, hs, rfl, rfl⟩ := runUnit_eq_ok_iff.mp h
  exact ⟨Catalog.report_eq_ok_iff.mpr ⟨s, hs, rfl⟩, rfl⟩

/-- A run over a unit of a well-formed model succeeds. -/
lemma exists_runUnit (g : Generator) (hm : c.model.WellFormed)
    (hu : u.index < c.model.units.length) : ∃ r g', g.runUnit c u = .ok (r, g') := by
  obtain ⟨s, hs⟩ := hm.exists_scope hu
  exact ⟨_, _, runUnit_eq_ok_iff.mpr ⟨s, hs, rfl, rfl⟩⟩

/-- A run over no units does nothing. -/
lemma runUnits_nil_eq_ok_iff {reports : List UnitReport} :
    g.runUnits c [] = .ok (reports, g') ↔ reports = [] ∧ g' = g := by
  simp [runUnits, pure, Except.pure, eq_comm]

/-- A run over some units takes them one after the other. -/
lemma runUnits_cons_eq_ok_iff {reports : List UnitReport} :
    g.runUnits c (u :: us) = .ok (reports, g') ↔ ∃ r g₁ rest, g.runUnit c u = .ok (r, g₁) ∧
      g₁.runUnits c us = .ok (rest, g') ∧ reports = r :: rest := by
  simp only [runUnits, bind_eq_ok_iff, pure, Except.pure, Except.ok.injEq, Prod.mk.injEq]
  constructor
  · rintro ⟨⟨r, g₁⟩, hr, ⟨rest, g₂⟩, hrest, rfl, rfl⟩
    exact ⟨r, g₁, rest, hr, hrest, rfl⟩
  · rintro ⟨r, g₁, rest, hr, hrest, rfl⟩
    exact ⟨(r, g₁), hr, (rest, g'), hrest, rfl, rfl⟩

/-- A run over some units and then over others is a run over all of them. -/
lemma runUnits_append {g₁ : Generator} {vs : List UnitId} {reports rest : List UnitReport}
    (h : g.runUnits c us = .ok (reports, g₁)) (hrest : g₁.runUnits c vs = .ok (rest, g')) :
    g.runUnits c (us ++ vs) = .ok (reports ++ rest, g') := by
  induction us generalizing g reports with
  | nil =>
    obtain ⟨rfl, rfl⟩ := runUnits_nil_eq_ok_iff.mp h
    exact hrest
  | cons u us ih =>
    obtain ⟨r, g₂, reports', hr, hreports, rfl⟩ := runUnits_cons_eq_ok_iff.mp h
    exact runUnits_cons_eq_ok_iff.mpr ⟨r, g₂, _, hr, ih hreports, rfl⟩

/-- A run over some units yields the report on each of them.

**Proof sketch.** Induction on the units: a step changes the diagnostics of the generator, but not
its options, on which alone the reports depend. -/
lemma forall₂_of_runUnits {reports : List UnitReport} (h : g.runUnits c us = .ok (reports, g')) :
    List.Forall₂ (fun u r => c.report g.options u = .ok r) us reports ∧
      g'.options = g.options := by
  induction us generalizing g reports with
  | nil =>
    obtain ⟨rfl, rfl⟩ := runUnits_nil_eq_ok_iff.mp h
    exact ⟨.nil, rfl⟩
  | cons u us ih =>
    obtain ⟨r, g₁, rest, hr, hrest, rfl⟩ := runUnits_cons_eq_ok_iff.mp h
    obtain ⟨hreport, hoptions⟩ := report_of_runUnit hr
    obtain ⟨hreports, hoptions'⟩ := ih hrest
    rw [hoptions] at hreports hoptions'
    exact ⟨.cons hreport hreports, hoptions'⟩

/-- A run over units of a well-formed model succeeds. -/
lemma exists_runUnits (g : Generator) (hm : c.model.WellFormed)
    (hus : ∀ u ∈ us, u.index < c.model.units.length) :
    ∃ reports g', g.runUnits c us = .ok (reports, g') := by
  induction us generalizing g with
  | nil => exact ⟨[], g, rfl⟩
  | cons u us ih =>
    obtain ⟨r, g₁, hr⟩ := g.exists_runUnit hm (hus u List.mem_cons_self)
    obtain ⟨rest, g', hrest⟩ := ih g₁ fun v hv => hus v (List.mem_cons_of_mem u hv)
    exact ⟨r :: rest, g', runUnits_cons_eq_ok_iff.mpr ⟨r, g₁, rest, hr, hrest, rfl⟩⟩

/-- A run over the whole model takes all units and lists the diagnostics. -/
lemma runModel_eq_ok_iff {out : Output} :
    g.runModel c = .ok out ↔ ∃ g', g.runUnits c c.model.unitIds = .ok (out.reports, g') ∧
      out.diagnostics = g'.finish := by
  obtain ⟨reports, diagnostics⟩ := out
  simp only [runModel, bind_eq_ok_iff, pure, Except.pure, Except.ok.injEq, Output.mk.injEq]
  constructor
  · rintro ⟨⟨reports', g'⟩, h, rfl, rfl⟩
    exact ⟨g', h, rfl⟩
  · rintro ⟨g', h, rfl⟩
    exact ⟨(reports, g'), h, rfl, rfl⟩

/-- A run over the whole model yields the report on each unit. -/
lemma forall₂_of_runModel {out : Output} (h : g.runModel c = .ok out) :
    List.Forall₂ (fun u r => c.report g.options u = .ok r) c.model.unitIds out.reports := by
  obtain ⟨g', hreports, -⟩ := runModel_eq_ok_iff.mp h
  exact (forall₂_of_runUnits hreports).1

/-- A run over a whole well-formed model succeeds. -/
lemma exists_runModel (g : Generator) (hm : c.model.WellFormed) :
    ∃ out, g.runModel c = .ok out := by
  obtain ⟨reports, g', h⟩ := g.exists_runUnits hm fun _ hu => Model.mem_unitIds_iff.mp hu
  exact ⟨⟨reports, g'.finish⟩, runModel_eq_ok_iff.mpr ⟨g', h, rfl⟩⟩

end Generator

end MapperDelegation
