import MapperDelegation.Proofs.Delegation.Run
import MapperDelegation.Proofs.Mapper.Renaming

set_option relaxedAutoImplicit false
set_option autoImplicit false

/-!
# Generation for renamed models

Generation compares symbols and hands them on; the strings behind them show in call texts and in
reports only. A renaming changes neither, so generation for a renamed model takes the same steps,
chooses the renamed delegates and reports the same diagnostics.

## Main definitions

* `Scope.rename`, `Candidate.rename`, `Verdict.rename`, `UnitReport.rename` — renaming every symbol
  of what the search sees, finds and reports.

## Main results

* `Scope.candidates_rename` — the candidates in a renamed scope.
* `Problem.diagnostic_rename` — a renamed problem is reported by the same diagnostic.
* `Scope.examine_rename` — the verdict on a renamed method.
* `Generator.runUnits_transfer`, `Generator.runModel_transfer` — runs over a renamed model.
-/

namespace MapperDelegation

variable {f : Symbol → Symbol} {t u : SymbolTable}

/-! ## Criteria -/

/-- A qualifier whose symbol is renamed. -/
def Qualifier.rename (f : Symbol → Symbol) : Qualifier → Qualifier
  | byName name => byName (f name)
  | byType type => byType (type.rename f)

/-- Criteria whose symbols are renamed. -/
def Criteria.rename (f : Symbol → Symbol) (c : Criteria) : Criteria where
  matching := c.matching
  qualifier := c.qualifier.map (·.rename f)

/-- The qualifier that a renamed method asks for. -/
lemma Method.qualifier_rename (m : Method) :
    (m.rename f).qualifier = m.qualifier.map (·.rename f) := by
  cases hdelegate : m.delegate with
  | none => simp [qualifier, rename, hdelegate]
  | some a =>
    cases hnames : a.qualifyingNames <;> cases htypes : a.qualifyingTypes <;>
      simp [qualifier, rename, hdelegate, DelegateRequest.qualifier, DelegateRequest.rename,
        hnames, htypes, Qualifier.rename]

/-- The criteria for a renamed method. -/
lemma Options.criteriaFor_rename (o : Options) (m : Method) :
    o.criteriaFor (m.rename f) = (o.criteriaFor m).rename f := by
  simp [criteriaFor, Criteria.rename, Method.qualifier_rename]

/-- A renamed method passes a renamed qualifier if and only if it did so before. -/
lemma Qualifier.admits_rename (h : Renaming f t u) (q : Qualifier) (matching : QualifierMatching)
    (m : Method) : (q.rename f).admits matching (m.rename f) = q.admits matching m := by
  have htag : ∀ name, (m.rename f).tag = some (f name) ↔ m.tag = some name := by
    intro name
    simp [Method.rename, h.injective.eq_iff]
  have hname : ∀ name, (m.rename f).name = f name ↔ m.name = name := fun name =>
    h.injective.eq_iff
  cases q <;> cases matching <;> simp [admits, rename, htag, hname]

/-- A renamed method will do as the delegate of another one if and only if it did so before. -/
lemma Criteria.accepts_rename (h : Renaming f t u) (c : Criteria) (source candidate : Method) :
    (c.rename f).accepts (source.rename f) (candidate.rename f) = c.accepts source candidate := by
  obtain ⟨matching, qualifier⟩ := c
  rcases qualifier with _ | (name | type)
  · exact h.compatible_rename source candidate
  · exact Qualifier.admits_rename h (.byName name) matching candidate
  · exact h.compatible_rename source candidate

/-! ## Scopes -/

/-- A used unit of a scope whose symbols are renamed. -/
def Provider.rename (f : Symbol → Symbol) (p : Provider) : Provider where
  use := p.use.rename f
  type := p.type.rename f
  members := p.members.map (·.rename f)

/-- A scope whose symbols are renamed. -/
def Scope.rename (f : Symbol → Symbol) (s : Scope) : Scope where
  unitName := f s.unitName
  members := s.members.map (·.rename f)
  providers := s.providers.map (·.rename f)

/-- A used unit of a renamed model. -/
lemma Model.provider_rename (m : Model) (use : UsedUnit) :
    (m.rename f).provider (use.rename f) = Provider.rename f <$> m.provider use := by
  have hunit : (use.rename f).unit = use.unit := rfl
  rw [provider, provider, hunit, unit_rename, members_rename, bind_map_left, map_bind]
  refine bind_congr fun unit => ?_
  rw [bind_map_left, map_bind]
  rfl

/-- The scope of a unit of a renamed model. -/
lemma Model.scope_rename (m : Model) (v : UnitId) :
    (m.rename f).scope v = Scope.rename f <$> m.scope v := by
  rw [scope, scope, unit_rename, members_rename, bind_map_left, map_bind]
  refine bind_congr fun unit => ?_
  rw [bind_map_left, map_bind]
  refine bind_congr fun members => ?_
  have hproviders : (unit.rename f).uses.mapM (m.rename f).provider =
      List.map (Provider.rename f) <$> unit.uses.mapM m.provider :=
    mapM_map_eq m.provider_rename unit.uses
  rw [hproviders, bind_map_left, map_bind]
  rfl

/-! ## Candidates -/

/-- An owner whose access variable is renamed. -/
def Owner.rename (f : Symbol → Symbol) : Owner → Owner
  | sameUnit => sameUnit
  | usedUnit use => usedUnit (use.rename f)

/-- A candidate whose symbols are renamed. -/
def Candidate.rename (f : Symbol → Symbol) (c : Candidate) : Candidate :=
  ⟨c.target.rename f, c.owner.rename f⟩

/-- A resolution whose symbols are renamed. -/
def Resolution.rename (f : Symbol → Symbol) (r : Resolution) : Resolution :=
  ⟨r.chosen.rename f, r.alternatives.map (·.rename f)⟩

@[simp] lemma Owner.isSameUnit_rename (o : Owner) : (o.rename f).isSameUnit = o.isSameUnit := by
  cases o <;> simp [isSameUnit, rename]

namespace Scope

/-- The candidates among the methods of one renamed unit. -/
lemma candidatesOf_rename (h : Renaming f t u) (c : Criteria) (source : Method) (p : Provider) :
    candidatesOf (c.rename f) (source.rename f) (p.rename f) =
      (candidatesOf c source p).map (·.rename f) := by
  simp only [candidatesOf, Provider.rename, List.filter_map, List.map_map, Function.comp_def,
    Member.rename, Method.isMethod_rename, Method.isPublic_rename, Criteria.accepts_rename h]
  rfl

/-- The candidates among the used units of a renamed scope. -/
lemma crossUnit_rename (h : Renaming f t u) (s : Scope) (c : Criteria) (source : Member) :
    (s.rename f).crossUnit (c.rename f) (source.rename f) =
      (s.crossUnit c source).map (·.rename f) := by
  have hsource : (source.rename f).method = source.method.rename f := rfl
  simp only [crossUnit, rename, hsource, List.flatMap_map, List.map_flatMap,
    candidatesOf_rename h]

/-- The candidates among the members of a renamed unit itself. -/
lemma sameUnit_rename (h : Renaming f t u) (s : Scope) (c : Criteria) (source : Member) :
    (s.rename f).sameUnit (c.rename f) (source.rename f) =
      (s.sameUnit c source).map (·.rename f) := by
  simp only [sameUnit, rename, List.filter_map, List.map_map, Function.comp_def, Member.rename,
    Method.isMethod_rename, Method.isDelegating_rename, Method.visibility_rename,
    Criteria.accepts_rename h]
  rfl

/-- The candidates in a renamed scope are the renamed candidates. -/
theorem candidates_rename (h : Renaming f t u) (s : Scope) (c : Criteria) (source : Member) :
    (s.rename f).candidates (c.rename f) (source.rename f) =
      (s.candidates c source).map (·.rename f) := by
  simp only [candidates, crossUnit_rename h, sameUnit_rename h]
  cases s.crossUnit c source <;> rfl

/-- The delegate in a renamed scope. -/
lemma find_rename (h : Renaming f t u) (s : Scope) (c : Criteria) (source : Member) :
    (s.rename f).find (c.rename f) (source.rename f) = (s.find c source).map (·.rename f) := by
  rw [find_eq_head?_candidates, find_eq_head?_candidates, candidates_rename h, List.head?_map]

/-- The delegate in a renamed scope, with the other candidates. -/
lemma resolveAll_rename (h : Renaming f t u) (s : Scope) (c : Criteria) (source : Member) :
    (s.rename f).resolveAll (c.rename f) (source.rename f) =
      (s.resolveAll c source).map (·.rename f) := by
  rw [resolveAll_eq, resolveAll_eq, candidates_rename h]
  cases s.candidates c source <;> rfl

/-- The choice of a delegate by the options in a renamed scope. -/
lemma choose_rename (h : Renaming f t u) (s : Scope) (o : Options) (source : Member) :
    (s.rename f).choose o (source.rename f) = (s.choose o source).map (·.rename f) := by
  have hcriteria : o.criteriaFor (source.rename f).method =
      (o.criteriaFor source.method).rename f := o.criteriaFor_rename source.method
  unfold choose
  rw [hcriteria, find_rename h, resolveAll_rename h]
  cases o.ambiguity with
  | firstMatch => cases s.find (o.criteriaFor source.method) source <;> rfl
  | warn => rfl

/-- The members of a renamed scope that delegate. -/
lemma delegating_rename (s : Scope) :
    (s.rename f).delegating = s.delegating.map (·.rename f) := by
  simp [delegating, rename, List.filter_map, Function.comp_def, Member.rename]

end Scope

/-! ## Generated methods -/

/-- A reference whose symbols are renamed. -/
def Reference.rename (f : Symbol → Symbol) (r : Reference) : Reference where
  target := r.target
  targetName := f r.targetName
  owner := r.owner.rename f
  arguments := r.arguments.map f

/-- A generated method whose symbols are renamed. Its body is a text and stays the same. -/
def GeneratedMethod.rename (f : Symbol → Symbol) (g : GeneratedMethod) : GeneratedMethod where
  method := g.method
  reference := g.reference.rename f
  body := g.body
  overrides := g.overrides
  requiredTypes := g.requiredTypes.map (·.rename f)

/-- The reference of a renamed method to a renamed candidate. -/
lemma Candidate.reference_rename (c : Candidate) (source : Method) :
    (c.rename f).reference (source.rename f) = (c.reference source).rename f := by
  simp only [reference, Reference.ofTarget, Reference.rename, rename, Member.rename,
    Method.rename, List.zip_map, List.map_map]
  rfl

/-- A renamed reference is called by the same text. -/
lemma Reference.callText_rename (h : Renaming f t u) (r : Reference) (arguments : List Symbol) :
    (r.rename f).callText u (arguments.map f) = r.callText t arguments := by
  have hreceiver : (r.rename f).owner.accessVariable = r.owner.accessVariable.map f := by
    obtain ⟨target, targetName, owner, arguments⟩ := r
    cases owner <;> rfl
  have hname : u.lookup (r.rename f).targetName = t.lookup r.targetName := h.lookup _
  have hlookup : u.lookup ∘ f = t.lookup := funext h.lookup
  unfold callText
  rw [hreceiver, hname, List.map_map, hlookup]
  cases r.owner.accessVariable with
  | none => rfl
  | some variableName => simp only [Option.map_some, h.lookup]

/-- The type to import for an owner in a renamed scope. -/
lemma Scope.typeOf_rename (h : Renaming f t u) (s : Scope) (owner : Owner) :
    (s.rename f).typeOf (owner.rename f) = (s.typeOf owner).map (·.rename f) := by
  cases owner with
  | sameUnit => rfl
  | usedUnit use =>
    have huse : ∀ p : Provider, (p.rename f).use = use.rename f ↔ p.use = use := by
      intro p
      obtain ⟨⟨v, a⟩, type, members⟩ := p
      obtain ⟨w, b⟩ := use
      simp [Provider.rename, UsedUnit.rename, h.injective.eq_iff]
    simp only [typeOf, Owner.rename, rename, List.find?_map, Function.comp_def, huse,
      Option.map_map]
    rfl

/-- Entries are equal before an injective change if and only if they are so afterwards.

The recursion is on the length of the list, since `List.eraseDups` goes on with a filtered list. -/
lemma eraseDups_map {α β : Type} [DecidableEq α] [DecidableEq β] {g : α → β}
    (hg : Function.Injective g) (xs : List α) : (xs.map g).eraseDups = xs.eraseDups.map g := by
  match xs with
  | [] => rfl
  | x :: xs =>
    have hne : ∀ y, (!g y == g x) = !y == x := fun y => by simp [hg.eq_iff]
    rw [List.map_cons, List.eraseDups_cons, List.eraseDups_cons, List.map_cons, List.filter_map]
    simp only [Function.comp_def, hne]
    rw [eraseDups_map hg (xs.filter fun y => !y == x)]
termination_by xs.length
decreasing_by exact Nat.lt_succ_of_le (List.length_filter_le _ _)

/-- The types that the body of a renamed method needs. -/
lemma Scope.requiredTypes_rename (h : Renaming f t u) (s : Scope) (m : Method) (owner : Owner) :
    (s.rename f).requiredTypes (m.rename f) (owner.rename f) =
      (s.requiredTypes m owner).map (·.rename f) := by
  have hvoid : (m.rename f).returnType.isVoid = m.returnType.isVoid := h.isVoid_rename _
  have hreturned : (if m.returnType.isVoid then [] else [(m.rename f).returnType]) =
      (if m.returnType.isVoid then [] else [m.returnType]).map (·.rename f) := by
    split <;> rfl
  have howner : ((s.rename f).typeOf (owner.rename f)).toList =
      (s.typeOf owner).toList.map (·.rename f) := by
    rw [s.typeOf_rename h]
    cases s.typeOf owner <;> rfl
  simp only [requiredTypes, hvoid, hreturned, howner, Method.paramTypes_rename, ← List.map_append]
  exact eraseDups_map h.typeInjective _

/-- The body of a renamed method. -/
lemma Scope.generate_rename (h : Renaming f t u) (s : Scope) (source : Member)
    (chosen : Candidate) :
    (s.rename f).generate u (source.rename f) (chosen.rename f) =
      (s.generate t source chosen).rename f := by
  have hreference : (chosen.rename f).reference (source.rename f).method =
      (chosen.reference source.method).rename f := chosen.reference_rename source.method
  have hcall := (chosen.reference source.method).callText_rename h
    (chosen.reference source.method).arguments
  have hvoid : (source.rename f).method.returnType.isVoid = source.method.returnType.isVoid :=
    h.isVoid_rename _
  have htypes : (s.rename f).requiredTypes (source.rename f).method (chosen.rename f).owner =
      (s.requiredTypes source.method chosen.owner).map (·.rename f) :=
    s.requiredTypes_rename h source.method chosen.owner
  have harguments : ((chosen.reference source.method).rename f).arguments =
      (chosen.reference source.method).arguments.map f := rfl
  simp only [generate, GeneratedMethod.rename, hreference, harguments, hcall, Body.around, hvoid,
    htypes]
  rfl

/-! ## Problems -/

/-- The cause of a problem with its symbols renamed. -/
def Cause.rename (f : Symbol → Symbol) : Cause → Cause
  | hasBody implementation => hasBody implementation
  | conflictingDirectives directives => conflictingDirectives directives
  | noDelegate unit qualifier requestedAt =>
    noDelegate (f unit) (qualifier.map (·.rename f)) requestedAt
  | sameUnit delegate => sameUnit (f delegate)
  | ambiguous chosen others => ambiguous (f chosen) (others.map f)
  | internal error => internal error

/-- A problem whose symbols are renamed. -/
def Problem.rename (f : Symbol → Symbol) (p : Problem) : Problem :=
  ⟨p.span, f p.method, p.cause.rename f⟩

@[simp] lemma Problem.isFatal_rename (p : Problem) : (p.rename f).isFatal = p.isFatal := by
  obtain ⟨span, method, cause⟩ := p
  cases cause <;> rfl

/-- A renamed qualifier is described by the same text. -/
lemma Qualifier.describe_rename (h : Renaming f t u) (q : Qualifier) :
    (q.rename f).describe u = q.describe t := by
  cases q <;> simp [describe, rename, TypeSymbol.rename, h.lookup]

/-- A renamed problem is reported by the same diagnostic. -/
theorem Problem.diagnostic_rename (h : Renaming f t u) (p : Problem) :
    (p.rename f).diagnostic u = p.diagnostic t := by
  obtain ⟨span, method, cause⟩ := p
  have hlookup : u.lookup ∘ f = t.lookup := funext h.lookup
  cases cause with
  | noDelegate unit qualifier requestedAt =>
    rcases qualifier with _ | (name | type) <;>
      simp only [diagnostic, rename, Cause.rename, h.lookup, Option.map_none, Option.map_some,
        Qualifier.describe_rename h] <;> rfl
  | ambiguous chosen others =>
    simp only [diagnostic, rename, Cause.rename, h.lookup, List.map_map, hlookup]
  | _ => simp only [diagnostic, rename, Cause.rename, h.lookup]

/-- Whether a renamed method may delegate. -/
lemma Method.validate_rename (m : Method) :
    (m.rename f).validate = m.validate.mapError (·.rename f) := by
  have hconflict : (m.rename f).hasConflictingDirective = m.hasConflictingDirective := rfl
  unfold validate
  rw [isAbstract_rename, hconflict]
  split_ifs <;> rfl

/-- The problem of a renamed method without a delegate. -/
lemma Scope.noDelegate_rename (s : Scope) (m : Method) :
    (s.rename f).noDelegate (m.rename f) = (s.noDelegate m).rename f := by
  have hspan : (m.rename f).delegate.map (·.span) = m.delegate.map (·.span) := by
    simp only [Method.rename, Option.map_map]
    rfl
  simp only [noDelegate, Method.qualifier_rename, hspan]
  rfl

/-- The remarks on the choice of a delegate of a renamed method. -/
lemma Resolution.remarks_rename (r : Resolution) (o : Options) (m : Method) :
    (r.rename f).remarks o (m.rename f) = (r.remarks o m).map (·.rename f) := by
  have hsameUnit : (r.rename f).chosen.owner.isSameUnit = r.chosen.owner.isSameUnit :=
    r.chosen.owner.isSameUnit_rename
  have hambiguous : (r.rename f).isAmbiguous = r.isAmbiguous := by
    simp [isAmbiguous, rename]
  have hothers : (r.rename f).alternatives.map (·.target.method.name) =
      (r.alternatives.map (·.target.method.name)).map f := by
    simp only [rename, List.map_map]
    rfl
  simp only [remarks, hsameUnit, hambiguous, hothers, List.map_append]
  congr 1 <;> split_ifs <;> rfl

/-! ## Verdicts -/

/-- A verdict whose symbols are renamed. -/
def Verdict.rename (f : Symbol → Symbol) (v : Verdict) : Verdict where
  method := v.method
  stage := v.stage
  problems := v.problems.map (·.rename f)
  generated := v.generated.map (·.rename f)

/-- The verdict on a renamed method in a renamed scope. -/
theorem Scope.examine_rename (h : Renaming f t u) (s : Scope) (o : Options) (source : Member) :
    (s.rename f).examine u o (source.rename f) = (s.examine t o source).rename f := by
  have hmethod : (source.rename f).method = source.method.rename f := rfl
  rw [examine, examine, choose_rename h, hmethod, Method.validate_rename]
  cases source.method.validate with
  | error problem => rfl
  | ok _ =>
    cases s.choose o source with
    | none =>
      simp only [Except.mapError, Option.map_none, noDelegate_rename]
      rfl
    | some r =>
      have hchosen : (r.rename f).chosen = r.chosen.rename f := rfl
      simp only [Except.mapError, Option.map_some, Resolution.remarks_rename, hchosen,
        generate_rename h]
      rfl

/-- The verdicts on the methods of a renamed scope. -/
lemma Scope.verdicts_rename (h : Renaming f t u) (s : Scope) (o : Options) :
    (s.rename f).verdicts u o = (s.verdicts t o).map (·.rename f) := by
  simp only [verdicts, delegating_rename, List.map_map]
  exact List.map_congr_left fun source _ => s.examine_rename h o source

/-! ## Runs -/

/-- A report whose symbols are renamed. -/
def UnitReport.rename (f : Symbol → Symbol) (r : UnitReport) : UnitReport where
  unit := r.unit
  generated := r.generated.map (·.rename f)
  outcomes := r.outcomes
  aborted := r.aborted

/-- The report by renamed verdicts. -/
lemma UnitReport.ofVerdicts_rename (v : UnitId) (verdicts : List Verdict) :
    ofVerdicts v (verdicts.map (·.rename f)) = (ofVerdicts v verdicts).rename f := by
  have hfatal : ∀ verdict : Verdict, (verdict.rename f).problems.any (·.isFatal) =
      verdict.problems.any (·.isFatal) := fun verdict => by
    simp [Verdict.rename, Function.comp_def]
  simp only [ofVerdicts, rename, List.any_map, Function.comp_def, hfatal, List.filterMap_map,
    List.map_map]
  split_ifs
  · rfl
  · simp only [List.map_filterMap]
    rfl

/-- An output in whose reports the symbols are renamed. -/
def Output.rename (f : Symbol → Symbol) (o : Output) : Output where
  reports := o.reports.map (·.rename f)
  diagnostics := o.diagnostics

namespace Generator

variable {c : Catalog} (g : Generator)

/-- Renamed problems are reported alike. -/
lemma emit_rename (h : Renaming f t u) (verdicts : List Verdict) :
    g.emit u (verdicts.map (·.rename f)) = g.emit t verdicts := by
  have hreports : ∀ verdict : Verdict, (verdict.rename f).problems.map (·.diagnostic u) =
      verdict.problems.map (·.diagnostic t) := fun verdict => by
    simp [Verdict.rename, Function.comp_def, Problem.diagnostic_rename h]
  simp only [emit, List.map_flatMap, List.flatMap_map, hreports]

/-- A run over a unit of a renamed model reports the same up to the renaming, and leads to the same
generator. -/
lemma runUnit_transfer (h : Renaming f c.symbols u) (v : UnitId) :
    g.runUnit (c.transfer f u) v = Prod.map (·.rename f) id <$> g.runUnit c v := by
  have hscope : (c.transfer f u).model.scope v = Scope.rename f <$> c.model.scope v :=
    c.model.scope_rename v
  rw [runUnit_eq, runUnit_eq, hscope, ← comp_map, ← comp_map]
  refine congrArg (· <$> c.model.scope v) (funext fun s => ?_)
  have hverdicts : (s.rename f).verdicts (c.transfer f u).symbols g.options =
      (s.verdicts c.symbols g.options).map (·.rename f) := s.verdicts_rename h g.options
  have hemit : g.emit (c.transfer f u).symbols ((s.verdicts c.symbols g.options).map (·.rename f)) =
      g.emit c.symbols (s.verdicts c.symbols g.options) := g.emit_rename h _
  simp only [Function.comp_apply, hverdicts, UnitReport.ofVerdicts_rename, hemit, Prod.map, id]

/-- Runs over units of a renamed model report the same up to the renaming, and lead to the same
generator. -/
theorem runUnits_transfer (h : Renaming f c.symbols u) (history : List UnitId) :
    g.runUnits (c.transfer f u) history =
      Prod.map (List.map (·.rename f)) id <$> g.runUnits c history := by
  induction history generalizing g with
  | nil => rfl
  | cons v history ih =>
    rw [runUnits, runUnits, g.runUnit_transfer h, bind_map_left, map_bind]
    refine bind_congr fun result => ?_
    obtain ⟨report, g'⟩ := result
    have hrest := ih g'
    simp only [Prod.map, id] at hrest ⊢
    rw [hrest, bind_map_left, map_bind]
    rfl

/-- A run over all units of a renamed model reports the same up to the renaming, and lists the same
diagnostics. -/
theorem runModel_transfer (h : Renaming f c.symbols u) :
    g.runModel (c.transfer f u) = Output.rename f <$> g.runModel c := by
  have hunits : (c.transfer f u).model.unitIds = c.model.unitIds := c.model.unitIds_rename f
  rw [runModel, runModel, hunits, g.runUnits_transfer h, bind_map_left, map_bind]
  rfl

end Generator

end MapperDelegation
