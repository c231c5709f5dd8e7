import MapperDelegation.Delegation.Pipeline
import MapperDelegation.Proofs.Report.Errors

set_option relaxedAutoImplicit false
set_option autoImplicit false

/-!
# Verdicts on single methods

The examination of a method takes the diagnostics so far along and adds its own to them, but it
never looks at them, and no step of it is refused. What becomes of a method can therefore be told
without any queue, by a verdict: the stage that is reached, the problems that are reported on the
way, and the body, if there is one. This file reads the verdict off the declaration and the choice
of a delegate, and shows that every examination ends by it.

## Main definitions

* `Verdict`, `Scope.examine` — what becomes of a method.
* `Pipeline.Yields` — some steps come to their end, none of them being refused.

## Main results

* `Method.validate_cases` — the ways through a validation.
* `Pipeline.yields_advance_iff` — a request is granted exactly if the stages allow it.
* `Scope.yields_pipeline` — no step of an examination is refused, and it ends by the verdict.
* `Scope.runMethod_eq` — whatever is in the queue, an examination adds what the verdict says.
-/

namespace MapperDelegation

/-! ## Verdicts -/

/-- What became of one method. -/
structure Verdict where
  method : MethodId
  /-- The last stage that the method reached. -/
  stage : Stage
  problems : List Problem
  generated : Option GeneratedMethod
deriving DecidableEq

/-- How an examination ends by its verdict: a fatal problem comes before anything else. -/
def Verdict.ending (v : Verdict) : Ending :=
  if v.problems.any (·.isFatal) then .fatal {}
  else
    match v.generated with
    | some body => .generated body
    | none => .rejected

/-- The remarks on the choice of a delegate that the options ask for. -/
def Resolution.remarks (r : Resolution) (o : Options) (m : Method) : List Problem :=
  let chosen := r.chosen.target.method.name
  let sameUnit := if o.warnSameUnit && r.chosen.owner.isSameUnit then
    [m.problem (.sameUnit chosen)] else []
  let ambiguous := if r.isAmbiguous then
    [m.problem (.ambiguous chosen (r.alternatives.map (·.target.method.name)))] else []
  sameUnit ++ ambiguous

/-- The verdict on a method: it ends up rejected, unresolved or rendered, and the problems are those
of this last stage. -/
def Scope.examine (s : Scope) (symbols : SymbolTable) (o : Options) (source : Member) : Verdict :=
  match source.method.validate with
  | .error problem => ⟨source.id, .rejected, [problem], none⟩
  | .ok () =>
    match s.choose o source with
    | none => ⟨source.id, .unresolved, [s.noDelegate source.method], none⟩
    | some r =>
      ⟨source.id, .rendered, r.remarks o source.method,
        some (s.generate symbols source r.chosen)⟩

/-! ## Problems that do not make a unit fail -/

/-- The ways through a validation. The directives are looked at only if there is no body. -/
lemma Method.validate_cases (m : Method) :
    m.implementation ≠ .abstract ∧ m.validate = .error (m.problem (.hasBody m.implementation)) ∨
      m.implementation = .abstract ∧ m.hasConflictingDirective ∧
        m.validate = .error (m.problem (.conflictingDirectives m.directives.conflicting)) ∨
      m.implementation = .abstract ∧ ¬ m.hasConflictingDirective ∧ m.validate = .ok () := by
  by_cases hbody : m.implementation = .abstract
  · by_cases hconflict : m.hasConflictingDirective
    · exact .inr (.inl ⟨hbody, hconflict, by simp [validate, isAbstract, hbody, hconflict]⟩)
    · exact .inr (.inr ⟨hbody, hconflict, by simp [validate, isAbstract, hbody, hconflict]⟩)
  · exact .inl ⟨hbody, by simp [validate, isAbstract, hbody]⟩

/-- A declaration is refused for its body or for its directives. -/
lemma Method.eq_of_validate {m : Method} {p : Problem} (h : m.validate = .error p) :
    p = m.problem (.hasBody m.implementation) ∨
      p = m.problem (.conflictingDirectives m.directives.conflicting) := by
  rcases m.validate_cases with ⟨-, hv⟩ | ⟨-, -, hv⟩ | ⟨-, -, hv⟩
  · exact .inl (Except.error.inj (h.symm.trans hv))
  · exact .inr (Except.error.inj (h.symm.trans hv))
  · cases h.symm.trans hv

/-- The remarks on a choice say that the delegate stands in the same unit, or that there are
others. -/
lemma Resolution.eq_of_mem_remarks {r : Resolution} {o : Options} {m : Method} {p : Problem}
    (h : p ∈ r.remarks o m) :
    p = m.problem (.sameUnit r.chosen.target.method.name) ∨
      p = m.problem (.ambiguous r.chosen.target.method.name
        (r.alternatives.map (·.target.method.name))) := by
  rcases List.mem_append.mp h with h | h
  · split at h
    · exact .inl (List.mem_singleton.mp h)
    · cases h
  · split at h
    · exact .inr (List.mem_singleton.mp h)
    · cases h

/-- Each remark is made if the options, or the other candidates, call for it. -/
lemma Resolution.map_remarks {α : Type} (r : Resolution) (o : Options) (m : Method)
    (f : Problem → α) : (r.remarks o m).map f =
      (if o.warnSameUnit && r.chosen.owner.isSameUnit then
        [f (m.problem (.sameUnit r.chosen.target.method.name))] else []) ++
      if r.isAmbiguous then [f (m.problem (.ambiguous r.chosen.target.method.name
        (r.alternatives.map (·.target.method.name))))] else [] := by
  unfold remarks
  cases o.warnSameUnit && r.chosen.owner.isSameUnit <;> cases r.isAmbiguous <;> rfl

/-- A refused declaration concerns its method only. -/
lemma Method.isFatal_of_validate {m : Method} {p : Problem} (h : m.validate = .error p) :
    p.isFatal = false := by
  rcases m.eq_of_validate h with rfl | rfl <;> rfl

/-- A remark on the choice of a delegate does not make the unit fail. -/
lemma Resolution.isFatal_of_mem_remarks {r : Resolution} {o : Options} {m : Method} {p : Problem}
    (h : p ∈ r.remarks o m) : p.isFatal = false := by
  rcases r.eq_of_mem_remarks h with rfl | rfl <;> rfl

/-! ## Steps that are granted -/

namespace Pipeline

variable {α β : Type} {steps : Pipeline α} {f : α → Pipeline β} {before : Progress}
  {symbols : SymbolTable} {p : Problem}

/-- The steps come to their end, none of them being refused, and `Q` holds of what they yield and of
the progress that is made. -/
def Yields (steps : Pipeline α) (before : Progress) (Q : α → Progress → Prop) : Prop :=
  ∃ a after, steps.run before = .ok a after ∧ Q a after

/-- Steps of which it is known how they come to their end. -/
lemma yields_iff {a : α} {after : Progress} {Q : α → Progress → Prop}
    (h : steps.run before = .ok a after) : steps.Yields before Q ↔ Q a after := by
  constructor
  · rintro ⟨a', after', hrun, hQ⟩
    cases h.symm.trans hrun
    exact hQ
  · exact fun hQ => ⟨a, after, h, hQ⟩

lemma yields_pure_iff {a : α} {Q : α → Progress → Prop} :
    Yields (pure a) before Q ↔ Q a before := yields_iff rfl

/-- Steps are granted one after the other. -/
lemma yields_bind_iff {Q : β → Progress → Prop} :
    Yields (steps >>= f) before Q ↔ steps.Yields before fun a after => (f a).Yields after Q := by
  cases h : steps.run before with
  | ok a after => rw [yields_iff h, Yields, Yields, EStateM.run_bind, h]
  | error e after => simp [Yields, EStateM.run_bind, h]

/-- **Requests**: a request for a stage is granted exactly if it may follow the present one. -/
lemma yields_advance_iff {goal : Stage} {Q : Unit → Progress → Prop} :
    (advance goal).Yields before Q ↔
      before.stage.canAdvance goal ∧ Q () { before with stage := goal } := by
  by_cases h : before.stage.canAdvance goal
  · have hrun : (advance goal).run before = .ok () { before with stage := goal } := by
      simp [advance, EStateM.run_bind, Stage.advance, h, EStateM.run_set]
    rw [yields_iff hrun, and_iff_right h]
  · simp [Yields, advance, EStateM.run_bind, Stage.advance, h, EStateM.run_throw]

/-- An error that is reported goes to the queue. -/
lemma yields_reportError_iff {Q : Guarantee → Progress → Prop} :
    (reportError symbols p).Yields before Q ↔
      Q {} { before with queue := before.queue.addAll [p.diagnostic symbols] } := yields_iff rfl

/-- A warning goes to the queue if the condition calls for it. -/
lemma yields_warnIf_iff {condition : Bool} {Q : Unit → Progress → Prop} :
    (warnIf condition symbols p).Yields before Q ↔ Q () { before with
      queue := before.queue.addAll (if condition then [p.diagnostic symbols] else []) } := by
  cases condition with
  | true => exact yields_iff rfl
  | false => exact yields_iff rfl

end Pipeline

/-! ## Examinations -/

namespace Scope

variable {s : Scope} {symbols : SymbolTable} {o : Options} {x : Member}

/-- **No step of an examination is refused**: whatever is in the queue, the examination comes to its
end, and it ends by the verdict on the method. The method has reached the stage of the verdict, and
the problems of the verdict have been reported in their order.

**Proof sketch.** The ways through the pipeline are those by the validation and by the choice of a
delegate. On each of them every request is for a stage that may follow the one before. -/
theorem yields_pipeline (s : Scope) (symbols : SymbolTable) (o : Options) (x : Member)
    (q : Queue) :
    (s.pipeline symbols o x).Yields { queue := q } fun ending after =>
      ending = (s.examine symbols o x).ending ∧ after.stage = (s.examine symbols o x).stage ∧
        after.queue = q.addAll ((s.examine symbols o x).problems.map (·.diagnostic symbols)) := by
  unfold pipeline
  cases hv : x.method.validate with
  | error p =>
    have hverdict : s.examine symbols o x = ⟨x.id, .rejected, [p], none⟩ := by rw [examine, hv]
    simp only [Pipeline.yields_bind_iff, Pipeline.yields_advance_iff,
      Pipeline.yields_reportError_iff, Pipeline.yields_pure_iff]
    rw [hverdict]
    refine ⟨rfl, ?_, rfl, rfl⟩
    simp [Verdict.ending, Method.isFatal_of_validate hv]
  | ok =>
    simp only [Pipeline.yields_bind_iff, Pipeline.yields_advance_iff]
    refine ⟨rfl, rfl, ?_⟩
    cases hc : s.choose o x with
    | none =>
      have hverdict : s.examine symbols o x =
          ⟨x.id, .unresolved, [s.noDelegate x.method], none⟩ := by rw [examine, hv, hc]
      simp only [Pipeline.yields_bind_iff, Pipeline.yields_advance_iff,
        Pipeline.yields_reportError_iff, Pipeline.yields_pure_iff]
      rw [hverdict]
      exact ⟨rfl, rfl, rfl, rfl⟩
    | some r =>
      have hverdict : s.examine symbols o x = ⟨x.id, .rendered, r.remarks o x.method,
          some (s.generate symbols x r.chosen)⟩ := by rw [examine, hv, hc]
      have hfatal : (r.remarks o x.method).any (·.isFatal) = false := by
        rw [List.any_eq_false]
        exact fun p hp => Bool.not_eq_true _ ▸ Resolution.isFatal_of_mem_remarks hp
      simp only [Pipeline.yields_bind_iff, Pipeline.yields_advance_iff,
        Pipeline.yields_warnIf_iff, Pipeline.yields_pure_iff]
      rw [hverdict]
      refine ⟨rfl, rfl, ?_, rfl, ?_⟩
      · simp [Verdict.ending, hfatal]
      · rw [Resolution.map_remarks, Queue.addAll_append]
        rfl

/-- **Examinations by verdicts**: whatever is in the queue, an examination ends by the verdict on
the method, and adds the problems of the verdict to the queue. -/
theorem runMethod_eq (q : Queue) : s.runMethod symbols o q x =
    ((s.examine symbols o x).ending, ⟨(s.examine symbols o x).stage,
      q.addAll ((s.examine symbols o x).problems.map (·.diagnostic symbols))⟩) := by
  obtain ⟨ending, ⟨stage, queue⟩, hrun, hending, hstage, hqueue⟩ := s.yields_pipeline symbols o x q
  rw [runMethod, hrun, hending, ← hstage, ← hqueue]

end Scope

end MapperDelegation
