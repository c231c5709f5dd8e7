import MapperDelegation.Proofs.Delegation.Pipeline
import MapperDelegation.Proofs.Delegation.Scope

set_option relaxedAutoImplicit false
set_option autoImplicit false

/-!
# The ends of an examination

The examination of a delegating method ends in one of three ways: its declaration is refused, no
delegate is found, or a body is rendered. Which of them it is depends on the declaration and on
the first candidate of the search alone; the warnings that the options ask for change only the
problems that are noted. The later files read off these three cases what a report says.

## Main results

* `Scope.examine_cases` — the three ends, each with the verdict in full.
* `Scope.isFatal_examine_iff` — only a method without a delegate makes its unit fail.
* `Scope.generated_examine_eq_some_iff` — a body is generated for the first candidate.
-/

namespace MapperDelegation

namespace Scope

variable {s : Scope} {symbols : SymbolTable} {o : Options} {x : Member}

/-- The policy on ambiguous delegates does not change which delegate is chosen. -/
lemma map_chosen_choose : (s.choose o x).map (·.chosen) = s.find (o.criteriaFor x.method) x := by
  unfold choose
  split
  · simp [Option.map_map, Function.comp_def]
  · exact s.map_chosen_resolveAll _ x

/-! ## The three ends -/

/-- **The three ends of an examination**: the declaration is refused, there is no candidate, or
the first candidate is called from the body.

**Proof sketch.** The definition of the verdict, with the choice of a delegate replaced by the
first candidate of the search. -/
theorem examine_cases (s : Scope) (symbols : SymbolTable) (o : Options) (x : Member) :
    (∃ p, x.method.validate = .error p ∧ p.isFatal = false ∧
      s.examine symbols o x = ⟨x.id, .rejected, [p], none⟩) ∨
    (x.method.validate = .ok () ∧ s.find (o.criteriaFor x.method) x = none ∧
      s.examine symbols o x = ⟨x.id, .unresolved, [s.noDelegate x.method], none⟩) ∨
    ∃ r, x.method.validate = .ok () ∧ s.choose o x = some r ∧
      s.find (o.criteriaFor x.method) x = some r.chosen ∧
      s.examine symbols o x =
        ⟨x.id, .rendered, r.remarks o x.method, some (s.generate symbols x r.chosen)⟩ := by
  rw [examine, ← map_chosen_choose]
  cases hv : x.method.validate with
  | error p => exact .inl ⟨p, rfl, Method.isFatal_of_validate hv, rfl⟩
  | ok =>
    cases hc : s.choose o x with
    | none => exact .inr (.inl ⟨rfl, rfl, rfl⟩)
    | some r => exact .inr (.inr ⟨r, rfl, rfl, rfl, rfl⟩)

/-- A verdict is one on the method that was examined. -/
@[simp] lemma method_examine : (s.examine symbols o x).method = x.id := by
  rcases examine_cases s symbols o x with ⟨p, -, -, h⟩ | ⟨-, -, h⟩ | ⟨r, -, -, -, h⟩ <;> rw [h]

/-- A method ends up rejected exactly when its declaration is refused. -/
lemma stage_examine_eq_rejected_iff :
    (s.examine symbols o x).stage = .rejected ↔ ∃ p, x.method.validate = .error p := by
  rcases examine_cases s symbols o x with ⟨p, hv, -, h⟩ | ⟨hv, -, h⟩ | ⟨r, hv, -, -, h⟩ <;>
    simp [h, hv]

/-- A method ends up unresolved exactly when its declaration is accepted and the search finds
nothing. -/
lemma stage_examine_eq_unresolved_iff :
    (s.examine symbols o x).stage = .unresolved ↔
      x.method.validate = .ok () ∧ s.find (o.criteriaFor x.method) x = none := by
  rcases examine_cases s symbols o x with ⟨p, hv, -, h⟩ | ⟨hv, hf, h⟩ | ⟨r, hv, -, hf, h⟩
  · simp [h, hv]
  · simp [h, hv, hf]
  · simp [h, hv, hf]

/-- A method ends up rendered exactly when its declaration is accepted and the search finds
something. -/
lemma stage_examine_eq_rendered_iff :
    (s.examine symbols o x).stage = .rendered ↔
      x.method.validate = .ok () ∧ s.find (o.criteriaFor x.method) x ≠ none := by
  rcases examine_cases s symbols o x with ⟨p, hv, -, h⟩ | ⟨hv, hf, h⟩ | ⟨r, hv, -, hf, h⟩
  · simp [h, hv]
  · simp [h, hv, hf]
  · simp [h, hv, hf]

/-- Only a method without a delegate makes its unit fail. -/
lemma isFatal_examine_iff :
    (s.examine symbols o x).problems.any (·.isFatal) ↔
      (s.examine symbols o x).stage = .unresolved := by
  rcases examine_cases s symbols o x with ⟨p, -, hp, h⟩ | ⟨-, -, h⟩ | ⟨r, -, -, -, h⟩
  · simp [h, hp]
  · simp [h, noDelegate, Method.problem, Problem.isFatal, Cause.isFatal]
  · have hremarks : ∀ p ∈ r.remarks o x.method, p.isFatal = false := fun p hp =>
      Resolution.isFatal_of_mem_remarks hp
    simpa [h] using hremarks

/-- A body is generated exactly when the declaration is accepted and the search finds a delegate,
which the body then calls. -/
lemma generated_examine_eq_some_iff {g : GeneratedMethod} :
    (s.examine symbols o x).generated = some g ↔ x.method.validate = .ok () ∧
      ∃ chosen, s.find (o.criteriaFor x.method) x = some chosen ∧
        g = s.generate symbols x chosen := by
  rcases examine_cases s symbols o x with ⟨p, hv, -, h⟩ | ⟨hv, hf, h⟩ | ⟨r, hv, -, hf, h⟩
  · simp [h, hv]
  · simp [h, hv, hf]
  · simp [h, hv, hf, eq_comm]

end Scope

end MapperDelegation
