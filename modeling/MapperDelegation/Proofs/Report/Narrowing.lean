import MapperDelegation.Proofs.Report.Errors

set_option relaxedAutoImplicit false
set_option autoImplicit false

/-!
# Queues under a narrower bound

Two queues that receive the same diagnostics hold the same ones until the queue with the narrower
bound on errors is full. From then on it takes warnings only, while the other one may take further
errors, so that the narrower queue holds a part of what the other one holds. Listings keep this
relation, because a stable sort does not change the order of the part.

## Main definitions

* `Queue.Narrows` — how a queue is related to one with a wider bound that received the same.

## Main results

* `Queue.Narrows.add`, `Queue.Narrows.addAll` — adding the same diagnostics keeps the relation.
* `Queue.Narrows.errorCount_eq` — the narrower queue holds as many errors as its bound allows.
* `Queue.Narrows.sublist_mergeSort` — the narrower queue lists a part of what the other one lists.
-/

namespace MapperDelegation

namespace Queue

variable {q q' : Queue} {d : Diagnostic}

/-- The queue `q` has a bound on errors and `q'` has a wider one or none, and what `q` holds is what
`q'` holds, but for errors that came when `q` was full. -/
structure Narrows (q q' : Queue) : Prop where
  accounted : q.Accounted
  accounted' : q'.Accounted
  deduplicate_eq : q.limits.deduplicate = q'.limits.deduplicate
  errorLimit_pos : 0 < q.limits.errorLimit
  errorLimit_le : q'.limits.errorLimit = 0 ∨ q.limits.errorLimit ≤ q'.limits.errorLimit
  sublist : q.diagnostics.Sublist q'.diagnostics
  warnings_eq : q.diagnostics.filter (!·.isError) = q'.diagnostics.filter (!·.isError)
  /-- Nothing is missing as long as the bound is not reached. -/
  eq_of_open : ¬ q.limitReached → q.diagnostics = q'.diagnostics

/-- New queues under a narrower and a wider bound. -/
lemma narrows_empty {limits limits' : Limits}
    (hdeduplicate : limits.deduplicate = limits'.deduplicate) (hpos : 0 < limits.errorLimit)
    (hle : limits'.errorLimit = 0 ∨ limits.errorLimit ≤ limits'.errorLimit) :
    ({ limits } : Queue).Narrows { limits := limits' } where
  accounted := accounted_empty limits
  accounted' := accounted_empty limits'
  deduplicate_eq := hdeduplicate
  errorLimit_pos := hpos
  errorLimit_le := hle
  sublist := .refl []
  warnings_eq := rfl
  eq_of_open _ := rfl

namespace Narrows

variable (h : q.Narrows q')
include h

/-- As long as the narrower bound is not reached, the wider one is not reached either. -/
lemma not_limitReached (hopen : ¬ q.limitReached) : ¬ q'.limitReached := by
  have hcount : q.errorCount = q'.errorCount := by
    rw [h.accounted.errorCount_eq, h.accounted'.errorCount_eq, h.eq_of_open hopen]
  have hpos := h.errorLimit_pos
  have hle := h.errorLimit_le
  rw [limitReached_iff] at hopen ⊢
  omega

/-- A diagnostic that the narrower queue does not refuse for its bound is a repetition in both
queues or in neither. -/
lemma mem_iff (hopen : d.isError → ¬ q.limitReached) :
    d ∈ q.diagnostics ↔ d ∈ q'.diagnostics := by
  cases herror : d.isError with
  | true => rw [h.eq_of_open (hopen herror)]
  | false =>
    have hmem : ∀ ds : List Diagnostic, d ∈ ds ↔ d ∈ ds.filter (!·.isError) := by
      intro ds
      simp [herror]
    rw [hmem, h.warnings_eq, ← hmem]

/-- An error that the narrower queue refuses for its bound may be taken by the other one. -/
lemma add_of_full (herror : d.isError) (hfull : q.limitReached) :
    (q.add d).2.Narrows (q'.add d).2 := by
  have hadd : (q.add d).2 = { q with suppressed := q.suppressed + 1 } := by
    simp [Queue.add, herror, hfull]
  have hadd' : (q'.add d).2.diagnostics = q'.diagnostics ∨
      (q'.add d).2.diagnostics = q'.diagnostics ++ [d] := by
    rcases q'.add_cases d with ⟨-, -, hadd'⟩ | ⟨-, hadd'⟩ | ⟨-, hadd'⟩
    · exact .inl (by rw [hadd'])
    · exact .inl (by rw [hadd'])
    · exact .inr (by rw [hadd', push])
  refine ⟨h.accounted.add d, h.accounted'.add d, ?_, ?_, ?_, ?_, ?_, ?_⟩
  · rw [limits_add, limits_add, h.deduplicate_eq]
  · rw [limits_add]
    exact h.errorLimit_pos
  · rw [limits_add, limits_add]
    exact h.errorLimit_le
  · rw [hadd]
    rcases hadd' with hadd' | hadd'
    · rw [hadd']
      exact h.sublist
    · rw [hadd']
      exact h.sublist.trans (List.sublist_append_left _ _)
  · rw [hadd]
    rcases hadd' with hadd' | hadd'
    · rw [hadd', h.warnings_eq]
    · rw [hadd', List.filter_append, h.warnings_eq]
      simp [herror]
  · intro hopen
    rw [hadd] at hopen
    exact absurd hfull hopen

/-- A diagnostic that the narrower queue does not refuse for its bound finds the same fate in both
queues. -/
lemma add_of_open (hopen : d.isError → ¬ q.limitReached) :
    (q.add d).2.Narrows (q'.add d).2 := by
  have hadd := Queue.add_of_open hopen
  have hadd' := Queue.add_of_open fun herror => h.not_limitReached (hopen herror)
  simp only [← h.deduplicate_eq, ← h.mem_iff hopen] at hadd'
  by_cases hrepeated : q.limits.deduplicate ∧ d ∈ q.diagnostics
  · rw [hadd, hadd', if_pos hrepeated, if_pos hrepeated]
    exact h
  · have haccounted := h.accounted.add d
    have haccounted' := h.accounted'.add d
    rw [if_neg hrepeated] at hadd hadd'
    rw [hadd] at haccounted ⊢
    rw [hadd'] at haccounted' ⊢
    refine ⟨haccounted, haccounted', h.deduplicate_eq, h.errorLimit_pos, h.errorLimit_le,
      h.sublist.append_right _, ?_, fun hopen' => ?_⟩
    · simp only [push, List.filter_append, h.warnings_eq]
    · have hq : ¬ q.limitReached := by
        rw [limitReached_iff] at hopen' ⊢
        simp only [push] at hopen'
        omega
      simp only [push, h.eq_of_open hq]

/-- Adding the same diagnostic to both queues keeps the relation. -/
lemma add (d : Diagnostic) : (q.add d).2.Narrows (q'.add d).2 := by
  by_cases hfull : d.isError ∧ q.limitReached
  · exact h.add_of_full hfull.1 hfull.2
  · exact h.add_of_open fun herror hlimit => hfull ⟨herror, hlimit⟩

/-- Adding the same diagnostics to both queues keeps the relation. -/
lemma addAll (ds : List Diagnostic) : (q.addAll ds).Narrows (q'.addAll ds) := by
  induction ds generalizing q q' with
  | nil => exact h
  | cons d ds ih => exact ih (h.add d)

/-- The narrower queue holds as many errors as the other one, up to its bound. -/
lemma errorCount_eq : q.errorCount = min q.limits.errorLimit q'.errorCount := by
  have hle := h.accounted.errorCount_le (Nat.ne_of_gt h.errorLimit_pos)
  have hcount : q.errorCount ≤ q'.errorCount := by
    rw [h.accounted.errorCount_eq, h.accounted'.errorCount_eq]
    exact h.sublist.countP_le
  by_cases hfull : q.limitReached
  · have := (limitReached_iff.mp hfull).2
    omega
  · have hsame : q.errorCount = q'.errorCount := by
      rw [h.accounted.errorCount_eq, h.accounted'.errorCount_eq, h.eq_of_open hfull]
    omega

/-- What the narrower queue lists is a part of what the other one lists. -/
lemma mergeSort_sublist : (q.diagnostics.mergeSort Diagnostic.mayPrecede).Sublist
    (q'.diagnostics.mergeSort Diagnostic.mayPrecede) :=
  MapperDelegation.mergeSort_sublist Diagnostic.mayPrecede_trans Diagnostic.mayPrecede_total
    h.sublist

end Narrows

end Queue

end MapperDelegation
