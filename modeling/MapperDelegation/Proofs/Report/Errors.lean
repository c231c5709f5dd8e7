import MapperDelegation.Proofs.Report.Accounting
import MapperDelegation.Proofs.Report.Sorting

set_option relaxedAutoImplicit false
set_option autoImplicit false

/-!
# Errors in diagnostic queues

The bound on errors and the test for repetitions may drop errors, but never the only one, and a
warning has no influence on what becomes of an error: it neither counts towards the bound nor is it
equal to an error, and sorting by place does not change the order of the errors among themselves.

## Main definitions

* `Queue.Tracked` — a queue with right counts which drops errors only if it holds some.
* `Queue.SameErrors` — two queues differ in their warnings only.

## Main results

* `Queue.Tracked.errorCount_addAll_pos_iff` — a queue counts an error once one was added.
* `Queue.Tracked.exists_isError_mem_flush_iff` — a listing shows an error if the queue counts one.
* `Queue.SameErrors.addAll` — queues that receive the same errors keep the same errors.
* `Queue.SameErrors.filter_flush` — and list the same errors.
-/

namespace MapperDelegation

namespace Queue

variable {q q' : Queue} {d : Diagnostic}

@[simp] lemma addAll_nil : q.addAll [] = q := rfl

@[simp] lemma addAll_cons (ds : List Diagnostic) : q.addAll (d :: ds) = (q.add d).2.addAll ds := rfl

lemma addAll_append {ds ds' : List Diagnostic} :
    q.addAll (ds ++ ds') = (q.addAll ds).addAll ds' := List.foldl_append

@[simp] lemma limits_add : (q.add d).2.limits = q.limits := q.limits_step (.add d)

/-- What the queue does not refuse for its bound is tested for repetitions only. -/
lemma add_of_open (h : d.isError → ¬ q.limitReached) :
    (q.add d).2 = if q.limits.deduplicate ∧ d ∈ q.diagnostics then q else q.push d := by
  rcases q.add_eq_cases d with ⟨⟨herror, hlimit⟩, -⟩ | ⟨-, hrepeated, hadd⟩ | ⟨-, hnew, hadd⟩
  · exact absurd hlimit (h herror)
  · rw [hadd, if_pos hrepeated]
  · rw [hadd, if_neg hnew]

/-- Adding an error to a full queue is what makes it drop one for its bound. -/
lemma suppressed_add_pos_iff :
    0 < (q.add d).2.suppressed ↔ 0 < q.suppressed ∨ d.isError ∧ q.limitReached := by
  rcases q.add_eq_cases d with ⟨hfull, h⟩ | ⟨hopen, -, h⟩ | ⟨hopen, -, h⟩
  · rw [h]
    exact iff_of_true (Nat.succ_pos _) (.inr hfull)
  · rw [h, or_iff_left fun hfull => hopen hfull.1 hfull.2]
  · rw [h, or_iff_left fun hfull => hopen hfull.1 hfull.2, push]

@[simp] lemma code_tooManyErrors (limit : Nat) : (tooManyErrors limit).code = .tooManyErrors := rfl

/-- A queue holds nothing but what it held before and the diagnostic that was added. -/
lemma of_mem_add {e : Diagnostic} (h : d ∈ (q.add e).2.diagnostics) :
    d ∈ q.diagnostics ∨ d = e := by
  rcases q.add_cases e with ⟨-, -, hadd⟩ | ⟨-, hadd⟩ | ⟨-, hadd⟩
  · rw [hadd] at h
    exact .inl h
  · rw [hadd] at h
    exact .inl h
  · rw [hadd] at h
    simpa [push] using h

/-- A queue holds nothing but what it held before and what was added. -/
lemma of_mem_addAll {ds : List Diagnostic} (h : d ∈ (q.addAll ds).diagnostics) :
    d ∈ q.diagnostics ∨ d ∈ ds := by
  induction ds generalizing q with
  | nil => exact .inl h
  | cons e ds ih =>
    rcases ih h with h | h
    · rcases of_mem_add h with h | rfl
      · exact .inl h
      · exact .inr List.mem_cons_self
    · exact .inr (List.mem_cons_of_mem e h)

/-- A listing shows what the queue holds and the closing error, if anything. -/
lemma of_mem_flush (h : d ∈ q.flush.1) :
    d ∈ q.diagnostics ∨ d = tooManyErrors q.limits.errorLimit := by
  rcases List.mem_append.mp h with h | h
  · exact .inl (List.mem_mergeSort.mp h)
  · split at h
    · exact .inr (List.mem_singleton.mp h)
    · cases h

/-! ## Whether there is an error -/

/-- The counts of a queue are right, and an error is dropped because of the bound only if there are
errors in the queue. -/
structure Tracked (q : Queue) : Prop extends q.Accounted where
  errorCount_pos : 0 < q.suppressed → 0 < q.errorCount

/-- A new queue is tracked. -/
lemma tracked_empty (limits : Limits) : ({ limits } : Queue).Tracked where
  toAccounted := accounted_empty limits
  errorCount_pos h := absurd h (Nat.lt_irrefl 0)

namespace Tracked

/-- Adding a diagnostic keeps a queue tracked. -/
lemma add (hq : q.Tracked) (d : Diagnostic) : (q.add d).2.Tracked where
  toAccounted := hq.toAccounted.add d
  errorCount_pos h := by
    rcases q.add_cases d with ⟨-, hlimit, hadd⟩ | ⟨-, hadd⟩ | ⟨-, hadd⟩
    · obtain ⟨hpos, hle⟩ := limitReached_iff.mp hlimit
      rw [hadd]
      exact Nat.lt_of_lt_of_le hpos hle
    · rw [hadd] at h ⊢
      exact hq.errorCount_pos h
    · rw [hadd] at h ⊢
      exact Nat.lt_of_lt_of_le (hq.errorCount_pos h) (Nat.le_add_right _ _)

/-- Adding diagnostics keeps a queue tracked. -/
lemma addAll (hq : q.Tracked) (ds : List Diagnostic) : (q.addAll ds).Tracked := by
  induction ds generalizing q with
  | nil => exact hq
  | cons d ds ih => exact ih (hq.add d)

/-- A queue counts an error after a diagnostic was added exactly if it did so before or the
diagnostic is an error, be it kept or dropped. -/
lemma errorCount_add_pos_iff (hq : q.Tracked) (d : Diagnostic) :
    0 < (q.add d).2.errorCount ↔ 0 < q.errorCount ∨ d.isError := by
  constructor
  · intro h
    rcases q.add_cases d with ⟨herror, -, -⟩ | ⟨-, hadd⟩ | ⟨-, hadd⟩
    · exact .inr herror
    · rw [hadd] at h
      exact .inl h
    · rw [hadd, push] at h
      cases herror : d.isError with
      | true => exact .inr rfl
      | false =>
        rw [herror] at h
        exact .inl h
  · rintro (h | h)
    · exact Nat.lt_of_lt_of_le h (errorCount_le_step (s := .add d) (by simp))
    · exact hq.errorCount_emitError_pos h

/-- A queue counts an error after diagnostics were added exactly if it did so before or there is an
error among them. -/
lemma errorCount_addAll_pos_iff (hq : q.Tracked) (ds : List Diagnostic) :
    0 < (q.addAll ds).errorCount ↔ 0 < q.errorCount ∨ ∃ d ∈ ds, d.isError := by
  induction ds generalizing q with
  | nil => simp
  | cons d ds ih => simp [ih (hq.add d), hq.errorCount_add_pos_iff d, or_assoc]

/-- A listing shows an error exactly if the queue counts one. The closing error does not show
without another one, since errors are dropped only if there are errors in the queue. -/
lemma exists_isError_mem_flush_iff (hq : q.Tracked) :
    (∃ d ∈ q.flush.1, d.isError) ↔ 0 < q.errorCount := by
  constructor
  · rintro ⟨d, hd, herror⟩
    rcases List.mem_append.mp hd with hd | hd
    · rw [hq.errorCount_eq]
      exact List.countP_pos_iff.mpr ⟨d, List.mem_mergeSort.mp hd, herror⟩
    · split at hd
      · exact hq.errorCount_pos ‹_›
      · cases hd
  · exact hq.exists_isError_mem_flush

end Tracked

/-! ## Queues with the same errors -/

/-- Two queues under the same limits hold the same errors in the same order, and they have dropped
equally many. -/
structure SameErrors (q q' : Queue) : Prop where
  limits_eq : q.limits = q'.limits
  errors_eq : q.diagnostics.filter (·.isError) = q'.diagnostics.filter (·.isError)
  errorCount_eq : q.errorCount = q'.errorCount
  suppressed_eq : q.suppressed = q'.suppressed

namespace SameErrors

/-- A queue has the same errors as itself. -/
lemma refl (q : Queue) : q.SameErrors q := ⟨rfl, rfl, rfl, rfl⟩

lemma symm (h : q.SameErrors q') : q'.SameErrors q :=
  ⟨h.limits_eq.symm, h.errors_eq.symm, h.errorCount_eq.symm, h.suppressed_eq.symm⟩

lemma trans {r : Queue} (h : q.SameErrors q') (h' : q'.SameErrors r) : q.SameErrors r :=
  ⟨h.limits_eq.trans h'.limits_eq, h.errors_eq.trans h'.errors_eq,
    h.errorCount_eq.trans h'.errorCount_eq, h.suppressed_eq.trans h'.suppressed_eq⟩

/-- A warning does not change the errors of a queue. -/
lemma add_of_not_isError (q : Queue) (hd : d.isError = false) : (q.add d).2.SameErrors q := by
  rcases q.add_cases d with ⟨herror, -, -⟩ | ⟨-, hadd⟩ | ⟨-, hadd⟩
  · rw [hd] at herror
    cases herror
  · rw [hadd]
    exact refl q
  · rw [hadd]
    exact ⟨rfl, by simp [push, hd], by simp [push, hd], rfl⟩

variable (h : q.SameErrors q')
include h

/-- An error is a repetition in both queues or in neither. -/
lemma mem_iff (hd : d.isError) : d ∈ q.diagnostics ↔ d ∈ q'.diagnostics := by
  have hmem : ∀ ds : List Diagnostic, d ∈ ds ↔ d ∈ ds.filter (·.isError) := by
    intro ds
    simp [hd]
  rw [hmem, h.errors_eq, ← hmem]

/-- An error finds the same fate in both queues. -/
lemma add (hd : d.isError) : (q.add d).2.SameErrors (q'.add d).2 := by
  have hlimit : q.limitReached = q'.limitReached := by
    simp [limitReached, h.limits_eq, h.errorCount_eq]
  have hrepeated : q.diagnostics.contains d = q'.diagnostics.contains d := by
    rw [Bool.eq_iff_iff, List.contains_iff_mem, List.contains_iff_mem]
    exact h.mem_iff hd
  have hfilter : q.limits.deduplicate = q'.limits.deduplicate := by rw [h.limits_eq]
  unfold Queue.add
  rw [hlimit, hrepeated, hfilter]
  split
  · exact ⟨h.limits_eq, h.errors_eq, h.errorCount_eq, by simp [h.suppressed_eq]⟩
  · split
    · exact h
    · exact ⟨h.limits_eq, by simp [push, h.errors_eq], by simp [push, h.errorCount_eq],
        h.suppressed_eq⟩

/-- Warnings may be left out of what is added.

**Proof sketch.** Induction on the diagnostics: an error finds the same fate in both queues, and a
warning does not change the errors of the one queue that receives it. -/
lemma addAll_filter (ds : List Diagnostic) :
    (q.addAll ds).SameErrors (q'.addAll (ds.filter (·.isError))) := by
  induction ds generalizing q q' with
  | nil => exact h
  | cons d ds ih =>
    cases hd : d.isError with
    | true =>
      rw [List.filter_cons_of_pos hd]
      exact ih (h.add hd)
    | false =>
      rw [List.filter_cons_of_neg (by simp [hd])]
      exact ih ((add_of_not_isError q hd).trans h)

/-- Queues that receive the same errors, among whatever warnings, keep the same errors. -/
lemma addAll {ds ds' : List Diagnostic}
    (hds : ds.filter (·.isError) = ds'.filter (·.isError)) :
    (q.addAll ds).SameErrors (q'.addAll ds') := by
  have hfirst := h.addAll_filter ds
  rw [hds] at hfirst
  exact hfirst.trans ((refl q').addAll_filter ds').symm

/-- Queues with the same errors list the same errors, the closing one included.

**Proof sketch.** Leaving out the warnings after sorting is leaving them out before. -/
lemma filter_flush : q.flush.1.filter (·.isError) = q'.flush.1.filter (·.isError) := by
  have hsort := filter_mergeSort Diagnostic.mayPrecede_trans Diagnostic.mayPrecede_total
    (·.isError)
  simp only [flush, List.filter_append, hsort, h.errors_eq, h.suppressed_eq, h.limits_eq]

end SameErrors

end Queue

end MapperDelegation
