import Mathlib.Tactic.Lemma
import MapperDelegation.Report.Queue

set_option relaxedAutoImplicit false
set_option autoImplicit false

/-!
# Accounting of diagnostic queues

The evidence of an error that a queue gives out does not depend on whether the error was kept. It is
sound because both filters presuppose an error in the queue: a repetition is equal to a diagnostic
in it, and the bound on errors is reached by errors only. This file follows the counts of a queue
through any sequence of operations.

## Main definitions

* `Queue.Step`, `Queue.step`, `Queue.run` — operations on a queue, one and several.
* `Queue.Accounted` — the counts of a queue are those of its diagnostics and keep to the bound.
* `Queue.Owing` — an error was emitted since the last listing.

## Main results

* `Queue.add_eq_cases`, `Queue.add_cases` — what adding a diagnostic can do.
* `Queue.Accounted.step` — every operation keeps the accounts.
* `Queue.accounted_run` — after any sequence of operations the counts are right, and an error that
  was emitted since the last listing shows.
-/

namespace MapperDelegation

namespace Queue

/-! ## Operations -/

/-- An operation on a queue. -/
inductive Step where
  | add (d : Diagnostic)
  | emitError (d : Diagnostic) (h : d.isError)
  /-- Looking at the diagnostics held. -/
  | peek
  | flush

/-- The queue after an operation. -/
def step (q : Queue) : Step → Queue
  | .add d => (q.add d).2
  | .emitError d _ => (q.emitError d).2
  | .peek => q
  | .flush => q.flush.2

/-- The queue after some operations. -/
def run (q : Queue) (steps : List Step) : Queue := steps.foldl step q

/-- After these operations an error has been emitted since the last listing. -/
def Owing (steps : List Step) : Prop :=
  ∃ before d h after, steps = before ++ .emitError d h :: after ∧ .flush ∉ after

/-- The counts of a queue are those of its diagnostics, and the bound on errors is kept. -/
structure Accounted (q : Queue) : Prop where
  errorCount_eq : q.errorCount = q.diagnostics.countP (·.isError)
  warningCount_eq : q.warningCount = q.diagnostics.countP (·.isWarning)
  errorCount_le : q.limits.errorLimit ≠ 0 → q.errorCount ≤ q.limits.errorLimit

variable {q : Queue} {d : Diagnostic}

/-! ## Single operations -/

/-- The bound is reached when it is there and the errors come up to it. -/
lemma limitReached_iff :
    q.limitReached ↔ 0 < q.limits.errorLimit ∧ q.limits.errorLimit ≤ q.errorCount := by
  simp [limitReached]

/-- What adding a diagnostic answers and what it leaves. The bound is tried first, and repetitions
are looked for only if it does not apply. -/
lemma add_eq_cases (q : Queue) (d : Diagnostic) :
    ((d.isError ∧ q.limitReached) ∧ q.add d = (false, { q with suppressed := q.suppressed + 1 })) ∨
    ((d.isError → ¬ q.limitReached) ∧ (q.limits.deduplicate ∧ d ∈ q.diagnostics) ∧
      q.add d = (false, q)) ∨
    ((d.isError → ¬ q.limitReached) ∧ ¬ (q.limits.deduplicate ∧ d ∈ q.diagnostics) ∧
      q.add d = (true, q.push d)) := by
  have hrepeated : (q.limits.deduplicate && q.diagnostics.contains d) ↔
      q.limits.deduplicate ∧ d ∈ q.diagnostics := by
    rw [Bool.and_eq_true, List.contains_iff_mem]
  by_cases hfull : d.isError ∧ q.limitReached
  · exact .inl ⟨hfull, if_pos (Bool.and_eq_true_iff.mpr hfull)⟩
  · have hopen : q.add d =
        if q.limits.deduplicate && q.diagnostics.contains d then (false, q) else (true, q.push d) :=
      if_neg fun h => hfull (Bool.and_eq_true_iff.mp h)
    by_cases hdup : q.limits.deduplicate ∧ d ∈ q.diagnostics
    · refine .inr (.inl ⟨fun herror hlimit => hfull ⟨herror, hlimit⟩, hdup, ?_⟩)
      rw [hopen, if_pos (hrepeated.mpr hdup)]
    · refine .inr (.inr ⟨fun herror hlimit => hfull ⟨herror, hlimit⟩, hdup, ?_⟩)
      rw [hopen, if_neg fun h => hdup (hrepeated.mp h)]

/-- **What adding a diagnostic can do**: an error beyond the bound is only counted as dropped, a
repetition changes nothing, and anything else is appended. -/
theorem add_cases (q : Queue) (d : Diagnostic) :
    (d.isError ∧ q.limitReached ∧ (q.add d).2 = { q with suppressed := q.suppressed + 1 }) ∨
    (d ∈ q.diagnostics ∧ (q.add d).2 = q) ∨
    ((d.isError → ¬ q.limitReached) ∧ (q.add d).2 = q.push d) := by
  rcases q.add_eq_cases d with ⟨⟨herror, hlimit⟩, h⟩ | ⟨-, ⟨-, hmem⟩, h⟩ | ⟨hopen, -, h⟩
  · exact .inl ⟨herror, hlimit, congrArg Prod.snd h⟩
  · exact .inr (.inl ⟨hmem, congrArg Prod.snd h⟩)
  · exact .inr (.inr ⟨hopen, congrArg Prod.snd h⟩)

/-- A new queue is accounted. -/
lemma accounted_empty (limits : Limits) : ({ limits } : Queue).Accounted where
  errorCount_eq := rfl
  warningCount_eq := rfl
  errorCount_le _ := Nat.zero_le _

namespace Accounted

variable (hq : q.Accounted)
include hq

/-- Adding a diagnostic keeps the accounts. -/
lemma add (d : Diagnostic) : (q.add d).2.Accounted := by
  rcases q.add_cases d with ⟨-, -, h⟩ | ⟨-, h⟩ | ⟨hbound, h⟩
  · rw [h]
    exact ⟨hq.errorCount_eq, hq.warningCount_eq, hq.errorCount_le⟩
  · rwa [h]
  · rw [h]
    refine ⟨?_, ?_, ?_⟩
    · simp only [push, List.countP_append, List.countP_singleton, hq.errorCount_eq]
      cases d.isError <;> rfl
    · simp only [push, List.countP_append, List.countP_singleton, hq.warningCount_eq]
      cases d.isWarning <;> rfl
    -- an error is appended only below the bound, so one more does not exceed it
    · intro hlimit
      have hle := hq.errorCount_le hlimit
      simp only [push]
      cases herror : d.isError with
      | false => simpa using hle
      | true =>
        have hopen : ¬ (0 < q.limits.errorLimit ∧ q.limits.errorLimit ≤ q.errorCount) := by
          rw [← limitReached_iff]
          exact hbound herror
        simp only [Bool.toNat_true, push] at hlimit ⊢
        omega

/-- Every operation keeps the accounts. -/
lemma step (s : Step) : (q.step s).Accounted := by
  cases s with
  | add d => exact hq.add d
  | emitError d _ => exact hq.add d
  | peek => exact hq
  | flush => exact accounted_empty q.limits

/-- Operations keep the accounts. -/
lemma run (steps : List Step) : (q.run steps).Accounted := by
  induction steps generalizing q with
  | nil => exact hq
  | cons s steps ih => exact ih (hq.step s)

/-- The queue holds errors and warnings only. -/
lemma size_eq : q.size = q.errorCount + q.warningCount := by
  have hwarning : q.diagnostics.countP (·.isWarning) =
      q.diagnostics.countP fun d => ¬ d.isError := by
    apply List.countP_congr
    intro d _
    simp [d.isWarning_eq_not_isError]
  rw [hq.errorCount_eq, hq.warningCount_eq, hwarning, size]
  exact List.length_eq_countP_add_countP _

/-- After an error was emitted, the queue holds an error. -/
lemma errorCount_emitError_pos (h : d.isError) : 0 < (q.emitError d).2.errorCount := by
  rw [emitError]
  rcases q.add_cases d with ⟨-, hlimit, hadd⟩ | ⟨hmem, hadd⟩ | ⟨-, hadd⟩
  -- a bound of zero is no bound, so one that is reached was reached by some error
  · obtain ⟨hpos, hle⟩ := limitReached_iff.mp hlimit
    rw [hadd]
    exact Nat.lt_of_lt_of_le hpos hle
  · rw [hadd, hq.errorCount_eq]
    exact List.countP_pos_iff.mpr ⟨d, hmem, h⟩
  · rw [hadd]
    simp [push, h]

/-- A listing shows an error if the queue counts one. -/
lemma exists_isError_mem_flush (h : 0 < q.errorCount) : ∃ e ∈ q.flush.1, e.isError := by
  rw [hq.errorCount_eq] at h
  obtain ⟨e, he, herror⟩ := List.countP_pos_iff.mp h
  exact ⟨e, List.mem_append_left _ (List.mem_mergeSort.mpr he), herror⟩

end Accounted

/-! ## Sequences of operations -/

/-- Operations leave the limits of a queue as they are. -/
lemma limits_step (q : Queue) (s : Step) : (q.step s).limits = q.limits := by
  have hadd : ∀ d, (q.add d).2.limits = q.limits := by
    intro d
    rcases q.add_cases d with ⟨-, -, h⟩ | ⟨-, h⟩ | ⟨-, h⟩
    · rw [h]
    · rw [h]
    · rw [h]
      rfl
  cases s with
  | add d => exact hadd d
  | emitError d _ => exact hadd d
  | peek => rfl
  | flush => rfl

/-- Sequences of operations leave the limits of a queue as they are. -/
lemma limits_run (q : Queue) (steps : List Step) : (q.run steps).limits = q.limits := by
  induction steps generalizing q with
  | nil => rfl
  | cons s steps ih => exact (ih (q.step s)).trans (q.limits_step s)

/-- Only a listing takes errors out of a queue. -/
lemma errorCount_le_step {s : Step} (hs : s ≠ .flush) : q.errorCount ≤ (q.step s).errorCount := by
  have hadd : ∀ d, q.errorCount ≤ (q.add d).2.errorCount := by
    intro d
    rcases q.add_cases d with ⟨-, -, h⟩ | ⟨-, h⟩ | ⟨-, h⟩
    · exact Nat.le_of_eq (congrArg errorCount h).symm
    · exact Nat.le_of_eq (congrArg errorCount h).symm
    · rw [h]
      exact Nat.le_add_right _ _
  cases s with
  | add d => exact hadd d
  | emitError d _ => exact hadd d
  | peek => exact Nat.le_refl _
  | flush => exact absurd rfl hs

/-- Errors stay in a queue up to the next listing. -/
lemma errorCount_le_run {steps : List Step} (h : .flush ∉ steps) :
    q.errorCount ≤ (q.run steps).errorCount := by
  induction steps generalizing q with
  | nil => exact Nat.le_refl _
  | cons s steps ih =>
    have hs : s ≠ .flush := by
      intro hs
      apply h
      rw [hs]
      exact List.mem_cons_self
    have hsteps : .flush ∉ steps := by
      intro hmem
      apply h
      exact List.mem_cons_of_mem s hmem
    exact Nat.le_trans (errorCount_le_step hs) (ih hsteps)

/-- An error that was emitted since the last listing is still counted.

**Proof sketch.** The sequence is cut at the error. Right after it the queue holds an error, since
either filter presupposes one, and what follows takes none away. -/
lemma errorCount_run_pos {steps : List Step} (hq : q.Accounted) (h : Owing steps) :
    0 < (q.run steps).errorCount := by
  obtain ⟨before, d, herror, after, rfl, hafter⟩ := h
  have hpos := (hq.run before).errorCount_emitError_pos herror
  rw [run, List.foldl_append]
  exact Nat.lt_of_lt_of_le hpos (errorCount_le_run hafter)

/-- **No evidence without an error**: after any sequence of operations on a new queue the counts are
those of the diagnostics held and the bound on errors is kept. If an error was emitted since the
last listing, whether or not a filter dropped it, the queue gives evidence of an error and the next
listing shows one.

**Proof sketch.** Induction on the sequence, with the accounts as the invariant. An error that was
emitted finds or leaves an error in the queue, and only a listing takes errors out. -/
theorem accounted_run (limits : Limits) (steps : List Step) :
    (({ limits } : Queue).run steps).Accounted ∧
      (({ limits } : Queue).run steps).limits = limits ∧
      (({ limits } : Queue).run steps).size = (({ limits } : Queue).run steps).errorCount +
        (({ limits } : Queue).run steps).warningCount ∧
      (Owing steps → (({ limits } : Queue).run steps).hasErrors = some {} ∧
        ∃ d ∈ (({ limits } : Queue).run steps).flush.1, d.isError) := by
  have hnew := accounted_empty limits
  have hq := hnew.run steps
  refine ⟨hq, limits_run _ steps, hq.size_eq, ?_⟩
  intro howing
  have hpos := errorCount_run_pos hnew howing
  constructor
  · rw [hasErrors, Guarantee.ofErrorCount?, if_pos hpos]
  · exact hq.exists_isError_mem_flush hpos

/-- Two errors after a listing, the second one beyond a bound of one error. -/
def Step.overflowing : List Step := [
  .emitError (.error .noDelegate) rfl,
  .flush,
  .emitError (.error .hasBody) rfl,
  .emitError (.error .noDelegate) rfl,
  .peek]

/-- The second error is dropped, and evidence of it is given all the same. -/
theorem accounted_run_overflowing :
    Owing Step.overflowing ∧
      (({ limits := { errorLimit := 1 } } : Queue).run Step.overflowing).size = 1 ∧
      (({ limits := { errorLimit := 1 } } : Queue).run Step.overflowing).hasErrors = some {} := by
  have howing : Owing Step.overflowing :=
    ⟨[.emitError (.error .noDelegate) rfl, .flush, .emitError (.error .hasBody) rfl], _, rfl,
      [.peek], rfl, by simp⟩
  obtain ⟨-, -, -, hevidence⟩ := accounted_run { errorLimit := 1 } Step.overflowing
  exact ⟨howing, by decide +kernel, (hevidence howing).1⟩

end Queue

end MapperDelegation
