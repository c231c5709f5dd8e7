import MapperDelegation.Proofs.Report.Errors

set_option relaxedAutoImplicit false
set_option autoImplicit false

/-!
# Journals of diagnostic queues

A queue decides about each diagnostic by its counts and by what it holds. The same decisions can be
told from a journal of what was added before: a diagnostic is dropped if an equal one was kept, and
an error also if as many errors as the bound allows came before it and were not repetitions. This
file keeps such a journal beside a queue and shows that the two agree, up to the next listing.

## Main definitions

* `Queue.Journal` — what was added to a queue since its last listing, with the answers.
* `Queue.Journal.Keeps` — whether a diagnostic is to be kept, by the journal alone.
* `Queue.Journal.Overflows` — an error was added when the bound was reached.
* `Queue.journal` — the journal after some operations.
* `Queue.Recorded` — a queue and its journal agree.

## Main results

* `Queue.Recorded.answer_iff` — the answer of a queue is the one that its journal tells.
* `Queue.Recorded.step`, `Queue.Recorded.run` — operations keep a queue and its journal in
  agreement.
* `Queue.flush_run` — what a listing shows after any sequence of operations.
-/

namespace MapperDelegation

namespace Queue

/-! ## Journals -/

/-- A diagnostic that was added, and the answer of the queue. -/
structure Entry where
  diagnostic : Diagnostic
  kept : Bool
deriving DecidableEq

/-- What was added to a queue since its last listing, the newest entry first. -/
abbrev Journal := List Entry

namespace Journal

/-- The diagnostics that were kept, in the order in which they were added. -/
def kept (j : Journal) : List Diagnostic := ((j.filter (·.kept)).map (·.diagnostic)).reverse

/-- The test for repetitions: nothing equal was kept earlier. Without the test everything passes. -/
def Passes (limits : Limits) (earlier : Journal) (d : Diagnostic) : Prop :=
  limits.deduplicate → d ∉ earlier.kept

instance (limits : Limits) (earlier : Journal) (d : Diagnostic) :
    Decidable (Passes limits earlier d) :=
  inferInstanceAs (Decidable (limits.deduplicate → d ∉ earlier.kept))

/-- The number of errors that passed the test for repetitions, whether or not they were kept. -/
def passedErrors (limits : Limits) : Journal → Nat
  | [] => 0
  | e :: earlier => passedErrors limits earlier +
      if e.diagnostic.isError ∧ Passes limits earlier e.diagnostic then 1 else 0

/-- Whether a diagnostic is to be kept: it passes the test for repetitions, and if it is an error
under a bound, it is one of the first errors up to the bound that pass this test. -/
def Keeps (limits : Limits) (earlier : Journal) (d : Diagnostic) : Prop :=
  Passes limits earlier d ∧
    (d.isError → 0 < limits.errorLimit → passedErrors limits earlier < limits.errorLimit)

/-- An error was added when the queue held as many errors as the bound allows. -/
def Overflows (limits : Limits) (j : Journal) : Prop :=
  ∃ e earlier, e :: earlier <:+ j ∧ e.diagnostic.isError ∧
    0 < limits.errorLimit ∧ limits.errorLimit ≤ (kept earlier).countP (·.isError)

lemma kept_cons (e : Entry) (j : Journal) :
    kept (e :: j) = j.kept ++ if e.kept then [e.diagnostic] else [] := by
  cases h : e.kept <;> simp [kept, h]

lemma not_overflows_nil (limits : Limits) : ¬ Overflows limits [] := by
  rintro ⟨e, earlier, hsuffix, -⟩
  simp at hsuffix

/-- The newest entry overflows the journal, or an earlier one did. -/
lemma overflows_cons_iff {limits : Limits} {e : Entry} {j : Journal} :
    Overflows limits (e :: j) ↔
      (e.diagnostic.isError ∧ 0 < limits.errorLimit ∧
        limits.errorLimit ≤ j.kept.countP (·.isError)) ∨ Overflows limits j := by
  simp only [Overflows, List.suffix_cons_iff, List.cons.injEq]
  constructor
  · rintro ⟨e', earlier, ⟨rfl, rfl⟩ | hsuffix, hfull⟩
    · exact .inl hfull
    · exact .inr ⟨e', earlier, hsuffix, hfull⟩
  · rintro (hfull | ⟨e', earlier, hsuffix, hfull⟩)
    · exact ⟨e, j, .inl ⟨rfl, rfl⟩, hfull⟩
    · exact ⟨e', earlier, .inr hsuffix, hfull⟩

end Journal

/-- The journal after an operation on the queue `q`. Adding a diagnostic enters the answer of the
queue, and a listing begins a new journal. -/
def note (q : Queue) (j : Journal) : Step → Journal
  | .add d => ⟨d, (q.add d).1⟩ :: j
  | .emitError d _ => ⟨d, (q.add d).1⟩ :: j
  | .peek => j
  | .flush => []

/-- The journal after some operations. -/
def journal (q : Queue) (j : Journal) : List Step → Journal
  | [] => j
  | s :: steps => (q.step s).journal (q.note j s) steps

/-- The diagnostics that were added since the last listing, the newest one first, if some operations
follow after `ds` was added. -/
def addedSince (ds : List Diagnostic) : List Step → List Diagnostic
  | [] => ds
  | .add d :: steps => addedSince (d :: ds) steps
  | .emitError d _ :: steps => addedSince (d :: ds) steps
  | .peek :: steps => addedSince ds steps
  | .flush :: steps => addedSince [] steps

/-- A journal leaves out nothing that was added. -/
lemma map_diagnostic_journal (q : Queue) (j : Journal) (steps : List Step) :
    (q.journal j steps).map (·.diagnostic) = addedSince (j.map (·.diagnostic)) steps := by
  induction steps generalizing q j with
  | nil => rfl
  | cons s steps ih => cases s <;> exact ih _ _

/-! ## Agreement of a queue with its journal -/

/-- A queue with right counts and the journal of what was added to it agree on what is kept and on
whether errors were dropped because of the bound. -/
structure Recorded (q : Queue) (j : Journal) : Prop extends q.Accounted where
  diagnostics_eq : q.diagnostics = j.kept
  /-- Under a bound the first errors that pass the test for repetitions are the ones held. -/
  errorCount_eq_min : 0 < q.limits.errorLimit →
    q.errorCount = min q.limits.errorLimit (j.passedErrors q.limits)
  kept_iff : ∀ e earlier, e :: earlier <:+ j →
    (e.kept ↔ Journal.Keeps q.limits earlier e.diagnostic)
  suppressed_pos_iff : 0 < q.suppressed ↔ j.Overflows q.limits

variable {q : Queue} {j : Journal}

/-- A new queue agrees with an empty journal. -/
lemma recorded_empty (limits : Limits) : ({ limits } : Queue).Recorded [] where
  toAccounted := accounted_empty limits
  diagnostics_eq := rfl
  errorCount_eq_min _ := (Nat.min_zero _).symm
  kept_iff e earlier h := by simp at h
  suppressed_pos_iff := iff_of_false (Nat.lt_irrefl 0) (Journal.not_overflows_nil limits)

namespace Recorded

variable (h : q.Recorded j)
include h

lemma passes_iff (d : Diagnostic) :
    j.Passes q.limits d ↔ ¬ (q.limits.deduplicate ∧ d ∈ q.diagnostics) := by
  rw [Journal.Passes, h.diagnostics_eq, not_and]

/-- The bound is reached when the journal has as many errors that passed the test. -/
lemma limitReached_iff : q.limitReached ↔
    0 < q.limits.errorLimit ∧ q.limits.errorLimit ≤ j.passedErrors q.limits := by
  rw [Queue.limitReached_iff]
  refine and_congr_right fun hpos => ?_
  rw [h.errorCount_eq_min hpos]
  omega

/-- A queue keeps what is to be kept by its journal. -/
lemma answer_iff (d : Diagnostic) : (q.add d).1 ↔ j.Keeps q.limits d := by
  have hopen_iff : (d.isError → ¬ q.limitReached) ↔ (d.isError → 0 < q.limits.errorLimit →
      j.passedErrors q.limits < q.limits.errorLimit) := by
    rw [h.limitReached_iff]
    refine imp_congr_right fun _ => ?_
    rw [not_and, Nat.not_le]
  rw [Journal.Keeps, h.passes_iff, ← hopen_iff]
  rcases q.add_eq_cases d with ⟨hfull, hadd⟩ | ⟨-, hrepeated, hadd⟩ | ⟨hopen, hnew, hadd⟩
  · rw [hadd]
    exact iff_of_false Bool.false_ne_true fun hkeeps => hkeeps.2 hfull.1 hfull.2
  · rw [hadd]
    exact iff_of_false Bool.false_ne_true fun hkeeps => hkeeps.1 hrepeated
  · rw [hadd]
    exact iff_of_true rfl ⟨hnew, hopen⟩

/-- The queue and the journal append what is kept. -/
lemma diagnostics_add (d : Diagnostic) :
    (q.add d).2.diagnostics = Journal.kept (⟨d, (q.add d).1⟩ :: j) := by
  rw [Journal.kept_cons, ← h.diagnostics_eq]
  rcases q.add_eq_cases d with ⟨-, hadd⟩ | ⟨-, -, hadd⟩ | ⟨-, -, hadd⟩
  · simp [hadd]
  · simp [hadd]
  · simp [hadd, push]

/-- The queue counts the errors that pass the test for repetitions until the bound is reached. -/
lemma errorCount_add (d : Diagnostic) (hpos : 0 < q.limits.errorLimit) :
    (q.add d).2.errorCount =
      min q.limits.errorLimit (Journal.passedErrors q.limits (⟨d, (q.add d).1⟩ :: j)) := by
  have hcount := h.errorCount_eq_min hpos
  rcases q.add_eq_cases d with ⟨hfull, hadd⟩ | ⟨-, hrepeated, hadd⟩ | ⟨hopen, hnew, hadd⟩
  -- a full queue does not count, whether or not the error passes the test
  · have hle := (h.limitReached_iff.mp hfull.2).2
    simp only [hadd, Journal.passedErrors]
    omega
  · have hpasses : ¬ j.Passes q.limits d := fun hpasses => (h.passes_iff d).mp hpasses hrepeated
    rw [hadd, Journal.passedErrors, if_neg fun h => hpasses h.2, Nat.add_zero]
    exact hcount
  · have hpasses : j.Passes q.limits d := (h.passes_iff d).mpr hnew
    rw [hadd, Journal.passedErrors]
    simp only [push, hpasses, and_true]
    cases herror : d.isError with
    | false => simpa using hcount
    | true =>
      have hlt : ¬ (0 < q.limits.errorLimit ∧ q.limits.errorLimit ≤ q.errorCount) := by
        rw [← Queue.limitReached_iff]
        exact hopen herror
      simp only [Bool.toNat_true, if_true]
      omega

/-- The queue counts dropped errors when the journal overflows. -/
lemma suppressed_add_pos_iff (d : Diagnostic) : 0 < (q.add d).2.suppressed ↔
    Journal.Overflows q.limits (⟨d, (q.add d).1⟩ :: j) := by
  rw [Journal.overflows_cons_iff, ← h.suppressed_pos_iff, ← h.diagnostics_eq, ← h.errorCount_eq,
    ← Queue.limitReached_iff, Queue.suppressed_add_pos_iff, or_comm]

/-- Adding a diagnostic and entering the answer keeps the agreement. -/
lemma add (d : Diagnostic) : (q.add d).2.Recorded (⟨d, (q.add d).1⟩ :: j) where
  toAccounted := h.toAccounted.add d
  diagnostics_eq := h.diagnostics_add d
  errorCount_eq_min := by
    rw [limits_add]
    exact h.errorCount_add d
  kept_iff e earlier hsuffix := by
    rw [limits_add]
    rcases List.suffix_cons_iff.mp hsuffix with heq | hsuffix
    · obtain ⟨rfl, rfl⟩ := List.cons.inj heq
      exact h.answer_iff d
    · exact h.kept_iff e earlier hsuffix
  suppressed_pos_iff := by
    rw [limits_add]
    exact h.suppressed_add_pos_iff d

/-- Every operation keeps a queue and its journal in agreement. -/
lemma step (s : Step) : (q.step s).Recorded (q.note j s) := by
  cases s with
  | add d => exact h.add d
  | emitError d _ => exact h.add d
  | peek => exact h
  | flush => exact recorded_empty q.limits

/-- Operations keep a queue and its journal in agreement. -/
lemma run (steps : List Step) : (q.run steps).Recorded (q.journal j steps) := by
  induction steps generalizing q j with
  | nil => exact h
  | cons s steps ih => exact ih (h.step s)

/-- A listing shows the diagnostics that the journal keeps in the order of places, and closes with
an error if the journal overflows. -/
lemma exists_flush_eq : ∃ listing, Diagnostic.SortedByPlace j.kept listing ∧
    (j.Overflows q.limits → q.flush.1 = listing ++ [tooManyErrors q.limits.errorLimit]) ∧
    (¬ j.Overflows q.limits → q.flush.1 = listing) := by
  refine ⟨q.diagnostics.mergeSort Diagnostic.mayPrecede, ?_, fun hover => ?_, fun hover => ?_⟩
  · rw [← h.diagnostics_eq]
    exact Diagnostic.sortedByPlace_mergeSort q.diagnostics
  · rw [flush, if_pos (h.suppressed_pos_iff.mpr hover)]
  · rw [flush, if_neg fun hpos => hover (h.suppressed_pos_iff.mp hpos), List.append_nil]

end Recorded

/-! ## Listings -/

/-- **What a listing shows**: after any sequence of operations on a new queue, the journal has all
that was added since the last listing, and the answers to it are those that follow from the earlier
entries alone. The next listing shows the diagnostics that were kept, in the order of places, and
closes with an error exactly if one was added when the bound was reached.

**Proof sketch.** Induction on the sequence, with the agreement of the queue and its journal as the
invariant. As long as the bound is not reached, the errors held are all that passed the test for
repetitions, and later their number is the bound. -/
theorem flush_run (limits : Limits) (steps : List Step) :
    (({ limits } : Queue).journal [] steps).map (·.diagnostic) = addedSince [] steps ∧
      (∀ e earlier, e :: earlier <:+ ({ limits } : Queue).journal [] steps →
        (e.kept ↔ Journal.Keeps limits earlier e.diagnostic)) ∧
      ∃ listing,
        Diagnostic.SortedByPlace (({ limits } : Queue).journal [] steps).kept listing ∧
        ((({ limits } : Queue).journal [] steps).Overflows limits →
          (({ limits } : Queue).run steps).flush.1 =
            listing ++ [tooManyErrors limits.errorLimit]) ∧
        (¬ (({ limits } : Queue).journal [] steps).Overflows limits →
          (({ limits } : Queue).run steps).flush.1 = listing) := by
  have hrecorded := (recorded_empty limits).run steps
  have hkept := hrecorded.kept_iff
  have hflush := hrecorded.exists_flush_eq
  rw [limits_run] at hkept hflush
  exact ⟨map_diagnostic_journal _ _ _, hkept, hflush⟩

/-- After a listing the queue keeps an error that was kept before it. The warning is a repetition,
and the second error is beyond the bound. -/
example : ({ limits := { errorLimit := 1 } } : Queue).journal []
    [.add (.error .hasBody), .flush, .add (.warning .ambiguous), .add (.error .hasBody),
      .add (.warning .ambiguous), .add (.error .noDelegate)] =
    [⟨.error .noDelegate, false⟩, ⟨.warning .ambiguous, false⟩, ⟨.error .hasBody, true⟩,
      ⟨.warning .ambiguous, true⟩] := by
  decide +kernel

end Queue

end MapperDelegation
