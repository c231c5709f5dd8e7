import Mathlib.Data.List.Nodup
import Mathlib.Data.List.Perm.Basic
import MapperDelegation.Proofs.Report.Errors

set_option relaxedAutoImplicit false
set_option autoImplicit false

/-!
# Queues without a bound on errors

Without a bound the only diagnostics that a queue drops are repetitions, and only if it is told to.
What it holds in the end is then a matter of what was added, but for the order: the queue keeps
all that was added, or each diagnostic once, whichever came first. Listings put both in the order of
places.

## Main definitions

* `Queue.Unbounded` — a queue without a bound, which has dropped nothing but repetitions.
* `Diagnostic.Ascending` — diagnostics whose places follow each other.

## Main results

* `Queue.Unbounded.diagnostics_addAll` — a queue that keeps repetitions appends all that is added.
* `Queue.Unbounded.mem_addAll_iff` — no diagnostic is lost altogether.
* `Queue.Unbounded.addAll_eq_self` — repetitions may leave a queue as it is.
* `Queue.Unbounded.perm_addAll` — what is added in another order is held in another order.
* `Queue.Unbounded.ascending_flush` — listings follow the order of places.
-/

namespace MapperDelegation

/-! ## Places in order -/

/-- All the diagnostics have places, and these follow each other in the order by start, then by
end. -/
def Diagnostic.Ascending (ds : List Diagnostic) : Prop :=
  ∃ spans : List Span, ds.map (·.primarySpan) = spans.map some ∧
    spans.Pairwise fun s t => s.start < t.start ∨ s.start = t.start ∧ s.stop ≤ t.stop

/-- Sorting puts diagnostics that have places in the order of these. -/
lemma Diagnostic.ascending_mergeSort {ds : List Diagnostic}
    (h : ∀ d ∈ ds, ∃ s, d.primarySpan = some s) : Ascending (ds.mergeSort mayPrecede) := by
  have hplace : ∀ d ∈ ds.mergeSort mayPrecede,
      d.primarySpan = some (d.primarySpan.getD .unknown) := by
    intro d hd
    obtain ⟨s, hs⟩ := h d (List.mem_mergeSort.mp hd)
    simp [hs]
  refine ⟨(ds.mergeSort mayPrecede).map fun d => d.primarySpan.getD .unknown, ?_, ?_⟩
  · rw [List.map_map]
    exact List.map_congr_left hplace
  · rw [List.pairwise_map]
    refine (List.pairwise_mergeSort mayPrecede_trans mayPrecede_total ds).imp_of_mem ?_
    intro d e hd he hde
    obtain ⟨s, hs, hle⟩ := mayPrecede_iff.mp hde _ (hplace e he)
    rw [hs]
    exact Span.le_iff.mp hle

namespace Queue

variable {q : Queue} {d : Diagnostic} {ds ds' : List Diagnostic}

/-- Adding diagnostics leaves the limits of a queue as they are. -/
@[simp] lemma limits_addAll : (q.addAll ds).limits = q.limits := by
  induction ds generalizing q with
  | nil => rfl
  | cons d ds ih => exact ih.trans limits_add

/-- Two queues with right counts that hold the same diagnostics, in whatever order, both give
evidence of an error or neither does. -/
lemma Accounted.hasErrors_eq_of_perm {q' : Queue} (hq : q.Accounted) (hq' : q'.Accounted)
    (h : q.diagnostics.Perm q'.diagnostics) : q.hasErrors = q'.hasErrors := by
  rw [hasErrors, hasErrors, hq.errorCount_eq, hq'.errorCount_eq, h.countP_eq]

/-! ## No bound -/

/-- A queue without a bound on errors. It has dropped no error because of the bound, and it holds
nothing twice if it drops repetitions. -/
structure Unbounded (q : Queue) : Prop where
  errorLimit_eq : q.limits.errorLimit = 0
  suppressed_eq : q.suppressed = 0
  nodup : q.limits.deduplicate → q.diagnostics.Nodup

/-- A new queue has not dropped anything. -/
lemma unbounded_empty {limits : Limits} (h : limits.errorLimit = 0) :
    ({ limits } : Queue).Unbounded where
  errorLimit_eq := h
  suppressed_eq := rfl
  nodup _ := List.nodup_nil

namespace Unbounded

variable (hq : q.Unbounded)
include hq

/-- A repetition is dropped if the queue is told to, and anything else is appended. -/
lemma add_eq (d : Diagnostic) :
    (q.add d).2 = if q.limits.deduplicate ∧ d ∈ q.diagnostics then q else q.push d :=
  add_of_open fun _ => by simp [limitReached, hq.errorLimit_eq]

/-- Adding a diagnostic drops nothing but a repetition. -/
lemma add (d : Diagnostic) : (q.add d).2.Unbounded := by
  rw [hq.add_eq]
  split
  · exact hq
  · next hnew =>
    refine ⟨hq.errorLimit_eq, hq.suppressed_eq, fun hdedup => ?_⟩
    have hfresh : d ∉ q.diagnostics := fun hmem => hnew ⟨hdedup, hmem⟩
    simpa [push] using (hq.nodup hdedup).concat hfresh

/-- Adding diagnostics drops nothing but repetitions. -/
lemma addAll (ds : List Diagnostic) : (q.addAll ds).Unbounded := by
  induction ds generalizing q with
  | nil => exact hq
  | cons d ds ih => exact ih (hq.add d)

/-- The queue holds what it held before, and the diagnostic that was added. -/
lemma mem_add_iff {e : Diagnostic} : e ∈ (q.add d).2.diagnostics ↔ e ∈ q.diagnostics ∨ e = d := by
  rw [hq.add_eq]
  split
  · next h => exact ⟨.inl, fun he => he.elim id fun he => he ▸ h.2⟩
  · simp [push]

/-- The queue holds what it held before, and the diagnostics that were added. -/
lemma mem_addAll_iff : d ∈ (q.addAll ds).diagnostics ↔ d ∈ q.diagnostics ∨ d ∈ ds := by
  induction ds generalizing q with
  | nil => simp
  | cons e ds ih => rw [addAll_cons, ih (hq.add e), hq.mem_add_iff, List.mem_cons, or_assoc]

/-- A queue that keeps repetitions appends the diagnostics that are added. -/
lemma diagnostics_addAll (hkeep : q.limits.deduplicate = false) :
    (q.addAll ds).diagnostics = q.diagnostics ++ ds := by
  induction ds generalizing q with
  | nil => simp
  | cons d ds ih =>
    have hadd : (q.add d).2 = q.push d := by simp [hq.add_eq, hkeep]
    rw [addAll_cons, ih (hq.add d) (by rw [hadd]; exact hkeep), hadd]
    simp [push]

/-- Adding what a queue without repetitions holds already leaves it as it is. -/
lemma addAll_eq_self (hdedup : q.limits.deduplicate) (h : ds ⊆ q.diagnostics) :
    q.addAll ds = q := by
  induction ds with
  | nil => rfl
  | cons d ds ih =>
    rw [List.cons_subset] at h
    have hadd : (q.add d).2 = q := by rw [hq.add_eq, if_pos ⟨hdedup, h.1⟩]
    rw [addAll_cons, hadd, ih h.2]

/-- What a queue without repetitions holds depends, but for the order, on which diagnostics are
added, and not on how often. -/
lemma perm_addAll_of_mem_iff (hdedup : q.limits.deduplicate) (h : ∀ d, d ∈ ds ↔ d ∈ ds') :
    (q.addAll ds).diagnostics.Perm (q.addAll ds').diagnostics := by
  have hnodup : ∀ es, (q.addAll es).diagnostics.Nodup := by
    intro es
    apply (hq.addAll es).nodup
    rwa [limits_addAll]
  rw [List.perm_ext_iff_of_nodup (hnodup ds) (hnodup ds')]
  intro d
  rw [hq.mem_addAll_iff, hq.mem_addAll_iff, h d]

/-- Diagnostics that are added in another order are held in another order.

**Proof sketch.** A queue that keeps repetitions holds a list of all that was added. One that drops
them holds each diagnostic once, and which ones it holds does not depend on the order. -/
lemma perm_addAll (h : ds.Perm ds') :
    (q.addAll ds).diagnostics.Perm (q.addAll ds').diagnostics := by
  cases hdedup : q.limits.deduplicate with
  | false =>
    rw [hq.diagnostics_addAll hdedup, hq.diagnostics_addAll hdedup]
    exact h.append_left _
  | true => exact hq.perm_addAll_of_mem_iff hdedup fun _ => h.mem_iff

/-- A listing shows what the queue holds, and nothing else. -/
lemma flush_eq : q.flush.1 = q.diagnostics.mergeSort Diagnostic.mayPrecede := by
  simp [flush, hq.suppressed_eq]

/-- A listing is a reordering of what the queue holds. -/
lemma perm_flush : q.flush.1.Perm q.diagnostics := by
  rw [hq.flush_eq]
  exact List.mergeSort_perm _ _

/-- Listings of diagnostics that have places follow the order of these. -/
lemma ascending_flush (h : ∀ d ∈ q.diagnostics, ∃ s, d.primarySpan = some s) :
    Diagnostic.Ascending q.flush.1 := by
  rw [hq.flush_eq]
  exact Diagnostic.ascending_mergeSort h

end Unbounded

end Queue

end MapperDelegation
