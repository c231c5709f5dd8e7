import Mathlib.Tactic.Lemma
import MapperDelegation.Report.Diagnostic

set_option relaxedAutoImplicit false
set_option autoImplicit false

/-!
# The order of listings

Diagnostics are listed in the order of their primary spans, those without one last, and a stable
sort leaves diagnostics of one place in the order in which they were found. Leaving some of them
out before or after sorting makes no difference.

## Main definitions

* `Diagnostic.SortedByPlace` — what a stable sort by place makes of diagnostics.

## Main results

* `Diagnostic.mayPrecede_trans`, `Diagnostic.mayPrecede_total` — the order by place is an order.
* `mergeSort_cons_eq` — a stable sort inserts each entry before those that it may precede.
* `filter_mergeSort` — a stable sort commutes with leaving entries out.
* `mergeSort_sublist` — fewer entries are sorted into fewer entries.
* `Diagnostic.sortedByPlace_mergeSort` — listings are sorted by place, stably.
-/

namespace MapperDelegation

/-! ## The order by place -/

namespace Span

variable {s t v : Span}

lemma le_trans (hst : s.le t) (htv : t.le v) : s.le v := by
  rw [le_iff] at *
  omega

lemma le_total (s t : Span) : s.le t ∨ t.le s := by
  simp only [le_iff]
  omega

end Span

namespace Diagnostic

/-- One diagnostic may precede another one when it has a place, and the other one has none or a
later one, or when neither has a place. -/
lemma mayPrecede_iff {d e : Diagnostic} : d.mayPrecede e ↔
    ∀ t, e.primarySpan = some t → ∃ s, d.primarySpan = some s ∧ s.le t := by
  unfold mayPrecede
  cases d.primarySpan <;> cases e.primarySpan <;> simp

lemma mayPrecede_trans (d e f : Diagnostic) :
    d.mayPrecede e → e.mayPrecede f → d.mayPrecede f := by
  simp only [mayPrecede_iff]
  intro hde hef v hv
  obtain ⟨t, ht, htv⟩ := hef v hv
  obtain ⟨s, hs, hst⟩ := hde t ht
  exact ⟨s, hs, Span.le_trans hst htv⟩

lemma mayPrecede_total (d e : Diagnostic) : d.mayPrecede e || e.mayPrecede d := by
  rw [Bool.or_eq_true]
  unfold mayPrecede
  cases d.primarySpan with
  | none => simp
  | some s =>
    cases e.primarySpan with
    | none => simp
    | some t => exact Span.le_total s t

end Diagnostic

/-! ## Stable sorting -/

section StableSort

variable {α : Type} {le : α → α → Bool}
  (htrans : ∀ a b c, le a b → le b c → le a c) (htotal : ∀ a b, le a b || le b a)
include htrans htotal

/-- A stable sort inserts an entry right before those that it may precede. -/
lemma mergeSort_cons_eq (a : α) (l : List α) :
    (a :: l).mergeSort le =
      (l.mergeSort le).filter (!le a ·) ++ a :: (l.mergeSort le).filter (le a ·) := by
  obtain ⟨before, after, hcons, hl, hbefore⟩ := List.mergeSort_cons htrans htotal a l
  have hsorted := List.pairwise_mergeSort htrans htotal (a :: l)
  rw [hcons] at hsorted
  have hafter : ∀ b ∈ after, le a b :=
    (List.pairwise_cons.mp (List.pairwise_append.mp hsorted).2.1).1
  have hfirst : (before ++ after).filter (!le a ·) = before := by
    rw [List.filter_append, List.filter_eq_self.mpr hbefore,
      List.filter_eq_nil_iff.mpr fun b hb => by simp [hafter b hb], List.append_nil]
  have hlast : (before ++ after).filter (le a ·) = after := by
    rw [List.filter_append, List.filter_eq_self.mpr hafter,
      List.filter_eq_nil_iff.mpr fun b hb => by simpa using hbefore b hb, List.nil_append]
  rw [hcons, hl, hfirst, hlast]

/-- A stable sort commutes with leaving entries out.

**Proof sketch.** Induction on the list. An entry that stays is inserted before the same ones,
whether or not others are left out, and one that is left out does not move any other. -/
lemma filter_mergeSort (p : α → Bool) (l : List α) :
    (l.mergeSort le).filter p = (l.filter p).mergeSort le := by
  induction l with
  | nil => simp
  | cons a l ih =>
    by_cases ha : p a
    · rw [List.filter_cons_of_pos ha, mergeSort_cons_eq htrans htotal,
        mergeSort_cons_eq htrans htotal, ← ih, List.filter_append, List.filter_cons_of_pos ha]
      simp only [List.filter_filter, Bool.and_comm]
    · obtain ⟨before, after, hcons, hl, -⟩ := List.mergeSort_cons htrans htotal a l
      rw [List.filter_cons_of_neg ha, ← ih, hcons, hl, List.filter_append, List.filter_append,
        List.filter_cons_of_neg ha]

/-- A stable sort puts those entries that are left in a part of a list into the same order as among
the whole list.

**Proof sketch.** Induction on the part. The first entry of the whole list is inserted among the
others; if it belongs to the part, then before and after the same ones in both. -/
lemma mergeSort_sublist {l l' : List α} (h : l.Sublist l') :
    (l.mergeSort le).Sublist (l'.mergeSort le) := by
  induction h with
  | slnil => simp
  | @cons l l' a _ ih =>
    obtain ⟨before, after, hcons, hl', -⟩ := List.mergeSort_cons htrans htotal a l'
    rw [hcons]
    rw [hl'] at ih
    exact ih.middle a
  | @cons_cons l l' a _ ih =>
    rw [mergeSort_cons_eq htrans htotal, mergeSort_cons_eq htrans htotal]
    exact (ih.filter _).append ((ih.filter _).cons_cons a)

end StableSort

namespace Diagnostic

/-- The diagnostics `ds` in the order of their places, those without a place last, and those of one
place in the order of `ds`. -/
structure SortedByPlace (ds listing : List Diagnostic) : Prop where
  perm : listing.Perm ds
  ordered : listing.Pairwise fun d e => ∀ t, e.primarySpan = some t →
    ∃ s, d.primarySpan = some s ∧ (s.start < t.start ∨ s.start = t.start ∧ s.stop ≤ t.stop)
  stable : ∀ place, listing.filter (·.primarySpan = place) = ds.filter (·.primarySpan = place)

/-- Sorting puts diagnostics in the order of places and keeps those of one place in their order. -/
lemma sortedByPlace_mergeSort (ds : List Diagnostic) :
    SortedByPlace ds (ds.mergeSort mayPrecede) where
  perm := List.mergeSort_perm _ _
  ordered := by
    refine (List.pairwise_mergeSort mayPrecede_trans mayPrecede_total ds).imp ?_
    intro d e hde t ht
    obtain ⟨s, hs, hle⟩ := mayPrecede_iff.mp hde t ht
    exact ⟨s, hs, Span.le_iff.mp hle⟩
  stable place := by
    rw [filter_mergeSort mayPrecede_trans mayPrecede_total]
    -- among diagnostics of one place, each may precede any other
    apply List.mergeSort_of_pairwise
    rw [List.pairwise_filter]
    refine List.pairwise_of_forall fun d e hd he => ?_
    rw [decide_eq_true_eq] at hd he
    rw [mayPrecede_iff]
    intro t ht
    refine ⟨t, by rw [hd, ← he, ht], ?_⟩
    rw [Span.le_iff]
    omega

end Diagnostic

end MapperDelegation
