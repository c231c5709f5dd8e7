import Mathlib.Data.List.Dedup
import MapperDelegation.Proofs.Report.Narrowing
import MapperDelegation.Proofs.Report.Unbounded

set_option relaxedAutoImplicit false
set_option autoImplicit false

/-!
# Closed listings

A listing is closed by an error of its own if errors were dropped because of the bound, and this
error advises to raise the bound. To see what the advice is worth, the listing is compared with the
one that the same diagnostics have without a bound. The bound is tried before repetitions are looked
for, so that any error counts as dropped which comes when the queue is full. If all of these are
repetitions, the listing is closed although nothing is missing from it.

## Main definitions

* `Limits.errorsIn` — the errors among some diagnostics, repetitions left out if the limits say so.
* `Diagnostic.Closed` — a listing ends with the error that closes incomplete ones.
* `Diagnostic.LacksError` — a listing shows some error less often than another one.

## Main results

* `Queue.suppressed_addAll_pos_iff` — a queue drops an error for its bound if one comes when it is
  full.
* `Queue.Narrows.lacksError_iff` — an error is missing from a listing exactly if the queue counts
  fewer errors.
* `Queue.closed_of_addAll` — when a listing is closed, when an error is missing from it, and when it
  is closed although none is missing.
-/

namespace MapperDelegation

/-! ## Errors among diagnostics -/

/-- The errors that a queue without a bound shows of some diagnostics: each of them once if the
queue drops repetitions, and otherwise as often as they come. -/
def Limits.errorsIn (limits : Limits) (ds : List Diagnostic) : List Diagnostic :=
  if limits.deduplicate then (ds.filter (·.isError)).dedup else ds.filter (·.isError)

/-- The same limits without a bound on errors. -/
def Limits.withoutBound (limits : Limits) : Limits := { limits with errorLimit := 0 }

namespace Limits

variable {limits : Limits} {d : Diagnostic} {before : List Diagnostic}

/-- Further diagnostics take no errors away. -/
lemma errorsIn_subperm_append (limits : Limits) (before after : List Diagnostic) :
    (limits.errorsIn before).Subperm (limits.errorsIn (before ++ after)) := by
  unfold errorsIn
  simp only [List.filter_append]
  split
  · refine List.subperm_of_subset (List.nodup_dedup _) fun e he => ?_
    exact List.mem_dedup.mpr (List.mem_append_left _ (List.mem_dedup.mp he))
  · exact (List.sublist_append_left _ _).subperm

/-- One more error counts, unless it is a repetition that is dropped. -/
lemma errorsIn_cons_subperm (herror : d.isError) (hnew : limits.deduplicate → d ∉ before)
    (after : List Diagnostic) :
    (d :: limits.errorsIn before).Subperm (limits.errorsIn (before ++ d :: after)) := by
  unfold errorsIn
  simp only [List.filter_append, List.filter_cons_of_pos herror]
  split
  · next hdedup =>
    have hfresh : d ∉ (before.filter (·.isError)).dedup := by
      rw [List.mem_dedup]
      exact fun hmem => hnew hdedup (List.mem_of_mem_filter hmem)
    refine List.subperm_of_subset ((List.nodup_dedup _).cons hfresh) fun e he => ?_
    rw [List.mem_dedup, List.mem_append, List.mem_cons]
    rcases List.mem_cons.mp he with rfl | he
    · exact .inr (.inl rfl)
    · exact .inl (List.mem_dedup.mp he)
  · exact ((List.sublist_append_left _ _).cons_cons d).subperm.trans List.perm_middle.symm.subperm

end Limits

/-! ## Listings -/

namespace Diagnostic

/-- A listing ends with the error that closes incomplete ones. -/
def Closed (listing : List Diagnostic) : Prop :=
  ∃ d, listing.getLast? = some d ∧ d.code = .tooManyErrors

/-- Some error stands in the listing `full` more often than in `listing`. -/
def LacksError (listing full : List Diagnostic) : Prop :=
  ∃ d, d.isError ∧ listing.count d < full.count d

end Diagnostic

/-- A part of a list has fewer entries that pass a test exactly if one of them is missing. -/
lemma exists_count_lt_iff {α : Type} [DecidableEq α] {xs ys : List α} (h : xs.Sublist ys)
    (p : α → Bool) : (∃ x, p x ∧ xs.count x < ys.count x) ↔ xs.countP p < ys.countP p := by
  have hcount : ∀ {x}, p x → ∀ zs : List α, (zs.filter p).count x = zs.count x :=
    fun hx zs => List.count_filter hx
  simp only [List.countP_eq_length_filter]
  constructor
  · rintro ⟨x, hx, hlt⟩
    by_contra hle
    have hsame := (h.filter p).eq_of_length_le (Nat.le_of_not_lt hle)
    rw [← hcount hx, ← hcount hx ys, hsame] at hlt
    exact Nat.lt_irrefl _ hlt
  · intro hlt
    by_contra hnone
    have hsubperm : (ys.filter p).Subperm (xs.filter p) := by
      refine List.subperm_ext_iff.mpr fun x hx => ?_
      have hp : p x := (List.mem_filter.mp hx).2
      rw [hcount hp, hcount hp]
      exact Nat.le_of_not_lt fun hlt => hnone ⟨x, hp, hlt⟩
    exact Nat.not_le_of_gt hlt hsubperm.length_le

namespace Queue

variable {q q' : Queue} {d : Diagnostic} {ds : List Diagnostic}

/-- A queue drops an error for its bound exactly if one comes when the queue is full.

**Proof sketch.** Induction on the diagnostics, of which the first one is added to the queue as it
is and the others to what it leaves. -/
lemma suppressed_addAll_pos_iff :
    0 < (q.addAll ds).suppressed ↔ 0 < q.suppressed ∨
      ∃ before d after, ds = before ++ d :: after ∧ d.isError ∧ (q.addAll before).limitReached := by
  induction ds generalizing q with
  | nil => simp
  | cons e ds ih =>
    rw [addAll_cons, ih, suppressed_add_pos_iff, or_assoc]
    refine or_congr_right ⟨?_, ?_⟩
    · rintro (⟨herror, hfull⟩ | ⟨before, d, after, rfl, herror, hfull⟩)
      · exact ⟨[], e, ds, rfl, herror, hfull⟩
      · exact ⟨e :: before, d, after, rfl, herror, hfull⟩
    · rintro ⟨before, d, after, heq, herror, hfull⟩
      cases before with
      | nil =>
        obtain ⟨rfl, rfl⟩ := List.cons_eq_cons.mp heq
        exact .inl ⟨herror, hfull⟩
      | cons first before =>
        obtain ⟨rfl, rfl⟩ := List.cons_eq_cons.mp heq
        exact .inr ⟨before, d, after, rfl, herror, hfull⟩

/-- A listing is closed exactly if errors were dropped because of the bound. -/
lemma closed_flush_iff (hcode : ∀ d ∈ q.diagnostics, d.code ≠ .tooManyErrors) :
    Diagnostic.Closed q.flush.1 ↔ 0 < q.suppressed := by
  constructor
  · rintro ⟨d, hlast, htoo⟩
    by_contra hnone
    rw [flush, if_neg hnone, List.append_nil] at hlast
    exact hcode d (List.mem_mergeSort.mp (List.mem_of_getLast? hlast)) htoo
  · intro hpos
    refine ⟨tooManyErrors q.limits.errorLimit, ?_, rfl⟩
    rw [flush, if_pos hpos]
    exact List.getLast?_concat

/-- A listing shows a diagnostic as often as the queue holds it, if it is not the closing error. -/
lemma count_flush (hcode : d.code ≠ .tooManyErrors) :
    q.flush.1.count d = q.diagnostics.count d := by
  have hclosing : d ∉ if 0 < q.suppressed then [tooManyErrors q.limits.errorLimit] else [] := by
    split
    · rw [List.mem_singleton]
      rintro rfl
      exact hcode rfl
    · exact List.not_mem_nil
  rw [flush, List.count_append, List.count_eq_zero_of_not_mem hclosing, Nat.add_zero]
  exact (List.mergeSort_perm _ _).count_eq d

/-- An error is missing from the listing of the narrower queue exactly if this queue counts fewer
errors than the other one, which has no bound. -/
lemma Narrows.lacksError_iff (h : q.Narrows q') (hq' : q'.Unbounded)
    (hcode : ∀ d ∈ q'.diagnostics, d.code ≠ .tooManyErrors) :
    Diagnostic.LacksError q.flush.1 q'.flush.1 ↔ q.errorCount < q'.errorCount := by
  rw [h.accounted.errorCount_eq, h.accounted'.errorCount_eq, ← exists_count_lt_iff h.sublist]
  refine exists_congr fun d => and_congr_right fun _ => ?_
  rw [hq'.perm_flush.count_eq]
  by_cases hd : d ∈ q'.diagnostics
  · rw [count_flush (hcode d hd)]
  · simp [List.count_eq_zero_of_not_mem hd]

/-! ## Listings with and without a bound -/

/-- A queue without a bound holds the errors that it is asked to show. -/
lemma perm_errorsIn (limits : Limits) (ds : List Diagnostic) :
    ((({ limits := limits.withoutBound } : Queue).addAll ds).diagnostics.filter (·.isError)).Perm
      (limits.errorsIn ds) := by
  have hq : ({ limits := limits.withoutBound } : Queue).Unbounded := unbounded_empty rfl
  by_cases hdedup : limits.deduplicate
  · have hnodup := (hq.addAll ds).nodup (by rwa [limits_addAll])
    rw [Limits.errorsIn, if_pos hdedup,
      List.perm_ext_iff_of_nodup (hnodup.filter _) (List.nodup_dedup _)]
    intro d
    simp [hq.mem_addAll_iff]
  · rw [hq.diagnostics_addAll (Bool.eq_false_iff.mpr hdedup), Limits.errorsIn, if_neg hdedup]
    exact .refl _

/-- A queue without a bound counts the errors that it is asked to show. -/
lemma errorCount_addAll_withoutBound (limits : Limits) (ds : List Diagnostic) :
    (({ limits := limits.withoutBound } : Queue).addAll ds).errorCount =
      (limits.errorsIn ds).length := by
  rw [((tracked_empty limits.withoutBound).addAll ds).errorCount_eq, List.countP_eq_length_filter]
  exact (perm_errorsIn limits ds).length_eq

section Bounded

variable {limits : Limits} (hpos : 0 < limits.errorLimit)
include hpos

/-- A queue with a bound is related to the queue without one that receives the same. -/
lemma narrows_withoutBound (ds : List Diagnostic) : (({ limits } : Queue).addAll ds).Narrows
    (({ limits := limits.withoutBound } : Queue).addAll ds) := by
  have hnew : ({ limits } : Queue).Narrows { limits := limits.withoutBound } :=
    narrows_empty rfl hpos (.inl rfl)
  exact hnew.addAll ds

/-- A queue with a bound counts the errors that it is asked to show up to its bound. -/
lemma errorCount_addAll_eq (ds : List Diagnostic) : (({ limits } : Queue).addAll ds).errorCount =
    min limits.errorLimit (limits.errorsIn ds).length := by
  rw [(narrows_withoutBound hpos ds).errorCount_eq, errorCount_addAll_withoutBound, limits_addAll]

/-- A queue is full once as many errors were to be shown as its bound allows. -/
lemma limitReached_addAll_iff (ds : List Diagnostic) :
    (({ limits } : Queue).addAll ds).limitReached ↔
      limits.errorLimit ≤ (limits.errorsIn ds).length := by
  rw [limitReached_iff, limits_addAll, errorCount_addAll_eq hpos, Nat.le_min]
  exact ⟨fun h => h.2.2, fun h => ⟨hpos, Nat.le_refl _, h⟩⟩

variable (hcode : ∀ d ∈ ds, d.code ≠ .tooManyErrors)
include hcode

/-- A listing is closed exactly if an error comes when as many were to be shown as are allowed. -/
lemma closed_addAll_iff : Diagnostic.Closed (({ limits } : Queue).addAll ds).flush.1 ↔
    ∃ before d after, ds = before ++ d :: after ∧ d.isError ∧
      limits.errorLimit ≤ (limits.errorsIn before).length := by
  rw [closed_flush_iff, suppressed_addAll_pos_iff, or_iff_right (Nat.lt_irrefl 0)]
  · simp only [limitReached_addAll_iff hpos]
  · intro d hd
    rcases of_mem_addAll hd with h | h
    · cases h
    · exact hcode d h

/-- An error is missing from a listing exactly if more errors were to be shown than the bound
allows. -/
lemma lacksError_addAll_iff : Diagnostic.LacksError (({ limits } : Queue).addAll ds).flush.1
    (({ limits := limits.withoutBound } : Queue).addAll ds).flush.1 ↔
      limits.errorLimit < (limits.errorsIn ds).length := by
  have hq : ({ limits := limits.withoutBound } : Queue).Unbounded := unbounded_empty rfl
  rw [(narrows_withoutBound hpos ds).lacksError_iff (hq.addAll ds), errorCount_addAll_eq hpos,
    errorCount_addAll_withoutBound]
  · omega
  · intro d hd
    rcases hq.mem_addAll_iff.mp hd with h | h
    · cases h
    · exact hcode d h

end Bounded

/-- **Closed listings**: under a bound on errors a listing is closed exactly if an error comes when
as many were to be shown as the bound allows, and an error is missing from it exactly if more were
to be shown than that. It is closed with nothing missing exactly if repetitions are dropped, as many
errors were to be shown as the bound allows, and one of them is repeated after all of them came.

**Proof sketch.** Before an error that closes the listing there are at least as many errors to be
shown as the bound allows, and if none is missing, there are no more than these at the end. The
error is none of its own then, so it is a repetition. -/
theorem closed_of_addAll {limits : Limits} (hpos : 0 < limits.errorLimit) {ds : List Diagnostic}
    (hcode : ∀ d ∈ ds, d.code ≠ .tooManyErrors) :
    let listing := (({ limits } : Queue).addAll ds).flush.1
    let full := (({ limits := limits.withoutBound } : Queue).addAll ds).flush.1
    (Diagnostic.Closed listing ↔ ∃ before d after, ds = before ++ d :: after ∧ d.isError ∧
        limits.errorLimit ≤ (limits.errorsIn before).length) ∧
      (Diagnostic.LacksError listing full ↔
        limits.errorLimit < (limits.errorsIn ds).length) ∧
      (Diagnostic.Closed listing ∧ ¬ Diagnostic.LacksError listing full ↔
        limits.deduplicate ∧ (limits.errorsIn ds).length = limits.errorLimit ∧
          ∃ before d after, ds = before ++ d :: after ∧ d.isError ∧ d ∈ before ∧
            (limits.errorsIn before).length = limits.errorLimit) := by
  refine ⟨closed_addAll_iff hpos hcode, lacksError_addAll_iff hpos hcode, ?_⟩
  rw [closed_addAll_iff hpos hcode, lacksError_addAll_iff hpos hcode]
  constructor
  · rintro ⟨⟨before, d, after, rfl, herror, hfull⟩, hnone⟩
    have hle := (limits.errorsIn_subperm_append before (d :: after)).length_le
    have hrepeated : limits.deduplicate ∧ d ∈ before := by
      by_contra hnew
      have hlt := (Limits.errorsIn_cons_subperm herror
        (fun hdedup hmem => hnew ⟨hdedup, hmem⟩) after).length_le
      rw [List.length_cons] at hlt
      omega
    exact ⟨hrepeated.1, by omega, before, d, after, rfl, herror, hrepeated.2, by omega⟩
  · rintro ⟨-, hlength, before, d, after, rfl, herror, -, hfull⟩
    exact ⟨⟨before, d, after, rfl, herror, Nat.le_of_eq hfull.symm⟩, by omega⟩

/-- Three errors, of which the last one repeats the first one. -/
def returningError : List Diagnostic := [.error .noDelegate, .error .hasBody, .error .noDelegate]

/-- Under a bound of one error the listing is closed, and an error is missing from it. -/
theorem closed_returningError :
    let listing := (({ limits := { errorLimit := 1 } } : Queue).addAll returningError).flush.1
    let full := (({ limits := { errorLimit := 0 } } : Queue).addAll returningError).flush.1
    (∀ d ∈ returningError, d.code ≠ .tooManyErrors) ∧ Diagnostic.Closed listing ∧
      Diagnostic.LacksError listing full := by
  have hcode : ∀ d ∈ returningError, d.code ≠ .tooManyErrors := by decide +kernel
  have hpos : 0 < ({ errorLimit := 1 } : Limits).errorLimit := by decide
  obtain ⟨hclosed, hlacks, -⟩ := closed_of_addAll hpos hcode
  refine ⟨hcode, hclosed.mpr ?_, hlacks.mpr (by decide +kernel)⟩
  exact ⟨[.error .noDelegate], .error .hasBody, [.error .noDelegate], rfl, rfl, by decide +kernel⟩

/-- An error that comes twice. -/
def repeatedError : List Diagnostic :=
  let d := (Diagnostic.error .noDelegate).withMessage "no delegate found" |>.withLabel ⟨3, 4⟩ "here"
  [d, d]

/-- Under a bound of one error the listing of a repeated error is closed, and the listing without a
bound shows nothing more. -/
theorem closed_repeatedError :
    let listing := (({ limits := { errorLimit := 1 } } : Queue).addAll repeatedError).flush.1
    let full := (({ limits := { errorLimit := 0 } } : Queue).addAll repeatedError).flush.1
    (∀ d ∈ repeatedError, d.code ≠ .tooManyErrors) ∧ Diagnostic.Closed listing ∧
      ¬ Diagnostic.LacksError listing full ∧ full = listing.dropLast := by
  intro listing full
  have hfull : full = listing.dropLast := by decide +kernel
  have hlast : listing.getLast? = some (tooManyErrors 1) := by decide +kernel
  refine ⟨by decide +kernel, ⟨_, hlast, rfl⟩, ?_, hfull⟩
  rintro ⟨d, -, hlt⟩
  rw [hfull] at hlt
  exact Nat.not_le_of_gt hlt ((List.dropLast_sublist listing).count_le d)

end Queue

end MapperDelegation
