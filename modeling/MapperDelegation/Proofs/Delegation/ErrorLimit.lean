import MapperDelegation.Proofs.Delegation.Stages
import MapperDelegation.Proofs.Report.Narrowing

set_option relaxedAutoImplicit false
set_option autoImplicit false

/-!
# Runs under a wider bound on errors

The bound on errors is applied while the diagnostics come in, before they are put into the order of
their places. Raising it changes nothing of what is generated, and all diagnostics that were listed
before are listed again, in the same order, among those that there is now room for.

## Main definitions

* `Options.withErrorLimit` — the same options with another bound.
* `Output.found` — the diagnostics of an output, without the error that may close them.
* `Catalog.collected` — the queue at the end of a run over a whole model.

## Main results

* `Generator.exists_output` — runs under different bounds yield the same reports.
* `Generator.runModel_withErrorLimit` — a wider bound only adds to what is found.
-/

namespace MapperDelegation

/-- The same options with another bound on errors. -/
def Options.withErrorLimit (o : Options) (limit : Nat) : Options :=
  { o with limits := { o.limits with errorLimit := limit } }

@[simp] lemma Options.errorLimit_withErrorLimit (o : Options) (limit : Nat) :
    (o.withErrorLimit limit).limits.errorLimit = limit := rfl

/-! ## Listings without the closing error -/

/-- The diagnostics of an output, without the error that closes them if some were dropped. -/
def Output.found (out : Output) : List Diagnostic :=
  out.diagnostics.filter (·.code ≠ .tooManyErrors)

/-- What is found on mappers never looks like the closing error of a listing. -/
lemma Queue.filter_flush_of_external {q : Queue} (hq : q.External) :
    q.flush.1.filter (·.code ≠ .tooManyErrors) =
      q.diagnostics.mergeSort Diagnostic.mayPrecede := by
  have hkept : ∀ d ∈ q.diagnostics.mergeSort Diagnostic.mayPrecede,
      decide (d.code ≠ .tooManyErrors) := by
    intro d hd
    have hcode := hq d (List.mem_mergeSort.mp hd)
    apply decide_eq_true
    intro hclosing
    rw [hclosing] at hcode
    cases hcode
  rw [flush, List.filter_append, List.filter_eq_self.mpr hkept]
  split <;> simp

/-! ## The queue of a run -/

namespace Catalog

/-- The queue at the end of a run over a whole model. -/
def collected (c : Catalog) (o : Options) : Queue :=
  ({ limits := o.limits } : Queue).addAll (c.model.unitIds.flatMap (c.reported o))

variable {c : Catalog} {o : Options}

/-- A run reports nothing about the generator itself. -/
lemma external_collected : (c.collected o).External := by
  intro d hd
  rcases Queue.of_mem_addAll hd with hd | hd
  · cases hd
  · obtain ⟨u, -, hd⟩ := List.mem_flatMap.mp hd
    exact isInternalError_of_mem_reported hd

/-- A run keeps its counts right. -/
lemma accounted_collected : (c.collected o).Accounted :=
  ((Queue.tracked_empty o.limits).addAll _).toAccounted

/-- A run without a bound drops nothing but repetitions. -/
lemma unbounded_collected (h : o.limits.errorLimit = 0) : (c.collected o).Unbounded :=
  (Queue.unbounded_empty h).addAll _

/-- The limits are those of the options. -/
@[simp] lemma limits_collected : (c.collected o).limits = o.limits := Queue.limits_addAll

/-- What is reported on a unit does not depend on the bound. -/
lemma reported_withErrorLimit (limit : Nat) : c.reported (o.withErrorLimit limit) = c.reported o :=
  rfl

/-- The queues of runs under a narrower and a wider bound receive the same diagnostics. -/
lemma narrows_collected {limit limit' : Nat} (hpos : 0 < limit)
    (hle : limit' = 0 ∨ limit ≤ limit') :
    (c.collected (o.withErrorLimit limit)).Narrows (c.collected (o.withErrorLimit limit')) := by
  have hnew : ({ limits := (o.withErrorLimit limit).limits } : Queue).Narrows
      { limits := (o.withErrorLimit limit').limits } := Queue.narrows_empty rfl hpos hle
  rw [collected, collected, reported_withErrorLimit, reported_withErrorLimit]
  exact hnew.addAll _

end Catalog

/-! ## Runs -/

namespace Generator

variable {c : Catalog} {o : Options} {out : Output} {limit : Nat}

/-- A run over a model lists what its queue has collected. -/
lemma diagnostics_of_runModel (h : (start o).runModel c = .ok out) :
    out.diagnostics = (c.collected o).flush.1 := by
  obtain ⟨g, hruns, hdiagnostics⟩ := runModel_eq_ok_iff.mp h
  rw [hdiagnostics, finish, queue_of_runUnits hruns]
  rfl

/-- What a run finds is listed in the order of places. -/
lemma found_of_runModel (h : (start o).runModel c = .ok out) :
    out.found = (c.collected o).diagnostics.mergeSort Diagnostic.mayPrecede := by
  rw [Output.found, diagnostics_of_runModel h, Queue.filter_flush_of_external]
  exact Catalog.external_collected

/-- What a run lists is what it finds, closed by an error if some were dropped. -/
lemma diagnostics_eq_found (h : (start o).runModel c = .ok out) :
    out.diagnostics = out.found ∨
      out.diagnostics = out.found ++ [tooManyErrors o.limits.errorLimit] := by
  rw [found_of_runModel h, diagnostics_of_runModel h, Queue.flush]
  rw [Catalog.limits_collected]
  split
  · exact .inr rfl
  · exact .inl (List.append_nil _)

/-- What a run finds has as many errors as its queue counts. -/
lemma countP_found (h : (start o).runModel c = .ok out) :
    out.found.countP (·.isError) = (c.collected o).errorCount := by
  rw [found_of_runModel h, Catalog.accounted_collected.errorCount_eq]
  exact (List.mergeSort_perm _ _).countP_eq _

/-- Runs under different bounds succeed with the same reports. -/
lemma exists_output (hm : c.model.WellFormed) (o : Options) : ∃ reports, ∀ limit, ∃ out,
    (start (o.withErrorLimit limit)).runModel c = .ok out ∧ out.reports = reports := by
  obtain ⟨out, hout⟩ := (start o).exists_runModel hm
  obtain ⟨g, hreports, -⟩ := runModel_eq_ok_iff.mp hout
  refine ⟨out.reports, fun limit => ?_⟩
  have hmatching : (start o).options.matching =
      (start (o.withErrorLimit limit)).options.matching := rfl
  obtain ⟨g', hreports', -⟩ := sameErrors_of_runUnits _ hmatching hreports
  exact ⟨⟨out.reports, g'.finish⟩, runModel_eq_ok_iff.mpr ⟨g', hreports', rfl⟩, rfl⟩

/-- **A wider bound only adds diagnostics**: runs over a reachable model under a bound on errors and
under a wider one or none succeed and yield the same reports. What the first one finds is found by
the second one too, in the same order, and its errors are as many as a run without a bound finds, up
to the bound. A closing error, if there is one, comes after all that was found.

**Proof sketch.** The same diagnostics are added to the queues of both runs. The queue with the
narrower bound holds a part of what the other one holds, and this part has as many errors as the
bound allows. Sorting leaves a part of a list in order. -/
theorem runModel_withErrorLimit (hc : c.Reachable) (o : Options) {limit limit' : Nat}
    (hpos : 0 < limit) (hle : limit' = 0 ∨ limit ≤ limit') :
    ∃ out out' unbounded, (start (o.withErrorLimit limit)).runModel c = .ok out ∧
      (start (o.withErrorLimit limit')).runModel c = .ok out' ∧
      (start (o.withErrorLimit 0)).runModel c = .ok unbounded ∧
      out.reports = out'.reports ∧ out.found.Sublist out'.found ∧
      out.found.countP (·.isError) = min limit (unbounded.diagnostics.countP (·.isError)) ∧
      (out.diagnostics = out.found ∨ out.diagnostics = out.found ++ [tooManyErrors limit]) ∧
      (out'.diagnostics = out'.found ∨ out'.diagnostics = out'.found ++ [tooManyErrors limit']) ∧
      unbounded.diagnostics = unbounded.found := by
  obtain ⟨reports, houtput⟩ := exists_output hc.wellFormed o
  obtain ⟨out, hout, hreports⟩ := houtput limit
  obtain ⟨out', hout', hreports'⟩ := houtput limit'
  obtain ⟨unbounded, hunbounded, -⟩ := houtput 0
  have hkept : unbounded.diagnostics = unbounded.found := by
    have hq : (c.collected (o.withErrorLimit 0)).Unbounded := Catalog.unbounded_collected rfl
    rw [found_of_runModel hunbounded, diagnostics_of_runModel hunbounded, hq.flush_eq]
  have hsublist : out.found.Sublist out'.found := by
    rw [found_of_runModel hout, found_of_runModel hout']
    exact (Catalog.narrows_collected hpos hle).mergeSort_sublist
  have hcount : out.found.countP (·.isError) =
      min limit (unbounded.diagnostics.countP (·.isError)) := by
    rw [hkept, countP_found hout, countP_found hunbounded]
    have hnarrows := Catalog.narrows_collected (c := c) (o := o) hpos (.inl rfl)
    rw [hnarrows.errorCount_eq, Catalog.limits_collected, Options.errorLimit_withErrorLimit]
  have hclosing := diagnostics_eq_found hout
  have hclosing' := diagnostics_eq_found hout'
  rw [Options.errorLimit_withErrorLimit] at hclosing hclosing'
  exact ⟨out, out', unbounded, hout, hout', hunbounded, hreports.trans hreports'.symm, hsublist,
    hcount, hclosing, hclosing', hkept⟩

end Generator

/-- Two mappers with an error each, under bounds of one error and of two. -/
theorem Generator.runModel_withErrorLimit_contestedMapping :
    Catalog.contestedMapping.Reachable ∧ 0 < 1 ∧ (2 = 0 ∨ 1 ≤ 2) ∧ ∃ out out' unbounded,
      (start (Options.strict.withErrorLimit 1)).runModel .contestedMapping = .ok out ∧
      (start (Options.strict.withErrorLimit 2)).runModel .contestedMapping = .ok out' ∧
      (start (Options.strict.withErrorLimit 0)).runModel .contestedMapping = .ok unbounded ∧
      out.reports = out'.reports ∧ out.found.Sublist out'.found ∧
      out.found.countP (·.isError) = min 1 (unbounded.diagnostics.countP (·.isError)) ∧
      (out.diagnostics = out.found ∨ out.diagnostics = out.found ++ [tooManyErrors 1]) ∧
      (out'.diagnostics = out'.found ∨ out'.diagnostics = out'.found ++ [tooManyErrors 2]) ∧
      unbounded.diagnostics = unbounded.found :=
  ⟨Catalog.reachable_ofEntries _, by decide, by decide,
    runModel_withErrorLimit (Catalog.reachable_ofEntries _) .strict (by decide)
      (.inr (by decide))⟩

/-- The narrower bound leaves room for one of the two errors and for both warnings. -/
example : (Catalog.contestedMapping.collected (Options.strict.withErrorLimit 1)).diagnostics.map
      (·.code) = [.noDelegate, .ambiguous, .sameUnit] ∧
    (Catalog.contestedMapping.collected (Options.strict.withErrorLimit 2)).diagnostics.map
      (·.code) = [.noDelegate, .ambiguous, .sameUnit, .noDelegate] := by decide +kernel

end MapperDelegation
