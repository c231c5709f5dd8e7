import MapperDelegation.Proofs.Delegation.Chain
import MapperDelegation.Proofs.Delegation.Failure
import MapperDelegation.Proofs.Delegation.Range

set_option relaxedAutoImplicit false
set_option autoImplicit false

/-!
# Runs without errors are closed

A delegate may delegate in turn, and its body is generated with its own unit, before or after that
of its caller, or not at all if its unit fails. If a run tells of no error, then no unit fails and
no method is rejected, so that every delegating method has its body and no call leads to a method
that was to get one and did not.

## Main definitions

* `Output.Closed` — every delegating method has one body, and so has every delegate that needs one.

## Main results

* `UnitReport.AccountsFor.map_method_generated_of_not_hasFailure` — without failures there is a body
  for each delegating method of a unit.
* `Generator.closed_of_hasErrors_eq_none` — a run without errors is closed.
-/

namespace MapperDelegation

/-! ## Units without failures -/

namespace UnitReport.AccountsFor

variable {r : UnitReport} {m : Model} {o : Options} {u : UnitId} (h : r.AccountsFor m o u)
include h

/-- A delegating method ends up rejected, rendered or unresolved. -/
lemma stage_cases {id : MethodId} {stage : Stage} (hid : (id, stage) ∈ r.outcomes) :
    stage = .rejected ∨ stage = .rendered ∨ stage = .unresolved := by
  obtain ⟨method, hmethod, -, -⟩ := (h.mem_outcomes_iff id).mp (List.mem_map_of_mem hid)
  obtain ⟨cross, same, -, -, hrejected, hrendered, hunresolved⟩ :=
    h.stage_iff id stage method hid hmethod
  cases hvalid : method.validate with
  | error p => exact .inl (hrejected.mpr ⟨p, hvalid⟩)
  | ok _ =>
    by_cases hfound : cross = [] ∧ same = []
    · exact .inr (.inr (hunresolved.mpr ⟨hvalid, hfound⟩))
    · rw [not_and_or] at hfound
      exact .inr (.inl (hrendered.mpr ⟨hvalid, hfound⟩))

/-- In a unit without failures every delegating method ends up rendered. -/
lemma stage_eq_rendered (hr : ¬ r.HasFailure) {id : MethodId} {stage : Stage}
    (hid : (id, stage) ∈ r.outcomes) : stage = .rendered := by
  rcases h.stage_cases hid with rfl | rfl | rfl
  · exact absurd (.inr ⟨id, hid⟩) hr
  · rfl
  · exact absurd (.inl (h.aborted_iff.mpr ⟨id, hid⟩)) hr

/-- In a unit without failures there is one body after the other for the delegating methods. -/
lemma map_method_generated_of_not_hasFailure (hr : ¬ r.HasFailure) :
    r.generated.map (·.method) = r.outcomes.map (·.1) := by
  have haborted : ¬ r.aborted := fun haborted => hr (.inl haborted)
  have hrendered : ∀ outcome ∈ r.outcomes, decide (outcome.2 = .rendered) := by
    rintro ⟨id, stage⟩ hid
    exact decide_eq_true (h.stage_eq_rendered hr hid)
  rw [h.map_method_generated haborted, List.filter_eq_self.mpr hrendered]

/-- In a unit without failures every delegating method has exactly one body. -/
lemma count_generated (hr : ¬ r.HasFailure) {id : MethodId} {method : Method}
    (hmethod : m.method id = .ok method) (hunit : method.unit = u)
    (hdelegating : method.isDelegating) : (r.generated.map (·.method)).count id = 1 := by
  rw [h.map_method_generated_of_not_hasFailure hr]
  apply List.count_eq_one_of_mem
  · refine h.sorted.imp fun {a b} hab => ?_
    rintro rfl
    exact Nat.lt_irrefl _ hab
  · exact (h.mem_outcomes_iff id).mpr ⟨method, hmethod, hunit, hdelegating⟩

end UnitReport.AccountsFor

/-! ## Runs over a model -/

/-- Every delegating method of the model has exactly one body in the report of its unit, and
whatever a body calls does not delegate or has a body itself. -/
structure Output.Closed (out : Output) (m : Model) : Prop where
  count_generated : ∀ id method, m.method id = .ok method → method.isDelegating →
    ∃ r, out.report? method.unit = some r ∧ (r.generated.map (·.method)).count id = 1
  callee : ∀ r ∈ out.reports, ∀ body ∈ r.generated,
    ∃ target, m.method body.reference.target = .ok target ∧
      (target.isDelegating = false ∨ ∃ r', out.report? target.unit = some r' ∧
        ∃ body' ∈ r'.generated, body'.method = body.reference.target)

namespace Output

variable {c : Catalog} {g : Generator} {out : Output}

variable (hm : c.model.WellFormed) (hout : g.runModel c = .ok out)
include hm hout

/-- The report on a unit of the model is found by the handle of the unit. -/
lemma exists_report? {u : UnitId} (hu : u.index < c.model.units.length) :
    ∃ r ∈ out.reports, out.report? u = some r ∧ r.AccountsFor c.model g.options u := by
  obtain ⟨r₀, hr₀, haccounts₀⟩ := exists_accountsFor hm hout hu
  obtain ⟨r, hr⟩ : ∃ r, out.report? u = some r := by
    rw [← Option.isSome_iff_exists, report?, List.find?_isSome]
    exact ⟨r₀, hr₀, by simpa using haccounts₀.unit_eq⟩
  have hmem : r ∈ out.reports := List.mem_of_find?_eq_some hr
  have hunit : r.unit = u := by simpa using List.find?_some hr
  obtain ⟨v, haccounts⟩ := accountsFor_of_mem hm hout hmem
  obtain rfl : v = u := haccounts.unit_eq.symm.trans hunit
  exact ⟨r, hmem, hr, haccounts⟩

/-- The delegate that a body calls is a method of the model. -/
lemma exists_target {r : UnitReport} (hr : r ∈ out.reports) {body : GeneratedMethod}
    (hbody : body ∈ r.generated) :
    ∃ target, c.model.method body.reference.target = .ok target := by
  obtain ⟨u, haccounts⟩ := accountsFor_of_mem hm hout hr
  obtain ⟨method, -, hresolve⟩ := haccounts.resolve_eq body hbody
  obtain ⟨x, s, -, hs, hreference⟩ := Model.inScopeOf_eq_ok_iff.mp hresolve
  obtain ⟨candidate, hfind, hcandidate⟩ := Option.map_eq_some_iff.mp hreference
  rw [← hcandidate]
  exact ⟨candidate.target.method,
    hm.method_of_mem_candidates hs (List.mem_append.mpr (Scope.mem_of_find hfind))⟩

/-- If no report has a failure, the run is closed. -/
lemma closed_of_not_hasFailure (h : ∀ r ∈ out.reports, ¬ r.HasFailure) : out.Closed c.model := by
  have hcount : ∀ id method, c.model.method id = .ok method → method.isDelegating →
      ∃ r, out.report? method.unit = some r ∧ (r.generated.map (·.method)).count id = 1 := by
    intro id method hmethod hdelegating
    obtain ⟨r, hr, hreport, haccounts⟩ := exists_report? hm hout (hm.owned hmethod)
    exact ⟨r, hreport, haccounts.count_generated (h r hr) hmethod rfl hdelegating⟩
  refine ⟨hcount, fun r hr body hbody => ?_⟩
  obtain ⟨target, htarget⟩ := exists_target hm hout hr hbody
  refine ⟨target, htarget, ?_⟩
  cases hdelegating : target.isDelegating with
  | false => exact .inl rfl
  | true =>
    obtain ⟨r', hreport, hone⟩ := hcount _ target htarget hdelegating
    have hmem : body.reference.target ∈ r'.generated.map (·.method) :=
      List.count_pos_iff.mp (hone ▸ Nat.one_pos)
    exact .inr ⟨r', hreport, List.mem_map.mp hmem⟩

end Output

namespace Generator

variable {c : Catalog} {g : Generator} {out : Output}

/-- A run that tells of no error has no failure.

**Proof sketch.** A failure is an error that was added to the queue, and a queue to which an error
was added lists one. -/
lemma not_hasFailure_of_hasErrors_eq_none (hq : g.queue.Tracked) (hout : g.runModel c = .ok out)
    (h : out.hasErrors = none) : ∀ r ∈ out.reports, ¬ r.HasFailure := by
  intro r hr hfailure
  obtain ⟨g', hreports, hdiagnostics⟩ := runModel_eq_ok_iff.mp hout
  obtain ⟨hq', hcount⟩ := tracked_of_runUnits hq hreports
  have hlisted : ∃ d ∈ out.diagnostics, d.isError := by
    rw [hdiagnostics]
    exact hq'.exists_isError_mem_flush_iff.mpr (hcount.mpr (.inr ⟨r, hr, hfailure⟩))
  rw [Output.hasErrors, Guarantee.ofErrorCount?, if_pos (List.countP_pos_iff.mpr hlisted)] at h
  cases h

/-- **Runs without errors are closed**: whatever units a generator has run over before, and however
its diagnostics are filtered, a run over a reachable model succeeds, and if it tells of no error,
then every delegating method of the model has exactly one body in the report of its unit, and every
body calls a method that does not delegate or that has a body in the report of its own unit.

**Proof sketch.** Without errors no report has a failure, so that every delegating method ends up
rendered and its unit does not fail. A delegate is a method of the model, and if it delegates in
turn, it is one of these. -/
theorem closed_of_hasErrors_eq_none (hc : c.Reachable) (o : Options) {history : List UnitId}
    (hhistory : ∀ v ∈ history, v.index < c.model.units.length) :
    ∃ earlier g out, (start o).runUnits c history = .ok (earlier, g) ∧ g.runModel c = .ok out ∧
      (out.hasErrors = none → out.Closed c.model) := by
  have hm := hc.wellFormed
  obtain ⟨earlier, g, hearlier⟩ := (start o).exists_runUnits hm hhistory
  obtain ⟨out, hout⟩ := g.exists_runModel hm
  refine ⟨earlier, g, out, hearlier, hout, fun hnone => ?_⟩
  obtain ⟨hq, -⟩ := tracked_of_runUnits (Queue.tracked_empty o.limits) hearlier
  exact Output.closed_of_not_hasFailure hm hout (not_hasFailure_of_hasErrors_eq_none hq hout hnone)

end Generator

/-- A mapper that delegates to one that delegates in turn. Each unit runs before the one that it
calls. -/
def Catalog.chainedMapping : Catalog := .ofEntries [
  .unit "com.OrderMapper" .unknown,
  .unit "com.CustomerMapper" .unknown,
  .unit "com.AddressMapper" .unknown,
  .use ⟨0⟩ ⟨1⟩ none,
  .use ⟨1⟩ ⟨2⟩ none,
  .method ⟨0⟩ (.ofClauses "shipTo" [.param "to" "Address", .returns "AddressDto", .delegating]),
  .method ⟨1⟩ (.ofClauses "billTo" [.param "to" "Address", .returns "AddressDto", .delegating]),
  .method ⟨2⟩ (.ofClauses "toDto" [.param "address" "Address", .returns "AddressDto"])]

/-- The run over the mappers tells of no error, also after an earlier run, and so it is closed: the
body of the first method calls the second one, which has a body in the report of another unit. -/
theorem Generator.closed_chainedMapping :
    Catalog.chainedMapping.Reachable ∧ ∃ earlier g out,
      (start .strict).runUnits .chainedMapping [⟨1⟩] = .ok (earlier, g) ∧
      g.runModel .chainedMapping = .ok out ∧ out.hasErrors = none ∧
      out.reports.map (fun r => r.generated.map fun body => (body.method, body.reference.target)) =
        [[(⟨0⟩, ⟨1⟩)], [(⟨1⟩, ⟨2⟩)], []] ∧
      out.Closed Catalog.chainedMapping.model := by
  have hc : Catalog.chainedMapping.Reachable := Catalog.reachable_ofEntries _
  have hhistory : ∀ v ∈ ([⟨1⟩] : List UnitId),
      v.index < Catalog.chainedMapping.model.units.length := by decide +kernel
  obtain ⟨earlier, g, out, hearlier, hout, hclosed⟩ :=
    closed_of_hasErrors_eq_none hc .strict hhistory
  have hrun : (((start .strict).runUnits .chainedMapping [⟨1⟩]).bind fun p =>
      p.2.runModel .chainedMapping).map (fun out => (out.hasErrors, out.reports.map fun r =>
        r.generated.map fun body => (body.method, body.reference.target))) =
      .ok (none, [[(⟨0⟩, ⟨1⟩)], [(⟨1⟩, ⟨2⟩)], []]) := by decide +kernel
  simp only [hearlier, Except.bind, hout, Except.map] at hrun
  obtain ⟨hnone, hbodies⟩ := Prod.mk.inj (Except.ok.inj hrun)
  exact ⟨hc, earlier, g, out, hearlier, hout, hnone, hbodies, hclosed hnone⟩

end MapperDelegation
