import Mathlib.Data.List.Flatten
import Mathlib.Data.List.Nodup
import MapperDelegation.Proofs.Delegation.Matching

set_option relaxedAutoImplicit false
set_option autoImplicit false

/-!
# Distinct candidates

Neither pass of the search looks for repetitions among its candidates, and the first pass does not
even leave out the searching method. There is no need to: a method belongs to one unit and is listed
there once, and a unit uses other units only and each of them once. The members that a scope shows,
those of the unit itself and those of the used units, are therefore all different, and so are the
candidates, which are some of them. A warning that there was a choice names these candidates, so it
always speaks of different declarations.

## Main definitions

* `Scope.shown` — the members that a scope shows.
* `Model.NamesOthers` — some names are those of different methods, a given one excepted.
* `Catalog.TellsApart` — a diagnostic is a warning that names different methods.

## Main results

* `Model.WellFormed.nodup_shown` — a scope shows no method twice.
* `Model.WellFormed.nodup_candidates` — both passes together find no method twice, nor the searching
  one.
* `Catalog.distinct_of_reachable` — the same for searches in a reachable model, and what follows
  for the warnings of its runs.
-/

namespace MapperDelegation

/-! ## What the passes find -/

namespace Scope

variable {s : Scope} {c : Criteria} {x : Member}

/-- The members that a scope shows, those of its unit and those of the used units in their order. -/
def shown (s : Scope) : List Member := s.members ++ s.providers.flatMap (·.members)

/-- The first pass finds some of the members of used units, each of them at most as often as it is
shown. -/
lemma map_id_crossUnit_sublist : ((s.crossUnit c x).map (·.target.id)).Sublist
    ((s.providers.flatMap (·.members)).map (·.id)) := by
  rw [crossUnit, List.map_flatMap, List.map_flatMap]
  refine List.Sublist.flatMap_right _ fun p _ => ?_
  rw [candidatesOf, List.map_map]
  exact List.filter_sublist.map _

/-- The second pass finds some of the members of the unit. -/
lemma map_id_sameUnit_sublist :
    ((s.sameUnit c x).map (·.target.id)).Sublist (s.members.map (·.id)) := by
  rw [sameUnit, List.map_map]
  exact List.filter_sublist.map _

/-- The second pass leaves out the searching method. -/
lemma id_notMem_map_id_sameUnit : x.id ∉ (s.sameUnit c x).map (·.target.id) := by
  intro h
  obtain ⟨candidate, hcandidate, hid⟩ := List.mem_map.mp h
  obtain ⟨-, -, hne, -⟩ := mem_sameUnit_iff.mp hcandidate
  exact hne hid

/-- The pass that decides is one of the two. -/
lemma candidates_sublist : (s.candidates c x).Sublist (s.crossUnit c x ++ s.sameUnit c x) := by
  rw [candidates_eq]
  split
  · exact List.sublist_append_right _ _
  · exact List.sublist_append_left _ _

end Scope

/-! ## What a scope shows -/

namespace Model

variable {m : Model} {u : UnitId} {unit : MapperUnit} {s : Scope} {c : Criteria} {x : Member}

/-- A scope has one provider for each use of its unit. -/
lemma map_use_providers (hu : m.unit u = .ok unit) (hs : m.scope u = .ok s) :
    s.providers.map (·.use) = unit.uses := by
  obtain ⟨unit', hu', -, -, hproviders⟩ := scope_eq_ok_iff.mp hs
  obtain rfl : unit = unit' := eq_of_eq_ok hu hu'
  have huses : List.Forall₂ (· = ·) unit.uses (s.providers.map (·.use)) :=
    List.forall₂_map_right_iff.mpr
      (hproviders.imp fun _ _ hp => (provider_eq_ok_iff.mp hp).1.symm)
  rw [List.forall₂_eq_eq_eq] at huses
  exact huses.symm

namespace WellFormed

variable (hm : m.WellFormed)
include hm

/-- A unit lists no member twice. -/
lemma nodup_map_id_members {members : List Member} (h : m.members u = .ok members) :
    (members.map (·.id)).Nodup := by
  obtain ⟨unit, hunit, -⟩ := members_eq_ok_iff.mp h
  rw [map_id_members hunit h]
  refine (hm.unit hunit).sorted.imp ?_
  rintro a b hlt rfl
  exact Nat.lt_irrefl _ hlt

/-- Different units have no member in common. -/
lemma disjoint_map_id_members {v : UnitId} {members members' : List Member} (hne : u ≠ v)
    (h : m.members u = .ok members) (h' : m.members v = .ok members') :
    (members.map (·.id)).Disjoint (members'.map (·.id)) := by
  intro id hid hid'
  obtain ⟨y, hy, rfl⟩ := List.mem_map.mp hid
  obtain ⟨z, hz, heq⟩ := List.mem_map.mp hid'
  obtain ⟨hmethod, rfl⟩ := (hm.mem_members_iff h).mp hy
  obtain ⟨hmethod', rfl⟩ := (hm.mem_members_iff h').mp hz
  rw [heq] at hmethod'
  exact hne (congrArg Method.unit (eq_of_eq_ok hmethod hmethod'))

variable (hs : m.scope u = .ok s)
include hs

/-- **A scope shows no method twice.**

**Proof sketch.** The members of one unit are listed once each, and those of different units are
different. The used units differ from each other and from the unit of the scope. -/
lemma nodup_shown : (s.shown.map (·.id)).Nodup := by
  obtain ⟨unit, hunit, -, hmembers, hproviders⟩ := scope_eq_ok_iff.mp hs
  have hu := hm.unit hunit
  have hprovider : ∀ p ∈ s.providers, p.use ∈ unit.uses ∧ m.members p.use.unit = .ok p.members := by
    intro p hp
    obtain ⟨use, huse, hprovider⟩ := exists_mem_of_forall₂ hproviders hp
    obtain ⟨rfl, -, hmembers'⟩ := provider_eq_ok_iff.mp hprovider
    exact ⟨huse, hmembers'⟩
  have hother : s.providers.Pairwise fun p q => p.use.unit ≠ q.use.unit := by
    have hnodup := hu.used_nodup
    rw [← map_use_providers hunit hs, List.map_map] at hnodup
    exact List.pairwise_map.mp hnodup
  rw [Scope.shown, List.map_append, List.map_flatMap, List.nodup_append', List.nodup_flatMap]
  refine ⟨hm.nodup_map_id_members hmembers, ⟨fun p hp => ?_, ?_⟩, ?_⟩
  · exact hm.nodup_map_id_members (hprovider p hp).2
  · refine hother.imp_of_mem fun hp hq hne => ?_
    exact hm.disjoint_map_id_members hne (hprovider _ hp).2 (hprovider _ hq).2
  · intro id hid hid'
    obtain ⟨p, hp, hid'⟩ := List.mem_flatMap.mp hid'
    obtain ⟨huse, hmembers'⟩ := hprovider p hp
    exact hm.disjoint_map_id_members (hu.other p.use huse).symm hmembers hmembers' hid hid'

/-- **Both passes together find no method twice**, and they do not find the searching method.

**Proof sketch.** The candidates are some of the methods that the scope shows. The searching method
is shown among the members of its unit, hence not among those of used units, and the second pass
leaves it out. -/
lemma nodup_candidates (hx : x ∈ s.members) :
    (x.id :: (s.crossUnit c x ++ s.sameUnit c x).map (·.target.id)).Nodup := by
  have hshown := hm.nodup_shown hs
  rw [Scope.shown, List.map_append] at hshown
  rw [List.nodup_cons, List.map_append, List.mem_append, not_or, List.nodup_append_comm]
  refine ⟨⟨fun hid => ?_, Scope.id_notMem_map_id_sameUnit⟩, ?_⟩
  · exact List.disjoint_of_nodup_append hshown (List.mem_map_of_mem hx)
      (Scope.map_id_crossUnit_sublist.subset hid)
  · exact hshown.sublist
      (Scope.map_id_sameUnit_sublist.append Scope.map_id_crossUnit_sublist)

/-- The pass that decides finds no method twice, nor the searching one. -/
lemma nodup_deciding (hx : x ∈ s.members) :
    (x.id :: (s.candidates c x).map (·.target.id)).Nodup :=
  (hm.nodup_candidates hs hx).sublist ((Scope.candidates_sublist.map _).cons_cons _)

end WellFormed

end Model

/-! ## Warnings -/

/-- The names are those of methods of the model that differ from each other and from the method
`id`. -/
def Model.NamesOthers (m : Model) (id : MethodId) (names : List Symbol) : Prop :=
  ∃ ids : List MethodId, (id :: ids).Nodup ∧
    List.Forall₂ (fun i name => ∃ method, m.method i = .ok method ∧ method.name = name) ids names

/-- The diagnostic warns that a method `x` has more than one delegate, and the chosen delegate and
the others that it names are different methods. -/
def Catalog.TellsApart (c : Catalog) (d : Diagnostic) : Prop :=
  ∃ (x : Member) (chosen : Symbol) (others : List Symbol), c.model.method x.id = .ok x.method ∧
    d = (x.method.problem (.ambiguous chosen others)).diagnostic c.symbols ∧
    others ≠ [] ∧ c.model.NamesOthers x.id (chosen :: others)

/-- The warning about a choice names the chosen candidate and all the others, of which there is at
least one. -/
lemma Method.eq_of_ambiguous_mem_causes {m : Method} {o : Options} {unitName chosen : Symbol}
    {others : List Symbol} {found : List Candidate}
    (h : .ambiguous chosen others ∈ m.causes o unitName found) :
    others ≠ [] ∧ chosen :: others = found.map (·.target.method.name) := by
  unfold causes at h
  split_ifs at h
  · simp at h
  · simp at h
  · cases found with
    | nil => simp at h
    | cons first rest =>
      have hremark : rest ≠ [] ∧ chosen = first.target.method.name ∧
          others = rest.map (·.target.method.name) := by
        simp only [remarks, List.mem_append] at h
        rcases h with h | h
        · split_ifs at h <;> simp at h
        · split_ifs at h with hwarn
          · simpa [hwarn.2] using h
          · simp at h
      obtain ⟨hrest, rfl, rfl⟩ := hremark
      exact ⟨by simpa using hrest, rfl⟩

/-- What is reported on a unit follows from the declaration of a member and from its candidates. -/
lemma Catalog.exists_cause_of_mem_reported {c : Catalog} (hm : c.model.WellFormed) {o : Options}
    {u : UnitId} {d : Diagnostic} (hd : d ∈ c.reported o u) :
    ∃ s x cause, c.model.scope u = .ok s ∧ x ∈ s.members ∧
      cause ∈ x.method.causes o s.unitName (s.candidates (o.criteriaFor x.method) x) ∧
      d = (x.method.problem cause).diagnostic c.symbols := by
  obtain ⟨s, x, p, hs, hx, hp, rfl⟩ := exists_problem_of_mem_reported hd
  obtain ⟨-, -, -, hmembers, -⟩ := Model.scope_eq_ok_iff.mp hs
  have hmem : x ∈ s.members := List.mem_of_mem_filter hx
  rw [hm.problems_examine hs c.symbols ((hm.mem_members_iff hmembers).mp hmem).2] at hp
  obtain ⟨cause, hcause, rfl⟩ := List.mem_map.mp hp
  exact ⟨s, x, cause, hs, hmem, hcause, rfl⟩

/-- What is reported under the code of an ambiguous choice is a warning that names different
methods.

**Proof sketch.** A warning about a choice names the candidates of the pass that decides. -/
lemma Catalog.tellsApart_of_mem_reported {c : Catalog} (hm : c.model.WellFormed) {o : Options}
    {u : UnitId} {d : Diagnostic} (hd : d ∈ c.reported o u) (hcode : d.code = .ambiguous) :
    c.TellsApart d := by
  obtain ⟨s, x, cause, hs, hx, hcause, rfl⟩ := exists_cause_of_mem_reported hm hd
  obtain ⟨-, -, -, hmembers, -⟩ := Model.scope_eq_ok_iff.mp hs
  rw [Problem.code_diagnostic] at hcode
  obtain ⟨chosen, others, rfl⟩ : ∃ chosen others, cause = .ambiguous chosen others := by
    cases cause with
    | ambiguous chosen others => exact ⟨chosen, others, rfl⟩
    | _ => cases hcode
  obtain ⟨hothers, hnames⟩ := Method.eq_of_ambiguous_mem_causes hcause
  have hdistinct := hm.nodup_deciding (c := o.criteriaFor x.method) hs hx
  have hmethod := ((hm.mem_members_iff hmembers).mp hx).1
  refine ⟨x, chosen, others, hmethod, rfl, hothers, _, hdistinct, ?_⟩
  rw [hnames, List.forall₂_map_left_iff, List.forall₂_map_right_iff, List.forall₂_same]
  intro candidate hcandidate
  have htarget := hm.method_of_mem_candidates hs (Scope.candidates_sublist.subset hcandidate)
  exact ⟨_, htarget, rfl⟩

/-- Every diagnostic of a generator is one of those on the units of its runs, whatever the queue
drops. -/
lemma Generator.exists_mem_reported {c : Catalog} {o : Options} {g : Generator} {us : List UnitId}
    {reports : List UnitReport} (h : (start o).runUnits c us = .ok (reports, g)) {d : Diagnostic}
    (hd : d ∈ g.diagnostics) : ∃ u ∈ us, d ∈ c.reported o u := by
  rw [diagnostics, queue_of_runUnits h] at hd
  rcases Queue.of_mem_addAll hd with hd | hd
  · simp [start] at hd
  · exact List.mem_flatMap.mp hd

/-! ## Reachable models -/

/-- **Candidates are distinct**: a search from a method of a reachable model succeeds, and the
candidates of both passes are methods that differ from each other and from the searching one,
whatever the criteria. The same holds of the chosen candidate and its alternatives. After any runs
over units, every diagnostic about an ambiguous choice names different methods, also in the listing
of a final run over the whole model.

**Proof sketch.** A scope shows no method twice, and the candidates are methods that it shows. The
diagnostics of runs are those that are reported on units, but for the closing error. -/
theorem Catalog.distinct_of_reachable {c : Catalog} (hc : c.Reachable) :
    (∀ (criteria : Criteria) (id : MethodId), id.index < c.model.methods.length →
      ∃ cross same resolution, c.model.crossUnit criteria id = .ok cross ∧
        c.model.sameUnit criteria id = .ok same ∧
        c.model.resolveAll criteria id = .ok resolution ∧
        (id :: (cross ++ same).map (·.target.id)).Nodup ∧
        ∀ r, resolution = some r →
          (id :: (r.chosen :: r.alternatives).map (·.target.id)).Nodup) ∧
    ∀ (o : Options) (history : List UnitId), (∀ v ∈ history, v.index < c.model.units.length) →
      ∃ reports g out, (Generator.start o).runUnits c history = .ok (reports, g) ∧
        g.runModel c = .ok out ∧
        ∀ d ∈ g.diagnostics ++ out.diagnostics, d.code = .ambiguous → c.TellsApart d := by
  have hm := hc.wellFormed
  refine ⟨fun criteria id hid => ?_, fun o history hhistory => ?_⟩
  · have hmethod : c.model.method id = .ok c.model.methods[id.index] :=
      Model.method_eq_ok_iff.mpr (List.getElem?_eq_getElem hid)
    obtain ⟨s, hs, hx⟩ := hm.exists_scope_of_method hmethod
    refine ⟨_, _, _, hm.inScopeOf_eq _ hs hx, hm.inScopeOf_eq _ hs hx, hm.inScopeOf_eq _ hs hx,
      hm.nodup_candidates hs hx, fun r hr => ?_⟩
    have hdeciding := hm.nodup_deciding (c := criteria) hs hx
    rwa [Scope.resolveAll_eq_some_iff.mp hr] at hdeciding
  · obtain ⟨reports, g, h⟩ := (Generator.start o).exists_runUnits hm hhistory
    obtain ⟨out, hout⟩ := g.exists_runModel hm
    obtain ⟨g', hreports, hlisting⟩ := Generator.runModel_eq_ok_iff.mp hout
    have hall := Generator.runUnits_append h hreports
    refine ⟨reports, g, out, h, hout, fun d hd hcode => ?_⟩
    have htells : ∀ {us reports g}, (Generator.start o).runUnits c us = .ok (reports, g) →
        d ∈ g.diagnostics → c.TellsApart d := by
      intro us reports g h hd
      obtain ⟨u, -, hd⟩ := Generator.exists_mem_reported h hd
      exact tellsApart_of_mem_reported hm hd hcode
    rcases List.mem_append.mp hd with hd | hd
    · exact htells h hd
    · rw [hlisting] at hd
      rcases Queue.of_mem_flush hd with hd | rfl
      · exact htells hall hd
      · cases hcode

/-- In the mapper of users both passes find something for one method or the other, and one choice is
ambiguous. -/
theorem Catalog.distinct_contestedMapping :
    contestedMapping.Reachable ∧ contestedMapping.model.methods.length = 7 ∧
      contestedMapping.model.units.length = 2 ∧
      (∃ cross same resolution, contestedMapping.model.crossUnit {} ⟨3⟩ = .ok cross ∧
        contestedMapping.model.sameUnit {} ⟨3⟩ = .ok same ∧
        contestedMapping.model.resolveAll {} ⟨3⟩ = .ok resolution ∧
        ((⟨3⟩ : MethodId) :: (cross ++ same).map (·.target.id)).Nodup ∧
        ∀ r, resolution = some r →
          ((⟨3⟩ : MethodId) :: (r.chosen :: r.alternatives).map (·.target.id)).Nodup) ∧
      ∃ reports g out,
        (Generator.start .strict).runUnits contestedMapping [⟨1⟩] = .ok (reports, g) ∧
        g.runModel contestedMapping = .ok out ∧
        ∀ d ∈ g.diagnostics ++ out.diagnostics, d.code = .ambiguous →
          contestedMapping.TellsApart d := by
  have hc : contestedMapping.Reachable := reachable_ofEntries _
  obtain ⟨hsearch, hruns⟩ := distinct_of_reachable hc
  exact ⟨hc, by decide +kernel, by decide +kernel, hsearch {} ⟨3⟩ (by decide +kernel),
    hruns .strict [⟨1⟩] (by decide +kernel)⟩

end MapperDelegation
