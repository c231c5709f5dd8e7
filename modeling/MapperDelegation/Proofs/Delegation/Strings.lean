import MapperDelegation.Proofs.Delegation.Emission
import MapperDelegation.Proofs.Delegation.Outcome
import MapperDelegation.Proofs.Delegation.Transcript

set_option relaxedAutoImplicit false
set_option autoImplicit false

/-!
# The strings that a run looks up

The symbol table enters a run at two places only: in the texts of calls and in the texts of
diagnostics. All symbols that are looked up there come from the scope of the unit, and these are
symbols of the model. A run over a unit is therefore the same for any two tables that agree on the
symbols of its scope, and so are the strings that its report stands for.

## Main definitions

* `Scope.symbols` — the symbols that a scope mentions.
* `Reference.symbols`, `GeneratedMethod.symbols`, `Problem.symbols` — the symbols that are looked
  up, or shown to a reader, for what an examination yields.

## Main results

* `Catalog.knows_of_mem_symbols_scope` — the symbols of a scope belong to the table.
* `Scope.symbols_generate_subset`, `Scope.symbols_subset_of_mem_problems` — an examination brings
  no symbol along that is not in the scope.
* `Scope.verdicts_congr`, `Scope.reported_congr`, `Scope.spelled_ofVerdicts_congr` — what the
  examination of a unit yields depends on the strings of these symbols only.
-/

namespace MapperDelegation

/-! ## Symbols of a scope -/

/-- The symbols that a used unit of a scope mentions. -/
def Provider.symbols (p : Provider) : List Symbol :=
  p.use.accessVariable :: p.type.name :: p.members.flatMap (·.method.symbols)

namespace Scope

/-- The symbols that a scope mentions. -/
def symbols (s : Scope) : List Symbol :=
  s.unitName :: (s.members.flatMap (·.method.symbols) ++ s.providers.flatMap (·.symbols))

variable {s : Scope} {x y : Member} {p : Provider} {a : Symbol}

lemma unitName_mem_symbols (s : Scope) : s.unitName ∈ s.symbols := List.mem_cons_self

lemma mem_symbols_of_member (hx : x ∈ s.members) (ha : a ∈ x.method.symbols) : a ∈ s.symbols :=
  List.mem_cons_of_mem _ (List.mem_append_left _ (List.mem_flatMap_of_mem hx ha))

lemma mem_symbols_of_provider (hp : p ∈ s.providers) (ha : a ∈ p.symbols) : a ∈ s.symbols :=
  List.mem_cons_of_mem _ (List.mem_append_right _ (List.mem_flatMap_of_mem hp ha))

end Scope

namespace Method

variable {m : Method} {a : Symbol}

/-- The name of a method is one of its symbols. -/
lemma name_mem_symbols (m : Method) : m.name ∈ m.symbols := by simp [symbols]

/-- The names of the parameters are among the symbols of a method. -/
lemma paramNames_subset_symbols (m : Method) : m.paramNames ⊆ m.symbols := by
  intro a ha
  obtain ⟨p, hp, rfl⟩ := List.mem_map.mp ha
  simp only [symbols, List.mem_append, List.mem_cons, List.mem_flatMap]
  exact .inl (.inr (.inr ⟨p, hp, .inl rfl⟩))

/-- The types of the parameters are among the symbols of a method. -/
lemma paramType_mem_symbols {type : TypeSymbol} (h : type ∈ m.paramTypes) :
    type.name ∈ m.symbols := by
  obtain ⟨p, hp, rfl⟩ := List.mem_map.mp h
  simp only [symbols, List.mem_append, List.mem_cons, List.mem_flatMap]
  exact .inl (.inr (.inr ⟨p, hp, .inr (.inl rfl)⟩))

/-- The type that a method returns is among its symbols. -/
lemma returnType_mem_symbols (m : Method) : m.returnType.name ∈ m.symbols := by simp [symbols]

/-- What the qualifier of a method is given by is among its symbols. -/
lemma qualifier_mem_symbols {q : Qualifier} (h : m.qualifier = some q) : q.value ∈ m.symbols := by
  obtain ⟨request, hdelegate, hq⟩ := Option.bind_eq_some_iff.mp h
  have hmem : q.value ∈ request.symbols := by
    rw [DelegateRequest.symbols, List.mem_append]
    rcases Option.or_eq_some_iff.mp hq with hname | ⟨-, htype⟩
    · obtain ⟨name, hhead, rfl⟩ := Option.map_eq_some_iff.mp hname
      exact .inr (List.mem_of_mem_head? hhead)
    · obtain ⟨type, hhead, rfl⟩ := Option.map_eq_some_iff.mp htype
      exact .inl (List.mem_map_of_mem (List.mem_of_mem_head? hhead))
  simp only [symbols, hdelegate, Option.toList_some, List.flatMap_singleton, List.mem_append]
  exact .inl (.inl hmem)

end Method

/-- A model mentions the symbols of its methods. -/
lemma Model.mem_symbols_of_method {m : Model} {id : MethodId} {method : Method} {a : Symbol}
    (h : m.method id = .ok method) (ha : a ∈ method.symbols) : a ∈ m.symbols := by
  have hmethod : method ∈ m.methods := List.mem_of_getElem? (method_eq_ok_iff.mp h)
  exact List.mem_append_right _ (List.mem_flatMap_of_mem hmethod ha)

/-- The members of a unit mention symbols of the model only. -/
lemma Model.mem_symbols_of_mem_members {m : Model} {u : UnitId} {members : List Member} {a : Symbol}
    (h : m.members u = .ok members) (ha : a ∈ members.flatMap (·.method.symbols)) :
    a ∈ m.symbols := by
  obtain ⟨x, hx, ha⟩ := List.mem_flatMap.mp ha
  obtain ⟨unit, -, hmembers⟩ := members_eq_ok_iff.mp h
  obtain ⟨id, -, hmember⟩ := exists_mem_of_forall₂ hmembers hx
  exact mem_symbols_of_method (member_eq_ok_iff.mp hmember).2 ha

/-- A scope mentions symbols of the model only. -/
lemma Model.symbols_scope_subset {m : Model} {u : UnitId} {s : Scope} (hs : m.scope u = .ok s) :
    s.symbols ⊆ m.symbols := by
  intro a ha
  obtain ⟨unit, hunit, hname, hmembers, hproviders⟩ := scope_eq_ok_iff.mp hs
  simp only [Scope.symbols, List.mem_cons, List.mem_append] at ha
  rcases ha with rfl | ha | ha
  · rw [hname]
    exact mem_symbols_of_unit hunit List.mem_cons_self
  · exact mem_symbols_of_mem_members hmembers ha
  · obtain ⟨p, hp, ha⟩ := List.mem_flatMap.mp ha
    obtain ⟨use, huse, hprovider⟩ := exists_mem_of_forall₂ hproviders hp
    obtain ⟨rfl, ⟨used, hused, htype⟩, hmembers'⟩ := provider_eq_ok_iff.mp hprovider
    rcases List.mem_cons.mp ha with rfl | ha
    · refine mem_symbols_of_unit hunit (List.mem_cons_of_mem _ (List.mem_cons_of_mem _ ?_))
      exact List.mem_map_of_mem huse
    rcases List.mem_cons.mp ha with rfl | ha
    · rw [htype]
      exact mem_symbols_of_unit hused (List.mem_cons_of_mem _ List.mem_cons_self)
    · exact mem_symbols_of_mem_members hmembers' ha

/-- The symbols of a scope belong to the table of the catalogue. -/
lemma Catalog.knows_of_mem_symbols_scope {c : Catalog} (hc : c.Knows) {u : UnitId} {s : Scope}
    (hs : c.model.scope u = .ok s) {a : Symbol} (ha : a ∈ s.symbols) : c.symbols.Knows a :=
  hc a (Model.symbols_scope_subset hs ha)

/-! ## Symbols of what an examination yields -/

/-- The symbols that the call of a reference consists of. -/
def Reference.symbols (r : Reference) : List Symbol :=
  r.targetName :: (r.owner.accessVariable.toList ++ r.arguments)

/-- The symbols that a generated method shows. -/
def GeneratedMethod.symbols (g : GeneratedMethod) : List Symbol :=
  g.reference.symbols ++ g.requiredTypes.map (·.name)

/-- The symbols that the report on a problem shows. -/
def Cause.symbols : Cause → List Symbol
  | hasBody _ | conflictingDirectives _ | internal _ => []
  | noDelegate unit qualifier _ => unit :: (qualifier.map (·.value)).toList
  | sameUnit delegate => [delegate]
  | ambiguous chosen others => chosen :: others

/-- The symbols that the report on a problem shows, the name of the method included. -/
def Problem.symbols (p : Problem) : List Symbol := p.method :: p.cause.symbols

namespace Scope

variable {s : Scope} {symbols : SymbolTable} {o : Options} {c : Criteria} {x : Member}
  {candidate : Candidate}

/-- A candidate is a member of the scope, or of one of its used units, whose access variable and
type are then mentioned by the scope as well. -/
lemma symbols_of_mem_candidates (h : candidate ∈ s.candidates c x) :
    candidate.target.method.symbols ⊆ s.symbols ∧
      (∀ a ∈ candidate.owner.accessVariable, a ∈ s.symbols) := by
  rw [candidates_eq] at h
  split at h
  · obtain ⟨hmember, howner, -⟩ := mem_sameUnit_iff.mp h
    exact ⟨fun a ha => mem_symbols_of_member hmember ha, by simp [howner, Owner.accessVariable]⟩
  · obtain ⟨p, hp, hmember, howner, -⟩ := mem_crossUnit_iff.mp h
    refine ⟨fun a ha => mem_symbols_of_provider hp ?_, fun a ha => mem_symbols_of_provider hp ?_⟩
    · exact List.mem_cons_of_mem _ (List.mem_cons_of_mem _ (List.mem_flatMap_of_mem hmember ha))
    · have hvariable : p.use.accessVariable = a := by
        simpa [howner, Owner.accessVariable] using ha
      exact hvariable ▸ List.mem_cons_self

/-- The choice of a delegate and its alternatives are candidates. -/
lemma mem_candidates_of_choose {r : Resolution} (h : s.choose o x = some r) :
    ∀ candidate ∈ r.chosen :: r.alternatives,
      candidate ∈ s.candidates (o.criteriaFor x.method) x := by
  rw [choose_eq] at h
  cases hfound : s.candidates (o.criteriaFor x.method) x with
  | nil => simp [hfound] at h
  | cons chosen others =>
    obtain rfl : _ = r := by simpa [hfound] using h
    split
    · exact fun _ h => h
    · simp

/-- A generated method brings no symbol along that is not in the scope. -/
lemma symbols_generate_subset (hx : x ∈ s.members) (h : candidate ∈ s.candidates c x) :
    (s.generate symbols x candidate).symbols ⊆ s.symbols := by
  obtain ⟨htarget, howner⟩ := symbols_of_mem_candidates h
  intro a ha
  rcases List.mem_append.mp ha with ha | ha
  · rcases List.mem_cons.mp ha with rfl | ha
    · exact htarget candidate.target.method.name_mem_symbols
    rcases List.mem_append.mp ha with ha | ha
    · exact howner a (Option.mem_toList.mp ha)
    · rw [generate, Candidate.reference, Reference.arguments_ofTarget] at ha
      exact mem_symbols_of_member hx
        (x.method.paramNames_subset_symbols (List.mem_of_mem_take ha))
  · obtain ⟨type, htype, rfl⟩ := List.mem_map.mp ha
    rw [generate, requiredTypes, List.mem_eraseDups, List.mem_append, List.mem_append] at htype
    rcases htype with (hparam | hreturned) | htypeOf
    · exact mem_symbols_of_member hx (Method.paramType_mem_symbols hparam)
    · have hreturned' : type = x.method.returnType := by
        split at hreturned
        · cases hreturned
        · exact List.mem_singleton.mp hreturned
      exact mem_symbols_of_member hx (hreturned' ▸ x.method.returnType_mem_symbols)
    · obtain ⟨p, hp, rfl⟩ : ∃ p ∈ s.providers, p.type = type := by
        cases howner' : candidate.owner with
        | sameUnit => simp [howner', typeOf] at htypeOf
        | usedUnit use =>
          rw [howner', typeOf, Option.mem_toList] at htypeOf
          obtain ⟨p, hp, htype⟩ := Option.map_eq_some_iff.mp htypeOf
          exact ⟨p, List.mem_of_find?_eq_some hp, htype⟩
      exact mem_symbols_of_provider hp (List.mem_cons_of_mem _ List.mem_cons_self)

/-- The problems of a member bring no symbol along that is not in the scope. -/
lemma symbols_subset_of_mem_problems (hx : x ∈ s.members) {p : Problem}
    (hp : p ∈ (s.examine symbols o x).problems) : p.symbols ⊆ s.symbols := by
  have hname : x.method.name ∈ s.symbols :=
    mem_symbols_of_member hx x.method.name_mem_symbols
  suffices hcause : p.method = x.method.name ∧ p.cause.symbols ⊆ s.symbols by
    exact List.cons_subset.mpr ⟨hcause.1 ▸ hname, hcause.2⟩
  rcases examine_cases s symbols o x with ⟨p', hv, -, h⟩ | ⟨-, -, h⟩ | ⟨r, -, hr, -, h⟩
  · obtain rfl : p = p' := by simpa [h] using hp
    rcases x.method.eq_of_validate hv with rfl | rfl
    · exact ⟨rfl, List.nil_subset _⟩
    · exact ⟨rfl, List.nil_subset _⟩
  · obtain rfl : p = s.noDelegate x.method := by simpa [h] using hp
    refine ⟨rfl, List.cons_subset.mpr ⟨s.unitName_mem_symbols, fun a ha => ?_⟩⟩
    obtain ⟨q, hq, rfl⟩ := Option.map_eq_some_iff.mp (Option.mem_toList.mp ha)
    exact mem_symbols_of_member hx (Method.qualifier_mem_symbols hq)
  · have hfound : ∀ candidate ∈ r.chosen :: r.alternatives,
        candidate.target.method.name ∈ s.symbols := fun candidate hcandidate =>
      (symbols_of_mem_candidates (mem_candidates_of_choose hr candidate hcandidate)).1
        candidate.target.method.name_mem_symbols
    rw [h] at hp
    rcases r.eq_of_mem_remarks hp with rfl | rfl
    · exact ⟨rfl, List.cons_subset.mpr ⟨hfound _ List.mem_cons_self, List.nil_subset _⟩⟩
    · refine ⟨rfl, List.cons_subset.mpr ⟨hfound _ List.mem_cons_self, fun a ha => ?_⟩⟩
      obtain ⟨candidate, hcandidate, rfl⟩ := List.mem_map.mp ha
      exact hfound _ (List.mem_cons_of_mem _ hcandidate)

end Scope

/-! ## Tables that agree -/

section Agreement

variable {t u : SymbolTable}

/-- Tables that agree on some symbols look up the same strings for them. -/
lemma map_lookup_congr {names : List Symbol} (h : ∀ a ∈ names, t.lookup a = u.lookup a) :
    names.map t.lookup = names.map u.lookup := List.map_congr_left h

/-- The text of a call depends on the strings of its symbols only. -/
lemma Reference.callText_congr {r : Reference} (h : ∀ a ∈ r.symbols, t.lookup a = u.lookup a) :
    r.callText t r.arguments = r.callText u r.arguments := by
  simp only [Reference.symbols, List.forall_mem_cons, List.forall_mem_append,
    Option.mem_toList] at h
  obtain ⟨htarget, howner, harguments⟩ := h
  unfold callText
  rw [htarget, map_lookup_congr harguments]
  cases hvariable : r.owner.accessVariable with
  | none => rfl
  | some name => simp only [howner name hvariable]

/-- The strings of a generated method depend on the strings of its symbols only. -/
lemma GeneratedMethod.spelled_congr {g : GeneratedMethod}
    (h : ∀ a ∈ g.symbols, t.lookup a = u.lookup a) : g.spelled t = g.spelled u := by
  obtain ⟨hreference, htypes⟩ := List.forall_mem_append.mp h
  have htypes' : g.requiredTypes.map (t.lookup ·.name) = g.requiredTypes.map (u.lookup ·.name) :=
    List.map_congr_left fun type htype => htypes _ (List.mem_map_of_mem htype)
  simp only [Reference.symbols, List.forall_mem_cons, List.forall_mem_append,
    Option.mem_toList] at hreference
  obtain ⟨htarget, howner, harguments⟩ := hreference
  have howner' : g.reference.owner.spelled t = g.reference.owner.spelled u := by
    cases hg : g.reference.owner with
    | sameUnit => rfl
    | usedUnit use => simp only [Owner.spelled, howner use.accessVariable (by rw [hg]; rfl)]
  simp only [spelled, Reference.spelled, htarget, howner', map_lookup_congr harguments, htypes']

/-- The strings of a report depend on the strings of the symbols of its bodies only. -/
lemma UnitReport.spelled_congr {r : UnitReport}
    (h : ∀ g ∈ r.generated, ∀ a ∈ g.symbols, t.lookup a = u.lookup a) :
    r.spelled t = r.spelled u := by
  have hgenerated : r.generated.map (·.spelled t) = r.generated.map (·.spelled u) :=
    List.map_congr_left fun g hg => GeneratedMethod.spelled_congr (h g hg)
  simp only [spelled, hgenerated]

/-- The report on a problem depends on the strings of its symbols only. -/
lemma Problem.diagnostic_congr {p : Problem} (h : ∀ a ∈ p.symbols, t.lookup a = u.lookup a) :
    p.diagnostic t = p.diagnostic u := by
  obtain ⟨span, method, cause⟩ := p
  obtain ⟨hmethod, hcause⟩ := List.forall_mem_cons.mp h
  cases cause with
  | hasBody implementation => simp only [diagnostic, hmethod]
  | conflictingDirectives directives => simp only [diagnostic, hmethod]
  | internal error => simp only [diagnostic, hmethod]
  | sameUnit delegate =>
    have hdelegate := hcause delegate List.mem_cons_self
    simp only [diagnostic, hmethod, hdelegate]
  | ambiguous chosen others =>
    obtain ⟨hchosen, hothers⟩ := List.forall_mem_cons.mp hcause
    simp only [diagnostic, hmethod, hchosen, map_lookup_congr hothers]
  | noDelegate unit qualifier requestedAt =>
    obtain ⟨hunit, hqualifier⟩ := List.forall_mem_cons.mp hcause
    have hdescribe : ∀ q, qualifier = some q → q.describe t = q.describe u := by
      intro q hq
      have hvalue : t.lookup q.value = u.lookup q.value := hqualifier _ (by simp [hq])
      cases q with
      | byName name => exact congrArg (s!"name `{·}`") hvalue
      | byType type => exact congrArg (s!"type `{·}`") hvalue
    cases qualifier with
    | none => simp only [diagnostic, hmethod, hunit]
    | some q => simp only [diagnostic, hmethod, hunit, hdescribe q rfl]

namespace Scope

variable {s : Scope} {o : Options} {x : Member} (h : ∀ a ∈ s.symbols, t.lookup a = u.lookup a)
include h

/-- The verdict on a member depends on the strings of the symbols of the scope only. -/
lemma examine_congr (hx : x ∈ s.members) : s.examine t o x = s.examine u o x := by
  rw [examine, examine]
  cases x.method.validate with
  | error p => rfl
  | ok =>
    cases hr : s.choose o x with
    | none => rfl
    | some r =>
      have hchosen := mem_candidates_of_choose hr _ List.mem_cons_self
      have hsymbols : (s.generate t x r.chosen).symbols ⊆ s.symbols :=
        symbols_generate_subset hx hchosen
      have hcall := Reference.callText_congr fun a ha =>
        h a (hsymbols (List.mem_append_left _ ha))
      simp only [generate] at hcall ⊢
      rw [hcall]

/-- The verdicts on the delegating members depend on the strings of the symbols of the scope
only. -/
lemma verdicts_congr (o : Options) : s.verdicts t o = s.verdicts u o :=
  List.map_congr_left fun _ hx => examine_congr h (List.mem_of_mem_filter hx)

/-- The diagnostics that an examination gives rise to depend on the strings of the symbols of the
scope only. -/
lemma reported_congr (o : Options) : s.reported t o = s.reported u o := by
  rw [reported, reported, verdicts_congr h]
  refine List.map_congr_left fun p hp => Problem.diagnostic_congr fun a ha => h a ?_
  obtain ⟨v, hv, hp⟩ := List.mem_flatMap.mp hp
  obtain ⟨x, hx, rfl⟩ := List.mem_map.mp hv
  exact symbols_subset_of_mem_problems (List.mem_of_mem_filter hx) hp ha

/-- So do the diagnostics that a generator adds to those it has. -/
lemma emit_verdicts_congr (g : Generator) (o : Options) :
    g.emit t (s.verdicts t o) = g.emit u (s.verdicts u o) :=
  congrArg (fun ds => { g with queue := g.queue.addAll ds }) (reported_congr h o)

/-- The strings of a report on the unit depend on the strings of the symbols of the scope only. -/
lemma spelled_ofVerdicts_congr (v : UnitId) (o : Options) (symbols : SymbolTable) :
    (UnitReport.ofVerdicts v (s.verdicts symbols o)).spelled t =
      (UnitReport.ofVerdicts v (s.verdicts symbols o)).spelled u := by
  refine UnitReport.spelled_congr fun g hg a ha => h a ?_
  obtain ⟨x, hx, -, chosen, hchosen, rfl⟩ := mem_generated_ofVerdicts hg
  exact symbols_generate_subset (List.mem_of_mem_filter hx) (mem_candidates_of_find hchosen) ha

end Scope

end Agreement

end MapperDelegation
