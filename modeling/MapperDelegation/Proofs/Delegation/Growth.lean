import MapperDelegation.Proofs.Delegation.Priority

set_option relaxedAutoImplicit false
set_option autoImplicit false

/-!
# Delegates in growing models

Entries only ever append: a new unit, a new use or a new method comes after the earlier ones, and
what is declared stays as it is. A delegate that was found once is therefore found again after any
further entries, unless something was added to a place that has priority over its own. For a
delegate in a used unit these places are the units that are used before it, for one in the unit of
the method itself they are all the used units.

## Main definitions

* `Model.Entered` — what an entry does to a model.
* `Model.GrownBy` — what accepted entries leave of a model.
* `Catalog.Leads` — one catalogue comes out of another one by further entries.
* `MapperUnit.Spares` — entries that add nothing to the places that have priority over a candidate.

## Main results

* `Catalog.entered_add` — an entry appends one thing at its place, or nothing at all.
* `Catalog.Leads.grownBy` — further entries leave a model in place.
* `IsFirst.mono` — what stands first stays first if nothing is added before it.
* `Catalog.find_of_leads` — a delegate is still found after further entries that spare it.
-/

namespace MapperDelegation

/-! ## Growth by single entries -/

/-- A list that grows at its end stays as it is at the old positions. -/
lemma getElem?_eq_of_isPrefix {α : Type} {xs ys : List α} {i : ℕ} (h : xs <+: ys)
    (hi : i < xs.length) : ys[i]? = xs[i]? := by
  obtain ⟨rest, rfl⟩ := h
  exact List.getElem?_append_left hi

/-- An entry of a list stays at its position when the list grows at its end. -/
lemma getElem?_of_isPrefix {α : Type} {xs ys : List α} {i : ℕ} {x : α} (h : xs <+: ys)
    (hx : xs[i]? = some x) : ys[i]? = some x := by
  rw [getElem?_eq_of_isPrefix h (List.getElem?_eq_some_iff.mp hx).1, hx]

/-- The unit `unit'` is what has become of the unit with the handle `u` by the accepted entries
`added`: its lists grow at their ends, and only by entries for this unit. -/
structure MapperUnit.GrownBy (unit : MapperUnit) (u : UnitId) (added : List Entry)
    (unit' : MapperUnit) : Prop where
  methods_isPrefix : unit.methods <+: unit'.methods
  uses_isPrefix : unit.uses <+: unit'.uses
  methods_eq : (∀ d, .method u d ∉ added) → unit'.methods = unit.methods
  uses_eq : (∀ used named, .use u used named ∉ added) → unit'.uses = unit.uses

namespace Model

/-- What an entry does to a model, by the answer to it. -/
inductive Entered (m : Model) : Entry → Except ModelError Added → Model → Prop
  | refused (e : Entry) (err : ModelError) : Entered m e (.error err) m
  | unit (qualifiedName : String) (span : Span) (answer : Added) (new : MapperUnit) :
      Entered m (.unit qualifiedName span) (.ok answer) (m.addUnit new)
  | use (u used : UnitId) (named : Option String) (answer : Added) (new : UsedUnit) :
      Entered m (.use u used named) (.ok answer) (m.addUse u new)
  | method (u : UnitId) (d : Declaration) (answer : Added) (new : Method) :
      Entered m (.method u d) (.ok answer) (m.addMethod u new)

/-- The model `m'` is what has become of `m` by the accepted entries `added`. Methods stay as they
are, and units grow. -/
structure GrownBy (m : Model) (added : List Entry) (m' : Model) : Prop where
  method : ∀ {id method}, m.method id = .ok method → m'.method id = .ok method
  unit : ∀ {u unit}, m.unit u = .ok unit → ∃ unit', m'.unit u = .ok unit' ∧
    unit.GrownBy u added unit'

variable {m m' m'' : Model} {e : Entry} {added added' : List Entry}

namespace GrownBy

/-- Without entries a model stays as it is. -/
lemma refl (m : Model) : m.GrownBy [] m where
  method h := h
  unit h := ⟨_, h, List.prefix_refl _, List.prefix_refl _, fun _ => rfl, fun _ => rfl⟩

/-- Growth by some entries and then by others is growth by all of them. -/
lemma trans (h : m.GrownBy added m') (h' : m'.GrownBy added' m'') :
    m.GrownBy (added ++ added') m'' where
  method hmethod := h'.method (h.method hmethod)
  unit := by
    intro u unit hunit
    obtain ⟨unit', hunit', hgrown⟩ := h.unit hunit
    obtain ⟨unit'', hunit'', hgrown'⟩ := h'.unit hunit'
    refine ⟨unit'', hunit'', hgrown.methods_isPrefix.trans hgrown'.methods_isPrefix,
      hgrown.uses_isPrefix.trans hgrown'.uses_isPrefix, fun hnone => ?_, fun hnone => ?_⟩
    · rw [hgrown'.methods_eq fun d hd => hnone d (List.mem_append_right _ hd),
        hgrown.methods_eq fun d hd => hnone d (List.mem_append_left _ hd)]
    · rw [hgrown'.uses_eq fun used named hd => hnone used named (List.mem_append_right _ hd),
        hgrown.uses_eq fun used named hd => hnone used named (List.mem_append_left _ hd)]

end GrownBy

/-- An accepted entry makes a model grow by itself. -/
lemma Entered.grownBy {answer : Added} (h : m.Entered e (.ok answer) m') : m.GrownBy [e] m' := by
  cases h with
  | unit qualifiedName span _ new =>
    refine ⟨fun hmethod => hmethod, fun hunit => ⟨_, unit_addUnit_iff.mpr (.inl hunit), ?_⟩⟩
    exact ⟨List.prefix_refl _, List.prefix_refl _, fun _ => rfl, fun _ => rfl⟩
  | use v used named _ new =>
    refine ⟨fun hmethod => hmethod, fun hunit => ⟨_, unit_addUse_iff.mpr ⟨_, hunit, rfl⟩, ?_⟩⟩
    split
    · next h =>
      subst h
      refine ⟨List.prefix_refl _, List.prefix_append _ _, fun _ => rfl, fun hnone => ?_⟩
      exact absurd List.mem_cons_self (hnone used named)
    · exact ⟨List.prefix_refl _, List.prefix_refl _, fun _ => rfl, fun _ => rfl⟩
  | method v d _ new =>
    refine ⟨fun hmethod => method_addMethod_iff.mpr (.inl hmethod),
      fun hunit => ⟨_, unit_addMethod_iff.mpr ⟨_, hunit, rfl⟩, ?_⟩⟩
    split
    · next h =>
      subst h
      refine ⟨List.prefix_append _ _, List.prefix_refl _, fun hnone => ?_, fun _ => rfl⟩
      exact absurd List.mem_cons_self (hnone d)
    · exact ⟨List.prefix_refl _, List.prefix_refl _, fun _ => rfl, fun _ => rfl⟩

/-- A refused entry leaves a model as it is. -/
lemma Entered.eq_of_error {err : ModelError} (h : m.Entered e (.error err) m') : m' = m := by
  cases h
  rfl

end Model

/-! ## Growth of catalogues -/

namespace Catalog

variable {c c' : Catalog} {added : List Entry}

/-- A unit is added at the end of the list of units, or not at all. -/
lemma entered_unit (c : Catalog) (qualifiedName : String) (span : Span) :
    c.model.Entered (.unit qualifiedName span) (c.add (.unit qualifiedName span)).1
      (c.add (.unit qualifiedName span)).2.model := by
  simp only [add, addUnit]
  split
  · exact .refused _ _
  · exact .unit _ _ _ _

/-- A use is added at the end of the list of uses of its unit, or not at all. -/
lemma entered_addUseAs (c : Catalog) (u used : UnitId) (named : Option String)
    (accessVariable : String) :
    let outcome := (c.addUseAs u used accessVariable).map (Except.map fun _ => .use) id
    c.model.Entered (.use u used named) outcome.1 outcome.2.model := by
  simp only [addUseAs]
  split
  · exact .refused _ _
  · exact .refused _ _
  · split_ifs
    · exact .refused _ _
    · exact .refused _ _
    · exact .refused _ _
    · exact .use _ _ _ _ _

/-- A use is added at the end of the list of uses of its unit, or not at all, whether its variable
is named or derived. -/
lemma entered_use (c : Catalog) (u used : UnitId) (named : Option String) :
    c.model.Entered (.use u used named) (c.add (.use u used named)).1
      (c.add (.use u used named)).2.model := by
  cases named with
  | some accessVariable => exact c.entered_addUseAs u used _ accessVariable
  | none =>
    simp only [add, addUse]
    split
    · exact .refused _ _
    · exact c.entered_addUseAs u used _ _

/-- A method is added at the end of the list of methods and of the members of its unit, or not at
all. -/
lemma entered_method (c : Catalog) (u : UnitId) (d : Declaration) :
    c.model.Entered (.method u d) (c.add (.method u d)).1 (c.add (.method u d)).2.model := by
  simp only [add, addMethod]
  split
  · exact .refused _ _
  · exact .method _ _ _ _

/-- An entry appends one thing at its place, or nothing at all. -/
lemma entered_add (c : Catalog) (e : Entry) : c.model.Entered e (c.add e).1 (c.add e).2.model := by
  cases e with
  | unit qualifiedName span => exact c.entered_unit qualifiedName span
  | use u used named => exact c.entered_use u used named
  | method u d => exact c.entered_method u d

/-- The catalogue comes out of `c` by further entries, of which `added` are those that were
accepted. Any strings may be entered in between. -/
inductive Leads (c : Catalog) : List Entry → Catalog → Prop
  | refl : Leads c [] c
  | intern {added : List Entry} {c' : Catalog} (h : Leads c added c') (s : String) :
      Leads c added (c'.intern s).2
  | accepted {added : List Entry} {c' : Catalog} (h : Leads c added c') (e : Entry)
      {answer : Added} (hadd : (c'.add e).1 = .ok answer) : Leads c (added ++ [e]) (c'.add e).2
  | refused {added : List Entry} {c' : Catalog} (h : Leads c added c') (e : Entry)
      {err : ModelError} (hadd : (c'.add e).1 = .error err) : Leads c added (c'.add e).2

namespace Leads

/-- Further entries lead from a reachable catalogue to a reachable one. -/
lemma reachable (h : c.Leads added c') (hc : c.Reachable) : c'.Reachable := by
  induction h with
  | refl => exact hc
  | intern _ s ih => exact ih.intern s
  | accepted _ e _ ih => exact ih.add e
  | refused _ e _ ih => exact ih.add e

/-- Further entries make the model grow by those that are accepted.

**Proof sketch.** Induction on the way to the catalogue. An accepted entry appends one thing, and
a refused one nothing. -/
lemma grownBy (h : c.Leads added c') : c.model.GrownBy added c'.model := by
  induction h with
  | refl => exact .refl _
  | intern _ s ih => exact ih
  | @accepted added c' _ e answer hadd ih =>
    have hentered := c'.entered_add e
    rw [hadd] at hentered
    exact ih.trans hentered.grownBy
  | @refused added c' _ e err hadd ih =>
    have hentered := c'.entered_add e
    rw [hadd] at hentered
    rw [hentered.eq_of_error]
    exact ih

/-- Entries that are all accepted lead to the catalogue that comes out of them. -/
lemma addAll (h : c.Leads added c') {entries : List Entry}
    (hall : ∀ answer ∈ (c'.addAll entries).1, answer.isOk) :
    c.Leads (added ++ entries) (c'.addAll entries).2 := by
  induction entries generalizing added c' with
  | nil => rwa [List.append_nil]
  | cons e entries ih =>
    rw [Catalog.addAll] at hall ⊢
    have hfirst := hall (c'.add e).1 List.mem_cons_self
    have hrest := fun answer hanswer => hall answer (List.mem_cons_of_mem _ hanswer)
    cases hadd : (c'.add e).1 with
    | error err =>
      rw [hadd] at hfirst
      cases hfirst
    | ok answer =>
      rw [List.append_cons]
      exact ih (h.accepted e hadd) hrest

end Leads

end Catalog

/-! ## Offers of a grown model -/

/-- What stands first stays first if nothing is added before it. -/
lemma IsFirst.mono {ι α : Type} [LinearOrder ι] {R R' : ι → α → Prop} {x : α} (h : IsFirst R x)
    (hR : ∀ i y, R i y → R' i y) (hbefore : ∀ i, R i x → ∀ j < i, ∀ y, R' j y → R j y) :
    IsFirst R' x := by
  obtain ⟨i, hi, hmin⟩ := h
  refine ⟨i, hR i x hi, fun j y hy => not_lt.mp fun hlt => ?_⟩
  exact not_le_of_gt hlt (hmin j y (hbefore i hi j hlt y hy))

/-- The entries `added` add nothing to the places that have priority over a candidate of a method of
the unit `user`, which has the handle `u`. For a candidate in a used unit these are the units that
are used before it, and for one in the unit itself all the used units and the list of them. -/
def MapperUnit.Spares (user : MapperUnit) (u : UnitId) (candidate : Candidate)
    (added : List Entry) : Prop :=
  match candidate.owner with
  | .usedUnit use => ∀ before after, user.uses = before ++ use :: after →
      ∀ earlier ∈ before, ∀ d, .method earlier.unit d ∉ added
  | .sameUnit => (∀ used named, .use u used named ∉ added) ∧
      ∀ use ∈ user.uses, ∀ d, .method use.unit d ∉ added

namespace Model

variable {m m' : Model} {added : List Entry} {c : Criteria} {u : UnitId}
  {user user' used used' : MapperUnit} {candidate : Candidate}

/-- A well-formed model finds every method that one of its units lists. -/
lemma WellFormed.exists_method (hm : m.WellFormed) (hu : m.unit u = .ok user) {id : MethodId}
    {i : ℕ} (hid : user.methods[i]? = some id) : ∃ method, m.method id = .ok method := by
  obtain ⟨method, hmethod, -⟩ :=
    ((hm.unit hu).mem_methods_iff id).mp (List.mem_of_getElem? hid)
  exact ⟨method, hmethod⟩

/-- A search that starts from a method of a well-formed model finds the first offer of the used
units, or the first one of the unit itself if the used units offer nothing. -/
lemma WellFormed.find_eq_some_iff (hm : m.WellFormed) {id : MethodId} {source : Method}
    (hmethod : m.method id = .ok source) (huser : m.unit source.unit = .ok user) :
    m.find c id = .ok (some candidate) ↔
      IsFirst (m.CrossOffer c source user) candidate ∨
        (∀ i x, ¬ m.CrossOffer c source user i x) ∧
          IsFirst (m.OwnOffer c ⟨id, source⟩ user) candidate := by
  obtain ⟨s, hs, hx⟩ := hm.exists_scope_of_method hmethod
  have hanswer := Scope.searchAnswer
    (inOrder_crossOffer (c := c) (x := ⟨id, source⟩) hs huser) (inOrder_ownOffer hs huser)
  rw [find, hm.inScopeOf_eq (fun s x => s.find c x) hs hx, Except.ok.injEq,
    hanswer.found_eq_some_iff]

namespace GrownBy

variable (hg : m.GrownBy added m')
include hg

/-- The used units offer what they offered before. -/
lemma crossOffer {source : Method} (huser : user.GrownBy u added user') {position : ℕ ×ₗ ℕ}
    (h : m.CrossOffer c source user position candidate) :
    m'.CrossOffer c source user' position candidate := by
  obtain ⟨use, used, huse, hused, hid, hmethod, htest⟩ := h
  obtain ⟨used', hused', hgrown⟩ := hg.unit hused
  exact ⟨use, used', getElem?_of_isPrefix huser.uses_isPrefix huse, hused',
    getElem?_of_isPrefix hgrown.methods_isPrefix hid, hg.method hmethod, htest⟩

/-- A unit offers what it offered before. -/
lemma ownOffer {source : Member} (huser : user.GrownBy u added user') {position : ℕ}
    (h : m.OwnOffer c source user position candidate) :
    m'.OwnOffer c source user' position candidate := by
  obtain ⟨hid, hmethod, htest⟩ := h
  exact ⟨getElem?_of_isPrefix huser.methods_isPrefix hid, hg.method hmethod, htest⟩

/-- What stands at an old position of an old unit is found there in the old model. -/
lemma method_of_lt (hm : m.WellFormed) (hused : m.unit u = .ok used)
    (hgrown : used.GrownBy u added used') {i : ℕ} (hi : i < used.methods.length) {id : MethodId}
    {method : Method} (hid : used'.methods[i]? = some id) (hmethod : m'.method id = .ok method) :
    used.methods[i]? = some id ∧ m.method id = .ok method := by
  rw [getElem?_eq_of_isPrefix hgrown.methods_isPrefix hi] at hid
  obtain ⟨old, hold⟩ := hm.exists_method hused hid
  obtain rfl : old = method := eq_of_eq_ok (hg.method hold) hmethod
  exact ⟨hid, hold⟩

variable {source : Method}

/-- An offer at the position of an old use is a method of the old unit as it has grown. -/
lemma exists_grownBy_of_crossOffer (huser : user.GrownBy u added user') {position : ℕ ×ₗ ℕ}
    {use : UsedUnit} (huse : user.uses[(ofLex position).1]? = some use)
    (hused : m.unit use.unit = .ok used)
    (h : m'.CrossOffer c source user' position candidate) :
    ∃ used', used.GrownBy use.unit added used' ∧
      used'.methods[(ofLex position).2]? = some candidate.target.id ∧
      m'.method candidate.target.id = .ok candidate.target.method ∧
      candidate.owner = .usedUnit use ∧ candidate.target.method.visibility = .all ∧
      candidate.target.method.kind = .method ∧ c.Admits source candidate.target.method := by
  obtain ⟨use', used', huse', hused', hoffer⟩ := h
  rw [getElem?_of_isPrefix huser.uses_isPrefix huse, Option.some.injEq] at huse'
  subst huse'
  obtain ⟨grown, hgrown', hgrown⟩ := hg.unit hused
  obtain rfl : grown = used' := eq_of_eq_ok hgrown' hused'
  exact ⟨grown, hgrown, hoffer⟩

/-- At an old position of an old use nothing is offered that was not offered before. -/
lemma of_crossOffer (hm : m.WellFormed) (huser : user.GrownBy u added user')
    {position : ℕ ×ₗ ℕ} {use : UsedUnit} (huse : user.uses[(ofLex position).1]? = some use)
    (hused : m.unit use.unit = .ok used) (hi : (ofLex position).2 < used.methods.length)
    (h : m'.CrossOffer c source user' position candidate) :
    m.CrossOffer c source user position candidate := by
  obtain ⟨used', hgrown, hid, hmethod, htest⟩ :=
    hg.exists_grownBy_of_crossOffer huser huse hused h
  obtain ⟨hid, hmethod⟩ := hg.method_of_lt hm hused hgrown hi hid hmethod
  exact ⟨use, used, huse, hused, hid, hmethod, htest⟩

/-- An old use whose unit gets no methods offers nothing that it did not offer before. -/
lemma of_crossOffer_of_notMem (hm : m.WellFormed) (hu : m.unit u = .ok user)
    (huser : user.GrownBy u added user') {position : ℕ ×ₗ ℕ} {use : UsedUnit}
    (huse : user.uses[(ofLex position).1]? = some use)
    (hnone : ∀ d, .method use.unit d ∉ added)
    (h : m'.CrossOffer c source user' position candidate) :
    m.CrossOffer c source user position candidate := by
  obtain ⟨used, hused⟩ := exists_unit ((hm.unit hu).known use (List.mem_of_getElem? huse))
  refine hg.of_crossOffer hm huser huse hused ?_ h
  obtain ⟨used', hgrown, hid, -⟩ := hg.exists_grownBy_of_crossOffer huser huse hused h
  rw [hgrown.methods_eq hnone] at hid
  exact (List.getElem?_eq_some_iff.mp hid).1

/-- The first offer of the used units stays first if the units used before get no methods. -/
lemma isFirst_crossOffer (hm : m.WellFormed) (hu : m.unit u = .ok user)
    (huser : user.GrownBy u added user') (hspares : user.Spares u candidate added)
    (h : IsFirst (m.CrossOffer c source user) candidate) :
    IsFirst (m'.CrossOffer c source user') candidate := by
  refine h.mono (fun _ _ => hg.crossOffer huser) fun position hcandidate earlier hlt y hy => ?_
  obtain ⟨use, used, huse, hused, hid, -, howner, -⟩ := hcandidate
  obtain ⟨hi, huse'⟩ := List.getElem?_eq_some_iff.mp huse
  rcases Prod.Lex.lt_iff.mp hlt with hunit | ⟨hunit, hmethod⟩
  · -- another unit is used before, and it gets no methods
    rw [MapperUnit.Spares, howner] at hspares
    have hsplit : user.uses = user.uses.take (ofLex position).1 ++
        use :: user.uses.drop ((ofLex position).1 + 1) := by
      rw [← huse', ← List.drop_eq_getElem_cons hi, List.take_append_drop]
    have hbefore : user.uses[(ofLex earlier).1] ∈ user.uses.take (ofLex position).1 :=
      List.mem_take_iff_getElem.mpr ⟨_, by omega, rfl⟩
    exact hg.of_crossOffer_of_notMem hm hu huser (List.getElem?_eq_getElem (hunit.trans hi))
      (hspares _ _ hsplit _ hbefore) hy
  · -- the position is an earlier one of the same unit
    rw [← hunit] at huse
    exact hg.of_crossOffer hm huser huse hused
      (hmethod.trans (List.getElem?_eq_some_iff.mp hid).1) hy

/-- Used units that offer nothing still do so if they get no methods and no others are used. -/
lemma not_crossOffer (hm : m.WellFormed) (hu : m.unit u = .ok user)
    (huser : user.GrownBy u added user') (huses : ∀ used named, .use u used named ∉ added)
    (hmethods : ∀ use ∈ user.uses, ∀ d, .method use.unit d ∉ added)
    (hnone : ∀ i x, ¬ m.CrossOffer c source user i x) (position : ℕ ×ₗ ℕ) :
    ¬ m'.CrossOffer c source user' position candidate := by
  intro h
  have ⟨use, _, huse, _⟩ := h
  rw [huser.uses_eq huses] at huse
  exact hnone _ _ (hg.of_crossOffer_of_notMem hm hu huser huse
    (hmethods use (List.mem_of_getElem? huse)) h)

/-- The first offer of a unit itself stays the first one. -/
lemma isFirst_ownOffer {source : Member} (hm : m.WellFormed) (hu : m.unit u = .ok user)
    (huser : user.GrownBy u added user') (h : IsFirst (m.OwnOffer c source user) candidate) :
    IsFirst (m'.OwnOffer c source user') candidate := by
  refine h.mono (fun _ _ => hg.ownOffer huser) fun position hcandidate earlier hlt y hy => ?_
  obtain ⟨hi, -⟩ := List.getElem?_eq_some_iff.mp hcandidate.1
  obtain ⟨hid, hmethod, htest⟩ := hy
  obtain ⟨hid, hmethod⟩ := hg.method_of_lt hm hu huser (hlt.trans hi) hid hmethod
  exact ⟨hid, hmethod, htest⟩

end GrownBy

end Model

/-- **Delegates stay**: a delegate that a reachable catalogue finds for a method is found again
after any further entries that add nothing to the places with priority over it, whatever the
criteria.

**Proof sketch.** The model only grows, at the ends of its lists. An offer keeps its position, and
any new offer before it would stand at a place that was spared. -/
theorem Catalog.find_of_leads {c c' : Catalog} {added : List Entry} (hc : c.Reachable)
    (h : c.Leads added c') {criteria : Criteria} {id : MethodId} {candidate : Candidate}
    (hfind : c.model.find criteria id = .ok (some candidate)) :
    ∃ source user, c.model.method id = .ok source ∧ c.model.unit source.unit = .ok user ∧
      (user.Spares source.unit candidate added →
        c'.model.find criteria id = .ok (some candidate)) := by
  have hm := hc.wellFormed
  have hg := h.grownBy
  obtain ⟨⟨_, source⟩, s, hx, hs, -⟩ := Model.inScopeOf_eq_ok_iff.mp hfind
  obtain ⟨rfl, hmethod⟩ := Model.member_eq_ok_iff.mp hx
  obtain ⟨user, huser, -⟩ := Model.scope_eq_ok_iff.mp hs
  refine ⟨source, user, hmethod, huser, fun hspares => ?_⟩
  obtain ⟨user', huser', hgrown⟩ := hg.unit huser
  rw [(h.reachable hc).wellFormed.find_eq_some_iff (hg.method hmethod) huser']
  rcases (hm.find_eq_some_iff hmethod huser).mp hfind with hcross | ⟨hnone, hown⟩
  · exact .inl (hg.isFirst_crossOffer hm huser hgrown hspares hcross)
  · have ⟨_, ⟨_, _, howner, _⟩, _⟩ := hown
    rw [MapperUnit.Spares, howner] at hspares
    exact .inr ⟨fun i x => hg.not_crossOffer hm huser hgrown hspares.1 hspares.2 hnone i,
      hg.isFirst_ownOffer hm huser hgrown hown⟩

/-- Further entries that offer delegates for the method `audit` of `contestedMapping` in a new unit
and behind the delegate that it has in its own unit. -/
def laterEntries : List Entry := [
  .unit "com.AuditMapper" .unknown,
  .use ⟨0⟩ ⟨2⟩ none,
  .method ⟨2⟩ (.ofClauses "note" [.param "user" "User"]),
  .method ⟨1⟩ (.ofClauses "trace" [.param "user" "User", .implemented .default])]

/-- The delegate in the same unit stays, since the new unit is used by another one. -/
theorem Catalog.find_laterEntries :
    ∃ candidate source user, contestedMapping.Reachable ∧
      contestedMapping.Leads laterEntries (contestedMapping.addAll laterEntries).2 ∧
      contestedMapping.model.find {} ⟨4⟩ = .ok (some candidate) ∧
      contestedMapping.model.method ⟨4⟩ = .ok source ∧
      contestedMapping.model.unit source.unit = .ok user ∧
      user.Spares source.unit candidate laterEntries ∧
      (contestedMapping.addAll laterEntries).2.model.find {} ⟨4⟩ = .ok (some candidate) := by
  have hc : contestedMapping.Reachable := reachable_ofEntries _
  have hleads : contestedMapping.Leads laterEntries (contestedMapping.addAll laterEntries).2 :=
    Leads.refl.addAll (by decide +kernel)
  have hfind : contestedMapping.model.find {} ⟨4⟩ = .ok (some
      ⟨⟨⟨2⟩, contestedMapping.model.methods.get ⟨2, by decide +kernel⟩⟩, .sameUnit⟩) := by
    decide +kernel
  obtain ⟨source, user, hsource, huser, hstays⟩ := find_of_leads hc hleads hfind
  have hunit : source.unit = ⟨1⟩ := by
    have h : (contestedMapping.model.method ⟨4⟩).map (·.unit) = .ok ⟨1⟩ := by decide +kernel
    rw [hsource] at h
    exact Except.ok.inj h
  have huses : user.uses.map (·.unit) = [⟨0⟩] := by
    have h : (contestedMapping.model.unit ⟨1⟩).map (·.uses.map (·.unit)) = .ok [⟨0⟩] := by
      decide +kernel
    rw [← hunit, huser] at h
    exact Except.ok.inj h
  have hspares : user.Spares source.unit
      ⟨⟨⟨2⟩, contestedMapping.model.methods.get ⟨2, by decide +kernel⟩⟩, .sameUnit⟩
      laterEntries := by
    refine ⟨by simp [laterEntries, hunit], fun use huse => ?_⟩
    have hused : use.unit = ⟨0⟩ := by simpa [huses] using List.mem_map_of_mem (f := (·.unit)) huse
    simp [laterEntries, hused]
  exact ⟨_, source, user, hc, hleads, hfind, hsource, huser, hspares, hstays hspares⟩

end MapperDelegation
