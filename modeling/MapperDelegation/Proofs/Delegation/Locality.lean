import MapperDelegation.Proofs.Delegation.Growth
import MapperDelegation.Proofs.Delegation.Strings

set_option relaxedAutoImplicit false
set_option autoImplicit false

/-!
# Runs in growing models

A run over a unit looks at the unit, at the units that it uses, and at the members of all of these.
Further entries that add neither a use nor a method there leave its scope as it is, although they
may declare other units, let them use this one, and enter any strings. The run then goes as before:
it yields the same report, symbol by symbol and string by string, and the same diagnostics.

## Main definitions

* `Model.HasNames` — a unit with its simple and its qualified name.
* `Catalog.accepted` — the entries of a list that are not refused.
* `MapperUnit.Untouched` — entries that add nothing to a unit nor to the units that it uses.

## Main results

* `Catalog.Leads.strings_isPrefix`, `Catalog.Leads.exists_unit` — what further entries keep.
* `Catalog.Leads.scope_eq` — the scope of a unit that they leave untouched is one of these things.
* `Generator.runUnit_of_leads` — and so is a run over such a unit.
-/

namespace MapperDelegation

/-! ## What further entries keep -/

/-- The unit with the handle `u` has these two names. -/
def Model.HasNames (m : Model) (u : UnitId) (name : Symbol) (type : TypeSymbol) : Prop :=
  ∃ unit, m.unit u = .ok unit ∧ unit.name = name ∧ unit.type = type

/-- A unit keeps its two names when an entry is added to its model. -/
lemma Model.Entered.hasNames {m m' : Model} {e : Entry} {answer : Except ModelError Added}
    (h : m.Entered e answer m') {u : UnitId} {name : Symbol} {type : TypeSymbol}
    (hnames : m.HasNames u name type) : m'.HasNames u name type := by
  obtain ⟨unit, hunit, rfl, rfl⟩ := hnames
  cases h with
  | refused => exact ⟨unit, hunit, rfl, rfl⟩
  | unit _ _ _ new => exact ⟨unit, unit_addUnit_iff.mpr (.inl hunit), rfl, rfl⟩
  | use =>
    refine ⟨_, unit_addUse_iff.mpr ⟨unit, hunit, rfl⟩, ?_⟩
    split <;> exact ⟨rfl, rfl⟩
  | method =>
    refine ⟨_, unit_addMethod_iff.mpr ⟨unit, hunit, rfl⟩, ?_⟩
    split <;> exact ⟨rfl, rfl⟩

namespace Catalog

variable {c c' : Catalog} {added : List Entry} {u : UnitId} {unit : MapperUnit}

/-- The entries of a list that are not refused when they are added one after the other. -/
def accepted (c : Catalog) : List Entry → List Entry
  | [] => []
  | e :: entries =>
    if (c.add e).1.isOk then e :: (c.add e).2.accepted entries else (c.add e).2.accepted entries

namespace Leads

/-- Further entries append to the table only. -/
lemma strings_isPrefix (h : c.Leads added c') : c.symbols.strings <+: c'.symbols.strings := by
  induction h with
  | refl => exact List.prefix_refl _
  | intern _ s ih => exact ih.trans (SymbolTable.prefix_intern _ s)
  | @accepted _ c' _ e _ _ ih => exact ih.trans (c'.grows_add e).strings_isPrefix
  | @refused _ c' _ e _ _ ih => exact ih.trans (c'.grows_add e).strings_isPrefix

/-- A unit keeps its two names under further entries. -/
lemma hasNames (h : c.Leads added c') {name : Symbol} {type : TypeSymbol}
    (hnames : c.model.HasNames u name type) : c'.model.HasNames u name type := by
  induction h with
  | refl => exact hnames
  | intern _ s ih => exact ih
  | @accepted _ c' _ e _ _ ih => exact (c'.entered_add e).hasNames ih
  | @refused _ c' _ e _ _ ih => exact (c'.entered_add e).hasNames ih

/-- A unit keeps its two names under further entries, and its lists grow by those for this unit. -/
lemma exists_unit (h : c.Leads added c') (hunit : c.model.unit u = .ok unit) :
    ∃ unit', c'.model.unit u = .ok unit' ∧ unit'.name = unit.name ∧ unit'.type = unit.type ∧
      unit.GrownBy u added unit' := by
  obtain ⟨unit', hunit', hgrown⟩ := h.grownBy.unit hunit
  obtain ⟨found, hfound, hname, htype⟩ := h.hasNames ⟨unit, hunit, rfl, rfl⟩
  obtain rfl : unit' = found := eq_of_eq_ok hunit' hfound
  exact ⟨unit', hunit', hname, htype, hgrown⟩

/-- A list of entries leads to the catalogue that comes out of it, by those that are accepted. -/
lemma addAll_accepted (h : c.Leads added c') (entries : List Entry) :
    c.Leads (added ++ c'.accepted entries) (c'.addAll entries).2 := by
  induction entries generalizing added c' with
  | nil => rwa [Catalog.accepted, List.append_nil]
  | cons e entries ih =>
    rw [Catalog.accepted, Catalog.addAll]
    cases hadd : (c'.add e).1 with
    | error err => exact ih (h.refused e hadd)
    | ok answer =>
      have hrest := ih (h.accepted e hadd)
      rw [List.append_assoc] at hrest
      exact hrest

end Leads

end Catalog

/-! ## Untouched units -/

/-- The entries `added` add no use and no method to the unit with the handle `u`, nor any method to
the units that it uses. -/
structure MapperUnit.Untouched (unit : MapperUnit) (u : UnitId) (added : List Entry) : Prop where
  uses : ∀ used named, .use u used named ∉ added
  methods : ∀ d, .method u d ∉ added
  usedMethods : ∀ use ∈ unit.uses, ∀ d, .method use.unit d ∉ added

namespace Catalog.Leads

variable {c c' : Catalog} {added : List Entry} {u : UnitId} {unit : MapperUnit}

/-- A unit that gets no methods keeps its members. -/
lemma members_eq (h : c.Leads added c') (hnone : ∀ d, .method u d ∉ added) {members : List Member}
    (hmembers : c.model.members u = .ok members) : c'.model.members u = .ok members := by
  obtain ⟨unit, hunit, hmember⟩ := Model.members_eq_ok_iff.mp hmembers
  obtain ⟨unit', hunit', -, -, hgrown⟩ := h.exists_unit hunit
  refine Model.members_eq_ok_iff.mpr ⟨unit', hunit', ?_⟩
  rw [hgrown.methods_eq hnone]
  refine hmember.imp fun id x hx => ?_
  obtain ⟨hid, hmethod⟩ := Model.member_eq_ok_iff.mp hx
  exact Model.member_eq_ok_iff.mpr ⟨hid, h.grownBy.method hmethod⟩

/-- A used unit that gets no methods is seen as before. -/
lemma provider_eq (h : c.Leads added c') {use : UsedUnit} (hnone : ∀ d, .method use.unit d ∉ added)
    {p : Provider} (hp : c.model.provider use = .ok p) : c'.model.provider use = .ok p := by
  obtain ⟨huse, ⟨used, hused, htype⟩, hmembers⟩ := Model.provider_eq_ok_iff.mp hp
  obtain ⟨used', hused', -, htype', -⟩ := h.exists_unit hused
  exact Model.provider_eq_ok_iff.mpr
    ⟨huse, ⟨used', hused', htype.trans htype'.symm⟩, h.members_eq hnone hmembers⟩

/-- A unit that is left untouched keeps its scope. -/
lemma scope_eq (h : c.Leads added c') (hunit : c.model.unit u = .ok unit)
    (huntouched : unit.Untouched u added) {s : Scope} (hs : c.model.scope u = .ok s) :
    c'.model.scope u = .ok s := by
  obtain ⟨_, hunit₁, hname, hmembers, hproviders⟩ := Model.scope_eq_ok_iff.mp hs
  obtain rfl := eq_of_eq_ok hunit hunit₁
  obtain ⟨unit', hunit', hname', -, hgrown⟩ := h.exists_unit hunit
  refine Model.scope_eq_ok_iff.mpr ⟨unit', hunit', hname.trans hname'.symm,
    h.members_eq huntouched.methods hmembers, ?_⟩
  rw [hgrown.uses_eq huntouched.uses]
  refine List.forall₂_iff_get.mpr ⟨hproviders.length_eq, fun i hi hi' => ?_⟩
  exact h.provider_eq (huntouched.usedMethods _ (List.get_mem _ _)) (hproviders.get hi hi')

/-- The symbols of a scope stand for the same strings as before. -/
lemma lookup_eq_of_mem_symbols (h : c.Leads added c') (hc : c.Knows) {s : Scope}
    (hs : c.model.scope u = .ok s) {a : Symbol} (ha : a ∈ s.symbols) :
    c'.symbols.lookup a = c.symbols.lookup a :=
  SymbolTable.lookup_of_prefix h.strings_isPrefix (knows_of_mem_symbols_scope hc hs ha)

end Catalog.Leads

/-- **Runs are local**: further entries that add no use and no method to a unit, nor any method to
the units that it uses, change nothing about a run over it. The same generator yields the same
report, whose symbols stand for the same strings, and it emits the same diagnostics.

**Proof sketch.** The unit keeps its scope, so that the verdicts are taken on the same members with
the same candidates. The tables differ, but the later one continues the earlier one, which knows all
symbols of the scope; and the texts of calls and of diagnostics show no others. -/
theorem Generator.runUnit_of_leads {c c' : Catalog} {added : List Entry} (hc : c.Reachable)
    (h : c.Leads added c') {u : UnitId} {unit : MapperUnit} (hunit : c.model.unit u = .ok unit)
    (huntouched : unit.Untouched u added) (g : Generator) :
    ∃ r g', g.runUnit c u = .ok (r, g') ∧ g.runUnit c' u = .ok (r, g') ∧
      r.spelled c'.symbols = r.spelled c.symbols := by
  obtain ⟨s, hs⟩ := hc.wellFormed.exists_scope (Model.index_lt_of_unit hunit)
  have hs' := h.scope_eq hunit huntouched hs
  have hlookup : ∀ a ∈ s.symbols, c'.symbols.lookup a = c.symbols.lookup a := fun a ha =>
    h.lookup_eq_of_mem_symbols hc.knows hs ha
  refine ⟨_, _, runUnit_eq_ok_iff.mpr ⟨s, hs, rfl, rfl⟩,
    runUnit_eq_ok_iff.mpr ⟨s, hs', ?report, ?queue⟩, ?spelled⟩
  case report => rw [Scope.verdicts_congr hlookup]
  case queue => exact (Scope.emit_verdicts_congr hlookup g _).symm
  case spelled => exact Scope.spelled_ofVerdicts_congr hlookup u _ _

/-- Further entries for `contestedMapping` that leave its mapper of users untouched: a new mapper
that uses this one and is used by the other one, and a use that is refused. -/
def foreignEntries : List Entry := [
  .unit "com.AuditMapper" .unknown,
  .use ⟨0⟩ ⟨2⟩ none,
  .use ⟨2⟩ ⟨1⟩ none,
  .use ⟨1⟩ ⟨0⟩ (some "addresses"),
  .method ⟨2⟩ (.ofClauses "note" [.param "user" "User", .delegating])]

/-- The run over the mapper of users goes as before, with all its warnings and errors. -/
theorem Generator.runUnit_foreignEntries :
    ∃ unit r g', Catalog.contestedMapping.Reachable ∧
      Catalog.contestedMapping.Leads (Catalog.contestedMapping.accepted foreignEntries)
        (Catalog.contestedMapping.addAll foreignEntries).2 ∧
      Catalog.contestedMapping.model.unit ⟨1⟩ = .ok unit ∧
      unit.Untouched ⟨1⟩ (Catalog.contestedMapping.accepted foreignEntries) ∧
      (start .strict).runUnit .contestedMapping ⟨1⟩ = .ok (r, g') ∧
      (start .strict).runUnit (Catalog.contestedMapping.addAll foreignEntries).2 ⟨1⟩ =
        .ok (r, g') ∧
      r.spelled (Catalog.contestedMapping.addAll foreignEntries).2.symbols =
        r.spelled Catalog.contestedMapping.symbols := by
  have hc : Catalog.contestedMapping.Reachable := Catalog.reachable_ofEntries _
  have hleads := Catalog.Leads.refl.addAll_accepted (c := Catalog.contestedMapping) foreignEntries
  rw [List.nil_append] at hleads
  obtain ⟨unit, hunit⟩ : ∃ unit, Catalog.contestedMapping.model.unit ⟨1⟩ = .ok unit :=
    Model.exists_unit (by decide +kernel)
  have huses : unit.uses.map (·.unit) = [⟨0⟩] := by
    have h : (Catalog.contestedMapping.model.unit ⟨1⟩).map (·.uses.map (·.unit)) = .ok [⟨0⟩] := by
      decide +kernel
    rw [hunit] at h
    exact Except.ok.inj h
  have haccepted :
      Catalog.contestedMapping.accepted foreignEntries = foreignEntries.eraseIdx 3 := by
    decide +kernel
  have huntouched : unit.Untouched ⟨1⟩ (Catalog.contestedMapping.accepted foreignEntries) := by
    rw [haccepted]
    refine ⟨by simp [foreignEntries], by simp [foreignEntries], fun use huse => ?_⟩
    have hused : use.unit = ⟨0⟩ := by simpa [huses] using List.mem_map_of_mem (f := (·.unit)) huse
    simp [foreignEntries, hused]
  obtain ⟨r, g', hrun⟩ := runUnit_of_leads hc hleads hunit huntouched (start .strict)
  exact ⟨unit, r, g', hc, hleads, hunit, huntouched, hrun⟩

/-- The table grows all the same, even by the variable of the use that is refused. -/
example : (Catalog.contestedMapping.addAll foreignEntries).2.symbols.strings =
    Catalog.contestedMapping.symbols.strings ++
      ["AuditMapper", "com.AuditMapper", "auditMapper", "userMapper", "addresses", "note"] := by
  decide +kernel

end MapperDelegation
