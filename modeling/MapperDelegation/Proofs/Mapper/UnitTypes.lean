import MapperDelegation.Proofs.Delegation.Growth
import MapperDelegation.Proofs.Mapper.Handles

set_option relaxedAutoImplicit false
set_option autoImplicit false

/-!
# Types of units

Only the simple name of a new unit is compared with those of the earlier ones. Since it is derived
from the qualified name, units of different simple names have different qualified names too, so that
a unit can also be told by its type.

## Main definitions

* `Catalog.NamedByTypes` — the units of a catalogue have the simple names of their types.

## Main results

* `Catalog.Reachable.namedByTypes` — reachable catalogues have such units only.
* `Catalog.Reachable.unit_eq_of_lookup_type_eq` — no two of them have the same type.
-/

namespace MapperDelegation

/-- The two names of a unit. -/
def MapperUnit.names (unit : MapperUnit) : Symbol × TypeSymbol := (unit.name, unit.type)

/-- Only the declaration of a unit brings new names of units along. -/
lemma Model.Entered.map_names {m m' : Model} {e : Entry} {answer : Except ModelError Added}
    (h : m.Entered e answer m') :
    m'.units.map (·.names) = m.units.map (·.names) ∨
      ∃ qualifiedName span, e = .unit qualifiedName span := by
  cases h with
  | refused => exact .inl rfl
  | unit qualifiedName span => exact .inr ⟨qualifiedName, span, rfl⟩
  | use => exact .inl (map_modify_eq fun _ => rfl)
  | method => exact .inl (map_modify_eq fun _ => rfl)

namespace Catalog

variable {c c' : Catalog}

/-- The units of a catalogue have the simple names of their types. -/
def NamedByTypes (c : Catalog) : Prop :=
  ∀ unit ∈ c.model.units, c.symbols.lookup unit.name = simpleName (c.symbols.lookup unit.type.name)

/-- The names of a unit stand for the same strings in all later tables. -/
lemma Knows.lookup_names (hc : c.Knows) {t : SymbolTable} (ht : c.symbols.strings <+: t.strings)
    {unit : MapperUnit} (hunit : unit ∈ c.model.units) :
    t.lookup unit.name = c.symbols.lookup unit.name ∧
      t.lookup unit.type.name = c.symbols.lookup unit.type.name := by
  have hknows : ∀ a ∈ unit.symbols, c.symbols.Knows a := fun a ha =>
    hc a (List.mem_append_left _ (List.mem_flatMap_of_mem hunit ha))
  exact ⟨SymbolTable.lookup_of_prefix ht (hknows _ List.mem_cons_self),
    SymbolTable.lookup_of_prefix ht (hknows _ (List.mem_cons_of_mem _ List.mem_cons_self))⟩

namespace NamedByTypes

/-- Units keep their names while other things are entered. -/
lemma mono (h : c.NamedByTypes) (hc : c.Knows) (hstrings : c.symbols.strings <+: c'.symbols.strings)
    (hnames : c'.model.units.map (·.names) = c.model.units.map (·.names)) : c'.NamedByTypes := by
  intro unit hunit
  have hmem : unit.names ∈ c.model.units.map (·.names) := hnames ▸ List.mem_map_of_mem hunit
  obtain ⟨old, hold, hsame⟩ := List.mem_map.mp hmem
  obtain ⟨hname, htype⟩ := Prod.mk.inj hsame
  obtain ⟨hlookup, hlookup'⟩ := hc.lookup_names hstrings hold
  rw [← hname, ← htype, hlookup, hlookup']
  exact h old hold

/-- A new unit has the simple name of its type, if it is accepted. -/
lemma addUnit (h : c.NamedByTypes) (hc : c.Knows) (qualifiedName : String) (span : Span) :
    (c.addUnit qualifiedName span).2.NamedByTypes := by
  have hstrings := (c.grows_addUnit qualifiedName span).strings_isPrefix
  revert hstrings
  unfold Catalog.addUnit
  simp only
  split
  · exact fun hstrings => h.mono hc hstrings rfl
  · intro hstrings unit hunit
    rcases List.mem_append.mp hunit with hold | hnew
    · obtain ⟨hlookup, hlookup'⟩ := hc.lookup_names hstrings hold
      rw [hlookup, hlookup']
      exact h unit hold
    · obtain rfl := List.mem_singleton.mp hnew
      have htype := (c.intern (simpleName qualifiedName)).2.symbols.lookup_intern qualifiedName
      have hknows := SymbolTable.knows_symbolOf
        (c.symbols.mem_strings_intern (simpleName qualifiedName))
      have hname := SymbolTable.lookup_of_prefix
        ((c.symbols.intern (simpleName qualifiedName)).2.prefix_intern qualifiedName) hknows
      rw [← SymbolTable.fst_intern (List.prefix_refl _), SymbolTable.lookup_intern] at hname
      exact hname.trans (congrArg simpleName htype.symm)

end NamedByTypes

/-- **Units are named by their types**, in every reachable catalogue.

**Proof sketch.** Induction on the way to the catalogue. A new unit gets its simple name from its
type, and all units keep both names. -/
lemma Reachable.namedByTypes (hc : c.Reachable) : c.NamedByTypes := by
  induction hc with
  | start symbols => exact fun unit hunit => absurd hunit List.not_mem_nil
  | @intern c hc s ih => exact ih.mono hc.knows (c.symbols.prefix_intern s) rfl
  | @add c hc e ih =>
    rcases (c.entered_add e).map_names with hnames | ⟨qualifiedName, span, rfl⟩
    · exact ih.mono hc.knows (c.grows_add e).strings_isPrefix hnames
    · exact ih.addUnit hc.knows qualifiedName span

/-- A unit is told by its type.

**Proof sketch.** Units with the same type have the same simple name, as a string and hence as a
symbol, and the look-up by this name finds one unit only. -/
lemma Reachable.unit_eq_of_lookup_type_eq (hc : c.Reachable) {u v : UnitId}
    {unit other : MapperUnit} (hu : c.model.unit u = .ok unit) (hv : c.model.unit v = .ok other)
    (htype : c.symbols.lookup unit.type.name = c.symbols.lookup other.type.name) : u = v := by
  have hm := hc.wellFormed
  have hmem : unit ∈ c.model.units := List.mem_of_getElem? (Model.unit_eq_ok_iff.mp hu)
  have hmem' : other ∈ c.model.units := List.mem_of_getElem? (Model.unit_eq_ok_iff.mp hv)
  have hlookup : c.symbols.lookup unit.name = c.symbols.lookup other.name := by
    rw [hc.namedByTypes unit hmem, htype, hc.namedByTypes other hmem']
  have hname : unit.name = other.name :=
    SymbolTable.eq_of_lookup_eq (hc.knows _ (Model.mem_symbols_of_unit hu List.mem_cons_self))
      (hc.knows _ (Model.mem_symbols_of_unit hv List.mem_cons_self)) hlookup
  have hfound : c.model.unitByName other.name = some u :=
    hm.unitByName_iff.mpr ⟨unit, hu, hname⟩
  have hfound' : c.model.unitByName other.name = some v :=
    hm.unitByName_iff.mpr ⟨other, hv, rfl⟩
  exact Option.some.inj (hfound.symm.trans hfound')

end Catalog

end MapperDelegation
