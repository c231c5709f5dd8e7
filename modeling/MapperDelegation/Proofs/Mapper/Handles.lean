import MapperDelegation.Proofs.Mapper.Entering

set_option relaxedAutoImplicit false
set_option autoImplicit false

/-!
# Names and handles of a catalogue

Units are found by their simple names and by their handles, methods by their handles and through
the lists of their units. However a catalogue came about, refused entries included, these ways
agree with each other: a name leads to the one unit that bears it, a use leads to another unit, and
a method is listed once, by the unit that it names as its own.

## Main definitions

* `Catalog.Consistent` — the names and the handles of a catalogue agree.

## Main results

* `Catalog.consistent_of_reachable` — reachable catalogues are consistent.
-/

namespace MapperDelegation

/-! ## Methods of units -/

namespace Model

variable {m : Model}

namespace WellFormed

variable (hm : m.WellFormed)
include hm

/-- A method is listed once by its unit. -/
lemma count_methods {id : MethodId} {method : Method} {unit : MapperUnit}
    (hmethod : m.method id = .ok method) (hunit : m.unit method.unit = .ok unit) :
    unit.methods.count id = 1 := by
  have hu := hm.unit hunit
  have hnodup : unit.methods.Nodup := hu.sorted.imp fun hlt heq => by
    rw [heq] at hlt
    exact Nat.lt_irrefl _ hlt
  exact List.count_eq_one_of_mem hnodup ((hu.mem_methods_iff id).mpr ⟨method, hmethod, rfl⟩)

/-- A unit that lists a method is the one that the method names as its own. -/
lemma unit_eq_of_mem_methods {id : MethodId} {method : Method} {u : UnitId} {unit : MapperUnit}
    (hmethod : m.method id = .ok method) (hunit : m.unit u = .ok unit) (hid : id ∈ unit.methods) :
    u = method.unit := by
  obtain ⟨method', hmethod', rfl⟩ := ((hm.unit hunit).mem_methods_iff id).mp hid
  rw [eq_of_eq_ok hmethod hmethod']

end WellFormed

end Model

/-! ## Consistent catalogues -/

namespace Catalog

/-- The names and the handles of a catalogue agree. -/
structure Consistent (c : Catalog) : Prop where
  /-- The simple names of the units are different strings, hence different symbols. -/
  names_nodup : (c.model.units.map fun unit => c.symbols.lookup unit.name).Nodup
  /-- The names under which units are entered are those that the units bear. -/
  unitByName_iff : ∀ name u, c.model.unitByName name = some u ↔
    ∃ unit, c.model.unit u = .ok unit ∧ unit.name = name
  /-- A used unit exists, and it is another one. -/
  use : ∀ u unit, c.model.unit u = .ok unit → ∀ use ∈ unit.uses,
    use.unit.index < c.model.units.length ∧ use.unit ≠ u
  used_nodup : ∀ u unit, c.model.unit u = .ok unit → (unit.uses.map (·.unit)).Nodup
  /-- The access variables of a unit are different strings, hence different symbols. -/
  variables_nodup : ∀ u unit, c.model.unit u = .ok unit →
    (unit.uses.map fun use => c.symbols.lookup use.accessVariable).Nodup
  /-- A unit lists methods of the model, in the order of declaration. -/
  methods : ∀ u unit, c.model.unit u = .ok unit →
    (∀ id ∈ unit.methods, id.index < c.model.methods.length) ∧
    unit.methods.Pairwise (·.index < ·.index)
  /-- Every method is listed once by its own unit, and by no other one. -/
  owner : ∀ id : MethodId, id.index < c.model.methods.length →
    ∃ method unit, c.model.method id = .ok method ∧ c.model.unit method.unit = .ok unit ∧
      unit.methods.count id = 1 ∧
      ∀ u other, c.model.unit u = .ok other → id ∈ other.methods → u = method.unit

/-- **Names and handles agree**: whatever entries a catalogue is made of, accepted or refused, it is
consistent.

**Proof sketch.** The model of a reachable catalogue is well-formed and the catalogue knows its
symbols. The former settles the handles, the latter makes different symbols different strings. -/
theorem consistent_of_reachable {c : Catalog} (hc : c.Reachable) : c.Consistent := by
  have hm := hc.wellFormed
  refine ⟨?names, fun name u => hm.unitByName_iff, ?use, ?used, ?bound, ?methods,
    ?owner⟩
  case names =>
    have hknows : ∀ a ∈ c.model.units.map (·.name), c.symbols.Knows a := by
      intro a ha
      obtain ⟨unit, hunit, rfl⟩ := List.mem_map.mp ha
      refine hc.knows _ (List.mem_append_left _ (List.mem_flatMap_of_mem hunit ?_))
      exact List.mem_cons_self
    simpa [Function.comp_def] using SymbolTable.nodup_map_lookup hm.names_nodup hknows
  case use =>
    intro u unit hunit use huse
    exact ⟨(hm.unit hunit).known use huse, (hm.unit hunit).other use huse⟩
  case used =>
    intro u unit hunit
    exact (hm.unit hunit).used_nodup
  case bound =>
    intro u unit hunit
    have hknows : ∀ a ∈ unit.uses.map (·.accessVariable), c.symbols.Knows a := by
      intro a ha
      refine hc.knows _ (Model.mem_symbols_of_unit hunit ?_)
      exact List.mem_cons_of_mem _ (List.mem_cons_of_mem _ ha)
    simpa [Function.comp_def] using
      SymbolTable.nodup_map_lookup (hm.unit hunit).variables_nodup hknows
  case methods =>
    intro u unit hunit
    refine ⟨fun id hid => ?_, (hm.unit hunit).sorted⟩
    obtain ⟨method, hmethod, -⟩ := ((hm.unit hunit).mem_methods_iff id).mp hid
    exact Model.index_lt_of_method hmethod
  case owner =>
    intro id hid
    obtain ⟨method, hmethod⟩ : ∃ method, c.model.method id = .ok method :=
      ⟨_, Model.method_eq_ok_iff.mpr (List.getElem?_eq_getElem hid)⟩
    obtain ⟨unit, hunit⟩ := Model.exists_unit (hm.owned hmethod)
    exact ⟨method, unit, hmethod, hunit, hm.count_methods hmethod hunit,
      fun u other hother hmem => hm.unit_eq_of_mem_methods hmethod hother hmem⟩

/-- Entries of all kinds, each of which is also refused once: a second unit of one name, the use of
a unit by itself, of a unit twice and under a variable that is taken, and entries for a unit that
does not exist. -/
def contested : Catalog := .ofEntries [
  .unit "com.AddressMapper" .unknown,
  .unit "org.AddressMapper" .unknown,
  .unit "com.UserMapper" .unknown,
  .unit "com.OrderMapper" .unknown,
  .use ⟨1⟩ ⟨1⟩ none,
  .use ⟨1⟩ ⟨0⟩ none,
  .use ⟨1⟩ ⟨0⟩ (some "addresses"),
  .use ⟨1⟩ ⟨2⟩ (some "addressMapper"),
  .use ⟨1⟩ ⟨2⟩ none,
  .use ⟨3⟩ ⟨0⟩ none,
  .method ⟨3⟩ (.ofClauses "lost" []),
  .method ⟨0⟩ (.ofClauses "toDto" [.param "address" "Address", .returns "AddressDto"]),
  .method ⟨1⟩ (.ofClauses "toName" [.param "user" "User", .returns "Name", .delegating]),
  .method ⟨0⟩ (.ofClauses "toText" [.param "address" "Address", .returns "Text"])]

/-- The entries that are accepted leave three units, two uses and three methods. -/
theorem consistent_contested :
    contested.Reachable ∧ contested.Consistent ∧
      contested.model.units.map (fun unit => (unit.methods.map (·.index), unit.uses.length)) =
        [([0, 2], 0), ([1], 2), ([], 0)] :=
  ⟨reachable_ofEntries _, consistent_of_reachable (reachable_ofEntries _), by decide +kernel⟩

end Catalog

end MapperDelegation
