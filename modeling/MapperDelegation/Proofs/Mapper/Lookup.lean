import Mathlib.Data.List.Forall2
import Mathlib.Tactic.Lemma
import MapperDelegation.Mapper.Model
import MapperDelegation.Proofs.Symbol.Stores

set_option relaxedAutoImplicit false
set_option autoImplicit false

/-!
# Look-up in models

Units and methods are found by their positions, and units also by their simple names. This file says
which look-ups succeed, what a model finds after it has grown by one entry, and what a list of
look-ups yields.

## Main results

* `mapM_eq_ok_iff` — a list of look-ups succeeds entry by entry.
* `Model.unit_addUnit_iff`, `Model.unit_addUse_iff`, `Model.unit_addMethod_iff`,
  `Model.method_addMethod_iff`, `Model.unitByName_addUnit` — what is found after one more entry.
-/

namespace MapperDelegation

/-! ## Lists -/

/-- The entries of a list in which one entry was replaced. -/
lemma getElem?_modify_eq_some_iff {α : Type} {xs : List α} {f : α → α} {y : α} {i j : Nat} :
    (xs.modify i f)[j]? = some y ↔ ∃ x, xs[j]? = some x ∧ y = if j = i then f x else x := by
  rw [List.getElem?_modify]
  by_cases h : i = j
  · simp only [h, ↓reduceIte, Option.map_eq_map, Option.map_eq_some_iff]
    exact exists_congr fun x => and_congr_right fun _ => eq_comm
  · simp [h, Ne.symm h]

/-- Replacing an entry keeps all values that the replacement has in common with it. -/
lemma map_modify_eq {α β : Type} {xs : List α} {f : α → α} {g : α → β} {i : Nat}
    (h : ∀ x, g (f x) = g x) : (xs.modify i f).map g = xs.map g := by
  refine List.ext_getElem? fun j => ?_
  simp only [List.getElem?_map, List.getElem?_modify]
  split <;> simp [Function.comp_def, h]

/-- A look-up has one result. -/
lemma eq_of_eq_ok {ε α : Type} {x : Except ε α} {a b : α} (ha : x = .ok a) (hb : x = .ok b) :
    a = b := by
  rw [ha] at hb
  exact Except.ok.inj hb

/-- Two steps that can fail succeed one after the other. -/
lemma bind_eq_ok_iff {ε α β : Type} {x : Except ε α} {f : α → Except ε β} {b : β} :
    x >>= f = .ok b ↔ ∃ a, x = .ok a ∧ f a = .ok b := by
  cases x with
  | error e => simp [bind, Except.bind]
  | ok a => simp [bind, Except.bind]

/-- What follows a step that can fail is done if the step succeeds. -/
lemma map_eq_ok_iff {ε α β : Type} {x : Except ε α} {f : α → β} {b : β} :
    f <$> x = .ok b ↔ ∃ a, x = .ok a ∧ f a = b := by
  cases x with
  | error e => simp [Functor.map, Except.map]
  | ok a => simp [Functor.map, Except.map]

/-- Steps that can fail succeed on a whole list exactly when they succeed on every entry. -/
lemma mapM_eq_ok_iff {ε α β : Type} {f : α → Except ε β} {xs : List α} {ys : List β} :
    xs.mapM f = .ok ys ↔ List.Forall₂ (fun x y => f x = .ok y) xs ys := by
  induction xs generalizing ys with
  | nil => simp [pure, Except.pure, eq_comm]
  | cons x xs ih =>
    rw [List.mapM_cons, List.forall₂_cons_left_iff]
    cases hx : f x with
    | error e => simp [bind, Except.bind]
    | ok y =>
      cases hxs : xs.mapM f with
      | error e => simp [bind, Except.bind, ← ih, hxs]
      | ok rest => simp [bind, Except.bind, pure, Except.pure, ← ih, hxs, eq_comm]

/-- Steps that succeed on every entry succeed on the whole list. -/
lemma exists_mapM_eq_ok {ε α β : Type} {f : α → Except ε β} {xs : List α}
    (h : ∀ x ∈ xs, ∃ y, f x = .ok y) : ∃ ys, xs.mapM f = .ok ys := by
  induction xs with
  | nil => exact ⟨[], rfl⟩
  | cons x xs ih =>
    obtain ⟨y, hy⟩ := h x List.mem_cons_self
    obtain ⟨ys, hys⟩ := ih fun z hz => h z (List.mem_cons_of_mem x hz)
    exact ⟨y :: ys, mapM_eq_ok_iff.mpr (.cons hy (mapM_eq_ok_iff.mp hys))⟩

/-- Every result of a list of look-ups comes from one of them. -/
lemma exists_mem_of_forall₂ {α β : Type} {R : α → β → Prop} {xs : List α} {ys : List β} {y : β}
    (h : List.Forall₂ R xs ys) (hy : y ∈ ys) : ∃ x ∈ xs, R x y := by
  induction h with
  | nil => simp at hy
  | cons hxy _ ih =>
    rcases List.mem_cons.mp hy with rfl | hy
    · exact ⟨_, List.mem_cons_self, hxy⟩
    · obtain ⟨x, hx, hxy⟩ := ih hy
      exact ⟨x, List.mem_cons_of_mem _ hx, hxy⟩

/-- Lists whose entries are related one by one have entries at the same places. -/
lemma exists_getElem?_of_forall₂ {α β : Type} {R : α → β → Prop} {xs : List α} {ys : List β}
    (h : List.Forall₂ R xs ys) {i : Nat} {x : α} (hx : xs[i]? = some x) :
    ∃ y, ys[i]? = some y ∧ R x y := by
  induction h generalizing i with
  | nil => simp at hx
  | @cons a b _ _ hab _ ih =>
    cases i with
    | zero =>
      obtain rfl : a = x := by simpa using hx
      exact ⟨b, rfl, hab⟩
    | succ i => exact ih hx

/-! ## Handles -/

namespace Model

variable {m : Model} {u v : UnitId} {unit : MapperUnit} {id : MethodId} {method : Method}

/-- A unit is found at its position in the list of units. -/
lemma unit_eq_ok_iff : m.unit u = .ok unit ↔ m.units[u.index]? = some unit := entryAt_eq_ok_iff

/-- A method is found at its position in the list of methods. -/
lemma method_eq_ok_iff : m.method id = .ok method ↔ m.methods[id.index]? = some method :=
  entryAt_eq_ok_iff

/-- A handle under which a unit is found is in range. -/
lemma index_lt_of_unit (h : m.unit u = .ok unit) : u.index < m.units.length :=
  (List.getElem?_eq_some_iff.mp (unit_eq_ok_iff.mp h)).1

/-- A handle under which a method is found is in range. -/
lemma index_lt_of_method (h : m.method id = .ok method) : id.index < m.methods.length :=
  (List.getElem?_eq_some_iff.mp (method_eq_ok_iff.mp h)).1

/-- Every handle in range leads to a unit. -/
lemma exists_unit (h : u.index < m.units.length) : ∃ unit, m.unit u = .ok unit :=
  ⟨_, unit_eq_ok_iff.mpr (List.getElem?_eq_getElem h)⟩

/-- A unit bears the name that stands at its position among the names. -/
lemma exists_unit_name_iff {name : Symbol} :
    (∃ unit, m.unit u = .ok unit ∧ unit.name = name) ↔
      (m.units.map (·.name))[u.index]? = some name := by
  rw [List.getElem?_map, Option.map_eq_some_iff]
  exact exists_congr fun unit => and_congr_left fun _ => unit_eq_ok_iff

/-- The handles of the units are those in range. -/
lemma mem_unitIds_iff : u ∈ m.unitIds ↔ u.index < m.units.length := by
  cases u
  simp [unitIds]

/-! ## Grown models -/

/-- A new unit is found under the next handle, and the others as before. -/
lemma unit_addUnit_iff {new : MapperUnit} :
    (m.addUnit new).unit u = .ok unit ↔ m.unit u = .ok unit ∨ u = m.nextUnit ∧ unit = new := by
  simp only [unit_eq_ok_iff, addUnit, getElem?_concat_eq_some_iff]
  cases u
  simp [nextUnit]

/-- A new use is found in its unit, and the other units as before. -/
lemma unit_addUse_iff {use : UsedUnit} :
    (m.addUse v use).unit u = .ok unit ↔ ∃ old, m.unit u = .ok old ∧
      unit = if u = v then { old with uses := old.uses ++ [use] } else old := by
  simp only [unit_eq_ok_iff, addUse, getElem?_modify_eq_some_iff]
  cases u
  cases v
  simp

/-- The handle of a new method is found in its unit, and the other units as before. -/
lemma unit_addMethod_iff {new : Method} :
    (m.addMethod v new).unit u = .ok unit ↔ ∃ old, m.unit u = .ok old ∧
      unit = if u = v then { old with methods := old.methods ++ [m.nextMethod] } else old := by
  simp only [unit_eq_ok_iff, addMethod, getElem?_modify_eq_some_iff]
  cases u
  cases v
  simp

/-- A new method is found under the next handle, and the others as before. -/
lemma method_addMethod_iff {new : Method} :
    (m.addMethod v new).method id = .ok method ↔
      m.method id = .ok method ∨ id = m.nextMethod ∧ method = new := by
  simp only [method_eq_ok_iff, addMethod, getElem?_concat_eq_some_iff]
  cases id
  simp [nextMethod]

/-- A new unit is found under its name, and the others as before. -/
lemma unitByName_addUnit {new : MapperUnit} {name : Symbol} :
    (m.addUnit new).unitByName name =
      if name = new.name then some m.nextUnit else m.unitByName name := by
  rw [unitByName, addUnit, lookup_cons_eq_ite, unitByName]

@[simp] lemma unitByName_addUse {use : UsedUnit} {name : Symbol} :
    (m.addUse v use).unitByName name = m.unitByName name := rfl

@[simp] lemma unitByName_addMethod {new : Method} {name : Symbol} :
    (m.addMethod v new).unitByName name = m.unitByName name := rfl

@[simp] lemma length_units_addUnit {new : MapperUnit} :
    (m.addUnit new).units.length = m.units.length + 1 := by simp [addUnit]

@[simp] lemma length_units_addUse {use : UsedUnit} :
    (m.addUse v use).units.length = m.units.length := by simp [addUse]

@[simp] lemma length_units_addMethod {new : Method} :
    (m.addMethod v new).units.length = m.units.length := by simp [addMethod]

@[simp] lemma map_name_addUse {use : UsedUnit} :
    (m.addUse v use).units.map (·.name) = m.units.map (·.name) := map_modify_eq fun _ => rfl

@[simp] lemma map_name_addMethod {new : Method} :
    (m.addMethod v new).units.map (·.name) = m.units.map (·.name) := map_modify_eq fun _ => rfl

end Model

end MapperDelegation
