import Mathlib.Data.List.Nodup
import MapperDelegation.Mapper.Catalog
import MapperDelegation.Proofs.Mapper.Lookup

set_option relaxedAutoImplicit false
set_option autoImplicit false

/-!
# Well-formed models

A model keeps units, methods and simple names in three lists whose entries point at each other by
position. The entries of a catalogue keep these positions in order: every handle that the model
stores is in range, a simple name leads to the unit that bears it and to no other, a unit uses other
units only and each of them once, and a method stands in the list of its own unit and in no other.
The search for delegates rests on these facts.

## Main definitions

* `Model.WellFormed` — the invariant of the models that are assembled entry by entry.
* `Model.Step` — what one entry can do to a model.
* `Catalog.Reachable` — the catalogues that come about entry by entry, from any table of symbols
  and with any strings entered in between.

## Main results

* `Catalog.step_add` — an entry takes one of the steps of `Model.Step`.
* `Model.Step.wellFormed` — every step keeps the invariant.
* `Catalog.Reachable.wellFormed` — hence every reachable model is well-formed.
-/

namespace MapperDelegation

/-! ## The invariant -/

/-- What holds of the unit at position `u` of a well-formed model. -/
structure MapperUnit.WellFormed (unit : MapperUnit) (m : Model) (u : UnitId) : Prop where
  /-- The used units exist. -/
  known : ∀ use ∈ unit.uses, use.unit.index < m.units.length
  /-- No unit uses itself. -/
  other : ∀ use ∈ unit.uses, use.unit ≠ u
  used_nodup : (unit.uses.map (·.unit)).Nodup
  variables_nodup : (unit.uses.map (·.accessVariable)).Nodup
  /-- Members are listed in the order of declaration. -/
  sorted : unit.methods.Pairwise (·.index < ·.index)
  /-- The members are the methods that name this unit as theirs. -/
  mem_methods_iff : ∀ id, id ∈ unit.methods ↔ ∃ method, m.method id = .ok method ∧ method.unit = u

/-- What holds of every model that is assembled entry by entry. -/
structure Model.WellFormed (m : Model) : Prop where
  /-- The names under which units are entered are those that the units bear. -/
  unitByName_iff : ∀ {name u},
    m.unitByName name = some u ↔ ∃ unit, m.unit u = .ok unit ∧ unit.name = name
  /-- Every method belongs to a unit of the model. -/
  owned : ∀ {id method}, m.method id = .ok method → method.unit.index < m.units.length
  unit : ∀ {u unit}, m.unit u = .ok unit → unit.WellFormed m u

/-! ## Steps -/

namespace Model

/-- What one entry can do to a model. -/
inductive Step (m : Model) : Model → Prop
  /-- The entry is refused. -/
  | refused : Step m m
  | unit (new : MapperUnit) (fresh : m.unitByName new.name = none)
      (no_methods : new.methods = []) (no_uses : new.uses = []) : Step m (m.addUnit new)
  | use {u : UnitId} {user : MapperUnit} (new : UsedUnit) (user_known : m.unit u = .ok user)
      (known : new.unit.index < m.units.length) (other : new.unit ≠ u)
      (unit_fresh : new.unit ∉ user.uses.map (·.unit))
      (variable_fresh : new.accessVariable ∉ user.uses.map (·.accessVariable)) :
      Step m (m.addUse u new)
  | method (new : Method) (known : new.unit.index < m.units.length) :
      Step m (m.addMethod new.unit new)

variable {m m' : Model}

/-- The empty model is well-formed. -/
lemma wellFormed_empty : ({} : Model).WellFormed where
  unitByName_iff := by simp [unitByName, unit_eq_ok_iff]
  owned h := absurd (index_lt_of_method h) (Nat.not_lt_zero _)
  unit h := absurd (index_lt_of_unit h) (Nat.not_lt_zero _)

namespace WellFormed

variable (hm : m.WellFormed)
include hm

/-- No two units bear one name, since it leads to one of them only. -/
lemma names_nodup : (m.units.map (·.name)).Nodup := by
  rw [List.nodup_iff_getElem?_ne_getElem?]
  intro i j hij hj heq
  have hlast := List.getElem?_eq_getElem hj
  have hfound := hm.unitByName_iff.mpr ((exists_unit_name_iff (u := ⟨i⟩)).mpr (heq.trans hlast))
  have hfound' := hm.unitByName_iff.mpr ((exists_unit_name_iff (u := ⟨j⟩)).mpr hlast)
  rw [hfound'] at hfound
  exact Nat.ne_of_gt hij (congrArg UnitId.index (Option.some.inj hfound))

/-- A new unit of a new name keeps a model well-formed. -/
lemma addUnit {new : MapperUnit} (fresh : m.unitByName new.name = none)
    (no_methods : new.methods = []) (no_uses : new.uses = []) : (m.addUnit new).WellFormed where
  unitByName_iff {name u} := by
    simp only [unitByName_addUnit, unit_addUnit_iff]
    by_cases hname : name = new.name
    · -- the name was not entered before, so that no earlier unit bears it
      subst hname
      rw [if_pos rfl, Option.some_inj]
      constructor
      · rintro rfl
        exact ⟨new, .inr ⟨rfl, rfl⟩, rfl⟩
      · rintro ⟨unit, hunit | ⟨rfl, -⟩, hname⟩
        · rw [hm.unitByName_iff.mpr ⟨unit, hunit, hname⟩] at fresh
          cases fresh
        · rfl
    · rw [if_neg hname, hm.unitByName_iff]
      refine exists_congr fun unit => and_congr_left fun hunit => ?_
      have hold : unit ≠ new := fun h => hname (h ▸ hunit.symm)
      simp [hold]
  owned h := by
    have := hm.owned h
    rw [length_units_addUnit]
    omega
  unit {u unit} h := by
    rcases unit_addUnit_iff.mp h with h | ⟨rfl, rfl⟩
    · have hu := hm.unit h
      refine { hu with known := fun use huse => ?_ }
      have := hu.known use huse
      rw [length_units_addUnit]
      omega
    · -- no method names the new unit yet, since all of them belong to earlier ones
      refine ⟨by simp [no_uses], by simp [no_uses], by simp [no_uses], by simp [no_uses],
        by simp [no_methods], fun id => ?_⟩
      simp only [no_methods, List.not_mem_nil, false_iff]
      rintro ⟨method, hmethod, hunit⟩
      have := hm.owned hmethod
      rw [hunit] at this
      exact Nat.lt_irrefl _ this

/-- A use of another unit under a new variable keeps a model well-formed. -/
lemma addUse {w : UnitId} {user : MapperUnit} {new : UsedUnit} (user_known : m.unit w = .ok user)
    (known : new.unit.index < m.units.length) (other : new.unit ≠ w)
    (unit_fresh : new.unit ∉ user.uses.map (·.unit))
    (variable_fresh : new.accessVariable ∉ user.uses.map (·.accessVariable)) :
    (m.addUse w new).WellFormed where
  unitByName_iff {name u} := by
    rw [unitByName_addUse, hm.unitByName_iff, exists_unit_name_iff, exists_unit_name_iff,
      map_name_addUse]
  owned h := by
    rw [length_units_addUse]
    exact hm.owned h
  unit {u unit} h := by
    obtain ⟨old, hold, rfl⟩ := unit_addUse_iff.mp h
    have hu := hm.unit hold
    by_cases hw : u = w
    · subst hw
      obtain rfl : old = user := eq_of_eq_ok hold user_known
      simp only [↓reduceIte]
      refine ⟨fun use huse => ?_, fun use huse => ?_, ?_, ?_, hu.sorted, hu.mem_methods_iff⟩
      · rw [length_units_addUse]
        rcases List.mem_append.mp huse with huse | huse
        · exact hu.known use huse
        · exact List.mem_singleton.mp huse ▸ known
      · rcases List.mem_append.mp huse with huse | huse
        · exact hu.other use huse
        · exact List.mem_singleton.mp huse ▸ other
      · simpa using hu.used_nodup.concat unit_fresh
      · simpa using hu.variables_nodup.concat variable_fresh
    · simp only [if_neg hw]
      exact { hu with known := fun use huse => by simpa using hu.known use huse }

/-- A new method of a unit of the model keeps a model well-formed. -/
lemma addMethod {new : Method} (known : new.unit.index < m.units.length) :
    (m.addMethod new.unit new).WellFormed where
  unitByName_iff {name u} := by
    rw [unitByName_addMethod, hm.unitByName_iff, exists_unit_name_iff, exists_unit_name_iff,
      map_name_addMethod]
  owned h := by
    rw [length_units_addMethod]
    rcases method_addMethod_iff.mp h with h | ⟨-, rfl⟩
    · exact hm.owned h
    · exact known
  unit {u unit} h := by
    obtain ⟨old, hold, rfl⟩ := unit_addMethod_iff.mp h
    have hu := hm.unit hold
    by_cases hnew : u = new.unit
    · subst hnew
      simp only [↓reduceIte]
      have hsorted : (old.methods ++ [m.nextMethod]).Pairwise (·.index < ·.index) := by
        refine List.pairwise_append.mpr ⟨hu.sorted, List.pairwise_singleton _ _, ?_⟩
        intro id hid last hlast
        obtain ⟨method, hmethod, -⟩ := (hu.mem_methods_iff id).mp hid
        rw [List.mem_singleton.mp hlast]
        exact index_lt_of_method hmethod
      refine { known := ?_, other := hu.other, used_nodup := hu.used_nodup,
               variables_nodup := hu.variables_nodup, sorted := hsorted, mem_methods_iff := ?_ }
      · simpa using hu.known
      · intro id
        simp only [List.mem_append, List.mem_singleton, hu.mem_methods_iff, method_addMethod_iff]
        constructor
        · rintro (⟨method, hmethod, hunit⟩ | rfl)
          · exact ⟨method, .inl hmethod, hunit⟩
          · exact ⟨new, .inr ⟨rfl, rfl⟩, rfl⟩
        · rintro ⟨method, hmethod | ⟨rfl, -⟩, hunit⟩
          · exact .inl ⟨method, hmethod, hunit⟩
          · exact .inr rfl
    · simp only [if_neg hnew]
      refine { hu with known := by simpa using hu.known, mem_methods_iff := fun id => ?_ }
      rw [hu.mem_methods_iff]
      constructor
      · rintro ⟨method, hmethod, hunit⟩
        exact ⟨method, method_addMethod_iff.mpr (.inl hmethod), hunit⟩
      · rintro ⟨method, hmethod, hunit⟩
        rcases method_addMethod_iff.mp hmethod with hmethod | ⟨-, rfl⟩
        · exact ⟨method, hmethod, hunit⟩
        · exact absurd hunit.symm hnew

end WellFormed

/-- Every step keeps a model well-formed. -/
lemma Step.wellFormed (h : m.Step m') (hm : m.WellFormed) : m'.WellFormed := by
  cases h with
  | refused => exact hm
  | unit new fresh no_methods no_uses => exact hm.addUnit fresh no_methods no_uses
  | use new user_known known other unit_fresh variable_fresh =>
    exact hm.addUse user_known known other unit_fresh variable_fresh
  | method new known => exact hm.addMethod known

end Model

/-! ## Entries -/

namespace Catalog

variable {c : Catalog}

@[simp] lemma model_intern (s : String) : (c.intern s).2.model = c.model := rfl

/-- The unit that an entry refers to is one of the model. -/
lemma knownUnit_eq_ok_iff {u : UnitId} {unit : MapperUnit} :
    c.knownUnit u = .ok unit ↔ c.model.unit u = .ok unit := by
  rw [Model.unit_eq_ok_iff, knownUnit]
  split <;> simp_all

/-- A declared unit is new and empty. -/
lemma step_addUnit (qualifiedName : String) (span : Span) :
    c.model.Step (c.addUnit qualifiedName span).2.model := by
  unfold addUnit
  simp only
  split
  · exact .refused
  · next h => exact .unit _ (Option.not_isSome_iff_eq_none.mp h) rfl rfl

/-- A declared use joins two different units of the model by a free variable. -/
lemma step_addUseAs (u used : UnitId) (accessVariable : String) :
    c.model.Step (c.addUseAs u used accessVariable).2.model := by
  unfold addUseAs
  split
  · exact .refused
  · exact .refused
  · next user provider hu hused =>
    rw [knownUnit_eq_ok_iff] at hu hused
    split
    · exact .refused
    · next hne =>
      simp only
      split
      · exact .refused
      · next hunit =>
        split
        · exact .refused
        · next hvariable =>
          refine .use _ hu (Model.index_lt_of_unit hused) (fun h => hne h.symm) ?_ ?_
          · simpa using hunit
          · simpa using hvariable

/-- A declared use joins two different units of the model by a free variable. -/
lemma step_addUse (u used : UnitId) : c.model.Step (c.addUse u used).2.model := by
  unfold addUse
  split
  · exact .refused
  · exact step_addUseAs _ _ _

/-- A declared method belongs to a unit of the model. -/
lemma step_addMethod (u : UnitId) (d : Declaration) :
    c.model.Step (c.addMethod u d).2.model := by
  unfold addMethod
  split
  · exact .refused
  · next unit hu =>
    have hlt := Model.index_lt_of_unit (knownUnit_eq_ok_iff.mp hu)
    exact .method ((d.enter u).run c.symbols).1 hlt

/-- Every entry takes a step. -/
lemma step_add (e : Entry) : c.model.Step (c.add e).2.model := by
  cases e with
  | unit qualifiedName span => exact step_addUnit qualifiedName span
  | use u used accessVariable =>
    cases accessVariable with
    | none => exact step_addUse u used
    | some accessVariable => exact step_addUseAs u used accessVariable
  | method u declaration => exact step_addMethod u declaration

/-- The catalogues that come about entry by entry. The table of symbols may hold anything at the
start, and any strings may be entered in between. -/
inductive Reachable : Catalog → Prop
  | start (symbols : SymbolTable) : Reachable { symbols }
  | intern {c : Catalog} (h : Reachable c) (s : String) : Reachable (c.intern s).2
  | add {c : Catalog} (h : Reachable c) (e : Entry) : Reachable (c.add e).2

/-- The model of a reachable catalogue is well-formed.

**Proof sketch.** Induction on the way to the catalogue: the empty model is well-formed, a string
leaves the model as it is, and an entry takes a step. -/
theorem Reachable.wellFormed (h : c.Reachable) : c.model.WellFormed := by
  induction h with
  | start symbols => exact Model.wellFormed_empty
  | intern _ s ih => exact ih
  | add _ e ih => exact (step_add e).wellFormed ih

/-- Entries lead from reachable catalogues to reachable ones. -/
lemma Reachable.addAll (h : c.Reachable) (entries : List Entry) :
    (c.addAll entries).2.Reachable := by
  induction entries generalizing c with
  | nil => exact h
  | cons e entries ih => exact ih (h.add e)

/-- The catalogue of a list of entries is reachable. -/
lemma reachable_ofEntries (entries : List Entry) : (ofEntries entries).Reachable :=
  (Reachable.start .empty).addAll entries

end Catalog

end MapperDelegation
