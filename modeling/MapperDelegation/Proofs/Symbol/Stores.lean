import Mathlib.Data.List.Nodup
import MapperDelegation.Symbol

set_option relaxedAutoImplicit false
set_option autoImplicit false

/-!
# The two stores of a symbol table

The map of a symbol table leads from strings to positions, its list of strings from positions back
to strings. Both are filled together, first with the reserved strings and then with each string
that the map does not have yet. They stay inverse to each other through this, so that the list of
strings alone tells everything about a table: no string is in it twice, the map leads from each
string to the place where it is, and a string is entered exactly if it is not in the list.

## Main definitions

* `InternTable.Inverse` — the two stores are inverse to each other.
* `SymbolTable.symbolOf` — the symbol of a string of the table.

## Main results

* `InternTable.Inverse.intern`, `InternTable.Issued.inverse` — what a string that is entered does
  to this, and that it holds for every table that comes about by entering strings.
* `SymbolTable.nodup`, `SymbolTable.reserved`, `SymbolTable.ext_strings` — what follows for the
  list of strings.
* `SymbolTable.intern_of_mem`, `SymbolTable.intern_of_notMem` — how a string is entered, told by
  the list of strings.
-/

namespace MapperDelegation

/-! ## Lists -/

/-- The entries of a list with one more entry at its end. -/
lemma getElem?_concat_eq_some_iff {α : Type} {xs : List α} {x y : α} {i : Nat} :
    (xs ++ [x])[i]? = some y ↔ xs[i]? = some y ∨ i = xs.length ∧ y = x := by
  rw [List.getElem?_append]
  split
  · next h => simp [Nat.ne_of_lt h]
  · next h =>
    rw [List.getElem?_eq_none (Nat.le_of_not_lt h), List.getElem?_singleton]
    have hi : i - xs.length = 0 ↔ i = xs.length := by omega
    simp [hi, eq_comm]

/-- What a list of entries has for a key if one more entry stands in front of it. -/
lemma lookup_cons_eq_ite {α β : Type} [DecidableEq α] {entries : List (α × β)} {a a' : α} {b : β} :
    ((a', b) :: entries).lookup a = if a = a' then some b else entries.lookup a := by
  rw [List.lookup_cons]
  by_cases h : a = a'
  · rw [if_pos h, beq_iff_eq.mpr h]
  · rw [if_neg h, beq_false_of_ne h]

namespace InternTable

variable {t : InternTable} {s : String}

@[simp] lemma strings_push (t : InternTable) (s : String) :
    (t.push s).strings = t.strings ++ [s] := rfl

/-! ## Inverse stores -/

/-- The two stores are inverse to each other: the map leads from a string to a position if and only
if the string is at this position. -/
def Inverse (t : InternTable) : Prop :=
  ∀ s i, t.map.lookup s = some i ↔ t.strings[i]? = some s

/-- Without any string, there is nothing to be inverse. -/
lemma inverse_nil : Inverse ⟨[], []⟩ := fun _ _ => by simp

/-- Stores stay inverse when a string is entered that the map does not have.

**Proof sketch.** The map leads from the new string to the next position, where the string is now,
and it was nowhere else since the map did not have it. All other strings are where they were, and
the map leads there as before. -/
lemma Inverse.push (h : t.Inverse) (hs : t.map.lookup s = none) : (t.push s).Inverse := by
  intro s' i
  have hmap : (t.push s).map.lookup s' =
      if s' = s then some t.strings.length else t.map.lookup s' := lookup_cons_eq_ite
  have hstrings : (t.push s).strings[i]? = some s' ↔
      t.strings[i]? = some s' ∨ i = t.strings.length ∧ s' = s := getElem?_concat_eq_some_iff
  rw [hmap, hstrings]
  by_cases heq : s' = s
  · subst heq
    have hnowhere : t.strings[i]? ≠ some s' := by
      rw [ne_eq, ← h s' i, hs]
      exact nofun
    simp [hnowhere, eq_comm]
  · rw [if_neg heq, h s' i]
    simp [heq]

/-- **One string**: stores stay inverse when a string is entered. -/
lemma Inverse.intern (h : t.Inverse) (s : String) : (t.intern s).2.Inverse := by
  unfold InternTable.intern
  split
  · exact h
  · next hs => exact h.push hs

/-- The stores are inverse to each other once they have been filled with the reserved strings. -/
lemma inverse_withReserved : withReserved.Inverse := (inverse_nil.push rfl).push rfl

/-- **All strings**: the stores of every table that comes about by entering strings are inverse to
each other. -/
theorem Issued.inverse (h : t.Issued) : t.Inverse := by
  induction h with
  | reserved => exact inverse_withReserved
  | intern _ s ih => exact ih.intern s

/-! ## The table told by its list of strings -/

namespace Inverse

variable (h : t.Inverse)
include h

/-- No string is at two positions, since the map leads from a string to one position only. -/
lemma nodup : t.strings.Nodup := by
  rw [List.nodup_iff_getElem?_ne_getElem?]
  intro i j hij hj heq
  have hi := List.getElem?_eq_getElem (Nat.lt_trans hij hj)
  have hmap := (h _ i).mpr hi
  rw [(h _ j).mpr (heq ▸ hi)] at hmap
  exact Nat.ne_of_gt hij (Option.some.inj hmap)

/-- The map has exactly the strings that are in the list. -/
lemma lookup_eq_none_iff : t.map.lookup s = none ↔ s ∉ t.strings := by
  rw [Option.eq_none_iff_forall_ne_some, List.mem_iff_getElem?, not_exists]
  exact forall_congr' fun i => not_congr (h s i)

/-- The map leads from a string to the place where it is. -/
lemma lookup_of_mem (hs : s ∈ t.strings) : t.map.lookup s = some (t.strings.idxOf s) := by
  rw [h s, List.getElem?_eq_getElem (List.idxOf_lt_length_of_mem hs), List.getElem_idxOf]

end Inverse

/-- A string that is entered is appended to the list if it is new, and otherwise nothing changes. -/
lemma strings_intern_eq_or (t : InternTable) (s : String) :
    (t.intern s).2.strings = t.strings ∨ (t.intern s).2.strings = t.strings ++ [s] := by
  unfold intern
  split
  · exact .inl rfl
  · exact .inr rfl

namespace Issued

/-- The reserved strings come first. -/
lemma reserved_isPrefix (h : t.Issued) : ["", "void"] <+: t.strings := by
  induction h with
  | reserved => exact List.prefix_refl _
  | @intern t _ s ih =>
    rcases t.strings_intern_eq_or s with hsame | hmore
    · rwa [hsame]
    · rw [hmore]
      exact ih.trans (List.prefix_append _ _)

/-- The map has one entry for each string, the newest one first. -/
lemma map_eq (h : t.Issued) : t.map = t.strings.zipIdx.reverse := by
  induction h with
  | reserved => rfl
  | intern _ s ih =>
    unfold InternTable.intern
    split
    · exact ih
    · simp [push, ih, List.zipIdx_append]

end Issued

end InternTable

/-! ## Tables in use -/

namespace SymbolTable

variable {t u : SymbolTable} {s : String}

/-- No string is in a table twice. -/
lemma nodup (t : SymbolTable) : t.strings.Nodup := t.issued.inverse.nodup

/-- The reserved strings come first. -/
lemma reserved (t : SymbolTable) : ["", "void"] <+: t.strings := t.issued.reserved_isPrefix

/-- Tables with the same strings are the same, since the map is filled along with the strings. -/
lemma ext_strings (h : t.strings = u.strings) : t = u := by
  have hmap : t.map = u.map := by rw [t.issued.map_eq, u.issued.map_eq, h]
  obtain ⟨⟨_, _⟩, _⟩ := t
  obtain ⟨⟨_, _⟩, _⟩ := u
  cases h
  cases hmap
  rfl

/-- The symbol of a string of the table: the place where it is. -/
def symbolOf (t : SymbolTable) (s : String) : Symbol := ⟨t.strings.idxOf s⟩

/-- A string of the table is not entered again. -/
lemma intern_of_mem (hs : s ∈ t.strings) : t.intern s = (t.symbolOf s, t) := by
  have hmap := t.issued.inverse.lookup_of_mem hs
  have hraw : t.toInternTable.intern s = (⟨t.strings.idxOf s⟩, t.toInternTable) := by
    rw [InternTable.intern, hmap]
  have hsymbol : (t.intern s).1 = t.symbolOf s := congrArg Prod.fst hraw
  have hstrings : (t.intern s).2.strings = t.strings := congrArg (·.2.strings) hraw
  exact Prod.ext hsymbol (ext_strings hstrings)

/-- Another string gets the next place as its symbol, and is entered there. -/
lemma intern_of_notMem (hs : s ∉ t.strings) :
    (t.intern s).1 = ⟨t.size⟩ ∧ (t.intern s).2.toInternTable = t.push s := by
  have hmap := t.issued.inverse.lookup_eq_none_iff.mpr hs
  have hraw : t.toInternTable.intern s = (⟨t.size⟩, t.push s) := by
    rw [InternTable.intern, hmap]
    rfl
  exact ⟨congrArg Prod.fst hraw, congrArg Prod.snd hraw⟩

/-- Entering a string appends it if it is new and changes nothing otherwise. -/
lemma strings_intern (t : SymbolTable) (s : String) :
    (t.intern s).2.strings = if s ∈ t.strings then t.strings else t.strings ++ [s] := by
  split
  · next hs => rw [intern_of_mem hs]
  · next hs => exact congrArg InternTable.strings (intern_of_notMem hs).2

/-- Entering a string keeps the strings that were there at their places. -/
lemma prefix_intern (t : SymbolTable) (s : String) : t.strings <+: (t.intern s).2.strings := by
  rw [strings_intern]
  split
  · exact List.prefix_refl _
  · exact List.prefix_append _ _

/-- A symbol stands for the string that it was issued for. -/
lemma lookup_intern (t : SymbolTable) (s : String) :
    (t.intern s).2.lookup (t.intern s).1 = s := by
  by_cases hs : s ∈ t.strings
  · have hi := List.idxOf_lt_length_of_mem hs
    simp [intern_of_mem hs, symbolOf, InternTable.lookup, List.getD_eq_getElem?_getD,
      List.getElem?_eq_getElem hi, List.getElem_idxOf]
  · obtain ⟨hsymbol, htable⟩ := intern_of_notMem hs
    simp [InternTable.lookup, hsymbol, htable, InternTable.size]

/-- A symbol that the table issued keeps its string when the table grows. -/
lemma lookup_of_prefix {a : Symbol} (h : t.strings <+: u.strings) (ha : a.index < t.size) :
    u.lookup a = t.lookup a := by
  obtain ⟨rest, hrest⟩ := h
  simp only [InternTable.lookup, ← hrest, List.getD_eq_getElem?_getD]
  rw [List.getElem?_append_left ha]

end SymbolTable

end MapperDelegation
