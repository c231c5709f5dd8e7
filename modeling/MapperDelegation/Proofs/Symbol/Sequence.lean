import Mathlib.Data.List.Induction
import MapperDelegation.Proofs.Symbol.Entering

set_option relaxedAutoImplicit false
set_option autoImplicit false

/-!
# Sequences of strings

What a symbol table holds after some strings have been entered does not depend on how it came
about: it holds the reserved strings and then every other string once, in the order of first
appearance, and its two stores are inverse to each other. The symbols that were issued on the way
are the positions of the strings in this final table, and they keep their meaning whatever is
entered later. As long as all strings have room, it makes no difference whether they are entered
with or without regard to the bound on the size.

## Main definitions

* `InternTable.internEach`, `InternTable.tryInternEach` — some strings are entered one after the
  other.
* `InternTable.appearances` — the reserved strings and some others, each once.

## Main results

* `SymbolTable.run_internEach` — symbols that are issued may be read off the table at the end.
* `SymbolTable.strings_internAll_empty` — what a table holds in the end.
* `InternTable.run_tryInternEach` — when strings have room, and what the error is if they do not.
* `InternTable.exists_table_of_sequence` — the final table and all the symbols issued on the way.
-/

namespace MapperDelegation

namespace InternTable

/-! ## Entering strings one after the other -/

/-- Enters some strings one after the other for their symbols. -/
def internEach (ss : List String) : StateM InternTable (List Symbol) :=
  ss.mapM fun s t => t.intern s

/-- Enters some strings one after the other, until one of them does not fit into the table. -/
def tryInternEach (ss : List String) : StateT InternTable (Except InternError) (List Symbol) :=
  ss.mapM fun s t => t.tryIntern s

/-- The reserved strings, and after them the strings `ss` in their order, with all later repetitions
removed. -/
def appearances (ss : List String) : List String := ("" :: "void" :: ss).eraseDups

/-- The strings are entered from the first one on. -/
lemma run_internEach_cons (t : InternTable) (s : String) (ss : List String) :
    (internEach (s :: ss)).run t =
      ((t.intern s).1 :: ((internEach ss).run (t.intern s).2).1,
        ((internEach ss).run (t.intern s).2).2) := by
  rw [internEach, List.mapM_cons, StateT.run_bind]
  rfl

/-! ## The bound on the size -/

section Bound

variable {t : InternTable}

/-- A string is refused if there is no room for it, and otherwise entered as it would be without the
bound. -/
lemma tryIntern_eq (ht : t.size ≤ lastIndex + 1) (s : String) :
    t.tryIntern s = if (t.intern s).2.size ≤ lastIndex + 1 then .ok (t.intern s)
      else .error (.overflow (lastIndex + 1)) := by
  unfold tryIntern intern
  cases t.map.lookup s with
  | some index => exact (if_pos ht).symm
  | none =>
    have hsize : (t.push s).size = t.strings.length + 1 := by simp [size]
    by_cases hroom : t.strings.length ≤ lastIndex
    · simp [hsize, hroom]
    · have hfull : t.strings.length = lastIndex + 1 := Nat.le_antisymm ht (Nat.not_le.mp hroom)
      simp [hsize, hfull]

/-- A table does not lose strings when others are entered. -/
lemma size_le_size_internEach (t : InternTable) (ss : List String) :
    t.size ≤ ((internEach ss).run t).2.size := by
  induction ss generalizing t with
  | nil => exact Nat.le_refl _
  | cons s ss ih =>
    rw [run_internEach_cons]
    refine Nat.le_trans ?_ (ih _)
    rcases t.strings_intern_eq_or s with hsame | hmore
    · simp [size, hsame]
    · simp [size, hmore]

/-- **Room for strings**: strings are entered up to the last one, as they would be without the
bound, exactly if the table has room for all of them.

**Proof sketch.** Induction on the strings. A table that is too large after the first string is also
too large after all of them. -/
lemma run_tryInternEach (ht : t.size ≤ lastIndex + 1) (ss : List String) :
    (tryInternEach ss).run t =
      if ((internEach ss).run t).2.size ≤ lastIndex + 1 then .ok ((internEach ss).run t)
      else .error (.overflow (lastIndex + 1)) := by
  induction ss generalizing t with
  | nil => exact (if_pos ht).symm
  | cons s ss ih =>
    have hstep : (tryInternEach (s :: ss)).run t = (t.tryIntern s).bind fun first =>
        ((tryInternEach ss).run first.2).map fun rest => (first.1 :: rest.1, rest.2) := by
      rw [tryInternEach, List.mapM_cons, StateT.run_bind]
      rfl
    have hrest := size_le_size_internEach (t.intern s).2 ss
    rw [hstep, run_internEach_cons, tryIntern_eq ht]
    by_cases hfirst : (t.intern s).2.size ≤ lastIndex + 1
    · rw [if_pos hfirst, Except.bind, ih hfirst]
      split <;> rfl
    · have hall : ¬((internEach ss).run (t.intern s).2).2.size ≤ lastIndex + 1 := by omega
      rw [if_neg hfirst, if_neg hall]
      rfl

end Bound

end InternTable

/-! ## What a table holds -/

/-- A list ends with a repetition, which is removed, or with a first appearance, which is kept. -/
lemma eraseDups_concat {α : Type} [DecidableEq α] (xs : List α) (x : α) :
    (xs ++ [x]).eraseDups = if x ∈ xs then xs.eraseDups else xs.eraseDups ++ [x] := by
  rw [List.eraseDups_append, List.cons_removeAll]
  by_cases h : x ∈ xs
  · simp [h]
  · simp [h, List.eraseDups_cons]

namespace SymbolTable

open InternTable (internEach appearances)

variable {t u : SymbolTable} {ss : List String}

/-- The symbols of strings that are entered may be read off the table at the end, or any later
one. -/
lemma run_internEach (h : (t.internAll ss).strings <+: u.strings) :
    (internEach ss).run t.toInternTable =
      (ss.map u.symbolOf, (t.internAll ss).toInternTable) := by
  induction ss generalizing t with
  | nil => rfl
  | cons s ss ih =>
    have hfirst := fst_intern (((t.intern s).2.prefix_internAll ss).trans h)
    have hrest : (internEach ss).run (t.toInternTable.intern s).2 =
        (ss.map u.symbolOf, ((t.intern s).2.internAll ss).toInternTable) := ih h
    rw [InternTable.run_internEach_cons, hrest, List.map_cons, ← hfirst]
    rfl

/-- A table holds the reserved strings and those that were entered, in the order of their first
appearance.

**Proof sketch.** Induction on the strings from the end. The last one is appended if it has not
appeared before, which is when it is not in the table yet. -/
lemma strings_internAll_empty (ss : List String) :
    (empty.internAll ss).strings = appearances ss := by
  induction ss using List.reverseRecOn with
  | nil => decide
  | append_singleton ss s ih =>
    have hsplit : appearances (ss ++ [s]) = (("" :: "void" :: ss) ++ [s]).eraseDups := rfl
    rw [internAll_append, internAll_cons, internAll_nil, strings_intern, ih, hsplit,
      eraseDups_concat, appearances]
    simp only [List.mem_eraseDups]

/-- Symbols of strings of a table are the same at exactly the positions where the strings are. -/
lemma getElem?_map_symbolOf_eq_iff (h : ss ⊆ t.strings) (i j : ℕ) :
    (ss.map t.symbolOf)[i]? = (ss.map t.symbolOf)[j]? ↔ ss[i]? = ss[j]? := by
  rw [List.getElem?_map, List.getElem?_map]
  refine ⟨fun heq => ?_, congrArg _⟩
  have hback : ∀ k : ℕ, (ss[k]?.map t.symbolOf).map t.lookup = ss[k]? := by
    intro k
    cases hk : ss[k]? with
    | none => rfl
    | some a => exact congrArg some (lookup_symbolOf (h (List.mem_of_getElem? hk)))
  rw [← hback i, heq, hback j]

/-- Symbols of strings of a table stand for these strings, also when the table has grown. -/
lemma map_lookup_map_symbolOf (h : t.strings <+: u.strings) (hss : ss ⊆ t.strings) :
    (ss.map t.symbolOf).map u.lookup = ss := by
  rw [List.map_map]
  conv_rhs => rw [← List.map_id ss]
  refine List.map_congr_left fun s hs => ?_
  rw [Function.comp_apply, ← symbolOf_of_isPrefix h (hss hs),
    lookup_symbolOf (h.subset (hss hs)), id]

end SymbolTable

namespace InternTable

/-- **Sequences of strings**: after any strings have been entered in a new table, its two stores are
inverse to each other, and it holds the reserved strings and the entered ones with all later
repetitions removed, in the order of first appearance. Each string got the position that it has in
this table as its symbol, so that the same symbols were issued for the same strings only, and they
stand for these whatever is entered later. A position is looked up as the string that stands there,
or as the empty string past the end. With the bound on the size all this comes about likewise if the
final table has room for its strings, and otherwise the overflow is reported.

**Proof sketch.** The stores are inverse to each other because they have been filled by entering
strings (`Issued.inverse`). Therefore the table is that of `strings_internAll_empty`, and symbols
may be read off it. The bounded way of entering is `run_tryInternEach`. -/
theorem exists_table_of_sequence (ss : List String) :
    ∃ (symbols : List Symbol) (t : InternTable),
      (internEach ss).run .withReserved = (symbols, t) ∧
      (∀ s i, t.map.lookup s = some i ↔ t.strings[i]? = some s) ∧
      t.strings = appearances ss ∧
      symbols = ss.map (fun s => ⟨(appearances ss).idxOf s⟩) ∧
      (∀ i j : ℕ, symbols[i]? = symbols[j]? ↔ ss[i]? = ss[j]?) ∧
      (∀ later, symbols.map ((internEach later).run t).2.lookup = ss) ∧
      (∀ n, t.lookup ⟨n⟩ = (appearances ss)[n]?.getD "") ∧
      (tryInternEach ss).run .withReserved =
        if (appearances ss).length ≤ lastIndex + 1 then .ok (symbols, t)
        else .error (.overflow (lastIndex + 1)) := by
  have hstrings := SymbolTable.strings_internAll_empty ss
  have hsubset : ss ⊆ (SymbolTable.empty.internAll ss).strings :=
    fun s hs => SymbolTable.mem_strings_internAll hs
  have hrun : (internEach ss).run .withReserved = _ :=
    SymbolTable.run_internEach (List.prefix_refl (SymbolTable.empty.internAll ss).strings)
  have hinverse := (SymbolTable.empty.internAll ss).issued.inverse
  refine ⟨_, _, hrun, hinverse, hstrings, ?_,
    SymbolTable.getElem?_map_symbolOf_eq_iff hsubset, ?_, ?_, ?_⟩
  · rw [← hstrings]
    rfl
  · intro later
    have hlater := (SymbolTable.empty.internAll ss).prefix_internAll later
    rw [SymbolTable.run_internEach (List.prefix_refl _)]
    exact SymbolTable.map_lookup_map_symbolOf hlater hsubset
  · intro n
    rw [lookup, hstrings, List.getD_eq_getElem?_getD]
  · have hempty : withReserved.size ≤ lastIndex + 1 := by decide
    rw [run_tryInternEach hempty, hrun, size, hstrings]

/-- The reserved strings keep their places when they are entered again. -/
example : appearances ["toDto", "void", "User", "toDto"] = ["", "void", "toDto", "User"] := by
  decide

end InternTable

end MapperDelegation
