import MapperDelegation.Proofs.Symbol.Stores

set_option relaxedAutoImplicit false
set_option autoImplicit false

/-!
# Entering strings

A symbol table grows by the strings that it does not hold yet, in the order in which they are
entered, and a string that it holds keeps its symbol from then on. Whatever is computed while
strings are entered can therefore be computed afterwards, from the symbols that these strings have
in the table at the end or in any later one.

## Main definitions

* `SymbolTable.Knows` — the table issued the symbol.
* `SymbolTable.internAll` — the table after some strings have been entered.
* `Enters` — a computation enters a list of strings and reads its result off their symbols.

## Main results

* `SymbolTable.symbolOf_lookup` — within a table, symbols and strings correspond to each other.
* `Enters.bind`, `Enters.mapM` — entering one thing after the other.
-/

namespace MapperDelegation

namespace SymbolTable

variable {t u : SymbolTable} {s : String} {ss : List String} {a b : Symbol}

/-! ## Symbols and strings of one table -/

/-- The table issued the symbol. -/
def Knows (t : SymbolTable) (a : Symbol) : Prop := a.index < t.size

/-- The reserved strings are the first ones. -/
lemma exists_strings_eq (t : SymbolTable) : ∃ rest, t.strings = "" :: "void" :: rest := by
  obtain ⟨rest, h⟩ := t.reserved
  exact ⟨rest, h.symm⟩

/-- The word `void` has its reserved symbol. -/
lemma symbolOf_void (t : SymbolTable) : t.symbolOf "void" = .void := by
  obtain ⟨rest, h⟩ := t.exists_strings_eq
  simp [symbolOf, h, Symbol.void]

/-- The word `void` belongs to every table. -/
lemma void_mem_strings (t : SymbolTable) : "void" ∈ t.strings := by
  obtain ⟨rest, h⟩ := t.exists_strings_eq
  simp [h]

/-- A string of the table has a symbol that the table issued. -/
lemma knows_symbolOf (h : s ∈ t.strings) : t.Knows (t.symbolOf s) := List.idxOf_lt_length_of_mem h

/-- A symbol that the table issued stands for one of its strings. -/
lemma lookup_mem_strings (h : t.Knows a) : t.lookup a ∈ t.strings := by
  rw [InternTable.lookup, List.getD_eq_getElem?_getD, List.getElem?_eq_getElem h]
  exact List.getElem_mem h

/-- The symbol of a string stands for it. -/
lemma lookup_symbolOf (h : s ∈ t.strings) : t.lookup (t.symbolOf s) = s := by
  have hlt := List.idxOf_lt_length_of_mem h
  simp [InternTable.lookup, symbolOf, List.getD_eq_getElem?_getD, List.getElem?_eq_getElem hlt]

/-- A symbol is the one of the string that it stands for. -/
lemma symbolOf_lookup (h : t.Knows a) : t.symbolOf (t.lookup a) = a := by
  have hlt : a.index < t.strings.length := h
  rw [symbolOf, InternTable.lookup, List.getD_eq_getElem?_getD, List.getElem?_eq_getElem hlt,
    Option.getD_some, t.nodup.idxOf_getElem]

/-- Different symbols of a table stand for different strings. -/
lemma eq_of_lookup_eq (ha : t.Knows a) (hb : t.Knows b) (h : t.lookup a = t.lookup b) : a = b := by
  rw [← symbolOf_lookup ha, ← symbolOf_lookup hb, h]

/-- Different symbols of a table stand for different strings, also in a whole list of them. -/
lemma nodup_map_lookup {as : List Symbol} (h : as.Nodup) (hknows : ∀ a ∈ as, t.Knows a) :
    (as.map t.lookup).Nodup :=
  h.map_on fun a ha b hb => eq_of_lookup_eq (hknows a ha) (hknows b hb)

/-! ## Growth -/

/-- A string keeps its symbol when the table grows. -/
lemma symbolOf_of_isPrefix (h : t.strings <+: u.strings) (hs : s ∈ t.strings) :
    u.symbolOf s = t.symbolOf s := by
  obtain ⟨rest, hrest⟩ := h
  rw [symbolOf, ← hrest, List.idxOf_append_of_mem hs, symbolOf]

/-- A table that has grown knows the symbols that it knew before. -/
lemma Knows.mono (ha : t.Knows a) (h : t.strings <+: u.strings) : u.Knows a :=
  Nat.lt_of_lt_of_le ha h.length_le

/-- Tables of which each one continues the other are the same. -/
lemma eq_of_isPrefix (h : t.strings <+: u.strings) (h' : u.strings <+: t.strings) : t = u :=
  ext_strings (h.eq_of_length_le h'.length_le)

/-- A string belongs to the table in which it was entered. -/
lemma mem_strings_intern (t : SymbolTable) (s : String) : s ∈ (t.intern s).2.strings := by
  rw [strings_intern]
  split
  · assumption
  · simp

/-- The symbol that is issued is the one that the string has from then on. -/
lemma fst_intern (h : (t.intern s).2.strings <+: u.strings) : (t.intern s).1 = u.symbolOf s := by
  rw [symbolOf_of_isPrefix h (t.mem_strings_intern s)]
  by_cases hs : s ∈ t.strings
  · rw [intern_of_mem hs]
  · obtain ⟨hsymbol, htable⟩ := intern_of_notMem hs
    simp [hsymbol, htable, symbolOf, InternTable.size, List.idxOf_append_of_notMem hs]

/-- The table after some strings have been entered. -/
def internAll (t : SymbolTable) (ss : List String) : SymbolTable :=
  ss.foldl (fun t s => (t.intern s).2) t

@[simp] lemma internAll_nil : t.internAll [] = t := rfl

@[simp] lemma internAll_cons : t.internAll (s :: ss) = (t.intern s).2.internAll ss := rfl

lemma internAll_append (ss' : List String) :
    t.internAll (ss ++ ss') = (t.internAll ss).internAll ss' := List.foldl_append

/-- Entering strings keeps those that were there at their places. -/
lemma prefix_internAll (t : SymbolTable) (ss : List String) :
    t.strings <+: (t.internAll ss).strings := by
  induction ss generalizing t with
  | nil => exact List.prefix_refl _
  | cons s ss ih => exact (t.prefix_intern s).trans (ih _)

/-- The strings that are entered belong to the table afterwards. -/
lemma mem_strings_internAll (h : s ∈ ss) : s ∈ (t.internAll ss).strings := by
  induction ss generalizing t with
  | nil => cases h
  | cons s' ss ih =>
    rcases List.mem_cons.mp h with rfl | h
    · exact ((t.intern s).2.prefix_internAll ss).subset (t.mem_strings_intern s)
    · exact ih h

/-- Strings of the table are not entered again. -/
lemma internAll_of_subset (h : ss ⊆ t.strings) : t.internAll ss = t := by
  induction ss with
  | nil => rfl
  | cons s ss ih =>
    rw [List.cons_subset] at h
    rw [internAll_cons, intern_of_mem h.1, ih h.2]

end SymbolTable

/-! ## Computations that enter strings -/

/-- A computation enters the strings `ss` one after the other, and its result is read off their
symbols by `v`. It does not matter whether these are taken from the table right afterwards or from
a later one. -/
def Enters {α : Type} (x : StateM SymbolTable α) (ss : List String)
    (v : (String → Symbol) → α) : Prop :=
  ∀ t u : SymbolTable, (t.internAll ss).strings <+: u.strings →
    x.run t = (v u.symbolOf, t.internAll ss)

namespace Enters

variable {α β : Type} {x : StateM SymbolTable α} {y : α → StateM SymbolTable β}
  {ss ss' : List String} {v : (String → Symbol) → α} {w : α → (String → Symbol) → β}

/-- The list of strings may be written in another way. -/
lemma of_eq (h : Enters x ss v) (hss : ss = ss') : Enters x ss' v := hss ▸ h

/-- What is known already needs no string. -/
lemma pure (a : α) : Enters (Pure.pure a) [] fun _ => a := fun _ _ _ => rfl

/-- One string is entered for its symbol. -/
lemma intern (s : String) : Enters (MapperDelegation.intern s) [s] fun symbolOf => symbolOf s := by
  intro t u h
  exact Prod.ext (SymbolTable.fst_intern h) rfl

/-- One string is entered for the type of this name. -/
lemma internType (s : String) :
    Enters (MapperDelegation.internType s) [s] fun symbolOf => ⟨symbolOf s⟩ := by
  intro t u h
  exact Prod.ext (congrArg TypeSymbol.mk (SymbolTable.fst_intern h)) rfl

/-- The strings of a second computation come after those of the first one. -/
lemma bind (hx : Enters x ss v) (hy : ∀ a, Enters (y a) ss' (w a)) :
    Enters (x >>= y) (ss ++ ss') fun symbolOf => w (v symbolOf) symbolOf := by
  intro t u h
  rw [SymbolTable.internAll_append] at h ⊢
  have hfirst := hx t u (((t.internAll ss).prefix_internAll ss').trans h)
  have hsecond := hy (v u.symbolOf) (t.internAll ss) u h
  rw [StateT.run_bind, hfirst]
  exact hsecond

/-- A list is entered entry by entry. -/
lemma mapM {f : α → StateM SymbolTable β} {strings : α → List String}
    (hf : ∀ a, Enters (f a) (strings a) (w a)) (as : List α) :
    Enters (as.mapM f) (as.flatMap strings) fun symbolOf => as.map (w · symbolOf) := by
  induction as with
  | nil => exact pure []
  | cons a as ih =>
    rw [List.mapM_cons, List.flatMap_cons]
    have hrest : ∀ b, Enters (do return b :: (← as.mapM f)) (as.flatMap strings)
        fun symbolOf => b :: as.map (w · symbolOf) := by
      intro b
      have h := bind ih fun bs => pure (b :: bs)
      rwa [List.append_nil] at h
    exact bind (hf a) hrest

/-- What may be missing is entered if it is there. -/
lemma optionMapM {f : α → StateM SymbolTable β} {strings : α → List String}
    (hf : ∀ a, Enters (f a) (strings a) (w a)) (a : Option α) :
    Enters (a.mapM f) (a.toList.flatMap strings) fun symbolOf => a.map (w · symbolOf) := by
  cases a with
  | none => exact pure none
  | some a => exact bind (hf a) fun b => pure (some b)

end Enters

end MapperDelegation
