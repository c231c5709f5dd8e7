import Mathlib.Logic.Function.Basic
import MapperDelegation.Proofs.Symbol.Entering

set_option relaxedAutoImplicit false
set_option autoImplicit false

/-!
# Renaming symbols

Two tables that hold the same string may hold it at different places. A renaming leads from the
symbols of one table to those of another one that holds at least the same strings, such that no
string changes. It is defined on all symbols, also on those that the table never issued, so that it
is injective without any side condition.

## Main definitions

* `Renaming` — a map of symbols under which the strings stay the same.
* `SymbolTable.translate` — the renaming from a table to one with more strings.

## Main results

* `SymbolTable.renaming_translate` — there is a renaming to every table with more strings.
-/

namespace MapperDelegation

/-! ## Renamings -/

/-- A type whose rendered name has another symbol. -/
def TypeSymbol.rename (f : Symbol → Symbol) (t : TypeSymbol) : TypeSymbol := ⟨f t.name⟩

/-- The map `f` leads from the symbols of `t` to those of `u` without a change of any string. -/
structure Renaming (f : Symbol → Symbol) (t u : SymbolTable) : Prop where
  injective : Function.Injective f
  subset : t.strings ⊆ u.strings
  map_symbolOf : ∀ s ∈ t.strings, f (t.symbolOf s) = u.symbolOf s
  lookup : ∀ a, u.lookup (f a) = t.lookup a

namespace Renaming

variable {f : Symbol → Symbol} {t u : SymbolTable}

/-- The word `void` keeps its reserved symbol. -/
lemma map_void (h : Renaming f t u) : f .void = .void := by
  have hvoid := h.map_symbolOf "void" t.void_mem_strings
  rwa [SymbolTable.symbolOf_void, SymbolTable.symbolOf_void] at hvoid

/-- Different types stay different. -/
lemma typeInjective (h : Renaming f t u) : Function.Injective (TypeSymbol.rename f) := by
  rintro ⟨a⟩ ⟨b⟩ hab
  exact congrArg TypeSymbol.mk (h.injective (congrArg TypeSymbol.name hab))

/-- A type is `void` before it is renamed if and only if it is so afterwards. -/
lemma isVoid_rename (h : Renaming f t u) (a : TypeSymbol) : (a.rename f).isVoid = a.isVoid := by
  have hvoid : TypeSymbol.rename f .void = .void := congrArg TypeSymbol.mk h.map_void
  simp only [TypeSymbol.isVoid, decide_eq_decide]
  exact ⟨fun ha => h.typeInjective (ha.trans hvoid.symm), fun ha => ha ▸ hvoid⟩

end Renaming

/-! ## Renamings between tables -/

namespace SymbolTable

variable {t u : SymbolTable}

/-- A symbol that a table never issued stands for the empty string. -/
lemma lookup_of_not_knows {a : Symbol} (h : ¬t.Knows a) : t.lookup a = "" := by
  have hlen : t.strings.length ≤ a.index := Nat.not_lt.mp h
  simp [InternTable.lookup, List.getD_eq_getElem?_getD, List.getElem?_eq_none hlen]

/-- The symbol in `u` of the string of a symbol in `t`. What `t` never issued goes to a symbol that
`u` never issued. -/
def translate (t u : SymbolTable) (a : Symbol) : Symbol :=
  if a.index < t.size then u.symbolOf (t.lookup a) else ⟨u.size + a.index⟩

/-- A symbol that the table issued is translated by its string. -/
lemma translate_of_knows {a : Symbol} (h : t.Knows a) :
    t.translate u a = u.symbolOf (t.lookup a) := if_pos h

/-- Other symbols are moved past the end of the table. -/
lemma translate_of_not_knows {a : Symbol} (h : ¬t.Knows a) :
    t.translate u a = ⟨u.size + a.index⟩ := if_neg h

/-- The symbols that a table issued, and only those, are translated to such symbols. -/
lemma knows_translate_iff (h : t.strings ⊆ u.strings) {a : Symbol} :
    u.Knows (t.translate u a) ↔ t.Knows a := by
  by_cases ha : t.Knows a
  · rw [translate_of_knows ha]
    exact iff_of_true (knows_symbolOf (h (lookup_mem_strings ha))) ha
  · rw [translate_of_not_knows ha]
    exact iff_of_false (Nat.not_lt.mpr (Nat.le_add_right _ _)) ha

/-- A translated symbol stands for the same string. -/
lemma lookup_translate (h : t.strings ⊆ u.strings) (a : Symbol) :
    u.lookup (t.translate u a) = t.lookup a := by
  by_cases ha : t.Knows a
  · rw [translate_of_knows ha, lookup_symbolOf (h (lookup_mem_strings ha))]
  · rw [lookup_of_not_knows (mt (knows_translate_iff h).mp ha), lookup_of_not_knows ha]

/-- Different symbols have different translations. -/
lemma translate_injective (h : t.strings ⊆ u.strings) :
    Function.Injective (t.translate u) := by
  intro a b hab
  have hknows : t.Knows a ↔ t.Knows b := by
    rw [← knows_translate_iff h, hab, knows_translate_iff h]
  by_cases ha : t.Knows a
  · refine eq_of_lookup_eq ha (hknows.mp ha) ?_
    rw [← lookup_translate h a, hab, lookup_translate h b]
  · rw [translate_of_not_knows ha, translate_of_not_knows (mt hknows.mpr ha)] at hab
    have hindex : u.size + a.index = u.size + b.index := congrArg Symbol.index hab
    obtain ⟨i⟩ := a
    obtain ⟨j⟩ := b
    exact congrArg Symbol.mk (Nat.add_left_cancel hindex)

/-- Symbols can be renamed to those of any table that holds at least the same strings. -/
theorem renaming_translate (h : t.strings ⊆ u.strings) : Renaming (t.translate u) t u where
  injective := translate_injective h
  subset := h
  map_symbolOf s hs := by rw [translate_of_knows (knows_symbolOf hs), lookup_symbolOf hs]
  lookup := lookup_translate h

end SymbolTable

end MapperDelegation
