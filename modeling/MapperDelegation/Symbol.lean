set_option autoImplicit false

/-!
# Symbols

Every name and every type of a catalogue of mappers is entered once in a symbol table and
handled from then on by its position there. Equality of two symbols of one table is therefore
equality of the strings they stand for, and the search for delegates compares numbers only.

The table is kept in two stores, from strings to positions and from positions to strings. Nothing
but the way in which they are filled keeps them in agreement.

## Main definitions

* `Symbol`, `TypeSymbol` — positions of a name and of a rendered type.
* `InternTable` — the two stores of a table.
* `InternTable.intern`, `InternTable.lookup` — from a string to its symbol and back.
* `InternTable.tryIntern` — entering a string under the bound on the size of a table.
* `SymbolTable` — a table that came about by entering strings, from the one with the reserved
  strings on.
-/

namespace MapperDelegation

/-! ## Symbols and types -/

/-- The position of a string in a symbol table. -/
structure Symbol where
  index : Nat
deriving DecidableEq

namespace Symbol

/-- The reserved symbol of the empty string. -/
def empty : Symbol := ⟨0⟩

/-- The reserved symbol of `void`. -/
def void : Symbol := ⟨1⟩

/-- A symbol as it is shown to a developer. -/
def text (s : Symbol) : String := s!"Name({s.index})"

end Symbol

/-- A type, known by the symbol of its rendered name. Two types are the same exactly when they
are rendered alike: there is no subtyping, widening or boxing. -/
structure TypeSymbol where
  name : Symbol
deriving DecidableEq

namespace TypeSymbol

/-- The return type of a method that returns nothing. -/
def void : TypeSymbol := ⟨Symbol.void⟩

/-- Whether a type is `void`. -/
def isVoid (t : TypeSymbol) : Bool := t = void

/-- A type as it is shown to a developer. -/
def text (t : TypeSymbol) : String :=
  if t.isVoid then "TypeRef::VOID" else s!"TypeRef({t.name.index})"

end TypeSymbol

/-! ## The two stores -/

/-- A new string does not fit into the table. -/
inductive InternError where
  | overflow (count : Nat)
deriving DecidableEq

/-- What a table of strings consists of: the position of each string, and the string at each
position. Of several entries for one string the newest counts. -/
structure InternTable where
  map : List (String × Nat)
  strings : List String

namespace InternTable

/-- The greatest position that a symbol can have. -/
def lastIndex : Nat := 0xFFFFFFFF

/-- Enters one more string in both stores, at the next position. -/
def push (t : InternTable) (s : String) : InternTable where
  map := (s, t.strings.length) :: t.map
  strings := t.strings ++ [s]

/-- The table that holds the reserved strings alone, each at the position of its symbol. -/
def withReserved : InternTable := ["", "void"].foldl push ⟨[], []⟩

/-- The symbol of a string, unless the string is new and every position is taken. -/
def tryIntern (t : InternTable) (s : String) : Except InternError (Symbol × InternTable) :=
  match t.map.lookup s with
  | some index => .ok (⟨index⟩, t)
  | none =>
    if t.strings.length ≤ lastIndex then .ok (⟨t.strings.length⟩, t.push s)
    else .error (.overflow t.strings.length)

/-- The symbol of a string. A string that is new to the table is entered.

There is no bound on the size here: a string that does not fit, at which `tryIntern` reports an
overflow, gets the next position all the same. What is said of `intern`, and of all that enters
strings by it, is therefore said of programs that stop at such a string only as long as it does
not come to that. -/
def intern (t : InternTable) (s : String) : Symbol × InternTable :=
  match t.map.lookup s with
  | some index => (⟨index⟩, t)
  | none => (⟨t.strings.length⟩, t.push s)

/-- The string that a symbol stands for; a symbol that the table never issued stands for the
empty string. -/
def lookup (t : InternTable) (a : Symbol) : String := t.strings.getD a.index ""

/-- The number of strings, the reserved ones included. -/
def size (t : InternTable) : Nat := t.strings.length

/-- Whether the table holds nothing but the reserved strings. -/
def isEmpty (t : InternTable) : Bool := t.size ≤ 2

/-- The table comes about by entering strings, from the one with the reserved strings on. -/
inductive Issued : InternTable → Prop
  | reserved : Issued withReserved
  | intern {t : InternTable} (h : Issued t) (s : String) : Issued (t.intern s).2

/-- Under the bound on the size, a string is entered as it is without the bound, if at all. -/
theorem intern_eq_of_tryIntern {t : InternTable} {s : String} {entered : Symbol × InternTable}
    (h : t.tryIntern s = .ok entered) : t.intern s = entered := by
  unfold tryIntern at h
  unfold intern
  split at h
  · exact Except.ok.inj h
  · split at h
    · exact Except.ok.inj h
    · cases h

/-- A table that grows under the bound on the size comes about by entering strings. -/
theorem Issued.of_tryIntern {t : InternTable} {s : String} {entered : Symbol × InternTable}
    (ht : t.Issued) (h : t.tryIntern s = .ok entered) : entered.2.Issued :=
  intern_eq_of_tryIntern h ▸ ht.intern s

end InternTable

/-! ## Tables in use -/

/-- A symbol table: two stores that nobody but `intern` has ever written to. -/
structure SymbolTable extends InternTable where
  issued : toInternTable.Issued

namespace SymbolTable

/-- The table that holds the reserved strings alone. -/
def empty : SymbolTable where
  toInternTable := .withReserved
  issued := .reserved

/-- The symbol of a string. A string that is new to the table is entered. -/
def intern (t : SymbolTable) (s : String) : Symbol × SymbolTable :=
  let entered := t.toInternTable.intern s
  (entered.1, ⟨entered.2, t.issued.intern s⟩)

/-- The symbol of a string, unless the string is new and every position is taken. -/
def tryIntern (t : SymbolTable) (s : String) : Except InternError (Symbol × SymbolTable) :=
  match h : t.toInternTable.tryIntern s with
  | .ok entered => .ok (entered.1, ⟨entered.2, t.issued.of_tryIntern h⟩)
  | .error e => .error e

end SymbolTable

/-- The wording of the error. -/
def InternError.message : InternError → String
  | .overflow count =>
    s!"interner exceeded capacity: {count} strings, max is {InternTable.lastIndex}"

/-- Enters a string into the table at hand. -/
def intern (s : String) : StateM SymbolTable Symbol := modifyGet (·.intern s)

/-- Enters the rendered name of a type into the table at hand. -/
def internType (s : String) : StateM SymbolTable TypeSymbol := TypeSymbol.mk <$> intern s

end MapperDelegation
