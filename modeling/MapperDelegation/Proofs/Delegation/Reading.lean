import MapperDelegation.Delegation.Call
import MapperDelegation.Proofs.Symbol.Entering

set_option relaxedAutoImplicit false
set_option autoImplicit false

/-!
# Reading calls

The text of a call is put together from an access variable, if there is one, a name, and any number
of arguments. If all of these are identifiers, the text can be taken apart again: what stands before
the first parenthesis is the name, behind a dot if there is an access variable, and what stands
between the parentheses are the arguments, separated by commas. The spaces inside the parentheses
make sure that every argument has one in front of it. Since no identifier is empty, a call without
arguments cannot be taken for one with an empty argument.

## Main definitions

* `IsIdentifier` — the strings that a call is put together from.
* `CallParts`, `CallParts.text`, `CallParts.read` — what a call consists of, its text, and the way
  back.
* `Reference.parts` — the parts of a call with given arguments.

## Main results

* `CallParts.read_text` — the text of a call is read back.
* `callText_unique` — calls with the same text have the same parts, and no call has the text that
  stands for a missing one.
-/

namespace MapperDelegation

/-! ## Cutting a list -/

section Cutting

variable {α : Type} [DecidableEq α]

/-- What stands before the first `x` of a list, and what stands behind it. -/
def cutAt (x : α) (xs : List α) : List α × List α :=
  (xs.takeWhile (· ≠ x), (xs.dropWhile (· ≠ x)).tail)

/-- A list that is put together around its first `x` is cut there. -/
lemma cutAt_append_cons {x : α} {xs ys : List α} (h : x ∉ xs) :
    cutAt x (xs ++ x :: ys) = (xs, ys) := by
  have hxs : ∀ a ∈ xs, decide (a ≠ x) = true := by
    intro a ha
    exact decide_eq_true (ne_of_mem_of_not_mem ha h)
  rw [cutAt, List.takeWhile_append_of_pos hxs, List.dropWhile_append_of_pos hxs]
  simp

end Cutting

/-! ## Parts of a call -/

/-- A string that may be the name of a variable, of a method or of a parameter: it is not empty and
has none of the characters that separate the parts of a call. -/
def IsIdentifier (s : String) : Prop := s ≠ "" ∧ ∀ c ∈ s.toList, c ≠ '.' ∧ c ≠ '(' ∧ c ≠ ','

instance (s : String) : Decidable (IsIdentifier s) :=
  -- The characters of the string are tried, and not all characters that there are.
  haveI := List.decidableBAll (fun c => c ≠ '.' ∧ c ≠ '(' ∧ c ≠ ',') s.toList
  instDecidableAnd

/-- What a call consists of. -/
structure CallParts where
  /-- The access variable, if the method stands in another unit. -/
  receiver : Option String
  name : String
  arguments : List String
deriving DecidableEq

namespace CallParts

/-- All parts of a call are identifiers. -/
structure Plain (p : CallParts) : Prop where
  receiver : ∀ v ∈ p.receiver, IsIdentifier v
  name : IsIdentifier p.name
  arguments : ∀ a ∈ p.arguments, IsIdentifier a

/-- What stands before the parenthesis of a call. -/
def head (p : CallParts) : List Char :=
  match p.receiver with
  | none => p.name.toList
  | some v => v.toList ++ '.' :: p.name.toList

/-- The arguments of a call, with a space in front of each of them, or a space alone if there are
none. -/
def list (p : CallParts) : List Char := ' ' :: (", ".intercalate p.arguments).toList

/-- The text of a call. -/
def text (p : CallParts) : String := String.ofList (p.head ++ '(' :: p.list ++ [' ', ')'])

/-- The access variable and the name that stand before the parenthesis. -/
def readHead (cs : List Char) : Option String × String :=
  if '.' ∈ cs then
    let (receiver, name) := cutAt '.' cs
    (some (String.ofList receiver), String.ofList name)
  else (none, String.ofList cs)

/-- The arguments that stand between the parentheses. -/
def readList (cs : List Char) : List String :=
  if cs = [' '] then [] else (cs.splitOn ',').map fun a => String.ofList a.tail

/-- The parts of a call that has the given text. -/
def read (s : String) : CallParts :=
  let (head, rest) := cutAt '(' s.toList
  let (receiver, name) := readHead head
  { receiver, name, arguments := readList rest.dropLast.dropLast }

end CallParts

/-! ## Separators -/

namespace IsIdentifier

variable {s : String} (h : IsIdentifier s)
include h

lemma dot_notMem : '.' ∉ s.toList := fun hc => (h.2 _ hc).1 rfl

lemma parenthesis_notMem : '(' ∉ s.toList := fun hc => (h.2 _ hc).2.1 rfl

lemma comma_notMem : ',' ∉ s.toList := fun hc => (h.2 _ hc).2.2 rfl

end IsIdentifier

/-- Items that are separated by a comma and a space are items with a space in front of each that are
separated by a comma. -/
lemma cons_toList_intercalate {items : List String} (h : items ≠ []) :
    ' ' :: (", ".intercalate items).toList =
      [','].intercalate (items.map fun a => ' ' :: a.toList) := by
  rw [String.toList_intercalate]
  induction items with
  | nil => exact absurd rfl h
  | cons first rest ih =>
    cases rest with
    | nil => simp
    | cons second rest =>
      have hrest := ih (List.cons_ne_nil second rest)
      simp only [List.map_cons, List.intercalate_cons_cons] at hrest ⊢
      rw [← hrest]
      simp

/-! ## Reading a text -/

namespace CallParts

variable {p q : CallParts}

/-- The head of a call is read back. -/
lemma readHead_head (h : p.Plain) : readHead p.head = (p.receiver, p.name) := by
  obtain ⟨receiver, name, arguments⟩ := p
  have hname := h.name.dot_notMem
  cases receiver with
  | none => simp [readHead, head, hname]
  | some v =>
    have hv := (h.receiver v rfl).dot_notMem
    have hdot : '.' ∈ v.toList ++ '.' :: name.toList := by simp
    simp only [head, readHead, if_pos hdot, cutAt_append_cons hv, String.ofList_toList]

/-- The head of a call has no parenthesis. -/
lemma parenthesis_notMem_head (h : p.Plain) : '(' ∉ p.head := by
  have hname := h.name.parenthesis_notMem
  unfold head
  split
  · exact hname
  · next v hreceiver =>
    have hv := (h.receiver v hreceiver).parenthesis_notMem
    simp [hv, hname]

/-- The arguments of a call are read back.

**Proof sketch.** No argument has a comma, so the pieces between the commas are the arguments, each
with a space in front. A space alone would be an empty argument. -/
lemma readList_list (h : p.Plain) : readList p.list = p.arguments := by
  by_cases hempty : p.arguments = []
  · simp [readList, list, hempty]
  · have hsplit : p.list.splitOn ',' = p.arguments.map fun a => ' ' :: a.toList := by
      rw [list, cons_toList_intercalate hempty]
      refine List.splitOn_intercalate ',' ?_ (by simpa using hempty)
      intro l hl
      obtain ⟨a, ha, rfl⟩ := List.mem_map.mp hl
      simp [(h.arguments a ha).comma_notMem]
    have hspace : p.list ≠ [' '] := by
      intro hlist
      have hsingle : p.arguments.map (fun a => ' ' :: a.toList) = [[' ']] := by
        rw [← hsplit, hlist]
        decide
      obtain ⟨a, ha, hnil⟩ : ∃ a, p.arguments = [a] ∧ a = "" := by simpa using hsingle
      exact (h.arguments a (by simp [ha])).1 hnil
    rw [readList, if_neg hspace, hsplit, List.map_map]
    simp [Function.comp_def]

/-- **A call is read back** from its text if its parts are identifiers. -/
theorem read_text (h : p.Plain) : read p.text = p := by
  have hparenthesis := parenthesis_notMem_head h
  have htext : p.text.toList = p.head ++ '(' :: (p.list ++ [' ', ')']) := by simp [text]
  have hlist : (p.list ++ [' ', ')']).dropLast.dropLast = p.list := by
    rw [List.append_cons, List.dropLast_concat, List.dropLast_concat]
  simp only [read, htext, cutAt_append_cons hparenthesis, hlist, readHead_head h, readList_list h]

/-- Calls of the same text have the same parts. -/
lemma eq_of_text_eq (hp : p.Plain) (hq : q.Plain) (h : p.text = q.text) : p = q := by
  rw [← read_text hp, h, read_text hq]

/-- The text of a call ends with a parenthesis, whatever strings it is put together from. -/
lemma getLast?_text (p : CallParts) : p.text.toList.getLast? = some ')' := by
  rw [text, String.toList_ofList, List.getLast?_append]
  rfl

end CallParts

/-! ## Texts of references -/

/-- The parts of a call of a reference with the given arguments. -/
def Reference.parts (symbols : SymbolTable) (r : Reference) (arguments : List Symbol) :
    CallParts where
  receiver := r.owner.accessVariable.map symbols.lookup
  name := symbols.lookup r.targetName
  arguments := arguments.map symbols.lookup

/-- The text of a call of a reference is that of its parts. -/
lemma Reference.callText_eq_text (symbols : SymbolTable) (r : Reference) (arguments : List Symbol) :
    r.callText symbols arguments = (r.parts symbols arguments).text := by
  rw [← String.toList_inj]
  cases h : r.owner.accessVariable <;>
    simp [callText, parts, CallParts.text, CallParts.head, CallParts.list, h, toString]

/-- **Calls are told by their texts**: calls with the same text, whose access variables, names and
arguments are identifiers, agree in whether there is an access variable and in its text, in the name
of the target, and in the list of the arguments, however many there are. No call has the text that
stands for a missing one, whatever strings it is put together from.

**Proof sketch.** The parts of a call of identifiers are read back from the text. A call ends with a
parenthesis, and the text for a missing one does not. -/
theorem callText_unique :
    (∀ (symbols symbols' : SymbolTable) (r r' : Reference) (arguments arguments' : List Symbol),
      (r.parts symbols arguments).Plain → (r'.parts symbols' arguments').Plain →
      callText symbols (some r) arguments = callText symbols' (some r') arguments' →
      r.owner.accessVariable.map symbols.lookup = r'.owner.accessVariable.map symbols'.lookup ∧
        symbols.lookup r.targetName = symbols'.lookup r'.targetName ∧
        arguments.map symbols.lookup = arguments'.map symbols'.lookup) ∧
    ∀ (symbols symbols' : SymbolTable) (r : Reference) (arguments arguments' : List Symbol),
      callText symbols (some r) arguments ≠ callText symbols' none arguments' := by
  refine ⟨fun symbols symbols' r r' arguments arguments' hp hp' h => ?_,
    fun symbols symbols' r arguments arguments' h => ?_⟩
  · simp only [callText, Reference.callText_eq_text] at h
    have hparts := CallParts.eq_of_text_eq hp hp' h
    exact ⟨congrArg CallParts.receiver hparts, congrArg CallParts.name hparts,
      congrArg CallParts.arguments hparts⟩
  · simp only [callText, Reference.callText_eq_text] at h
    have hlast := CallParts.getLast?_text (r.parts symbols arguments)
    rw [h] at hlast
    exact absurd hlast (by decide)

/-- A table of symbols, and another one that holds the same strings in another order. -/
def ratesTable : SymbolTable := .internAll .empty ["rates", "total", "order", "rate"]

@[inherit_doc ratesTable] def reversedTable : SymbolTable :=
  .internAll .empty ["rate", "order", "total", "rates"]

/-- References to two methods of the same name in units with the same access variable, the one by
the symbols of `ratesTable` and the other by those of `reversedTable`. -/
def ratesReference : Reference := ⟨⟨0⟩, ⟨3⟩, .usedUnit ⟨⟨1⟩, ⟨2⟩⟩, []⟩

@[inherit_doc ratesReference] def reversedReference : Reference :=
  ⟨⟨7⟩, ⟨4⟩, .usedUnit ⟨⟨0⟩, ⟨5⟩⟩, []⟩

/-- Calls of the two references with the same arguments have the same text and the same parts. -/
theorem callText_unique_reversed :
    (ratesReference.parts ratesTable [⟨4⟩, ⟨5⟩]).Plain ∧
      (reversedReference.parts reversedTable [⟨3⟩, ⟨2⟩]).Plain ∧
      callText ratesTable (some ratesReference) [⟨4⟩, ⟨5⟩] =
        callText reversedTable (some reversedReference) [⟨3⟩, ⟨2⟩] ∧
      ratesReference.owner.accessVariable.map ratesTable.lookup =
        reversedReference.owner.accessVariable.map reversedTable.lookup ∧
      ratesTable.lookup ratesReference.targetName =
        reversedTable.lookup reversedReference.targetName ∧
      [⟨4⟩, ⟨5⟩].map ratesTable.lookup = [⟨3⟩, ⟨2⟩].map reversedTable.lookup := by
  have hp : (ratesReference.parts ratesTable [⟨4⟩, ⟨5⟩]).Plain :=
    ⟨by decide +kernel, by decide +kernel, by decide +kernel⟩
  have hp' : (reversedReference.parts reversedTable [⟨3⟩, ⟨2⟩]).Plain :=
    ⟨by decide +kernel, by decide +kernel, by decide +kernel⟩
  have htext : callText ratesTable (some ratesReference) [⟨4⟩, ⟨5⟩] =
      callText reversedTable (some reversedReference) [⟨3⟩, ⟨2⟩] := by decide +kernel
  exact ⟨hp, hp', htext, callText_unique.1 _ _ _ _ _ _ hp hp' htext⟩

/-- A call without arguments is told from one with an argument. -/
example : CallParts.read "rates.total(  )" = ⟨some "rates", "total", []⟩ ∧
    CallParts.read "total( order, rate )" = ⟨none, "total", ["order", "rate"]⟩ := by
  decide +kernel

end MapperDelegation
