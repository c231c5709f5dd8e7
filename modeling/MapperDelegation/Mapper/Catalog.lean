import MapperDelegation.Mapper.AccessVariable
import MapperDelegation.Mapper.Declaration
import MapperDelegation.Mapper.Model

set_option autoImplicit false

/-!
# Catalogues

A catalogue is a model together with the table of its symbols. It is assembled entry by entry;
an entry that contradicts an earlier one is refused with a `ModelError`, and the model stays as
it was.

## Main definitions

* `Catalog` — a model and its symbols.
* `Catalog.addUnit`, `Catalog.addUse`, `Catalog.addUseAs`, `Catalog.addMethod` — the entries.
* `ModelError` — why an entry is refused.
* `Entry`, `Catalog.add`, `Catalog.addAll` — entries as data, and whole lists of them.
-/

namespace MapperDelegation

/-! ## Refusals -/

/-- Why an entry is refused. -/
inductive ModelError where
  /-- No unit has this handle. -/
  | unknownUnit (unit : UnitId)
  /-- The simple name of a new unit is taken. -/
  | duplicateUnit (unit : String)
  | selfUse (unit : String)
  /-- The unit is used already. -/
  | duplicateUse (unit used : String)
  /-- The access variable is taken in the using unit. -/
  | duplicateAccessVariable (unit accessVariable : String)
deriving DecidableEq

/-- The wording of a refusal. -/
def ModelError.message : ModelError → String
  | unknownUnit unit => s!"unknown mapper unit handle {unit.index}"
  | duplicateUnit unit => s!"mapper unit `{unit}` is declared more than once"
  | selfUse unit => s!"mapper unit `{unit}` cannot use itself"
  | duplicateUse unit used => s!"mapper unit `{unit}` uses `{used}` more than once"
  | duplicateAccessVariable unit accessVariable =>
    s!"access variable `{accessVariable}` is bound twice in mapper unit `{unit}`"

/-! ## Catalogues -/

/-- A model together with the table of its symbols. -/
structure Catalog where
  symbols : SymbolTable := .empty
  model : Model := {}

namespace Catalog

/-- What comes of an entry: an answer or a refusal, and the catalogue afterwards. -/
abbrev Outcome (α : Type) : Type := Except ModelError α × Catalog

/-- The catalogue with a string entered among its symbols, whether or not there is room for it (see
`InternTable.intern`). This goes for the strings of all entries. -/
def intern (c : Catalog) (s : String) : Symbol × Catalog :=
  let (symbol, symbols) := c.symbols.intern s
  (symbol, { c with symbols })

/-- The unit with a handle, for an entry that refers to it. -/
def knownUnit (c : Catalog) (u : UnitId) : Except ModelError MapperUnit :=
  match c.model.units[u.index]? with
  | some unit => .ok unit
  | none => .error (.unknownUnit u)

/-- Declares a unit by its qualified name. Its simple name must be new. -/
def addUnit (c : Catalog) (qualifiedName : String) (span : Span) : Outcome UnitId :=
  let (name, c) := c.intern (simpleName qualifiedName)
  if (c.model.unitByName name).isSome then
    (.error (.duplicateUnit (simpleName qualifiedName)), c)
  else
    let (type, c) := c.intern qualifiedName
    let unit : MapperUnit := { name, type := ⟨type⟩, methods := [], uses := [], span }
    (.ok c.model.nextUnit, { c with model := c.model.addUnit unit })

/-- Declares that a unit uses another one through the given access variable. Both handles must
be known, the units must differ, and neither the used unit nor the variable may be bound
already. -/
def addUseAs (c : Catalog) (u used : UnitId) (accessVariable : String) : Outcome Unit :=
  match c.knownUnit u, c.knownUnit used with
  | .error e, _ => (.error e, c)
  | .ok _, .error e => (.error e, c)
  | .ok user, .ok provider =>
    if u = used then (.error (.selfUse (c.symbols.lookup user.name)), c)
    else
      let (symbol, c) := c.intern accessVariable
      if user.uses.any (·.unit = used) then
        (.error (.duplicateUse (c.symbols.lookup user.name) (c.symbols.lookup provider.name)), c)
      else if user.uses.any (·.accessVariable = symbol) then
        (.error (.duplicateAccessVariable
          (c.symbols.lookup user.name) (c.symbols.lookup symbol)), c)
      else (.ok (), { c with model := c.model.addUse u ⟨used, symbol⟩ })

/-- Declares that a unit uses another one through the access variable derived from the name of
the used unit. -/
def addUse (c : Catalog) (u used : UnitId) : Outcome Unit :=
  match c.knownUnit used with
  | .error e => (.error e, c)
  | .ok provider => c.addUseAs u used (accessVariable (c.symbols.lookup provider.name))

/-- Declares a member of a unit. -/
def addMethod (c : Catalog) (u : UnitId) (d : Declaration) : Outcome MethodId :=
  match c.knownUnit u with
  | .error e => (.error e, c)
  | .ok _ =>
    let (method, symbols) := (d.enter u).run c.symbols
    (.ok c.model.nextMethod, { symbols, model := c.model.addMethod u method })

end Catalog

/-! ## Entries as data -/

/-- One entry of a catalogue. -/
inductive Entry where
  | unit (qualifiedName : String) (span : Span)
  /-- A use, with the access variable if the entry names one. -/
  | use (unit used : UnitId) (accessVariable : Option String)
  | method (unit : UnitId) (declaration : Declaration)
deriving DecidableEq

/-- The answer to an entry that is accepted. -/
inductive Added where
  | unit (id : UnitId)
  | use
  | method (id : MethodId)
deriving DecidableEq

namespace Catalog

/-- Adds one entry. -/
def add (c : Catalog) : Entry → Outcome Added
  | .unit qualifiedName span => (c.addUnit qualifiedName span).map (Except.map .unit) id
  | .use u used none => (c.addUse u used).map (Except.map fun _ => .use) id
  | .use u used (some accessVariable) =>
    (c.addUseAs u used accessVariable).map (Except.map fun _ => .use) id
  | .method u declaration => (c.addMethod u declaration).map (Except.map .method) id

/-- Adds one entry after the other. A refused entry does not stop those after it. -/
def addAll (c : Catalog) : List Entry → List (Except ModelError Added) × Catalog
  | [] => ([], c)
  | entry :: entries =>
    let (answer, c) := c.add entry
    let (answers, c) := c.addAll entries
    (answer :: answers, c)

/-- The catalogue of a list of entries. -/
def ofEntries (entries : List Entry) : Catalog := (({} : Catalog).addAll entries).2

end Catalog

end MapperDelegation
