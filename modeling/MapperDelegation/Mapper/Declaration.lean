import MapperDelegation.Mapper.Method

set_option autoImplicit false

/-!
# Declarations

A method as it is declared, with plain strings, before its names are entered in a symbol table.
A declaration starts as a public abstract method without parameters that returns nothing, and
its clauses amend it one after the other.

## Main definitions

* `Clause` — one amendment.
* `Declaration.ofClauses` — the declaration that a list of clauses describes.
* `Declaration.enter` — the method of a declaration, its strings entered in a symbol table.
-/

namespace MapperDelegation

/-! ## Clauses -/

/-- One amendment of a declaration. -/
inductive Clause where
  /-- Appends a parameter. -/
  | param (name type : String)
  | returns (type : String)
  /-- Gives the method a name by the naming annotation. -/
  | tagged (tag : String)
  /-- Asks for a delegate. -/
  | delegating
  /-- Asks for a delegate of a certain name or tag. -/
  | qualifiedByName (name : String)
  /-- Asks for a delegate with a qualifying type. -/
  | qualifiedByType (type : String)
  /-- Asks for a delegate and tells where. -/
  | delegatingAt (span : Span)
  | overriding
  | asConstructor
  | visibleTo (visibility : Visibility)
  | implemented (implementation : Implementation)
  | directive (kind : Directive)
  | declaredAt (span : Span)
deriving DecidableEq

/-- The delegate annotation of a declaration. -/
structure DelegateClauses where
  qualifyingTypes : List String := []
  qualifyingNames : List String := []
  span : Span := .unknown
deriving DecidableEq

/-- A method as it is declared. -/
structure Declaration where
  name : String
  params : List (String × String) := []
  returnType : String := "void"
  tag : Option String := none
  delegate : Option DelegateClauses := none
  overrides : Bool := false
  kind : MemberKind := .method
  visibility : Visibility := .all
  implementation : Implementation := .abstract
  directives : DirectiveSet := .empty
  span : Span := .unknown
deriving DecidableEq

namespace Declaration

/-- Amends the delegate annotation, which comes into being with the first clause about it. -/
def amendDelegate (d : Declaration) (f : DelegateClauses → DelegateClauses) : Declaration :=
  { d with delegate := some (f (d.delegate.getD {})) }

/-- The declaration after one more clause. Lists grow at their end, and of the clauses that set a
single value the last one counts. -/
def amend (d : Declaration) : Clause → Declaration
  | .param name type => { d with params := d.params ++ [(name, type)] }
  | .returns type => { d with returnType := type }
  | .tagged tag => { d with tag := some tag, directives := d.directives.insert .named }
  | .delegating => d.amendDelegate id
  | .qualifiedByName name =>
    d.amendDelegate fun a => { a with qualifyingNames := a.qualifyingNames ++ [name] }
  | .qualifiedByType type =>
    d.amendDelegate fun a => { a with qualifyingTypes := a.qualifyingTypes ++ [type] }
  | .delegatingAt span => d.amendDelegate fun a => { a with span }
  | .overriding => { d with overrides := true }
  | .asConstructor => { d with kind := .constructor }
  | .visibleTo visibility => { d with visibility }
  | .implemented implementation => { d with implementation }
  | .directive kind => { d with directives := d.directives.insert kind }
  | .declaredAt span => { d with span }

/-- The declaration of a method by its name and its clauses. -/
def ofClauses (name : String) (clauses : List Clause) : Declaration :=
  clauses.foldl amend { name }

end Declaration

/-! ## Entering a declaration -/

/-- Enters the qualifiers, types before names. -/
def DelegateClauses.enter (a : DelegateClauses) : StateM SymbolTable DelegateRequest := do
  let qualifyingTypes ← a.qualifyingTypes.mapM internType
  let qualifyingNames ← a.qualifyingNames.mapM intern
  return { qualifyingTypes, qualifyingNames, span := a.span }

/-- The method that a declaration introduces in a unit. Its strings are entered in a fixed
order: the qualifiers, the name, each parameter's name and type, the return type, the tag. They are
entered whether or not there is room for them (see `InternTable.intern`). -/
def Declaration.enter (d : Declaration) (unit : UnitId) : StateM SymbolTable Method := do
  let delegate ← d.delegate.mapM DelegateClauses.enter
  let name ← intern d.name
  let params ← d.params.mapM fun (name, type) => return ⟨← intern name, ← internType type⟩
  let returnType ← internType d.returnType
  let tag ← d.tag.mapM intern
  return {
    name, params, returnType, unit, tag, delegate
    overrides := d.overrides
    kind := d.kind
    visibility := d.visibility
    implementation := d.implementation
    directives := d.directives
    span := d.span }

end MapperDelegation
