import MapperDelegation.Proofs.Mapper.Entering
import MapperDelegation.Proofs.Symbol.Renaming

set_option relaxedAutoImplicit false
set_option autoImplicit false

/-!
# Renaming the symbols of a model

A model compares symbols but never looks at their numbers. If all its symbols are renamed by one
injective map, every look-up finds the renamed entry, and every later entry is answered as before
and leads to the renamed model again.

## Main definitions

* `Method.rename`, `MapperUnit.rename`, `Model.rename` — renaming every symbol.
* `Catalog.transfer` — a catalogue with its symbols renamed to those of another table.

## Main results

* `Model.unit_rename`, `Model.member_rename`, `Model.members_rename` — look-ups in a renamed model.
* `Catalog.add_transfer`, `Catalog.addAll_transfer` — entries of a catalogue whose symbols were
  renamed to those of a table that holds all strings already.
-/

namespace MapperDelegation

/-! ## Steps that can fail -/

/-- A step on a changed entry that changes the result of the step leads to the changed list of
results. -/
lemma mapM_map_eq {ε α α' β β' : Type} {g : α → α'} {h : β → β'} {k : α → Except ε β}
    {k' : α' → Except ε β'} (hk : ∀ x, k' (g x) = h <$> k x) (xs : List α) :
    (xs.map g).mapM k' = List.map h <$> xs.mapM k := by
  induction xs with
  | nil => rfl
  | cons x xs ih =>
    rw [List.map_cons, List.mapM_cons, List.mapM_cons, ih, hk, bind_map_left, map_bind]
    refine bind_congr fun y => ?_
    rw [bind_map_left, map_bind]
    exact bind_congr fun ys => rfl

/-- Replacing an entry of a list in which every entry was changed. -/
lemma modify_map {α β : Type} {g : α → β} {h : α → α} {h' : β → β}
    (hcomm : ∀ x, h' (g x) = g (h x)) (xs : List α) (i : Nat) :
    (xs.map g).modify i h' = (xs.modify i h).map g := by
  refine List.ext_getElem? fun j => ?_
  simp only [List.getElem?_map, List.getElem?_modify]
  split <;> simp [Function.comp_def, hcomm]

/-- The entry at a position of a list in which every entry was changed. -/
lemma entryAt_map {α β : Type} (g : α → β) (xs : List α) (i : Nat) :
    entryAt (xs.map g) i = g <$> entryAt xs i := by
  unfold entryAt
  rw [List.getElem?_map, List.length_map]
  cases xs[i]? <;> rfl

/-! ## Methods -/

/-- A parameter whose symbols are renamed. -/
def Param.rename (f : Symbol → Symbol) (p : Param) : Param := ⟨f p.name, p.type.rename f⟩

/-- A delegate annotation whose symbols are renamed. -/
def DelegateRequest.rename (f : Symbol → Symbol) (a : DelegateRequest) : DelegateRequest where
  qualifyingTypes := a.qualifyingTypes.map (·.rename f)
  qualifyingNames := a.qualifyingNames.map f
  span := a.span

namespace Method

/-- A method whose symbols are renamed. -/
def rename (f : Symbol → Symbol) (m : Method) : Method where
  name := f m.name
  params := m.params.map (·.rename f)
  returnType := m.returnType.rename f
  unit := m.unit
  tag := m.tag.map f
  delegate := m.delegate.map (·.rename f)
  overrides := m.overrides
  kind := m.kind
  visibility := m.visibility
  implementation := m.implementation
  directives := m.directives
  span := m.span

variable (f : Symbol → Symbol) (m : Method)

@[simp] lemma isDelegating_rename : (m.rename f).isDelegating = m.isDelegating := by
  simp [isDelegating, rename]

@[simp] lemma isMethod_rename : (m.rename f).isMethod = m.isMethod := rfl

@[simp] lemma isPublic_rename : (m.rename f).isPublic = m.isPublic := rfl

@[simp] lemma isAbstract_rename : (m.rename f).isAbstract = m.isAbstract := rfl

@[simp] lemma visibility_rename : (m.rename f).visibility = m.visibility := rfl

@[simp] lemma paramTypes_rename : (m.rename f).paramTypes = m.paramTypes.map (·.rename f) := by
  simp [paramTypes, rename, Param.rename]

end Method

/-- Whether one method can be called in place of another does not depend on the symbols. -/
lemma Renaming.compatible_rename {f : Symbol → Symbol} {t u : SymbolTable} (h : Renaming f t u)
    (source target : Method) :
    (source.rename f).compatible (target.rename f) = source.compatible target := by
  have hparams := (List.map_injective_iff.mpr h.typeInjective).eq_iff (a := source.paramTypes)
    (b := target.paramTypes)
  have hreturned := h.typeInjective.eq_iff (a := source.returnType) (b := target.returnType)
  rw [Bool.eq_iff_iff, Method.compatible_iff, Method.compatible_iff, Method.paramTypes_rename,
    Method.paramTypes_rename, hparams]
  exact and_congr_left' hreturned

namespace Declaration

variable {symbolOf symbolOf' : String → Symbol} {d : Declaration} {unit : UnitId}

/-- The method of a declaration for renamed symbols. -/
lemma rename_asMethod (f : Symbol → Symbol) :
    (d.asMethod unit symbolOf).rename f = d.asMethod unit fun s => f (symbolOf s) := by
  simp [asMethod, Method.rename, Param.rename, DelegateClauses.asRequest, DelegateRequest.rename,
    TypeSymbol.rename, Function.comp_def]

/-- The method of a declaration depends on the symbols of its strings only. -/
lemma asMethod_congr (h : ∀ s ∈ d.strings, symbolOf s = symbolOf' s) :
    d.asMethod unit symbolOf = d.asMethod unit symbolOf' := by
  simp only [strings, List.mem_append, List.mem_cons, List.mem_flatMap, Option.mem_toList,
    List.not_mem_nil, or_false] at h
  have hdelegate : d.delegate.map (·.asRequest symbolOf) =
      d.delegate.map (·.asRequest symbolOf') := by
    refine Option.map_congr fun a ha => ?_
    have hrequest : ∀ s ∈ a.strings, symbolOf s = symbolOf' s := fun s hs =>
      h s (.inl (.inl ⟨a, ha, hs⟩))
    simp only [DelegateClauses.strings, List.mem_append] at hrequest
    simp only [DelegateClauses.asRequest, DelegateRequest.mk.injEq, and_true]
    exact ⟨List.map_congr_left fun s hs => congrArg TypeSymbol.mk (hrequest s (.inl hs)),
      List.map_congr_left fun s hs => hrequest s (.inr hs)⟩
  have hname := h d.name (.inl (.inr (.inl rfl)))
  have hparams : d.params.map (fun p => Param.mk (symbolOf p.1) ⟨symbolOf p.2⟩) =
      d.params.map fun p => ⟨symbolOf' p.1, ⟨symbolOf' p.2⟩⟩ := by
    refine List.map_congr_left fun p hp => ?_
    rw [h p.1 (.inl (.inr (.inr ⟨p, hp, .inl rfl⟩))), h p.2 (.inl (.inr (.inr ⟨p, hp, .inr rfl⟩)))]
  have hreturned := h d.returnType (.inr (.inl rfl))
  have htag : d.tag.map symbolOf = d.tag.map symbolOf' :=
    Option.map_congr fun s hs => h s (.inr (.inr hs))
  simp only [asMethod, hdelegate, hname, hparams, hreturned, htag]

/-- The method of a declaration, renamed, is the method of the declaration for the other table. -/
lemma rename_asMethod_symbolOf {f : Symbol → Symbol} {t u : SymbolTable} (h : Renaming f t u)
    (hd : d.strings ⊆ t.strings) :
    (d.asMethod unit t.symbolOf).rename f = d.asMethod unit u.symbolOf := by
  rw [rename_asMethod]
  exact asMethod_congr fun s hs => h.map_symbolOf s (hd hs)

end Declaration

/-! ## Units and models -/

/-- A use whose access variable is renamed. -/
def UsedUnit.rename (f : Symbol → Symbol) (use : UsedUnit) : UsedUnit :=
  ⟨use.unit, f use.accessVariable⟩

/-- A unit whose symbols are renamed. -/
def MapperUnit.rename (f : Symbol → Symbol) (unit : MapperUnit) : MapperUnit where
  name := f unit.name
  type := unit.type.rename f
  methods := unit.methods
  uses := unit.uses.map (·.rename f)
  span := unit.span

/-- A unit is used by a renamed unit if and only if it is so before. -/
lemma MapperUnit.any_unit_rename (f : Symbol → Symbol) (unit : MapperUnit) (v : UnitId) :
    (unit.rename f).uses.any (·.unit = v) = unit.uses.any (·.unit = v) := by
  simp [rename, UsedUnit.rename, Function.comp_def]

/-- An access variable is bound in a renamed unit if and only if it is so before. -/
lemma Renaming.any_accessVariable_rename {f : Symbol → Symbol} {t u : SymbolTable}
    (h : Renaming f t u) (unit : MapperUnit) (a : Symbol) :
    (unit.rename f).uses.any (·.accessVariable = f a) =
      unit.uses.any (·.accessVariable = a) := by
  simp [MapperUnit.rename, UsedUnit.rename, Function.comp_def, h.injective.eq_iff]

/-- A member whose symbols are renamed. -/
def Member.rename (f : Symbol → Symbol) (member : Member) : Member :=
  ⟨member.id, member.method.rename f⟩

namespace Model

/-- A model whose symbols are renamed. -/
def rename (f : Symbol → Symbol) (m : Model) : Model where
  units := m.units.map (·.rename f)
  methods := m.methods.map (·.rename f)
  unitsByName := m.unitsByName.map fun (name, u) => (f name, u)

variable (f : Symbol → Symbol) (m : Model)

@[simp] lemma unitIds_rename : (m.rename f).unitIds = m.unitIds := by simp [unitIds, rename]

@[simp] lemma nextUnit_rename : (m.rename f).nextUnit = m.nextUnit := by simp [nextUnit, rename]

@[simp] lemma nextMethod_rename : (m.rename f).nextMethod = m.nextMethod := by
  simp [nextMethod, rename]

/-- The renamed unit is found. -/
lemma unit_rename (u : UnitId) : (m.rename f).unit u = MapperUnit.rename f <$> m.unit u :=
  entryAt_map _ _ _

/-- The renamed method is found under its handle. -/
lemma member_rename (id : MethodId) :
    (m.rename f).member id = Member.rename f <$> m.member id := by
  have hmethod : (m.rename f).method id = Method.rename f <$> m.method id := entryAt_map _ _ _
  rw [member, hmethod, member, ← comp_map, ← comp_map]
  rfl

/-- The renamed members of a unit are found. -/
lemma members_rename (u : UnitId) :
    (m.rename f).members u = List.map (Member.rename f) <$> m.members u := by
  rw [members, members, unit_rename, bind_map_left, map_bind]
  refine bind_congr fun unit => ?_
  have h := mapM_map_eq (g := id) (m.member_rename f) unit.methods
  rwa [List.map_id] at h

/-- A unit is found under its renamed name. -/
lemma unitByName_rename {f : Symbol → Symbol} (hf : Function.Injective f) (name : Symbol) :
    (m.rename f).unitByName (f name) = m.unitByName name := by
  simp only [unitByName, rename]
  induction m.unitsByName with
  | nil => rfl
  | cons entry entries ih =>
    have hsame : (f name == f entry.1) = (name == entry.1) := by
      rw [Bool.eq_iff_iff, beq_iff_eq, beq_iff_eq, hf.eq_iff]
    rw [List.map_cons, List.lookup_cons, List.lookup_cons, hsame, ih]

/-- A renamed unit is added to a renamed model. -/
lemma addUnit_rename (new : MapperUnit) :
    (m.rename f).addUnit (new.rename f) = (m.addUnit new).rename f := by
  simp [addUnit, rename, nextUnit, MapperUnit.rename]

/-- A renamed use is added to a renamed model. -/
lemma addUse_rename (u : UnitId) (use : UsedUnit) :
    (m.rename f).addUse u (use.rename f) = (m.addUse u use).rename f := by
  simp only [addUse, rename, mk.injEq, and_true]
  exact modify_map (fun unit => by simp [MapperUnit.rename]) _ _

/-- A renamed method is added to a renamed model. -/
lemma addMethod_rename (u : UnitId) (new : Method) :
    (m.rename f).addMethod u (new.rename f) = (m.addMethod u new).rename f := by
  simp only [addMethod, nextMethod_rename]
  simp only [rename, List.map_append, List.map_cons, List.map_nil, mk.injEq, and_true]
  exact modify_map (fun unit => by simp [MapperUnit.rename]) _ _

end Model

/-! ## Catalogues -/

namespace Catalog

/-- The catalogue with its symbols renamed to those of the table `u`. -/
def transfer (c : Catalog) (f : Symbol → Symbol) (u : SymbolTable) : Catalog where
  symbols := u
  model := c.model.rename f

variable {f : Symbol → Symbol} {t u : SymbolTable} {c : Catalog}

/-- A string is entered before or after the symbols are renamed. -/
lemma intern_transfer (h : Renaming f t u) (s : String)
    (hs : (c.intern s).2.symbols.strings <+: t.strings) :
    (c.transfer f u).intern s = (f (c.intern s).1, (c.intern s).2.transfer f u) := by
  have hmem : s ∈ t.strings := hs.subset (c.symbols.mem_strings_intern s)
  have hsymbol : (c.intern s).1 = t.symbolOf s := SymbolTable.fst_intern hs
  rw [hsymbol, h.map_symbolOf s hmem]
  simp only [intern, transfer, SymbolTable.intern_of_mem (h.subset hmem)]

/-- The unit that an entry refers to is found before or after the symbols are renamed. -/
lemma knownUnit_transfer (v : UnitId) :
    (c.transfer f u).knownUnit v = (c.knownUnit v).map (·.rename f) := by
  simp only [knownUnit, transfer, Model.rename, List.getElem?_map]
  cases c.model.units[v.index]? <;> rfl

/-- A symbol of the model stands for the same string after it is renamed. -/
lemma lookup_transfer (h : Renaming f t u) (hc : c.Knows)
    (hstrings : c.symbols.strings <+: t.strings) {a : Symbol} (ha : a ∈ c.model.symbols) :
    u.lookup (f a) = c.symbols.lookup a := by
  rw [h.lookup, SymbolTable.lookup_of_prefix hstrings (hc a ha)]

/-- The name of a unit is one of the symbols of the model. -/
lemma name_mem_symbols {v : UnitId} {unit : MapperUnit} (h : c.knownUnit v = .ok unit) :
    unit.name ∈ c.model.symbols :=
  Model.mem_symbols_of_unit (knownUnit_eq_ok_iff.mp h) List.mem_cons_self

/-- A name is taken before the symbols are renamed if and only if it is so afterwards. -/
lemma unitByName_transfer (h : Renaming f t u) (a : Symbol) :
    (c.transfer f u).model.unitByName (f a) = c.model.unitByName a :=
  c.model.unitByName_rename h.injective a

/-- The symbol of a string that was entered stands for it after it is renamed. -/
lemma lookup_fst_intern (h : Renaming f t u) {s : String}
    (hs : (c.intern s).2.symbols.strings <+: t.strings) : u.lookup (f (c.intern s).1) = s := by
  have hmem : s ∈ t.strings := hs.subset (c.symbols.mem_strings_intern s)
  have hsymbol : (c.intern s).1 = t.symbolOf s := SymbolTable.fst_intern hs
  rw [hsymbol, h.lookup, SymbolTable.lookup_symbolOf hmem]

/-- A unit is declared before or after the symbols are renamed. -/
lemma addUnit_transfer (h : Renaming f t u) {qualifiedName : String} {span : Span}
    (hstrings : (c.addUnit qualifiedName span).2.symbols.strings <+: t.strings) :
    (c.transfer f u).addUnit qualifiedName span = ((c.addUnit qualifiedName span).1,
      (c.addUnit qualifiedName span).2.transfer f u) := by
  have hfirst : (c.intern (simpleName qualifiedName)).2.symbols.strings <+: t.strings := by
    refine List.IsPrefix.trans ?_ hstrings
    unfold addUnit
    simp only
    split
    · exact List.prefix_refl _
    · exact SymbolTable.prefix_intern _ _
  unfold addUnit at hstrings ⊢
  simp only [intern_transfer h _ hfirst, unitByName_transfer h, model_intern]
  simp only [model_intern] at hstrings
  by_cases htaken : (c.model.unitByName (c.intern (simpleName qualifiedName)).1).isSome = true
  · simp only [htaken, ↓reduceIte]
  · simp only [htaken, ↓reduceIte, Bool.false_eq_true] at hstrings ⊢
    rw [intern_transfer h qualifiedName hstrings]
    simp only [transfer, model_intern, Model.nextUnit_rename, ← Model.addUnit_rename]
    rfl

/-- A use is declared before or after the symbols are renamed. -/
lemma addUseAs_transfer (h : Renaming f t u) (hc : c.Knows) {v used : UnitId}
    {accessVariable : String}
    (hstrings : (c.addUseAs v used accessVariable).2.symbols.strings <+: t.strings) :
    (c.transfer f u).addUseAs v used accessVariable = ((c.addUseAs v used accessVariable).1,
      (c.addUseAs v used accessVariable).2.transfer f u) := by
  have hold := (c.grows_addUseAs v used accessVariable).strings_isPrefix.trans hstrings
  unfold addUseAs at hstrings ⊢
  simp only [knownUnit_transfer]
  cases hv : c.knownUnit v with
  | error e => rfl
  | ok user =>
    cases hused : c.knownUnit used with
    | error e => rfl
    | ok provider =>
      simp only [hv, hused] at hstrings
      simp only [Except.map]
      have huser : u.lookup (user.rename f).name = c.symbols.lookup user.name :=
        lookup_transfer h hc hold (name_mem_symbols hv)
      have hprovider : u.lookup (provider.rename f).name = c.symbols.lookup provider.name :=
        lookup_transfer h hc hold (name_mem_symbols hused)
      by_cases hself : v = used
      · simp only [if_pos hself]
        rw [← huser]
        rfl
      · simp only [if_neg hself] at hstrings ⊢
        -- the access variable is entered in any case, whatever comes of the two tests
        have hs : (c.intern accessVariable).2.symbols.strings <+: t.strings := by
          refine List.IsPrefix.trans ?_ hstrings
          split_ifs <;> exact List.prefix_refl _
        have hkept : ∀ a ∈ c.model.symbols,
            (c.intern accessVariable).2.symbols.lookup a = c.symbols.lookup a := fun a ha =>
          SymbolTable.lookup_of_prefix (SymbolTable.prefix_intern _ _) (hc a ha)
        have hentered : (c.intern accessVariable).2.symbols.lookup (c.intern accessVariable).1 =
            u.lookup (f (c.intern accessVariable).1) :=
          (c.symbols.lookup_intern accessVariable).trans (lookup_fst_intern h hs).symm
        rw [intern_transfer h accessVariable hs]
        simp only [user.any_unit_rename, h.any_accessVariable_rename user,
          hkept _ (name_mem_symbols hv), hkept _ (name_mem_symbols hused), ← huser, ← hprovider,
          hentered]
        split_ifs
        · rfl
        · rfl
        · simp only [transfer, ← Model.addUse_rename]
          rfl

/-- A use is declared before or after the symbols are renamed. -/
lemma addUse_transfer (h : Renaming f t u) (hc : c.Knows) {v used : UnitId}
    (hstrings : (c.addUse v used).2.symbols.strings <+: t.strings) :
    (c.transfer f u).addUse v used =
      ((c.addUse v used).1, (c.addUse v used).2.transfer f u) := by
  have hold := (c.grows_add (.use v used none)).strings_isPrefix.trans hstrings
  unfold addUse at hstrings ⊢
  simp only [knownUnit_transfer]
  cases hused : c.knownUnit used with
  | error e => rfl
  | ok provider =>
    have hprovider : u.lookup (provider.rename f).name = c.symbols.lookup provider.name :=
      lookup_transfer h hc hold (name_mem_symbols hused)
    simp only [hused] at hstrings
    have hsymbols : (c.transfer f u).symbols = u := rfl
    simp only [Except.map, hsymbols, hprovider]
    exact addUseAs_transfer h hc hstrings

/-- A method is declared before or after the symbols are renamed. -/
lemma addMethod_transfer (h : Renaming f t u) {v : UnitId} {d : Declaration}
    (hstrings : (c.addMethod v d).2.symbols.strings <+: t.strings) :
    (c.transfer f u).addMethod v d =
      ((c.addMethod v d).1, (c.addMethod v d).2.transfer f u) := by
  cases hv : c.knownUnit v with
  | error e => simp [addMethod, knownUnit_transfer, hv, Except.map]
  | ok unit =>
    have hv' : (c.transfer f u).knownUnit v = .ok (unit.rename f) := by
      rw [knownUnit_transfer, hv]
      rfl
    rw [addMethod_eq hv (List.prefix_refl _)] at hstrings
    have hd : d.strings ⊆ t.strings := fun s hs =>
      hstrings.subset (SymbolTable.mem_strings_internAll hs)
    have hall : u.internAll d.strings = u :=
      SymbolTable.internAll_of_subset fun s hs => h.subset (hd hs)
    have hstrings' : ((c.transfer f u).symbols.internAll d.strings).strings <+: u.strings := by
      simp only [transfer, hall, List.prefix_refl]
    rw [addMethod_eq hv hstrings, addMethod_eq hv' hstrings']
    simp only [transfer, hall, Model.nextMethod_rename, ← Model.addMethod_rename,
      Declaration.rename_asMethod_symbolOf h hd]

/-- An entry is answered alike before and after the symbols are renamed, and the catalogue
afterwards is the same up to the renaming. -/
theorem add_transfer (h : Renaming f t u) (hc : c.Knows) {e : Entry}
    (hstrings : (c.add e).2.symbols.strings <+: t.strings) :
    (c.transfer f u).add e = ((c.add e).1, (c.add e).2.transfer f u) := by
  cases e with
  | unit qualifiedName span => simp only [add, addUnit_transfer h hstrings, Prod.map, id]
  | use v used accessVariable =>
    cases accessVariable with
    | none => simp only [add, addUse_transfer h hc hstrings, Prod.map, id]
    | some accessVariable => simp only [add, addUseAs_transfer h hc hstrings, Prod.map, id]
  | method v d => simp only [add, addMethod_transfer h hstrings, Prod.map, id]

/-- Entries are answered alike before and after the symbols are renamed, and the catalogue
afterwards is the same up to the renaming.

**Proof sketch.** Induction on the entries. The table `t` has to hold all strings of the whole list,
which it does for every part of it since entries only append to a table. -/
theorem addAll_transfer (h : Renaming f t u) (hc : c.Knows) {entries : List Entry}
    (hstrings : (c.addAll entries).2.symbols.strings <+: t.strings) :
    (c.transfer f u).addAll entries =
      ((c.addAll entries).1, (c.addAll entries).2.transfer f u) := by
  induction entries generalizing c with
  | nil => rfl
  | cons e entries ih =>
    have hfirst : (c.add e).2.symbols.strings <+: t.strings :=
      (prefix_addAll _ entries).trans hstrings
    simp only [addAll, add_transfer h hc hfirst, ih ((c.grows_add e).knows hc) hstrings]

end Catalog

end MapperDelegation
