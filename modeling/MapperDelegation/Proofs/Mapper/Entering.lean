import MapperDelegation.Proofs.Mapper.WellFormed
import MapperDelegation.Proofs.Symbol.Entering

set_option relaxedAutoImplicit false
set_option autoImplicit false

/-!
# Entering declarations

A declaration is entered string by string in a fixed order, and the method that it introduces is
the declaration with every string replaced by its symbol. All symbols that a catalogue mentions are
therefore symbols of its table, which makes it safe to compare them in place of their strings.

## Main definitions

* `Declaration.strings` — the strings of a declaration in the order in which they are entered.
* `Declaration.asMethod` — the method of a declaration for given symbols.
* `Model.symbols` — the symbols that a model mentions.
* `Catalog.Knows` — they all belong to the table of the catalogue.
* `Catalog.Grows` — some strings are entered, and the model has new symbols for these only.

## Main results

* `Declaration.enters` — how a declaration is entered.
* `Catalog.grows_add` — which symbols an entry brings into the model.
* `Catalog.Reachable.knows` — reachable catalogues know their symbols.
-/

namespace MapperDelegation

/-! ## Declarations -/

namespace DelegateClauses

/-- The strings of a delegate annotation in the order in which they are entered. -/
def strings (a : DelegateClauses) : List String := a.qualifyingTypes ++ a.qualifyingNames

/-- A delegate annotation for given symbols. -/
def asRequest (a : DelegateClauses) (symbolOf : String → Symbol) : DelegateRequest where
  qualifyingTypes := a.qualifyingTypes.map fun s => ⟨symbolOf s⟩
  qualifyingNames := a.qualifyingNames.map symbolOf
  span := a.span

/-- Types are entered before names. -/
lemma enters (a : DelegateClauses) : Enters a.enter a.strings a.asRequest := by
  have htypes := Enters.mapM Enters.internType a.qualifyingTypes
  have hnames := Enters.mapM Enters.intern a.qualifyingNames
  have h := Enters.bind htypes fun types => Enters.bind hnames fun names =>
    Enters.pure (DelegateRequest.mk types names a.span)
  exact h.of_eq (by simp [strings])

end DelegateClauses

namespace Declaration

/-- The strings of a declaration in the order in which they are entered. -/
def strings (d : Declaration) : List String :=
  d.delegate.toList.flatMap (·.strings) ++ d.name :: d.params.flatMap (fun p => [p.1, p.2]) ++
    d.returnType :: d.tag.toList

/-- The method of a declaration for given symbols. -/
def asMethod (d : Declaration) (unit : UnitId) (symbolOf : String → Symbol) : Method where
  name := symbolOf d.name
  params := d.params.map fun p => ⟨symbolOf p.1, ⟨symbolOf p.2⟩⟩
  returnType := ⟨symbolOf d.returnType⟩
  unit := unit
  tag := d.tag.map symbolOf
  delegate := d.delegate.map (·.asRequest symbolOf)
  overrides := d.overrides
  kind := d.kind
  visibility := d.visibility
  implementation := d.implementation
  directives := d.directives
  span := d.span

/-- The strings of a declaration are entered in their order. -/
lemma enters (d : Declaration) (unit : UnitId) :
    Enters (d.enter unit) d.strings (d.asMethod unit) := by
  have hparam : ∀ p : String × String,
      Enters (do return Param.mk (← intern p.1) (← internType p.2)) [p.1, p.2]
        fun symbolOf => ⟨symbolOf p.1, ⟨symbolOf p.2⟩⟩ := fun p =>
    .bind (.intern p.1) fun name => .bind (.internType p.2) fun type => .pure (Param.mk name type)
  have h := Enters.bind (Enters.optionMapM DelegateClauses.enters d.delegate) fun delegate =>
    .bind (.intern d.name) fun name =>
    .bind (.mapM hparam d.params) fun params =>
    .bind (.internType d.returnType) fun returnType =>
    .bind (.optionMapM Enters.intern d.tag) fun tag =>
    .pure (Method.mk name params returnType unit tag delegate d.overrides d.kind d.visibility
      d.implementation d.directives d.span)
  exact h.of_eq (by simp [strings])

end Declaration

/-! ## The symbols of a model -/

/-- The symbols that a delegate annotation mentions. -/
def DelegateRequest.symbols (a : DelegateRequest) : List Symbol :=
  a.qualifyingTypes.map (·.name) ++ a.qualifyingNames

/-- The symbols that a method mentions. -/
def Method.symbols (m : Method) : List Symbol :=
  m.delegate.toList.flatMap (·.symbols) ++
    m.name :: m.params.flatMap (fun p => [p.name, p.type.name]) ++
    m.returnType.name :: m.tag.toList

/-- The symbols that a unit mentions. -/
def MapperUnit.symbols (unit : MapperUnit) : List Symbol :=
  unit.name :: unit.type.name :: unit.uses.map (·.accessVariable)

/-- The method of a declaration mentions the symbols of its strings. -/
lemma Declaration.symbols_asMethod (d : Declaration) (unit : UnitId)
    (symbolOf : String → Symbol) : (d.asMethod unit symbolOf).symbols = d.strings.map symbolOf := by
  have hrequest : ∀ a : DelegateClauses,
      (a.asRequest symbolOf).symbols = a.strings.map symbolOf := by
    intro a
    simp [DelegateRequest.symbols, DelegateClauses.asRequest, DelegateClauses.strings,
      Function.comp_def]
  cases hdelegate : d.delegate <;> cases htag : d.tag <;>
    simp [Method.symbols, asMethod, strings, hdelegate, htag, hrequest, List.flatMap_map,
      List.map_flatMap]

namespace Model

variable {m : Model} {a : Symbol}

/-- The symbols that a model mentions. -/
def symbols (m : Model) : List Symbol :=
  m.units.flatMap (·.symbols) ++ m.methods.flatMap (·.symbols)

/-- A model mentions the symbols of its units. -/
lemma mem_symbols_of_unit {u : UnitId} {unit : MapperUnit} (h : m.unit u = .ok unit)
    (ha : a ∈ unit.symbols) : a ∈ m.symbols := by
  have hunit : unit ∈ m.units := List.mem_of_getElem? (unit_eq_ok_iff.mp h)
  exact List.mem_append_left _ (List.mem_flatMap_of_mem hunit ha)

/-- A new unit brings its own symbols along. -/
lemma mem_symbols_addUnit {new : MapperUnit} :
    a ∈ (m.addUnit new).symbols ↔ a ∈ m.symbols ∨ a ∈ new.symbols := by
  simp only [symbols, addUnit, List.flatMap_append, List.mem_append, List.flatMap_singleton]
  tauto

/-- A new use brings its access variable along. -/
lemma mem_symbols_of_addUse {u : UnitId} {use : UsedUnit} (h : a ∈ (m.addUse u use).symbols) :
    a ∈ m.symbols ∨ a = use.accessVariable := by
  simp only [symbols, List.mem_append, List.mem_flatMap] at h ⊢
  rcases h with ⟨unit, hunit, ha⟩ | h
  · obtain ⟨i, hi⟩ := List.mem_iff_getElem?.mp hunit
    obtain ⟨old, hold, rfl⟩ := getElem?_modify_eq_some_iff.mp hi
    have hmem : old ∈ m.units := List.mem_of_getElem? hold
    split at ha
    · have ha' : a ∈ old.symbols ∨ a = use.accessVariable := by
        simpa [MapperUnit.symbols, or_assoc] using ha
      exact ha'.imp_left fun ha' => .inl ⟨old, hmem, ha'⟩
    · exact .inl (.inl ⟨old, hmem, ha⟩)
  · exact .inl (.inr h)

/-- A new method brings its own symbols along. -/
lemma mem_symbols_addMethod {u : UnitId} {new : Method} :
    a ∈ (m.addMethod u new).symbols ↔ a ∈ m.symbols ∨ a ∈ new.symbols := by
  have hunits : (m.addMethod u new).units.map (·.symbols) = m.units.map (·.symbols) :=
    map_modify_eq fun _ => rfl
  simp only [symbols, List.flatMap_def, hunits]
  simp [addMethod, or_assoc]

end Model

/-! ## Catalogues -/

namespace Catalog

variable {c : Catalog}

/-- All symbols that the model mentions belong to the table. -/
def Knows (c : Catalog) : Prop := ∀ a ∈ c.model.symbols, c.symbols.Knows a

/-- The catalogue after a declaration has been entered as the method of a unit. -/
lemma addMethod_eq {u : UnitId} {d : Declaration} {unit : MapperUnit}
    (h : c.knownUnit u = .ok unit) {t : SymbolTable}
    (ht : (c.symbols.internAll d.strings).strings <+: t.strings) :
    c.addMethod u d = (.ok c.model.nextMethod,
      ⟨c.symbols.internAll d.strings, c.model.addMethod u (d.asMethod u t.symbolOf)⟩) := by
  simp [addMethod, h, d.enters u c.symbols t ht]

/-- The catalogue `c'` comes out of `c` when some strings are entered, and the symbols that are new
in its model are those of these strings. -/
def Grows (c c' : Catalog) : Prop :=
  ∃ ss, c'.symbols = c.symbols.internAll ss ∧
    ∀ a ∈ c'.model.symbols, a ∈ c.model.symbols ∨ ∃ s ∈ ss, a = c'.symbols.symbolOf s

namespace Grows

variable {c' : Catalog}

/-- Without a new symbol in the model, only the table grows. -/
lemma of_model_eq (ss : List String) (hsymbols : c'.symbols = c.symbols.internAll ss)
    (hmodel : c'.model = c.model) : c.Grows c' :=
  ⟨ss, hsymbols, fun _ ha => .inl (hmodel ▸ ha)⟩

/-- The strings of the table stay at their places. -/
lemma strings_isPrefix (h : c.Grows c') : c.symbols.strings <+: c'.symbols.strings := by
  obtain ⟨ss, hsymbols, -⟩ := h
  rw [hsymbols]
  exact c.symbols.prefix_internAll ss

/-- A catalogue that knows its symbols still does so after it has grown. -/
lemma knows (h : c.Grows c') (hc : c.Knows) : c'.Knows := by
  intro a ha
  have hstrings := h.strings_isPrefix
  obtain ⟨ss, hsymbols, hmodel⟩ := h
  rcases hmodel a ha with ha | ⟨s, hs, rfl⟩
  · exact (hc a ha).mono hstrings
  · rw [hsymbols]
    exact SymbolTable.knows_symbolOf (SymbolTable.mem_strings_internAll hs)

end Grows

/-- A declared unit brings its two names along. -/
lemma grows_addUnit (c : Catalog) (qualifiedName : String) (span : Span) :
    c.Grows (c.addUnit qualifiedName span).2 := by
  unfold addUnit
  simp only
  split
  · exact .of_model_eq [simpleName qualifiedName] rfl rfl
  · refine ⟨[simpleName qualifiedName, qualifiedName], rfl, fun a ha => ?_⟩
    rcases Model.mem_symbols_addUnit.mp ha with ha | ha
    · exact .inl ha
    · rcases (by simpa [MapperUnit.symbols] using ha : a = _ ∨ a = _) with rfl | rfl
      · exact .inr ⟨_, List.mem_cons_self, SymbolTable.fst_intern (SymbolTable.prefix_intern _ _)⟩
      · exact .inr ⟨_, List.mem_cons_of_mem _ List.mem_cons_self,
          SymbolTable.fst_intern (List.prefix_refl _)⟩

/-- A declared use brings its access variable along, if it comes as far as that. -/
lemma grows_addUseAs (c : Catalog) (u used : UnitId) (accessVariable : String) :
    c.Grows (c.addUseAs u used accessVariable).2 := by
  unfold addUseAs
  split
  · exact .of_model_eq [] rfl rfl
  · exact .of_model_eq [] rfl rfl
  · split
    · exact .of_model_eq [] rfl rfl
    · simp only
      split
      · exact .of_model_eq [accessVariable] rfl rfl
      · split
        · exact .of_model_eq [accessVariable] rfl rfl
        · refine ⟨[accessVariable], rfl, fun a ha => ?_⟩
          refine (Model.mem_symbols_of_addUse ha).imp_right ?_
          rintro rfl
          exact ⟨_, List.mem_cons_self, SymbolTable.fst_intern (List.prefix_refl _)⟩

/-- A declared method brings the strings of its declaration along. -/
lemma grows_addMethod (c : Catalog) (u : UnitId) (d : Declaration) :
    c.Grows (c.addMethod u d).2 := by
  cases h : c.knownUnit u with
  | error e =>
    have hrefused : (c.addMethod u d).2 = c := by simp [addMethod, h]
    exact .of_model_eq [] (by rw [hrefused]; rfl) (by rw [hrefused])
  | ok unit =>
    rw [addMethod_eq h (List.prefix_refl _)]
    refine ⟨d.strings, rfl, fun a ha => ?_⟩
    refine (Model.mem_symbols_addMethod.mp ha).imp_right fun ha => ?_
    rw [Declaration.symbols_asMethod] at ha
    obtain ⟨s, hs, rfl⟩ := List.mem_map.mp ha
    exact ⟨s, hs, rfl⟩

/-- An entry brings some strings along. -/
lemma grows_add (c : Catalog) (e : Entry) : c.Grows (c.add e).2 := by
  cases e with
  | unit qualifiedName span => exact grows_addUnit c qualifiedName span
  | use u used accessVariable =>
    cases accessVariable with
    | some accessVariable => exact grows_addUseAs c u used accessVariable
    | none =>
      change c.Grows (c.addUse u used).2
      unfold addUse
      split
      · exact .of_model_eq [] rfl rfl
      · exact grows_addUseAs c u used _
  | method u declaration => exact grows_addMethod c u declaration

/-- Entries only append to the table. -/
lemma prefix_addAll (c : Catalog) (entries : List Entry) :
    c.symbols.strings <+: (c.addAll entries).2.symbols.strings := by
  induction entries generalizing c with
  | nil => exact List.prefix_refl _
  | cons e entries ih => exact (c.grows_add e).strings_isPrefix.trans (ih _)

/-- Reachable catalogues know their symbols.

**Proof sketch.** Induction on the way to the catalogue: the empty model has no symbols, a string
that is entered takes none out of the table, and an entry brings only such symbols into the model
as it brings into the table. -/
theorem Reachable.knows (h : c.Reachable) : c.Knows := by
  induction h with
  | start symbols => simp [Knows, Model.symbols]
  | intern _ s ih => exact fun a ha => (ih a ha).mono (SymbolTable.prefix_intern _ s)
  | add _ e ih => exact (grows_add _ e).knows ih

end Catalog

end MapperDelegation
