import MapperDelegation.Proofs.Mapper.Renaming

set_option relaxedAutoImplicit false
set_option autoImplicit false

/-!
# Qualifiers that do not steer

A delegate annotation may carry several qualifying names and types, but only the first name ever
narrows the choice of a delegate. Pruning takes the others out of a declaration, of a method or of a
whole model, and leaves everything else in place. A pruned entry is answered like the entry itself,
and leads to the pruned catalogue, provided that no string is new.

## Main definitions

* `Declaration.prune`, `Entry.prune` — a declaration and an entry without the qualifiers that do not
  steer.
* `Method.prune`, `Model.prune`, `Catalog.prune` — the same for what is declared already.

## Main results

* `Model.unit_prune`, `Model.member_prune`, `Model.members_prune` — look-ups in a pruned model.
* `Catalog.addAll_prune` — pruned entries of a pruned catalogue.
-/

namespace MapperDelegation

/-! ## Declarations -/

/-- A delegate annotation with its first qualifying name only. -/
def DelegateClauses.prune (a : DelegateClauses) : DelegateClauses :=
  { a with qualifyingTypes := [], qualifyingNames := a.qualifyingNames.take 1 }

/-- A declaration whose delegate annotation, if there is one, has its first qualifying name only. -/
def Declaration.prune (d : Declaration) : Declaration :=
  { d with delegate := d.delegate.map .prune }

/-- An entry whose declaration is pruned. -/
def Entry.prune : Entry → Entry
  | unit qualifiedName span => unit qualifiedName span
  | use u used accessVariable => use u used accessVariable
  | method u d => method u d.prune

/-- A pruned declaration has no string that the declaration did not have. -/
lemma Declaration.strings_prune_subset (d : Declaration) : d.prune.strings ⊆ d.strings := by
  have hdelegate : d.prune.delegate.toList.flatMap (·.strings) ⊆
      d.delegate.toList.flatMap (·.strings) := by
    cases hd : d.delegate with
    | none => simp [prune, hd]
    | some a =>
      have htake : a.qualifyingNames.take 1 ⊆ a.qualifyingNames := List.take_subset 1 _
      simpa [prune, hd, DelegateClauses.prune, DelegateClauses.strings] using
        List.Subset.trans htake (List.subset_append_right a.qualifyingTypes _)
  intro s hs
  simp only [strings, List.mem_append] at hs ⊢
  exact hs.imp_left (Or.imp_left fun hs => hdelegate hs)

/-! ## Methods -/

/-- A delegate annotation with its first qualifying name only. -/
def DelegateRequest.prune (a : DelegateRequest) : DelegateRequest :=
  { a with qualifyingTypes := [], qualifyingNames := a.qualifyingNames.take 1 }

namespace Method

/-- A method whose delegate annotation, if there is one, has its first qualifying name only. -/
def prune (m : Method) : Method := { m with delegate := m.delegate.map .prune }

variable (m : Method)

@[simp] lemma isMethod_prune : m.prune.isMethod = m.isMethod := rfl

@[simp] lemma isPublic_prune : m.prune.isPublic = m.isPublic := rfl

@[simp] lemma visibility_prune : m.prune.visibility = m.visibility := rfl

@[simp] lemma isDelegating_prune : m.prune.isDelegating = m.isDelegating := by
  simp [isDelegating, prune]

end Method

/-- The pruned method of a declaration is the method of the pruned declaration. -/
lemma Declaration.prune_asMethod (d : Declaration) (unit : UnitId) (symbolOf : String → Symbol) :
    (d.asMethod unit symbolOf).prune = d.prune.asMethod unit symbolOf := by
  cases hd : d.delegate with
  | none => simp [asMethod, Method.prune, prune, hd]
  | some a =>
    simp [asMethod, Method.prune, prune, hd, DelegateClauses.asRequest, DelegateRequest.prune,
      DelegateClauses.prune]

/-! ## Models -/

/-- A member whose method is pruned. -/
def Member.prune (x : Member) : Member := ⟨x.id, x.method.prune⟩

namespace Model

/-- A model whose methods are pruned. -/
def prune (m : Model) : Model := { m with methods := m.methods.map .prune }

variable (m : Model)

@[simp] lemma nextMethod_prune : m.prune.nextMethod = m.nextMethod := by
  simp [nextMethod, prune]

/-- Pruning leaves the units as they are. -/
lemma unit_prune (u : UnitId) : m.prune.unit u = m.unit u := rfl

/-- The pruned method is found under its handle. -/
lemma member_prune (id : MethodId) : m.prune.member id = Member.prune <$> m.member id := by
  have hmethod : m.prune.method id = Method.prune <$> m.method id := entryAt_map _ _ _
  rw [member, hmethod, member, ← comp_map, ← comp_map]
  rfl

/-- The pruned members of a unit are found. -/
lemma members_prune (u : UnitId) : m.prune.members u = List.map Member.prune <$> m.members u := by
  rw [members, members, unit_prune, map_bind]
  refine bind_congr fun unit => ?_
  have h := mapM_map_eq (g := id) m.member_prune unit.methods
  rwa [List.map_id] at h

/-- A pruned method is added to a pruned model. -/
lemma addMethod_prune (u : UnitId) (new : Method) :
    m.prune.addMethod u new.prune = (m.addMethod u new).prune := by
  simp [addMethod, prune, nextMethod]

end Model

/-! ## Catalogues -/

namespace Catalog

/-- A catalogue whose methods are pruned. Its table stays as it is. -/
def prune (c : Catalog) : Catalog := { c with model := c.model.prune }

variable {c : Catalog}

/-- A unit is declared before or after the methods are pruned. -/
lemma addUnit_prune (qualifiedName : String) (span : Span) :
    c.prune.addUnit qualifiedName span = (c.addUnit qualifiedName span).map id prune := by
  unfold addUnit
  simp only [apply_ite (Prod.map id prune)]
  rfl

/-- A use is declared before or after the methods are pruned. -/
lemma addUseAs_prune (u used : UnitId) (accessVariable : String) :
    c.prune.addUseAs u used accessVariable = (c.addUseAs u used accessVariable).map id prune := by
  have hknown : ∀ v, c.prune.knownUnit v = c.knownUnit v := fun _ => rfl
  unfold addUseAs
  rw [hknown, hknown]
  split
  · rfl
  · rfl
  · simp only [apply_ite (Prod.map id prune)]
    rfl

/-- A use is declared before or after the methods are pruned. -/
lemma addUse_prune (u used : UnitId) :
    c.prune.addUse u used = (c.addUse u used).map id prune := by
  have hknown : c.prune.knownUnit used = c.knownUnit used := rfl
  unfold addUse
  rw [hknown]
  split
  · rfl
  · exact addUseAs_prune u used _

/-- A method is declared and then pruned, or pruned and then declared. The strings that pruning
takes away must be in the table already, since they would be entered otherwise. -/
lemma addMethod_prune {u : UnitId} {d : Declaration}
    (hsymbols : (c.addMethod u d).2.symbols = c.symbols) :
    c.prune.addMethod u d.prune = (c.addMethod u d).map id prune := by
  cases hu : c.knownUnit u with
  | error e =>
    have hu' : c.prune.knownUnit u = .error e := hu
    simp only [addMethod, hu, hu']
    rfl
  | ok unit =>
    have hu' : c.prune.knownUnit u = .ok unit := hu
    have hall : c.symbols.internAll d.strings = c.symbols := by
      rwa [addMethod_eq hu (List.prefix_refl _)] at hsymbols
    -- so the pruned declaration, which has no other strings, enters none either
    have hd : d.strings ⊆ c.symbols.strings := fun s hs =>
      hall ▸ SymbolTable.mem_strings_internAll hs
    have hall' : c.symbols.internAll d.prune.strings = c.symbols :=
      SymbolTable.internAll_of_subset (List.Subset.trans d.strings_prune_subset hd)
    have hfit : ∀ {ss}, c.symbols.internAll ss = c.symbols →
        (c.symbols.internAll ss).strings <+: c.symbols.strings :=
      fun h => ⟨[], by rw [h, List.append_nil]⟩
    rw [addMethod_eq hu (hfit hall), addMethod_eq hu' (hfit hall')]
    simp only [prune, hall, hall', Model.nextMethod_prune, ← d.prune_asMethod,
      Model.addMethod_prune, Prod.map, id]

/-- An entry that enters no new string is answered alike before and after pruning, and the catalogue
afterwards is the pruned one. -/
theorem add_prune {e : Entry} (hsymbols : (c.add e).2.symbols = c.symbols) :
    c.prune.add e.prune = (c.add e).map id prune := by
  cases e with
  | unit qualifiedName span => rw [Entry.prune, add, addUnit_prune]; rfl
  | use u used accessVariable =>
    cases accessVariable with
    | none => rw [Entry.prune, add, addUse_prune]; rfl
    | some accessVariable => rw [Entry.prune, add, addUseAs_prune]; rfl
  | method u d => rw [Entry.prune, add, addMethod_prune hsymbols]; rfl

/-- Entries that enter no new string are answered alike before and after pruning, and the catalogue
afterwards is the pruned one.

**Proof sketch.** Induction on the entries. Since entries only append to the table, none of them
enters a new string if all of them together do not. -/
theorem addAll_prune {entries : List Entry}
    (hsymbols : (c.addAll entries).2.symbols = c.symbols) :
    c.prune.addAll (entries.map .prune) = (c.addAll entries).map id prune := by
  induction entries generalizing c with
  | nil => rfl
  | cons e entries ih =>
    have hfirst : (c.add e).2.symbols = c.symbols := by
      refine SymbolTable.eq_of_isPrefix ?_ (c.grows_add e).strings_isPrefix
      exact hsymbols ▸ prefix_addAll (c.add e).2 entries
    have hrest : ((c.add e).2.addAll entries).2.symbols = (c.add e).2.symbols :=
      hsymbols.trans hfirst.symm
    simp only [addAll, List.map_cons, add_prune hfirst, Prod.map_snd, ih hrest]
    rfl

end Catalog

end MapperDelegation
