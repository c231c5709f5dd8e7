import MapperDelegation.Delegation.Scope
import MapperDelegation.Proofs.Delegation.Locality
import MapperDelegation.Proofs.Mapper.Clauses
import MapperDelegation.Proofs.Mapper.Renaming
import MapperDelegation.Proofs.Symbol.Sequence

set_option relaxedAutoImplicit false
set_option autoImplicit false

/-!
# Declared signatures

Signatures are declared with strings and compared by symbols. A symbol of a catalogue stands for the
same string at all times, and different symbols stand for different strings, so two methods are
compatible exactly if the types of their parameters and their return types were declared with the
same strings. It does not matter when the methods were declared, what was entered in between, or
what else the declarations say.

## Main definitions

* `Clause.paramType?`, `Clause.returnType?` — what a clause contributes to a signature.
* `Catalog.Declared` — a method was declared by a given declaration at some earlier time.

## Main results

* `Declaration.paramTypes_ofClauses`, `Declaration.returnType_ofClauses` — the signature that some
  clauses declare.
* `Catalog.Declared.method_eq` — a method is its declaration with the symbols of the table at any
  later time.
* `Catalog.compatible_of_declared` — methods are compared as their declarations are.
-/

namespace MapperDelegation

/-! ## Signatures of declarations -/

/-- The type of the parameter that a clause appends. -/
def Clause.paramType? : Clause → Option String
  | .param _ type => some type
  | _ => none

/-- The return type that a clause sets. -/
def Clause.returnType? : Clause → Option String
  | .returns type => some type
  | _ => none

namespace Declaration

variable {d : Declaration} {clauses : List Clause}

/-- A clause appends the type of its parameter to those that were declared before. -/
lemma paramTypes_amend (clause : Clause) :
    (d.amend clause).params.map (·.2) = d.params.map (·.2) ++ clause.paramType?.toList := by
  cases clause <;> simp [amend, amendDelegate, Clause.paramType?]

/-- A clause replaces the return type by its own, if it has one. -/
lemma returnType_amend (d : Declaration) (clause : Clause) :
    (d.amend clause).returnType = clause.returnType?.getD d.returnType := by
  cases clause <;> rfl

/-- Clauses append the types of their parameters in their order. -/
lemma paramTypes_foldl_amend (clauses : List Clause) :
    (clauses.foldl amend d).params.map (·.2) =
      d.params.map (·.2) ++ clauses.filterMap Clause.paramType? := by
  induction clauses generalizing d with
  | nil => simp
  | cons clause clauses ih =>
    rw [List.foldl_cons, ih, paramTypes_amend, List.append_assoc]
    cases h : clause.paramType? <;> simp [h]

/-- The types of the parameters are those of the clauses that declare one. -/
lemma paramTypes_ofClauses (name : String) (clauses : List Clause) :
    (ofClauses name clauses).params.map (·.2) = clauses.filterMap Clause.paramType? :=
  paramTypes_foldl_amend clauses

/-- The return type is the last one that is given, or `void` if there is none. -/
lemma returnType_ofClauses (name : String) (clauses : List Clause) :
    (ofClauses name clauses).returnType =
      (clauses.filterMap Clause.returnType?).getLast?.getD "void" :=
  apply_foldl_amend_of_getD (·.returnType) returnType_amend _ clauses

/-! ## Signatures of methods -/

/-- The strings of the signature are among those of a declaration. -/
lemma paramTypes_subset_strings (d : Declaration) : d.params.map (·.2) ⊆ d.strings := by
  intro s hs
  obtain ⟨p, hp, rfl⟩ := List.mem_map.mp hs
  simp only [strings, List.mem_append, List.mem_cons, List.mem_flatMap]
  exact .inl (.inr (.inr ⟨p, hp, .inr (.inl rfl)⟩))

/-- The return type is among the strings of a declaration. -/
lemma returnType_mem_strings (d : Declaration) : d.returnType ∈ d.strings := by
  simp [strings]

/-- The types of the parameters of a method are the symbols of those of its declaration. -/
lemma paramTypes_asMethod (d : Declaration) (unit : UnitId) (symbolOf : String → Symbol) :
    (d.asMethod unit symbolOf).paramTypes =
      ((d.params.map (·.2)).map symbolOf).map TypeSymbol.mk := by
  simp [Method.paramTypes, asMethod, Function.comp_def]

/-- Methods of two declarations are compatible exactly if these have the same signature, provided
that their strings belong to the table from which the symbols are taken. -/
lemma compatible_asMethod_iff {d d' : Declaration} {u v : UnitId} {t : SymbolTable}
    (hd : d.strings ⊆ t.strings) (hd' : d'.strings ⊆ t.strings) :
    (d.asMethod u t.symbolOf).compatible (d'.asMethod v t.symbolOf) ↔
      d.params.map (·.2) = d'.params.map (·.2) ∧ d.returnType = d'.returnType := by
  rw [Method.compatible_iff, and_comm]
  refine and_congr ?_ ?_
  · rw [paramTypes_asMethod, paramTypes_asMethod]
    refine ⟨fun h => ?_, fun h => by rw [h]⟩
    have hsymbols : (d.params.map (·.2)).map t.symbolOf = (d'.params.map (·.2)).map t.symbolOf := by
      refine List.map_injective_iff.mpr ?_ h
      intro a b hab
      exact congrArg TypeSymbol.name hab
    have hback := fun d (hd : Declaration.strings d ⊆ t.strings) =>
      SymbolTable.map_lookup_map_symbolOf (List.prefix_refl t.strings)
        (List.Subset.trans (paramTypes_subset_strings d) hd)
    rw [← hback d hd, hsymbols, hback d' hd']
  · refine ⟨fun h => ?_, fun h => congrArg (fun s => TypeSymbol.mk (t.symbolOf s)) h⟩
    have hsymbol : t.symbolOf d.returnType = t.symbolOf d'.returnType :=
      congrArg TypeSymbol.name h
    rw [← SymbolTable.lookup_symbolOf (hd d.returnType_mem_strings), hsymbol,
      SymbolTable.lookup_symbolOf (hd' d'.returnType_mem_strings)]

end Declaration

/-! ## Methods and their declarations -/

namespace Catalog

variable {c : Catalog} {a b : MethodId} {d d' : Declaration}

/-- The method with the handle `id` was declared by `d`: this declaration was accepted under the
handle at some earlier time, and the catalogue came out of the one at that time by further entries
and further strings. -/
def Declared (c : Catalog) (id : MethodId) (d : Declaration) : Prop :=
  ∃ (before : Catalog) (u : UnitId) (added : List Entry), before.Reachable ∧
    (before.add (.method u d)).1 = .ok (.method id) ∧
    (before.add (.method u d)).2.Leads added c

/-- A declaration for a known unit is accepted. Its strings are entered, and its method gets the
next handle. -/
lemma add_method_eq {u : UnitId} {unit : MapperUnit} (h : c.knownUnit u = .ok unit)
    (d : Declaration) :
    c.add (.method u d) = (.ok (.method c.model.nextMethod), ⟨c.symbols.internAll d.strings,
      c.model.addMethod u (d.asMethod u (c.symbols.internAll d.strings).symbolOf)⟩) := by
  rw [add, addMethod_eq h (List.prefix_refl _)]
  rfl

/-- An accepted declaration enters its strings, and its method has the handle of the answer. -/
lemma method_of_add {u : UnitId} {id : MethodId} (h : (c.add (.method u d)).1 = .ok (.method id)) :
    (c.add (.method u d)).2.symbols = c.symbols.internAll d.strings ∧
      (c.add (.method u d)).2.model.method id =
        .ok (d.asMethod u (c.symbols.internAll d.strings).symbolOf) := by
  cases hu : c.knownUnit u with
  | error e => simp [add, addMethod, hu, Except.map] at h
  | ok unit =>
    rw [add_method_eq hu] at h ⊢
    obtain rfl : c.model.nextMethod = id := by simpa using h
    exact ⟨rfl, Model.method_addMethod_iff.mpr (.inr ⟨rfl, rfl⟩)⟩

/-- **A method is its declaration**, with the symbols that the strings of the declaration have in
the table of the catalogue at hand.

**Proof sketch.** This is so when the declaration is entered. Further entries leave the method as it
is and only append to the table, so that the strings keep their symbols. -/
lemma Declared.method_eq {id : MethodId} (h : c.Declared id d) :
    ∃ u, c.model.method id = .ok (d.asMethod u c.symbols.symbolOf) ∧
      d.strings ⊆ c.symbols.strings := by
  obtain ⟨before, u, added, -, hadd, hleads⟩ := h
  obtain ⟨hsymbols, hmethod⟩ := method_of_add hadd
  have hprefix := hleads.strings_isPrefix
  rw [hsymbols] at hprefix
  have hentered : d.strings ⊆ (before.symbols.internAll d.strings).strings :=
    fun s hs => SymbolTable.mem_strings_internAll hs
  refine ⟨u, ?_, List.Subset.trans hentered hprefix.subset⟩
  rw [hleads.grownBy.method hmethod]
  refine congrArg Except.ok (Declaration.asMethod_congr fun s hs => ?_)
  exact (SymbolTable.symbolOf_of_isPrefix hprefix (hentered hs)).symm

/-- Methods are comparable at any time after their declarations, and they are compatible exactly if
these have the same signature. -/
lemma Declared.compatible_eq (h : c.Declared a d) (h' : c.Declared b d') :
    c.model.compatible a b =
      .ok (d.params.map (·.2) = d'.params.map (·.2) ∧ d.returnType = d'.returnType : Bool) := by
  obtain ⟨u, hmethod, hd⟩ := h.method_eq
  obtain ⟨v, hmethod', hd'⟩ := h'.method_eq
  have hiff := Declaration.compatible_asMethod_iff (u := u) (v := v) hd hd'
  have hfound : c.model.compatible a b = .ok ((d.asMethod u c.symbols.symbolOf).compatible
      (d'.asMethod v c.symbols.symbolOf)) := by
    rw [Model.compatible, hmethod, hmethod']
    rfl
  rw [hfound, Except.ok.injEq, Bool.eq_iff_iff, hiff, decide_eq_true_iff]

/-- **Signatures are compared as they are declared**: methods that were declared at any two times of
the history of a catalogue are compared successfully at any later time. They are compatible exactly
if the types of their parameters were given by the same strings in the same order, and the return
types by the same string, which is `void` if none was given. Nothing else that the declarations say
has an influence.

**Proof sketch.** The methods are the declarations with the symbols of the table, which correspond
to the strings. -/
theorem compatible_of_declared {name name' : String} {clauses clauses' : List Clause}
    (h : c.Declared a (.ofClauses name clauses)) (h' : c.Declared b (.ofClauses name' clauses')) :
    ∃ answer, c.model.compatible a b = .ok answer ∧
      (answer = true ↔
        clauses.filterMap Clause.paramType? = clauses'.filterMap Clause.paramType? ∧
        (clauses.filterMap Clause.returnType?).getLast?.getD "void" =
          (clauses'.filterMap Clause.returnType?).getLast?.getD "void") := by
  refine ⟨_, h.compatible_eq h', ?_⟩
  rw [decide_eq_true_iff, Declaration.paramTypes_ofClauses, Declaration.paramTypes_ofClauses,
    Declaration.returnType_ofClauses, Declaration.returnType_ofClauses]

end Catalog

/-! ## Two declarations -/

namespace Catalog

/-- The clauses of a declaration that sets its return type twice. -/
def plainClauses : List Clause :=
  [.param "order" "Order", .returns "void", .param "rate" "Rate", .returns "Total"]

/-- The clauses of a declaration with the same signature that is otherwise different. -/
def taggedClauses : List Clause :=
  [.tagged "Rate", .param "rate" "Order", .returns "Total", .param "item" "Rate",
    .visibleTo .unit, .qualifiedByName "Order", .implemented .concrete]

/-- A mapper without methods. -/
def emptyMapping : Catalog := .ofEntries [.unit "com.OrderMapper" .unknown]

/-- The mapper with a method, after a unit of the same name has been refused and a string has been
entered. -/
def plainMapping : Catalog :=
  (((emptyMapping.add (.method ⟨0⟩ (.ofClauses "total" plainClauses))).2.add
    (.unit "org.OrderMapper" .unknown)).2.intern "Rates").2

/-- The mapper with both methods. -/
def signatureMapping : Catalog :=
  (plainMapping.add (.method ⟨0⟩ (.ofClauses "sum" taggedClauses))).2

/-- The two methods are compatible, as their signatures say. -/
theorem compatible_signatureMapping :
    signatureMapping.Declared ⟨0⟩ (.ofClauses "total" plainClauses) ∧
      signatureMapping.Declared ⟨1⟩ (.ofClauses "sum" taggedClauses) ∧
      ∃ answer, signatureMapping.model.compatible ⟨0⟩ ⟨1⟩ = .ok answer ∧
        (answer = true ↔
          plainClauses.filterMap Clause.paramType? = taggedClauses.filterMap Clause.paramType? ∧
          (plainClauses.filterMap Clause.returnType?).getLast?.getD "void" =
            (taggedClauses.filterMap Clause.returnType?).getLast?.getD "void") := by
  have hempty : emptyMapping.Reachable := reachable_ofEntries _
  have hplain : plainMapping.Reachable := ((hempty.add _).add _).intern _
  have htotal : (emptyMapping.add (.method ⟨0⟩ (.ofClauses "total" plainClauses))).1 =
      .ok (.method ⟨0⟩) := by decide +kernel
  have hrefused : ((emptyMapping.add (.method ⟨0⟩ (.ofClauses "total" plainClauses))).2.add
      (.unit "org.OrderMapper" .unknown)).1 = .error (.duplicateUnit "OrderMapper") := by
    decide +kernel
  have hsum : (plainMapping.add (.method ⟨0⟩ (.ofClauses "sum" taggedClauses))).1 =
      .ok (.method ⟨1⟩) := by decide +kernel
  have hfirst : signatureMapping.Declared ⟨0⟩ (.ofClauses "total" plainClauses) :=
    ⟨_, _, _, hempty, htotal, ((Leads.refl.refused _ hrefused).intern "Rates").accepted _ hsum⟩
  have hsecond : signatureMapping.Declared ⟨1⟩ (.ofClauses "sum" taggedClauses) :=
    ⟨_, _, _, hplain, hsum, .refl⟩
  exact ⟨hfirst, hsecond, compatible_of_declared hfirst hsecond⟩

/-- Both signatures take an order and a rate and return a total. -/
example : signatureMapping.model.compatible ⟨0⟩ ⟨1⟩ = .ok true := by decide +kernel

end Catalog

end MapperDelegation
