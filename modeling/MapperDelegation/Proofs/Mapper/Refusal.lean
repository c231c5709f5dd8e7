import MapperDelegation.Proofs.Mapper.Handles

set_option relaxedAutoImplicit false
set_option autoImplicit false

/-!
# Refused entries

An entry is refused if something is wrong with it, and for no other reason. What can be wrong with
it is said in terms of handles and of strings, while the tests compare symbols: this makes no
difference as long as the table knows the symbols of the model. Strings are entered before the last
tests, so it has to be shown as well that a refused entry leaves nothing behind. The one exception
is the variable of a use that exists already, which is entered and then not needed.

## Main definitions

* `Catalog.Fault` — what is wrong with an entry, told by the error that reports it.
* `Entry.rank`, `Catalog.FirstFault` — the order in which faults are looked for, and the first one.
* `Catalog.Leaves` — what a refused entry leaves of a catalogue.

## Main results

* `Catalog.Knows.eq_fst_intern_iff` — comparing symbols is comparing strings.
* `Catalog.Reachable.settles_add` — an entry is accepted without a fault and refused for its first
  one.
* `Catalog.refusals_of_reachable` — when an entry is refused, with which error, and what is left.
-/

namespace MapperDelegation

/-! ## Faults -/

/-- The place of an error among those that an entry is tested for. A use that names its variable is
tested for the using unit first, and one that does not for the used unit, whose name the variable is
derived from. -/
def Entry.rank : Entry → ModelError → ℕ
  | .use u used named, .unknownUnit v => if v = (if named.isSome then u else used) then 0 else 1
  | _, .unknownUnit _ => 0
  | _, .duplicateUnit _ => 0
  | _, .selfUse _ => 2
  | _, .duplicateUse _ _ => 3
  | _, .duplicateAccessVariable _ _ => 4

namespace Catalog

/-- The variable that a use asks for: the one that it names, or else the one derived from the simple
name of the used unit. -/
def variableFor (c : Catalog) (provider : MapperUnit) (named : Option String) : String :=
  named.getD (accessVariable (c.symbols.lookup provider.name))

/-- What is wrong with an entry, told by the error that reports it. -/
inductive Fault (c : Catalog) : Entry → ModelError → Prop
  /-- The simple name of the new unit is the one of a unit of the model. -/
  | duplicateUnit {qualifiedName : String} {span : Span} {unit : MapperUnit}
      (mem : unit ∈ c.model.units)
      (taken : c.symbols.lookup unit.name = simpleName qualifiedName) :
      Fault c (.unit qualifiedName span) (.duplicateUnit (simpleName qualifiedName))
  | unknownUser {u used : UnitId} {named : Option String}
      (unknown : c.model.units.length ≤ u.index) :
      Fault c (.use u used named) (.unknownUnit u)
  | unknownUsed {u used : UnitId} {named : Option String}
      (unknown : c.model.units.length ≤ used.index) :
      Fault c (.use u used named) (.unknownUnit used)
  | selfUse {u : UnitId} {named : Option String} {user : MapperUnit}
      (user_known : c.model.unit u = .ok user) :
      Fault c (.use u u named) (.selfUse (c.symbols.lookup user.name))
  /-- The unit uses the other one already. -/
  | duplicateUse {u used : UnitId} {named : Option String} {user provider : MapperUnit}
      (user_known : c.model.unit u = .ok user) (used_known : c.model.unit used = .ok provider)
      (taken : ∃ use ∈ user.uses, use.unit = used) :
      Fault c (.use u used named)
        (.duplicateUse (c.symbols.lookup user.name) (c.symbols.lookup provider.name))
  /-- The unit has bound the variable already. -/
  | duplicateAccessVariable {u used : UnitId} {named : Option String} {user provider : MapperUnit}
      (user_known : c.model.unit u = .ok user) (used_known : c.model.unit used = .ok provider)
      (taken : ∃ use ∈ user.uses,
        c.symbols.lookup use.accessVariable = c.variableFor provider named) :
      Fault c (.use u used named)
        (.duplicateAccessVariable (c.symbols.lookup user.name) (c.variableFor provider named))
  | unknownUnit {u : UnitId} {d : Declaration} (unknown : c.model.units.length ≤ u.index) :
      Fault c (.method u d) (.unknownUnit u)

/-- The fault of an entry that is looked for before its other ones. -/
def FirstFault (c : Catalog) (e : Entry) (err : ModelError) : Prop :=
  c.Fault e err ∧ ∀ other, c.Fault e other → other = err ∨ e.rank err < e.rank other

/-- The catalogue `c'` is what is left of `c` after the entry `e` was refused with an error: the
same catalogue, or, if a use exists already, one with the requested variable as one more symbol. -/
def Leaves (c : Catalog) (e : Entry) (err : ModelError) (c' : Catalog) : Prop :=
  c' = c ∨ ∃ u used named provider user name, e = .use u used named ∧
    c.model.unit used = .ok provider ∧ err = .duplicateUse user name ∧ c'.model = c.model ∧
    c.variableFor provider named ∉ c.symbols.strings ∧
    c'.symbols.toInternTable = c.symbols.push (c.variableFor provider named)

/-- What is due for an entry: without a fault it is accepted, and otherwise it is refused for its
first fault. -/
inductive Settles (c : Catalog) (e : Entry) : Outcome Added → Prop
  | accepted {answer : Added} {c' : Catalog} (sound : ∀ err, ¬ c.Fault e err) :
      Settles c e (.ok answer, c')
  | refused {err : ModelError} {c' : Catalog} (first : c.FirstFault e err)
      (leaves : c.Leaves e err c') : Settles c e (.error err, c')

variable {c : Catalog} {a : Symbol} {s : String} {u used : UnitId} {user provider : MapperUnit}

/-! ## Symbols for strings -/

/-- A model mentions the simple names of its units. -/
lemma unitName_mem_symbols {unit : MapperUnit} (h : unit ∈ c.model.units) :
    unit.name ∈ c.model.symbols :=
  List.mem_append_left _ (List.mem_flatMap_of_mem h List.mem_cons_self)

/-- A model mentions the variables that its units have bound. -/
lemma accessVariable_mem_symbols {use : UsedUnit} (hu : c.model.unit u = .ok user)
    (huse : use ∈ user.uses) : use.accessVariable ∈ c.model.symbols :=
  Model.mem_symbols_of_unit hu
    (List.mem_cons_of_mem _ (List.mem_cons_of_mem _ (List.mem_map_of_mem huse)))

namespace Knows

variable (hc : c.Knows) (ha : a ∈ c.model.symbols)
include hc ha

/-- A symbol of the model is the one under which a string is entered exactly if it stands for it. -/
lemma eq_fst_intern_iff : a = (c.intern s).1 ↔ c.symbols.lookup a = s := by
  constructor
  · rintro rfl
    have hlookup := SymbolTable.lookup_of_prefix (c.symbols.prefix_intern s) (hc _ ha)
    rw [← hlookup]
    exact c.symbols.lookup_intern s
  · rintro rfl
    have hmem := SymbolTable.lookup_mem_strings (hc a ha)
    rw [intern, SymbolTable.intern_of_mem hmem, SymbolTable.symbolOf_lookup (hc a ha)]

/-- A string that a symbol of the model stands for is not entered again. -/
lemma snd_intern_lookup : (c.intern (c.symbols.lookup a)).2 = c := by
  rw [intern, SymbolTable.intern_of_mem (SymbolTable.lookup_mem_strings (hc a ha))]

/-- A symbol of the model stands for the same string after another string was entered. -/
lemma lookup_intern : (c.intern s).2.symbols.lookup a = c.symbols.lookup a :=
  SymbolTable.lookup_of_prefix (c.symbols.prefix_intern s) (hc a ha)

end Knows

/-- A unit is entered under the symbol of a string exactly if a unit of the model has this string
for its simple name. -/
lemma isSome_unitByName_iff (hm : c.model.WellFormed) (hc : c.Knows) :
    (c.model.unitByName (c.intern s).1).isSome ↔
      ∃ unit ∈ c.model.units, c.symbols.lookup unit.name = s := by
  simp only [Option.isSome_iff_exists, hm.unitByName_iff]
  constructor
  · rintro ⟨v, unit, hunit, hname⟩
    have hmem : unit ∈ c.model.units := List.mem_of_getElem? (Model.unit_eq_ok_iff.mp hunit)
    exact ⟨unit, hmem, (hc.eq_fst_intern_iff (unitName_mem_symbols hmem)).mp hname⟩
  · rintro ⟨unit, hmem, hname⟩
    obtain ⟨i, hi⟩ := List.mem_iff_getElem?.mp hmem
    exact ⟨⟨i⟩, unit, Model.unit_eq_ok_iff.mpr hi,
      (hc.eq_fst_intern_iff (unitName_mem_symbols hmem)).mpr hname⟩

/-- A unit has bound a string as a variable exactly if it has bound the symbol under which the
string is entered. -/
lemma any_accessVariable_iff (hc : c.Knows) (hu : c.model.unit u = .ok user) :
    user.uses.any (·.accessVariable = (c.intern s).1) ↔
      ∃ use ∈ user.uses, c.symbols.lookup use.accessVariable = s := by
  rw [List.any_eq_true]
  refine exists_congr fun use => and_congr_right fun huse => ?_
  rw [decide_eq_true_iff, hc.eq_fst_intern_iff (accessVariable_mem_symbols hu huse)]

/-! ## Single entries -/

/-- A unit that an entry refers to is found, or its handle is reported as unknown. -/
lemma knownUnit_cases (c : Catalog) (u : UnitId) :
    (∃ unit, c.model.unit u = .ok unit ∧ c.knownUnit u = .ok unit) ∨
      c.model.units.length ≤ u.index ∧ c.knownUnit u = .error (.unknownUnit u) := by
  by_cases hu : u.index < c.model.units.length
  · obtain ⟨unit, hunit⟩ := Model.exists_unit hu
    exact .inl ⟨unit, hunit, knownUnit_eq_ok_iff.mpr hunit⟩
  · refine .inr ⟨Nat.le_of_not_lt hu, ?_⟩
    rw [knownUnit, List.getElem?_eq_none (Nat.le_of_not_lt hu)]

/-- A handle under which a unit is found is not unknown. -/
lemma not_le_of_unit (hu : c.model.unit u = .ok user) : ¬ c.model.units.length ≤ u.index :=
  Nat.not_le_of_lt (Model.index_lt_of_unit hu)

/-- A unit is declared unless its simple name is taken. -/
lemma settles_unit (hm : c.model.WellFormed) (hc : c.Knows) (qualifiedName : String)
    (span : Span) :
    c.Settles (.unit qualifiedName span) (c.add (.unit qualifiedName span)) := by
  by_cases htaken : ∃ unit ∈ c.model.units, c.symbols.lookup unit.name = simpleName qualifiedName
  · have hadd : c.add (.unit qualifiedName span) =
        (.error (.duplicateUnit (simpleName qualifiedName)),
          (c.intern (simpleName qualifiedName)).2) := by
      simp [add, addUnit, (isSome_unitByName_iff hm hc).mpr htaken, Except.map]
    obtain ⟨unit, hunit, htaken⟩ := htaken
    rw [hadd, ← htaken, hc.snd_intern_lookup (unitName_mem_symbols hunit), htaken]
    refine .refused ⟨.duplicateUnit hunit htaken, ?_⟩ (.inl rfl)
    rintro other ⟨⟩
    exact .inl rfl
  · obtain ⟨c', hadd⟩ : ∃ c', c.add (.unit qualifiedName span) =
        (.ok (.unit c.model.nextUnit), c') := by
      have hfree := (isSome_unitByName_iff hm hc).not.mpr htaken
      exact ⟨_, by simp only [add, addUnit, model_intern, hfree]; rfl⟩
    rw [hadd]
    refine .accepted ?_
    rintro err ⟨hunit, hname⟩
    exact htaken ⟨_, hunit, hname⟩

/-- A method is declared unless its unit is unknown. -/
lemma settles_method (u : UnitId) (d : Declaration) :
    c.Settles (.method u d) (c.add (.method u d)) := by
  rcases c.knownUnit_cases u with ⟨unit, hunit, hknown⟩ | ⟨hunknown, hrefused⟩
  · obtain ⟨c', hadd⟩ : ∃ c', c.add (.method u d) = (.ok (.method c.model.nextMethod), c') :=
      ⟨_, by simp only [add, addMethod, hknown]; rfl⟩
    rw [hadd]
    refine .accepted ?_
    rintro err ⟨⟩
    exact not_le_of_unit hunit ‹_›
  · have hadd : c.add (.method u d) = (.error (.unknownUnit u), c) := by
      simp only [add, addMethod, hrefused]
      rfl
    rw [hadd]
    refine .refused ⟨.unknownUnit hunknown, ?_⟩ (.inl rfl)
    rintro other ⟨⟩
    exact .inl rfl

/-- A use that exists already leaves its variable among the symbols. -/
lemma leaves_intern {named : Option String} {user name : String}
    (hused : c.model.unit used = .ok provider) :
    c.Leaves (.use u used named) (.duplicateUse user name)
      (c.intern (c.variableFor provider named)).2 := by
  by_cases hmem : c.variableFor provider named ∈ c.symbols.strings
  · exact .inl (by rw [intern, SymbolTable.intern_of_mem hmem])
  · refine .inr ⟨u, used, named, provider, user, name, rfl, hused, rfl, rfl, hmem, ?_⟩
    exact (SymbolTable.intern_of_notMem hmem).2

/-- What can be wrong with the use of one known unit by another. -/
lemma fault_use_iff (hu : c.model.unit u = .ok user) (hused : c.model.unit used = .ok provider)
    (named : Option String) (err : ModelError) :
    c.Fault (.use u used named) err ↔
      u = used ∧ err = .selfUse (c.symbols.lookup user.name) ∨
      (∃ use ∈ user.uses, use.unit = used) ∧
        err = .duplicateUse (c.symbols.lookup user.name) (c.symbols.lookup provider.name) ∨
      (∃ use ∈ user.uses, c.symbols.lookup use.accessVariable = c.variableFor provider named) ∧
        err = .duplicateAccessVariable (c.symbols.lookup user.name)
          (c.variableFor provider named) := by
  constructor
  · intro h
    cases h with
    | unknownUser unknown => exact absurd unknown (not_le_of_unit hu)
    | unknownUsed unknown => exact absurd unknown (not_le_of_unit hused)
    | selfUse hu' =>
      rw [eq_of_eq_ok hu hu']
      exact .inl ⟨rfl, rfl⟩
    | duplicateUse hu' hused' taken =>
      rw [eq_of_eq_ok hu hu', eq_of_eq_ok hused hused']
      exact .inr (.inl ⟨taken, rfl⟩)
    | duplicateAccessVariable hu' hused' taken =>
      rw [eq_of_eq_ok hu hu', eq_of_eq_ok hused hused']
      exact .inr (.inr ⟨taken, rfl⟩)
  · rintro (⟨rfl, rfl⟩ | ⟨taken, rfl⟩ | ⟨taken, rfl⟩)
    · exact .selfUse hu
    · exact .duplicateUse hu hused taken
    · exact .duplicateAccessVariable hu hused taken

/-- The use of one known unit by another is declared if it is new and its variable is free, whether
the variable is named or derived.

**Proof sketch.** The tests are gone through in their order. Each of them holds exactly if there is
the fault that it looks for, and the faults that were looked for before are then ruled out. -/
lemma settles_addUseAs (hc : c.Knows) (hu : c.model.unit u = .ok user)
    (hused : c.model.unit used = .ok provider) (named : Option String) :
    c.Settles (.use u used named)
      ((c.addUseAs u used (c.variableFor provider named)).map (Except.map fun _ => .use) id) := by
  have hknown := knownUnit_eq_ok_iff.mpr hu
  have hknown' := knownUnit_eq_ok_iff.mpr hused
  have hname := hc.lookup_intern (s := c.variableFor provider named)
    (Model.mem_symbols_of_unit hu List.mem_cons_self)
  have hname' := hc.lookup_intern (s := c.variableFor provider named)
    (Model.mem_symbols_of_unit hused List.mem_cons_self)
  have hvariable := any_accessVariable_iff (s := c.variableFor provider named) hc hu
  have hfaults := fault_use_iff hu hused named
  have hentered : (c.intern (c.variableFor provider named)).2.symbols.lookup
      (c.intern (c.variableFor provider named)).1 = c.variableFor provider named :=
    c.symbols.lookup_intern _
  simp only [addUseAs, hknown, hknown', hname, hname', hentered]
  split_ifs with hself huse hbound
  · refine .refused ⟨(hfaults _).mpr (.inl ⟨hself, rfl⟩), fun other h => ?_⟩ (.inl rfl)
    rcases (hfaults _).mp h with ⟨-, rfl⟩ | ⟨-, rfl⟩ | ⟨-, rfl⟩
    · exact .inl rfl
    · exact .inr (by simp [Entry.rank])
    · exact .inr (by simp [Entry.rank])
  · have huse' : ∃ use ∈ user.uses, use.unit = used := by simpa using huse
    refine .refused ⟨(hfaults _).mpr (.inr (.inl ⟨huse', rfl⟩)), fun other h => ?_⟩ ?_
    · rcases (hfaults _).mp h with ⟨hself', -⟩ | ⟨-, rfl⟩ | ⟨-, rfl⟩
      · exact absurd hself' hself
      · exact .inl rfl
      · exact .inr (by simp [Entry.rank])
    · exact leaves_intern hused
  · have hbound' := hvariable.mp hbound
    refine .refused ⟨(hfaults _).mpr (.inr (.inr ⟨hbound', rfl⟩)), fun other h => ?_⟩ ?_
    · rcases (hfaults _).mp h with ⟨hself', -⟩ | ⟨huse', -⟩ | ⟨-, rfl⟩
      · exact absurd hself' hself
      · exact absurd (by simpa using huse') huse
      · exact .inl rfl
    · -- the variable stands in the table, since it is bound
      obtain ⟨use, huse', hlookup⟩ := hbound'
      rw [← hlookup]
      exact .inl (hc.snd_intern_lookup (accessVariable_mem_symbols hu huse'))
  · refine .accepted fun err h => ?_
    rcases (hfaults _).mp h with ⟨hself', -⟩ | ⟨huse', -⟩ | ⟨hbound', -⟩
    · exact hself hself'
    · exact huse (by simpa using huse')
    · exact hbound (hvariable.mpr hbound')

/-- Unknown units are looked for before anything else, and first the one that is needed first. -/
lemma firstFault_unknownUnit {named : Option String} {v : UnitId} (hv : v = u ∨ v = used)
    (hunknown : c.model.units.length ≤ v.index)
    (hfirst : v = (if named.isSome then u else used) ∨
      (if named.isSome then u else used).index < c.model.units.length) :
    c.FirstFault (.use u used named) (.unknownUnit v) := by
  have hunits : ∀ w, w = u ∨ w = used → c.model.units.length ≤ w.index →
      ModelError.unknownUnit w = .unknownUnit v ∨
        Entry.rank (.use u used named) (.unknownUnit v) <
          Entry.rank (.use u used named) (.unknownUnit w) := by
    intro w hw hunknown'
    by_cases hsame : w = v
    · exact .inl (by rw [hsame])
    · rcases hfirst with hfirst | hknown
      · refine .inr ?_
        rw [Entry.rank, Entry.rank, if_pos hfirst, if_neg fun h => hsame (h.trans hfirst.symm)]
        exact Nat.zero_lt_one
      -- both units are unknown, and one of them would have to be the known one
      · have hne : ∀ x : UnitId, c.model.units.length ≤ x.index →
            x ≠ (if named.isSome then u else used) := by
          rintro x hx rfl
          omega
        have hv' := hne v hunknown
        have hw' := hne w hunknown'
        grind
  refine ⟨?_, fun other h => ?_⟩
  · rcases hv with rfl | rfl
    · exact .unknownUser hunknown
    · exact .unknownUsed hunknown
  · have hle : Entry.rank (.use u used named) (.unknownUnit v) ≤ 1 := by
      rw [Entry.rank]
      split_ifs <;> omega
    cases h with
    | unknownUser h => exact hunits u (.inl rfl) h
    | unknownUsed h => exact hunits used (.inr rfl) h
    | selfUse => exact .inr (Nat.lt_of_le_of_lt hle (by simp [Entry.rank]))
    | duplicateUse => exact .inr (Nat.lt_of_le_of_lt hle (by simp [Entry.rank]))
    | duplicateAccessVariable => exact .inr (Nat.lt_of_le_of_lt hle (by simp [Entry.rank]))

/-- A use is declared unless a unit is unknown or there is something wrong between the two. -/
lemma settles_use (hc : c.Knows) (u used : UnitId) (named : Option String) :
    c.Settles (.use u used named) (c.add (.use u used named)) := by
  -- which of the units is needed first depends on whether the variable is named
  cases named with
  | some name =>
    rcases c.knownUnit_cases u with ⟨user, hu, hknown⟩ | ⟨hunknown, hrefused⟩
    · rcases c.knownUnit_cases used with ⟨provider, hused, -⟩ | ⟨hunknown, hrefused⟩
      · exact settles_addUseAs hc hu hused (some name)
      · have hadd : c.add (.use u used (some name)) = (.error (.unknownUnit used), c) := by
          simp only [add, addUseAs, hknown, hrefused]
          rfl
        rw [hadd]
        exact .refused (firstFault_unknownUnit (.inr rfl) hunknown
          (.inr (Model.index_lt_of_unit hu))) (.inl rfl)
    · have hadd : c.add (.use u used (some name)) = (.error (.unknownUnit u), c) := by
        simp only [add, addUseAs, hrefused]
        rfl
      rw [hadd]
      exact .refused (firstFault_unknownUnit (.inl rfl) hunknown (.inl rfl)) (.inl rfl)
  | none =>
    rcases c.knownUnit_cases used with ⟨provider, hused, hknown⟩ | ⟨hunknown, hrefused⟩
    · rcases c.knownUnit_cases u with ⟨user, hu, -⟩ | ⟨hunknown, hrefused⟩
      · have hsettles := settles_addUseAs hc hu hused none
        rw [add, addUse, hknown]
        exact hsettles
      · have hadd : c.add (.use u used none) = (.error (.unknownUnit u), c) := by
          simp only [add, addUse, addUseAs, hknown, hrefused]
          rfl
        rw [hadd]
        exact .refused (firstFault_unknownUnit (.inl rfl) hunknown
          (.inr (Model.index_lt_of_unit hused))) (.inl rfl)
    · have hadd : c.add (.use u used none) = (.error (.unknownUnit used), c) := by
        simp only [add, addUse, hrefused]
        rfl
      rw [hadd]
      exact .refused (firstFault_unknownUnit (.inr rfl) hunknown (.inl rfl)) (.inl rfl)

/-- **One fault is enough**: an entry is accepted if nothing is wrong with it, and otherwise it is
refused for its first fault. -/
lemma Reachable.settles_add (hc : c.Reachable) (e : Entry) : c.Settles e (c.add e) := by
  cases e with
  | unit qualifiedName span => exact settles_unit hc.wellFormed hc.knows qualifiedName span
  | use u used named => exact settles_use hc.knows u used named
  | method u d => exact settles_method u d

/-- **Refusals**: an entry of a reachable catalogue is accepted exactly if nothing is wrong with it.
It is refused with an error exactly if this tells its first fault, and then the catalogue stays as
it was, except that a use which exists already may leave its variable among the symbols.

**Proof sketch.** Each kind of entry is tested for its faults in their order. At most one fault
comes first, so the error that is reported tells which one it is. -/
theorem refusals_of_reachable {c : Catalog} (hc : c.Reachable) (e : Entry) :
    ((∃ answer, (c.add e).1 = .ok answer) ↔ ∀ err, ¬ c.Fault e err) ∧
      (∀ err, (c.add e).1 = .error err ↔ c.FirstFault e err) ∧
      ∀ err, (c.add e).1 = .error err → c.Leaves e err (c.add e).2 := by
  have hsettles := hc.settles_add e
  generalize c.add e = outcome at hsettles ⊢
  cases hsettles with
  | accepted sound =>
    refine ⟨iff_of_true ⟨_, rfl⟩ sound, fun err => ?_, fun err h => by cases h⟩
    exact iff_of_false (by rintro ⟨⟩) fun h => sound err h.1
  | @refused reported c' first leaves =>
    refine ⟨iff_of_false (by rintro ⟨_, ⟨⟩⟩) fun sound => sound _ first.1, fun err => ?_, ?_⟩
    · rw [Except.error.injEq]
      constructor
      · rintro rfl
        exact first
      · rintro ⟨hfault, hfirst⟩
        rcases hfirst _ first.1 with h | hlt
        · exact h
        · rcases first.2 _ hfault with h | hlt'
          · exact h.symm
          · omega
    · rintro err ⟨⟩
      exact leaves

/-- The unit uses the other one already, and the variable that is requested this time becomes a
symbol although the use is refused. -/
theorem refusals_contested :
    contested.Reachable ∧
      contested.FirstFault (.use ⟨1⟩ ⟨0⟩ (some "mapper"))
        (.duplicateUse "UserMapper" "AddressMapper") ∧
      contested.Leaves (.use ⟨1⟩ ⟨0⟩ (some "mapper")) (.duplicateUse "UserMapper" "AddressMapper")
        (contested.add (.use ⟨1⟩ ⟨0⟩ (some "mapper"))).2 ∧
      (contested.add (.use ⟨1⟩ ⟨0⟩ (some "mapper"))).2.symbols.strings =
        contested.symbols.strings ++ ["mapper"] := by
  have hc : contested.Reachable := reachable_ofEntries _
  have hadd : (contested.add (.use ⟨1⟩ ⟨0⟩ (some "mapper"))).1 =
      .error (.duplicateUse "UserMapper" "AddressMapper") := by decide +kernel
  obtain ⟨-, hfirst, hleaves⟩ := refusals_of_reachable hc (.use ⟨1⟩ ⟨0⟩ (some "mapper"))
  exact ⟨hc, (hfirst _).mp hadd, hleaves _ hadd, by decide +kernel⟩

/-- Of the two units that are unknown, the one that is needed first is reported. -/
example :
    ((contested.add (.use ⟨7⟩ ⟨8⟩ (some "mapper"))).1, (contested.add (.use ⟨7⟩ ⟨8⟩ none)).1) =
      (.error (.unknownUnit ⟨7⟩), .error (.unknownUnit ⟨8⟩)) := by decide +kernel

end Catalog

end MapperDelegation
