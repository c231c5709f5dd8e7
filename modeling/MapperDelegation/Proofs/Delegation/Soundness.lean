import MapperDelegation.Proofs.Delegation.Outcome

set_option relaxedAutoImplicit false
set_option autoImplicit false

/-!
# Soundness of generated bodies

A generated body is one call, and the call has to be right in every respect: it must be allowed
where it stands, it must fit the declaration around it, and its text must say just that. This file
puts the parts together: what a model guarantees about its units, what each pass of the search
demands of a candidate, how arguments are bound and how the call is rendered.

## Main definitions

* `Method.requestedName` — the first name that a delegating method asks for.
* `Method.GoesBy` — how a method is found by a name.
* `Reference.plainCall` — the text of a call without its receiver.
* `GeneratedMethod.Sound` — what makes a generated body right.

## Main results

* `Generator.sound_of_runUnit` — a run over a unit of a reachable model generates sound bodies only.
-/

namespace MapperDelegation

/-! ## Criteria and arguments -/

namespace Method

variable {m target : Method} {o : Options}

/-- The first name that the delegate annotation of a method asks for. -/
def requestedName (m : Method) : Option Symbol := m.delegate.bind (·.qualifyingNames.head?)

/-- A method goes by a name, which is compared with its identifier, its tag or either of them. -/
def GoesBy (m : Method) (matching : QualifierMatching) (name : Symbol) : Prop :=
  match matching with
  | .identifier => m.name = name
  | .namedTag => m.tag = some name
  | .identifierOrTag => m.name = name ∨ m.tag = some name

/-- A name asked for admits the methods that go by it. -/
lemma admits_byName_iff {name : Symbol} {matching : QualifierMatching} :
    (Qualifier.byName name).admits matching m ↔ m.GoesBy matching name := by
  cases matching <;> simp [Qualifier.admits, GoesBy]

/-- Without a name, a delegate has to agree in its signature. -/
lemma accepts_of_requestedName_eq_none (h : m.requestedName = none) :
    (o.criteriaFor m).accepts m target = m.compatible target := by
  unfold requestedName at h
  cases hd : m.delegate with
  | none => simp [Criteria.accepts, Options.criteriaFor, qualifier, hd]
  | some request =>
    have hnames : request.qualifyingNames.head? = none := by simpa [hd] using h
    cases htypes : request.qualifyingTypes.head? <;>
      simp [Criteria.accepts, Options.criteriaFor, qualifier, DelegateRequest.qualifier, hd,
        hnames, htypes]

/-- With a name, the name decides alone. -/
lemma accepts_iff_of_requestedName_eq_some {name : Symbol} (h : m.requestedName = some name) :
    (o.criteriaFor m).accepts m target ↔ target.GoesBy o.matching name := by
  rw [← admits_byName_iff]
  obtain ⟨request, hd, hname⟩ := Option.bind_eq_some_iff.mp h
  simp [Criteria.accepts, Options.criteriaFor, qualifier, DelegateRequest.qualifier, hd, hname]

/-- Methods that agree in their signatures take equally many arguments. -/
lemma take_paramNames_of_compatible (h : m.compatible target) :
    m.paramNames.take target.arity = m.paramNames := by
  obtain ⟨-, htypes⟩ := compatible_iff.mp h
  have harity : m.params.length = target.params.length := by
    simpa [paramTypes] using congrArg List.length htypes
  rw [arity, ← harity]
  exact List.take_of_length_le (by simp [paramNames])

/-- No more arguments are handed on than the method has parameters. -/
lemma take_paramNames : m.paramNames.take target.arity =
    m.paramNames.take (min target.arity m.arity) := by
  have hlength : m.paramNames.length = m.arity := by simp [paramNames, arity]
  rw [← hlength, List.take_eq_take_min]

end Method

/-! ## Texts -/

/-- The text of a call without its receiver. -/
def Reference.plainCall (symbols : SymbolTable) (r : Reference) : String :=
  symbols.lookup r.targetName ++ "( " ++
    ", ".intercalate (r.arguments.map symbols.lookup) ++ " )"

namespace Reference

variable {symbols : SymbolTable} {r : Reference}

/-- A method of the same unit is called without a receiver. -/
lemma callText_of_sameUnit (h : r.owner = .sameUnit) :
    r.callText symbols r.arguments = r.plainCall symbols := by
  simp [callText, plainCall, h, Owner.accessVariable, toString, String.append_assoc]

/-- A method of a used unit is called through the access variable. -/
lemma callText_of_usedUnit {use : UsedUnit} (h : r.owner = .usedUnit use) :
    r.callText symbols r.arguments =
      symbols.lookup use.accessVariable ++ "." ++ r.plainCall symbols := by
  simp [callText, plainCall, h, Owner.accessVariable, toString, String.append_assoc]

end Reference

namespace Body

variable {m : Method} {call : String}

/-- A body makes the call that it is put around. -/
@[simp] lemma call_around : (around m call).call = call := by
  unfold around
  split <;> rfl

/-- A body returns the value of its call unless the method is `void`. -/
lemma text_around : (around m call).text =
    if m.returnType.isVoid then (around m call).call ++ ";"
    else "return " ++ (around m call).call ++ ";" := by
  unfold around
  split <;> simp [text, Body.call, toString]

/-- The two forms of a body are never the same. -/
lemma text_around_eq_iff :
    (around m call).text = "return " ++ (around m call).call ++ ";" ↔
      m.returnType ≠ .void := by
  rw [text_around, call_around, TypeSymbol.isVoid]
  by_cases h : m.returnType = .void
  · have hlength : (call ++ ";").length ≠ ("return " ++ call ++ ";").length := by
      simp only [String.length_append]
      have : "return ".length = 7 := by decide
      omega
    simpa [h] using fun heq => hlength (congrArg String.length heq)
  · simp [h]

end Body

/-! ## Sound bodies -/

/-- The body that is generated for `method` in the unit `u`, which calls `target`, is right. -/
structure GeneratedMethod.Sound (g : GeneratedMethod) (c : Catalog) (o : Options) (u : UnitId)
    (method target : Method) : Prop where
  method_eq : c.model.method g.method = .ok method ∧ method.unit = u ∧ method.isDelegating
  target_eq : c.model.method g.reference.target = .ok target ∧
    g.reference.targetName = target.name
  /-- A method of another unit is public, and it is called through the one variable that the using
  unit binds to that unit. -/
  usedUnit : ∀ use, g.reference.owner = .usedUnit use →
    (∃ unit, c.model.unit u = .ok unit ∧ use ∈ unit.uses ∧
      ∀ other ∈ unit.uses, other.unit = target.unit → other = use) ∧
    target.unit = use.unit ∧ target.isPublic ∧ target.isMethod ∧
    g.body.call =
      c.symbols.lookup use.accessVariable ++ "." ++ g.reference.plainCall c.symbols
  /-- A method of the same unit is another one that neither is private nor delegates, and it is
  called without a receiver. -/
  sameUnit : g.reference.owner = .sameUnit →
    target.unit = u ∧ g.reference.target ≠ g.method ∧ target.isDelegating = false ∧
    target.isMethod ∧ target.visibility ≠ .unit ∧
    g.body.call = g.reference.plainCall c.symbols
  /-- Unless a name was asked for, the signatures agree and all parameters are handed on. -/
  unnamed : method.requestedName = none →
    target.paramTypes = method.paramTypes ∧ target.returnType = method.returnType ∧
    g.reference.arguments = method.paramNames
  /-- If a name was asked for, the method called goes by it, and as many parameters are handed on
  as both sides have. -/
  named : ∀ name, method.requestedName = some name →
    target.GoesBy o.matching name ∧
    g.reference.arguments = method.paramNames.take (min target.arity method.arity)
  returning : g.body.text = "return " ++ g.body.call ++ ";" ↔ method.returnType ≠ .void
  text : g.body.text =
    if method.returnType.isVoid then g.body.call ++ ";" else "return " ++ g.body.call ++ ";"

/-- A body around the call of an accepted candidate hands on the right arguments. -/
lemma arguments_of_accepts {o : Options} {source target : Member} (owner : Owner)
    (h : (o.criteriaFor source.method).accepts source.method target.method) :
    (source.method.requestedName = none →
      target.method.paramTypes = source.method.paramTypes ∧
      target.method.returnType = source.method.returnType ∧
      (Reference.ofTarget source.method target owner).arguments = source.method.paramNames) ∧
    ∀ name, source.method.requestedName = some name →
      target.method.GoesBy o.matching name ∧
      (Reference.ofTarget source.method target owner).arguments =
        source.method.paramNames.take (min target.method.arity source.method.arity) := by
  rw [Reference.arguments_ofTarget]
  constructor
  · intro hname
    rw [Method.accepts_of_requestedName_eq_none hname] at h
    obtain ⟨hreturn, htypes⟩ := Method.compatible_iff.mp h
    exact ⟨htypes.symm, hreturn.symm, Method.take_paramNames_of_compatible h⟩
  · intro name hname
    exact ⟨(Method.accepts_iff_of_requestedName_eq_some hname).mp h, Method.take_paramNames⟩

/-- The body that calls the delegate of a method is right.

**Proof sketch.** The delegate was found by one of the two passes, each of which vouches for where
it stands and for the criteria. The criteria settle the arguments, the place settles the receiver,
and the text follows from the form of the body. -/
lemma Scope.sound_generate {c : Catalog} {o : Options} {u : UnitId} {s : Scope}
    (hm : c.model.WellFormed) (hs : c.model.scope u = .ok s) {x : Member} (hx : x ∈ s.delegating)
    {chosen : Candidate} (hchosen : s.find (o.criteriaFor x.method) x = some chosen) :
    (s.generate c.symbols x chosen).Sound c o u x.method chosen.target.method := by
  obtain ⟨hmethod, hunit, hdelegating⟩ := (hm.mem_delegating_iff hs).mp hx
  have hcall : (s.generate c.symbols x chosen).body.call =
      (chosen.reference x.method).callText c.symbols (chosen.reference x.method).arguments :=
    Body.call_around
  rcases mem_of_find hchosen with hmem | hmem
  -- found in a used unit, which is used through one variable only
  · obtain ⟨unit, use, hunit', huse, howner, htarget, hused, hkind, hpublic, haccepts⟩ :=
      hm.of_mem_crossUnit hs hmem
    obtain ⟨hunnamed, hnamed⟩ := arguments_of_accepts chosen.owner haccepts
    refine ⟨⟨hmethod, hunit, hdelegating⟩, ⟨htarget, rfl⟩, ?_, ?_, hunnamed, hnamed,
      Body.text_around_eq_iff, Body.text_around⟩
    · intro use' howner'
      obtain rfl : use = use' := Owner.usedUnit.inj (howner.symm.trans howner')
      refine ⟨⟨unit, hunit', huse, ?_⟩, hused, hpublic, hkind, ?_⟩
      · intro other hother hsame
        exact List.inj_on_of_nodup_map (hm.unit hunit').used_nodup hother huse
          (hsame.trans hused)
      · rw [hcall]
        exact Reference.callText_of_usedUnit howner
    · intro howner'
      cases howner.symm.trans howner'
  -- found in the unit itself
  · obtain ⟨howner, htarget, hunit', hne, hplain, hkind, hshared, haccepts⟩ :=
      hm.of_mem_sameUnit hs hmem
    obtain ⟨hunnamed, hnamed⟩ := arguments_of_accepts chosen.owner haccepts
    refine ⟨⟨hmethod, hunit, hdelegating⟩, ⟨htarget, rfl⟩, ?_, ?_, hunnamed, hnamed,
      Body.text_around_eq_iff, Body.text_around⟩
    · intro use' howner'
      cases howner.symm.trans howner'
    · intro _
      refine ⟨hunit', hne, hplain, hkind, hshared, ?_⟩
      rw [hcall]
      exact Reference.callText_of_sameUnit howner

/-- **Soundness of generation**: a run over a unit of a reachable model succeeds, and each body it
generates is right.

**Proof sketch.** Every body of the report calls the delegate of a delegating member of the scope of
the unit, and the body of such a member is right. -/
theorem Generator.sound_of_runUnit {c : Catalog} (hc : c.Reachable) (g : Generator) {u : UnitId}
    (hu : u.index < c.model.units.length) :
    ∃ r g', g.runUnit c u = .ok (r, g') ∧
      ∀ body ∈ r.generated, ∃ method target, body.Sound c g.options u method target := by
  have hm := hc.wellFormed
  obtain ⟨r, g', hr⟩ := g.exists_runUnit hm hu
  refine ⟨r, g', hr, ?_⟩
  intro body hbody
  obtain ⟨s, hs, rfl, -⟩ := runUnit_eq_ok_iff.mp hr
  obtain ⟨x, hx, -, chosen, hchosen, rfl⟩ := Scope.mem_generated_ofVerdicts hbody
  exact ⟨_, _, Scope.sound_generate hm hs hx hchosen⟩

/-- A mapper of orders with one delegate in the unit that it uses and one of its own. The former is
asked for by its tag and takes fewer arguments than its caller has parameters. -/
def Catalog.orderMapping : Catalog := .ofEntries [
  .unit "com.PriceMapper" .unknown,
  .unit "com.OrderMapper" .unknown,
  .use ⟨1⟩ ⟨0⟩ (some "prices"),
  .method ⟨0⟩ (.ofClauses "round" [.param "p" "Price", .returns "Price", .tagged "exact"]),
  .method ⟨1⟩ (.ofClauses "total"
    [.param "price" "Price", .param "rate" "Rate", .returns "Total", .qualifiedByName "exact"]),
  .method ⟨1⟩ (.ofClauses "log" [.param "order" "Order", .implemented .default]),
  .method ⟨1⟩ (.ofClauses "audit" [.param "entry" "Order", .delegating])]

/-- The bodies of the mapper of orders are right. -/
theorem Generator.sound_orderMapping :
    Catalog.orderMapping.Reachable ∧ Catalog.orderMapping.model.units.length = 2 ∧
      ∃ r g', (start {}).runUnit .orderMapping ⟨1⟩ = .ok (r, g') ∧
        ∀ body ∈ r.generated, ∃ method target,
          body.Sound .orderMapping {} ⟨1⟩ method target :=
  ⟨Catalog.reachable_ofEntries _, by decide +kernel,
    sound_of_runUnit (Catalog.reachable_ofEntries _) (start {}) (by decide +kernel)⟩

/-- One call goes through the access variable and its value is returned, the other one is plain. -/
example : (Catalog.orderMapping.report {} ⟨1⟩).map (fun r => r.generated.map (·.body.text)) =
    .ok ["return prices.round( price );", "log( entry );"] := by decide +kernel

end MapperDelegation
