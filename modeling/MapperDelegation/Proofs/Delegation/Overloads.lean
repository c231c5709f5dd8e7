import Mathlib.Data.List.TakeDrop
import MapperDelegation.Proofs.Delegation.Soundness

set_option relaxedAutoImplicit false
set_option autoImplicit false

/-!
# Bodies that call their own method

A method is never chosen as its own delegate, but the call in a generated body tells only the name
of the delegate and the arguments. If no two methods of a unit agree in their name and in the types
of their parameters, a delegate without a name that was asked for cannot be confused with the
delegating method: it agrees in the types of all parameters and must have another name. A name that
is asked for decides alone, whatever the parameters are. The delegate may then be an overload of the
delegating method itself, and if all parameters of the latter are handed on to it, the text of the
call is one of a call of the delegating method.

## Main definitions

* `Method.key`, `Model.DistinctKeys` — what tells a method from the others of its unit in a
  declaration.
* `GeneratedMethod.CallsItself` — a generated body calls a method of the name of its own with all
  its own parameters.

## Main results

* `GeneratedMethod.Sound.callsItself_iff` — a body that is right calls its own method exactly if its
  delegate is an overload that was asked for by name and takes all parameters.
* `Generator.callsItself_of_runUnit` — the same for all the bodies of a run.
-/

namespace MapperDelegation

/-! ## Overloads -/

/-- What tells a method from all others: its unit, its name, and the types of its parameters. -/
def Method.key (m : Method) : UnitId × Symbol × List TypeSymbol := (m.unit, m.name, m.paramTypes)

/-- No unit declares two methods of the same name and with the same types of parameters. -/
def Model.DistinctKeys (m : Model) : Prop := (m.methods.map (·.key)).Nodup

instance (m : Model) : Decidable m.DistinctKeys :=
  inferInstanceAs (Decidable (List.Nodup _))

/-- Methods that agree in unit, name and types of parameters are the same. -/
lemma Model.DistinctKeys.eq_of_key_eq {m : Model} (h : m.DistinctKeys) {a b : MethodId}
    {x y : Method} (ha : m.method a = .ok x) (hb : m.method b = .ok y) (hkey : x.key = y.key) :
    a = b := by
  rw [method_eq_ok_iff] at ha hb
  have hlt : a.index < (m.methods.map (·.key)).length := by
    rw [List.length_map]
    exact (List.getElem?_eq_some_iff.mp ha).1
  have hindex : a.index = b.index := by
    rw [← List.getElem?_inj hlt h, List.getElem?_map, List.getElem?_map, ha, hb, Option.map_some,
      Option.map_some, hkey]
  obtain ⟨i⟩ := a
  obtain ⟨j⟩ := b
  exact congrArg MethodId.mk hindex

/-! ## Calls of the own method -/

namespace GeneratedMethod

variable {g : GeneratedMethod} {c : Catalog} {o : Options} {u : UnitId} {method target : Method}

/-- The call in a generated body has the name of the method itself and all its parameters as the
arguments, in their order. -/
def CallsItself (g : GeneratedMethod) (method : Method) : Prop :=
  g.reference.targetName = method.name ∧ g.reference.arguments = method.paramNames

instance (g : GeneratedMethod) (method : Method) : Decidable (g.CallsItself method) :=
  inferInstanceAs (Decidable (_ ∧ _))

namespace Sound

variable (h : g.Sound c o u method target) (hsame : g.reference.owner = .sameUnit)
  (hdistinct : c.model.DistinctKeys)
include h hsame hdistinct

/-- A delegate of the same name in the same unit takes other types of parameters. -/
lemma paramTypes_ne (hname : target.name = method.name) :
    target.paramTypes ≠ method.paramTypes := by
  intro htypes
  obtain ⟨hmethod, hunit, -⟩ := h.method_eq
  obtain ⟨hunit', hne, -⟩ := h.sameUnit hsame
  apply hne
  refine hdistinct.eq_of_key_eq h.target_eq.1 hmethod ?_
  rw [Method.key, Method.key, hunit, hunit', hname, htypes]

/-- A body calls its own method exactly if the delegate is an overload of the method that was asked
for by name and takes at least as many parameters.

**Proof sketch.** Without a name that is asked for, the delegate agrees in the types of parameters,
so it has another name. With one, as many parameters are handed on as both sides have. -/
lemma callsItself_iff : g.CallsItself method ↔
    ∃ name, method.requestedName = some name ∧ target.GoesBy o.matching name ∧
      target.name = method.name ∧ target.paramTypes ≠ method.paramTypes ∧
      method.arity ≤ target.arity := by
  have htargetName := h.target_eq.2
  constructor
  · rintro ⟨hname, harguments⟩
    rw [htargetName] at hname
    have htypes := h.paramTypes_ne hsame hdistinct hname
    cases hrequested : method.requestedName with
    | none => exact absurd (h.unnamed hrequested).1 htypes
    | some name =>
      obtain ⟨hgoes, htake⟩ := h.named name hrequested
      refine ⟨name, rfl, hgoes, hname, htypes, ?_⟩
      rw [harguments, eq_comm, List.take_eq_self_iff] at htake
      have hlength : method.paramNames.length = method.arity := List.length_map _
      omega
  · rintro ⟨name, hrequested, -, hname, -, harity⟩
    refine ⟨htargetName.trans hname, ?_⟩
    rw [(h.named name hrequested).2, Nat.min_eq_right harity, List.take_eq_self_iff]
    exact Nat.le_of_eq (List.length_map _)

end Sound

end GeneratedMethod

/-- **Calls of the own method**: a run over a unit of a reachable model in which no unit declares
two methods of one name and with the same types of parameters succeeds. A body it generates with a
delegate in the same unit calls its own method exactly if the method asks for a name and its
delegate, which goes by it, is an overload of the method with at least as many parameters.

**Proof sketch.** Every generated body is right, and for those that are the statement was shown. -/
theorem Generator.callsItself_of_runUnit {c : Catalog} (hc : c.Reachable)
    (hdistinct : c.model.DistinctKeys) (g : Generator) {u : UnitId}
    (hu : u.index < c.model.units.length) :
    ∃ r g', g.runUnit c u = .ok (r, g') ∧
      ∀ body ∈ r.generated, body.reference.owner = .sameUnit →
        ∃ method target, c.model.method body.method = .ok method ∧
          c.model.method body.reference.target = .ok target ∧
          (body.CallsItself method ↔
            ∃ name, method.requestedName = some name ∧ target.GoesBy g.options.matching name ∧
              target.name = method.name ∧ target.paramTypes ≠ method.paramTypes ∧
              method.arity ≤ target.arity) := by
  have hm := hc.wellFormed
  obtain ⟨r, g', hr⟩ := g.exists_runUnit hm hu
  refine ⟨r, g', hr, fun body hbody hsame => ?_⟩
  obtain ⟨s, hs, rfl, -⟩ := runUnit_eq_ok_iff.mp hr
  obtain ⟨x, hx, -, chosen, hchosen, rfl⟩ := Scope.mem_generated_ofVerdicts hbody
  have hsound := Scope.sound_generate hm hs hx hchosen
  exact ⟨_, _, hsound.method_eq.1, hsound.target_eq.1, hsound.callsItself_iff hsame hdistinct⟩

/-- A mapper with two overloads, one of which asks for a delegate of its own name. -/
def Catalog.overloadMapping : Catalog := .ofEntries [
  .unit "com.OrderMapper" .unknown,
  .method ⟨0⟩ (.ofClauses "toDto"
    [.param "order" "Order", .returns "OrderDto", .qualifiedByName "toDto"]),
  .method ⟨0⟩ (.ofClauses "toDto"
    [.param "item" "Item", .returns "ItemDto", .implemented .default])]

/-- The bodies of the mapper with two overloads that call their own method. -/
theorem Generator.callsItself_overloadMapping :
    Catalog.overloadMapping.Reachable ∧ Catalog.overloadMapping.model.DistinctKeys ∧
      Catalog.overloadMapping.model.units.length = 1 ∧
      ∃ r g', (start {}).runUnit .overloadMapping ⟨0⟩ = .ok (r, g') ∧
        ∀ body ∈ r.generated, body.reference.owner = .sameUnit →
          ∃ method target, Catalog.overloadMapping.model.method body.method = .ok method ∧
            Catalog.overloadMapping.model.method body.reference.target = .ok target ∧
            (body.CallsItself method ↔
              ∃ name, method.requestedName = some name ∧ target.GoesBy .identifierOrTag name ∧
                target.name = method.name ∧ target.paramTypes ≠ method.paramTypes ∧
                method.arity ≤ target.arity) := by
  have hdistinct : Catalog.overloadMapping.model.DistinctKeys := by decide +kernel
  exact ⟨Catalog.reachable_ofEntries _, hdistinct, by decide +kernel,
    callsItself_of_runUnit (Catalog.reachable_ofEntries _) hdistinct (start {}) (by decide +kernel)⟩

/-- The only body of the mapper with two overloads calls its own method: the overload that was
chosen takes a parameter of another type. -/
theorem Generator.exists_callsItself_overloadMapping :
    Catalog.overloadMapping.Reachable ∧ Catalog.overloadMapping.model.DistinctKeys ∧
      ∃ r g' body method, (start {}).runUnit .overloadMapping ⟨0⟩ = .ok (r, g') ∧
        body ∈ r.generated ∧ body.reference.owner = .sameUnit ∧
        Catalog.overloadMapping.model.method body.method = .ok method ∧
        body.CallsItself method ∧ body.body.text = "return toDto( order );" := by
  have hc : Catalog.overloadMapping.Reachable := Catalog.reachable_ofEntries _
  obtain ⟨r, g', hr⟩ := (start {}).exists_runUnit hc.wellFormed (u := ⟨0⟩) (by decide +kernel)
  have hmethod : Catalog.overloadMapping.model.method ⟨0⟩ =
      .ok (Catalog.overloadMapping.model.methods.get ⟨0, by decide +kernel⟩) := by decide +kernel
  have hbody : ((start {}).runUnit .overloadMapping ⟨0⟩).map (fun r =>
      decide (∃ body ∈ r.1.generated, body.method = ⟨0⟩ ∧ body.reference.owner = .sameUnit ∧
        body.CallsItself (Catalog.overloadMapping.model.methods.get ⟨0, by decide +kernel⟩) ∧
        body.body.text = "return toDto( order );")) = .ok true := by decide +kernel
  rw [hr] at hbody
  obtain ⟨body, hbody, hid, hsame, hcalls, htext⟩ := of_decide_eq_true (Except.ok.inj hbody)
  rw [← hid] at hmethod
  exact ⟨hc, by decide +kernel, r, g', body, _, hr, hbody, hsame, hmethod, hcalls, htext⟩

end MapperDelegation
