import MapperDelegation.Proofs.Mapper.Entering

set_option relaxedAutoImplicit false
set_option autoImplicit false

/-!
# The order of clauses

Clauses of different kinds amend a declaration independently of each other, even where they write
to the same place: the clauses about the delegate annotation share one record, which any of them
brings into being, and a tag leaves the naming directive among the others. A declaration therefore
depends on nothing but the clauses of each single kind in their order, and so does the method that
it introduces, down to the symbols that its strings get.

## Main definitions

* `ClauseKind`, `Clause.kind` — the kinds of clauses.
* `ClauseKind.asksForDelegate` — the kinds that make a method delegate.

## Main results

* `foldl_eq_foldl_of_filter_eq` — steps of different kinds commute, so that only the order within
  each kind matters.
* `Declaration.amend_comm` — clauses of different kinds do commute.
* `Declaration.apply_foldl_amend_of_or`, `Declaration.apply_foldl_amend_of_getD` — what becomes of
  a field that clauses switch on or replace.
* `Catalog.addMethod_of_filter_kind_eq` — declarations with the same clauses of each kind introduce
  the same method.
-/

namespace MapperDelegation

/-! ## Steps of different kinds -/

section Steps

variable {α β κ : Type} {kind : α → κ} {step : β → α → β}

/-- A step can be taken before some steps of other kinds. -/
lemma foldl_cons_of_kind_ne
    (hstep : ∀ {x y}, kind x ≠ kind y → ∀ b, step (step b x) y = step (step b y) x)
    {x : α} {before : List α} (hbefore : ∀ y ∈ before, kind y ≠ kind x) (after : List α) (b : β) :
    (before ++ x :: after).foldl step b = (before ++ after).foldl step (step b x) := by
  induction before generalizing b with
  | nil => rfl
  | cons y before ih =>
    obtain ⟨hy, hbefore⟩ := List.forall_mem_cons.mp hbefore
    calc (before ++ x :: after).foldl step (step b y)
      _ = (before ++ after).foldl step (step (step b y) x) := ih hbefore _
      _ = (before ++ after).foldl step (step (step b x) y) := by rw [hstep hy]

/-- If two lists have the same steps of each kind, the first step of one of them stands in the other
one after steps of other kinds only. The lists without it have the same steps of each kind again. -/
lemma exists_split_of_filter_eq [DecidableEq κ] {x : α} {xs ys : List α}
    (h : ∀ k, (x :: xs).filter (kind · = k) = ys.filter (kind · = k)) :
    ∃ before after, ys = before ++ x :: after ∧ (∀ y ∈ before, kind y ≠ kind x) ∧
      ∀ k, xs.filter (kind · = k) = (before ++ after).filter (kind · = k) := by
  have hx : ys.filter (kind · = kind x) = x :: xs.filter (kind · = kind x) := by
    rw [← h, List.filter_cons_of_pos (by simp)]
  obtain ⟨before, after, rfl, hbefore, -, -⟩ := List.filter_eq_cons_iff.mp hx
  have hother : ∀ y ∈ before, kind y ≠ kind x := fun y hy => by simpa using hbefore y hy
  refine ⟨before, after, rfl, hother, fun k => ?_⟩
  have hk := h k
  rw [List.filter_append, List.filter_cons, List.filter_cons] at hk
  rw [List.filter_append]
  split at hk
  case isFalse => exact hk
  case isTrue hkind =>
    -- the step itself is of the kind `k`, and nothing before it is
    have hnone : before.filter (kind · = k) = [] := by
      simpa [← of_decide_eq_true hkind] using hother
    rw [hnone] at hk ⊢
    exact List.tail_eq_of_cons_eq hk

/-- **Interleavings**: if steps of different kinds commute, lists with the same steps of each kind
lead to the same result.

**Proof sketch.** Induction on the first list. Its first step stands in the second list after steps
of other kinds only, and can be taken before these. -/
lemma foldl_eq_foldl_of_filter_eq [DecidableEq κ]
    (hstep : ∀ {x y}, kind x ≠ kind y → ∀ b, step (step b x) y = step (step b y) x)
    {xs ys : List α} (h : ∀ k, xs.filter (kind · = k) = ys.filter (kind · = k)) (b : β) :
    xs.foldl step b = ys.foldl step b := by
  induction xs generalizing ys b with
  | nil =>
    have hys : ys = [] := by
      refine List.eq_nil_iff_forall_not_mem.mpr fun y hy => ?_
      have hnil : ys.filter (kind · = kind y) = [] := (h (kind y)).symm
      simpa using List.filter_eq_nil_iff.mp hnil y hy
    rw [hys]
  | cons x xs ih =>
    obtain ⟨before, after, rfl, hother, hrest⟩ := exists_split_of_filter_eq h
    rw [foldl_cons_of_kind_ne hstep hother, List.foldl_cons]
    exact ih hrest _

end Steps

/-! ## Kinds of clauses -/

/-- The kinds of clauses. -/
inductive ClauseKind where
  | param
  | returns
  | tagged
  | delegating
  | qualifiedByName
  | qualifiedByType
  | delegatingAt
  | overriding
  | asConstructor
  | visibleTo
  | implemented
  | directive
  | declaredAt
deriving DecidableEq

/-- The kind of a clause. -/
def Clause.kind : Clause → ClauseKind
  | .param _ _ => .param
  | .returns _ => .returns
  | .tagged _ => .tagged
  | .delegating => .delegating
  | .qualifiedByName _ => .qualifiedByName
  | .qualifiedByType _ => .qualifiedByType
  | .delegatingAt _ => .delegatingAt
  | .overriding => .overriding
  | .asConstructor => .asConstructor
  | .visibleTo _ => .visibleTo
  | .implemented _ => .implemented
  | .directive _ => .directive
  | .declaredAt _ => .declaredAt

/-- Whether clauses of a kind are about the delegate annotation. -/
def ClauseKind.asksForDelegate : ClauseKind → Bool
  | delegating | qualifiedByName | qualifiedByType | delegatingAt => true
  | _ => false

/-- Directives can be recorded in any order. -/
lemma DirectiveSet.insert_comm (s : DirectiveSet) (a b : Directive) :
    (s.insert a).insert b = (s.insert b).insert a := by
  simp only [insert, BitVec.or_assoc, BitVec.or_comm (singleton a).bits]

namespace Declaration

/-! ## Amendments -/

/-- **Clauses of different kinds commute.** Most of them write to different fields. A tag and a
directive may both record a directive, and clauses about the delegate annotation write to different
fields of it after either of them has brought it into being. -/
lemma amend_comm {a b : Clause} (h : a.kind ≠ b.kind) (d : Declaration) :
    (d.amend a).amend b = (d.amend b).amend a := by
  cases a <;> cases b
  case tagged.directive tag kind => simp only [amend, d.directives.insert_comm]
  case directive.tagged kind tag => simp only [amend, d.directives.insert_comm]
  all_goals first
    | exact absurd rfl h
    | rfl

/-- A field that clauses can only switch on is on if one of them does so or it was on before. -/
lemma apply_foldl_amend_of_or (field : Declaration → Bool) {switch : Clause → Bool}
    (h : ∀ d clause, field (amend d clause) = (field d || switch clause))
    (d : Declaration) (clauses : List Clause) :
    field (clauses.foldl amend d) = (field d || clauses.any switch) := by
  induction clauses generalizing d with
  | nil => exact (Bool.or_false _).symm
  | cons clause clauses ih => rw [List.foldl_cons, ih, h, List.any_cons, Bool.or_assoc]

/-- Of the clauses that give a value to a field the last one counts. -/
lemma apply_foldl_amend_of_getD {α : Type} (field : Declaration → α) {value? : Clause → Option α}
    (h : ∀ d clause, field (amend d clause) = (value? clause).getD (field d))
    (d : Declaration) (clauses : List Clause) :
    field (clauses.foldl amend d) = (clauses.filterMap value?).getLast?.getD (field d) := by
  induction clauses generalizing d with
  | nil => rfl
  | cons clause clauses ih =>
    rw [List.foldl_cons, ih, h]
    cases hvalue : value? clause with
    | none => simp [hvalue]
    | some a => simp [hvalue, List.getLast?_cons]

/-- A clause asks for a delegate if its kind does so. -/
lemma delegate_isSome_amend (d : Declaration) (clause : Clause) :
    (d.amend clause).delegate.isSome = (d.delegate.isSome || clause.kind.asksForDelegate) := by
  cases clause <;>
    simp [amend, amendDelegate, Clause.kind, ClauseKind.asksForDelegate]

/-- A declaration asks for a delegate if one of its clauses does so. -/
lemma delegate_isSome_ofClauses (name : String) (clauses : List Clause) :
    (ofClauses name clauses).delegate.isSome ↔
      ∃ clause ∈ clauses, clause.kind.asksForDelegate := by
  rw [ofClauses, apply_foldl_amend_of_or (·.delegate.isSome) delegate_isSome_amend]
  simp

/-- Declarations with the same clauses of each kind are the same. -/
lemma ofClauses_of_filter_kind_eq {clauses clauses' : List Clause}
    (h : ∀ kind, clauses.filter (·.kind = kind) = clauses'.filter (·.kind = kind))
    (name : String) : ofClauses name clauses = ofClauses name clauses' :=
  foldl_eq_foldl_of_filter_eq (fun hkind d => d.amend_comm hkind) h _

/-- The method of a declaration delegates if the declaration asks for it. -/
lemma isDelegating_asMethod (d : Declaration) (u : UnitId) (symbolOf : String → Symbol) :
    (d.asMethod u symbolOf).isDelegating = d.delegate.isSome :=
  Option.isSome_map

end Declaration

/-! ## Methods -/

namespace Catalog

/-- **The order of clauses**: if two lists have the same clauses of each kind in the same order,
however those of different kinds are interleaved, then the declaration of a method by the one or
the other has the same outcome in every catalogue: the same answer, the same table of symbols, and
the same model. If the unit is known, the answer is the handle of a method, and this method
delegates if and only if one of the clauses is about the delegate annotation.

**Proof sketch.** Clauses of different kinds commute, so the declarations are the same. Any clause
about the delegate annotation brings it into being, and no clause takes it away. -/
theorem addMethod_of_filter_kind_eq {clauses clauses' : List Clause}
    (h : ∀ kind, clauses.filter (·.kind = kind) = clauses'.filter (·.kind = kind))
    (c : Catalog) (u : UnitId) (name : String) :
    c.addMethod u (.ofClauses name clauses') = c.addMethod u (.ofClauses name clauses) ∧
      ∀ unit, c.knownUnit u = .ok unit → ∃ id c' method,
        c.addMethod u (.ofClauses name clauses) = (.ok id, c') ∧
        c'.model.method id = .ok method ∧
        (method.isDelegating ↔ ∃ clause ∈ clauses, clause.kind.asksForDelegate) := by
  refine ⟨by rw [Declaration.ofClauses_of_filter_kind_eq h], fun unit hunit => ?_⟩
  refine ⟨_, _, _, addMethod_eq hunit (List.prefix_refl _),
    Model.method_addMethod_iff.mpr (.inr ⟨rfl, rfl⟩), ?_⟩
  rw [Declaration.isDelegating_asMethod, Declaration.delegate_isSome_ofClauses]

/-- The clauses of a declaration, kind by kind. -/
def groupedClauses : List Clause :=
  [.param "order" "Order", .param "rate" "Rate", .returns "void", .returns "Total",
    .tagged "total", .qualifiedByName "exact", .qualifiedByName "Rate", .qualifiedByType "Exact",
    .delegatingAt ⟨4, 8⟩, .implemented .concrete, .implemented .abstract,
    .directive .mapping, .directive .named]

/-- The same clauses in an order that separates those of the same kind. -/
def shuffledClauses : List Clause :=
  [.directive .mapping, .qualifiedByName "exact", .implemented .concrete, .returns "void",
    .param "order" "Order", .delegatingAt ⟨4, 8⟩, .directive .named, .qualifiedByType "Exact",
    .tagged "total", .qualifiedByName "Rate", .param "rate" "Rate", .implemented .abstract,
    .returns "Total"]

/-- A mapper gets the same method either way, and the method delegates. -/
theorem addMethod_shuffledClauses :
    (ofEntries [.unit "com.OrderMapper" .unknown]).addMethod ⟨0⟩
        (.ofClauses "total" shuffledClauses) =
      (ofEntries [.unit "com.OrderMapper" .unknown]).addMethod ⟨0⟩
        (.ofClauses "total" groupedClauses) ∧
      ∃ id c' method,
        (ofEntries [.unit "com.OrderMapper" .unknown]).addMethod ⟨0⟩
          (.ofClauses "total" groupedClauses) = (.ok id, c') ∧
        c'.model.method id = .ok method ∧ method.isDelegating := by
  have hkinds : ∀ kind, groupedClauses.filter (·.kind = kind) =
      shuffledClauses.filter (·.kind = kind) := by
    intro kind
    cases kind <;> rfl
  obtain ⟨hsame, hknown⟩ := addMethod_of_filter_kind_eq hkinds
    (ofEntries [.unit "com.OrderMapper" .unknown]) ⟨0⟩ "total"
  obtain ⟨id, c', method, hadd, hmethod, hdelegating⟩ := hknown _ rfl
  exact ⟨hsame, id, c', method, hadd, hmethod,
    hdelegating.mpr ⟨.qualifiedByName "exact", by decide, rfl⟩⟩

end Catalog

end MapperDelegation
