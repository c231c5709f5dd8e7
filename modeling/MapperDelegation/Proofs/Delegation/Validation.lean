import MapperDelegation.Delegation.Problem
import MapperDelegation.Proofs.Delegation.Emission
import MapperDelegation.Proofs.Mapper.Signature

set_option relaxedAutoImplicit false
set_option autoImplicit false

/-!
# The validation of declared methods

A method is validated by the body and the directives that its declaration has left behind. Bodies
overwrite each other, while directives accumulate, and a tag records a directive as well. The
result can nevertheless be read off the clauses: it depends on the last one about a body and on
which directives were recorded at all, not on when or how often.

## Main definitions

* `Clause.lastBody?` — the body that some clauses leave behind.
* `Clause.records` — whether a clause records a directive.
* `Method.ValidatedAs` — a method is validated as some clauses say.

## Main results

* `Declaration.implementation_ofClauses`, `Declaration.has_directives_ofClauses` — the body and the
  directives that some clauses leave behind.
* `Method.validate_eq_ok_iff`, `Method.exists_hasBody_iff`, `Method.exists_conflicting_iff` — when a
  validation has which result.
* `Catalog.validatedAs_of_add` — declared methods are validated as their clauses say.
-/

namespace MapperDelegation

/-! ## What clauses leave behind -/

namespace Clause

/-- The body that a clause gives to a method. -/
def body? : Clause → Option Implementation
  | .implemented implementation => some implementation
  | _ => none

/-- The body that was given last. -/
def lastBody? (clauses : List Clause) : Option Implementation := (clauses.filterMap body?).getLast?

/-- Whether a clause records a directive. A tag records the naming one. -/
def records : Clause → Directive → Bool
  | .directive kind, d => kind = d
  | .tagged _, d => .named = d
  | _, _ => false

/-- A directive that prescribes a body is recorded as such, since a tag does not record it. -/
lemma any_records_iff {clauses : List Clause} {kind : Directive} (h : kind ≠ .named) :
    clauses.any (·.records kind) ↔ .directive kind ∈ clauses := by
  rw [List.any_eq_true]
  constructor
  · rintro ⟨clause, hclause, hrecords⟩
    cases clause
    case directive d => rwa [← of_decide_eq_true hrecords]
    case tagged tag => exact absurd (of_decide_eq_true hrecords).symm h
    all_goals contradiction
  · exact fun hkind => ⟨_, hkind, decide_eq_true rfl⟩

end Clause

namespace Declaration

/-- A clause replaces the body by its own, if it has one. -/
lemma implementation_amend (d : Declaration) (clause : Clause) :
    (d.amend clause).implementation = clause.body?.getD d.implementation := by
  cases clause <;> rfl

/-- A clause adds the directive that it records, and takes none away. -/
lemma has_directives_amend (kind : Directive) (d : Declaration) (clause : Clause) :
    (d.amend clause).directives.has kind = (d.directives.has kind || clause.records kind) := by
  cases clause <;> simp [amend, amendDelegate, Clause.records]

/-- The body is the one that was given last. Without any, a declaration is abstract. -/
lemma implementation_ofClauses (name : String) (clauses : List Clause) :
    (ofClauses name clauses).implementation = (Clause.lastBody? clauses).getD .abstract :=
  apply_foldl_amend_of_getD (·.implementation) implementation_amend _ clauses

/-- The directives are those that were recorded. -/
lemma has_directives_ofClauses (name : String) (clauses : List Clause) (kind : Directive) :
    (ofClauses name clauses).directives.has kind = clauses.any (·.records kind) := by
  rw [ofClauses, apply_foldl_amend_of_or (·.directives.has kind) (has_directives_amend kind),
    DirectiveSet.has_empty, Bool.false_or]

end Declaration

/-! ## Results of a validation -/

/-- The directives of a set are listed in their fixed order, each once. -/
lemma DirectiveSet.pairwise_place_kinds (s : DirectiveSet) :
    s.kinds.Pairwise fun a b => a.place < b.place := by
  have hall : Directive.all.Pairwise fun a b => a.place < b.place := by decide
  exact hall.filter _

namespace Method

variable {m : Method}

/-- A problem that is found by a validation concerns the method that is validated. -/
lemma eq_problem_of_validate {p : Problem} (h : m.validate = .error p) : p = m.problem p.cause := by
  rcases m.eq_of_validate h with rfl | rfl <;> rfl

/-- A directive is in the way if it is not the naming one. -/
lemma hasConflictingDirective_iff :
    m.hasConflictingDirective ↔ ∃ kind, m.directives.has kind ∧ kind ≠ .named := by
  simp [hasConflictingDirective_eq, DirectiveSet.mem_kinds, Directive.prescribesBody]

/-- A validation succeeds if the method is abstract and no directive is in the way. -/
lemma validate_eq_ok_iff :
    m.validate = .ok () ↔ m.implementation = .abstract ∧ ¬ m.hasConflictingDirective := by
  rcases m.validate_cases with ⟨hbody, h⟩ | ⟨-, hconflict, h⟩ | ⟨hbody, hconflict, h⟩
  · simp [h, hbody]
  · simp [h, hconflict]
  · simp [h, hbody, hconflict]

/-- A body is reported whatever the directives are. -/
lemma exists_hasBody_iff {body : Implementation} :
    (∃ p, m.validate = .error p ∧ p.cause = .hasBody body) ↔
      m.implementation = body ∧ body ≠ .abstract := by
  rcases m.validate_cases with ⟨hbody, h⟩ | ⟨hbody, -, h⟩ | ⟨hbody, -, h⟩
  · have hcause : (∃ p, m.validate = .error p ∧ p.cause = .hasBody body) ↔
        m.implementation = body := by
      simp [h, problem]
    rw [hcause]
    exact ⟨fun hsame => ⟨hsame, hsame ▸ hbody⟩, And.left⟩
  · simpa [h, problem, hbody] using Eq.symm
  · simpa [h, hbody] using Eq.symm

/-- Directives are reported for abstract methods only, and then all of those that are in the way. -/
lemma exists_conflicting_iff {ds : DirectiveSet} :
    (∃ p, m.validate = .error p ∧ p.cause = .conflictingDirectives ds) ↔
      m.implementation = .abstract ∧ m.hasConflictingDirective ∧ m.directives.conflicting = ds := by
  rcases m.validate_cases with ⟨hbody, h⟩ | ⟨hbody, hconflict, h⟩ | ⟨-, hconflict, h⟩
  · simp [h, problem, hbody]
  · simp [h, problem, hbody, hconflict]
  · simp [h, hconflict]

end Method

/-! ## Validation by clauses -/

/-- The method `m` is validated as the clauses of its declaration say. -/
structure Method.ValidatedAs (m : Method) (clauses : List Clause) : Prop where
  /-- It passes if the last body is none and no clause records a directive but the naming one. -/
  ok_iff : m.validate = .ok () ↔
    (∀ body, Clause.lastBody? clauses = some body → body = .abstract) ∧
      ∀ kind, .directive kind ∈ clauses → kind = .named
  /-- The last body is reported if it is one, whatever the directives are. -/
  hasBody_iff : ∀ body, (∃ p, m.validate = .error p ∧ p.cause = .hasBody body) ↔
    Clause.lastBody? clauses = some body ∧ body ≠ .abstract
  /-- Otherwise directives are reported if there are any but the naming one. -/
  conflicting_iff : (∃ p ds, m.validate = .error p ∧ p.cause = .conflictingDirectives ds) ↔
    (∀ body, Clause.lastBody? clauses = some body → body = .abstract) ∧
      ∃ kind, .directive kind ∈ clauses ∧ kind ≠ .named
  /-- The report lists the directives that were recorded, without the naming one, in their fixed
  order and each once. -/
  kinds : ∀ p ds, m.validate = .error p → p.cause = .conflictingDirectives ds →
    ds.kinds.Pairwise (fun a b => a.place < b.place) ∧
      ∀ kind, kind ∈ ds.kinds ↔ .directive kind ∈ clauses ∧ kind ≠ .named
  /-- A problem is one with this method. -/
  problem_eq : ∀ p, m.validate = .error p → p = m.problem p.cause

namespace Method

variable {m : Method} {clauses : List Clause}

/-- **Validation by clauses**: it is enough that the clauses have left behind the body and the
directives of the method.

**Proof sketch.** A method is abstract if the last body is none, and the directives in the way are
recorded by directive clauses. What remains are the results of a validation. -/
lemma ValidatedAs.of_attributes
    (hbody : m.implementation = (Clause.lastBody? clauses).getD .abstract)
    (hhas : ∀ kind, m.directives.has kind = clauses.any (·.records kind)) :
    m.ValidatedAs clauses := by
  have habstract : m.implementation = .abstract ↔
      ∀ body, Clause.lastBody? clauses = some body → body = .abstract := by
    rw [hbody]
    cases Clause.lastBody? clauses <;> simp
  have hconflict : m.hasConflictingDirective ↔
      ∃ kind, .directive kind ∈ clauses ∧ kind ≠ .named := by
    rw [hasConflictingDirective_iff]
    refine exists_congr fun kind => and_congr_left fun hkind => ?_
    rw [hhas, Clause.any_records_iff hkind]
  refine ⟨?ok, fun body => ?hasBody, ?conflicting, fun p ds hp hds => ?kinds, ?problem⟩
  case ok =>
    rw [validate_eq_ok_iff, habstract, hconflict]
    push Not
    rfl
  case hasBody =>
    rw [exists_hasBody_iff, hbody]
    refine and_congr_left fun hne => ?_
    cases Clause.lastBody? clauses with
    | none => simpa using hne.symm
    | some last => simp
  case conflicting =>
    rw [exists_comm, exists_congr fun ds => exists_conflicting_iff, ← habstract, ← hconflict]
    simp
  case kinds =>
    obtain ⟨-, -, rfl⟩ := exists_conflicting_iff.mp ⟨p, hp, hds⟩
    refine ⟨DirectiveSet.pairwise_place_kinds _, fun kind => ?_⟩
    rw [DirectiveSet.mem_kinds, DirectiveSet.has_conflicting, Bool.and_eq_true,
      Directive.prescribesBody, decide_eq_true_iff]
    refine and_congr_left fun hkind => ?_
    rw [hhas, Clause.any_records_iff hkind]
  case problem => exact fun p hp => eq_problem_of_validate hp

end Method

/-- The method of a declaration is validated as its clauses say. -/
lemma Declaration.validatedAs_asMethod (name : String) (clauses : List Clause) (u : UnitId)
    (symbolOf : String → Symbol) :
    ((ofClauses name clauses).asMethod u symbolOf).ValidatedAs clauses :=
  .of_attributes (implementation_ofClauses name clauses) (has_directives_ofClauses name clauses)

/-! ## Declared methods -/

namespace Catalog

/-- **Declared methods are validated as their clauses say**: a declaration for a known unit is
accepted, whatever its clauses are. The validation of its method succeeds, at that time and after
any further entries, exactly if the last clause about a body leaves it without one and no directive
clause records another directive than the naming one. If the last body is one, it is reported,
whatever the directives are. Otherwise the report lists the directives that were recorded, without
the naming one, in their fixed order and each once.

**Proof sketch.** The body and the directives of the method are those that the clauses leave behind,
and further entries do not touch it. -/
theorem validatedAs_of_add {c : Catalog} {u : UnitId} {unit : MapperUnit}
    (hunit : c.knownUnit u = .ok unit) (name : String) (clauses : List Clause) :
    ∃ id, (c.add (.method u (.ofClauses name clauses))).1 = .ok (.method id) ∧
      ∀ added c', (c.add (.method u (.ofClauses name clauses))).2.Leads added c' →
        ∃ m, c'.model.method id = .ok m ∧ m.ValidatedAs clauses := by
  have hadd : (c.add (.method u (.ofClauses name clauses))).1 =
      .ok (.method c.model.nextMethod) := by
    rw [add_method_eq hunit]
  refine ⟨c.model.nextMethod, hadd, fun added c' hleads => ?_⟩
  exact ⟨_, hleads.grownBy.method (method_of_add hadd).2,
    Declaration.validatedAs_asMethod name clauses u _⟩

/-- Clauses with several bodies, of which the last one is none, and with directives that are
recorded repeatedly and out of their order. -/
def overwrittenClauses : List Clause :=
  [.implemented .concrete, .directive .valueMapping, .tagged "total", .delegating,
    .directive .mapping, .implemented .default, .directive .named, .directive .valueMapping,
    .implemented .abstract]

/-- The two directives that prescribe a body are reported, and neither the bodies nor the tag. -/
theorem validatedAs_overwrittenClauses :
    ∃ id, ((ofEntries [.unit "com.OrderMapper" .unknown]).add
        (.method ⟨0⟩ (.ofClauses "total" overwrittenClauses))).1 = .ok (.method id) ∧
      ∃ m, ((ofEntries [.unit "com.OrderMapper" .unknown]).add
        (.method ⟨0⟩ (.ofClauses "total" overwrittenClauses))).2.model.method id = .ok m ∧
        (∃ p ds, m.validate = .error p ∧ p.cause = .conflictingDirectives ds ∧
          ds.kinds.Pairwise (fun a b => a.place < b.place) ∧
          ∀ kind, kind ∈ ds.kinds ↔ kind = .mapping ∨ kind = .valueMapping) ∧
        ¬ ∃ body p, m.validate = .error p ∧ p.cause = .hasBody body := by
  obtain ⟨id, hadd, hleads⟩ := validatedAs_of_add
    (c := ofEntries [.unit "com.OrderMapper" .unknown]) (u := ⟨0⟩) rfl "total" overwrittenClauses
  obtain ⟨m, hmethod, hvalid⟩ := hleads _ _ .refl
  refine ⟨id, hadd, m, hmethod, ?_, ?_⟩
  · obtain ⟨p, ds, hp, hds⟩ := hvalid.conflicting_iff.mpr
      ⟨fun body hbody => (Option.some.inj hbody).symm, .mapping, by decide, by decide⟩
    obtain ⟨hordered, hmem⟩ := hvalid.kinds p ds hp hds
    refine ⟨p, ds, hp, hds, hordered, fun kind => (hmem kind).trans ?_⟩
    cases kind <;> decide
  · rintro ⟨body, hbody⟩
    obtain ⟨hlast, hne⟩ := (hvalid.hasBody_iff body).mp hbody
    exact hne (Option.some.inj hlast).symm

end Catalog

end MapperDelegation
