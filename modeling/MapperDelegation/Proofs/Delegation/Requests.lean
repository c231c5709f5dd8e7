import Mathlib.Data.List.Chain
import MapperDelegation.Delegation.Pipeline

set_option relaxedAutoImplicit false
set_option autoImplicit false

/-!
# Requests for stages

A method comes from one stage to the next by requests, of which some are granted and some refused.
Every stage that is granted lies one step farther from the declaration than the one before. However
the requests are mixed, the stages that a method passes through are therefore different ones, there
are few of them, and a method that has come to a last stage stays there.

## Main definitions

* `Stage.depth` — the number of steps that lead from the declaration to a stage.
* `Stage.answers`, `Stage.afterRequests` — the answers to some requests, and the stage after them.
* `Stage.passed` — the stages that a method passes through.
* `Stage.PathOf` — what comes of some requests.

## Main results

* `Pipeline.run_advance` — an examination asks for stages by such requests.
* `Stage.isChain_passed`, `Stage.pairwise_depth_passed` — a method takes allowed steps only, and
  each of them leads farther.
* `Stage.path_of_requests` — any requests that are made from the declaration on lead along a path.
-/

namespace MapperDelegation

namespace Stage

variable {s goal : Stage} {goals : List Stage}

/-! ## Depth -/

/-- The number of steps that lead from the declaration to a stage. -/
def depth : Stage → ℕ
  | declared => 0
  | validated | rejected => 1
  | resolving => 2
  | resolved | unresolved => 3
  | rendered => 4

/-- No stage lies farther from the declaration than the rendered body. -/
lemma depth_le (s : Stage) : s.depth ≤ 4 := by cases s <;> decide

/-- A step leads away from the declaration. -/
lemma depth_of_canAdvance (h : s.canAdvance goal) : goal.depth = s.depth + 1 := by
  revert h
  cases s <;> cases goal <;> decide

/-- No step leads away from a last stage. -/
lemma canAdvance_of_isTerminal (h : s.isTerminal) (goal : Stage) : s.canAdvance goal = false := by
  have hnext : s.next = [] := s.isTerminal_iff.mp h
  simpa using List.filter_eq_nil_iff.mp hnext goal (mem_all goal)

/-! ## Single requests -/

lemma advance_of_canAdvance (h : s.canAdvance goal) : s.advance goal = .ok goal := if_pos h

lemma advance_of_not_canAdvance (h : s.canAdvance goal = false) :
    s.advance goal = .error ⟨s, goal⟩ := by
  simp [advance, h]

lemma afterRequest_of_canAdvance (h : s.canAdvance goal) : s.afterRequest goal = goal := if_pos h

lemma afterRequest_of_not_canAdvance (h : s.canAdvance goal = false) : s.afterRequest goal = s := by
  simp [afterRequest, h]

/-- A granted request leads to the stage that was asked for, by an allowed step. -/
lemma advance_eq_ok_iff {t : Stage} :
    s.advance goal = .ok t ↔ t = goal ∧ s.canAdvance goal := by
  cases h : s.canAdvance goal with
  | true => simp [advance_of_canAdvance h, eq_comm]
  | false => simp [advance_of_not_canAdvance h]

/-- A refusal tells the stage at hand and the one that was asked for. -/
lemma advance_eq_error_iff {e : TransitionError} :
    s.advance goal = .error e ↔ e = ⟨s, goal⟩ ∧ s.canAdvance goal = false := by
  cases h : s.canAdvance goal with
  | true => simp [advance_of_canAdvance h]
  | false => simp [advance_of_not_canAdvance h, eq_comm]

end Stage

/-- An examination asks for stages by such requests, and is ended by a refusal. -/
lemma Pipeline.run_advance (goal : Stage) (before : Progress) :
    (Pipeline.advance goal).run before =
      match before.stage.advance goal with
      | .ok _ => .ok () { before with stage := before.stage.afterRequest goal }
      | .error e => .error e { before with stage := before.stage.afterRequest goal } := by
  unfold Pipeline.advance
  rw [EStateM.run_bind, EStateM.run_get]
  cases h : before.stage.canAdvance goal with
  | true =>
    simp [Stage.advance_of_canAdvance h, Stage.afterRequest_of_canAdvance h, EStateM.run_set]
  | false =>
    simp [Stage.advance_of_not_canAdvance h, Stage.afterRequest_of_not_canAdvance h,
      EStateM.run_throw]

/-! ## Requests one after the other -/

namespace Stage

variable {s goal : Stage} {goals : List Stage}

/-- The answers to some requests that are made one after the other. -/
def answers (s : Stage) : List Stage → List (Except TransitionError Stage)
  | [] => []
  | goal :: goals => s.advance goal :: (s.afterRequest goal).answers goals

/-- The stage after some requests. -/
def afterRequests (s : Stage) (goals : List Stage) : Stage := goals.foldl afterRequest s

/-- The stages that a method passes through: the first one, and those that requests were granted
for. -/
def passed (s : Stage) (goals : List Stage) : List Stage :=
  s :: (s.answers goals).filterMap Except.toOption

@[simp] lemma afterRequests_cons :
    s.afterRequests (goal :: goals) = (s.afterRequest goal).afterRequests goals := rfl

/-- A granted request leads from the stage at hand to those that are passed from its goal on. -/
lemma passed_cons_of_canAdvance (h : s.canAdvance goal) :
    s.passed (goal :: goals) = s :: goal.passed goals := by
  rw [passed, answers, advance_of_canAdvance h, afterRequest_of_canAdvance h]
  rfl

/-- A refused request does not count among the stages that are passed. -/
lemma passed_cons_of_not_canAdvance (h : s.canAdvance goal = false) :
    s.passed (goal :: goals) = s.passed goals := by
  rw [passed, answers, advance_of_not_canAdvance h, afterRequest_of_not_canAdvance h]
  rfl

/-- Each request is answered at the stage that the ones before it have led to. -/
lemma getElem?_answers (s : Stage) (goals : List Stage) (i : ℕ) :
    (s.answers goals)[i]? = goals[i]?.map (s.afterRequests (goals.take i)).advance := by
  induction goals generalizing s i with
  | nil => rfl
  | cons goal goals ih =>
    cases i with
    | zero => rfl
    | succ i => exact ih (s.afterRequest goal) i

/-- One more request leads on from the stage that the ones before it have led to. -/
lemma afterRequests_take_succ {i : ℕ} (h : goals[i]? = some goal) :
    s.afterRequests (goals.take (i + 1)) =
      (s.afterRequests (goals.take i)).afterRequest goal := by
  rw [List.take_add_one, h, afterRequests, List.foldl_append]
  rfl

/-- A method that has come to a last stage stays there. -/
lemma afterRequests_of_isTerminal (h : s.isTerminal) (goals : List Stage) :
    s.afterRequests goals = s := by
  induction goals with
  | nil => rfl
  | cons goal goals ih =>
    rw [afterRequests_cons, afterRequest_of_not_canAdvance (canAdvance_of_isTerminal h goal), ih]

/-! ## The stages that are passed -/

/-- The last of the stages that are passed is the one after all requests. -/
lemma getLast?_passed (s : Stage) (goals : List Stage) :
    (s.passed goals).getLast? = some (s.afterRequests goals) := by
  induction goals generalizing s with
  | nil => rfl
  | cons goal goals ih =>
    cases h : s.canAdvance goal with
    | true =>
      rw [passed_cons_of_canAdvance h, List.getLast?_cons, ih, afterRequests_cons,
        afterRequest_of_canAdvance h, Option.getD_some]
    | false =>
      rw [passed_cons_of_not_canAdvance h, ih, afterRequests_cons,
        afterRequest_of_not_canAdvance h]

/-- Later requests lead on from the last of the stages that were passed before. -/
lemma passed_append (s : Stage) (goals later : List Stage) :
    s.passed (goals ++ later) = s.passed goals ++ ((s.afterRequests goals).passed later).tail := by
  induction goals generalizing s with
  | nil => rfl
  | cons goal goals ih =>
    rw [List.cons_append, afterRequests_cons]
    cases h : s.canAdvance goal with
    | true =>
      rw [passed_cons_of_canAdvance h, passed_cons_of_canAdvance h, ih,
        afterRequest_of_canAdvance h, List.cons_append]
    | false =>
      rw [passed_cons_of_not_canAdvance h, passed_cons_of_not_canAdvance h, ih,
        afterRequest_of_not_canAdvance h]

/-- The stage at any time is one of those that are passed. -/
lemma afterRequests_take_mem_passed (s : Stage) (goals : List Stage) (i : ℕ) :
    s.afterRequests (goals.take i) ∈ s.passed goals := by
  have hlast : s.afterRequests (goals.take i) ∈ s.passed (goals.take i) :=
    List.mem_of_getLast? (s.getLast?_passed _)
  have hsplit := s.passed_append (goals.take i) (goals.drop i)
  rw [List.take_append_drop] at hsplit
  rw [hsplit]
  exact List.mem_append_left _ hlast

/-- **Paths of stages**: a method takes allowed steps only.

**Proof sketch.** Induction on the requests: a granted one adds an allowed step in front of the
stages that are passed from its goal on, a refused one adds nothing. -/
lemma isChain_passed (s : Stage) (goals : List Stage) :
    (s.passed goals).IsChain fun s t => s.canAdvance t := by
  induction goals generalizing s with
  | nil => exact .singleton s
  | cons goal goals ih =>
    cases h : s.canAdvance goal with
    | true =>
      rw [passed_cons_of_canAdvance h]
      exact .cons_cons h (ih goal)
    | false =>
      rw [passed_cons_of_not_canAdvance h]
      exact ih s

/-- Each of the stages that are passed lies farther from the declaration than all before it. -/
lemma pairwise_depth_passed (s : Stage) (goals : List Stage) :
    (s.passed goals).Pairwise fun s t => s.depth < t.depth := by
  have hchain : ((s.passed goals).map depth).IsChain (· < ·) := by
    rw [List.isChain_map]
    refine (s.isChain_passed goals).imp fun a b h => ?_
    rw [depth_of_canAdvance h]
    exact Nat.lt_succ_self _
  exact List.pairwise_map.mp hchain.pairwise

/-- No stage is passed twice. -/
lemma nodup_passed (s : Stage) (goals : List Stage) : (s.passed goals).Nodup :=
  (s.pairwise_depth_passed goals).imp fun hlt heq => Nat.ne_of_lt hlt (congrArg depth heq)

/-- As many requests are granted as the method is led away from where it was. -/
lemma depth_afterRequests (s : Stage) (goals : List Stage) :
    (s.afterRequests goals).depth = s.depth + (s.answers goals).countP (·.isOk) := by
  induction goals generalizing s with
  | nil => rfl
  | cons goal goals ih =>
    rw [afterRequests_cons, ih, answers]
    cases h : s.canAdvance goal with
    | true =>
      rw [afterRequest_of_canAdvance h, advance_of_canAdvance h, depth_of_canAdvance h,
        List.countP_cons_of_pos rfl]
      omega
    | false =>
      rw [afterRequest_of_not_canAdvance h, advance_of_not_canAdvance h,
        List.countP_cons_of_neg (by simp [Except.isOk, Except.toBool])]

/-- What comes of the requests `goals` if they are made from the declaration on. -/
structure PathOf (goals : List Stage) : Prop where
  /-- The stages that are passed form a path of allowed steps. -/
  isChain : (declared.passed goals).IsChain fun s t => s.canAdvance t
  /-- The path starts with the declaration. -/
  head?_eq : (declared.passed goals).head? = some declared
  /-- It ends with the stage that is reached. -/
  getLast?_eq : (declared.passed goals).getLast? = some (declared.afterRequests goals)
  /-- It shows the stage at any time in between. -/
  shows_stage : ∀ i, declared.afterRequests (goals.take i) ∈ declared.passed goals
  /-- It meets no stage twice. -/
  nodup : (declared.passed goals).Nodup
  /-- Few requests are granted. -/
  countP_le : (declared.answers goals).countP (·.isOk) ≤ 4
  /-- A request is answered at the stage that the earlier ones have led to. -/
  answered : ∀ i goal, goals[i]? = some goal →
    (declared.answers goals)[i]? = some ((declared.afterRequests (goals.take i)).advance goal)
  /-- One that is granted leads by an allowed step to the stage that was asked for. -/
  granted : ∀ i t, (declared.answers goals)[i]? = some (.ok t) → goals[i]? = some t ∧
    (declared.afterRequests (goals.take i)).canAdvance t ∧
    declared.afterRequests (goals.take (i + 1)) = t
  /-- One that is refused tells the stage at hand, which stays as it was, and the one that was asked
  for. -/
  refused : ∀ i e, (declared.answers goals)[i]? = some (.error e) → goals[i]? = some e.goal ∧
    e.origin = declared.afterRequests (goals.take i) ∧
    (declared.afterRequests (goals.take i)).canAdvance e.goal = false ∧
    declared.afterRequests (goals.take (i + 1)) = declared.afterRequests (goals.take i)
  /-- All that come after a last stage is reached are refused. -/
  refused_of_isTerminal : ∀ i j goal, (declared.afterRequests (goals.take i)).isTerminal → i ≤ j →
    goals[j]? = some goal → (declared.answers goals)[j]? =
      some (.error ⟨declared.afterRequests (goals.take i), goal⟩)

/-- **Requests from the declaration on**: whatever stages are asked for, a method passes through a
path of allowed steps that meets no stage twice. At most four requests are granted. One that is
refused leaves the stage as it was and tells this stage and the one that was asked for. All requests
that come after a last stage is reached are refused.

**Proof sketch.** The requests are counted by the depth of the stage that is reached. What holds of
a single request holds of each at its time, and a last stage is not left. -/
theorem path_of_requests (goals : List Stage) : PathOf goals := by
  refine ⟨declared.isChain_passed goals, rfl, declared.getLast?_passed goals,
    declared.afterRequests_take_mem_passed goals, declared.nodup_passed goals, ?count, ?answered,
    ?granted, ?refused, ?terminal⟩
  case count =>
    have hdepth := declared.depth_afterRequests goals
    have hle := (declared.afterRequests goals).depth_le
    have hzero : declared.depth = 0 := rfl
    omega
  case answered =>
    intro i goal hgoal
    rw [getElem?_answers, hgoal, Option.map_some]
  case granted =>
    intro i t hanswer
    rw [getElem?_answers, Option.map_eq_some_iff] at hanswer
    obtain ⟨goal, hgoal, hadvance⟩ := hanswer
    obtain ⟨rfl, hallowed⟩ := advance_eq_ok_iff.mp hadvance
    rw [afterRequests_take_succ hgoal, afterRequest_of_canAdvance hallowed]
    exact ⟨hgoal, hallowed, rfl⟩
  case refused =>
    intro i e hanswer
    rw [getElem?_answers, Option.map_eq_some_iff] at hanswer
    obtain ⟨goal, hgoal, hadvance⟩ := hanswer
    obtain ⟨rfl, hforbidden⟩ := advance_eq_error_iff.mp hadvance
    rw [afterRequests_take_succ hgoal, afterRequest_of_not_canAdvance hforbidden]
    exact ⟨hgoal, rfl, hforbidden, rfl⟩
  case terminal =>
    intro i j goal hterminal hij hgoal
    have hstays : declared.afterRequests (goals.take j) =
        declared.afterRequests (goals.take i) := by
      obtain ⟨k, rfl⟩ := Nat.exists_eq_add_of_le hij
      rw [List.take_add, afterRequests, List.foldl_append]
      exact afterRequests_of_isTerminal hterminal _
    rw [getElem?_answers, hgoal, hstays, Option.map_some,
      advance_of_not_canAdvance (canAdvance_of_isTerminal hterminal goal)]

/-- Requests for stages of different ways, of which the fifth is the last one to be granted. -/
def mixedRequests : List Stage :=
  [rendered, validated, validated, resolving, unresolved, resolved, rendered]

/-- The mixed requests lead to a method without a delegate. A request that is too early is refused,
and so is one that comes too late. -/
theorem path_mixedRequests :
    declared.passed mixedRequests = [declared, validated, resolving, unresolved] ∧
      ((declared.passed mixedRequests).IsChain fun s t => s.canAdvance t) ∧
      (declared.passed mixedRequests).Nodup ∧
      (declared.answers mixedRequests).countP (·.isOk) ≤ 4 ∧
      (declared.answers mixedRequests)[1]? = some (.ok validated) ∧
      declared.afterRequests (mixedRequests.take 2) = validated ∧
      (declared.answers mixedRequests)[2]? = some (.error ⟨validated, validated⟩) ∧
      declared.afterRequests (mixedRequests.take 3) =
        declared.afterRequests (mixedRequests.take 2) ∧
      (declared.afterRequests (mixedRequests.take 5)).isTerminal ∧
      (declared.answers mixedRequests)[6]? = some (.error ⟨unresolved, rendered⟩) := by
  have hpath := path_of_requests mixedRequests
  have hvalidated : (declared.answers mixedRequests)[1]? = some (.ok validated) :=
    hpath.answered 1 validated rfl
  have hagain : (declared.answers mixedRequests)[2]? = some (.error ⟨validated, validated⟩) :=
    hpath.answered 2 validated rfl
  have hlast : (declared.afterRequests (mixedRequests.take 5)).isTerminal := rfl
  obtain ⟨-, -, hreached⟩ := hpath.granted 1 validated hvalidated
  obtain ⟨-, -, -, hstays⟩ := hpath.refused 2 _ hagain
  exact ⟨rfl, hpath.isChain, hpath.nodup, hpath.countP_le, hvalidated, hreached, hagain, hstays,
    hlast, hpath.refused_of_isTerminal 5 6 rendered hlast (by decide) rfl⟩

end Stage

end MapperDelegation
