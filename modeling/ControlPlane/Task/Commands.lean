import ControlPlane.Task.Lifecycle

/-!
# Transition commands, once and again

A command is recorded by one event, and every later copy of it is answered from that event,
whatever has become of the task. The events of a task are numbered without gaps.

## Main results

* `commands_of_run`: how commands are recorded and answered in every run.
-/
namespace ControlPlane

section Errors
variable {ε ε' α β : Type} {e : ε}

theorem Except.bind_eq_error {x : Except ε α} {f : α → Except ε β} :
    (x >>= f) = .error e ↔ x = .error e ∨ ∃ a, x = .ok a ∧ f a = .error e := by
  cases x <;> simp [bind, Except.bind]

theorem Except.require_eq_error {p : Prop} [Decidable p] {e' : ε} :
    Except.require p e' = .error e ↔ ¬ p ∧ e' = e := by
  unfold Except.require
  split <;> simp_all

theorem Except.orThrow_eq_error {x : Option α} {e' : ε} :
    Except.orThrow x e' = .error e ↔ x = none ∧ e' = e := by
  cases x <;> simp [Except.orThrow]

theorem Except.relabel_eq_error {x : Except ε α} {f : ε → ε'} {e' : ε'} :
    Except.relabel x f = .error e' ↔ ∃ e, x = .error e ∧ f e = e' := by
  cases x <;> simp [Except.relabel]

theorem Except.pure_ne_error {a : α} : (pure a : Except ε α) ≠ .error e := nofun

end Errors

/-! ### What a command asks for -/

/-- What the fingerprint of a command is taken of. -/
def TaskTransitionCommand.payload (c : TaskTransitionCommand) (reason actor : String) : Json :=
  .obj <|
    [("actor_id", .str actor),
      ("evidence_ids",
        .arr (((c.evidenceIds.map UUID.str).insertionSort (· ≤ ·)).map Json.str)),
      ("expected_state", .str c.expectedState.value),
      ("kind", .str c.kind.value),
      ("reason_code", .str reason),
      ("task_id", .str c.taskId.str),
      ("transition_id", .str c.transitionId.str)] ++
    match c.validationCandidate with
    | some candidate => [("validation_candidate", candidate.toJson)]
    | none => []

/-- Two commands ask for the same; the order of their evidence does not matter, and neither
does when and by which service they are issued. -/
structure SameCommand (rt : Runtime) (c c' : TaskTransitionCommand) : Prop where
  taskId : c'.taskId = c.taskId
  transitionId : c'.transitionId = c.transitionId
  expectedState : c'.expectedState = c.expectedState
  kind : c'.kind = c.kind
  reason : requiredReasonCode rt c'.reasonCode = requiredReasonCode rt c.reasonCode
  actor : requiredActor rt c'.actorId = requiredActor rt c.actorId
  evidence : c'.evidenceIds.Perm c.evidenceIds
  candidate : c'.validationCandidate = c.validationCandidate

/-- The digests of two commands are equal only when what they ask for is. -/
def NoCollision (rt : Runtime) (c c' : TaskTransitionCommand) : Prop :=
  ∀ actor reason actor' reason' : String, checkCommand rt c = .ok (actor, reason) →
    checkCommand rt c' = .ok (actor', reason') →
    rt.fingerprint (c.payload reason actor) = rt.fingerprint (c'.payload reason' actor') →
      c.payload reason actor = c'.payload reason' actor'

section Commands
variable {rt : Runtime} {c c' : TaskTransitionCommand} {reason actor reason' actor' : String}

theorem TaskState.value_inj {s t : TaskState} (h : s.value = t.value) : s = t := by
  revert h
  cases s <;> cases t <;> decide

theorem TaskTransitionKind.value_inj {k l : TaskTransitionKind} (h : k.value = l.value) :
    k = l := by
  revert h
  cases k <;> cases l <;> decide

theorem ValidationCandidate.toJson_inj {a b : ValidationCandidate} (h : a.toJson = b.toJson) :
    a = b := by
  simp only [toJson, Json.obj.injEq, List.cons.injEq, Prod.mk.injEq, Json.str.injEq, true_and,
    and_true] at h
  obtain ⟨⟨ca, hca⟩, ⟨ta, hta⟩⟩ := a
  obtain ⟨⟨cb, hcb⟩, ⟨tb, htb⟩⟩ := b
  obtain ⟨rfl, rfl⟩ := h
  rfl

theorem perm_of_sorted_eq {as bs : List UUID}
    (h : (as.map UUID.str).insertionSort (· ≤ ·) = (bs.map UUID.str).insertionSort (· ≤ ·)) :
    as.Perm bs := by
  have hperm : (as.map UUID.str).Perm (bs.map UUID.str) :=
    (List.perm_insertionSort (· ≤ ·) _).symm.trans
      (h ▸ List.perm_insertionSort (· ≤ ·) (bs.map UUID.str))
  exact (List.map_perm_map_iff UUID.str_injective).mp hperm

theorem sorted_eq_of_perm {as bs : List UUID} (h : as.Perm bs) :
    (as.map UUID.str).insertionSort (· ≤ ·) = (bs.map UUID.str).insertionSort (· ≤ ·) := by
  refine List.Perm.eq_of_pairwise (fun a b _ _ (hab : a ≤ b) hba => String.le_antisymm hab hba)
    (List.pairwise_insertionSort _ _) (List.pairwise_insertionSort _ _) ?_
  exact (List.perm_insertionSort _ _).trans
    ((h.map UUID.str).trans (List.perm_insertionSort _ _).symm)

theorem payload_of_same (h : SameCommand rt c c') :
    c'.payload reason actor = c.payload reason actor := by
  simp only [TaskTransitionCommand.payload, h.taskId, h.transitionId, h.expectedState, h.kind,
    h.candidate, sorted_eq_of_perm h.evidence]

theorem checkCommand_ok : checkCommand rt c = .ok (actor, reason) ↔
    requiredActor rt c.actorId = .ok actor ∧ requiredReasonCode rt c.reasonCode = .ok reason ∧
      (c.evidenceIds ≠ [] ∧ c.evidenceIds.Nodup ∧ c.evidenceIds.length ≤ 100) ∧
      (c.kind.validates = true ↔ c.validationCandidate ≠ none) := by
  unfold checkCommand
  simp only [Except.bind_eq_ok, Except.require_eq_ok]
  cases hvalidates : c.kind.validates with
  | true =>
    simp only [if_true, Except.bind_eq_ok, Except.require_eq_ok, Except.pure_eq_ok,
      Prod.mk.injEq, true_iff]
    constructor
    · rintro ⟨actor, hactor, reason, hreason, _, hevidence, _, hcandidate, rfl, rfl⟩
      exact ⟨hactor, hreason, hevidence, hcandidate⟩
    · rintro ⟨hactor, hreason, hevidence, hcandidate⟩
      exact ⟨actor, hactor, reason, hreason, (), hevidence, (), hcandidate, rfl, rfl⟩
  | false =>
    simp only [Bool.false_eq_true, if_false, Except.bind_eq_ok, Except.require_eq_ok,
      Except.pure_eq_ok, Prod.mk.injEq, false_iff, not_not]
    constructor
    · rintro ⟨actor, hactor, reason, hreason, _, hevidence, _, hcandidate, rfl, rfl⟩
      exact ⟨hactor, hreason, hevidence, hcandidate⟩
    · rintro ⟨hactor, hreason, hevidence, hcandidate⟩
      exact ⟨actor, hactor, reason, hreason, (), hevidence, (), hcandidate, rfl, rfl⟩

/-- A command that asks for the same passes the same checks. -/
theorem checkCommand_same (h : SameCommand rt c c')
    (hcommand : checkCommand rt c = .ok (actor, reason)) :
    checkCommand rt c' = .ok (actor, reason) := by
  rw [checkCommand_ok] at hcommand ⊢
  obtain ⟨hactor, hreason, ⟨hne, hnodup, hlength⟩, hcandidate⟩ := hcommand
  refine ⟨h.actor.trans hactor, h.reason.trans hreason, ⟨?_, ?_, ?_⟩, ?_⟩
  · intro hnil
    exact hne (List.nil_perm.mp (hnil ▸ h.evidence))
  · exact h.evidence.nodup_iff.mpr hnodup
  · rw [h.evidence.length_eq]
    exact hlength
  · rw [h.kind, h.candidate]
    exact hcandidate

/-- The payload determines the command. -/
theorem same_of_payload (h : c.payload reason actor = c'.payload reason' actor')
    (hcommand : checkCommand rt c = .ok (actor, reason))
    (hcommand' : checkCommand rt c' = .ok (actor', reason')) : SameCommand rt c c' := by
  simp only [TaskTransitionCommand.payload, Json.obj.injEq, List.cons_append, List.nil_append,
    List.cons.injEq, Prod.mk.injEq, Json.str.injEq, Json.arr.injEq, true_and] at h
  obtain ⟨rfl, hevidence, hstate, hkind, rfl, htask, htransition, hcandidate⟩ := h
  obtain ⟨hactor, hreason, -⟩ := checkCommand_ok.mp hcommand
  obtain ⟨hactor', hreason', -⟩ := checkCommand_ok.mp hcommand'
  refine ⟨(UUID.str_injective htask).symm, (UUID.str_injective htransition).symm,
    (TaskState.value_inj hstate).symm, (TaskTransitionKind.value_inj hkind).symm,
    hreason'.trans hreason.symm, hactor'.trans hactor.symm, ?_, ?_⟩
  · have hstr : Function.Injective Json.str := fun _ _ => Json.str.inj
    exact (perm_of_sorted_eq (List.map_injective_iff.mpr hstr hevidence)).symm
  · cases hc : c.validationCandidate with
    | none =>
      cases hc' : c'.validationCandidate with
      | none => rfl
      | some candidate => simp [hc, hc'] at hcandidate
    | some candidate =>
      cases hc' : c'.validationCandidate with
      | none => simp [hc, hc'] at hcandidate
      | some candidate' =>
        simp only [hc, hc', List.cons.injEq, Prod.mk.injEq, true_and, and_true] at hcandidate
        rw [ValidationCandidate.toJson_inj hcandidate]

end Commands

/-! ### What is recorded of a command -/

section Recorded
variable {rt : Runtime} {db db' : Database} {c c' : TaskTransitionCommand}
  {result : TaskTransitionResult}

theorem payload_candidate {task : Task} {plan : TaskTransitionPlan} {guards : TaskTransitionGuards}
    {candidate : ValidationCandidate} :
    (transitionPayload task plan guards (some candidate)).get "validation_candidate" =
      candidate.toJson := rfl

theorem candidate_fields (candidate : ValidationCandidate) :
    (candidate.toJson.hasKeys ["commit_sha", "tree_sha"] &&
      (candidate.toJson.get "commit_sha").pyEq (.str candidate.commitSha.val) &&
      (candidate.toJson.get "tree_sha").pyEq (.str candidate.treeSha.val)) = true := by
  have hkeys : candidate.toJson.hasKeys ["commit_sha", "tree_sha"] = true := rfl
  have hcommit : candidate.toJson.get "commit_sha" = .str candidate.commitSha.val := rfl
  have htree : candidate.toJson.get "tree_sha" = .str candidate.treeSha.val := rfl
  rw [hkeys, hcommit, htree]
  simp [Json.pyEq, Json.str?]

/-- An event answers a command. -/
def TaskEvent.answers (rt : Runtime) (e : TaskEvent) (c : TaskTransitionCommand)
    (result : TaskTransitionResult) : Prop :=
  ∃ actor reason, checkCommand rt c = .ok (actor, reason) ∧
    replayedTransition e c (commandFingerprint rt c reason actor) =
      .ok { result with replayed := true }

/-- A command is recorded: its event answers every copy of it. -/
structure RecordedCommand (rt : Runtime) (db : Database) (c : TaskTransitionCommand)
    (result : TaskTransitionResult) : Prop where
  task : (db.tasks.get? c.taskId).isSome = true
  event : ∃ e, eventOfTransition db c.transitionId = some e ∧ e.answers rt c result

/-- What an acceptance returns. -/
def Acceptance.answer (a : Acceptance rt db c) : TaskTransitionResult :=
  { taskId := a.task.id, transitionId := c.transitionId, eventId := a.event.id
    sequence := a.event.sequence, fromState := a.plan.fromState, toState := a.plan.toState }

/-- The event of an acceptance answers the command it accepted. -/
theorem Acceptance.answers (a : Acceptance rt db c) : a.event.answers rt c a.answer := by
  refine ⟨a.actor, a.reason, a.command_eq, ?_⟩
  have hkind : a.plan.kind = c.kind := kind_of_evaluate a.plan_eq
  have hmatches : candidateMatches a.event c = true := by
    unfold candidateMatches
    split
    · rename_i hvalidates
      obtain ⟨-, -, -, hcandidate⟩ := checkCommand_ok.mp a.command_eq
      obtain ⟨candidate, hsome⟩ := Option.ne_none_iff_exists'.mp (hcandidate.mp hvalidates)
      have hpayload : a.event.payload.get "validation_candidate" = candidate.toJson := by
        change (transitionPayload a.task a.plan a.guards c.validationCandidate).get _ = _
        rw [hsome]
        exact payload_candidate
      simp only [hsome, hpayload]
      exact candidate_fields candidate
    · rfl
  have hfields : a.event.taskId = c.taskId ∧ a.event.transitionKind = some c.kind ∧
      candidateMatches a.event c = true ∧
      a.event.transitionFingerprint = some (commandFingerprint rt c a.reason a.actor) :=
    ⟨a.task_id, congrArg some hkind, hmatches, rfl⟩
  have hfrom : a.event.transitionFromState = some a.plan.fromState := rfl
  have hto : a.event.transitionToState = some a.plan.toState := rfl
  simp only [replayedTransition, Except.require, if_pos hfields, hfrom, hto, Except.orThrow,
    Except.ok_bind, Acceptance.answer, a.task_id]
  rfl

theorem replayedTransition_replayed {e : TaskEvent} {fingerprint : String}
    (h : replayedTransition e c fingerprint = .ok result) : result.replayed = true := by
  simp only [replayedTransition, Except.bind_eq_ok, Except.pure_eq_ok] at h
  obtain ⟨_, -, _, -, _, -, rfl⟩ := h
  rfl

/-- A command is answered from the event of its identifier, or accepted. -/
theorem transitionTask_result (h : transitionTask rt db c = .ok (result, db')) :
    (∃ e, eventOfTransition db c.transitionId = some e ∧ e.answers rt c result ∧ db' = db) ∨
      ∃ a : Acceptance rt db c, result = a.answer ∧ db' = a.after := by
  simp only [transitionTask, Except.bind_eq_ok, Except.orThrow_eq_ok] at h
  obtain ⟨⟨actor, reason⟩, hcommand, task, htask, h⟩ := h
  cases hevent : eventOfTransition db c.transitionId with
  | some e =>
    simp only [hevent, Except.bind_eq_ok, Except.pure_eq_ok, Prod.mk.injEq] at h
    obtain ⟨_, hreplayed, rfl, rfl⟩ := h
    refine .inl ⟨e, rfl, ⟨actor, reason, hcommand, ?_⟩, rfl⟩
    rw [hreplayed, Except.ok.injEq]
    have htrue := replayedTransition_replayed hreplayed
    rw [← htrue]
  | none =>
    simp only [hevent, applyTransition, Except.bind_eq_ok, Except.require_eq_ok,
      Except.orThrow_eq_ok, Except.pure_eq_ok, Prod.mk.injEq] at h
    obtain ⟨_, hstate, policy, hpolicy, evidence, hevidence, head, hhead, guards, hguards, plan,
      hplan, taskEvents, hevents, rfl, rfl⟩ := h
    exact .inr ⟨⟨task, policy, evidence, head, guards, plan, actor, reason, taskEvents, hcommand,
      htask, hevent, hstate, hpolicy, hevidence, hhead, hguards, hplan, hevents⟩, rfl, rfl⟩

theorem Acceptance.eventOfTransition_after (a : Acceptance rt db c) :
    eventOfTransition a.after c.transitionId = some a.event := by
  have hfresh := a.transition_fresh
  unfold eventOfTransition at hfresh ⊢
  rw [a.rows_after, List.find?_append, hfresh, Option.none_or, List.find?_cons_of_pos]
  exact decide_eq_true rfl

/-- Whatever is accepted is recorded. -/
theorem recorded_of_transition (h : transitionTask rt db c = .ok (result, db')) :
    RecordedCommand rt db' c result := by
  obtain ⟨e, hevent, hanswers, rfl⟩ | ⟨a, rfl, rfl⟩ := transitionTask_result h
  · refine ⟨?_, e, hevent, hanswers⟩
    simp only [transitionTask, Except.bind_eq_ok, Except.orThrow_eq_ok] at h
    obtain ⟨_, -, task, htask, -⟩ := h
    rw [htask]
    rfl
  · refine ⟨?_, a.event, a.eventOfTransition_after, a.answers⟩
    rw [a.get?_after, if_pos rfl]
    rfl

/-- A recorded command is answered again, copy after copy. -/
theorem RecordedCommand.replay (h : RecordedCommand rt db c result) (hsame : SameCommand rt c c') :
    transitionTask rt db c' = .ok ({ result with replayed := true }, db) := by
  obtain ⟨task, htask⟩ := Option.isSome_iff_exists.mp h.task
  obtain ⟨e, hevent, actor, reason, hcommand, hreplayed⟩ := h.event
  have hfingerprint :
      commandFingerprint rt c' reason actor = commandFingerprint rt c reason actor :=
    congrArg rt.fingerprint (payload_of_same hsame)
  have hcopy : replayedTransition e c' (commandFingerprint rt c' reason actor) =
      replayedTransition e c (commandFingerprint rt c reason actor) := by
    rw [hfingerprint]
    simp only [replayedTransition, candidateMatches, hsame.taskId, hsame.kind, hsame.candidate,
      hsame.transitionId]
  rw [transitionTask, checkCommand_same hsame hcommand, Except.ok_bind, hsame.taskId, htask]
  simp only [Except.orThrow, Except.ok_bind, hsame.transitionId, hevent, hcopy, hreplayed]
  rfl

/-- A used identifier is refused to any other command. -/
theorem RecordedCommand.refuse (h : RecordedCommand rt db c result)
    (hid : c'.transitionId = c.transitionId) (hcollision : NoCollision rt c c')
    (hother : ¬ SameCommand rt c c') : ∃ e, transitionTask rt db c' = .error e := by
  cases hrun : transitionTask rt db c' with
  | error e => exact ⟨e, rfl⟩
  | ok answer =>
    exfalso
    obtain ⟨e, hevent, actor, reason, hcommand, hreplayed⟩ := h.event
    obtain ⟨e', hevent', ⟨actor', reason', hcommand', hreplayed'⟩, -⟩ | ⟨a, -⟩ :=
      transitionTask_result hrun
    · obtain rfl : e = e' := Option.some.inj (hevent.symm.trans (hid ▸ hevent'))
      simp only [replayedTransition, Except.bind_eq_ok, Except.require_eq_ok]
        at hreplayed hreplayed'
      obtain ⟨_, ⟨-, -, -, hfingerprint⟩, -⟩ := hreplayed
      obtain ⟨_, ⟨-, -, -, hfingerprint'⟩, -⟩ := hreplayed'
      rw [hfingerprint, Option.some.injEq] at hfingerprint'
      exact hother (same_of_payload (hcollision _ _ _ _ hcommand hcommand' hfingerprint')
        hcommand hcommand')
    · have hfresh := a.transition_fresh
      rw [hid, hevent] at hfresh
      cases hfresh

/-- Nothing that is checked of a command is a row the store refused. -/
theorem checkCommand_ne_integrity {message : String} :
    checkCommand rt c ≠ .error (.integrity message) := by
  unfold checkCommand requiredActor requiredReasonCode
  cases c.kind.validates <;> simp [-bind_pure_comp, Except.bind_eq_error,
    Except.require_eq_error, Except.relabel_eq_error, Except.pure_ne_error]

theorem replayedTransition_ne_integrity {e : TaskEvent} {fingerprint message : String} :
    replayedTransition e c fingerprint ≠ .error (.integrity message) := by
  simp [-bind_pure_comp, replayedTransition, Except.bind_eq_error, Except.require_eq_error,
    Except.orThrow_eq_error, Except.pure_ne_error]

/-- The committed boundary adds nothing to the transaction: a row is refused only when no
event has the identifier of the command. -/
theorem transition_eq : TaskTransitionService.transition rt db c = transitionTask rt db c := by
  unfold TaskTransitionService.transition
  split
  · rename_i message h
    suffices hnone : eventOfTransition db c.transitionId = none by
      rw [hnone]
      exact h.symm
    cases hcommand : checkCommand rt c with
    | error e =>
      rw [transitionTask, hcommand] at h
      cases h
      exact absurd hcommand checkCommand_ne_integrity
    | ok checked =>
      cases htask : db.tasks.get? c.taskId with
      | none => simp [transitionTask, hcommand, htask, Except.orThrow] at h
      | some task =>
        cases hevent : eventOfTransition db c.transitionId with
        | none => rfl
        | some e =>
          rw [transitionTask, hcommand, Except.ok_bind, htask] at h
          simp only [Except.orThrow, Except.ok_bind, hevent] at h
          cases hreplayed : replayedTransition e c
              (commandFingerprint rt c checked.2 checked.1) with
          | error e' =>
            rw [hreplayed] at h
            cases h
            exact absurd hreplayed replayedTransition_ne_integrity
          | ok answer =>
            rw [hreplayed] at h
            cases h
  · rfl

end Recorded

/-! ### Runs -/

/-- One step of a run: a command is answered or refused, or another service writes. No other
service removes a task, and what it adds to the history of one is no transition and takes the
next number of that task. -/
inductive CommandStep (rt : Runtime) (db db' : Database) : Prop
  | answered (c : TaskTransitionCommand) (result : TaskTransitionResult)
      (h : TaskTransitionService.transition rt db c = .ok (result, db'))
  | refused (c : TaskTransitionCommand) (e : TaskTransitionError)
      (h : TaskTransitionService.transition rt db c = .error e) (hrollback : db' = db)
  | other (htasks : ∀ id, (db.tasks.get? id).isSome → (db'.tasks.get? id).isSome)
      (hevents : db'.taskEvents.rows = db.taskEvents.rows)
  | event (e : TaskEvent) (htransition : e.transitionId = none)
      (hsequence : e.sequence = nextEventSequence db e.taskId)
      (htasks : ∀ id, (db.tasks.get? id).isSome → (db'.tasks.get? id).isSome)
      (hevents : db'.taskEvents.rows = db.taskEvents.rows ++ [e])

/-- Runs of transition commands among the writes of every other service, from a store without
events. -/
def commandSystem (rt : Runtime) : TransitionSystem Database where
  init db := db.taskEvents.rows = []
  step := CommandStep rt

/-- What holds of the events of every store a run reaches. -/
structure NumberedOnce (db : Database) : Prop where
  once : ∀ id : UUID,
    (db.taskEvents.rows.filter fun e => e.transitionId = some id).length ≤ 1
  numbered : ∀ taskId, (taskEventsOf db taskId).map TaskEvent.sequence =
    List.range' 1 (taskEventsOf db taskId).length

section Runs
variable {rt : Runtime} {db db' : Database} {c c' : TaskTransitionCommand}
  {result : TaskTransitionResult}

theorem foldr_max_range' (n b : ℕ) : (List.range' 1 n).foldr max b = max n b := by
  induction n generalizing b with
  | zero => simp
  | succ n ih =>
    rw [List.range'_1_concat, List.foldr_append, List.foldr_cons, List.foldr_nil, ih]
    omega

/-- Rows numbered from one have their number as the greatest. -/
theorem maxRank_of_numbered {α : Type*} {rank : α → ℕ} {as : List α}
    (h : as.map rank = List.range' 1 as.length) : maxRank rank as = as.length := by
  rw [maxRank, h, foldr_max_range', Nat.max_zero]

/-- One more event, with the next number, that reuses no identifier. -/
theorem NumberedOnce.append {e : TaskEvent} (h : NumberedOnce db)
    (hrows : db'.taskEvents.rows = db.taskEvents.rows ++ [e])
    (hsequence : e.sequence = nextEventSequence db e.taskId)
    (hfresh : ∀ id, e.transitionId = some id → eventOfTransition db id = none) :
    NumberedOnce db' where
  once id := by
    rw [hrows, List.filter_append, List.length_append]
    by_cases hid : e.transitionId = some id
    · have hnil : (db.taskEvents.rows.filter fun e => e.transitionId = some id) = [] := by
        rw [List.filter_eq_nil_iff]
        exact List.find?_eq_none.mp (hfresh id hid)
      rw [hnil]
      simp [hid]
    · simpa [hid] using h.once id
  numbered taskId := by
    have hevents : taskEventsOf db' taskId =
        taskEventsOf db taskId ++ if e.taskId = taskId then [e] else [] := by
      simp only [taskEventsOf, Table.select, hrows, List.filter_append]
      by_cases htask : e.taskId = taskId <;> simp [htask]
    by_cases htask : e.taskId = taskId
    · have hnumber : e.sequence = 1 + (taskEventsOf db taskId).length := by
        rw [hsequence, htask, nextEventSequence, maxRank_of_numbered (h.numbered taskId),
          Nat.add_comm]
      rw [hevents, if_pos htask, List.map_append, List.length_append, h.numbered taskId,
        List.map_singleton, List.length_singleton, List.range'_1_concat, hnumber]
    · rw [hevents, if_neg htask, List.append_nil]
      exact h.numbered taskId

theorem NumberedOnce.step (h : NumberedOnce db) (hstep : CommandStep rt db db') :
    NumberedOnce db' := by
  cases hstep with
  | answered c result hrun =>
    rw [transition_eq] at hrun
    obtain ⟨_, -, -, rfl⟩ | ⟨a, -, rfl⟩ := transitionTask_result hrun
    · exact h
    · refine h.append a.rows_after rfl fun id hid => ?_
      obtain rfl : c.transitionId = id := Option.some.inj hid
      exact a.transition_fresh
  | refused c e _ hrollback => exact hrollback ▸ h
  | other _ hevents =>
    have hof : ∀ taskId, taskEventsOf db' taskId = taskEventsOf db taskId := fun taskId => by
      simp only [taskEventsOf, Table.select, hevents]
    refine ⟨fun id => ?_, fun taskId => ?_⟩
    · rw [hevents]
      exact h.once id
    · rw [hof]
      exact h.numbered taskId
  | event e htransition hsequence _ hevents =>
    refine h.append hevents hsequence fun id hid => ?_
    rw [htransition] at hid
    cases hid

theorem numberedOnce_of_reachable (h : (commandSystem rt).Reachable db) : NumberedOnce db := by
  refine h.invariant (fun db hinit => ⟨fun id => ?_, fun taskId => ?_⟩) fun _ _ hdb => hdb.step
  · have hrows : db.taskEvents.rows = [] := hinit
    simp [hrows]
  · have hrows : db.taskEvents.rows = [] := hinit
    simp [taskEventsOf, Table.select, hrows]

/-- What is recorded stays: a step removes no task and only appends events. -/
theorem RecordedCommand.step (h : RecordedCommand rt db c result)
    (hstep : CommandStep rt db db') : RecordedCommand rt db' c result := by
  obtain ⟨e, hevent, hanswers⟩ := h.event
  have hkeep : ∀ es, db'.taskEvents.rows = db.taskEvents.rows ++ es →
      eventOfTransition db' c.transitionId = some e := by
    intro es hrows
    have hfind : db.taskEvents.rows.find? (·.transitionId = some c.transitionId) = some e := hevent
    rw [eventOfTransition, hrows, List.find?_append, hfind, Option.some_or]
  cases hstep with
  | answered c' result' hrun =>
    rw [transition_eq] at hrun
    obtain ⟨_, -, -, rfl⟩ | ⟨a, -, rfl⟩ := transitionTask_result hrun
    · exact h
    · refine ⟨?_, e, hkeep _ a.rows_after, hanswers⟩
      rw [a.get?_after]
      split
      · rfl
      · exact h.task
  | refused _ _ _ hrollback => exact hrollback ▸ h
  | other htasks hevents =>
    exact ⟨htasks _ h.task, e, hkeep [] (hevents.trans (List.append_nil _).symm), hanswers⟩
  | event e' _ _ htasks hevents => exact ⟨htasks _ h.task, e, hkeep [e'] hevents, hanswers⟩

theorem RecordedCommand.run (h : RecordedCommand rt db c result)
    (hrun : Relation.ReflTransGen (CommandStep rt) db db') : RecordedCommand rt db' c result := by
  induction hrun with
  | refl => exact h
  | tail _ hstep ih => exact ih.step hstep

end Runs

/-- In every store a run reaches an identifier is recorded by at most one event, and the events
of a task are numbered from one without gaps. An answered command is answered with the same
states and number at any later time, whatever the order of its evidence, and another command
with its identifier is refused; neither writes anything. -/
theorem commands_of_run {rt : Runtime} {db : Database} (h : (commandSystem rt).Reachable db) :
    (∀ id : UUID, (db.taskEvents.rows.filter fun e => e.transitionId = some id).length ≤ 1) ∧
    (∀ taskId, (taskEventsOf db taskId).map TaskEvent.sequence =
      List.range' 1 (taskEventsOf db taskId).length) ∧
    (∀ c result answered later, TaskTransitionService.transition rt db c = .ok (result, answered) →
      Relation.ReflTransGen (CommandStep rt) answered later →
      (∀ c', SameCommand rt c c' → TaskTransitionService.transition rt later c' =
        .ok ({ result with replayed := true }, later)) ∧
      (∀ c', c'.transitionId = c.transitionId → ¬ SameCommand rt c c' → NoCollision rt c c' →
        ∃ e, TaskTransitionService.transition rt later c' = .error e)) := by
  obtain ⟨honce, hnumbered⟩ := numberedOnce_of_reachable h
  refine ⟨honce, hnumbered, fun c result answered later hrun hlater => ?_⟩
  rw [transition_eq] at hrun
  have hrecorded := (recorded_of_transition hrun).run hlater
  constructor
  · intro c' hsame
    rw [transition_eq]
    exact hrecorded.replay hsame
  · intro c' hid hother hcollision
    rw [transition_eq]
    exact hrecorded.refuse hid hcollision hother

namespace CommandExample

/-- A digest that depends on the size of a text. -/
def sizeDigest (size : ℕ) : List Char :=
  if size % 4 = 0 then List.replicate 64 '0' else List.replicate 64 '1'

/-- A runtime whose digests depend on the size of a text. -/
def measuring : Runtime :=
  { Runtime.plain with
    sha256 := fun text => String.ofList (sizeDigest text.utf8ByteSize)
    sha256_fits := fun text => by
      rw [String.toList_ofList, sizeDigest]
      have hfits : ∀ d ∈ UUID.hexAlphabet,
          Regex.Fits (UUID.hexShape 64) (List.replicate 64 d) := fun d hd =>
        have hmem : ∀ c ∈ List.replicate 64 d, c ∈ UUID.hexAlphabet := fun c hc =>
          List.eq_of_mem_replicate hc ▸ hd
        Regex.Fits.replicate hmem
      split
      · exact hfits '0' (by decide)
      · exact hfits '1' (by decide) }

theorem measuring_fingerprint (j : Json) : measuring.fingerprint j = String.ofList
    (sizeDigest ((j.encode measuring.floatRepr).flatMap String.utf8EncodeChar).length) := by
  have hsize : (measuring.dumps j).utf8ByteSize =
      ((j.encode measuring.floatRepr).flatMap String.utf8EncodeChar).length := by
    simp [Runtime.dumps, String.utf8ByteSize, List.utf8Encode]
  rw [← hsize]
  rfl

def started : TaskTransitionCommand := HandoffExample.command 1 .intake .startBriefing

/-- The same command, issued later. -/
def copy : TaskTransitionCommand := { started with occurredAt := 9 }

/-- Another command with the identifier of the first. -/
def escalated : TaskTransitionCommand := HandoffExample.command 1 .intake .escalate

/-- Another one, without evidence. -/
def unsupported : TaskTransitionCommand := { escalated with evidenceIds := [] }

-- Two commands that pass the checks, with digests that differ.
set_option maxRecDepth 4000 in
example : NoCollision measuring started escalated := by
  have hstarted : checkCommand measuring started = .ok ("cp", "OK") :=
    Except.ok_of_toOption (by decide +kernel)
  have hescalated : checkCommand measuring escalated = .ok ("cp", "OK") :=
    Except.ok_of_toOption (by decide +kernel)
  intro actor reason actor' reason' h h' hdigest
  obtain ⟨rfl, rfl⟩ := Prod.mk.inj (Except.ok.inj (hstarted.symm.trans h))
  obtain ⟨rfl, rfl⟩ := Prod.mk.inj (Except.ok.inj (hescalated.symm.trans h'))
  rw [measuring_fingerprint, measuring_fingerprint, String.ofList_inj] at hdigest
  exact absurd hdigest (by decide +kernel)

theorem copy_same : SameCommand .plain started copy :=
  ⟨rfl, rfl, rfl, rfl, rfl, rfl, .refl _, rfl⟩

theorem unsupported_not_same : ¬ SameCommand .plain started unsupported := fun h => nomatch h.kind

theorem unsupported_collides_never : NoCollision .plain started unsupported := by
  intro actor reason actor' reason' _ h
  exact absurd rfl (checkCommand_ok.mp h).2.2.1.1

theorem reachable : (commandSystem .plain).Reachable HandoffExample.store :=
  .of_init (show HandoffExample.store.taskEvents.rows = [] from rfl)

set_option maxRecDepth 4000 in
theorem started_first : ((TaskTransitionService.transition .plain HandoffExample.store
    started).toOption.map fun r => r.1.sequence) = some 1 := by
  decide +kernel

end CommandExample

open CommandExample in
theorem commands_of_run_started : ∃ result db,
    TaskTransitionService.transition .plain HandoffExample.store started = .ok (result, db) ∧
    result.sequence = 1 ∧
    TaskTransitionService.transition .plain db copy = .ok ({ result with replayed := true }, db) ∧
    ∃ e, TaskTransitionService.transition .plain db unsupported = .error e := by
  obtain ⟨⟨result, db⟩, hrun, hone⟩ := Option.map_eq_some_iff.mp started_first
  have hanswers := (commands_of_run reachable).2.2 started result db db
    (Except.ok_of_toOption hrun) .refl
  exact ⟨result, db, Except.ok_of_toOption hrun, hone, hanswers.1 copy copy_same,
    hanswers.2 unsupported rfl unsupported_not_same unsupported_collides_never⟩

end ControlPlane
