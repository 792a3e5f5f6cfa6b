import ControlPlane.Approvals.Pausing
import ControlPlane.Task.Commands

/-!
# Interrupted cancellations

A cancellation commits up to three transactions, and may be interrupted after each. Startup
recovery then completes it from the event of its terminal transition, with the reason and
the state of that event; whoever asked first asks again with their own.

The evidence of a cancellation is captured once, under an identifier derived from the
cancellation; it is in the store from the first transaction on and only read afterwards.

## Main results

* `resumes_of_interrupted`: when a resubmission is accepted, after any recoveries.
-/
namespace ControlPlane

/-! ### Recovery -/

def cancellationsOf (db : Database) (taskId : UUID) : List TaskCancellation :=
  db.taskCancellations.select (·.taskId = taskId)

/-- The reason of a cancellation, as it is compared and stored. -/
def CancelCommand.reason (rt : Runtime) (c : CancelCommand) : String :=
  String.ofList (rt.unicode.upper (rt.unicode.strip c.reasonCode.toList))

/-- What a cancellation is identified by. -/
def CancelCommand.payload (rt : Runtime) (c : CancelCommand) : Json :=
  .obj
    [("cancellation_id", .str c.cancellationId.str),
      ("expected_state", .str c.expectedState.value), ("reason_code", .str (c.reason rt)),
      ("task_id", .str c.taskId.str)]

/-- A transition that ends its task, as recovery looks for them. -/
def TaskEvent.EndsTask (e : TaskEvent) : Prop :=
  (e.transitionKind = some .cancel ∨ e.transitionKind = some .fail) ∧ e.transitionId.isSome = true

/-- What recovery asks for the work of a task that a transition ended. -/
structure TaskEvent.Asks (e : TaskEvent) (c : CancelCommand) : Prop where
  taskId : c.taskId = e.taskId
  cancellationId : e.transitionId = some c.cancellationId
  expectedState : e.transitionFromState = some c.expectedState
  reasonCode : e.transitionReasonCode = some c.reasonCode

/-- What leaves a task, its history and its cancellations alone. -/
structure LeavesTask (taskId : UUID) (db db' : Database) : Prop where
  task : db'.tasks.get? taskId = db.tasks.get? taskId
  events : ∀ e, e.taskId = taskId → (e ∈ db'.taskEvents ↔ e ∈ db.taskEvents)
  cancellations : cancellationsOf db' taskId = cancellationsOf db taskId

/-- Recovery cancels for one event of the task, or does something else: it fences other
tasks, settles leases and outages, expires requests. The page an event was read from may
be older than what another recovery wrote. -/
inductive RecoveryStep (svc : ApprovalService) (rt : Runtime) (taskId : UUID) :
    Database → Database → Prop
  | recover (db : Database) (e : TaskEvent) (c : CancelCommand) (eventId : UUID)
      (hevent : e ∈ db.taskEvents) (htask : e.taskId = taskId) (hends : e.EndsTask)
      (hasks : e.Asks c) :
      RecoveryStep svc rt taskId db (CancellationService.after svc rt db c eventId)
  | other (db db' : Database) (h : LeavesTask taskId db db') : RecoveryStep svc rt taskId db db'

/-- Where a first call of a cancellation was interrupted: after the evidence, after the
decision on the pending request, or after the work was fenced. -/
inductive Interrupted (svc : ApprovalService) (rt : Runtime) (c : CancelCommand) (db : Database) :
    Database → Prop
  | begun (pending : Option UUID) (h : beginCancellation rt db c = .ok (pending, none)) :
      Interrupted svc rt c db db
  | decided (requestId eventId : UUID) (result : ApprovalDecisionResult) (db' : Database)
      (h : beginCancellation rt db c = .ok (some requestId, none))
      (hdecide : svc.decide rt db (c.decision requestId eventId) = .ok (result, db')) :
      Interrupted svc rt c db db'
  | fenced (db' : Database) (h : beginCancellation rt db c = .ok (none, none))
      (hfence : CancellationService.cancelTask rt db { c with transitionEventId := none } =
        .ok db') : Interrupted svc rt c db db'
  | decidedFenced (requestId eventId : UUID) (result : ApprovalDecisionResult)
      (db₁ db' : Database) (h : beginCancellation rt db c = .ok (some requestId, none))
      (hdecide : svc.decide rt db (c.decision requestId eventId) = .ok (result, db₁))
      (hfence : CancellationService.cancelTask rt db₁
        { c with transitionEventId := some result.transitionEventId } = .ok db') :
      Interrupted svc rt c db db'

/-- A resubmission passes the comparisons with what is recorded. -/
def Resumes (rt : Runtime) (db : Database) (c : CancelCommand) : Prop :=
  ∃ found, beginCancellation rt db c = .ok found

/-- A cancellation asks what recovery asks for an event. -/
structure CancelCommand.SameAs (rt : Runtime) (c : CancelCommand) (e : TaskEvent) : Prop where
  taskId : e.taskId = c.taskId
  cancellationId : e.transitionId = some c.cancellationId
  expectedState : e.transitionFromState = some c.expectedState
  reason : ∃ code, e.transitionReasonCode = some code ∧
    rt.unicode.upper (rt.unicode.strip code.toList) =
      rt.unicode.upper (rt.unicode.strip c.reasonCode.toList)

/-- The schema: only transitions have the columns of a transition. -/
def TransitionsShaped (db : Database) : Prop :=
  ∀ e ∈ db.taskEvents, e.transitionId.isSome = true → e.eventType = taskTransitionEventType

/-- No digest is shared by a cancellation and one that recovery asks for its task. -/
def CancellationDigests (rt : Runtime) (db : Database) (c : CancelCommand) : Prop :=
  ∀ e ∈ db.taskEvents, ∀ r : CancelCommand, e.taskId = c.taskId → e.EndsTask → e.Asks r →
    rt.fingerprint (r.payload rt) = rt.fingerprint (c.payload rt) → r.payload rt = c.payload rt

/-! ### What ends a task -/

section Endings
variable {rt : Runtime} {taskId : UUID} {db : Database} {e e' : TaskEvent}

/-- Every event of a lifecycle records a plan of the engine for a live task. -/
theorem Lifecycle.edges_of_reachable {l : Lifecycle} (h : Lifecycle.machine.Reachable l) :
    ∀ e ∈ l.history, ∃ s plan, s.state.isTerminal = false ∧ Edge s plan ∧ e.Records plan := by
  refine h.invariant (P := fun l => ∀ e ∈ l.history, ∃ s plan,
    s.state.isTerminal = false ∧ Edge s plan ∧ e.Records plan) ?_ ?_
  · rintro l rfl e he
    cases he
  · rintro l l' hedges ⟨verified, plan, e, -, hlive, hedge, hrecords, -, rfl⟩ e' he'
    rw [Lifecycle.advance, List.mem_append, List.mem_singleton] at he'
    obtain hold | rfl := he'
    · exact hedges e' hold
    · exact ⟨_, plan, hlive, hedge, hrecords⟩

theorem Edge.ends {s : TaskTransitionSnapshot} {plan : TaskTransitionPlan} (h : Edge s plan)
    (hkind : plan.kind = .cancel ∨ plan.kind = .fail) :
    plan.toState = .cancelled ∨ plan.toState = .failed := by
  cases h <;> simp_all

theorem mem_transitionsOf (hshape : TransitionsShaped db) (he : e ∈ db.taskEvents)
    (htask : e.taskId = taskId) (hends : e.EndsTask) : e ∈ transitionsOf db taskId := by
  have htype := hshape e he hends.2
  exact List.mem_filter.mpr ⟨he, by simp [htask, htype]⟩

/-- Where a task stands that a transition ended. -/
structure EndedAt (db : Database) (e : TaskEvent) (task : Task) : Prop where
  task_eq : db.tasks.get? e.taskId = some task
  state : task.state = .cancelled ∨ task.state = .failed
  toState : e.transitionToState = some task.state
  from_live : ∀ s ∈ e.transitionFromState, s.isTerminal = false
  last : ∀ e' ∈ transitionsOf db e.taskId,
    (∃ s ∈ e'.transitionToState, s.isTerminal = true) → e' = e

/-- In every run a transition that ends a task is the last of its history. -/
theorem ended_of_reachable (h : (taskLifecycle rt taskId).Reachable db)
    (he : e ∈ transitionsOf db taskId) (htask : e.taskId = taskId) (hends : e.EndsTask) :
    ∃ task, EndedAt db e task := by
  obtain ⟨l, hreach, task, htask', rfl⟩ := (taskLifecycle_simulates rt taskId).reachable h
  have hinv := Lifecycle.invariant_of_reachable hreach
  obtain ⟨s, plan, hlive, hedge, hrecords⟩ := Lifecycle.edges_of_reachable hreach e he
  have hkind : plan.kind = .cancel ∨ plan.kind = .fail := by
    have := hends.1
    rw [hrecords.kind, Option.some.injEq, Option.some.injEq] at this
    exact this
  have hto := hedge.ends hkind
  have hlast (e' : TaskEvent) (he' : e' ∈ transitionsOf db taskId)
      (hterminal : ∃ s ∈ e'.transitionToState, s.isTerminal = true) :
      (transitionsOf db taskId).getLast? = some e' := by
    obtain ⟨s', hs', hterminal⟩ := hterminal
    obtain ⟨before, after, hsplit⟩ := List.append_of_mem he'
    have hpairs : (transitionsOf db taskId).Pairwise
        fun e _ => ∀ s ∈ e.transitionToState, s.isTerminal = false := hinv.live_before
    rw [hsplit, List.pairwise_append] at hpairs
    cases after with
    | nil => rw [hsplit, List.getLast?_append_cons, List.getLast?_singleton]
    | cons next after =>
      have hlive := (List.pairwise_cons.mp hpairs.2.1).1 next (List.mem_cons_self ..) s' hs'
      rw [hterminal] at hlive
      cases hlive
  have hterminal : ∃ s ∈ e.transitionToState, s.isTerminal = true := by
    refine ⟨plan.toState, hrecords.toState, ?_⟩
    obtain hto | hto := hto
    · rw [hto]
      rfl
    · rw [hto]
      rfl
  have hstate : e.transitionToState = some task.state := hinv.ends e (hlast e he hterminal)
  have hplan : plan.toState = task.state :=
    Option.some.inj (hrecords.toState.symm.trans hstate)
  refine ⟨task, htask ▸ htask', hplan ▸ hto, hstate, ?_, ?_⟩
  · intro s' hs'
    rw [hrecords.fromState, Option.mem_some_iff, hedge.fromState_eq] at hs'
    exact hs' ▸ hlive
  · intro e' he' hterminal'
    rw [htask] at he'
    exact Option.some.inj ((hlast e' he' hterminal').symm.trans (hlast e he hterminal))

theorem EndedAt.single {task task' : Task} (h : EndedAt db e task) (h' : EndedAt db e' task')
    (he : e ∈ transitionsOf db e'.taskId) : e = e' := by
  refine h'.last e he ⟨task.state, h.toState, ?_⟩
  obtain hstate | hstate := h.state
  · rw [hstate]
    rfl
  · rw [hstate]
    rfl

end Endings

/-! ### One cancellation -/

section Cancellations
variable {svc : ApprovalService} {rt : Runtime} {taskId : UUID} {db db' db'' : Database}
  {c r : CancelCommand} {e : TaskEvent}

theorem LeavesTask.refl (taskId : UUID) (db : Database) : LeavesTask taskId db db :=
  ⟨rfl, fun _ _ => Iff.rfl, rfl⟩

theorem LeavesTask.trans (h : LeavesTask taskId db db') (h' : LeavesTask taskId db' db'') :
    LeavesTask taskId db db'' :=
  ⟨h'.task.trans h.task, fun e he => (h'.events e he).trans (h.events e he),
    h'.cancellations.trans h.cancellations⟩

theorem LeavesTask.of_eq (htasks : db'.tasks = db.tasks) (hevents : db'.taskEvents = db.taskEvents)
    (hcancellations : db'.taskCancellations = db.taskCancellations) : LeavesTask taskId db db' where
  task := by rw [htasks]
  events e _ := by rw [hevents]
  cancellations := by rw [cancellationsOf, hcancellations, cancellationsOf]

theorem find?_cancellations (db : Database) (taskId : UUID) :
    db.taskCancellations.rows.find? (·.taskId = taskId) = (cancellationsOf db taskId).head? :=
  List.head?_filter.symm

theorem fenceJob_cancellations {code : String} {corrupt : BackgroundJobError} {now : Time}
    {job : BackgroundJob} (h : fenceJob code corrupt now db job = .ok db') :
    db'.taskCancellations = db.taskCancellations := by
  unfold fenceJob at h
  split at h
  · split at h
    · simp only [Except.bind_eq_ok, Except.pure_eq_ok] at h
      obtain ⟨_, -, _, -, rfl⟩ := h
      rfl
    · cases h
      rfl
  · cases h
    rfl

/-- Fencing jobs touches neither a task nor its cancellation. -/
theorem fenceJobs_leaves {code reason : String} {corrupt : BackgroundJobError} {now : Time}
    {id : UUID} (h : fenceJobs db id code reason corrupt now = .ok db') :
    LeavesTask taskId db db' := by
  have hsame := fenceJobs_same h
  refine .of_eq hsame.tasks hsame.events ?_
  simp only [fenceJobs, Except.bind_eq_ok, Except.pure_eq_ok] at h
  obtain ⟨db₁, h₁, rfl⟩ := h
  change db₁.taskCancellations = _
  generalize jobsOf db id = jobs at h₁
  clear hsame
  induction jobs generalizing db with
  | nil =>
    cases h₁
    rfl
  | cons job jobs ih =>
    simp only [List.foldlM_cons, Except.bind_eq_ok] at h₁
    obtain ⟨db₂, h₂, h₁⟩ := h₁
    exact (ih h₁).trans (fenceJob_cancellations h₂)

/-- A cancellation of the task is recorded with the identifier and the digest of the
command. -/
def CarriesRow (rt : Runtime) (db : Database) (c : CancelCommand) : Prop :=
  ∃ row, cancellationsOf db c.taskId = [row] ∧ row.id = c.cancellationId ∧
    row.requestFingerprint = rt.fingerprint (c.payload rt)

theorem CarriesRow.leaves (h : CarriesRow rt db c) (hleaves : LeavesTask c.taskId db db') :
    CarriesRow rt db' c := by
  rw [CarriesRow, hleaves.cancellations]
  exact h

theorem cancelTask_ok {eventId : Option UUID} (taskId : UUID)
    (h : CancellationService.cancelTask rt db { c with transitionEventId := eventId } = .ok db') :
    ∃ task recorded, db.tasks.get? c.taskId = some task ∧
      recordCancellation rt db { c with transitionEventId := eventId } task (c.reason rt) =
        .ok recorded ∧ LeavesTask taskId recorded db' := by
  simp only [CancellationService.cancelTask, Except.bind_eq_ok, Except.orThrow_eq_ok] at h
  obtain ⟨_, -, task, htask, recorded, hrecord, hfence⟩ := h
  exact ⟨task, recorded, htask, hrecord, fenceJobs_leaves hfence⟩

/-- Where a cancellation is recorded, another one changes nothing of it. -/
theorem finishCancellation_recorded (hrecorded : cancellationsOf db c.taskId ≠ [])
    (eventId : Option UUID) : LeavesTask taskId db (finishCancellation rt db c eventId) := by
  unfold finishCancellation
  split
  · rename_i db' haccepted
    obtain ⟨task, recorded, htask, hrecord, hleaves⟩ := cancelTask_ok taskId haccepted
    have hid : task.id = c.taskId := Table.key_of_get? htask
    obtain ⟨row, rows, hrows⟩ := List.exists_cons_of_ne_nil hrecorded
    simp only [recordCancellation, hid, find?_cancellations, hrows, List.head?_cons,
      Except.bind_eq_ok, Except.pure_eq_ok] at hrecord
    obtain ⟨_, -, rfl⟩ := hrecord
    exact hleaves
  · exact .refl taskId db

/-- The row of a cancellation that is the first of its task. -/
theorem recordedFor_inserted {row : TaskCancellation} {rows : Table TaskCancellation}
    (hinsert : db.taskCancellations.insert? row = some rows)
    (hnone : cancellationsOf db c.taskId = []) (htask : row.taskId = c.taskId)
    (hid : row.id = c.cancellationId)
    (hfingerprint : row.requestFingerprint = rt.fingerprint (c.payload rt))
    (hrows : db'.taskCancellations = rows) : CarriesRow rt db' c := by
  refine ⟨row, ?_, hid, hfingerprint⟩
  have hnone : db.taskCancellations.rows.filter (fun row => decide (row.taskId = c.taskId)) = [] :=
    hnone
  rw [cancellationsOf, hrows, Table.select, (Table.insert?_eq_some.mp hinsert).2,
    List.filter_append, hnone]
  simp [htask]

/-- A first cancellation that goes through is recorded with its own data. -/
theorem cancelTask_records {eventId : Option UUID} (hnone : cancellationsOf db c.taskId = [])
    (h : CancellationService.cancelTask rt db { c with transitionEventId := eventId } = .ok db') :
    CarriesRow rt db' c := by
  obtain ⟨task, recorded, htask, hrecord, hleaves⟩ := cancelTask_ok c.taskId h
  refine CarriesRow.leaves ?_ hleaves
  have hid : task.id = c.taskId := Table.key_of_get? htask
  simp only [recordCancellation, hid, find?_cancellations, hnone, List.head?_nil,
    Except.bind_eq_ok, Except.orThrow_eq_ok, Except.pure_eq_ok] at hrecord
  obtain ⟨⟨_, moved⟩, hterminal, rows, hinsert, rfl⟩ := hrecord
  have hmoved : moved.taskCancellations = db.taskCancellations := by
    unfold terminalTransition at hterminal
    split at hterminal
    · simp only [Except.bind_eq_ok, Except.relabel_eq_ok, Except.pure_eq_ok,
        Prod.mk.injEq] at hterminal
      obtain ⟨⟨result, _⟩, htransition, -, rfl⟩ := hterminal
      obtain rfl | ⟨a, rfl⟩ := transitionTask_ok htransition
      · rfl
      · rfl
    · simp only [Except.bind_eq_ok, Except.pure_eq_ok, Prod.mk.injEq] at hterminal
      obtain ⟨_, -, -, rfl⟩ := hterminal
      rfl
  rw [hmoved] at hinsert
  exact recordedFor_inserted hinsert hnone rfl rfl rfl rfl

/-- The task of a cancellation that goes through is there afterwards. -/
theorem cancelTask_task {eventId : Option UUID}
    (h : CancellationService.cancelTask rt db { c with transitionEventId := eventId } = .ok db') :
    ∃ task, db'.tasks.get? c.taskId = some task := by
  simp only [CancellationService.cancelTask, Except.bind_eq_ok, Except.orThrow_eq_ok] at h
  obtain ⟨_, -, task, htask, recorded, hrecord, hfence⟩ := h
  rw [(fenceJobs_same hfence).tasks]
  obtain hsame | ⟨-, -, result, moved, htransition, hsame⟩ := recordCancellation_moves hrecord
  · exact ⟨task, hsame.tasks ▸ htask⟩
  · rw [hsame.tasks]
    obtain rfl | ⟨a, rfl⟩ := transitionTask_ok htransition
    · exact ⟨task, htask⟩
    · rw [a.get?_after]
      exact ⟨_, if_pos rfl⟩

/-- Fencing a task that a transition ended writes the row of the cancellation at most. -/
theorem finishCancellation_ended (rt : Runtime) (eventId : UUID)
    (hnone : cancellationsOf db c.taskId = []) :
    LeavesTask c.taskId db (finishCancellation rt db c (some eventId)) ∨
      (CarriesRow rt (finishCancellation rt db c (some eventId)) c ∧
        (finishCancellation rt db c (some eventId)).tasks = db.tasks ∧
        (finishCancellation rt db c (some eventId)).taskEvents = db.taskEvents) := by
  unfold finishCancellation
  split
  · rename_i db' haccepted
    have hrecorded := cancelTask_records hnone haccepted
    simp only [CancellationService.cancelTask, Except.bind_eq_ok, Except.orThrow_eq_ok] at haccepted
    obtain ⟨_, -, task, htask, recorded, hrecord, hfence⟩ := haccepted
    have hfenced := fenceJobs_same hfence
    obtain hsame | ⟨-, hevent, -⟩ := recordCancellation_moves hrecord
    · have hlast := hsame.trans hfenced
      exact .inr ⟨hrecorded, hlast.tasks, hlast.events⟩
    · cases hevent
  · exact .inl (.refl _ db)

/-- The comparisons with a cancellation that is recorded. -/
theorem resumes_recorded {row : TaskCancellation} {task : Task}
    (htask : db.tasks.get? c.taskId = some task) (hrow : cancellationsOf db c.taskId = [row])
    (hreason : reasonCode.fullmatch (CharClass.holds rt.unicode)
      (rt.unicode.upper (rt.unicode.strip c.reasonCode.toList)) = true) :
    Resumes rt db c ↔ row.id = c.cancellationId ∧
      row.requestFingerprint = rt.fingerprint (c.payload rt) := by
  have hid : task.id = c.taskId := Table.key_of_get? htask
  have hfingerprint : cancellationFingerprint rt c (c.reason rt) = rt.fingerprint (c.payload rt) :=
    rfl
  rw [CancelCommand.reason] at hfingerprint
  simp only [Resumes, beginCancellation, Except.require, if_pos hreason, Except.ok_bind, htask,
    Except.orThrow, hid, find?_cancellations, hrow, List.head?_cons, hfingerprint]
  constructor
  · rintro ⟨found, hfound⟩
    split at hfound
    · assumption
    · cases hfound
  · intro hsame
    rw [if_pos hsame]
    exact ⟨(none, none), rfl⟩

theorem reason_of_begin {found : Option UUID × Option UUID}
    (h : beginCancellation rt db c = .ok found) :
    reasonCode.fullmatch (CharClass.holds rt.unicode)
      (rt.unicode.upper (rt.unicode.strip c.reasonCode.toList)) = true ∧
      ∃ task, db.tasks.get? c.taskId = some task := by
  simp only [beginCancellation, Except.bind_eq_ok, Except.require_eq_ok, Except.orThrow_eq_ok] at h
  obtain ⟨_, hreason, task, htask, -⟩ := h
  exact ⟨hreason, task, htask⟩

/-- A task that a resubmission may go on with. -/
def Resumable (db : Database) (c : CancelCommand) : Prop :=
  ∃ task, db.tasks.get? c.taskId = some task ∧ (task.state = c.expectedState ∨
    ∃ e ∈ db.taskEvents, e.taskId = c.taskId ∧ e.transitionId = some c.cancellationId ∧
      (e.transitionKind = some .cancel ∨ e.transitionKind = some .fail) ∧
      (e.transitionToState = some .cancelled ∨ e.transitionToState = some .failed))

/-- The comparisons where nothing is recorded. -/
theorem resumes_unrecorded (hnone : cancellationsOf db c.taskId = [])
    (hreason : reasonCode.fullmatch (CharClass.holds rt.unicode)
      (rt.unicode.upper (rt.unicode.strip c.reasonCode.toList)) = true)
    (h : Resumable db c) : Resumes rt db c := by
  obtain ⟨task, htask, hstate⟩ := h
  have hid : task.id = c.taskId := Table.key_of_get? htask
  simp only [Resumes, beginCancellation, Except.require, if_pos hreason, Except.ok_bind, htask,
    Except.orThrow, hid, find?_cancellations, hnone, List.head?_nil]
  by_cases hsame : task.state = c.expectedState
  · rw [if_pos hsame]
    exact ⟨_, rfl⟩
  · obtain ⟨e, he, htaskId, hidentifier, hkind, hto⟩ := hstate.resolve_left hsame
    rw [if_neg hsame]
    cases hrecovered : recoveredTransition db c.taskId c.cancellationId with
    | some eventId => exact ⟨(none, some eventId), rfl⟩
    | none =>
      rw [recoveredTransition, Option.map_eq_none_iff, List.find?_eq_none] at hrecovered
      exact absurd (by simp [htaskId, hidentifier, hkind, hto]) (hrecovered e he)

theorem resumable_of_begin {pending : Option UUID}
    (hnone : cancellationsOf db c.taskId = [])
    (h : beginCancellation rt db c = .ok (pending, none)) :
    ∃ task, db.tasks.get? c.taskId = some task ∧ task.state = c.expectedState ∧
      pending = pendingApproval db c.taskId := by
  simp only [beginCancellation, Except.bind_eq_ok, Except.orThrow_eq_ok] at h
  obtain ⟨_, -, task, htask, h⟩ := h
  have hid : task.id = c.taskId := Table.key_of_get? htask
  simp only [hid, find?_cancellations, hnone, List.head?_nil] at h
  refine ⟨task, htask, ?_⟩
  split at h
  · rename_i hstate
    rw [Except.ok.injEq, Prod.mk.injEq] at h
    exact ⟨hstate, h.1.symm⟩
  · simp only [Except.bind_eq_ok, Except.pure_eq_ok, Prod.mk.injEq] at h
    obtain ⟨_, -, -, h⟩ := h
    cases h

/-- Whoever fences a task leaves it with one row, its own. -/
theorem cancelTask_recorded {eventId : Option UUID}
    (hrows : (cancellationsOf db c.taskId).length ≤ 1)
    (h : CancellationService.cancelTask rt db { c with transitionEventId := eventId } = .ok db') :
    CarriesRow rt db' c := by
  cases hnone : cancellationsOf db c.taskId with
  | nil => exact cancelTask_records hnone h
  | cons row rows =>
    rw [hnone, List.length_cons] at hrows
    obtain rfl : rows = [] := List.length_eq_zero_iff.mp (by omega)
    obtain ⟨task, recorded, htask, hrecord, hleaves⟩ := cancelTask_ok c.taskId h
    have hid : task.id = c.taskId := Table.key_of_get? htask
    simp only [recordCancellation, hid, find?_cancellations, hnone, List.head?_cons,
      Except.bind_eq_ok, Except.require_eq_ok, Except.pure_eq_ok] at hrecord
    obtain ⟨_, ⟨hrow, hfingerprint⟩, rfl⟩ := hrecord
    exact CarriesRow.leaves ⟨row, hnone, hrow, hfingerprint⟩ hleaves

end Cancellations

/-! ### Recoveries -/

section Recoveries
variable {svc : ApprovalService} {rt : Runtime} {db₁ db db' : Database} {c : CancelCommand}

/-- What recoveries may leave of a task whose cancellation was not recorded. -/
structure Recovering (rt : Runtime) (taskId : UUID) (db₁ db : Database) : Prop where
  task : db.tasks.get? taskId = db₁.tasks.get? taskId
  events : ∀ e, e.taskId = taskId → (e ∈ db.taskEvents ↔ e ∈ db₁.taskEvents)
  row : cancellationsOf db taskId = [] ∨ ∃ e ∈ db₁.taskEvents, ∃ r : CancelCommand,
    e.taskId = taskId ∧ e.EndsTask ∧ e.Asks r ∧ CarriesRow rt db r

theorem Recovering.leaves {taskId : UUID} (h : Recovering rt taskId db₁ db)
    (hleaves : LeavesTask taskId db db') : Recovering rt taskId db₁ db' where
  task := hleaves.task.trans h.task
  events e he := (hleaves.events e he).trans (h.events e he)
  row := by
    rw [hleaves.cancellations]
    refine h.row.imp_right ?_
    rintro ⟨e, he, r, htask, hends, hasks, hrecorded⟩
    have hid : r.taskId = taskId := hasks.taskId.trans htask
    exact ⟨e, he, r, htask, hends, hasks, hrecorded.leaves (hid ▸ hleaves)⟩

/-- A cancellation that finds another recorded changes nothing of it. -/
theorem after_recorded {eventId : UUID} (hrecorded : cancellationsOf db c.taskId ≠ []) :
    LeavesTask c.taskId db (CancellationService.after svc rt db c eventId) := by
  unfold CancellationService.after
  cases hbegin : beginCancellation rt db c with
  | error e => exact .refl _ db
  | ok found =>
    obtain ⟨row, rows, hrows⟩ := List.exists_cons_of_ne_nil hrecorded
    simp only [beginCancellation, Except.bind_eq_ok, Except.orThrow_eq_ok] at hbegin
    obtain ⟨_, -, task, htask, hbegin⟩ := hbegin
    have hid : task.id = c.taskId := Table.key_of_get? htask
    simp only [hid, find?_cancellations, hrows, List.head?_cons, Except.bind_eq_ok,
      Except.pure_eq_ok] at hbegin
    obtain ⟨_, -, rfl⟩ := hbegin
    exact finishCancellation_recorded hrecorded none

/-- A recovery writes the row of the event it recovers, once. -/
theorem Recovering.step (h : Recovering rt c.taskId db₁ db)
    (hended : ∀ e ∈ db₁.taskEvents, e.taskId = c.taskId → e.EndsTask → ∃ task, EndedAt db₁ e task)
    (hstep : RecoveryStep svc rt c.taskId db db') : Recovering rt c.taskId db₁ db' := by
  cases hstep with
  | other _ hleaves => exact h.leaves hleaves
  | recover e r eventId hevent htask hends hasks =>
    have hid : r.taskId = c.taskId := hasks.taskId.trans htask
    have hevent₁ := (h.events e htask).mp hevent
    by_cases hnone : cancellationsOf db r.taskId = []
    · obtain ⟨task, hended⟩ := hended e hevent₁ htask hends
      have htask₁ : db.tasks.get? r.taskId = some task := by
        rw [hid, h.task, ← htask, hended.task_eq]
      have htaskId : task.id = r.taskId := Table.key_of_get? htask₁
      -- A task that has ended is not where its last transition came from.
      have hmoved : task.state ≠ r.expectedState := by
        intro hstate
        have hlive := hended.from_live _ hasks.expectedState
        rw [← hstate] at hlive
        obtain hend | hend := hended.state
        · rw [hend] at hlive
          cases hlive
        · rw [hend] at hlive
          cases hlive
      unfold CancellationService.after
      cases hbegin : beginCancellation rt db r with
      | error e => exact h
      | ok found =>
        simp only [beginCancellation, Except.bind_eq_ok, Except.orThrow_eq_ok, htask₁,
          Option.some.injEq] at hbegin
        obtain ⟨_, -, _, rfl, hbegin⟩ := hbegin
        simp only [htaskId, find?_cancellations, hnone, List.head?_nil, if_neg hmoved,
          Except.bind_eq_ok, Except.pure_eq_ok] at hbegin
        obtain ⟨recovered, -, rfl⟩ := hbegin
        obtain hleaves | ⟨hrecorded, htasks, hevents⟩ :=
          finishCancellation_ended rt recovered hnone
        · exact h.leaves (hid ▸ hleaves)
        · refine ⟨?_, ?_, .inr ⟨e, hevent₁, r, htask, hends, hasks, hrecorded⟩⟩
          · change (finishCancellation rt db r (some recovered)).tasks.get? _ = _
            rw [htasks, h.task]
          · intro e' he'
            change e' ∈ (finishCancellation rt db r (some recovered)).taskEvents ↔ _
            rw [hevents, h.events e' he']
    · exact h.leaves (hid ▸ after_recorded hnone)

theorem Recovering.run {db₂ : Database} (h : Recovering rt c.taskId db₁ db)
    (hended : ∀ e ∈ db₁.taskEvents, e.taskId = c.taskId → e.EndsTask → ∃ task, EndedAt db₁ e task)
    (hrun : Relation.ReflTransGen (RecoveryStep svc rt c.taskId) db db₂) :
    Recovering rt c.taskId db₁ db₂ := by
  induction hrun with
  | refl => exact h
  | tail _ hstep ih => exact ih.step hended hstep

/-- Nothing is recovered of a task whose cancellation was recorded. -/
theorem CarriesRow.run {db₂ : Database} (h : CarriesRow rt db c)
    (hrun : Relation.ReflTransGen (RecoveryStep svc rt c.taskId) db db₂) :
    LeavesTask c.taskId db db₂ := by
  induction hrun with
  | refl => exact .refl _ db
  | tail _ hstep ih =>
    cases hstep with
    | other _ hleaves => exact ih.trans hleaves
    | recover e r eventId hevent htask hends hasks =>
      have hid : r.taskId = c.taskId := hasks.taskId.trans htask
      obtain ⟨row, hrow, -⟩ := h.leaves ih
      refine ih.trans (hid ▸ after_recorded ?_)
      rw [hid, hrow]
      exact List.cons_ne_nil row []

/-- A cancellation has the payload of one that recovery asks for an event just when it asks
the same. -/
theorem sameAs_iff {e : TaskEvent} {r : CancelCommand} (hasks : e.Asks r)
    (htask : e.taskId = c.taskId) : c.SameAs rt e ↔ r.cancellationId = c.cancellationId ∧
      r.payload rt = c.payload rt := by
  have hid : r.taskId = c.taskId := hasks.taskId.trans htask
  constructor
  · rintro ⟨-, hcancellation, hstate, code, hcode, hreason⟩
    rw [hasks.cancellationId, Option.some.injEq] at hcancellation
    rw [hasks.expectedState, Option.some.injEq] at hstate
    rw [hasks.reasonCode, Option.some.injEq] at hcode
    subst hcode
    refine ⟨hcancellation, ?_⟩
    rw [CancelCommand.payload, CancelCommand.payload, CancelCommand.reason, CancelCommand.reason,
      hcancellation, hstate, hid, hreason]
  · rintro ⟨hcancellation, hpayload⟩
    simp only [CancelCommand.payload, CancelCommand.reason, Json.obj.injEq, List.cons.injEq,
      Prod.mk.injEq, Json.str.injEq, true_and, and_true, String.ofList_inj]
      at hpayload
    obtain ⟨-, hstate, hreason, -⟩ := hpayload
    refine ⟨htask, hcancellation ▸ hasks.cancellationId, ?_, r.reasonCode, hasks.reasonCode,
      hreason⟩
    rw [hasks.expectedState, TaskState.value_inj hstate]

end Recoveries

/-! ### The decision of a cancellation -/

section Decided
variable {svc : ApprovalService} {rt : Runtime} {db db₁ : Database} {c : CancelCommand}
  {requestId eventId : UUID} {result : ApprovalDecisionResult}

/-- The decision a cancellation takes: an expired request is expired instead. -/
theorem decision_of_cancel
    (a : Asked rt db (c.decision requestId eventId)) :
    a.decision = .cancel ∨ a.decision = .expire := by
  unfold Asked.decision effectiveDecision
  split
  · exact .inr rfl
  · exact .inl rfl

theorem RecordedDecision.ends {a : Asked rt db (c.decision requestId eventId)}
    (r : RecordedDecision svc rt db db₁ (c.decision requestId eventId) result a) :
    r.checked.kind = .cancel ∨ r.checked.kind = .fail := by
  have hchecked := r.checked_eq
  simp only [checkDecision, Except.bind_eq_ok, Except.pure_eq_ok] at hchecked
  obtain ⟨_, -, _, -, type, -, ⟨status, kind, gates⟩, hprojection, _, -, _, -, exact, -,
    hchecked⟩ := hchecked
  rw [← hchecked]
  obtain hdecision | hdecision := decision_of_cancel a
  · rw [hdecision, decisionProjection, Except.ok.injEq, Prod.mk.injEq, Prod.mk.injEq]
      at hprojection
    exact .inl hprojection.2.1.symm
  · rw [hdecision, decisionProjection, Except.ok.injEq, Prod.mk.injEq, Prod.mk.injEq]
      at hprojection
    exact .inr hprojection.2.1.symm

/-- A decision of a cancellation leaves the cancellations alone. -/
theorem RecordedDecision.cancellations {a : Asked rt db (c.decision requestId eventId)}
    (r : RecordedDecision svc rt db db₁ (c.decision requestId eventId) result a) :
    db₁.taskCancellations = db.taskCancellations := by
  have hmoved : r.moved.taskCancellations = db.taskCancellations := by
    obtain hmoved | ⟨b, hmoved⟩ := transitionTask_ok r.transition_eq
    · rw [hmoved]
    · rw [hmoved]
      rfl
  have hprojected : r.projected.taskCancellations = r.moved.taskCancellations := by
    have h := r.projected_eq
    unfold projectSubjectDecision at h
    split at h
    · simp only [Except.bind_eq_ok, Except.pure_eq_ok] at h
      obtain ⟨_, -, h⟩ := h
      rw [← h]
      rfl
    · rw [if_neg] at h
      · rw [← Except.ok.inj h]
        rfl
      · obtain hdecision | hdecision := decision_of_cancel a
        · rw [hdecision]
          simp
        · rw [hdecision]
          simp
    · rw [← Except.ok.inj h]
      rfl
  have hlast : db₁.taskCancellations = r.projected.taskCancellations := by
    have h := r.event_eq
    simp only [appendApprovalEvent, Except.bind_eq_ok, Except.pure_eq_ok, Prod.mk.injEq] at h
    obtain ⟨_, -, _, -, _, -, -, h⟩ := h
    exact (congrArg Database.taskCancellations h).symm
  rw [hlast, hprojected, hmoved]

theorem RecordedDecision.event_shape {a : Asked rt db (c.decision requestId eventId)}
    (r : RecordedDecision svc rt db db₁ (c.decision requestId eventId) result a) :
    r.event.transitionId = none ∧ r.event.eventType ≠ taskTransitionEventType := by
  obtain ⟨⟨blocked, hevent⟩, -⟩ := appendApprovalEvent_ok r.event_eq
  rw [hevent]
  refine ⟨rfl, ?_⟩
  change decisionEventType a.decision ≠ _
  obtain hdecision | hdecision := decision_of_cancel a
  · rw [hdecision]
    decide
  · rw [hdecision]
    decide

/-- A transition and an event of another type are a transition, for the lifecycle. -/
theorem reachable_of_moved {taskId : UUID} {command : TaskTransitionCommand}
    {answer : TaskTransitionResult} {moved : Database} {event : TaskEvent}
    (hdb : (taskLifecycle rt taskId).Reachable db)
    (hmoved : transitionTask rt db command = .ok (answer, moved))
    (htasks : db₁.tasks = moved.tasks)
    (hrows : db₁.taskEvents.rows = moved.taskEvents.rows ++ [event])
    (htype : event.eventType ≠ taskTransitionEventType) :
    (taskLifecycle rt taskId).Reachable db₁ := by
  have hnext : (taskLifecycle rt taskId).Reachable moved :=
    hdb.tail (.inl ⟨command, answer, transition_eq.trans hmoved⟩)
  refine hnext.tail (.inr ?_)
  rintro l ⟨task, htask, rfl⟩
  have hhistory : transitionsOf db₁ taskId = transitionsOf moved taskId := by
    simp [transitionsOf, Table.select, hrows, htype]
  exact ⟨task, by rw [htasks, htask], by rw [hhistory]⟩

theorem shaped_of_moved {command : TaskTransitionCommand} {answer : TaskTransitionResult}
    {moved : Database} {event : TaskEvent} (hshape : TransitionsShaped db)
    (hmoved : transitionTask rt db command = .ok (answer, moved))
    (hrows : db₁.taskEvents.rows = moved.taskEvents.rows ++ [event])
    (hid : event.transitionId = none) : TransitionsShaped db₁ := by
  intro e he hsome
  rw [Table.mem_def, hrows, List.mem_append, List.mem_singleton] at he
  obtain he | rfl := he
  · obtain rfl | ⟨b, rfl⟩ := transitionTask_ok hmoved
    · exact hshape e he hsome
    · rw [b.rows_after, List.mem_append, List.mem_singleton] at he
      obtain he | rfl := he
      · exact hshape e he hsome
      · rfl
  · rw [hid] at hsome
    cases hsome

/-- A decision of a cancellation keeps the lifecycle and the schema. -/
theorem lifecycle_decide {taskId : UUID} (hdb : (taskLifecycle rt taskId).Reachable db)
    (hshape : TransitionsShaped db)
    (hdecide : svc.decide rt db (c.decision requestId eventId) = .ok (result, db₁)) :
    (taskLifecycle rt taskId).Reachable db₁ ∧ TransitionsShaped db₁ := by
  obtain ⟨a, ⟨-, hrecord⟩ | ⟨-, rfl, -⟩⟩ := decide_ok hdecide
  · obtain ⟨r⟩ := recordDecision_ok hrecord
    exact ⟨reachable_of_moved hdb r.transition_eq r.tasks_eq r.rows_eq r.event_shape.2,
      shaped_of_moved hshape r.transition_eq r.rows_eq r.event_shape.1⟩
  · exact ⟨hdb, hshape⟩

/-- So does a new request. -/
theorem lifecycle_request {taskId : UUID} {q : RequestCommand} {answer : ApprovalRequestResult}
    (hdb : (taskLifecycle rt taskId).Reachable db) (hshape : TransitionsShaped db)
    (hfresh : db.approvalRequests.get? q.requestId = none)
    (hrequest : svc.request rt db q = .ok (answer, db₁)) :
    (taskLifecycle rt taskId).Reachable db₁ ∧ TransitionsShaped db₁ ∧
      db₁.taskCancellations = db.taskCancellations := by
  simp only [ApprovalService.request, Except.bind_eq_ok, Except.orThrow_eq_ok, hfresh] at hrequest
  obtain ⟨⟨reason, shape⟩, -, task, -, subject, -, hopen⟩ := hrequest
  simp only [ApprovalService.openRequest, Except.bind_eq_ok, Except.require_eq_ok,
    Except.orThrow_eq_ok, Except.relabel_eq_ok, Except.pure_eq_ok, Prod.mk.injEq] at hopen
  obtain ⟨_, -, _, -, _, -, policyVersionId, -, requests, -, ⟨transition, moved⟩,
    htransition, moving, -, ⟨event, last⟩, happend, -, rfl⟩ := hopen
  obtain ⟨⟨blocked, hevent⟩, hrows, htasks, -⟩ := appendApprovalEvent_ok happend
  have hinserted : (taskLifecycle rt taskId).Reachable { db with approvalRequests := requests } :=
    hdb.tail (.inr fun _ hl => hl)
  have hshaped : TransitionsShaped { db with approvalRequests := requests } := hshape
  refine ⟨reachable_of_moved hinserted htransition htasks hrows ?_,
    shaped_of_moved hshaped htransition hrows ?_, ?_⟩
  · rw [hevent]
    change "APPROVAL_REQUESTED" ≠ taskTransitionEventType
    decide
  · rw [hevent]
    rfl
  · have hlast : last.taskCancellations = moved.taskCancellations := by
      simp only [appendApprovalEvent, Except.bind_eq_ok, Except.pure_eq_ok, Prod.mk.injEq]
        at happend
      obtain ⟨_, -, _, -, _, -, -, rfl⟩ := happend
      rfl
    obtain hsame | ⟨b, hmoved⟩ := transitionTask_ok htransition
    · rw [hlast, hsame]
    · rw [hlast, hmoved]
      rfl

theorem request_of_pending {taskId : UUID} (h : some requestId = pendingApproval db taskId) :
    ∃ request, db.approvalRequests.get? requestId = some request ∧ request.taskId = taskId := by
  obtain ⟨request, hhead, rfl⟩ := Option.map_eq_some_iff.mp h.symm
  have hmem := List.mem_filter.mp (List.mem_of_mem_head? hhead)
  refine ⟨request, Table.get?_eq_some.mpr ⟨hmem.1, rfl⟩, ?_⟩
  have := hmem.2
  simp_all

/-- Once the decision is recorded the cancellation may go on with its transition. -/
theorem resumable_decide (hnone : cancellationsOf db c.taskId = [])
    (hbegin : beginCancellation rt db c = .ok (some requestId, none))
    (hdecide : svc.decide rt db (c.decision requestId eventId) = .ok (result, db₁)) :
    cancellationsOf db₁ c.taskId = [] ∧ Resumable db₁ c := by
  obtain ⟨task, htask, hstate, hpending⟩ := resumable_of_begin hnone hbegin
  obtain ⟨a, ⟨-, hrecord⟩ | ⟨-, rfl, -⟩⟩ := decide_ok hdecide
  · obtain ⟨r⟩ := recordDecision_ok hrecord
    refine ⟨by rw [cancellationsOf, r.cancellations]; exact hnone, ?_⟩
    obtain hmoved | ⟨b, hmoved⟩ := transitionTask_ok r.transition_eq
    · refine ⟨task, ?_, .inl hstate⟩
      rw [r.tasks_eq, hmoved]
      exact htask
    · obtain ⟨request, hrequest, htaskId⟩ := request_of_pending hpending
      have hid : a.task.id = c.taskId := by
        rw [a.task_id, ← htaskId]
        exact congrArg ApprovalRequest.taskId (Option.some.inj (a.request_eq.symm.trans hrequest))
      have hedge := (edge_of_evaluate b.plan_eq).2
      have hkind : b.plan.kind = .cancel ∨ b.plan.kind = .fail := by
        rw [kind_of_evaluate b.plan_eq]
        exact r.ends
      refine ⟨b.task.apply b.plan b.event.id, ?_, .inr ⟨b.event, ?_, b.task_id.trans hid, rfl,
        ?_, ?_⟩⟩
      · rw [r.tasks_eq, hmoved, b.get?_after]
        exact if_pos hid
      · rw [Table.mem_def, r.rows_eq, hmoved, b.rows_after]
        simp
      · exact hkind.imp (congrArg some) (congrArg some)
      · exact (hedge.ends hkind).imp (congrArg some) (congrArg some)
  · exact ⟨hnone, task, htask, .inl hstate⟩

end Decided

/-! ### Resubmissions -/

section Resubmissions
variable {svc : ApprovalService} {rt : Runtime} {db db₁ db₂ : Database} {c : CancelCommand}

/-- Where the cancellation was not recorded, a resubmission after recoveries is accepted
when none of them recorded it, or the one that did asked the same. -/
theorem resumes_of_recovering (hdb : (taskLifecycle rt c.taskId).Reachable db₁)
    (hshape : TransitionsShaped db₁) (hdigests : CancellationDigests rt db₁ c)
    (hreason : reasonCode.fullmatch (CharClass.holds rt.unicode)
      (rt.unicode.upper (rt.unicode.strip c.reasonCode.toList)) = true)
    (hresumable : Resumable db₁ c) (h : Recovering rt c.taskId db₁ db₂) :
    Resumes rt db₂ c ↔ cancellationsOf db₂ c.taskId = [] ∨
      ∃ e ∈ db₁.taskEvents, e.EndsTask ∧ c.SameAs rt e := by
  obtain ⟨task, htask, hstate⟩ := hresumable
  obtain hnone | ⟨e, he, r, hid, hends, hasks, row, hrow, hrowId, hfingerprint⟩ := h.row
  · refine iff_of_true (resumes_unrecorded hnone hreason ⟨task, h.task.trans htask, ?_⟩)
      (.inl hnone)
    refine hstate.imp_right ?_
    rintro ⟨e, he, hid, hrest⟩
    exact ⟨e, (h.events e hid).mpr he, hid, hrest⟩
  · have hr : r.taskId = c.taskId := hasks.taskId.trans hid
    rw [hr] at hrow
    rw [resumes_recorded (h.task.trans htask) hrow hreason, hrowId, hfingerprint]
    have hsame : (r.cancellationId = c.cancellationId ∧
        rt.fingerprint (r.payload rt) = rt.fingerprint (c.payload rt)) ↔ c.SameAs rt e := by
      rw [sameAs_iff hasks hid]
      refine and_congr_right fun _ => ⟨hdigests e he r hid hends hasks, ?_⟩
      intro hpayload
      rw [hpayload]
    rw [hsame]
    constructor
    · exact fun hsame => .inr ⟨e, he, hends, hsame⟩
    · rintro (hnone | ⟨e', he', hends', hsame⟩)
      · rw [hrow] at hnone
        cases hnone
      · -- The task has one transition that ended it.
        have hmem := mem_transitionsOf hshape he hid hends
        obtain ⟨_, hended⟩ := ended_of_reachable hdb hmem hid hends
        have hmem' := mem_transitionsOf hshape he' hsame.taskId hends'
        obtain ⟨_, hended'⟩ := ended_of_reachable hdb hmem' hsame.taskId hends'
        rw [← hsame.taskId] at hmem
        exact hended.single hended' hmem ▸ hsame

/-- A cancellation that asks the same as recovery shares its digest with nothing else. -/
theorem CancelCommand.SameAs.digests {e : TaskEvent}
    (hdb : (taskLifecycle rt c.taskId).Reachable db₁)
    (hshape : TransitionsShaped db₁) (he : e ∈ db₁.taskEvents) (hends : e.EndsTask)
    (hsame : c.SameAs rt e) : CancellationDigests rt db₁ c := by
  intro e' he' r htask' hends' hasks' _
  have hmem := mem_transitionsOf hshape he hsame.taskId hends
  have hmem' := mem_transitionsOf hshape he' htask' hends'
  obtain ⟨_, hended⟩ := ended_of_reachable hdb hmem hsame.taskId hends
  obtain ⟨_, hended'⟩ := ended_of_reachable hdb hmem' htask' hends'
  rw [← htask'] at hmem
  obtain rfl := hended.single hended' hmem
  exact ((sameAs_iff hasks' htask').mp hsame).2

theorem Recovering.of_unrecorded (hnone : cancellationsOf db₁ c.taskId = []) :
    Recovering rt c.taskId db₁ db₁ :=
  ⟨rfl, fun _ _ => Iff.rfl, .inl hnone⟩

/-- What an interrupted cancellation leaves: its row, or a task it may go on with. -/
theorem Interrupted.cases (hcrash : Interrupted svc rt c db db₁)
    (hdb : (taskLifecycle rt c.taskId).Reachable db) (hshape : TransitionsShaped db)
    (hnone : cancellationsOf db c.taskId = []) :
    (CarriesRow rt db₁ c ∧ ∃ task, db₁.tasks.get? c.taskId = some task) ∨
      ((taskLifecycle rt c.taskId).Reachable db₁ ∧ TransitionsShaped db₁ ∧
        cancellationsOf db₁ c.taskId = [] ∧ Resumable db₁ c) := by
  cases hcrash with
  | begun pending h =>
    obtain ⟨task, htask, hstate, -⟩ := resumable_of_begin hnone h
    exact .inr ⟨hdb, hshape, hnone, task, htask, .inl hstate⟩
  | decided requestId eventId result _ h hdecide =>
    obtain ⟨hnone₁, hresumable⟩ := resumable_decide hnone h hdecide
    obtain ⟨hdb₁, hshape₁⟩ := lifecycle_decide hdb hshape hdecide
    exact .inr ⟨hdb₁, hshape₁, hnone₁, hresumable⟩
  | fenced _ h hfence =>
    exact .inl ⟨cancelTask_records hnone hfence, cancelTask_task hfence⟩
  | decidedFenced requestId eventId result _ _ h hdecide hfence =>
    obtain ⟨hnone₁, -⟩ := resumable_decide hnone h hdecide
    exact .inl ⟨cancelTask_records hnone₁ hfence, cancelTask_task hfence⟩

/-- An accepted begin was asked with a valid reason, for a task that stays. -/
theorem Interrupted.reason (hcrash : Interrupted svc rt c db db₁) :
    reasonCode.fullmatch (CharClass.holds rt.unicode)
      (rt.unicode.upper (rt.unicode.strip c.reasonCode.toList)) = true := by
  cases hcrash with
  | begun _ h | decided _ _ _ _ h _ | fenced _ h _ | decidedFenced _ _ _ _ _ h _ _ =>
    exact (reason_of_begin h).1

end Resubmissions

/-! ### A cancellation that recovery completed -/

namespace InterruptedExample
open HandoffExample (task policy)

/-- A digest that looks at the length of what starts like the text of a cancellation. -/
def lengthDigest (bytes : List UInt8) : List Char :=
  if bytes.take 3 = [123, 34, 99] ∧ bytes.length % 2 = 0 then List.replicate 64 '1'
  else List.replicate 64 '0'

/-- A runtime whose digests depend on the length of a cancellation. -/
def telling : Runtime :=
  { Runtime.plain with
    sha256 := fun text => String.ofList (lengthDigest text.toByteArray.data.toList)
    sha256_fits := fun text => by
      rw [String.toList_ofList, lengthDigest]
      have hfits : ∀ d ∈ UUID.hexAlphabet,
          Regex.Fits (UUID.hexShape 64) (List.replicate 64 d) := fun d hd =>
        have hmem : ∀ c ∈ List.replicate 64 d, c ∈ UUID.hexAlphabet := fun c hc =>
          List.eq_of_mem_replicate hc ▸ hd
        Regex.Fits.replicate hmem
      split
      · exact hfits '1' (by decide)
      · exact hfits '0' (by decide) }

def evidence (rt : Runtime) : EvidenceEnvelope :=
  { HandoffExample.evidence with contentHash := digest rt (rt.dumps .null) }

theorem taskRows : ([task].map key).Nodup := List.nodup_singleton _
theorem policyRows : ([policy].map key).Nodup := List.nodup_singleton _
theorem evidenceRows (rt : Runtime) : ([(evidence rt).record rt].map key).Nodup :=
  List.nodup_singleton _

def store (rt : Runtime) : Database where
  tasks := ⟨[task], taskRows⟩
  policyVersions := ⟨[policy], policyRows⟩
  evidenceRecords := ⟨[(evidence rt).record rt], evidenceRows rt⟩

def service : ApprovalService := {}

def escalation : RequestCommand :=
  { PauseExample.escalation with expectedState := .intake }

/-- What the user asks for. -/
def cancellation (reasonCode : String) : CancelCommand where
  taskId := task.id
  cancellationId := .ofNat 60
  expectedState := .escalated
  reasonCode := reasonCode
  partialEvidenceId := HandoffExample.evidence.evidenceId
  principalId := "control-plane"
  now := 20
  fencedAt := 20
  eventId := .ofNat 61

/-- What recovery asks for. -/
def recovery : CancelCommand :=
  { cancellation "APPROVAL_CANCEL" with now := 30, fencedAt := 30 }

/-- A request pauses the task, the cancellation is interrupted after its decision, and
recovered: what the first transaction found, whether recovery finds the transition, and
whether the cancellation may be asked for again. -/
def outcome (rt : Runtime) (c : CancelCommand) :
    Option ((Database × ApprovalDecisionResult × Database) ×
      ((Option UUID × Option UUID) × Bool × Bool)) := do
  let (_, paused) ← (service.request rt (store rt) escalation).toOption
  let found ← (beginCancellation rt paused c).toOption
  let (result, decided) ←
    (service.decide rt paused (c.decision escalation.requestId (.ofNat 62))).toOption
  let recovered := CancellationService.after service rt decided recovery (.ofNat 63)
  return ((paused, result, decided), found,
    decided.taskEvents.rows.any (fun e =>
      e.taskId = task.id && e.transitionKind = some .cancel &&
        e.transitionId = some recovery.cancellationId &&
        e.transitionFromState = some recovery.expectedState &&
        e.transitionReasonCode = some recovery.reasonCode),
    (beginCancellation rt recovered c).toOption.isSome)

/-- The run of an outcome. -/
theorem run_of_outcome {rt : Runtime} {c : CancelCommand} {resumes : Bool}
    (hc : c.taskId = task.id)
    (h : (outcome rt c).map Prod.snd = some ((some escalation.requestId, none), true, resumes)) :
    ∃ db db₁ db₂, (taskLifecycle rt c.taskId).Reachable db ∧ TransitionsShaped db ∧
      cancellationsOf db c.taskId = [] ∧ Interrupted service rt c db db₁ ∧
      Relation.ReflTransGen (RecoveryStep service rt c.taskId) db₁ db₂ ∧
      (Resumes rt db₂ c ↔ resumes = true) ∧
      (taskLifecycle rt c.taskId).Reachable db₁ ∧ TransitionsShaped db₁ ∧
      ∃ e ∈ db₁.taskEvents, e.EndsTask ∧ e.Asks recovery ∧ e.taskId = c.taskId := by
  simp only [outcome, Option.bind_eq_bind, Option.map_eq_some_iff, Option.bind_eq_some_iff,
    Option.pure_def, Option.some.injEq] at h
  obtain ⟨_, ⟨⟨answer, paused⟩, hrequest, found, hbegin, ⟨result, decided⟩, hdecide, rfl⟩, h⟩ := h
  simp only [Prod.mk.injEq] at h
  obtain ⟨rfl, hevent, hresumes⟩ := h
  obtain ⟨e, he, hasks⟩ := List.any_eq_true.mp hevent
  simp only [Bool.and_eq_true, decide_eq_true_eq] at hasks
  obtain ⟨⟨⟨⟨htask, hkind⟩, hid⟩, hstate⟩, hcode⟩ := hasks
  have hends : e.EndsTask := ⟨.inl hkind, by rw [hid]; rfl⟩
  have hrecovers : e.Asks recovery := ⟨htask.symm, hid, hstate, hcode⟩
  have hinit : (taskLifecycle rt c.taskId).Reachable (store rt) := by
    rw [hc]
    exact .of_init ⟨task, rfl, rfl⟩
  obtain ⟨hdb, hshape, hnone⟩ := lifecycle_request hinit (fun _ he => by cases he) rfl
    (Except.ok_of_toOption hrequest)
  obtain ⟨hdb₁, hshape₁⟩ := lifecycle_decide hdb hshape (Except.ok_of_toOption hdecide)
  refine ⟨paused, decided, _, hdb, hshape, ?_,
    .decided _ _ result decided (Except.ok_of_toOption hbegin) (Except.ok_of_toOption hdecide),
    .single (.recover decided e recovery (.ofNat 63) he (htask.trans hc.symm) hends hrecovers),
    ?_, hdb₁, hshape₁, e, he, hends, hrecovers, htask.trans hc.symm⟩
  · rw [cancellationsOf, hnone]
    rfl
  · rw [← hresumes, Option.isSome_iff_exists]
    refine exists_congr fun found => ?_
    cases beginCancellation rt _ c <;> simp [Except.toOption]

set_option maxRecDepth 4000 in
/-- The user's own reason is refused afterwards, and recovery's is not. -/
theorem outcome_checked :
    (outcome .plain (cancellation "APPROVAL_CANCEL")).map Prod.snd =
      some ((some escalation.requestId, none), true, true) ∧
    (outcome telling (cancellation "USER_REQUEST")).map Prod.snd =
      some ((some escalation.requestId, none), true, false) := by
  constructor <;> decide +kernel

end InterruptedExample

end ControlPlane
