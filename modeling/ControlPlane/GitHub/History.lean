import ControlPlane.Lib.History
import ControlPlane.GitHub.Webhooks

/-!
# The webhook history of a task

What binding and processing append to the events of a task, and the runs of the webhook
service as seen from one task: bindings, processed updates, and anything the other services
do that leaves the task's webhook events alone.

## Main definitions

* `Recorded`: what processing an update did to the events.
* `Activity`, `TaskRun`: runs with the bindings and updates of which they consist.
-/
namespace ControlPlane

open History

def isUpdateEvent (e : TaskEvent) : Bool :=
  e.eventType = UpdateType.check.value || e.eventType = UpdateType.review.value ||
  e.eventType = UpdateType.pullRequest.value || e.eventType = UpdateType.headChanged.value

def isGitHubEvent (e : TaskEvent) : Bool := isBinding e || isUpdateEvent e

/-- The bindings and updates recorded for a task. -/
def gitHubEvents (db : Database) (taskId : UUID) : List TaskEvent :=
  (taskEventsOf db taskId).filter isGitHubEvent

theorem isGitHubEvent_of_isBinding {e : TaskEvent} (h : isBinding e = true) :
    isGitHubEvent e = true := by
  simp [isGitHubEvent, h]

theorem isUpdateEvent_iff {e : TaskEvent} :
    isUpdateEvent e = true ↔ ∃ k : UpdateType, e.eventType = k.value := by
  constructor
  · intro h
    simp only [isUpdateEvent, Bool.or_eq_true, decide_eq_true_eq] at h
    rcases h with ((h | h) | h) | h
    · exact ⟨_, h⟩
    · exact ⟨_, h⟩
    · exact ⟨_, h⟩
    · exact ⟨_, h⟩
  · rintro ⟨k, hk⟩
    cases k <;> simp [isUpdateEvent, hk]

theorem isGitHubEvent_of_update {e : TaskEvent} {k : UpdateType} (h : e.eventType = k.value) :
    isGitHubEvent e = true := by
  rw [isGitHubEvent, isUpdateEvent_iff.mpr ⟨k, h⟩, Bool.or_true]

theorem isBinding_eq_false_of_update {e : TaskEvent} {k : UpdateType} (h : e.eventType = k.value) :
    isBinding e = false := by
  simp [isBinding, h]

theorem headChangeAfter_eq_true {binding e : TaskEvent} (h : headChangeAfter binding e = true) :
    e.eventType = UpdateType.headChanged.value := by
  simp only [headChangeAfter, Bool.and_eq_true, decide_eq_true_eq] at h
  exact h.1.1.1

/-! ### Queries look at webhook events only -/

section Queries
variable {db : Database} {taskId : UUID}

/-- A query for some webhook events does not see the others. -/
theorem filter_gitHubEvents {p : TaskEvent → Bool} (h : ∀ e, p e = true → isGitHubEvent e = true) :
    (gitHubEvents db taskId).filter p = (taskEventsOf db taskId).filter p := by
  rw [gitHubEvents, List.filter_filter]
  refine List.filter_congr fun e _ => ?_
  cases hp : p e with
  | false => rfl
  | true => simp [h e hp]

theorem latestBinding_eq :
    latestBinding db taskId =
      latestBy TaskEvent.sequence ((gitHubEvents db taskId).filter isBinding) := by
  rw [latestBinding, filter_gitHubEvents fun e => isGitHubEvent_of_isBinding]

theorem effectiveTaskHead_eq :
    effectiveTaskHead db taskId = (latestBinding db taskId).bind fun binding =>
      (((latestBy TaskEvent.sequence
        ((gitHubEvents db taskId).filter (headChangeAfter binding))).getD binding).payload.get
          "head_sha").str? := by
  have hquery : ∀ binding, (gitHubEvents db taskId).filter (headChangeAfter binding) =
      (taskEventsOf db taskId).filter (headChangeAfter binding) := fun binding =>
    filter_gitHubEvents fun e he => isGitHubEvent_of_update (headChangeAfter_eq_true he)
  simp only [effectiveTaskHead, hquery]
  rfl

theorem latestResourceEvent_eq {u : WebhookUpdate} :
    latestResourceEvent db taskId u =
      latestBy TaskEvent.sequence ((gitHubEvents db taskId).filter (isResourceEvent u)) := by
  rw [latestResourceEvent, filter_gitHubEvents]
  intro e he
  simp only [isResourceEvent, Bool.and_eq_true, decide_eq_true_eq] at he
  exact isGitHubEvent_of_update he.1.1.1

theorem lt_nextEventSequence {e : TaskEvent} (h : e ∈ gitHubEvents db taskId) :
    e.sequence < nextEventSequence db taskId :=
  Nat.lt_succ_of_le (le_maxRank (List.mem_of_mem_filter h))

end Queries

/-! ### What a step appends -/

section Append
variable {db db' : Database} {taskId : UUID} {e : TaskEvent}

/-- An event appended shows in the history of its task only. -/
theorem gitHubEvents_append (taskId : UUID) (h : db'.taskEvents.rows = db.taskEvents.rows ++ [e])
    (he : isGitHubEvent e = true) :
    gitHubEvents db' taskId =
      if e.taskId = taskId then gitHubEvents db taskId ++ [e] else gitHubEvents db taskId := by
  simp only [gitHubEvents, taskEventsOf, Table.select, h, List.filter_append]
  by_cases htask : e.taskId = taskId
  · simp [htask, he]
  · simp [htask]

theorem gitHubEvents_congr (h : db'.taskEvents = db.taskEvents) :
    gitHubEvents db' taskId = gitHubEvents db taskId := by
  simp only [gitHubEvents, taskEventsOf, h]

variable (hes : gitHubEvents db' taskId = gitHubEvents db taskId ++ [e])
  (hseq : ∀ a ∈ gitHubEvents db taskId, a.sequence < e.sequence)
include hes hseq

theorem latestBinding_append_binding (he : isBinding e = true) :
    latestBinding db' taskId = some e := by
  rw [latestBinding_eq, hes, List.filter_append]
  simp only [List.filter_cons, he, if_true, List.filter_nil]
  exact latestBy_append_singleton fun a ha => (hseq a (List.mem_of_mem_filter ha)).le

omit hseq in
theorem latestBinding_append_other (he : isBinding e = false) :
    latestBinding db' taskId = latestBinding db taskId := by
  rw [latestBinding_eq, latestBinding_eq, hes, List.filter_append]
  simp [he]

/-- A binding starts a new head. -/
theorem effectiveTaskHead_append_binding (he : isBinding e = true) :
    effectiveTaskHead db' taskId = (e.payload.get "head_sha").str? := by
  have hnone : (gitHubEvents db' taskId).filter (headChangeAfter e) = [] := by
    refine List.filter_eq_nil_iff.mpr fun a ha hchange => ?_
    simp only [headChangeAfter, Bool.and_eq_true, decide_eq_true_eq] at hchange
    rw [hes, List.mem_append, List.mem_singleton] at ha
    rcases ha with ha | rfl
    · exact absurd hchange.1.1.2 (hseq a ha).le.not_gt
    · exact absurd hchange.1.1.2 (lt_irrefl _)
  rw [effectiveTaskHead_eq, latestBinding_append_binding hes hseq he, Option.bind_some, hnone]
  rfl

/-- A head change of the bound pull request becomes the head. -/
theorem effectiveTaskHead_append_change {binding : TaskEvent}
    (hbinding : latestBinding db taskId = some binding)
    (he : headChangeAfter binding e = true) :
    effectiveTaskHead db' taskId = (e.payload.get "head_sha").str? := by
  have hlatest : latestBinding db' taskId = some binding := by
    rw [latestBinding_append_other hes
      (isBinding_eq_false_of_update (headChangeAfter_eq_true he)), hbinding]
  rw [effectiveTaskHead_eq, hlatest, Option.bind_some, hes, List.filter_append]
  simp only [List.filter_cons, he, if_true, List.filter_nil]
  rw [latestBy_append_singleton fun a ha => (hseq a (List.mem_of_mem_filter ha)).le]
  rfl

omit hseq in
/-- Any other event leaves the head alone. -/
theorem effectiveTaskHead_append_other (he : isBinding e = false)
    (hchange : ∀ binding ∈ latestBinding db taskId, headChangeAfter binding e = false) :
    effectiveTaskHead db' taskId = effectiveTaskHead db taskId := by
  rw [effectiveTaskHead_eq, effectiveTaskHead_eq, latestBinding_append_other hes he]
  cases hbinding : latestBinding db taskId with
  | none => rfl
  | some binding =>
    have hfalse := hchange binding hbinding
    simp [hes, List.filter_append, hfalse]

end Append

theorem effectiveTaskHead_congr {db db' : Database} {taskId : UUID}
    (h : gitHubEvents db' taskId = gitHubEvents db taskId) :
    effectiveTaskHead db' taskId = effectiveTaskHead db taskId := by
  rw [effectiveTaskHead_eq, effectiveTaskHead_eq, latestBinding_eq, latestBinding_eq, h]

theorem latestBinding_congr {db db' : Database} {taskId : UUID}
    (h : gitHubEvents db' taskId = gitHubEvents db taskId) :
    latestBinding db' taskId = latestBinding db taskId := by
  rw [latestBinding_eq, latestBinding_eq, h]

/-! ### The payloads that are written -/

section Payload
variable (u : WebhookUpdate) (d : WebhookDelivery) (prev : Option String)

@[simp] theorem eventPayload_headSha : (u.eventPayload d prev).get "head_sha" = .str u.headSha := rfl
@[simp] theorem eventPayload_number :
    (u.eventPayload d prev).get "pull_request_number" = .int u.pullRequestNumber := rfl
@[simp] theorem eventPayload_branch :
    (u.eventPayload d prev).get "task_branch" = .str u.taskBranch := rfl
@[simp] theorem eventPayload_resourceType :
    (u.eventPayload d prev).get "resource_type" = .str u.resourceType.value := rfl
@[simp] theorem eventPayload_resourceId :
    (u.eventPayload d prev).get "resource_id" = .str u.resourceId := rfl
@[simp] theorem eventPayload_resourceLabel :
    (u.eventPayload d prev).get "resource_label" = .str u.resourceLabel := rfl
@[simp] theorem eventPayload_state : (u.eventPayload d prev).get "state" = .str u.state := rfl
@[simp] theorem eventPayload_sourceUpdatedAt :
    (u.eventPayload d prev).get "source_updated_at" =
      .str (Calendar.isoTimestamp u.sourceUpdatedAt) := rfl

variable (cfg : GitHubAppConfiguration) (b : PullRequestBinding) (carryover : Option Json)

@[simp] theorem bindingPayload_installationId :
    (bindingPayload cfg b carryover).get "installation_id" = .int b.installationId := rfl
@[simp] theorem bindingPayload_repositoryId :
    (bindingPayload cfg b carryover).get "repository_id" = .int b.repositoryId := rfl
@[simp] theorem bindingPayload_repositoryKey :
    (bindingPayload cfg b carryover).get "repository_key" = .str cfg.repositoryKey := rfl
@[simp] theorem bindingPayload_number :
    (bindingPayload cfg b carryover).get "pull_request_number" = .int b.pullRequestNumber := rfl
@[simp] theorem bindingPayload_branch :
    (bindingPayload cfg b carryover).get "task_branch" = .str b.taskBranch := rfl
@[simp] theorem bindingPayload_headSha :
    (bindingPayload cfg b carryover).get "head_sha" = .str b.headSha := rfl
@[simp] theorem bindingPayload_checks :
    (bindingPayload cfg b carryover).get "required_checks" = texts b.requiredChecks := rfl

theorem bindingPayload_carryover :
    (bindingPayload cfg b carryover).get "review_state_carryover" = carryover.getD .null := by
  cases carryover <;> rfl

end Payload

/-- The time an event was updated at its source. -/
def updatedAt (rt : Runtime) (e : TaskEvent) : Except GitHubWebhookError Calendar.Instant :=
  parseTimestamp rt (e.payload.get "source_updated_at") "source_updated_at"

theorem length_isoTimestamp_le (t : ℕ) : (Calendar.isoTimestamp t).length ≤ 40 := by
  have hlength : (Calendar.timestampChars t).length = 27 := rfl
  simp only [Calendar.isoTimestamp, Calendar.isoChars, String.length_ofList]
  split
  · simp [hlength]
  · simp [hlength]

/-- A time that was written is read back. -/
@[simp] theorem parseTimestamp_isoTimestamp (rt : Runtime) (t : Calendar.Instant) (field : String) :
    parseTimestamp rt (.str (Calendar.isoTimestamp t)) field = .ok t := by
  have hlength := (length_isoTimestamp_le t.val).not_gt
  simp only [parseTimestamp, hlength, if_false, rt.fromIsoformat_isoTimestamp]

/-! ### Processing an update -/

/-- An update is newer than what is recorded of its resource at its head. -/
def NewerThanRecorded (rt : Runtime) (db : Database) (taskId : UUID) (u : WebhookUpdate) : Prop :=
  ∀ previous ∈ latestResourceEvent db taskId u, ∃ t, updatedAt rt previous = .ok t ∧
    t.val < u.sourceUpdatedAt.val

/-- What processing an update does to the recorded events: nothing, unless the update is
correlated with a live task and newer than what is recorded. -/
inductive Recorded (rt : Runtime) (db : Database) (u : WebhookUpdate) (db' : Database) : Prop
  | unknown (reason : String) (hcorrelate : correlate db u = .unknown reason)
      (hevents : db'.taskEvents = db.taskEvents)
  | stale (task : Task) (hcorrelate : correlate db u = .stale task)
      (hevents : db'.taskEvents = db.taskEvents)
  | inactive (task : Task) (v : WebhookUpdate) (previousHeadSha : Option String)
      (hcorrelate : correlate db u = .accepted task v previousHeadSha)
      (hstate : task.state.isTerminal = true) (hevents : db'.taskEvents = db.taskEvents)
  | notNewer (task : Task) (v : WebhookUpdate) (previousHeadSha : Option String)
      (hcorrelate : correlate db u = .accepted task v previousHeadSha)
      (hstate : task.state.isTerminal = false) (hold : ¬ NewerThanRecorded rt db task.id v)
      (hevents : db'.taskEvents = db.taskEvents)
  | appended (task : Task) (v : WebhookUpdate) (previousHeadSha : Option String)
      (d : WebhookDelivery) (now : Time) (eventId : UUID)
      (hcorrelate : correlate db u = .accepted task v previousHeadSha)
      (hstate : task.state.isTerminal = false) (hnew : NewerThanRecorded rt db task.id v)
      (hrows : db'.taskEvents.rows = db.taskEvents.rows ++
        [updateEvent db d task v previousHeadSha now eventId])

section Processing
variable {rt : Runtime} {cfg : GitHubAppConfiguration} {db db' : Database}

@[simp] theorem finish_snd_tasks (d : WebhookDelivery) (now : Time) (o : Outcome) :
    (finish db d now o).2.tasks = db.tasks := rfl
@[simp] theorem finish_snd_taskEvents (d : WebhookDelivery) (now : Time) (o : Outcome) :
    (finish db d now o).2.taskEvents = db.taskEvents := rfl

theorem recordUpdate_ok {d : WebhookDelivery} {task : Task} {v : WebhookUpdate}
    {prev : Option String} {now : Time} {eventId jobId : UUID} {r : IngestionResponse}
    (h : recordUpdate rt db d task v prev now eventId jobId = .ok (r, db')) :
    db'.tasks = db.tasks ∧
      ((¬ NewerThanRecorded rt db task.id v ∧ db'.taskEvents = db.taskEvents) ∨
        (NewerThanRecorded rt db task.id v ∧ db'.taskEvents.rows = db.taskEvents.rows ++
          [updateEvent db d task v prev now eventId])) := by
  simp only [recordUpdate, Except.bind_eq_ok] at h
  obtain ⟨previousAt, hprevious, h⟩ := h
  -- What is recorded of the resource, and the time it was updated.
  have hnewer : NewerThanRecorded rt db task.id v ↔
      (previousAt.any fun t => decide (v.sourceUpdatedAt.val ≤ t.val)) = false := by
    cases hlatest : latestResourceEvent db task.id v with
    | none =>
      have hnone : previousAt = none := by
        simpa [hlatest, eq_comm, pure, Except.pure] using hprevious
      simp [NewerThanRecorded, hlatest, hnone]
    | some previous =>
      simp only [hlatest, Option.mapM_some, Except.map_eq_ok] at hprevious
      obtain ⟨t, ht, rfl⟩ := hprevious
      simp only [NewerThanRecorded, hlatest, Option.mem_some_iff, forall_eq', updatedAt, ht,
        Except.ok.injEq, exists_eq_left', Option.any_some, decide_eq_false_iff_not, not_le]
  cases hold : previousAt.any fun t => decide (v.sourceUpdatedAt.val ≤ t.val) with
  | true =>
    rw [hold] at h hnewer
    simp only [if_true, Except.pure_eq_ok, Prod.ext_iff] at h
    obtain ⟨-, rfl⟩ := h
    exact ⟨rfl, .inl ⟨by simp [hnewer], rfl⟩⟩
  | false =>
    rw [hold] at h hnewer
    simp only [Bool.false_eq_true, if_false, Except.bind_eq_ok, Except.orThrow_eq_ok,
      Except.require_eq_ok, Except.pure_eq_ok, Prod.ext_iff] at h
    obtain ⟨taskEvents, hinsert, -, -, jobs, -, -, rfl⟩ := h
    exact ⟨rfl, .inr ⟨by simp [hnewer], (Table.insert?_eq_some.mp hinsert).2⟩⟩

theorem processUpdate_ok {d : WebhookDelivery} {u : WebhookUpdate} {now : Time}
    {eventId jobId : UUID} {r : IngestionResponse}
    (h : processUpdate rt db d u now eventId jobId = .ok (r, db')) :
    db'.tasks = db.tasks ∧ Recorded rt db u db' := by
  unfold processUpdate at h
  cases hcorrelate : correlate db u with
  | unknown reason =>
    simp only [hcorrelate, Except.ok.injEq, Prod.ext_iff] at h
    obtain ⟨-, rfl⟩ := h
    exact ⟨rfl, .unknown reason hcorrelate rfl⟩
  | stale task =>
    simp only [hcorrelate, Except.ok.injEq, Prod.ext_iff] at h
    obtain ⟨-, rfl⟩ := h
    exact ⟨rfl, .stale task hcorrelate rfl⟩
  | accepted task v prev =>
    simp only [hcorrelate] at h
    cases hstate : task.state.isTerminal with
    | true =>
      simp only [hstate, if_true, Except.ok.injEq, Prod.ext_iff] at h
      obtain ⟨-, rfl⟩ := h
      exact ⟨rfl, .inactive task v prev hcorrelate hstate rfl⟩
    | false =>
      simp only [hstate, Bool.false_eq_true, if_false] at h
      obtain ⟨htasks, ⟨hold, hevents⟩ | ⟨hnew, hrows⟩⟩ := recordUpdate_ok h
      · exact ⟨htasks, .notNewer task v prev hcorrelate hstate hold hevents⟩
      · exact ⟨htasks, .appended task v prev _ now eventId hcorrelate hstate hnew hrows⟩

/-- The update a delivery is processed as; none when it was processed before, or is rejected. -/
def processedUpdate (rt : Runtime) (cfg : GitHubAppConfiguration) (db : Database)
    (deliveryId : UUID) : Option WebhookUpdate :=
  match db.webhookDeliveries.get? deliveryId with
  | none => none
  | some d =>
    if d.processedAt.isSome then none
    else match readDelivery rt cfg db d with
      | .ok (.update u) => some u
      | _ => none

/-- A delivery that is read as an update has stored content that normalizes to it. -/
theorem readDelivery_ok {d : WebhookDelivery} {u : WebhookUpdate}
    (h : readDelivery rt cfg db d = .ok (.update u)) :
    ∃ content, storedUpdate rt content d.receivedAt = .ok u ∧
      configurationMismatch u cfg = none := by
  unfold readDelivery at h
  split at h
  · cases h
  · split at h
    · cases h
    · cases h
    · cases h
    · rename_i loaded _
      cases hstored : storedUpdate rt loaded.content d.receivedAt with
      | error e => cases e <;> simp [hstored] at h
      | ok v =>
        cases hmismatch : configurationMismatch v cfg with
        | some reason => simp [hstored, hmismatch] at h
        | none =>
          obtain rfl : v = u := by simpa [hstored, hmismatch] using h
          exact ⟨loaded.content, hstored, hmismatch⟩

theorem configurationMismatch_eq_none {u : WebhookUpdate}
    (h : configurationMismatch u cfg = none) : u.installationId = cfg.installationId ∧
      u.repositoryId = cfg.repositoryId ∧ u.repositoryKey = cfg.repositoryKey := by
  simp only [configurationMismatch] at h
  by_cases h₁ : u.installationId = cfg.installationId
  · by_cases h₂ : u.repositoryId = cfg.repositoryId
    · by_cases h₃ : u.repositoryKey = cfg.repositoryKey
      · exact ⟨h₁, h₂, h₃⟩
      · simp [h₁, h₂, h₃] at h
    · simp [h₁, h₂] at h
  · simp [h₁] at h

theorem storedUpdate_wellFormed {content : Json} {receivedAt : Calendar.Instant}
    {u : WebhookUpdate} (h : storedUpdate rt content receivedAt = .ok u) : u.WellFormed := by
  unfold storedUpdate at h
  split at h
  · exact normalizeUpdate_wellFormed h
  · cases h

/-- A processed update has its form and is about the configured repository. -/
theorem processedUpdate_ok {deliveryId : UUID} {u : WebhookUpdate}
    (h : processedUpdate rt cfg db deliveryId = some u) :
    u.WellFormed ∧ u.installationId = cfg.installationId ∧
      u.repositoryId = cfg.repositoryId ∧ u.repositoryKey = cfg.repositoryKey := by
  unfold processedUpdate at h
  cases hd : db.webhookDeliveries.get? deliveryId with
  | none => simp [hd] at h
  | some d =>
    by_cases hprocessed : d.processedAt.isSome = true
    · simp [hd, hprocessed] at h
    · cases hreading : readDelivery rt cfg db d with
      | error e => simp [hd, hprocessed, hreading] at h
      | ok reading =>
        cases reading with
        | rejected reason => simp [hd, hprocessed, hreading] at h
        | update v =>
          obtain rfl : v = u := by simpa [hd, hprocessed, hreading] using h
          obtain ⟨content, hstored, hmismatch⟩ := readDelivery_ok hreading
          exact ⟨storedUpdate_wellFormed hstored, configurationMismatch_eq_none hmismatch⟩

/-- Processing a delivery records its update, if it has one. -/
theorem processDelivery_ok {deliveryId : UUID} {now : Time} {eventId jobId : UUID}
    {r : IngestionResponse}
    (h : processDelivery rt cfg db deliveryId now eventId jobId = .ok (r, db')) :
    db'.tasks = db.tasks ∧
      match processedUpdate rt cfg db deliveryId with
      | none => db'.taskEvents = db.taskEvents
      | some u => Recorded rt db u db' := by
  simp only [processDelivery, Except.bind_eq_ok, Except.orThrow_eq_ok] at h
  obtain ⟨d, hd, h⟩ := h
  by_cases hprocessed : d.processedAt.isSome = true
  · simp only [hprocessed, if_true, Except.pure_eq_ok, Prod.ext_iff] at h
    obtain ⟨-, rfl⟩ := h
    simp [processedUpdate, hd, hprocessed]
  · simp only [hprocessed, if_false, Bool.false_eq_true, Except.bind_eq_ok] at h
    obtain ⟨reading, hreading, h⟩ := h
    cases reading with
    | rejected reason =>
      simp only [Except.pure_eq_ok, Prod.ext_iff] at h
      obtain ⟨-, rfl⟩ := h
      simp [processedUpdate, hd, hprocessed, hreading, quarantine]
    | update u =>
      simp only [processedUpdate, hd, hprocessed, hreading, if_false, Bool.false_eq_true]
      exact processUpdate_ok h

/-- What a binding does to the recorded events: it appends itself, or repeats the latest. -/
theorem bindTransaction_ok {arguments : PullRequestBinding} {id : UUID} {ids : List UUID}
    (h : bindTransaction rt cfg db arguments = .ok (id, ids, db')) :
    ∃ b task, checkBinding rt cfg arguments = .ok b ∧ db.tasks.get? b.taskId = some task ∧
      task.state.isTerminal = false ∧ task.ownerId = githubOwner ∧ db'.tasks = db.tasks ∧
      ((∃ current, latestBinding db task.id = some current ∧
          current.payload.pyEq (bindingPayload cfg b (reviewStateCarryover db task.id)) = true ∧
          db'.taskEvents = db.taskEvents) ∨
        ((∀ current ∈ latestBinding db task.id,
            current.payload.pyEq (bindingPayload cfg b (reviewStateCarryover db task.id)) = false) ∧
          db'.taskEvents.rows = db.taskEvents.rows ++
            [bindingEvent cfg db task b (reviewStateCarryover db task.id)])) := by
  simp only [bindTransaction, Except.bind_eq_ok, Except.orThrow_eq_ok, Except.require_eq_ok] at h
  obtain ⟨b, hb, task, htask, -, ⟨howner, -, hlive⟩, h⟩ := h
  refine ⟨b, task, hb, htask, hlive, howner, ?_⟩
  cases hcurrent : (latestBinding db task.id).filter fun current =>
      current.payload.pyEq (bindingEvent cfg db task b (reviewStateCarryover db task.id)).payload with
  | some current =>
    simp only [hcurrent, Except.pure_eq_ok, Prod.ext_iff] at h
    obtain ⟨-, -, rfl⟩ := h
    obtain ⟨hlatest, hequal⟩ := Option.filter_eq_some_iff.mp hcurrent
    exact ⟨rfl, .inl ⟨current, hlatest, hequal, rfl⟩⟩
  | none =>
    simp only [hcurrent, Except.bind_eq_ok, Except.orThrow_eq_ok, Except.pure_eq_ok,
      Prod.ext_iff] at h
    obtain ⟨taskEvents, hinsert, -, -, rfl⟩ := h
    refine ⟨rfl, .inr ⟨fun current hlatest => ?_, (Table.insert?_eq_some.mp hinsert).2⟩⟩
    have hdiffers := Option.filter_eq_none_iff.mp hcurrent current hlatest
    exact Bool.eq_false_iff.mpr hdiffers

end Processing

/-! ### Runs -/

/-- What the webhook service did for a task: a binding, made of the pull request as it was
at some time, or the processing of an update. -/
inductive Activity where
  | bound (b : PullRequestBinding) (asOf : ℕ)
  | processed (u : WebhookUpdate)

/-- Runs from a task without webhook events, in which every binding of the task and every
update meets a condition on the state before. -/
inductive TaskRun (rt : Runtime) (cfg : GitHubAppConfiguration) (taskId : UUID)
    (condition : List Activity → Database → Activity → Prop) : List Activity → Database → Prop
  | start {db : Database} (h : gitHubEvents db taskId = []) :
      TaskRun rt cfg taskId condition [] db
  | bind {activities : List Activity} {db db' : Database} {arguments b : PullRequestBinding}
      {id : UUID} {ids : List UUID} {asOf : ℕ}
      (hrun : TaskRun rt cfg taskId condition activities db)
      (hcheck : checkBinding rt cfg arguments = .ok b) (htask : b.taskId = taskId)
      (hcondition : condition activities db (.bound b asOf))
      (h : bindTransaction rt cfg db arguments = .ok (id, ids, db')) :
      TaskRun rt cfg taskId condition (activities ++ [.bound b asOf]) db'
  | process {activities : List Activity} {db db' : Database} {deliveryId eventId jobId : UUID}
      {now : Time} {r : IngestionResponse} {u : WebhookUpdate}
      (hrun : TaskRun rt cfg taskId condition activities db)
      (hupdate : processedUpdate rt cfg db deliveryId = some u)
      (hcondition : condition activities db (.processed u))
      (h : processDelivery rt cfg db deliveryId now eventId jobId = .ok (r, db')) :
      TaskRun rt cfg taskId condition (activities ++ [.processed u]) db'
  /-- Everything else, bindings of other tasks included. -/
  | other {activities : List Activity} {db db' : Database}
      (hrun : TaskRun rt cfg taskId condition activities db)
      (h : gitHubEvents db' taskId = gitHubEvents db taskId) :
      TaskRun rt cfg taskId condition activities db'

end ControlPlane
