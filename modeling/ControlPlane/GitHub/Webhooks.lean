import ControlPlane.Evidence.Ledger
import ControlPlane.GitHub.Update
import ControlPlane.Lib.Dict
import ControlPlane.Task.StateMachine

/-!
# Webhook intake and correlation

Verified deliveries are stored as redacted evidence first and processed afterwards: the
update is normalized from what was stored, correlated with the task whose latest binding
names its pull request, checked against the latest update of the same resource, and
appended to the task's history. Binding a task to a pull request releases the deliveries
that arrived for its head before.
-/
namespace ControlPlane

open Regex Regex.Re

def githubOwner : String := "local-user"
def githubActor : String := "github-webhook"

/-- The repository the application is installed on. -/
structure GitHubAppConfiguration where
  installationId : ℤ
  repositoryId : ℤ
  repositoryKey : String

/-! ### Queries -/

/-- Two numbers of JSON columns that are equal. -/
def sameInt : Json → Json → Bool
  | .int m, .int n => m = n
  | _, _ => false

/-- Two texts of JSON columns that are equal. -/
def sameText : Json → Json → Bool
  | .str s, .str t => s = t
  | _, _ => false

@[simp] theorem sameInt_int (m n : ℤ) : sameInt (.int m) (.int n) = decide (m = n) := rfl
@[simp] theorem sameText_str (s t : String) : sameText (.str s) (.str t) = decide (s = t) := rfl

theorem sameInt_comm (a b : Json) : sameInt a b = sameInt b a := by
  cases a <;> cases b <;> simp [sameInt, eq_comm]

theorem sameText_comm (a b : Json) : sameText a b = sameText b a := by
  cases a <;> cases b <;> simp [sameText, eq_comm]

def isBinding (e : TaskEvent) : Bool := e.eventType = githubPrBoundEvent

def latestBinding (db : Database) (taskId : UUID) : Option TaskEvent :=
  latestBy TaskEvent.sequence ((taskEventsOf db taskId).filter isBinding)

/-- A head change of the pull request that an earlier binding names. -/
def headChangeAfter (binding e : TaskEvent) : Bool :=
  e.eventType = UpdateType.headChanged.value && binding.sequence < e.sequence &&
  sameInt (e.payload.get "pull_request_number") (binding.payload.get "pull_request_number") &&
  sameText (e.payload.get "task_branch") (binding.payload.get "task_branch")

/-- The head a task's pull request is at, as far as is known. -/
def effectiveTaskHead (db : Database) (taskId : UUID) : Option String := do
  let binding ← latestBinding db taskId
  let changes := (taskEventsOf db taskId).filter (headChangeAfter binding)
  ((latestBy TaskEvent.sequence changes).getD binding).payload.get "head_sha" |>.str?

/-- A binding names the pull request of an update. -/
def bindsUpdate (update : WebhookUpdate) (includeHead : Bool) (binding : TaskEvent) : Bool :=
  sameInt (binding.payload.get "installation_id") (.int update.installationId) &&
  sameInt (binding.payload.get "repository_id") (.int update.repositoryId) &&
  sameText (binding.payload.get "repository_key") (.str update.repositoryKey) &&
  sameInt (binding.payload.get "pull_request_number") (.int update.pullRequestNumber) &&
  sameText (binding.payload.get "task_branch") (.str update.taskBranch) &&
  (!includeHead || sameText (binding.payload.get "head_sha") (.str update.headSha))

/-- The tasks whose latest binding names the pull request of an update. Callers only ask
whether there is exactly one. -/
def bindingCandidates (db : Database) (update : WebhookUpdate) (includeHead : Bool) : List Task :=
  db.tasks.select fun task =>
    task.ownerId = githubOwner && (latestBinding db task.id).any (bindsUpdate update includeHead)

/-- The recorded updates of the resource of an update, at its head. -/
def isResourceEvent (update : WebhookUpdate) (e : TaskEvent) : Bool :=
  e.eventType = update.eventType.value &&
  sameText (e.payload.get "head_sha") (.str update.headSha) &&
  sameText (e.payload.get "resource_type") (.str update.resourceType.value) &&
  sameText (e.payload.get "resource_id") (.str update.resourceId)

def latestResourceEvent (db : Database) (taskId : UUID) (update : WebhookUpdate) :
    Option TaskEvent :=
  latestBy TaskEvent.sequence ((taskEventsOf db taskId).filter (isResourceEvent update))

/-! ### Review state across heads -/

/-- The state of every reviewer and of every thread. -/
structure ReviewStates where
  reviews : Dict String String := .empty
  threads : Dict String String := .empty

/-- One more review event; a comment says nothing about an earlier verdict. -/
def ReviewStates.add (s : ReviewStates) (e : TaskEvent) : ReviewStates :=
  match e.payload.get "resource_id", e.payload.get "state" with
  | .str resourceId, .str state =>
    if sameText (e.payload.get "resource_type") (.str ResourceType.review.value) then
      if state ≠ "COMMENTED" ∨ s.reviews.get? resourceId = none then
        { s with reviews := s.reviews.set resourceId state }
      else s
    else if sameText (e.payload.get "resource_type") (.str ResourceType.reviewThread.value) then
      { s with threads := s.threads.set resourceId state }
    else s
  | _, _ => s

def sortedTexts (texts : List String) : List String := texts.insertionSort (· ≤ ·)

def texts (values : List String) : Json := .arr (values.map .str)

/-- The states after the review events of a history. -/
def reviewStatesAfter (events : List TaskEvent) : ReviewStates :=
  (events.filter fun e => e.eventType = UpdateType.review.value).foldl ReviewStates.add {}

def ReviewStates.blockingReviews (s : ReviewStates) : List String :=
  sortedTexts (s.reviews.keysWhere (· = "CHANGES_REQUESTED"))

def ReviewStates.openThreads (s : ReviewStates) : List String :=
  sortedTexts (s.threads.keysWhere (· = "OPEN"))

/-- The reviewers and threads a binding carries over, when there are any. -/
def carryoverJson (blockingReviews openThreads : List String) : Option Json :=
  if blockingReviews = [] ∧ openThreads = [] then none
  else some (.obj
    [("changes_requested_review_ids", texts blockingReviews),
      ("open_review_thread_ids", texts openThreads)])

/-- The reviewers that block and the threads that are open, over all heads so far. -/
def reviewStateCarryover (db : Database) (taskId : UUID) : Option Json :=
  let states := reviewStatesAfter (taskEventsOf db taskId)
  carryoverJson states.blockingReviews states.openThreads

/-! ### Binding -/

/-- The arguments of a binding, with the identifier the new event gets. -/
structure PullRequestBinding where
  taskId : UUID
  installationId : ℤ
  repositoryId : ℤ
  pullRequestNumber : ℤ
  taskBranch : String
  headSha : String
  requiredChecks : List String
  now : Time
  eventId : UUID

/-- The names of the required checks: sorted, without white space around them. -/
def normalizedChecks (rt : Runtime) (checks : List String) : List String :=
  sortedTexts ((checks.map fun c => String.ofList (rt.unicode.strip c.toList)).filter
    (· ≠ "")).dedup

/-- What is checked of a binding before the store is read. -/
def checkBinding (rt : Runtime) (cfg : GitHubAppConfiguration) (b : PullRequestBinding) :
    Except GitHubWebhookError PullRequestBinding := do
  let taskBranch ← requiredBranch rt b.taskBranch
  let headSha ← requiredSha rt b.headSha
  let requiredChecks := normalizedChecks rt b.requiredChecks
  Except.require (requiredChecks ≠ [] ∧ requiredChecks.length = b.requiredChecks.length ∧
      requiredChecks.length ≤ 50 ∧ ∀ c ∈ requiredChecks, c.length ≤ 255)
    (.payload "required checks are invalid")
  Except.require (b.installationId = cfg.installationId ∧ b.repositoryId = cfg.repositoryId ∧
      0 < b.pullRequestNumber) (.payload "pull request binding is invalid")
  return { b with taskBranch, headSha, requiredChecks }

def bindingPayload (cfg : GitHubAppConfiguration) (b : PullRequestBinding)
    (carryover : Option Json) : Json :=
  .obj <|
    [("schema_version", .int 1),
      ("installation_id", .int b.installationId),
      ("repository_id", .int b.repositoryId),
      ("repository_key", .str cfg.repositoryKey),
      ("pull_request_number", .int b.pullRequestNumber),
      ("task_branch", .str b.taskBranch),
      ("head_sha", .str b.headSha),
      ("required_checks", texts b.requiredChecks)] ++
    match carryover with
    | some carryover => [("review_state_carryover", carryover)]
    | none => []

/-- A delivery waiting for the binding of its pull request and head. -/
def isDeferredFor (b : PullRequestBinding) (d : WebhookDelivery) : Bool :=
  d.installationId = toString b.installationId && d.repositoryId = toString b.repositoryId &&
  d.pullRequestNumber = some b.pullRequestNumber && d.headSha = some b.headSha &&
  d.quarantineReason = some "correlation_unknown"

/-- A delivery as it was received. -/
def WebhookDelivery.release (d : WebhookDelivery) : WebhookDelivery :=
  { d with
    processingResult := { d.processingResult with processed := false, replayedAfterBinding := true }
    quarantineReason := none
    processedAt := none }

/-- Before another: received earlier, or at the same time with the smaller identifier. -/
def WebhookDelivery.before (a b : WebhookDelivery) : Prop :=
  a.receivedAt.val < b.receivedAt.val ∨ (a.receivedAt.val = b.receivedAt.val ∧ a.id ≤ b.id)

instance (a b : WebhookDelivery) : Decidable (a.before b) :=
  inferInstanceAs (Decidable (_ ∨ _))

def bindingEvent (cfg : GitHubAppConfiguration) (db : Database) (task : Task)
    (b : PullRequestBinding) (carryover : Option Json) : TaskEvent where
  id := b.eventId
  taskId := task.id
  sequence := nextEventSequence db task.id
  eventType := githubPrBoundEvent
  payload := bindingPayload cfg b carryover
  occurredAt := b.now
  ownerId := task.ownerId
  rootCorrelationId := task.rootCorrelationId
  causationId := some task.id

/-- The committed part of a binding: the event, unless the latest one says the same, and
the release of waiting deliveries. Returns their identifiers in the order of arrival. -/
def bindTransaction (rt : Runtime) (cfg : GitHubAppConfiguration) (db : Database)
    (arguments : PullRequestBinding) :
    Except GitHubWebhookError (UUID × List UUID × Database) := do
  let b ← checkBinding rt cfg arguments
  let unavailable : GitHubWebhookError := .payload "task cannot be bound"
  let task ← Except.orThrow (db.tasks.get? b.taskId) unavailable
  Except.require (task.ownerId = githubOwner ∧
      casefolded rt task.repository = cfg.repositoryKey ∧ task.state.isTerminal = false) unavailable
  let event := bindingEvent cfg db task b (reviewStateCarryover db task.id)
  let deferred := (db.webhookDeliveries.select (isDeferredFor b)).insertionSort
    WebhookDelivery.before
  let webhookDeliveries := deferred.foldl (fun t d => t.set d.release) db.webhookDeliveries
  match (latestBinding db task.id).filter (·.payload.pyEq event.payload) with
  | some current =>
    return (current.id, deferred.map WebhookDelivery.id, { db with webhookDeliveries })
  | none => do
    let taskEvents ← Except.orThrow (db.taskEvents.insert? event)
      (.integrity "task event is not unique")
    return (event.id, deferred.map WebhookDelivery.id, { db with taskEvents, webhookDeliveries })

/-! ### Processing -/

/-- The result of one delivery. -/
structure IngestionResponse where
  deliveryId : UUID
  disposition : WebhookDisposition
  taskId : Option UUID := none
  eventId : Option UUID := none
  jobId : Option UUID := none

/-- What processing decided about a delivery. -/
structure Outcome where
  disposition : WebhookDisposition
  reason : Option String := none
  taskId : Option UUID := none
  eventId : Option UUID := none
  jobId : Option UUID := none

/-- Record the outcome of a delivery. -/
def finish (db : Database) (d : WebhookDelivery) (now : Time) (o : Outcome) :
    IngestionResponse × Database :=
  ({ deliveryId := d.id, disposition := o.disposition, taskId := o.taskId, eventId := o.eventId,
     jobId := o.jobId },
    { db with
      webhookDeliveries := db.webhookDeliveries.set { d with
        processingResult := { d.processingResult with
          processed := true, disposition := some o.disposition, reason := o.reason,
          taskId := o.taskId, eventId := o.eventId, jobId := o.jobId }
        processedAt := some now } })

def quarantine (db : Database) (d : WebhookDelivery) (now : Time) (reason : String) :
    IngestionResponse × Database :=
  let kept := String.ofList (reason.toList.take 500)
  finish db { d with quarantineReason := some kept } now
    { disposition := .quarantined, reason := some reason }

def configurationMismatch (update : WebhookUpdate) (cfg : GitHubAppConfiguration) :
    Option String :=
  if update.installationId ≠ cfg.installationId then some "installation_mismatch"
  else if update.repositoryId ≠ cfg.repositoryId then some "repository_id_mismatch"
  else if update.repositoryKey ≠ cfg.repositoryKey then some "repository_key_mismatch"
  else none

/-- The task an update belongs to, if there is exactly one. -/
inductive Correlation where
  | accepted (task : Task) (update : WebhookUpdate) (previousHeadSha : Option String)
  | stale (task : Task)
  | unknown (reason : String)

/-- A synchronized pull request seen as a change of its head. -/
def WebhookUpdate.asHeadChange (update : WebhookUpdate) : WebhookUpdate :=
  { update with
    eventType := .headChanged
    resourceType := .pullRequestHead
    resourceId := toString update.pullRequestNumber
    state := "HEAD_CHANGED" }

/-- An update at another head than the one its pull request was bound at. -/
def correlateOtherHead (db : Database) (task : Task) (update : WebhookUpdate) : Correlation :=
  match effectiveTaskHead db task.id with
  | none => .stale task
  | some effective =>
    if update.headSha = effective then .accepted task update none
    else if update.eventType = .pullRequest ∧ update.action = "synchronize" then
      .accepted task update.asHeadChange (some effective)
    else .stale task

def correlate (db : Database) (update : WebhookUpdate) : Correlation :=
  match bindingCandidates db update true with
  | [] =>
    match bindingCandidates db update false with
    | [task] => correlateOtherHead db task update
    | _ => .unknown "correlation_unknown"
  | [task] => .accepted task update none
  | _ => .unknown "correlation_ambiguous"

def WebhookUpdate.eventPayload (update : WebhookUpdate) (d : WebhookDelivery)
    (previousHeadSha : Option String) : Json :=
  .obj <|
    [("schema_version", .int 1),
      ("delivery_id", .str d.providerDeliveryId),
      ("event_name", .str d.processingResult.eventName),
      ("action", .str update.action),
      ("installation_id", .int update.installationId),
      ("repository_id", .int update.repositoryId),
      ("repository_key", .str update.repositoryKey),
      ("pull_request_number", .int update.pullRequestNumber),
      ("task_branch", .str update.taskBranch),
      ("head_sha", .str update.headSha),
      ("resource_type", .str update.resourceType.value),
      ("resource_id", .str update.resourceId),
      ("resource_label", .str update.resourceLabel),
      ("state", .str update.state),
      ("source_updated_at", .str (Calendar.isoTimestamp update.sourceUpdatedAt))] ++
    match previousHeadSha with
    | some head => [("previous_head_sha", .str head)]
    | none => []

/-- The event an accepted update is recorded as. -/
def updateEvent (db : Database) (d : WebhookDelivery) (task : Task) (update : WebhookUpdate)
    (previousHeadSha : Option String) (now : Time) (eventId : UUID) : TaskEvent where
  id := eventId
  taskId := task.id
  sequence := nextEventSequence db task.id
  eventType := update.eventType.value
  payload := update.eventPayload d previousHeadSha
  occurredAt := now
  ownerId := task.ownerId
  rootCorrelationId := task.rootCorrelationId
  causationId := some d.id
  parentCorrelationId := some d.id

/-- The job that wakes the task's workflow. -/
def wakeUpJob (rt : Runtime) (d : WebhookDelivery) (task : Task) (update : WebhookUpdate)
    (event : TaskEvent) (now : Time) (jobId : UUID) : BackgroundJob :=
  let inputPayload : Json := .obj
    [("schema_version", .int 1),
      ("delivery_id", .str d.providerDeliveryId),
      ("task_event_id", .str event.id.str),
      ("head_sha", .str update.headSha),
      ("resource_type", .str update.resourceType.value),
      ("resource_state", .str update.state)]
  { id := jobId
    taskId := some task.id
    jobType := "github-webhook"
    inputPayload
    inputFingerprint := rt.fingerprint inputPayload
    idempotencyKey := s!"github-webhook:{d.providerDeliveryId}"
    availableAt := now
    createdAt := now
    ownerId := task.ownerId
    rootCorrelationId := task.rootCorrelationId
    causationId := some event.id
    parentCorrelationId := some d.id }

/-- Append a correlated update unless it is not newer than the recorded one. -/
def recordUpdate (rt : Runtime) (db : Database) (d : WebhookDelivery) (task : Task)
    (update : WebhookUpdate) (previousHeadSha : Option String) (now : Time)
    (eventId jobId : UUID) : Except GitHubWebhookError (IngestionResponse × Database) := do
  let previousAt ← (latestResourceEvent db task.id update).mapM fun previous =>
    parseTimestamp rt (previous.payload.get "source_updated_at") "source_updated_at"
  if previousAt.any fun t => update.sourceUpdatedAt.val ≤ t.val then
    return finish db d now
      { disposition := .stale, reason := some "source_update_not_newer", taskId := some task.id }
  let event := updateEvent db d task update previousHeadSha now eventId
  let job := wakeUpJob rt d task update event now jobId
  let taskEvents ← Except.orThrow (db.taskEvents.insert? event)
    (.integrity "task event is not unique")
  Except.require (db.backgroundJobs.rows.all (·.idempotencyKey ≠ job.idempotencyKey))
    (.integrity "background job is not unique")
  let backgroundJobs ← Except.orThrow (db.backgroundJobs.insert? job)
    (.integrity "background job is not unique")
  let references := d.payloadEvidenceId.toList.map fun evidenceId =>
    { taskId := task.id, taskEventId := event.id, evidenceId, position := 1 :
      TaskEventEvidenceReference }
  let db := { db with
    taskEvents, backgroundJobs
    taskEventEvidenceReferences := db.taskEventEvidenceReferences ++ references }
  return finish db d now
    { disposition := .accepted, taskId := some task.id, eventId := some event.id,
      jobId := some job.id }

/-- Process an update that was normalized from a delivery of the configured repository. -/
def processUpdate (rt : Runtime) (db : Database) (delivery : WebhookDelivery)
    (update : WebhookUpdate) (now : Time) (eventId jobId : UUID) :
    Except GitHubWebhookError (IngestionResponse × Database) :=
  let d := { delivery with
    installationId := toString update.installationId
    repositoryId := toString update.repositoryId
    pullRequestNumber := some update.pullRequestNumber
    headSha := some update.headSha }
  match correlate db update with
  | .unknown reason => .ok (quarantine db d now reason)
  | .stale task =>
    .ok (finish db d now
      { disposition := .stale, reason := some "head_sha_not_current", taskId := some task.id })
  | .accepted task update previousHeadSha =>
    if task.state.isTerminal then .ok (quarantine db d now "task_not_active")
    else recordUpdate rt db d task update previousHeadSha now eventId jobId

/-- The update of the stored evidence of a delivery. -/
def storedUpdate (rt : Runtime) (content : Json) (receivedAt : Calendar.Instant) :
    Except GitHubWebhookError WebhookUpdate :=
  match content.get "event_name" with
  | .str eventName => normalizeUpdate rt eventName (content.get "payload") receivedAt
  | _ => .error (.payload "event_not_allowed")

/-- What the first look at a delivery shows. -/
inductive Reading where
  | update (update : WebhookUpdate)
  | rejected (reason : String)

/-- Load, normalize and match the configuration. -/
def readDelivery (rt : Runtime) (cfg : GitHubAppConfiguration) (db : Database)
    (d : WebhookDelivery) : Except GitHubWebhookError Reading :=
  match d.payloadEvidenceId.bind db.evidenceRecords.get? with
  | none => .ok (.rejected "payload_evidence_missing")
  | some record =>
    match loadEvidence rt db record with
    | .error (.notFound _) | .error (.validation _) => .ok (.rejected "payload_evidence_unreadable")
    | .error e => .error (.evidence e)
    | .ok loaded =>
      match storedUpdate rt loaded.content d.receivedAt with
      | .error (.payload reason) => .ok (.rejected reason)
      | .error e => .error e
      | .ok update =>
        match configurationMismatch update cfg with
        | some reason => .ok (.rejected reason)
        | none => .ok (.update update)

/-- Process one stored delivery; a processed one is reported again. -/
def processDelivery (rt : Runtime) (cfg : GitHubAppConfiguration) (db : Database)
    (deliveryId : UUID) (now : Time) (eventId jobId : UUID) :
    Except GitHubWebhookError (IngestionResponse × Database) := do
  let d ← Except.orThrow (db.webhookDeliveries.get? deliveryId)
    (.payload "delivery is unavailable")
  if d.processedAt.isSome then
    return ({ deliveryId := d.id
              disposition := d.processingResult.disposition.getD .quarantined
              taskId := d.processingResult.taskId, eventId := d.processingResult.eventId
              jobId := d.processingResult.jobId }, db)
  match ← readDelivery rt cfg db d with
  | .rejected reason => return quarantine db d now reason
  | .update update => processUpdate rt db d update now eventId jobId

/-! ### Intake -/

/-- A delivery whose signature over the raw body was verified, with the value the body
decodes to (none when it does not) and the artifact it is kept under. -/
structure VerifiedWebhook where
  signatureHeader : String
  bodySha256 : String
  bodyBytes : ℕ
  rawBodyArtifact : String
  decoded : Option Json

def VerifiedWebhook.toJson (v : VerifiedWebhook) : Json :=
  .obj
    [("algorithm", .str "HMAC-SHA256"), ("body_sha256", .str v.bodySha256),
      ("body_bytes", .int v.bodyBytes)]

def maxWebhookBytes : ℕ := 1024 * 1024

mutual

/-- How many values a decoded body has; none when it is nested too deep, or has a key or a
text that is too long. -/
def boundedNodes (depth : ℕ) : Json → Option ℕ
  | .arr items => if 32 < depth then none else (boundedItems (depth + 1) items).map (· + 1)
  | .obj fields => if 32 < depth then none else (boundedFields (depth + 1) fields).map (· + 1)
  | .str s => if 32 < depth ∨ maxWebhookBytes < s.length then none else some 1
  | _ => if 32 < depth then none else some 1

def boundedItems (depth : ℕ) : List Json → Option ℕ
  | [] => some 0
  | item :: items => do
    return (← boundedNodes depth item) + (← boundedItems depth items)

def boundedFields (depth : ℕ) : List (String × Json) → Option ℕ
  | [] => some 0
  | (key, value) :: fields =>
    if 10000 < key.length then none
    else do return (← boundedNodes depth value) + (← boundedFields depth fields)

end

def decodePayload (v : VerifiedWebhook) : Except GitHubWebhookError Json := do
  let value ← Except.orThrow v.decoded (.payload "payload_invalid")
  Except.require (value.obj?.isSome) (.payload "payload_not_object")
  Except.require ((boundedNodes 1 value).any (· ≤ 100000)) (.payload "payload_bounds_exceeded")
  return value

def deliveryPattern : Pattern :=
  seq (cls alnum) (many true 0 (some 254) (cls (.union alnum (oneOf "._:-"))))

def requiredDeliveryId (rt : Runtime) (value : String) : Except GitHubWebhookError String :=
  if deliveryPattern.fullmatch (CharClass.holds rt.unicode) value.toList then .ok value
  else .error (.payload "delivery_id_invalid")

def requiredEventName (value : String) : Except GitHubWebhookError String :=
  if value ≠ "" ∧ value.length ≤ 100 ∧ value.toList.all Unicode.isAscii then .ok value
  else .error (.payload "event_name_invalid")

/-- One verified request, with the fresh identifiers of its delivery and its evidence. -/
structure WebhookRequest where
  eventName : String
  deliveryId : String
  verified : VerifiedWebhook
  now : Calendar.Instant
  deliveryUuid : UUID
  evidenceId : UUID

/-- The content of the evidence a delivery is kept as. -/
def webhookEvidence (r : WebhookRequest) (payload : Json) : Json :=
  .obj
    [("schema_version", .int 1),
      ("provider_delivery_id", .str r.deliveryId),
      ("event_name", .str r.eventName),
      ("signature_header", .str r.verified.signatureHeader),
      ("raw_body_artifact", .str r.verified.rawBodyArtifact),
      ("verification", r.verified.toJson),
      ("payload", payload)]

def webhookCapture (r : WebhookRequest) (payload : Json) : EvidenceCapture where
  payload := webhookEvidence r payload
  sourceKind := .externalEvent
  evidenceType := "github-webhook"
  origin := "github:webhook"
  accessClassification := .internal
  retentionPolicy := .audit
  ownerId := githubOwner
  actorId := githubActor
  rootCorrelationId := r.deliveryUuid
  causationId := some r.deliveryUuid
  evidenceId := r.evidenceId
  capturedAt := r.now

/-- The text a value is shown as in an identity column, where it is a number or a text. -/
def identityText : Json → String
  | .int n => toString n
  | .str s => String.ofList (s.toList.take 255)
  | _ => "None"

/-- The identity a delivery is filed under until it is normalized. -/
def bestEffortIdentity (rt : Runtime) (payload : Json) : String × String × Option ℤ × Option String :=
  let pr := payload.get "pull_request"
  let check := payload.get "check_run"
  let (number, sha) :=
    match check with
    | .obj _ =>
      (match check.get "pull_requests" with
        | .arr [.obj fields] => (Json.obj fields).get "number"
        | _ => pr.get "number", check.get "head_sha")
    | _ => (pr.get "number", (pr.get "head").get "sha")
  let id (value : Json) : String :=
    match value with
    | .obj _ => identityText (value.get "id")
    | _ => "unknown"
  (id (payload.get "installation"), id (payload.get "repository"),
    match number with
    | .int n => if 0 < n then some n else none
    | _ => none,
    match sha with
    | .str s => if isSha (casefolded rt s).toList then some s else none
    | _ => none)

/-- The row of a received delivery. -/
def receivedDelivery (rt : Runtime) (r : WebhookRequest) (payload : Json) : WebhookDelivery :=
  let identity := bestEffortIdentity rt payload
  { id := r.deliveryUuid
    providerDeliveryId := r.deliveryId
    installationId := identity.1
    repositoryId := identity.2.1
    pullRequestNumber := identity.2.2.1
    headSha := identity.2.2.2
    payloadEvidenceId := some r.evidenceId
    processingResult := { bodySha256 := r.verified.bodySha256, eventName := r.eventName }
    receivedAt := r.now }

/-- The committed receipt of a delivery: its identifier, and whether it was there before. -/
def receive (rt : Runtime) (db : Database) (r : WebhookRequest) :
    Except GitHubWebhookError (UUID × Bool × Database) := do
  let deliveryId ← requiredDeliveryId rt r.deliveryId
  let _ ← requiredEventName r.eventName
  let payload ← decodePayload r.verified
  match db.webhookDeliveries.rows.find? (·.providerDeliveryId = deliveryId) with
  | some existing =>
    Except.require (existing.processingResult.bodySha256 = r.verified.bodySha256)
      (.conflict "delivery identifier does not match the original body")
    return (existing.id, true, db)
  | none =>
    let (_, db) ← Except.relabel (captureEvidence rt db (webhookCapture r payload)) .evidence
    let webhookDeliveries ← Except.orThrow
      (db.webhookDeliveries.insert? (receivedDelivery rt r payload))
      (.integrity "webhook delivery is not unique")
    return (r.deliveryUuid, false, { db with webhookDeliveries })

/-- Receive a verified delivery and process it. -/
def ingest (rt : Runtime) (cfg : GitHubAppConfiguration) (db : Database) (r : WebhookRequest)
    (eventId jobId : UUID) : Except GitHubWebhookError (IngestionResponse × Database) := do
  let (deliveryId, replayed, db) ← receive rt db r
  let (response, db) ← processDelivery rt cfg db deliveryId r.now eventId jobId
  return (if replayed then { response with disposition := .replayed } else response, db)

end ControlPlane
