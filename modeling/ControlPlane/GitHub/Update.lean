import ControlPlane.Domain
import ControlPlane.Lib.Encoding
import ControlPlane.Lib.Transaction

/-!
# Normalized webhook updates

A delivery is a decoded JSON object. Normalization reads the pull request it concerns, the
resource it updates, the resource's state and the time of the update at the source, and
rejects what is not of the form the provider documents.
-/
namespace ControlPlane

open Regex Regex.Re

/-- The failures of webhook intake. `payload` rejects a delivery and `conflict` a reused
identifier; the others leave the transaction as the interpreter or the store raised them. -/
inductive GitHubWebhookError where
  | payload (message : String)
  | conflict (message : String)
  | typeError (message : String)
  | overflow (message : String)
  | integrity (message : String)
  | evidence (error : EvidenceError)
  deriving DecidableEq, Repr

/-! ### Event types -/

def githubPrBoundEvent : String := "GITHUB_PR_BOUND"

/-- The events a webhook update is recorded as. -/
inductive UpdateType where
  | check | review | pullRequest | headChanged
  deriving DecidableEq, Repr

def UpdateType.value : UpdateType → String
  | check => "GITHUB_CHECK_UPDATED"
  | review => "GITHUB_REVIEW_UPDATED"
  | pullRequest => "GITHUB_PULL_REQUEST_UPDATED"
  | headChanged => "GITHUB_PR_HEAD_CHANGED"

inductive ResourceType where
  | checkRun | review | reviewComment | reviewThread | pullRequest | pullRequestHead
  deriving DecidableEq, Repr

def ResourceType.value : ResourceType → String
  | checkRun => "check_run"
  | review => "review"
  | reviewComment => "review_comment"
  | reviewThread => "review_thread"
  | pullRequest => "pull_request"
  | pullRequestHead => "pull_request_head"

theorem UpdateType.value_injective : Function.Injective UpdateType.value := by
  intro a b h
  cases a <;> cases b <;> first | rfl | exact absurd h (by decide)

theorem ResourceType.value_injective : Function.Injective ResourceType.value := by
  intro a b h
  cases a <;> cases b <;> first | rfl | exact absurd h (by decide)

@[simp] theorem UpdateType.value_inj {a b : UpdateType} : a.value = b.value ↔ a = b :=
  UpdateType.value_injective.eq_iff

@[simp] theorem ResourceType.value_inj {a b : ResourceType} : a.value = b.value ↔ a = b :=
  ResourceType.value_injective.eq_iff

@[simp] theorem UpdateType.value_ne_bound (a : UpdateType) : a.value ≠ githubPrBoundEvent := by
  cases a <;> decide

/-- The deliveries the application subscribes to. -/
inductive WebhookEvent where
  | checkRun | pullRequest | pullRequestReview | pullRequestReviewComment
  | pullRequestReviewThread
  deriving DecidableEq, Repr

def WebhookEvent.ofName? : String → Option WebhookEvent
  | "check_run" => some checkRun
  | "pull_request" => some pullRequest
  | "pull_request_review" => some pullRequestReview
  | "pull_request_review_comment" => some pullRequestReviewComment
  | "pull_request_review_thread" => some pullRequestReviewThread
  | _ => none

def WebhookEvent.actions : WebhookEvent → List String
  | checkRun => ["created", "rerequested", "completed", "requested_action"]
  | pullRequest =>
    ["opened", "closed", "reopened", "synchronize", "converted_to_draft", "ready_for_review"]
  | pullRequestReview => ["submitted", "edited", "dismissed"]
  | pullRequestReviewComment => ["created", "edited", "deleted"]
  | pullRequestReviewThread => ["resolved", "unresolved"]

/-- One update of one resource of a pull request. -/
structure WebhookUpdate where
  eventType : UpdateType
  installationId : ℤ
  repositoryId : ℤ
  repositoryKey : String
  pullRequestNumber : ℤ
  taskBranch : String
  headSha : String
  action : String
  resourceType : ResourceType
  resourceId : String
  resourceLabel : String
  state : String
  sourceUpdatedAt : Calendar.Instant
  deriving DecidableEq

/-! ### Reading a payload -/

def mapping (value : Json) (key : String) : Except GitHubWebhookError Json :=
  match value.get key with
  | .obj fields => .ok (.obj fields)
  | _ => .error (.payload s!"{key}_invalid")

def positiveInt (value : Json) (key : String) : Except GitHubWebhookError ℤ :=
  match value.get key with
  | .int n => if 0 < n then .ok n else .error (.payload s!"{key}_invalid")
  | _ => .error (.payload s!"{key}_invalid")

def requiredString (value : Json) (key : String) (maximum : ℕ) :
    Except GitHubWebhookError String :=
  match value.get key with
  | .str s =>
    if s = "" ∨ maximum < s.length then .error (.payload s!"{key}_invalid") else .ok s
  | _ => .error (.payload s!"{key}_invalid")

def branchPattern : Pattern :=
  seq (cls alnum) (many true 0 (some 254) (cls (.union alnum (oneOf "._/-"))))

/-- The branch names a binding and an update accept. -/
def IsBranch (u : Unicode) (value : List Char) : Prop :=
  branchPattern.fullmatch (CharClass.holds u) value = true ∧
    occursIn "..".toList value = false ∧ value.getLast? ≠ some '/'

instance (u : Unicode) (value : List Char) : Decidable (IsBranch u value) :=
  inferInstanceAs (Decidable (_ ∧ _))

def requiredBranch (rt : Runtime) (value : String) : Except GitHubWebhookError String :=
  if IsBranch rt.unicode value.toList then .ok value else .error (.payload "task_branch_invalid")

/-- Forty or sixty-four lower-case hexadecimal digits. -/
def isSha (value : List Char) : Bool :=
  (value.length = 40 || value.length = 64) && value.all UUID.hexAlphabet.contains

def casefolded (rt : Runtime) (value : String) : String :=
  String.ofList (rt.unicode.casefold value.toList)

def requiredSha (rt : Runtime) (value : String) : Except GitHubWebhookError String :=
  let normalized := casefolded rt value
  if isSha normalized.toList then .ok normalized else .error (.payload "head_sha_invalid")

def parseTimestamp (rt : Runtime) (value : Json) (field : String) :
    Except GitHubWebhookError Calendar.Instant :=
  match value with
  | .str s =>
    if 40 < s.length then .error (.payload s!"{field}_invalid")
    else match rt.fromIsoformat s with
      | .aware t => .ok t
      | .outOfRange => .error (.overflow "date value out of range")
      | .malformed | .naive => .error (.payload s!"{field}_invalid")
  | _ => .error (.payload s!"{field}_invalid")

/-! ### Normalization -/

/-- The state of a check run. A conclusion that has no hash cannot be looked up. -/
def checkState (status : String) (conclusion : Json) : Except GitHubWebhookError String :=
  if status ≠ "completed" then
    .ok (if status = "in_progress" then "IN_PROGRESS" else "QUEUED")
  else match conclusion with
    | .arr _ | .obj _ => .error (.typeError "unhashable type")
    | .str "success" => .ok "PASSED"
    | .str "neutral" | .str "skipped" => .ok "NEUTRAL"
    | .str "cancelled" | .str "timed_out" => .ok "CANCELLED"
    | _ => .ok "FAILED"

/-- The only pull request of a check run. -/
def onlyPullRequest (check : Json) : Except GitHubWebhookError Json :=
  match check.get "pull_requests" with
  | .arr [.obj fields] => .ok (.obj fields)
  | _ => .error (.payload "check_pull_request_ambiguous")

def upperText (rt : Runtime) (value : String) : String :=
  String.ofList (rt.unicode.upper value.toList)

def reviewStates : List String := ["APPROVED", "CHANGES_REQUESTED", "COMMENTED", "DISMISSED"]

/-- What every delivery says of its sender. -/
structure DeliveryContext where
  installationId : ℤ
  repositoryId : ℤ
  repositoryKey : String
  action : String

def deliveryContext (rt : Runtime) (event : WebhookEvent) (payload : Json) :
    Except GitHubWebhookError DeliveryContext := do
  let installation ← mapping payload "installation"
  let repository ← mapping payload "repository"
  let installationId ← positiveInt installation "id"
  let repositoryId ← positiveInt repository "id"
  let repositoryKey := casefolded rt (← requiredString repository "full_name" 140)
  let action ← requiredString payload "action" 50
  Except.require (action ∈ event.actions) (.payload "event_action_unknown")
  return { installationId, repositoryId, repositoryKey, action }

def normalizeCheckRun (rt : Runtime) (c : DeliveryContext) (payload : Json) :
    Except GitHubWebhookError WebhookUpdate := do
  let check ← mapping payload "check_run"
  let number ← positiveInt (← onlyPullRequest check) "number"
  let suite ← mapping check "check_suite"
  let suiteId ← positiveInt suite "id"
  let branch ← requiredBranch rt (← requiredString suite "head_branch" 255)
  let sha ← requiredSha rt (← requiredString check "head_sha" 64)
  let status ← requiredString check "status" 30
  let state ← checkState status (check.get "conclusion")
  let name ← requiredString check "name" 255
  let updatedAt ← parseTimestamp rt (check.get "updated_at") "updated_at"
  return { eventType := .check
           installationId := c.installationId, repositoryId := c.repositoryId
           repositoryKey := c.repositoryKey, pullRequestNumber := number
           taskBranch := branch, headSha := sha, action := c.action
           resourceType := .checkRun, resourceId := s!"{suiteId}:{name}"
           resourceLabel := name, state, sourceUpdatedAt := updatedAt }

/-- The pull request of a delivery that is not about a check run: its object, number,
branch and head. -/
structure PullRequestIdentity where
  object : Json
  number : ℤ
  branch : String
  sha : String

def pullRequestIdentity (rt : Runtime) (payload : Json) :
    Except GitHubWebhookError PullRequestIdentity := do
  let object ← mapping payload "pull_request"
  let number ← positiveInt object "number"
  let head ← mapping object "head"
  let branch ← requiredBranch rt (← requiredString head "ref" 255)
  let sha ← requiredSha rt (← requiredString head "sha" 64)
  return { object, number, branch, sha }

def normalizeReview (rt : Runtime) (c : DeliveryContext) (pr : PullRequestIdentity)
    (payload : Json) (receivedAt : Calendar.Instant) :
    Except GitHubWebhookError WebhookUpdate := do
  let review ← mapping payload "review"
  let reviewer ← mapping review "user"
  let state := upperText rt (← requiredString review "state" 40)
  Except.require (state ∈ reviewStates) (.payload "review_state_unknown")
  let commit ← requiredSha rt (← requiredString review "commit_id" 64)
  let reviewerId ← positiveInt reviewer "id"
  let login ← requiredString reviewer "login" 255
  let time :=
    if c.action ≠ "dismissed" then (review.get "updated_at").or (review.get "submitted_at")
    else .str (Calendar.isoTimestamp receivedAt)
  let updatedAt ← parseTimestamp rt time "review timestamp"
  return { eventType := .review
           installationId := c.installationId, repositoryId := c.repositoryId
           repositoryKey := c.repositoryKey, pullRequestNumber := pr.number
           taskBranch := pr.branch, headSha := commit, action := c.action
           resourceType := .review, resourceId := toString reviewerId
           resourceLabel := login, state, sourceUpdatedAt := updatedAt }

def normalizeReviewComment (rt : Runtime) (c : DeliveryContext) (pr : PullRequestIdentity)
    (payload : Json) : Except GitHubWebhookError WebhookUpdate := do
  let comment ← mapping payload "comment"
  let commentId ← positiveInt comment "id"
  let updatedAt ← parseTimestamp rt ((comment.get "updated_at").or (comment.get "created_at"))
    "comment timestamp"
  return { eventType := .review
           installationId := c.installationId, repositoryId := c.repositoryId
           repositoryKey := c.repositoryKey, pullRequestNumber := pr.number
           taskBranch := pr.branch, headSha := pr.sha, action := c.action
           resourceType := .reviewComment, resourceId := toString commentId
           resourceLabel := "Review comment"
           state := if c.action = "deleted" then "DELETED" else "OPEN"
           sourceUpdatedAt := updatedAt }

def normalizeReviewThread (c : DeliveryContext) (pr : PullRequestIdentity)
    (payload : Json) (receivedAt : Calendar.Instant) :
    Except GitHubWebhookError WebhookUpdate := do
  let thread ← mapping payload "thread"
  let threadId ← positiveInt thread "id"
  return { eventType := .review
           installationId := c.installationId, repositoryId := c.repositoryId
           repositoryKey := c.repositoryKey, pullRequestNumber := pr.number
           taskBranch := pr.branch, headSha := pr.sha, action := c.action
           resourceType := .reviewThread, resourceId := toString threadId
           resourceLabel := "Review thread"
           state := if c.action = "resolved" then "RESOLVED" else "OPEN"
           sourceUpdatedAt := receivedAt }

def mergeState (rt : Runtime) (object : Json) : Except GitHubWebhookError String :=
  match object.get "merged" with
  | .bool true => .ok "MERGED"
  | _ => do return upperText rt (← requiredString object "state" 20)

def draftState (object : Json) (state : String) : String :=
  match object.get "draft" with
  | .bool true => if state = "OPEN" then "DRAFT" else state
  | _ => state

/-- The state of a pull request: merged, or the stated one, an open draft apart. -/
def pullRequestState (rt : Runtime) (object : Json) : Except GitHubWebhookError String := do
  return draftState object (← mergeState rt object)

def normalizePullRequest (rt : Runtime) (c : DeliveryContext) (pr : PullRequestIdentity) :
    Except GitHubWebhookError WebhookUpdate := do
  let state ← pullRequestState rt pr.object
  let updatedAt ← parseTimestamp rt (pr.object.get "updated_at") "updated_at"
  return { eventType := .pullRequest
           installationId := c.installationId, repositoryId := c.repositoryId
           repositoryKey := c.repositoryKey, pullRequestNumber := pr.number
           taskBranch := pr.branch, headSha := pr.sha, action := c.action
           resourceType := .pullRequest, resourceId := toString pr.number
           resourceLabel := s!"Pull request #{pr.number}"
           state, sourceUpdatedAt := updatedAt }

/-- The update a delivery stands for. -/
def normalizeUpdate (rt : Runtime) (eventName : String) (payload : Json)
    (receivedAt : Calendar.Instant) : Except GitHubWebhookError WebhookUpdate := do
  let event ← Except.orThrow (WebhookEvent.ofName? eventName) (.payload "event_not_allowed")
  let c ← deliveryContext rt event payload
  match event with
  | .checkRun => normalizeCheckRun rt c payload
  | .pullRequest => normalizePullRequest rt c (← pullRequestIdentity rt payload)
  | .pullRequestReview => normalizeReview rt c (← pullRequestIdentity rt payload) payload receivedAt
  | .pullRequestReviewComment =>
    normalizeReviewComment rt c (← pullRequestIdentity rt payload) payload
  | .pullRequestReviewThread =>
    normalizeReviewThread c (← pullRequestIdentity rt payload) payload receivedAt

/-! ### What an update is -/

/-- The events that record the updates of a kind of resource. -/
def ResourceType.eventType : ResourceType → UpdateType
  | checkRun => .check
  | review | reviewComment | reviewThread => .review
  | pullRequest => .pullRequest
  | pullRequestHead => .headChanged

/-- What holds of every update that is recorded. -/
structure WebhookUpdate.Recordable (u : WebhookUpdate) : Prop where
  eventType_eq : u.eventType = u.resourceType.eventType
  resourceId_ne : u.resourceId ≠ ""
  headSha_valid : isSha u.headSha.toList = true
  pullRequest_id : u.resourceType = .pullRequest → u.resourceId = toString u.pullRequestNumber

/-- What holds of every update a delivery is normalized to. -/
structure WebhookUpdate.WellFormed (u : WebhookUpdate) : Prop extends u.Recordable where
  not_change : u.resourceType ≠ .pullRequestHead

theorem WebhookUpdate.WellFormed.eventType_ne {u : WebhookUpdate} (h : u.WellFormed) :
    u.eventType ≠ .headChanged := by
  intro hchanged
  rw [h.eventType_eq] at hchanged
  cases hresource : u.resourceType with
  | pullRequestHead => exact h.not_change hresource
  | checkRun | review | reviewComment | reviewThread | pullRequest =>
    rw [hresource] at hchanged
    cases hchanged

theorem requiredSha_ok {rt : Runtime} {value sha : String} (h : requiredSha rt value = .ok sha) :
    isSha sha.toList = true := by
  simp only [requiredSha] at h
  by_cases hvalid : isSha (casefolded rt value).toList = true
  · simp only [hvalid, if_true, Except.ok.injEq] at h
    exact h ▸ hvalid
  · simp [hvalid] at h

theorem pullRequestIdentity_ok {rt : Runtime} {payload : Json} {pr : PullRequestIdentity}
    (h : pullRequestIdentity rt payload = .ok pr) : isSha pr.sha.toList = true := by
  simp only [pullRequestIdentity, Except.bind_eq_ok, Except.pure_eq_ok] at h
  obtain ⟨_, _, _, _, _, _, _, _, _, _, _, _, sha, hsha, rfl⟩ := h
  exact requiredSha_ok hsha

theorem normalizeUpdate_wellFormed {rt : Runtime} {eventName : String} {payload : Json}
    {receivedAt : Calendar.Instant} {u : WebhookUpdate}
    (h : normalizeUpdate rt eventName payload receivedAt = .ok u) : u.WellFormed := by
  simp only [normalizeUpdate, Except.bind_eq_ok] at h
  obtain ⟨event, -, c, -, h⟩ := h
  cases event with
  | checkRun =>
    simp only [normalizeCheckRun, Except.bind_eq_ok, Except.pure_eq_ok] at h
    obtain ⟨_, _, _, _, _, _, _, _, suiteId, _, _, _, _, _, _, _, sha, hsha, _, _, _, _, name, _,
      _, _, rfl⟩ := h
    refine ⟨⟨rfl, ?_, requiredSha_ok hsha, by simp⟩, by simp⟩
    intro hempty
    have hlength : (toString suiteId ++ toString ":" ++ toString name).length = 0 :=
      (congrArg String.length hempty).trans rfl
    have hcolon : (toString ":").length = 1 := rfl
    simp only [String.length_append] at hlength
    omega
  | pullRequest =>
    obtain ⟨pr, hpr, h⟩ := Except.bind_eq_ok.mp h
    simp only [normalizePullRequest, Except.bind_eq_ok, Except.pure_eq_ok] at h
    obtain ⟨_, _, _, _, rfl⟩ := h
    exact ⟨⟨rfl, Json.toString_int_ne _, pullRequestIdentity_ok hpr, fun _ => rfl⟩, by simp⟩
  | pullRequestReview =>
    obtain ⟨pr, hpr, h⟩ := Except.bind_eq_ok.mp h
    simp only [normalizeReview, Except.bind_eq_ok, Except.pure_eq_ok] at h
    obtain ⟨_, _, _, _, _, _, _, _, _, _, commit, hcommit, _, _, _, _, _, _, rfl⟩ := h
    exact ⟨⟨rfl, Json.toString_int_ne _, requiredSha_ok hcommit, by simp⟩, by simp⟩
  | pullRequestReviewComment =>
    obtain ⟨pr, hpr, h⟩ := Except.bind_eq_ok.mp h
    simp only [normalizeReviewComment, Except.bind_eq_ok, Except.pure_eq_ok] at h
    obtain ⟨_, _, _, _, _, _, rfl⟩ := h
    exact ⟨⟨rfl, Json.toString_int_ne _, pullRequestIdentity_ok hpr, by simp⟩, by simp⟩
  | pullRequestReviewThread =>
    obtain ⟨pr, hpr, h⟩ := Except.bind_eq_ok.mp h
    simp only [normalizeReviewThread, Except.bind_eq_ok, Except.pure_eq_ok] at h
    obtain ⟨_, _, _, _, rfl⟩ := h
    exact ⟨⟨rfl, Json.toString_int_ne _, pullRequestIdentity_ok hpr, by simp⟩, by simp⟩

end ControlPlane
