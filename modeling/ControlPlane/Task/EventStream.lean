import ControlPlane.Approvals.Decision
import ControlPlane.Authentication.Sessions
import ControlPlane.Task.StateMachine

/-!
# The event stream of a task

A client follows the events of a task by their sequence. The server reads them in batches
after a cursor, skips what it has sent, and polls again; a client that was cut off names the
last event it received, and the server reads that text back into a cursor.

## Main definitions

* `eventsAfter`: one batch, in the order of the sequence.
* `lastEventSequence`: the cursor a header stands for.
* `EventStream.resume`: the generator between two of its suspensions.
-/
namespace ControlPlane

def taskEventStreamBatchSize : ℕ := 100

def maxTaskEventSequence : ℕ := 2 ^ 63 - 1

def bootstrapActor : String := "mathews-bootstrap-mvp-authority"

/-! ### Responses -/

inductive TaskEventKind where
  | created
  | stateTransition
  | approval
  | activity
  deriving DecidableEq

structure TaskEventResponse where
  id : UUID
  sequence : ℕ
  kind : TaskEventKind
  summary : String
  occurredAt : Time
  fromState : Option TaskState
  toState : Option TaskState
  evidenceCount : ℕ
  deriving DecidableEq

/-- A part of a state's name: an acronym stays, another part keeps its first letter. -/
def titlePart (part : List Char) : List Char :=
  if part = ['P', 'R'] then part
  else match part with
    | [] => []
    | c :: cs => c :: cs.map Char.toLower

def stateLabel (state : TaskState) : String :=
  String.ofList ([' '].intercalate ((state.value.toList.splitOn '_').map titlePart))

def transitionSummary (event : TaskEvent) : String :=
  match event.transitionKind with
  | some .cancel => "Task cancelled; active automation was fenced."
  | some .scopeSteer => "Scope changed; a new brief and validation contract are required."
  | some .markMergeReady => "The exact pull-request head is ready for human action."
  | some .invalidateReadiness => "Exact-head readiness was invalidated by current evidence."
  | some .acknowledgeHandoff =>
    "Human acknowledged automation handoff; this does not mean merged, deployed, delivered, " ++
      "or released."
  | _ =>
    match event.transitionFromState, event.transitionToState with
    | some fromState, some toState =>
      "State changed from " ++ stateLabel fromState ++ " to " ++ stateLabel toState ++ "."
    | _, _ => "Task state changed."

/-- The kind of an event and the sentence shown for it; `str` prints a value that is no text. -/
def eventSummary (rt : Runtime) (str : Json → String) (event : TaskEvent) :
    TaskEventKind × String :=
  if event.eventType = "TASK_CREATED" then (.created, "Task request captured.")
  else if event.eventType = taskTransitionEventType then
    (.stateTransition, transitionSummary event)
  else if event.eventType = "TASK_STEERING_RECORDED" then
    (.activity, if (event.payload.get "classification").pyEq (.str "CLARIFICATION") then
      "In-scope clarification recorded." else "Scope-changing steering recorded.")
  else if event.eventType = "APPROVAL_REQUESTED" then (.approval, "Human approval requested.")
  else if event.eventType = "APPROVAL_EXPIRED" then (.approval, "An approval request expired.")
  else if event.eventType = "APPROVAL_DECIDED" then
    (.approval, "A human approval decision was recorded.")
  else if event.eventType = "GITHUB_PR_BOUND" then
    (.activity, "Pull request linked to this task.")
  else if event.eventType = "GITHUB_CHECK_UPDATED" then
    let state := match (event.payload.get? "state").getD (.str "updated") with
      | .str text => text
      | value => str value
    (.activity, "GitHub check is " ++ String.ofList (rt.unicode.lower state.toList) ++ ".")
  else if event.eventType = "GITHUB_REVIEW_UPDATED" then
    (.activity, "GitHub review activity was recorded.")
  else if event.eventType = "GITHUB_PULL_REQUEST_UPDATED" then
    (.activity, "Pull request state was updated.")
  else if event.eventType = "GITHUB_PR_HEAD_CHANGED" then
    (.activity, "Pull request head changed; prior GitHub status was invalidated.")
  else (.activity, "Task activity was recorded.")

def eventResponse (rt : Runtime) (str : Json → String) (event : TaskEvent) (evidenceCount : ℕ) :
    TaskEventResponse where
  id := event.id
  sequence := event.sequence
  kind := (eventSummary rt str event).1
  summary := (eventSummary rt str event).2
  occurredAt := event.occurredAt
  fromState := event.transitionFromState
  toState := event.transitionToState
  evidenceCount := evidenceCount

/-! ### One batch -/

/-- The rows that a batch reads: the store, the sessions, and the column `actor_id` of the
tasks. -/
structure TaskStreamStore where
  database : Database := {}
  sessions : Table AuthSession := .empty
  actorId : UUID → String := fun _ => ""

inductive TaskStreamError where
  | access
  | notFound
  | invalidCursor
  | invalidBatch
  deriving DecidableEq

/-- The session of a request is still live. -/
def TaskStreamStore.activeSession (store : TaskStreamStore)
    (authentication : AuthenticatedSession) (now : Time) : Bool :=
  store.sessions.rows.any fun session =>
    session.id = authentication.sessionId && session.userId = authentication.userId &&
      session.revokedAt = none && now < session.expiresAt && now < session.absoluteExpiresAt

def TaskStreamStore.taskExists (store : TaskStreamStore) (taskId : UUID) (ownerId : String) :
    Bool :=
  store.database.tasks.rows.any fun task =>
    task.id = taskId && task.ownerId = ownerId && store.actorId task.id ≠ bootstrapActor

def evidenceCount (db : Database) (eventId : UUID) : ℕ :=
  db.taskEventEvidenceReferences.countP fun reference => reference.taskEventId = eventId

/-- The order of the events of a task. -/
def eventOrder (a b : TaskEvent) : Prop :=
  a.sequence < b.sequence ∨ a.sequence = b.sequence ∧ a.id ≤ b.id

instance : DecidableRel eventOrder := fun _ _ => inferInstanceAs (Decidable (_ ∨ _ ∧ _))

/-- The task's events after a cursor, in order. -/
def eventRowsAfter (db : Database) (taskId : UUID) (ownerId : String) (afterSequence : ℕ) :
    List TaskEvent :=
  ((taskEventsOf db taskId).filter fun event =>
    event.ownerId = ownerId && afterSequence < event.sequence).insertionSort eventOrder

def eventsAfter (rt : Runtime) (str : Json → String) (now : Time) (store : TaskStreamStore)
    (taskId : UUID) (authentication : AuthenticatedSession) (afterSequence : ℕ)
    (limit : ℕ := taskEventStreamBatchSize) :
    Except TaskStreamError (List TaskEventResponse) := do
  Except.require (authentication.userId = localUserId) .access
  Except.require (afterSequence ≤ maxTaskEventSequence) .invalidCursor
  Except.require (1 ≤ limit ∧ limit ≤ taskEventStreamBatchSize) .invalidBatch
  Except.require (store.activeSession authentication now = true) .access
  Except.require (store.taskExists taskId localOwnerId = true) .notFound
  return ((eventRowsAfter store.database taskId localOwnerId afterSequence).take limit).map
    fun event => eventResponse rt str event (evidenceCount store.database event.id)

/-! ### Resuming -/

/-- The text of an event's identifier. -/
def eventIdText (sequence : ℕ) : List Char := Nat.toDigits 10 sequence

/-- The cursor of a `Last-Event-ID` header. -/
def lastEventSequence : Option (List Char) → Except TaskStreamError ℕ
  | none => .ok 0
  | some value => do
    Except.require (value ≠ [] ∧ value.all Char.isDigit ∧ value.length ≤ 19 ∧
      ¬ (1 < value.length ∧ value.head? = some '0')) .invalidCursor
    let sequence := Nat.ofDigitChars 10 value 0
    Except.require (sequence ≤ maxTaskEventSequence) .invalidCursor
    return sequence

/-- A number above zero has no leading zero. -/
theorem head?_toDigits {n : ℕ} (h : 0 < n) : (Nat.toDigits 10 n).head? ≠ some '0' := by
  induction n using Nat.strong_induction_on with
  | _ n ih =>
    by_cases hlt : n < 10
    · rw [Nat.toDigits_of_lt_base hlt]
      have hdigit : ∀ n < 10, 0 < n → [n.digitChar].head? ≠ some '0' := by decide
      exact hdigit n hlt h
    · rw [Nat.toDigits_of_base_le (by omega) (by omega), List.head?_append_of_ne_nil _ (by simp)]
      exact ih (n / 10) (by omega) (by omega)

/-- The identifier of an event is read back. -/
theorem lastEventSequence_eventIdText {sequence : ℕ} (h : sequence ≤ maxTaskEventSequence) :
    lastEventSequence (some (eventIdText sequence)) = .ok sequence := by
  have hdigits : (eventIdText sequence).all Char.isDigit = true := by
    rw [List.all_eq_true]
    exact fun c hc => Nat.isDigit_of_mem_toDigits (by omega) (by omega) hc
  have hlength : (eventIdText sequence).length ≤ 19 := by
    refine (Nat.length_toDigits_le_iff (by omega) (by omega)).mpr ?_
    simp only [maxTaskEventSequence] at h
    omega
  have hzero : ¬ (1 < (eventIdText sequence).length ∧
      (eventIdText sequence).head? = some '0') := by
    rintro ⟨hlong, hhead⟩
    refine head?_toDigits ?_ hhead
    by_contra hnot
    obtain rfl : sequence = 0 := by omega
    simp [eventIdText, Nat.toDigits_zero] at hlong
  have hvalue : Nat.ofDigitChars 10 (eventIdText sequence) 0 = sequence :=
    Nat.ofDigitChars_ten_toDigits
  simp only [lastEventSequence]
  rw [Except.require_of ⟨Nat.toDigits_ne_nil, hdigits, hlength, hzero⟩, Except.ok_bind, hvalue,
    Except.require_of h, Except.ok_bind]
  rfl

theorem lastEventSequence_le {value : Option (List Char)} {sequence : ℕ}
    (h : lastEventSequence value = .ok sequence) : sequence ≤ maxTaskEventSequence := by
  cases value with
  | none =>
    obtain rfl : 0 = sequence := Except.ok.inj h
    exact Nat.zero_le _
  | some value =>
    simp only [lastEventSequence, Except.bind_eq_ok, Except.require_eq_ok,
      Except.pure_eq_ok] at h
    obtain ⟨_, _, _, hle, rfl⟩ := h
    exact hle

/-! ### The generator -/

/-- What the generator yields. -/
inductive StreamChunk where
  | retry
  | keepAlive
  | taskEvent (event : TaskEventResponse)
  deriving DecidableEq

/-- Where the generator is: before it starts, at the head of its loop, in the loop over a
batch, waiting for the next batch, or returned. -/
inductive StreamPhase where
  | start
  | head
  | batch (rest : List TaskEventResponse)
  | poll
  | returned
  deriving DecidableEq

structure EventStream where
  cursor : ℕ
  pending : List TaskEventResponse
  phase : StreamPhase := .start
  deriving DecidableEq

namespace EventStream

/-- The generator up to its next suspension, and what it yields on the way: `connected` is the
answer about the connection, `beat` whether a heartbeat is due, `polled` the next batch. -/
def resume (s : EventStream) (connected beat : Bool)
    (polled : Except TaskStreamError (List TaskEventResponse)) :
    EventStream × List StreamChunk :=
  match s.phase with
  | .start => ({ s with phase := .head }, [.retry])
  | .head =>
    if connected = false then ({ s with phase := .returned }, [])
    else if s.pending ≠ [] then ({ s with phase := .batch s.pending }, [])
    else ({ s with phase := .poll }, if beat then [.keepAlive] else [])
  | .batch [] => ({ s with phase := .poll }, [])
  | .batch (event :: rest) =>
    if event.sequence ≤ s.cursor then ({ s with phase := .batch rest }, [])
    else ({ s with cursor := event.sequence, phase := .batch rest }, [.taskEvent event])
  | .poll =>
    match polled with
    | .ok events => ({ s with pending := events, phase := .head }, [])
    -- An error that is not caught ends the generator as well.
    | .error _ => ({ s with phase := .returned }, [])
  | .returned => (s, [])

end EventStream

end ControlPlane
