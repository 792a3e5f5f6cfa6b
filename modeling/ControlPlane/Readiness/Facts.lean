import ControlPlane.GitHub.Records

/-!
# The facts of a pull request

The projection of a task's history since its latest binding: the effective head, the state
of every required check, the reviews and threads that block, the draft state and the open
comments.

## Main definitions

* `projectionWindow`: from the latest binding or the latest head change after it.
* `githubFacts`
-/
namespace ControlPlane

/-- The facts derived from a task's events. -/
structure GitHubFacts where
  bindingEventId : Option UUID
  pullRequestNumber : Option ℤ
  branchName : Option String
  headSha : Option String
  requiredChecks : List String
  requiredCiGreen : Bool
  noBlockingReview : Bool
  pullRequestStateKnown : Bool
  currentPullRequestIsDraft : Bool
  openReviewEventIds : List UUID
  checkStates : List (String × String)
  blockingReviews : ℕ
  openThreads : ℕ

def emptyGitHubFacts : GitHubFacts :=
  ⟨none, none, none, none, [], false, false, false, false, [], [], 0, 0⟩

/-! ### The binding -/

/-- What a well-formed binding says. -/
structure BindingFacts where
  event : TaskEvent
  number : ℤ
  branch : String
  head : String
  requiredChecks : List String
  carriedReviews : List String
  carriedThreads : List String

/-- A list of texts that are not empty. -/
def textList : Json → Option (List String)
  | .arr items => (items.mapM Json.str?).filter fun texts => texts.all (· ≠ "")
  | _ => none

/-- The carried reviewers and threads of a binding. -/
def readCarryover (carryover : Json) : Option (List String × List String) :=
  if carryover.isNull then some ([], [])
  else if carryover.hasKeys ["changes_requested_review_ids", "open_review_thread_ids"] then do
    let reviews ← textList (carryover.get "changes_requested_review_ids")
    let threads ← textList (carryover.get "open_review_thread_ids")
    return (reviews, threads)
  else none

def readBinding (binding : TaskEvent) : Option BindingFacts := do
  let number ← (binding.payload.get "pull_request_number").int?
  let branch ← (binding.payload.get "task_branch").str?
  let head ← (binding.payload.get "head_sha").str?
  let checks ← textList (binding.payload.get "required_checks")
  let carried ← readCarryover (binding.payload.get "review_state_carryover")
  if 0 < number ∧ branch ≠ "" ∧ isSha head.toList ∧ checks ≠ [] ∧ checks.Nodup then
    some { event := binding, number, branch, head, requiredChecks := checks,
           carriedReviews := carried.1, carriedThreads := carried.2 }
  else none

/-! ### The projection window -/

/-- The part of a history the facts are projected from. -/
structure ProjectionWindow where
  binding : BindingFacts
  head : String
  start : ℕ

/-- From the latest binding, or from the latest head change after it. -/
def projectionWindow (events : List TaskEvent) : Option ProjectionWindow := do
  let event ← events.reverse.find? isBinding
  let binding ← readBinding event
  match events.reverse.find? (headChangeAfter event) with
  | none => some ⟨binding, binding.head, event.sequence⟩
  | some change =>
    match change.payload.get "head_sha" with
    | .str head => if isSha head.toList then some ⟨binding, head, change.sequence⟩ else none
    | _ => none

/-- An update of the bound pull request at the head of the window. -/
def ProjectionWindow.covers (w : ProjectionWindow) (e : TaskEvent) : Bool :=
  w.start ≤ e.sequence && isUpdateEvent e &&
  sameText (e.payload.get "head_sha") (.str w.head) &&
  sameInt (e.payload.get "pull_request_number") (.int w.binding.number) &&
  sameText (e.payload.get "task_branch") (.str w.binding.branch)

/-! ### The latest update of every resource -/

/-- The type and the identifier of a resource; the service writes texts for both. -/
abbrev ResourceKey := Option String × Option String

def resourceKey (e : TaskEvent) : ResourceKey :=
  ((e.payload.get "resource_type").str?, (e.payload.get "resource_id").str?)

def eventState (e : TaskEvent) : Option String := (e.payload.get "state").str?

def reviewKey (id : String) : ResourceKey := (some ResourceType.review.value, some id)
def threadKey (id : String) : ResourceKey := (some ResourceType.reviewThread.value, some id)

/-- A comment of a reviewer does not replace an earlier review. -/
def addLatest (latest : Dict ResourceKey TaskEvent) (e : TaskEvent) :
    Dict ResourceKey TaskEvent :=
  if (resourceKey e).1 = some ResourceType.review.value ∧ eventState e = some "COMMENTED" ∧
      (latest.get? (resourceKey e)).isSome then latest
  else latest.set (resourceKey e) e

def latestUpdates (events : List TaskEvent) : Dict ResourceKey TaskEvent :=
  events.foldl addLatest .empty

/-! ### Checks -/

/-- The time of an update at its source; a time in UTC never leaves the calendar. -/
def sourceTime (rt : Runtime) (e : TaskEvent) : ℕ :=
  match e.payload.get "source_updated_at" with
  | .str text =>
    match rt.fromIsoformat text with
    | .aware t => t.val
    | _ => 0
  | _ => 0

/-- Updated later at the source, or at the same time and recorded later. -/
def moreRecent (rt : Runtime) (a b : TaskEvent) : Bool :=
  sourceTime rt b < sourceTime rt a || (sourceTime rt a = sourceTime rt b &&
    (b.sequence < a.sequence || (a.sequence = b.sequence && b.id.str < a.id.str)))

/-- The most recent run of every check name. -/
def addCheck (rt : Runtime) (checks : Dict String TaskEvent) (entry : ResourceKey × TaskEvent) :
    Dict String TaskEvent :=
  match entry.1.1, entry.2.payload.get "resource_label" with
  | some "check_run", .str label =>
    if (checks.get? label).all (moreRecent rt entry.2) then checks.set label entry.2 else checks
  | _, _ => checks

def checkEvents (rt : Runtime) (latest : Dict ResourceKey TaskEvent) : Dict String TaskEvent :=
  latest.entries.foldl (addCheck rt) .empty

/-- The states of the required checks that have a run; a state is written as a text. -/
def checkStatesOf (required : List String) (checks : Dict String TaskEvent) :
    List (String × String) :=
  required.filterMap fun name =>
    (checks.get? name).map fun e => (name, (eventState e).getD "None")

def isGreen (state : String) : Bool := state = "PASSED" || state = "NEUTRAL"

/-! ### Reviews -/

/-- One more entry of the latest updates over the carried states. -/
def addReviewState (s : ReviewStates) (entry : ResourceKey × TaskEvent) : ReviewStates :=
  match entry.1.2, eventState entry.2 with
  | some resourceId, some state =>
    if entry.1.1 = some ResourceType.review.value then
      if state ≠ "COMMENTED" ∨ s.reviews.get? resourceId = none then
        { s with reviews := s.reviews.set resourceId state }
      else s
    else if entry.1.1 = some ResourceType.reviewThread.value then
      { s with threads := s.threads.set resourceId state }
    else s
  | _, _ => s

def carriedStates (b : BindingFacts) : ReviewStates where
  reviews := .ofList (b.carriedReviews.map fun id => (id, "CHANGES_REQUESTED"))
  threads := .ofList (b.carriedThreads.map fun id => (id, "OPEN"))

def reviewStatesOf (b : BindingFacts) (latest : Dict ResourceKey TaskEvent) : ReviewStates :=
  latest.entries.foldl addReviewState (carriedStates b)

/-! ### The facts -/

def windowFacts (rt : Runtime) (w : ProjectionWindow) (events : List TaskEvent) : GitHubFacts :=
  let latest := latestUpdates (events.filter w.covers)
  let checkStates := checkStatesOf w.binding.requiredChecks (checkEvents rt latest)
  let states := reviewStatesOf w.binding latest
  let blockingReviews := (states.reviews.keysWhere (· = "CHANGES_REQUESTED")).length
  let openThreads := (states.threads.keysWhere (· = "OPEN")).length
  let currentPr := latest.entries.find? fun entry =>
    entry.1.1 = some ResourceType.pullRequest.value
  { bindingEventId := some w.binding.event.id
    pullRequestNumber := some w.binding.number
    branchName := some w.binding.branch
    headSha := some w.head
    requiredChecks := w.binding.requiredChecks
    requiredCiGreen := checkStates.length = w.binding.requiredChecks.length &&
      checkStates.all fun c => isGreen c.2
    noBlockingReview := blockingReviews = 0 && openThreads = 0
    pullRequestStateKnown := currentPr.isSome
    currentPullRequestIsDraft := currentPr.any fun entry => eventState entry.2 = some "DRAFT"
    openReviewEventIds := (latest.entries.filter fun entry =>
      entry.1.1 = some ResourceType.reviewComment.value &&
      eventState entry.2 = some "OPEN").map fun entry => entry.2.id
    checkStates, blockingReviews, openThreads }

def githubFacts (rt : Runtime) (events : List TaskEvent) : GitHubFacts :=
  match projectionWindow events with
  | none => emptyGitHubFacts
  | some w => windowFacts rt w events

/-- The events an assessment looks at: from the latest binding on. -/
def assessedEvents (db : Database) (taskId : UUID) : List TaskEvent :=
  match latestBinding db taskId with
  | none => []
  | some binding => (taskEventsOf db taskId).filter fun e => binding.sequence ≤ e.sequence

/-! ### Reading a binding back -/

theorem textList_texts {values : List String} (h : ∀ s ∈ values, s ≠ "") :
    textList (texts values) = some values := by
  have hmap : (values.map Json.str).mapM Json.str? = some values := by
    induction values with
    | nil => rfl
    | cons s values ih =>
      rw [List.map_cons, List.mapM_cons, ih fun t ht => h t (List.mem_cons_of_mem s ht)]
      rfl
  simp only [textList, texts, hmap]
  rw [Option.filter_some, if_pos]
  simpa using h

theorem readCarryover_carryoverJson {reviews threads : List String}
    (hreviews : ∀ s ∈ reviews, s ≠ "") (hthreads : ∀ s ∈ threads, s ≠ "") :
    readCarryover ((carryoverJson reviews threads).getD .null) = some (reviews, threads) := by
  by_cases hnone : reviews = [] ∧ threads = []
  · obtain ⟨rfl, rfl⟩ := hnone
    rfl
  · have hjson : (carryoverJson reviews threads).getD .null = .obj
        [("changes_requested_review_ids", texts reviews),
          ("open_review_thread_ids", texts threads)] := by
      simp [carryoverJson, hnone]
    have hkeys : (Json.obj [("changes_requested_review_ids", texts reviews),
        ("open_review_thread_ids", texts threads)]).hasKeys
        ["changes_requested_review_ids", "open_review_thread_ids"] = true := rfl
    have hget₁ : (Json.obj [("changes_requested_review_ids", texts reviews),
        ("open_review_thread_ids", texts threads)]).get "changes_requested_review_ids" =
        texts reviews := rfl
    have hget₂ : (Json.obj [("changes_requested_review_ids", texts reviews),
        ("open_review_thread_ids", texts threads)]).get "open_review_thread_ids" =
        texts threads := rfl
    rw [hjson]
    simp only [readCarryover, Json.isNull, hkeys, hget₁, hget₂, textList_texts hreviews,
      textList_texts hthreads, Bool.false_eq_true, if_false, if_true]
    rfl

/-- A binding that was written is read back. -/
theorem readBinding_eq {cfg : GitHubAppConfiguration} {u : Unicode} {b : PullRequestBinding}
    {reviews threads : List String} {e : TaskEvent} (hb : b.WellFormed cfg u)
    (hreviews : ∀ s ∈ reviews, s ≠ "") (hthreads : ∀ s ∈ threads, s ≠ "")
    (he : e.payload = bindingPayload cfg b (carryoverJson reviews threads)) :
    readBinding e = some
      { event := e, number := b.pullRequestNumber, branch := b.taskBranch, head := b.headSha,
        requiredChecks := b.requiredChecks, carriedReviews := reviews,
        carriedThreads := threads } := by
  have hbranch : b.taskBranch ≠ "" := by
    intro hempty
    exact hb.branch.ne_nil (by rw [hempty]; rfl)
  simp only [readBinding, he, bindingPayload_number, bindingPayload_branch,
    bindingPayload_headSha, bindingPayload_checks, bindingPayload_carryover, Json.int?,
    Json.str?, textList_texts hb.check_ne, readCarryover_carryoverJson hreviews hthreads,
    Option.bind_eq_bind, Option.bind_some]
  rw [if_pos ⟨hb.number_pos, hbranch, hb.headSha, hb.checks_ne, hb.checks_nodup⟩]

end ControlPlane
