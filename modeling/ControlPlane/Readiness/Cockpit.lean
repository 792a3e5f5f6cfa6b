import ControlPlane.Readiness.Reviews

/-!
# The pull request in the cockpit

The cockpit of a task projects its history on its own: it takes the last update of every
resource since the latest binding or head change, as readiness does, but neither keeps a
verdict over a later comment nor reads what a binding carries over, and of several runs of
one check it shows the one that was first reported last.

## Main results

* `samePullRequest_iff`: when the cockpit and readiness see the same pull request.
-/
namespace ControlPlane

inductive CiStatus where
  | notLinked | notRun | pending | passed | failed
  deriving DecidableEq, Repr

inductive ReviewStatus where
  | notLinked | notReviewed | commented | approved | changesRequested
  deriving DecidableEq, Repr

structure TaskGitHubStatus where
  linked : Bool
  pullRequestNumber : Option ℤ := none
  taskBranch : Option String := none
  headSha : Option String := none
  ciStatus : CiStatus
  reviewStatus : ReviewStatus
  checksTotal : ℕ
  checksPassed : ℕ
  blockingReviews : ℕ
  reviewComments : ℕ
  lastUpdatedAt : Option Time := none

def unlinkedGitHubStatus : TaskGitHubStatus where
  linked := false
  ciStatus := .notLinked
  reviewStatus := .notLinked
  checksTotal := 0
  checksPassed := 0
  blockingReviews := 0
  reviewComments := 0

/-! ### The window -/

/-- What the cockpit reads of a binding, and where its projection starts. -/
structure StatusWindow where
  number : ℤ
  branch : String
  head : String
  requiredChecks : List String
  start : ℕ

/-- What the cockpit reads of a binding. -/
def linkedWindow (binding : TaskEvent) : Option StatusWindow := do
  let head ← (binding.payload.get "head_sha").str?
  let number ← (binding.payload.get "pull_request_number").int?
  let branch ← (binding.payload.get "task_branch").str?
  let checks ← textList (binding.payload.get "required_checks")
  if isSha head.toList ∧ 0 < number ∧ branch ≠ "" ∧ checks ≠ [] ∧ checks.Nodup then
    some ⟨number, branch, head, checks, binding.sequence⟩
  else none

/-- The window moved to a head change; any text is taken for a head. -/
def StatusWindow.moveTo (w : StatusWindow) (change : Option TaskEvent) : StatusWindow :=
  match change with
  | none => w
  | some change =>
    match change.payload.get "head_sha" with
    | .str head => { w with head, start := change.sequence }
    | _ => w

def StatusWindow.covers (w : StatusWindow) (e : TaskEvent) : Bool :=
  w.start ≤ e.sequence && isUpdateEvent e &&
  sameText (e.payload.get "head_sha") (.str w.head) &&
  sameInt (e.payload.get "pull_request_number") (.int w.number) &&
  sameText (e.payload.get "task_branch") (.str w.branch)

/-! ### The status -/

/-- The last update of every resource. -/
def lastUpdates (events : List TaskEvent) : Dict ResourceKey TaskEvent :=
  events.foldl (fun latest e => latest.set (resourceKey e) e) .empty

/-- The run of a check that comes last among the latest updates is shown under its name. -/
def addNamedCheck (checks : Dict String TaskEvent) (entry : ResourceKey × TaskEvent) :
    Dict String TaskEvent :=
  match entry.1.1, entry.2.payload.get "resource_label" with
  | some "check_run", .str label => checks.set label entry.2
  | _, _ => checks

def namedChecks (latest : Dict ResourceKey TaskEvent) : Dict String TaskEvent :=
  latest.entries.foldl addNamedCheck .empty

/-- The state of an update, as a text. -/
def stateText (e : TaskEvent) : String := (eventState e).getD "None"

def isRed (state : String) : Bool := state = "FAILED" || state = "CANCELLED"

def isRunning (state : String) : Bool := state = "QUEUED" || state = "IN_PROGRESS"

def ciStatusOf (required states : List String) : CiStatus :=
  if states = [] then .notRun
  else if states.any isRed then .failed
  else if states.length < required.length || states.any isRunning then .pending
  else .passed

/-- The latest updates of the resources of one type. -/
def updatesOfType (latest : Dict ResourceKey TaskEvent) (type : ResourceType) : List TaskEvent :=
  (latest.entries.filter fun entry => entry.1.1 = some type.value).map Prod.snd

def reviewStatusOf (states : List String) (commented : Bool) : ReviewStatus :=
  if "CHANGES_REQUESTED" ∈ states then .changesRequested
  else if "APPROVED" ∈ states then .approved
  else if commented then .commented
  else .notReviewed

/-- The time of an update at its source, if it can be read; the service writes aware ones. -/
def readableTime (rt : Runtime) (e : TaskEvent) : Option Time :=
  match e.payload.get "source_updated_at" with
  | .str text =>
    match rt.fromIsoformat text with
    | .aware t => some t.val
    | _ => none
  | _ => none

def StatusWindow.status (rt : Runtime) (w : StatusWindow) (events : List TaskEvent) :
    TaskGitHubStatus :=
  let latest := lastUpdates (events.filter w.covers)
  let named := namedChecks latest
  let checkStates := (w.requiredChecks.filterMap named.get?).map stateText
  let reviewStates := (updatesOfType latest .review).map stateText
  let openComments :=
    (updatesOfType latest .reviewThread).countP fun e => eventState e = some "OPEN"
  { linked := true
    pullRequestNumber := some w.number
    taskBranch := some w.branch
    headSha := some w.head
    ciStatus := ciStatusOf w.requiredChecks checkStates
    reviewStatus := reviewStatusOf reviewStates <|
      reviewStates ≠ [] || updatesOfType latest .reviewComment ≠ [] || 0 < openComments
    checksTotal := w.requiredChecks.length
    checksPassed := checkStates.countP isGreen
    blockingReviews := reviewStates.countP (· = "CHANGES_REQUESTED")
    reviewComments := openComments
    lastUpdatedAt := latestBy id (latest.entries.filterMap fun entry => readableTime rt entry.2) }

def githubStatus (rt : Runtime) (events : List TaskEvent) : TaskGitHubStatus :=
  match events.reverse.find? isBinding with
  | none => unlinkedGitHubStatus
  | some binding =>
    match linkedWindow binding with
    | none => unlinkedGitHubStatus
    | some w => (w.moveTo (events.reverse.find? (headChangeAfter binding))).status rt events

/-! ### The history of a resource -/

/-- The last update of a resource. -/
def newestUpdate (events : List TaskEvent) (key : ResourceKey) : Option TaskEvent :=
  (events.filter fun e => resourceKey e = key).getLast?

/-- The state of a resource at its last update. -/
def lastState (events : List TaskEvent) (key : ResourceKey) : Option String :=
  (newestUpdate events key).bind eventState

/-- The last update of a run, if it is one of a check of the name. -/
def runNamed (name : String) (entry : ResourceKey × TaskEvent) : Option TaskEvent :=
  if entry.1.1 = some "check_run" ∧ (entry.2.payload.get "resource_label").str? = some name then
    some entry.2
  else none

/-- The runs of a check, each at its last update, in the order of their first reports. -/
def checkRuns (events : List TaskEvent) (name : String) : List TaskEvent :=
  (lastUpdates events).entries.filterMap (runNamed name)

/-- The run that was first reported last. -/
def shownRun (events : List TaskEvent) (name : String) : Option TaskEvent :=
  (checkRuns events name).getLast?

/-- The run that was updated last at its source. -/
def recentRun (rt : Runtime) (events : List TaskEvent) (name : String) : Option TaskEvent :=
  (checkRuns events name).foldl
    (fun best e => if best.all (moreRecent rt e) then some e else best) none

section Fold
variable {rt : Runtime} {events : List TaskEvent}

theorem get?_foldl_lastUpdates (d : Dict ResourceKey TaskEvent) (key : ResourceKey) :
    (events.foldl (fun latest e => latest.set (resourceKey e) e) d).get? key =
      (newestUpdate events key).or (d.get? key) := by
  induction events generalizing d with
  | nil => rfl
  | cons e events ih =>
    rw [List.foldl_cons, ih, Dict.get?_set, newestUpdate, newestUpdate]
    by_cases h : resourceKey e = key
    · rw [List.filter_cons_of_pos (by simpa using h), List.getLast?_cons, if_pos h.symm]
      cases (events.filter fun e => resourceKey e = key).getLast? <;> rfl
    · rw [List.filter_cons_of_neg (by simpa using h), if_neg fun heq => h heq.symm]

theorem get?_lastUpdates (key : ResourceKey) :
    (lastUpdates events).get? key = newestUpdate events key := by
  rw [lastUpdates, get?_foldl_lastUpdates, Dict.get?_empty, Option.or_none]

theorem newestUpdate_mem {key : ResourceKey} {e : TaskEvent}
    (h : newestUpdate events key = some e) :
    e ∈ events ∧ resourceKey e = key := by
  have hmem := List.mem_filter.mp (List.mem_of_getLast? h)
  exact ⟨hmem.1, by simpa using hmem.2⟩

theorem addNamedCheck_get? (checks : Dict String TaskEvent) (entry : ResourceKey × TaskEvent)
    (name : String) :
    (addNamedCheck checks entry).get? name = (runNamed name entry).or (checks.get? name) := by
  unfold addNamedCheck
  split
  · rename_i label hkind hlabel
    rw [Dict.get?_set]
    by_cases h : name = label
    · simp [runNamed, hkind, hlabel, Json.str?, h]
    · simp [runNamed, hkind, hlabel, Json.str?, h, Ne.symm h]
  · rename_i hother
    have hnone : runNamed name entry = none := by
      refine if_neg ?_
      rintro ⟨hkind, hlabel⟩
      exact hother name hkind (Json.str?_eq_some.mp hlabel)
    rw [hnone, Option.none_or]

theorem get?_foldl_addNamedCheck (entries : List (ResourceKey × TaskEvent))
    (checks : Dict String TaskEvent) (name : String) :
    (entries.foldl addNamedCheck checks).get? name =
      (entries.filterMap (runNamed name)).getLast?.or (checks.get? name) := by
  induction entries generalizing checks with
  | nil => rfl
  | cons entry entries ih =>
    rw [List.foldl_cons, ih, addNamedCheck_get?, List.filterMap_cons]
    cases runNamed name entry with
    | none => rfl
    | some e =>
      rw [List.getLast?_cons]
      cases (entries.filterMap (runNamed name)).getLast? <;> rfl

theorem get?_namedChecks (name : String) :
    (namedChecks (lastUpdates events)).get? name = shownRun events name := by
  rw [namedChecks, get?_foldl_addNamedCheck, Dict.get?_empty, Option.or_none]
  rfl

/-- The run readiness takes for a name among two. -/
def pickRecent (rt : Runtime) (best : Option TaskEvent) (e : TaskEvent) : Option TaskEvent :=
  if best.all (moreRecent rt e) then some e else best

theorem addCheck_get? (checks : Dict String TaskEvent) (entry : ResourceKey × TaskEvent)
    (name : String) :
    (addCheck rt checks entry).get? name =
      ((runNamed name entry).toList.foldl (pickRecent rt) (checks.get? name)) := by
  unfold addCheck
  split
  · rename_i label hkind hlabel
    by_cases h : name = label
    · subst h
      have hrun : runNamed name entry = some entry.2 := by simp [runNamed, hkind, hlabel, Json.str?]
      rw [hrun, Option.toList_some, List.foldl_cons, List.foldl_nil, pickRecent]
      split
      · rw [Dict.get?_set, if_pos rfl]
      · rfl
    · have hrun : runNamed name entry = none := by
        simp [runNamed, hkind, hlabel, Json.str?, Ne.symm h]
      rw [hrun, Option.toList_none, List.foldl_nil]
      split
      · rw [Dict.get?_set, if_neg h]
      · rfl
  · rename_i hother
    have hnone : runNamed name entry = none := by
      refine if_neg ?_
      rintro ⟨hkind, hlabel⟩
      exact hother name hkind (Json.str?_eq_some.mp hlabel)
    rw [hnone, Option.toList_none, List.foldl_nil]

theorem get?_foldl_addCheck (entries : List (ResourceKey × TaskEvent))
    (checks : Dict String TaskEvent) (name : String) :
    (entries.foldl (addCheck rt) checks).get? name =
      (entries.filterMap (runNamed name)).foldl (pickRecent rt) (checks.get? name) := by
  induction entries generalizing checks with
  | nil => rfl
  | cons entry entries ih =>
    rw [List.foldl_cons, ih, addCheck_get?, List.filterMap_cons]
    cases runNamed name entry <;> rfl

/-! ### The two dictionaries of latest updates -/

/-- The same keys in the same order, with the same updates but for reviews. -/
def SameButReviews (d d' : Dict ResourceKey TaskEvent) : Prop :=
  List.Forall₂ (fun a b : ResourceKey × TaskEvent =>
    a.1 = b.1 ∧ (a.1.1 ≠ some ResourceType.review.value → a.2 = b.2)) d.entries d'.entries

theorem SameButReviews.keys {d d' : Dict ResourceKey TaskEvent} (h : SameButReviews d d') :
    d.entries.map Prod.fst = d'.entries.map Prod.fst := by
  unfold SameButReviews at h
  generalize d.entries = entries at h ⊢
  generalize d'.entries = entries' at h ⊢
  induction h with
  | nil => rfl
  | cons hab _ ih => rw [List.map_cons, List.map_cons, hab.1, ih]

theorem SameButReviews.set {d d' : Dict ResourceKey TaskEvent} (h : SameButReviews d d')
    (key : ResourceKey) (e : TaskEvent) : SameButReviews (d.set key e) (d'.set key e) := by
  unfold SameButReviews Dict.set
  by_cases hkey : key ∈ d.entries.map Prod.fst
  · have hkey' : key ∈ d'.entries.map Prod.fst := h.keys ▸ hkey
    rw [dif_pos hkey, dif_pos hkey']
    refine List.forall₂_map_left_iff.mpr (List.forall₂_map_right_iff.mpr ?_)
    refine List.Forall₂.imp ?_ h
    rintro a b ⟨hab, hsame⟩
    by_cases ha : a.1 = key
    · simp [ha, hab ▸ ha]
    · have hb : ¬ b.1 = key := hab ▸ ha
      simp only [ha, hb, if_false]
      exact ⟨hab, hsame⟩
  · have hkey' : key ∉ d'.entries.map Prod.fst := h.keys ▸ hkey
    rw [dif_neg hkey, dif_neg hkey']
    exact List.rel_append h (.cons ⟨rfl, fun _ => rfl⟩ .nil)

/-- A comment that readiness passes over replaces a review here. -/
theorem SameButReviews.set_right {d d' : Dict ResourceKey TaskEvent} (h : SameButReviews d d')
    {key : ResourceKey} (e : TaskEvent) (hkind : key.1 = some ResourceType.review.value)
    (hkey : key ∈ d.entries.map Prod.fst) : SameButReviews d (d'.set key e) := by
  have hkey' : key ∈ d'.entries.map Prod.fst := h.keys ▸ hkey
  unfold SameButReviews Dict.set
  rw [dif_pos hkey']
  refine List.forall₂_map_right_iff.mpr ?_
  refine List.Forall₂.imp ?_ h
  rintro a b ⟨hab, hsame⟩
  by_cases hb : b.1 = key
  · rw [if_pos hb]
    refine ⟨hab.trans hb, ?_⟩
    intro hne
    exact absurd (by rw [hab, hb, hkind]) hne
  · rw [if_neg hb]
    exact ⟨hab, hsame⟩

theorem sameButReviews_foldl {d d' : Dict ResourceKey TaskEvent} (h : SameButReviews d d') :
    SameButReviews (events.foldl addLatest d)
      (events.foldl (fun latest e => latest.set (resourceKey e) e) d') := by
  induction events generalizing d d' with
  | nil => exact h
  | cons e events ih =>
    rw [List.foldl_cons, List.foldl_cons]
    refine ih ?_
    unfold addLatest
    split
    · rename_i hcomment
      refine h.set_right e hcomment.1 ?_
      by_contra hkey
      rw [Dict.get?_eq_none.mpr hkey] at hcomment
      cases hcomment.2.2
    · exact h.set (resourceKey e) e

theorem SameButReviews.runs {d d' : Dict ResourceKey TaskEvent} (h : SameButReviews d d')
    (name : String) :
    d.entries.filterMap (runNamed name) = d'.entries.filterMap (runNamed name) := by
  unfold SameButReviews at h
  generalize d.entries = entries at h ⊢
  generalize d'.entries = entries' at h ⊢
  induction h with
  | nil => rfl
  | @cons a b _ _ hab _ ih =>
    have hrun : runNamed name a = runNamed name b := by
      by_cases hkind : a.1.1 = some "check_run"
      · have hne : a.1.1 ≠ some ResourceType.review.value := by
          rw [hkind]
          decide
        rw [show a = b from Prod.ext hab.1 (hab.2 hne)]
      · have hkind' : ¬ b.1.1 = some "check_run" := hab.1 ▸ hkind
        simp [runNamed, hkind, hkind']
    rw [List.filterMap_cons, List.filterMap_cons, hrun, ih]

theorem get?_checkEvents (name : String) :
    (checkEvents rt (latestUpdates events)).get? name = recentRun rt events name := by
  have hsame : SameButReviews (latestUpdates events) (lastUpdates events) :=
    sameButReviews_foldl .nil
  rw [checkEvents, get?_foldl_addCheck, Dict.get?_empty, hsame.runs]
  rfl

end Fold

/-! ### Counting states -/

section Count
variable {events : List TaskEvent} {state : String}

theorem countP_stateText (updates : List TaskEvent) (h : state ≠ "None") :
    (updates.map stateText).countP (· = state) =
      updates.countP fun e => eventState e = some state := by
  rw [List.countP_map]
  refine List.countP_congr fun e _ => ?_
  cases hstate : eventState e with
  | none => simp [stateText, hstate, Ne.symm h]
  | some s => simp [stateText, hstate]

/-- A list without repetitions has as many entries as one it is part of just when it is all
of it. -/
theorem length_eq_iff_subset {α : Type*} {l m : List α} (hl : l.Nodup) (hm : m.Nodup)
    (h : l ⊆ m) : l.length = m.length ↔ m ⊆ l := by
  constructor
  · intro hlength
    exact ((List.subperm_of_subset hl h).perm_of_length_le hlength.ge).symm.subset
  · intro hback
    exact ((List.perm_ext_iff_of_nodup hl hm).mpr fun a => ⟨@h a, @hback a⟩).length_eq

/-- As many resources of a type are in a state at their last update as a dictionary holds
just when all the dictionary holds are. -/
theorem countP_updatesOfType_iff {type : ResourceType} {d : Dict String String}
    (hids : ∀ e ∈ events, (resourceKey e).2.isSome)
    (hshown : ∀ id, lastState events (some type.value, some id) = some state →
      d.get? id = some state) :
    (updatesOfType (lastUpdates events) type).countP (fun e => eventState e = some state) =
        (d.keysWhere (· = state)).length ↔
      ∀ id, d.get? id = some state →
        lastState events (some type.value, some id) = some state := by
  -- The resources shown in the state, by their keys.
  have hkeys : (updatesOfType (lastUpdates events) type).countP
      (fun e => eventState e = some state) =
      (((lastUpdates events).entries.filter fun entry =>
        eventState entry.2 = some state && entry.1.1 = some type.value).map Prod.fst).length := by
    rw [updatesOfType, List.countP_map, List.countP_eq_length_filter, List.filter_filter,
      List.length_map]
    rfl
  have hmem : ∀ key, key ∈ ((lastUpdates events).entries.filter fun entry =>
      eventState entry.2 = some state && entry.1.1 = some type.value).map Prod.fst ↔
      key.1 = some type.value ∧ lastState events key = some state := by
    intro key
    simp only [List.mem_map, List.mem_filter, Bool.and_eq_true, decide_eq_true_eq]
    constructor
    · rintro ⟨entry, ⟨hentry, hstate, hkind⟩, rfl⟩
      have hget : (lastUpdates events).get? entry.1 = newestUpdate events entry.1 :=
        get?_lastUpdates entry.1
      rw [Dict.get?_eq_some.mpr hentry] at hget
      exact ⟨hkind, by rw [lastState, ← hget, Option.bind_some, hstate]⟩
    · rintro ⟨hkind, hstate⟩
      obtain ⟨e, hlast, hstate⟩ := Option.bind_eq_some_iff.mp hstate
      exact ⟨(key, e), ⟨Dict.get?_eq_some.mp ((get?_lastUpdates key).trans hlast), hstate, hkind⟩,
        rfl⟩
  have hinjective : Function.Injective
      fun id : String => ((some type.value, some id) : ResourceKey) :=
    fun a b h => Option.some.inj (congrArg Prod.snd h)
  have hlength : (d.keysWhere (· = state)).length =
      ((d.keysWhere (· = state)).map fun id => ((some type.value, some id) : ResourceKey)).length :=
    (List.length_map _).symm
  rw [hkeys, hlength, length_eq_iff_subset]
  · constructor
    · intro hsub id hid
      have hkey : (some type.value, some id) ∈
          (d.keysWhere (· = state)).map fun id => ((some type.value, some id) : ResourceKey) :=
        List.mem_map.mpr ⟨id, Dict.mem_keysWhere.mpr ⟨state, hid, by simp⟩, rfl⟩
      exact ((hmem _).mp (hsub hkey)).2
    · intro hall key hkey
      obtain ⟨id, hid, rfl⟩ := List.mem_map.mp hkey
      obtain ⟨s, hget, hs⟩ := Dict.mem_keysWhere.mp hid
      obtain rfl : s = state := by simpa using hs
      exact (hmem _).mpr ⟨rfl, hall id hget⟩
  · exact (List.filter_sublist.map Prod.fst).nodup (lastUpdates events).nodup
  · exact (d.nodup_keysWhere _).map hinjective
  · intro key hkey
    obtain ⟨hkind, hstate⟩ := (hmem key).mp hkey
    obtain ⟨e, hlast, -⟩ := Option.bind_eq_some_iff.mp hstate
    obtain ⟨he, rfl⟩ := newestUpdate_mem hlast
    obtain ⟨id, hid⟩ := Option.isSome_iff_exists.mp (hids e he)
    have hkey : resourceKey e = (some type.value, some id) := Prod.ext hkind hid
    rw [hkey] at hstate ⊢
    exact List.mem_map.mpr ⟨id, Dict.mem_keysWhere.mpr ⟨state, hshown id hstate, by simp⟩, rfl⟩

end Count

/-! ### What the cockpit hides -/

section Hidden
variable {events : List TaskEvent} {b : BindingFacts}

/-- A query that answers on the updates of one resource alone answers with the last one. -/
theorem getLast?_filterMap_of_lastState {f : TaskEvent → Option String} {key : ResourceKey}
    {state : String} (hf : ∀ e, resourceKey e ≠ key → f e = none)
    (hstate : ∀ e, resourceKey e = key → eventState e = some state → f e = some state)
    (h : lastState events key = some state) : (events.filterMap f).getLast? = some state := by
  obtain ⟨e, hlast, he⟩ := Option.bind_eq_some_iff.mp h
  have hkey := (newestUpdate_mem hlast).2
  have hfilter : events.filterMap f =
      (events.filter fun e => resourceKey e = key).filterMap f := by
    rw [List.filterMap_filter]
    refine List.filterMap_congr fun a _ => ?_
    by_cases ha : resourceKey a = key
    · simp [ha]
    · simp [ha, hf a ha]
  obtain ⟨before, hbefore⟩ := List.getLast?_eq_some_iff.mp hlast
  rw [hfilter, hbefore, List.filterMap_append]
  simp [hstate e hkey he]

theorem currentVerdict_of_lastState {id : String}
    (h : lastState events (reviewKey id) = some "CHANGES_REQUESTED") :
    currentVerdict b events id = some "CHANGES_REQUESTED" := by
  have hverdict : verdict events id = some "CHANGES_REQUESTED" := by
    refine getLast?_filterMap_of_lastState ?_ ?_ h
    · intro e hne
      simp [ResourceState.verdict, resourceState, hne]
    · intro e hkey hstate
      simp [ResourceState.verdict, resourceState, hkey, hstate]
  rw [currentVerdict, hverdict]
  rfl

theorem currentThread_of_lastState {id : String}
    (h : lastState events (threadKey id) = some "OPEN") :
    currentThread b events id = some "OPEN" := by
  have hthread : threadState events id = some "OPEN" := by
    refine getLast?_filterMap_of_lastState ?_ ?_ h
    · intro e hne
      simp [ResourceState.threadState, resourceState, hne]
    · intro e hkey hstate
      simp [ResourceState.threadState, resourceState, hkey, hstate]
  rw [currentThread, hthread]
  rfl

end Hidden

/-! ### Required checks -/

section Checks
variable {rt : Runtime} {events : List TaskEvent} {required : List String}
  {run : String → Option TaskEvent}

theorem length_runs : (required.filterMap run).length = required.length ↔
    ∀ name ∈ required, (run name).isSome := List.filterMap_length_eq_length

/-- A run shown counts as passed unless it failed or goes on. -/
def shownPassed (e : TaskEvent) : Bool := !isRed (stateText e) && !isRunning (stateText e)

theorem ciStatusOf_eq_passed (hne : required ≠ []) :
    ciStatusOf required ((required.filterMap run).map stateText) = .passed ↔
      ∀ name ∈ required, ∃ e, run name = some e ∧ shownPassed e = true := by
  have hle := List.length_filterMap_le run required
  constructor
  · intro h
    unfold ciStatusOf at h
    split at h
    · cases h
    · split at h
      · cases h
      · rename_i hred
        split at h
        · cases h
        · rename_i hrunning
          simp only [List.length_map, Bool.or_eq_true, decide_eq_true_eq, not_or] at hrunning
          have hall := length_runs.mp (le_antisymm hle (not_lt.mp hrunning.1))
          intro name hname
          obtain ⟨e, he⟩ := Option.isSome_iff_exists.mp (hall name hname)
          have hmem : stateText e ∈ (required.filterMap run).map stateText :=
            List.mem_map_of_mem (List.mem_filterMap.mpr ⟨name, hname, he⟩)
          simp only [List.any_eq_true, not_exists, not_and] at hred hrunning
          refine ⟨e, he, ?_⟩
          simp [shownPassed, hred _ hmem, hrunning.2 _ hmem]
  · intro h
    have hall : (required.filterMap run).length = required.length := by
      refine length_runs.mpr fun name hname => ?_
      obtain ⟨e, he, -⟩ := h name hname
      rw [he]
      rfl
    have hpassed : ∀ e ∈ required.filterMap run, shownPassed e = true := by
      intro e he
      obtain ⟨name, hname, hrun⟩ := List.mem_filterMap.mp he
      obtain ⟨e', he', hpassed⟩ := h name hname
      obtain rfl : e' = e := Option.some.inj (he'.symm.trans hrun)
      exact hpassed
    simp only [shownPassed, Bool.and_eq_true, Bool.not_eq_true'] at hpassed
    have hstates : (required.filterMap run).map stateText ≠ [] := by
      intro hnil
      have hlength := congrArg List.length hnil
      rw [List.length_map, hall] at hlength
      exact hne (List.length_eq_zero_iff.mp hlength)
    have hred : ((required.filterMap run).map stateText).any isRed = false := by
      simp only [List.any_eq_false, List.mem_map]
      rintro _ ⟨e, he, rfl⟩
      simp [(hpassed e he).1]
    have hrunning : ((required.filterMap run).map stateText).any isRunning = false := by
      simp only [List.any_eq_false, List.mem_map]
      rintro _ ⟨e, he, rfl⟩
      simp [(hpassed e he).2]
    unfold ciStatusOf
    simp [hstates, hred, hrunning, hall]

theorem checkStatesOf_green (required : List String) (checks : Dict String TaskEvent) :
    ((checkStatesOf required checks).length = required.length ∧
        ((checkStatesOf required checks).all fun c => isGreen c.2) = true) ↔
      ∀ name ∈ required, ∃ e, checks.get? name = some e ∧ isGreen (stateText e) = true := by
  rw [checkStatesOf, List.filterMap_length_eq_length, List.all_eq_true]
  constructor
  · rintro ⟨hall, hgreen⟩ name hname
    have hsome := hall name hname
    rw [Option.isSome_map] at hsome
    obtain ⟨e, he⟩ := Option.isSome_iff_exists.mp hsome
    refine ⟨e, he, ?_⟩
    exact hgreen (name, stateText e) (List.mem_filterMap.mpr ⟨name, hname, by rw [he]; rfl⟩)
  · intro h
    constructor
    · intro name hname
      obtain ⟨e, he, -⟩ := h name hname
      rw [he]
      rfl
    · intro c hc
      obtain ⟨name, hname, hc⟩ := List.mem_filterMap.mp hc
      obtain ⟨e, he, hgreen⟩ := h name hname
      rw [he, Option.map_some, Option.some.injEq] at hc
      exact hc ▸ hgreen

end Checks

/-! ### The same pull request -/

/-- The cockpit and readiness see the same pull request. -/
structure SamePullRequest (status : TaskGitHubStatus) (facts : GitHubFacts) : Prop where
  head : status.headSha = facts.headSha
  ci : status.ciStatus = .passed ↔ facts.requiredCiGreen = true
  reviews : status.blockingReviews = facts.blockingReviews
  threads : status.reviewComments = facts.openThreads

/-- The head a history has come to since its binding, and where the updates at it start. -/
inductive HeadAt (events : List TaskEvent) (binding : TaskEvent) (b : BindingFacts) :
    String → ℕ → Prop
  | bound (h : events.reverse.find? (headChangeAfter binding) = none) :
    HeadAt events binding b b.head binding.sequence
  | changed (change : TaskEvent) (head : String)
      (h : events.reverse.find? (headChangeAfter binding) = some change)
      (hhead : change.payload.get "head_sha" = .str head) (hsha : isSha head.toList = true) :
    HeadAt events binding b head change.sequence

/-- No comment of a reviewer is later than the reviewer's request for changes, and none was
carried over without a later review. -/
def ReviewsShown (b : BindingFacts) (updates : List TaskEvent) : Prop :=
  ∀ id, currentVerdict b updates id = some "CHANGES_REQUESTED" →
    lastState updates (reviewKey id) = some "CHANGES_REQUESTED"

/-- No open thread was carried over without a later update. -/
def ThreadsShown (b : BindingFacts) (updates : List TaskEvent) : Prop :=
  ∀ id, currentThread b updates id = some "OPEN" →
    lastState updates (threadKey id) = some "OPEN"

/-- Of every required check the run first reported last passed just when of every required
check the run updated last did. -/
def ChecksShown (rt : Runtime) (b : BindingFacts) (updates : List TaskEvent) : Prop :=
  (∀ name ∈ b.requiredChecks, ∃ e, shownRun updates name = some e ∧ shownPassed e = true) ↔
    ∀ name ∈ b.requiredChecks, ∃ e, recentRun rt updates name = some e ∧
      isGreen (stateText e) = true

/-- Resources and their states are texts in every update. -/
def TextUpdates (events : List TaskEvent) : Prop :=
  ∀ e ∈ events, isUpdateEvent e = true → (resourceKey e).2.isSome ∧ (eventState e).isSome

section Same
variable {rt : Runtime} {events : List TaskEvent} {binding : TaskEvent} {b : BindingFacts}

theorem linkedWindow_of_readBinding (h : readBinding binding = some b) :
    linkedWindow binding = some ⟨b.number, b.branch, b.head, b.requiredChecks, binding.sequence⟩ ∧
      b.event = binding ∧ b.requiredChecks ≠ [] := by
  simp only [readBinding, Option.bind_eq_bind, Option.bind_eq_some_iff,
    Option.ite_none_right_eq_some, Option.some.injEq] at h
  obtain ⟨number, hnumber, branch, hbranch, head, hhead, checks, hchecks, carried, -,
    ⟨hpos, hne, hsha, hsome, hnodup⟩, rfl⟩ := h
  refine ⟨?_, rfl, hsome⟩
  simp [linkedWindow, hnumber, hbranch, hhead, hchecks, hpos, hne, hsha, hsome, hnodup]

/-- At one head the cockpit and readiness agree just when nothing is hidden. -/
theorem samePullRequest_window (rt : Runtime) (head : String) (start : ℕ)
    (hne : b.requiredChecks ≠ []) (htexts : TextUpdates events) :
    SamePullRequest
        (StatusWindow.status rt ⟨b.number, b.branch, head, b.requiredChecks, start⟩ events)
        (windowFacts rt ⟨b, head, start⟩ events) ↔
      ReviewsShown b (events.filter (ProjectionWindow.covers ⟨b, head, start⟩)) ∧
        ThreadsShown b (events.filter (ProjectionWindow.covers ⟨b, head, start⟩)) ∧
        ChecksShown rt b (events.filter (ProjectionWindow.covers ⟨b, head, start⟩)) := by
  have hcovers : StatusWindow.covers ⟨b.number, b.branch, head, b.requiredChecks, start⟩ =
      ProjectionWindow.covers ⟨b, head, start⟩ := rfl
  have hupdates : ∀ e ∈ events.filter (ProjectionWindow.covers ⟨b, head, start⟩),
      (resourceKey e).2.isSome ∧ (eventState e).isSome := by
    intro e he
    obtain ⟨hmem, hcover⟩ := List.mem_filter.mp he
    simp only [ProjectionWindow.covers, Bool.and_eq_true] at hcover
    exact htexts e hmem hcover.1.1.1.2
  simp only [StatusWindow.status, windowFacts, hcovers]
  generalize events.filter (ProjectionWindow.covers ⟨b, head, start⟩) = updates at hupdates ⊢
  have hids : ∀ e ∈ updates, (resourceKey e).2.isSome := fun e he => (hupdates e he).1
  have hstate : ∀ e ∈ updates, (eventState e).isSome := fun e he => (hupdates e he).2
  have hreviews : ((updatesOfType (lastUpdates updates) .review).map stateText).countP
        (· = "CHANGES_REQUESTED") =
      ((reviewStatesOf b (latestUpdates updates)).reviews.keysWhere
        (· = "CHANGES_REQUESTED")).length ↔ ReviewsShown b updates := by
    rw [countP_stateText _ (by decide), countP_updatesOfType_iff hids]
    · simp only [reviews_get?_eq_changesRequested _ hstate]
      exact Iff.rfl
    · intro id hlast
      exact (reviews_get?_eq_changesRequested id hstate).mpr (currentVerdict_of_lastState hlast)
  have hthreads : (updatesOfType (lastUpdates updates) .reviewThread).countP
        (fun e => eventState e = some "OPEN") =
      ((reviewStatesOf b (latestUpdates updates)).threads.keysWhere (· = "OPEN")).length ↔
        ThreadsShown b updates := by
    rw [countP_updatesOfType_iff hids]
    · simp only [threads_get?_eq _ hstate]
      exact Iff.rfl
    · intro id hlast
      rw [threads_get?_eq id hstate]
      exact currentThread_of_lastState hlast
  have hshown : ciStatusOf b.requiredChecks
      ((b.requiredChecks.filterMap (namedChecks (lastUpdates updates)).get?).map stateText) =
        .passed ↔
      ∀ name ∈ b.requiredChecks, ∃ e, shownRun updates name = some e ∧ shownPassed e = true := by
    simp only [ciStatusOf_eq_passed hne, get?_namedChecks]
  have hrecent := checkStatesOf_green b.requiredChecks (checkEvents rt (latestUpdates updates))
  simp only [get?_checkEvents] at hrecent
  constructor
  · rintro ⟨-, hci, hblocking, hopen⟩
    refine ⟨hreviews.mp hblocking, hthreads.mp hopen, ?_⟩
    simp only [Bool.and_eq_true, decide_eq_true_eq] at hci
    exact hshown.symm.trans (hci.trans hrecent)
  · rintro ⟨hblocking, hopen, hchecks⟩
    refine ⟨rfl, ?_, hreviews.mpr hblocking, hthreads.mpr hopen⟩
    simp only [Bool.and_eq_true, decide_eq_true_eq]
    exact hshown.trans (hchecks.trans hrecent.symm)

/-- The cockpit and readiness see the same pull request just when the head is readable and
nothing is hidden at it. -/
theorem samePullRequest_iff (hbinding : events.reverse.find? isBinding = some binding)
    (hread : readBinding binding = some b) (htexts : TextUpdates events) :
    SamePullRequest (githubStatus rt events) (githubFacts rt events) ↔
      ∃ head start, HeadAt events binding b head start ∧
        ReviewsShown b (events.filter (ProjectionWindow.covers ⟨b, head, start⟩)) ∧
        ThreadsShown b (events.filter (ProjectionWindow.covers ⟨b, head, start⟩)) ∧
        ChecksShown rt b (events.filter (ProjectionWindow.covers ⟨b, head, start⟩)) := by
  obtain ⟨hlinked, hevent, hne⟩ := linkedWindow_of_readBinding hread
  have hstatus : githubStatus rt events =
      StatusWindow.status rt (StatusWindow.moveTo
        ⟨b.number, b.branch, b.head, b.requiredChecks, binding.sequence⟩
        (events.reverse.find? (headChangeAfter binding))) events := by
    simp only [githubStatus, hbinding, hlinked]
  cases hchange : events.reverse.find? (headChangeAfter binding) with
  | none =>
    have hwindow : projectionWindow events = some ⟨b, b.head, binding.sequence⟩ := by
      simp [projectionWindow, hbinding, hread, hchange]
    rw [hstatus, hchange, githubFacts, hwindow]
    have hsame := samePullRequest_window rt b.head binding.sequence hne htexts
    constructor
    · intro h
      exact ⟨b.head, binding.sequence, .bound hchange, hsame.mp h⟩
    · rintro ⟨head, start, hhead, h⟩
      cases hhead with
      | bound _ => exact hsame.mpr h
      | changed change _ hsome _ _ =>
        rw [hchange] at hsome
        cases hsome
  | some change =>
    by_cases hsha : ∃ head, change.payload.get "head_sha" = .str head ∧ isSha head.toList = true
    · obtain ⟨head, hhead, hsha⟩ := hsha
      have hwindow : projectionWindow events = some ⟨b, head, change.sequence⟩ := by
        simp [projectionWindow, hbinding, hread, hchange, hhead, hsha]
      rw [hstatus, hchange, githubFacts, hwindow]
      have hsame := samePullRequest_window rt head change.sequence hne htexts
      simp only [StatusWindow.moveTo, hhead]
      constructor
      · intro h
        exact ⟨head, change.sequence, .changed change head hchange hhead hsha, hsame.mp h⟩
      · rintro ⟨head', start, hat, h⟩
        cases hat with
        | bound hnone =>
          rw [hchange] at hnone
          cases hnone
        | changed change' _ hsome hhead' _ =>
          obtain rfl : change = change' := Option.some.inj (hchange.symm.trans hsome)
          obtain rfl : head = head' := Json.str.inj (hhead.symm.trans hhead')
          exact hsame.mpr h
    · -- Readiness knows no head then, and the cockpit shows one.
      have hwindow : projectionWindow events = none := by
        simp only [projectionWindow, hbinding, hread, hchange, Option.bind_eq_bind,
          Option.bind_some]
        split
        · rename_i head hhead
          rw [if_neg fun h => hsha ⟨head, hhead, h⟩]
        · rfl
      constructor
      · intro h
        have hhead := h.head
        rw [hstatus, githubFacts, hwindow] at hhead
        cases hhead
      · rintro ⟨head, start, hat, -⟩
        cases hat with
        | bound hnone =>
          rw [hchange] at hnone
          cases hnone
        | changed change' _ hsome hhead hvalid =>
          obtain rfl : change = change' := Option.some.inj (hchange.symm.trans hsome)
          exact absurd ⟨head, hhead, hvalid⟩ hsha

/-- What the webhook service records are texts. -/
theorem WellRecorded.textUpdates {cfg : GitHubAppConfiguration} {taskId : UUID} {db : Database}
    (h : WellRecorded rt cfg taskId db) : TextUpdates (taskEventsOf db taskId) := by
  intro e he hupdate
  have hgithub : e ∈ gitHubEvents db taskId :=
    List.mem_filter.mpr ⟨he, by simp [isGitHubEvent, hupdate]⟩
  obtain ⟨u, -, hrecords⟩ := h.update e hgithub hupdate
  simp [hrecords.resourceKey, hrecords.eventState]

end Same

/-! ### A comment after a request for changes -/

namespace CommentExample
open GitHubExample ReviewExample

/-- One reviewer requests changes and comments later. -/
def world₀ : Database := start [review 1 "submitted" "changes_requested" (sha 'a') 20,
  review 2 "submitted" "commented" (sha 'a') 30]
def world₁ : Database := bind (binding (sha 'a') 300) world₀
def world₂ : Database := process 1 world₁
def world₃ : Database := process 2 world₂

def bindingOf (db : Database) : Option TaskEvent :=
  (taskEventsOf db task.id).reverse.find? isBinding

/-- The blocking reviews the cockpit and readiness count. -/
def blocking (db : Database) : ℕ × ℕ :=
  ((githubStatus .plain (taskEventsOf db task.id)).blockingReviews,
    (githubFacts .plain (taskEventsOf db task.id)).blockingReviews)

set_option maxRecDepth 4000 in
theorem run_checked :
    binds (binding (sha 'a') 300) world₀ = true ∧
    (updateOf 1 world₁).isSome = true ∧ processes 1 world₁ = true ∧
    (updateOf 2 world₂).isSome = true ∧ processes 2 world₂ = true ∧
    ((bindingOf world₃).bind readBinding).isSome = true ∧
    blocking world₂ = (1, 1) ∧ blocking world₃ = (0, 1) := by
  decide +kernel

def activities : List Activity :=
  [bound (sha 'a') 300 10, .processed ((updateOf 1 world₁).get run_checked.2.1),
    .processed ((updateOf 2 world₂).get run_checked.2.2.2.1)]

theorem taskRun_commented :
    TaskRun .plain cfg task.id (fun _ _ _ => True) activities world₃ := by
  obtain ⟨hbind, hsome₁, hfirst, hsome₂, hsecond, -⟩ := run_checked
  have hbound : TaskRun .plain cfg task.id (fun _ _ _ => True) [bound (sha 'a') 300 10] world₁ :=
    taskRun_bind (seconds 10) (.start rfl) rfl trivial hbind
  have hrequested := taskRun_process hbound (Option.some_get hsome₁).symm trivial hfirst
  exact taskRun_process hrequested (Option.some_get hsome₂).symm trivial hsecond

theorem exists_binding : ∃ e b, bindingOf world₃ = some e ∧ readBinding e = some b := by
  obtain ⟨b, hb⟩ := Option.isSome_iff_exists.mp run_checked.2.2.2.2.2.1
  obtain ⟨e, he, hread⟩ := Option.bind_eq_some_iff.mp hb
  exact ⟨e, b, he, hread⟩

end CommentExample

open CommentExample in
open GitHubExample (task) in
theorem samePullRequest_iff_commented :
    ∃ e b, bindingOf world₃ = some e ∧ readBinding e = some b ∧
      (SamePullRequest (githubStatus .plain (taskEventsOf world₃ task.id))
          (githubFacts .plain (taskEventsOf world₃ task.id)) ↔
        ∃ head start, HeadAt (taskEventsOf world₃ task.id) e b head start ∧
          ReviewsShown b ((taskEventsOf world₃ task.id).filter
            (ProjectionWindow.covers ⟨b, head, start⟩)) ∧
          ThreadsShown b ((taskEventsOf world₃ task.id).filter
            (ProjectionWindow.covers ⟨b, head, start⟩)) ∧
          ChecksShown .plain b ((taskEventsOf world₃ task.id).filter
            (ProjectionWindow.covers ⟨b, head, start⟩))) := by
  obtain ⟨e, b, hbinding, hread⟩ := exists_binding
  exact ⟨e, b, hbinding, hread,
    samePullRequest_iff hbinding hread taskRun_commented.wellRecorded.textUpdates⟩

open CommentExample GitHubExample in
/-- The cockpit loses a request for changes once its reviewer comments. -/
theorem not_samePullRequest_commented :
    ¬ ∀ (activities : List Activity) (db : Database) (e : TaskEvent) (b : BindingFacts),
      TaskRun .plain cfg task.id (fun _ _ _ => True) activities db →
        (taskEventsOf db task.id).reverse.find? isBinding = some e → readBinding e = some b →
          SamePullRequest (githubStatus .plain (taskEventsOf db task.id))
            (githubFacts .plain (taskEventsOf db task.id)) := by
  intro h
  obtain ⟨e, b, hbinding, hread⟩ := exists_binding
  have hsame := (h _ _ e b taskRun_commented hbinding hread).reviews
  have hblocking := CommentExample.run_checked.2.2.2.2.2.2.2
  rw [blocking, Prod.mk.injEq] at hblocking
  omega

end ControlPlane
