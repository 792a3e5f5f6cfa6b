import ControlPlane.Readiness.Head

/-!
# Verdicts of reviewers and states of threads

The carryover of a binding and the projection of readiness fold review events in different
ways: one over all heads, event by event, the other over the latest update of every
resource since the binding. Both come to the latest verdict of every reviewer, comments
apart, and the latest state of every thread.

## Main definitions

* `verdict`, `threadState`

## Main results

* `mem_blockingReviews`, `mem_openThreads`: what a binding carries over.
* `windowFacts_noBlockingReview`: what readiness takes for blocking.
-/
namespace ControlPlane

open History

/-- A key with the state that was reported for it. -/
abbrev ResourceState := ResourceKey × Option String

def resourceState (e : TaskEvent) : ResourceState := (resourceKey e, eventState e)

/-- The verdict of a reviewer, if the state is one. -/
def ResourceState.verdict (id : String) (p : ResourceState) : Option String :=
  if p.1 = reviewKey id ∧ p.2 ≠ some "COMMENTED" then p.2 else none

/-- The state of a thread, if the state is of the thread. -/
def ResourceState.threadState (id : String) (p : ResourceState) : Option String :=
  if p.1 = threadKey id then p.2 else none

/-- The latest verdict of a reviewer. -/
def verdict (events : List TaskEvent) (id : String) : Option String :=
  (events.filterMap fun e => (resourceState e).verdict id).getLast?

/-- The latest state of a thread. -/
def threadState (events : List TaskEvent) (id : String) : Option String :=
  (events.filterMap fun e => (resourceState e).threadState id).getLast?

theorem verdict_append (es fs : List TaskEvent) (id : String) :
    verdict (es ++ fs) id = (verdict fs id).or (verdict es id) := by
  rw [verdict, List.filterMap_append, List.getLast?_append]
  rfl

theorem threadState_append (es fs : List TaskEvent) (id : String) :
    threadState (es ++ fs) id = (threadState fs id).or (threadState es id) := by
  rw [threadState, List.filterMap_append, List.getLast?_append]
  rfl

/-! ### One step of a fold over states -/

/-- A state that is a verdict. -/
def settled (state : Option String) : Option String := state.filter (· ≠ "COMMENTED")

theorem settled_eq_changesRequested {state : Option String} :
    settled state = some "CHANGES_REQUESTED" ↔ state = some "CHANGES_REQUESTED" := by
  rw [settled, Option.filter_eq_some_iff]
  constructor
  · exact fun h => h.1
  · exact fun h => ⟨h, by decide⟩

theorem settled_commented : settled (some "COMMENTED") = none := rfl

theorem settled_some {state : String} (h : state ≠ "COMMENTED") :
    settled (some state) = some state := by
  rw [settled, Option.filter_some, if_pos (by simpa using h)]

/-- One more state; a comment says nothing about an earlier verdict. -/
def ReviewStates.put (s : ReviewStates) (p : ResourceState) : ReviewStates :=
  match p.1.2, p.2 with
  | some resourceId, some state =>
    if p.1.1 = some ResourceType.review.value then
      if state ≠ "COMMENTED" ∨ s.reviews.get? resourceId = none then
        { s with reviews := s.reviews.set resourceId state }
      else s
    else if p.1.1 = some ResourceType.reviewThread.value then
      { s with threads := s.threads.set resourceId state }
    else s
  | _, _ => s

theorem addReviewState_eq (s : ReviewStates) (entry : ResourceKey × TaskEvent) :
    addReviewState s entry = s.put (entry.1, eventState entry.2) := rfl

theorem sameText_eq_true {v : Json} {s : String} :
    sameText v (.str s) = true ↔ v.str? = some s := by
  cases v <;> simp [sameText, Json.str?]

theorem ReviewStates.add_eq (s : ReviewStates) (e : TaskEvent) :
    s.add e = s.put (resourceState e) := by
  simp only [ReviewStates.add, ReviewStates.put, resourceState, resourceKey, eventState,
    sameText_eq_true]
  cases e.payload.get "resource_id" <;> cases e.payload.get "state" <;> rfl

/-- What a state does to the verdict of a reviewer. -/
theorem ReviewStates.settled_put (s : ReviewStates) (p : ResourceState) (id : String) :
    settled ((s.put p).reviews.get? id) = (p.verdict id).or (settled (s.reviews.get? id)) := by
  obtain ⟨⟨kind, resource⟩, state⟩ := p
  cases resource with
  | none => simp [ReviewStates.put, ResourceState.verdict, reviewKey]
  | some resourceId =>
    cases state with
    | none => simp [ReviewStates.put, ResourceState.verdict]
    | some state =>
      by_cases hkind : kind = some ResourceType.review.value
      · subst hkind
        by_cases hid : id = resourceId
        · subst hid
          by_cases hcomment : state = "COMMENTED"
          · cases hget : s.reviews.get? id with
            | none =>
              simp [ReviewStates.put, ResourceState.verdict, hcomment, hget, Dict.get?_set, settled]
            | some previous =>
              simp [ReviewStates.put, ResourceState.verdict, hcomment, hget]
          · simp [ReviewStates.put, ResourceState.verdict, reviewKey, hcomment, Dict.get?_set,
              settled]
        · have hne : ¬ resourceId = id := fun h => hid h.symm
          simp only [ReviewStates.put, ResourceState.verdict, reviewKey, Prod.mk.injEq,
            Option.some.injEq, hne, and_false, false_and, if_true, if_false, Option.none_or]
          split
          · rw [Dict.get?_set, if_neg hid]
          · rfl
      · simp only [ReviewStates.put, ResourceState.verdict, reviewKey, Prod.mk.injEq, hkind,
          false_and, if_false, Option.none_or]
        split <;> rfl

/-- What a state does to the state of a thread. -/
theorem ReviewStates.threads_put (s : ReviewStates) (p : ResourceState) (id : String) :
    (s.put p).threads.get? id = (p.threadState id).or (s.threads.get? id) := by
  obtain ⟨⟨kind, resource⟩, state⟩ := p
  have hkinds : some ResourceType.reviewThread.value ≠ some ResourceType.review.value := by decide
  cases resource with
  | none => simp [ReviewStates.put, ResourceState.threadState, threadKey]
  | some resourceId =>
    cases state with
    | none => simp [ReviewStates.put, ResourceState.threadState]
    | some state =>
      by_cases hkind : kind = some ResourceType.reviewThread.value
      · subst hkind
        by_cases hid : id = resourceId
        · simp [ReviewStates.put, ResourceState.threadState, threadKey, hkinds, hid, Dict.get?_set]
        · have hne : ¬ resourceId = id := fun h => hid h.symm
          simp [ReviewStates.put, ResourceState.threadState, threadKey, hkinds, hid, hne,
            Dict.get?_set]
      · simp only [ReviewStates.put, ResourceState.threadState, threadKey, Prod.mk.injEq, hkind,
          false_and, if_false, Option.none_or]
        split
        · split <;> rfl
        · rfl

section Folds
variable (states : List ResourceState) (s : ReviewStates) (id : String)

theorem ReviewStates.settled_foldl_put :
    settled ((states.foldl ReviewStates.put s).reviews.get? id) =
      (states.filterMap (ResourceState.verdict id)).getLast?.or (settled (s.reviews.get? id)) := by
  induction states generalizing s with
  | nil => rfl
  | cons p states ih =>
    rw [List.foldl_cons, ih, settled_put, List.filterMap_cons]
    cases hp : p.verdict id with
    | none => rfl
    | some state =>
      rw [List.getLast?_cons]
      cases (states.filterMap (ResourceState.verdict id)).getLast? <;> rfl

theorem ReviewStates.threads_foldl_put :
    (states.foldl ReviewStates.put s).threads.get? id =
      (states.filterMap (ResourceState.threadState id)).getLast?.or (s.threads.get? id) := by
  induction states generalizing s with
  | nil => rfl
  | cons p states ih =>
    rw [List.foldl_cons, ih, threads_put, List.filterMap_cons]
    cases hp : p.threadState id with
    | none => rfl
    | some state =>
      rw [List.getLast?_cons]
      cases (states.filterMap (ResourceState.threadState id)).getLast? <;> rfl

end Folds

/-! ### The carryover of a binding -/

section Carryover
variable {events : List TaskEvent}

/-- Review events are where the states of reviewers and threads are recorded. -/
def ReviewsTyped (events : List TaskEvent) : Prop :=
  ∀ e ∈ events, ∀ id, (resourceKey e = reviewKey id ∨ resourceKey e = threadKey id) →
    e.eventType = UpdateType.review.value

theorem reviewStatesAfter_eq :
    reviewStatesAfter events =
      ((events.filter fun e => e.eventType = UpdateType.review.value).map resourceState).foldl
        ReviewStates.put {} := by
  have hadd : ReviewStates.add = fun s e => s.put (resourceState e) :=
    funext fun s => funext fun e => s.add_eq e
  rw [reviewStatesAfter, List.foldl_map, hadd]

theorem filterMap_reviews (f : TaskEvent → Option String)
    (h : ∀ e ∈ events, f e ≠ none → e.eventType = UpdateType.review.value) :
    (events.filter fun e => e.eventType = UpdateType.review.value).filterMap f =
      events.filterMap f := by
  rw [List.filterMap_filter]
  refine List.filterMap_congr fun e he => ?_
  by_cases htype : e.eventType = UpdateType.review.value
  · simp [htype]
  · have hnone : f e = none := by
      by_contra hne
      exact htype (h e he hne)
    simp [htype, hnone]

theorem mem_blockingReviews (htyped : ReviewsTyped events) (id : String) :
    id ∈ (reviewStatesAfter events).blockingReviews ↔
      verdict events id = some "CHANGES_REQUESTED" := by
  have hget := ReviewStates.settled_foldl_put
    ((events.filter fun e => e.eventType = UpdateType.review.value).map resourceState) {} id
  rw [← reviewStatesAfter_eq, List.filterMap_map, filterMap_reviews] at hget
  · have hempty : settled ((({} : ReviewStates).reviews).get? id) = none := rfl
    rw [hempty, Option.or_none] at hget
    rw [ReviewStates.blockingReviews, mem_sortedTexts, Dict.mem_keysWhere]
    simp only [decide_eq_true_eq, exists_eq_right]
    rw [← settled_eq_changesRequested, hget]
    rfl
  · intro e he hne
    refine htyped e he id (.inl ?_)
    by_contra hkey
    exact hne (by simp [ResourceState.verdict, resourceState, hkey])

theorem mem_openThreads (htyped : ReviewsTyped events) (id : String) :
    id ∈ (reviewStatesAfter events).openThreads ↔ threadState events id = some "OPEN" := by
  have hget := ReviewStates.threads_foldl_put
    ((events.filter fun e => e.eventType = UpdateType.review.value).map resourceState) {} id
  rw [← reviewStatesAfter_eq, List.filterMap_map, filterMap_reviews] at hget
  · have hempty : (({} : ReviewStates).threads).get? id = none := rfl
    rw [hempty, Option.or_none] at hget
    rw [ReviewStates.openThreads, mem_sortedTexts, Dict.mem_keysWhere]
    simp only [decide_eq_true_eq, exists_eq_right]
    rw [hget]
    rfl
  · intro e he hne
    refine htyped e he id (.inr ?_)
    by_contra hkey
    exact hne (by simp [ResourceState.threadState, resourceState, hkey])

end Carryover

/-! ### The latest update of every resource -/

section Latest
variable {events : List TaskEvent}

/-- The state under a key. -/
def stateAt (latest : Dict ResourceKey TaskEvent) (key : ResourceKey) : Option String :=
  (latest.get? key).bind eventState

theorem addLatest_reviewKey (latest : Dict ResourceKey TaskEvent) (e : TaskEvent) (id : String)
    (hstate : (eventState e).isSome) :
    settled (stateAt (addLatest latest e) (reviewKey id)) =
      ((resourceState e).verdict id).or (settled (stateAt latest (reviewKey id))) := by
  by_cases hkey : resourceKey e = reviewKey id
  · obtain ⟨state, hstate⟩ := Option.isSome_iff_exists.mp hstate
    by_cases hcomment : state = "COMMENTED"
    · cases hget : latest.get? (reviewKey id) with
      | none =>
        simp [addLatest, stateAt, hkey, hstate, hcomment, hget, Dict.get?_set, settled,
          resourceState, ResourceState.verdict]
      | some previous =>
        have hkind : (reviewKey id).1 = some ResourceType.review.value := rfl
        simp [addLatest, hkey, hstate, hcomment, hget, hkind, resourceState,
          ResourceState.verdict]
    · simp [addLatest, stateAt, hkey, hstate, hcomment, Dict.get?_set, settled,
        resourceState, ResourceState.verdict]
  · have hne : ¬ reviewKey id = resourceKey e := fun h => hkey h.symm
    have hsame : stateAt (addLatest latest e) (reviewKey id) = stateAt latest (reviewKey id) := by
      unfold addLatest stateAt
      split
      · rfl
      · rw [Dict.get?_set, if_neg hne]
    simp [hsame, resourceState, ResourceState.verdict, hkey]

theorem addLatest_get?_of_not_review (latest : Dict ResourceKey TaskEvent) (e : TaskEvent)
    {key : ResourceKey} (hkind : key.1 ≠ some ResourceType.review.value) :
    (addLatest latest e).get? key = if key = resourceKey e then some e else latest.get? key := by
  unfold addLatest
  by_cases hkey : key = resourceKey e
  · rw [← hkey]
    simp [hkind, Dict.get?_set]
  · rw [if_neg hkey]
    split
    · rfl
    · rw [Dict.get?_set, if_neg hkey]

theorem stateAt_reviewKey_foldl (latest : Dict ResourceKey TaskEvent) (id : String)
    (hstate : ∀ e ∈ events, (eventState e).isSome) :
    settled (stateAt (events.foldl addLatest latest) (reviewKey id)) =
      (verdict events id).or (settled (stateAt latest (reviewKey id))) := by
  induction events generalizing latest with
  | nil => rfl
  | cons e events ih =>
    rw [List.foldl_cons, ih _ fun a ha => hstate a (List.mem_cons_of_mem e ha),
      addLatest_reviewKey latest e id (hstate e List.mem_cons_self),
      show e :: events = [e] ++ events from rfl, verdict_append, Option.or_assoc]
    congr 1
    simp only [verdict, List.filterMap_cons, List.filterMap_nil]
    cases (resourceState e).verdict id <;> rfl

theorem stateAt_reviewKey (id : String) (hstate : ∀ e ∈ events, (eventState e).isSome) :
    settled (stateAt (latestUpdates events) (reviewKey id)) = verdict events id := by
  rw [latestUpdates, stateAt_reviewKey_foldl _ _ hstate]
  exact Option.or_none

theorem stateAt_threadKey_foldl (latest : Dict ResourceKey TaskEvent) (id : String)
    (hstate : ∀ e ∈ events, (eventState e).isSome) :
    stateAt (events.foldl addLatest latest) (threadKey id) =
      (threadState events id).or (stateAt latest (threadKey id)) := by
  induction events generalizing latest with
  | nil => rfl
  | cons e events ih =>
    rw [List.foldl_cons, ih _ fun a ha => hstate a (List.mem_cons_of_mem e ha),
      show e :: events = [e] ++ events from rfl, threadState_append, Option.or_assoc]
    congr 1
    have hkind : (threadKey id).1 ≠ some ResourceType.review.value := by simp [threadKey]
    rw [stateAt, addLatest_get?_of_not_review latest e hkind]
    obtain ⟨state, hstate⟩ := Option.isSome_iff_exists.mp (hstate e List.mem_cons_self)
    by_cases hkey : resourceKey e = threadKey id
    · simp [threadState, resourceState, ResourceState.threadState, hkey, hstate]
    · have hne : ¬ threadKey id = resourceKey e := fun h => hkey h.symm
      simp [threadState, resourceState, ResourceState.threadState, hkey, hne, stateAt]

theorem stateAt_threadKey (id : String) (hstate : ∀ e ∈ events, (eventState e).isSome) :
    stateAt (latestUpdates events) (threadKey id) = threadState events id := by
  rw [latestUpdates, stateAt_threadKey_foldl _ _ hstate]
  exact Option.or_none

end Latest

/-! ### What readiness takes for blocking -/

section Blocking
variable {b : BindingFacts} {events : List TaskEvent}

theorem reviewStatesOf_eq (latest : Dict ResourceKey TaskEvent) :
    reviewStatesOf b latest =
      (latest.entries.map fun entry => (entry.1, eventState entry.2)).foldl ReviewStates.put
        (carriedStates b) := by
  rw [List.foldl_map]
  rfl

theorem verdict_of_entries (latest : Dict ResourceKey TaskEvent) (id : String) :
    ((latest.entries.map fun entry => ((entry.1, eventState entry.2) : ResourceState)).filterMap
      (ResourceState.verdict id)).getLast? = settled (stateAt latest (reviewKey id)) := by
  rw [List.filterMap_map]
  have hquery : (ResourceState.verdict id ∘ fun entry : ResourceKey × TaskEvent =>
      (entry.1, eventState entry.2)) =
      fun entry => if entry.1 = reviewKey id then settled (eventState entry.2) else none := by
    funext entry
    by_cases hkey : entry.1 = reviewKey id
    · cases hstate : eventState entry.2 with
      | none => simp [ResourceState.verdict, settled, hstate]
      | some state =>
        by_cases hcomment : state = "COMMENTED"
        · simp [ResourceState.verdict, settled_commented, hkey, hstate, hcomment]
        · simp [ResourceState.verdict, settled_some hcomment, hkey, hstate, hcomment]
    · simp [ResourceState.verdict, hkey]
  rw [hquery, Dict.getLast?_filterMap_entries latest (reviewKey id)
    fun e => settled (eventState e), stateAt]
  cases latest.get? (reviewKey id) <;> rfl

theorem threadState_of_entries (latest : Dict ResourceKey TaskEvent) (id : String) :
    ((latest.entries.map fun entry => ((entry.1, eventState entry.2) : ResourceState)).filterMap
      (ResourceState.threadState id)).getLast? = stateAt latest (threadKey id) := by
  rw [List.filterMap_map]
  exact Dict.getLast?_filterMap_entries latest (threadKey id) eventState

/-- The verdict of a reviewer after a binding and some updates. -/
def currentVerdict (b : BindingFacts) (events : List TaskEvent) (id : String) : Option String :=
  (verdict events id).or (if id ∈ b.carriedReviews then some "CHANGES_REQUESTED" else none)

/-- The state of a thread after a binding and some updates. -/
def currentThread (b : BindingFacts) (events : List TaskEvent) (id : String) : Option String :=
  (threadState events id).or (if id ∈ b.carriedThreads then some "OPEN" else none)

theorem reviews_get?_eq_changesRequested (id : String)
    (hstate : ∀ e ∈ events, (eventState e).isSome) :
    (reviewStatesOf b (latestUpdates events)).reviews.get? id = some "CHANGES_REQUESTED" ↔
      currentVerdict b events id = some "CHANGES_REQUESTED" := by
  have hcarried : settled ((carriedStates b).reviews.get? id) =
      if id ∈ b.carriedReviews then some "CHANGES_REQUESTED" else none := by
    rw [carriedStates, Dict.get?_ofList_const]
    split <;> rfl
  rw [← settled_eq_changesRequested, reviewStatesOf_eq, ReviewStates.settled_foldl_put,
    verdict_of_entries, stateAt_reviewKey id hstate, hcarried, currentVerdict]

theorem threads_get?_eq (id : String) (hstate : ∀ e ∈ events, (eventState e).isSome) :
    (reviewStatesOf b (latestUpdates events)).threads.get? id = currentThread b events id := by
  rw [reviewStatesOf_eq, ReviewStates.threads_foldl_put, threadState_of_entries,
    stateAt_threadKey id hstate, carriedStates, Dict.get?_ofList_const, currentThread]

/-- No review blocks when no reviewer's verdict requests changes and no thread is open. -/
theorem windowFacts_noBlockingReview {rt : Runtime} {w : ProjectionWindow}
    (hstate : ∀ e ∈ events.filter w.covers, (eventState e).isSome) :
    (windowFacts rt w events).noBlockingReview = true ↔
      (∀ id, currentVerdict w.binding (events.filter w.covers) id ≠ some "CHANGES_REQUESTED") ∧
      ∀ id, currentThread w.binding (events.filter w.covers) id ≠ some "OPEN" := by
  simp only [windowFacts, Bool.and_eq_true, decide_eq_true_eq, List.length_eq_zero_iff,
    List.eq_nil_iff_forall_not_mem, Dict.mem_keysWhere, exists_eq_right,
    reviews_get?_eq_changesRequested _ hstate, threads_get?_eq _ hstate, ne_eq]

end Blocking

end ControlPlane
