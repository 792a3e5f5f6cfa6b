import ControlPlane.Readiness.Layout

/-!
# Blocking reviews

What readiness takes for blocking at the bound head is what the recorded history says of
every reviewer and every thread. It is what was delivered when every review and every thread
update that changes who blocks is recorded.

## Main results

* `SplitAt.noBlockingReview_iff`
* `noBlockingReview_of_run`
-/
namespace ControlPlane

open History

/-! ### The recorded history -/

section Recorded
variable {rt : Runtime} {cfg : GitHubAppConfiguration} {db : Database} {taskId : UUID}
  {b : PullRequestBinding} {pre post : List TaskEvent} {bound : TaskEvent}

theorem resourceKey_bindingEvent (cfg : GitHubAppConfiguration) (db : Database) (task : Task)
    (b : PullRequestBinding) (carryover : Option Json) :
    resourceKey (bindingEvent cfg db task b carryover) = (none, none) := by
  cases carryover <;> rfl

theorem RecordsBinding.resourceKey {reviews threads : List String}
    (h : RecordsBinding cfg b reviews threads bound) : resourceKey bound = (none, none) := by
  rw [ControlPlane.resourceKey, h.2]
  cases carryoverJson reviews threads <;> rfl

theorem Records.resourceKey {u : WebhookUpdate} {e : TaskEvent} (h : Records u e) :
    resourceKey e = (some u.resourceType.value, some u.resourceId) := by
  obtain ⟨-, d, prev, hpayload⟩ := h
  rw [ControlPlane.resourceKey, hpayload]
  rfl

theorem Records.eventState {u : WebhookUpdate} {e : TaskEvent} (h : Records u e) :
    eventState e = some u.state := by
  obtain ⟨-, d, prev, hpayload⟩ := h
  rw [ControlPlane.eventState, hpayload]
  rfl

theorem WellRecorded.isUpdate_of_key (hdb : WellRecorded rt cfg taskId db) {e : TaskEvent}
    (he : e ∈ gitHubEvents db taskId) {kind id : String}
    (hkey : resourceKey e = (some kind, some id)) : isUpdateEvent e = true := by
  by_contra hupdate
  have hbinding : isBinding e = true := by
    have hgithub := (List.mem_filter.mp he).2
    simpa [isGitHubEvent, hupdate] using hgithub
  obtain ⟨b, reviews, threads, -, -, -, hrecords⟩ := hdb.binding e he hbinding
  rw [hrecords.resourceKey] at hkey
  cases hkey

theorem WellRecorded.reviewsTyped (hdb : WellRecorded rt cfg taskId db) :
    ReviewsTyped (gitHubEvents db taskId) := by
  rintro e he id hkey
  have hupdate : isUpdateEvent e = true := by
    rcases hkey with hkey | hkey
    · exact hdb.isUpdate_of_key he hkey
    · exact hdb.isUpdate_of_key he hkey
  obtain ⟨u, hu, hrecords⟩ := hdb.update e he hupdate
  rw [hrecords.resourceKey] at hkey
  rw [hrecords.1, hu.eventType_eq]
  rcases hkey with hkey | hkey
  · have hkind : u.resourceType = .review := by simpa [reviewKey] using (Prod.ext_iff.mp hkey).1
    rw [hkind]
    rfl
  · have hkind : u.resourceType = .reviewThread := by
      simpa [threadKey] using (Prod.ext_iff.mp hkey).1
    rw [hkind]
    rfl

theorem ReviewsTyped.of_subset {es fs : List TaskEvent} (h : ReviewsTyped fs) (hsub : es ⊆ fs) :
    ReviewsTyped es := fun e he => h e (hsub he)

/-- A binding says nothing about a reviewer. -/
theorem SplitAt.verdict_eq (h : SplitAt cfg taskId db b pre bound post) (id : String) :
    verdict (gitHubEvents db taskId) id = (verdict post id).or (verdict pre id) := by
  have hbound : verdict [bound] id = none := by
    simp [verdict, resourceState, ResourceState.verdict, h.records.resourceKey, reviewKey]
  rw [h.events, show pre ++ bound :: post = (pre ++ [bound]) ++ post by simp, verdict_append,
    verdict_append, hbound, Option.none_or]

theorem SplitAt.threadState_eq (h : SplitAt cfg taskId db b pre bound post) (id : String) :
    threadState (gitHubEvents db taskId) id = (threadState post id).or (threadState pre id) := by
  have hbound : threadState [bound] id = none := by
    simp [threadState, resourceState, ResourceState.threadState, h.records.resourceKey, threadKey]
  rw [h.events, show pre ++ bound :: post = (pre ++ [bound]) ++ post by simp,
    threadState_append, threadState_append, hbound, Option.none_or]

theorem or_eq_some_congr {x y z : Option String} {s : String} (h : y = some s ↔ z = some s) :
    x.or y = some s ↔ x.or z = some s := by
  cases x with
  | none => exact h
  | some a => exact Iff.rfl

/-- At the bound head nothing blocks when nothing recorded does. -/
theorem SplitAt.noBlockingReview_iff (h : SplitAt cfg taskId db b pre bound post)
    (hdb : WellRecorded rt cfg taskId db) (heffective : effectiveTaskHead db taskId = some b.headSha) :
    (githubFacts rt (assessedEvents db taskId)).noBlockingReview = true ↔
      (∀ id, verdict (gitHubEvents db taskId) id ≠ some "CHANGES_REQUESTED") ∧
      ∀ id, threadState (gitHubEvents db taskId) id ≠ some "OPEN" := by
  obtain ⟨w, hw, hpost, -, hbinding⟩ := h.window hdb heffective
  have hpre : ReviewsTyped pre := hdb.reviewsTyped.of_subset (by
    rw [h.events]
    exact List.subset_append_left _ _)
  have hstate : ∀ e ∈ (assessedEvents db taskId).filter w.covers, (eventState e).isSome := by
    rw [hpost]
    intro e he
    obtain ⟨u, -, hrecords⟩ := hdb.update e (h.mem_post he) (h.isUpdateEvent he)
    simp [hrecords.eventState]
  have hverdict : ∀ id, currentVerdict w.binding post id = some "CHANGES_REQUESTED" ↔
      verdict (gitHubEvents db taskId) id = some "CHANGES_REQUESTED" := by
    intro id
    rw [currentVerdict, h.verdict_eq, hbinding]
    refine or_eq_some_congr ?_
    rw [← mem_blockingReviews hpre]
    simp
  have hthread : ∀ id, currentThread w.binding post id = some "OPEN" ↔
      threadState (gitHubEvents db taskId) id = some "OPEN" := by
    intro id
    rw [currentThread, h.threadState_eq, hbinding]
    refine or_eq_some_congr ?_
    rw [← mem_openThreads hpre]
    simp
  rw [githubFacts, hw]
  simp only [windowFacts_noBlockingReview hstate, hpost, ne_eq, hverdict, hthread]

end Recorded

/-! ### What was delivered -/

def WebhookUpdate.verdict (id : String) (u : WebhookUpdate) : Option String :=
  if u.resourceType = .review ∧ u.resourceId = id ∧ u.state ≠ "COMMENTED" then some u.state
  else none

def WebhookUpdate.threadState (id : String) (u : WebhookUpdate) : Option String :=
  if u.resourceType = .reviewThread ∧ u.resourceId = id then some u.state else none

theorem Records.verdict_eq {u : WebhookUpdate} {e : TaskEvent} (h : Records u e) (id : String) :
    (resourceState e).verdict id = u.verdict id := by
  simp only [resourceState, ResourceState.verdict, h.resourceKey, h.eventState, reviewKey,
    Prod.mk.injEq, Option.some.injEq, ResourceType.value_inj, WebhookUpdate.verdict, and_assoc,
    ne_eq]

theorem Records.threadState_eq {u : WebhookUpdate} {e : TaskEvent} (h : Records u e)
    (id : String) : (resourceState e).threadState id = u.threadState id := by
  simp only [resourceState, ResourceState.threadState, h.resourceKey, h.eventState, threadKey,
    Prod.mk.injEq, Option.some.injEq, ResourceType.value_inj, WebhookUpdate.threadState]

/-- The updates of a pull request that were processed. -/
def delivered (number : ℤ) (activities : List Activity) : List WebhookUpdate :=
  (activities.filterMap Activity.update?).filter (·.pullRequestNumber = number)

/-- The latest verdict that was delivered, whatever commit it was attached to. -/
def deliveredVerdict (number : ℤ) (activities : List Activity) (id : String) : Option String :=
  ((delivered number activities).filterMap (WebhookUpdate.verdict id)).getLast?

def deliveredThread (number : ℤ) (activities : List Activity) (id : String) : Option String :=
  ((delivered number activities).filterMap (WebhookUpdate.threadState id)).getLast?

/-- The update is recorded for the task: it is correlated with it at its head, the task is
live, and nothing newer is recorded of the resource. -/
structure RecordedFor (rt : Runtime) (db : Database) (taskId : UUID) (u : WebhookUpdate) : Prop where
  correlated : ∃ task, task.id = taskId ∧ task.state.isTerminal = false ∧
    (bindingCandidates db u true = [task] ∨
      (bindingCandidates db u true = [] ∧ bindingCandidates db u false = [task] ∧
        effectiveTaskHead db taskId = some u.headSha))
  newer : NewerThanRecorded rt db taskId u

/-- The update does not change who blocks. -/
def ChangesNothing (db : Database) (taskId : UUID) (u : WebhookUpdate) : Prop :=
  (∀ id state, u.verdict id = some state →
    (state = "CHANGES_REQUESTED" ↔
      verdict (gitHubEvents db taskId) id = some "CHANGES_REQUESTED")) ∧
  ∀ id state, u.threadState id = some state →
    (state = "OPEN" ↔ threadState (gitHubEvents db taskId) id = some "OPEN")

/-- When a step keeps track of the reviews. The task stays bound to one pull request, and is
bound to it before anything blocks; and every update of it that changes who blocks is
recorded. -/
def ReviewCondition (rt : Runtime) (taskId : UUID) (activities : List Activity) (db : Database) :
    Activity → Prop
  | .bound b _ =>
    match lastBound activities with
    | some (current, _) => current.pullRequestNumber = b.pullRequestNumber
    | none =>
      (∀ id, deliveredVerdict b.pullRequestNumber activities id ≠ some "CHANGES_REQUESTED") ∧
      ∀ id, deliveredThread b.pullRequestNumber activities id ≠ some "OPEN"
  | .processed u =>
    ∀ b asOf, lastBound activities = some (b, asOf) →
      u.pullRequestNumber = b.pullRequestNumber →
        RecordedFor rt db taskId u ∨ ChangesNothing db taskId u

/-! ### The invariant -/

/-- Recorded and delivered reviews block alike. -/
structure ReviewInvariant (taskId : UUID) (number : ℤ) (activities : List Activity)
    (db : Database) : Prop where
  verdict : ∀ id, ControlPlane.verdict (gitHubEvents db taskId) id = some "CHANGES_REQUESTED" ↔
    deliveredVerdict number activities id = some "CHANGES_REQUESTED"
  thread : ∀ id, threadState (gitHubEvents db taskId) id = some "OPEN" ↔
    deliveredThread number activities id = some "OPEN"

section Invariant
variable {rt : Runtime} {cfg : GitHubAppConfiguration} {db db' : Database} {taskId : UUID}
  {activities : List Activity} {number : ℤ}

theorem deliveredVerdict_bound {b : PullRequestBinding} {asOf : ℕ} :
    deliveredVerdict number (activities ++ [.bound b asOf]) =
      deliveredVerdict number activities := by
  funext id
  rw [deliveredVerdict, deliveredVerdict, delivered, updates_bound, delivered]

theorem deliveredThread_bound {b : PullRequestBinding} {asOf : ℕ} :
    deliveredThread number (activities ++ [.bound b asOf]) =
      deliveredThread number activities := by
  funext id
  rw [deliveredThread, deliveredThread, delivered, updates_bound, delivered]

theorem delivered_processed {u : WebhookUpdate} (h : u.pullRequestNumber = number) :
    delivered number (activities ++ [.processed u]) = delivered number activities ++ [u] := by
  rw [delivered, updates_processed, List.filter_append]
  simp [delivered, h]

theorem delivered_processed_other {u : WebhookUpdate} (h : u.pullRequestNumber ≠ number) :
    delivered number (activities ++ [.processed u]) = delivered number activities := by
  rw [delivered, updates_processed, List.filter_append]
  simp [delivered, h]

theorem deliveredVerdict_processed {u : WebhookUpdate} (h : u.pullRequestNumber = number)
    (id : String) : deliveredVerdict number (activities ++ [.processed u]) id =
      (u.verdict id).or (deliveredVerdict number activities id) := by
  rw [deliveredVerdict, delivered_processed h, List.filterMap_append, List.getLast?_append]
  cases hu : u.verdict id <;> simp [hu, deliveredVerdict]

theorem deliveredThread_processed {u : WebhookUpdate} (h : u.pullRequestNumber = number)
    (id : String) : deliveredThread number (activities ++ [.processed u]) id =
      (u.threadState id).or (deliveredThread number activities id) := by
  rw [deliveredThread, delivered_processed h, List.filterMap_append, List.getLast?_append]
  cases hu : u.threadState id <;> simp [hu, deliveredThread]

theorem verdict_concat (es : List TaskEvent) (e : TaskEvent) (id : String) :
    verdict (es ++ [e]) id = ((resourceState e).verdict id).or (verdict es id) := by
  rw [verdict_append]
  cases he : (resourceState e).verdict id <;> simp [verdict, he]

theorem threadState_concat (es : List TaskEvent) (e : TaskEvent) (id : String) :
    threadState (es ++ [e]) id = ((resourceState e).threadState id).or (threadState es id) := by
  rw [threadState_append]
  cases he : (resourceState e).threadState id <;> simp [threadState, he]

theorem RecordedFor.appended {u : WebhookUpdate} (hfor : RecordedFor rt db taskId u)
    (h : Recorded rt db u db') :
    ∃ e, Records u e ∧ gitHubEvents db' taskId = gitHubEvents db taskId ++ [e] := by
  obtain ⟨task, htask, hlive, hcandidates⟩ := hfor.correlated
  have hcorrelate : correlate db u = .accepted task u none := by
    rcases hcandidates with hone | ⟨hnone, hone, hhead⟩
    · simp only [correlate, hone]
    · simp only [correlate, hnone, hone, correlateOtherHead, htask, hhead, if_true]
  cases h with
  | unknown reason hother => rw [hcorrelate] at hother; cases hother
  | stale t hother => rw [hcorrelate] at hother; cases hother
  | inactive t v prev hother hstate =>
    rw [hcorrelate] at hother
    cases hother
    rw [hlive] at hstate
    cases hstate
  | notNewer t v prev hother hstate hold =>
    rw [hcorrelate] at hother
    cases hother
    exact absurd (htask ▸ hfor.newer) hold
  | appended t v prev d now eventId hother hstate hnew hrows =>
    rw [hcorrelate] at hother
    cases hother
    have hes := gitHubEvents_append taskId hrows (isGitHubEvent_of_update (k := u.eventType) rfl)
    exact ⟨_, ⟨rfl, d, none, rfl⟩, hes.trans (if_pos htask)⟩

/-- A head change says nothing about a reviewer. -/
theorem asHeadChange_verdict {u : WebhookUpdate} (hu : u.WellFormed)
    (htype : u.eventType = .pullRequest) (id : String) :
    u.asHeadChange.verdict id = u.verdict id ∧ u.asHeadChange.threadState id = u.threadState id := by
  have hkind : u.resourceType ≠ .review ∧ u.resourceType ≠ .reviewThread := by
    rw [hu.eventType_eq] at htype
    cases hresource : u.resourceType <;> simp [hresource, ResourceType.eventType] at htype ⊢
  simp [WebhookUpdate.verdict, WebhookUpdate.threadState, WebhookUpdate.asHeadChange, hkind]

/-- An update that is processed is recorded with what it says, or not at all. -/
theorem Recorded.verdicts {u : WebhookUpdate} (hu : u.WellFormed) (h : Recorded rt db u db')
    (taskId : UUID) :
    gitHubEvents db' taskId = gitHubEvents db taskId ∨
      ((∃ bound, latestBinding db taskId = some bound ∧ bindsUpdate u false bound = true) ∧
        ∀ id, verdict (gitHubEvents db' taskId) id =
            (u.verdict id).or (verdict (gitHubEvents db taskId) id) ∧
          threadState (gitHubEvents db' taskId) id =
            (u.threadState id).or (threadState (gitHubEvents db taskId) id)) := by
  rcases h.append taskId with hsame | ⟨task, v, prev, d, now, eventId, hcorrelate, htask, -, -, hes⟩
  · exact .inl hsame
  · refine .inr ⟨htask ▸ bindsUpdate_of_accepted hcorrelate, fun id => ?_⟩
    have hrecords : Records v (updateEvent db d task v prev now eventId) := ⟨rfl, d, prev, rfl⟩
    have hverdicts : v.verdict id = u.verdict id ∧ v.threadState id = u.threadState id := by
      rcases correlate_accepted hcorrelate with ⟨rfl, -⟩ | ⟨-, -, ⟨rfl, -⟩ | ⟨rfl, htype, -⟩⟩
      · exact ⟨rfl, rfl⟩
      · exact ⟨rfl, rfl⟩
      · exact asHeadChange_verdict hu htype id
    rw [hes, verdict_concat, threadState_concat, hrecords.verdict_eq, hrecords.threadState_eq,
      hverdicts.1, hverdicts.2]
    exact ⟨rfl, rfl⟩

/-- A step that meets the condition keeps recorded and delivered reviews together. -/
theorem ReviewInvariant.process_step {u : WebhookUpdate} {b : PullRequestBinding} {asOf : ℕ}
    (hinv : ReviewInvariant taskId b.pullRequestNumber activities db)
    (hrec : WellRecorded rt cfg taskId db) (hlayout : Layout cfg taskId activities db)
    (hbound : lastBound activities = some (b, asOf)) (hu : u.WellFormed)
    (hcondition : ReviewCondition rt taskId activities db (.processed u))
    (h : Recorded rt db u db') :
    ReviewInvariant taskId b.pullRequestNumber (activities ++ [.processed u]) db' := by
  obtain ⟨b', pre, bound, post, hsplit, hnumber, -⟩ := hlayout.bound b asOf hbound
  have happended : ∀ bound', latestBinding db taskId = some bound' →
      bindsUpdate u false bound' = true → u.pullRequestNumber = b.pullRequestNumber := by
    intro bound' hbound' hbinds
    rw [hsplit.latestBinding hrec, Option.some.injEq] at hbound'
    simp only [bindsUpdate, Bool.and_eq_true] at hbinds
    have hsame := hbinds.1.1.2
    rw [← hbound', hsplit.records.2, bindingPayload_number, sameInt_int, decide_eq_true_eq] at hsame
    exact hsame.symm.trans hnumber
  by_cases hown : u.pullRequestNumber = b.pullRequestNumber
  · rcases h.verdicts hu taskId with hsame | ⟨-, hverdicts⟩
    · -- Nothing was recorded, so nothing changed.
      have hnothing : ChangesNothing db taskId u := by
        refine (hcondition b asOf hbound hown).resolve_left fun hfor => ?_
        obtain ⟨e, -, hes⟩ := hfor.appended h
        rw [hsame] at hes
        simpa using congrArg List.length hes
      refine ⟨fun id => ?_, fun id => ?_⟩
      · rw [hsame, deliveredVerdict_processed hown]
        cases hstate : u.verdict id with
        | none => exact hinv.verdict id
        | some state => simpa using (hnothing.1 id state hstate).symm
      · rw [hsame, deliveredThread_processed hown]
        cases hstate : u.threadState id with
        | none => exact hinv.thread id
        | some state => simpa using (hnothing.2 id state hstate).symm
    · refine ⟨fun id => ?_, fun id => ?_⟩
      · rw [(hverdicts id).1, deliveredVerdict_processed hown]
        exact or_eq_some_congr (hinv.verdict id)
      · rw [(hverdicts id).2, deliveredThread_processed hown]
        exact or_eq_some_congr (hinv.thread id)
  · rcases h.verdicts hu taskId with hsame | ⟨⟨bound', hbound', hbinds⟩, -⟩
    · refine ⟨fun id => ?_, fun id => ?_⟩
      · rw [hsame, deliveredVerdict, delivered_processed_other hown]
        exact hinv.verdict id
      · rw [hsame, deliveredThread, delivered_processed_other hown]
        exact hinv.thread id
    · exact absurd (happended bound' hbound' hbinds) hown

/-- A binding changes nothing about the reviews. -/
theorem ReviewInvariant.bind_step {arguments b : PullRequestBinding} {id : UUID} {ids : List UUID}
    {asOf : ℕ} (hlayout : Layout cfg taskId activities db)
    (hinv : ∀ current asOf', lastBound activities = some (current, asOf') →
      ReviewInvariant taskId current.pullRequestNumber activities db)
    (hcheck : checkBinding rt cfg arguments = .ok b) (htask : b.taskId = taskId)
    (hcondition : ReviewCondition rt taskId activities db (.bound b asOf))
    (h : bindTransaction rt cfg db arguments = .ok (id, ids, db')) :
    ReviewInvariant taskId b.pullRequestNumber (activities ++ [.bound b asOf]) db' := by
  have hrecorded : ∀ reviewer,
      ControlPlane.verdict (gitHubEvents db' taskId) reviewer =
        ControlPlane.verdict (gitHubEvents db taskId) reviewer ∧
      threadState (gitHubEvents db' taskId) reviewer =
        threadState (gitHubEvents db taskId) reviewer := by
    intro reviewer
    rcases bindTransaction_append hcheck htask h with ⟨hsame, -⟩ | ⟨-, task, -, hes⟩
    · rw [hsame]
      exact ⟨rfl, rfl⟩
    · have hkey := resourceKey_bindingEvent cfg db task b (reviewStateCarryover db taskId)
      rw [hes, verdict_concat, threadState_concat]
      simp [resourceState, ResourceState.verdict, ResourceState.threadState, hkey, reviewKey,
        threadKey]
  cases hlast : lastBound activities with
  | none =>
    simp only [ReviewCondition, hlast] at hcondition
    refine ⟨fun reviewer => ?_, fun thread => ?_⟩
    · rw [(hrecorded reviewer).1, hlayout.unbound hlast, deliveredVerdict_bound]
      exact iff_of_false (by simp [ControlPlane.verdict]) (hcondition.1 reviewer)
    · rw [(hrecorded thread).2, hlayout.unbound hlast, deliveredThread_bound]
      exact iff_of_false (by simp [threadState]) (hcondition.2 thread)
  | some p =>
    simp only [ReviewCondition, hlast] at hcondition
    have hcurrent := hinv p.1 p.2 hlast
    rw [hcondition] at hcurrent
    refine ⟨fun reviewer => ?_, fun thread => ?_⟩
    · rw [(hrecorded reviewer).1, deliveredVerdict_bound]
      exact hcurrent.verdict reviewer
    · rw [(hrecorded thread).2, deliveredThread_bound]
      exact hcurrent.thread thread

theorem TaskRun.reviewInvariant
    (h : TaskRun rt cfg taskId (ReviewCondition rt taskId) activities db) :
    ∀ b asOf, lastBound activities = some (b, asOf) →
      ReviewInvariant taskId b.pullRequestNumber activities db := by
  induction h with
  | start h =>
    intro b asOf hbound
    simp [lastBound] at hbound
  | bind hrun hcheck htask hcondition h ih =>
    intro c asOf' hbound
    obtain ⟨rfl, rfl⟩ := Prod.ext_iff.mp (Option.some.inj (lastBound_bound.symm.trans hbound))
    exact ReviewInvariant.bind_step hrun.layout ih hcheck htask hcondition h
  | process hrun hupdate hcondition h ih =>
    intro b asOf hbound
    have hlast := lastBound_processed.symm.trans hbound
    have hstep := (processDelivery_ok h).2
    rw [hupdate] at hstep
    exact (ih b asOf hlast).process_step hrun.wellRecorded hrun.layout hlast
      (processedUpdate_ok hupdate).1 hcondition hstep
  | other hrun h ih =>
    intro b asOf hbound
    obtain ⟨hverdict, hthread⟩ := ih b asOf hbound
    exact ⟨by rw [h]; exact hverdict, by rw [h]; exact hthread⟩

end Invariant

/-- After a run, at the bound head, no review blocks exactly when no reviewer's latest
verdict requests changes and no thread's latest state is open. -/
theorem noBlockingReview_of_run {rt : Runtime} {cfg : GitHubAppConfiguration} {taskId : UUID}
    {activities : List Activity} {db : Database} {b : PullRequestBinding} {asOf : ℕ}
    (h : TaskRun rt cfg taskId (ReviewCondition rt taskId) activities db)
    (hbound : lastBound activities = some (b, asOf))
    (heffective : effectiveTaskHead db taskId = some b.headSha) :
    (githubFacts rt (assessedEvents db taskId)).noBlockingReview = true ↔
      (∀ id, deliveredVerdict b.pullRequestNumber activities id ≠ some "CHANGES_REQUESTED") ∧
      ∀ id, deliveredThread b.pullRequestNumber activities id ≠ some "OPEN" := by
  obtain ⟨b', pre, bound, post, hsplit, -, hhead⟩ := h.layout.bound b asOf hbound
  obtain ⟨hverdict, hthread⟩ := h.reviewInvariant b asOf hbound
  rw [hsplit.noBlockingReview_iff h.wellRecorded (by rw [heffective, hhead])]
  simp only [ne_eq, hverdict, hthread]

/-! ### A dismissal of a review of an old commit -/

namespace ReviewExample

open GitHubExample

/-- A review of a commit by one reviewer. -/
def review (n : ℕ) (action state commit : String) (updatedAt : ℕ) : Received :=
  (n, "pull_request_review", body action [pullRequest commit updatedAt,
    ("review", .obj [("user", .obj [("id", .int 9), ("login", .str "reviewer")]),
      ("state", .str state), ("commit_id", .str commit), ("updated_at", time updatedAt)])])

/-- Changes are requested, a commit is pushed and bound, and the review is dismissed. -/
def world₀ : Database := start [review 1 "submitted" "changes_requested" (sha 'a') 20,
  synchronize 2 (sha 'b') 30, review 3 "dismissed" "dismissed" (sha 'a') 40]
def world₁ : Database := bind (binding (sha 'a') 300) world₀
def world₂ : Database := process 1 world₁
def world₃ : Database := process 2 world₂
def world₄ : Database := bind (binding (sha 'b') 310) world₃
def world₅ : Database := process 3 world₄

set_option maxRecDepth 4000 in
theorem run_checked :
    binds (binding (sha 'a') 300) world₀ = true ∧
    (updateOf 1 world₁).isSome = true ∧ processes 1 world₁ = true ∧
    (updateOf 2 world₂).isSome = true ∧ processes 2 world₂ = true ∧
    binds (binding (sha 'b') 310) world₃ = true ∧
    (updateOf 3 world₄).isSome = true ∧ processes 3 world₄ = true ∧
    effectiveTaskHead world₂ task.id = some (sha 'a') ∧
    effectiveTaskHead world₅ task.id = some (sha 'b') ∧
    (githubFacts .plain (assessedEvents world₅ task.id)).noBlockingReview = false := by
  decide +kernel

theorem isSome_requested : (updateOf 1 world₁).isSome = true := run_checked.2.1
theorem isSome_pushed : (updateOf 2 world₂).isSome = true := run_checked.2.2.2.1
theorem isSome_dismissed : (updateOf 3 world₄).isSome = true := run_checked.2.2.2.2.2.2.1

def requested : WebhookUpdate := (updateOf 1 world₁).get isSome_requested
def pushed : WebhookUpdate := (updateOf 2 world₂).get isSome_pushed
def dismissed : WebhookUpdate := (updateOf 3 world₄).get isSome_dismissed

def bound (head : String) (eventId t : ℕ) : Activity :=
  .bound (checked (binding head eventId)) (seconds t)

variable {condition : List Activity → Database → Activity → Prop}

theorem taskRun_requested (hbound : condition [] world₀ (bound (sha 'a') 300 10))
    (hrequested : condition [bound (sha 'a') 300 10] world₁ (.processed requested)) :
    TaskRun .plain cfg task.id condition [bound (sha 'a') 300 10, .processed requested] world₂ :=
  taskRun_process (taskRun_bind (seconds 10) (.start rfl) rfl hbound run_checked.1)
    (Option.some_get _).symm hrequested run_checked.2.2.1

def activities : List Activity :=
  [bound (sha 'a') 300 10, .processed requested, .processed pushed, bound (sha 'b') 310 35,
    .processed dismissed]

theorem taskRun_dismissed :
    TaskRun .plain cfg task.id (fun _ _ _ => True) activities world₅ := by
  obtain ⟨-, -, -, -, hpush, hbind, -, hdismiss, -⟩ := run_checked
  have hrequested : TaskRun .plain cfg task.id (fun _ _ _ => True)
      [bound (sha 'a') 300 10, .processed requested] world₂ := taskRun_requested trivial trivial
  have hpushed := taskRun_process hrequested (Option.some_get isSome_pushed).symm trivial hpush
  have hbound := taskRun_bind (seconds 35) hpushed rfl trivial hbind
  exact taskRun_process hbound (Option.some_get isSome_dismissed).symm trivial hdismiss

theorem mem_delivered {number : ℤ} {acts : List Activity} {id state : String}
    (h : deliveredVerdict number acts id = some state) :
    ∃ u ∈ delivered number acts, u.resourceId = id := by
  obtain ⟨u, hu, hverdict⟩ := List.mem_filterMap.mp (List.mem_of_getLast? h)
  refine ⟨u, hu, ?_⟩
  by_contra hne
  simp [WebhookUpdate.verdict, hne] at hverdict

theorem mem_deliveredThread {number : ℤ} {acts : List Activity} {id state : String}
    (h : deliveredThread number acts id = some state) :
    ∃ u ∈ delivered number acts, u.resourceType = .reviewThread := by
  obtain ⟨u, hu, hstate⟩ := List.mem_filterMap.mp (List.mem_of_getLast? h)
  refine ⟨u, hu, ?_⟩
  by_contra hne
  simp [WebhookUpdate.threadState, hne] at hstate

set_option maxRecDepth 4000 in
theorem updates_checked :
    (∀ u ∈ delivered 3 activities,
      deliveredVerdict 3 activities u.resourceId ≠ some "CHANGES_REQUESTED" ∧
        u.resourceType ≠ .reviewThread) ∧
    (bindingCandidates world₁ requested true).length = 1 ∧
    (∀ t ∈ bindingCandidates world₁ requested true, t.id = task.id ∧ t.state.isTerminal = false) ∧
    (latestResourceEvent world₁ task.id requested).isNone = true := by decide +kernel

/-- Nothing that was delivered blocks. -/
theorem nothing_blocks :
    (∀ id, deliveredVerdict 3 activities id ≠ some "CHANGES_REQUESTED") ∧
      ∀ id, deliveredThread 3 activities id ≠ some "OPEN" := by
  obtain ⟨hids, -⟩ := updates_checked
  refine ⟨fun id hid => ?_, fun id hid => ?_⟩
  · obtain ⟨u, hu, rfl⟩ := mem_delivered hid
    exact (hids u hu).1 hid
  · obtain ⟨u, hu, hkind⟩ := mem_deliveredThread hid
    exact (hids u hu).2 hkind

theorem recordedFor_requested : RecordedFor .plain world₁ task.id requested := by
  obtain ⟨-, hone, hlive, hnone⟩ := updates_checked
  obtain ⟨t, ht⟩ := List.length_eq_one_iff.mp hone
  obtain ⟨htask, hstate⟩ := hlive t (ht ▸ List.mem_singleton_self t)
  refine ⟨⟨t, htask, hstate, .inl ht⟩, fun previous hprevious => ?_⟩
  rw [Option.isNone_iff_eq_none.mp hnone] at hprevious
  cases hprevious

theorem taskRun_condition : TaskRun .plain cfg task.id (ReviewCondition .plain task.id)
    [bound (sha 'a') 300 10, .processed requested] world₂ :=
  taskRun_requested ⟨by simp [deliveredVerdict, delivered], by simp [deliveredThread, delivered]⟩
    fun _ _ _ _ => .inl recordedFor_requested

end ReviewExample

open ReviewExample GitHubExample in
/-- After a review of the bound head. -/
theorem noBlockingReview_of_request :
    (githubFacts .plain (assessedEvents ReviewExample.world₂ task.id)).noBlockingReview = true ↔
      (∀ id, deliveredVerdict 3 [bound (sha 'a') 300 10, .processed requested] id ≠
        some "CHANGES_REQUESTED") ∧
      ∀ id, deliveredThread 3 [bound (sha 'a') 300 10, .processed requested] id ≠ some "OPEN" :=
  noBlockingReview_of_run taskRun_condition rfl run_checked.2.2.2.2.2.2.2.2.1

open ReviewExample GitHubExample in
/-- The dismissal is attached to the old commit and lost, so the review keeps blocking. -/
theorem noBlockingReview_of_dismissal :
    TaskRun .plain cfg task.id (fun _ _ _ => True) activities world₅ ∧
      effectiveTaskHead world₅ task.id = some (sha 'b') ∧
      (githubFacts .plain (assessedEvents world₅ task.id)).noBlockingReview = false ∧
      (∀ id, deliveredVerdict 3 activities id ≠ some "CHANGES_REQUESTED") ∧
      ∀ id, deliveredThread 3 activities id ≠ some "OPEN" :=
  ⟨taskRun_dismissed, run_checked.2.2.2.2.2.2.2.2.2.1, run_checked.2.2.2.2.2.2.2.2.2.2,
    nothing_blocks⟩

end ControlPlane
