import ControlPlane.GitHub.History
import Mathlib.Data.List.Dedup

/-!
# What the webhook history of a task looks like

Every binding in the history passed its checks, every update was normalized from a
delivery, sequence numbers increase, and what was recorded since the latest binding is
about the pull request it names.

## Main results

* `Recorded.append`: what processing appends to the history of one task.
* `TaskRun.wellRecorded`: the invariant holds after every run.
-/
namespace ControlPlane

open History

/-- What holds of every binding that passed its checks. -/
structure PullRequestBinding.WellFormed (b : PullRequestBinding) (cfg : GitHubAppConfiguration)
    (u : Unicode) : Prop where
  number_pos : 0 < b.pullRequestNumber
  branch : IsBranch u b.taskBranch.toList
  headSha : isSha b.headSha.toList = true
  checks_ne : b.requiredChecks ≠ []
  checks_nodup : b.requiredChecks.Nodup
  check_ne : ∀ c ∈ b.requiredChecks, c ≠ ""
  installationId : b.installationId = cfg.installationId
  repositoryId : b.repositoryId = cfg.repositoryId

theorem IsBranch.ne_nil {u : Unicode} {value : List Char} (h : IsBranch u value) :
    value ≠ [] := by
  rintro rfl
  have hmatch := h.1
  rw [branchPattern, cls, Regex.Re.fullmatch_seq_char_nil] at hmatch
  cases hmatch

theorem checkBinding_ok {rt : Runtime} {cfg : GitHubAppConfiguration}
    {arguments b : PullRequestBinding} (h : checkBinding rt cfg arguments = .ok b) :
    b.WellFormed cfg rt.unicode ∧ b.taskId = arguments.taskId := by
  simp only [checkBinding, Except.bind_eq_ok, Except.require_eq_ok, Except.pure_eq_ok] at h
  obtain ⟨branch, hbranch, sha, hsha, -, hchecks, -, ⟨hinstall, hrepo, hnumber⟩, rfl⟩ := h
  have hbranch' : IsBranch rt.unicode branch.toList := by
    simp only [requiredBranch] at hbranch
    by_cases hvalid : IsBranch rt.unicode arguments.taskBranch.toList
    · simp only [hvalid, if_true, Except.ok.injEq] at hbranch
      exact hbranch ▸ hvalid
    · simp [hvalid] at hbranch
  have hperm : (normalizedChecks rt arguments.requiredChecks).Perm _ :=
    List.perm_insertionSort _ _
  refine ⟨⟨hnumber, hbranch', requiredSha_ok hsha, hchecks.1, ?_, ?_, hinstall, hrepo⟩, rfl⟩
  · exact hperm.nodup_iff.mpr (List.nodup_dedup _)
  · intro c hc
    have hmem := List.mem_dedup.mp (hperm.mem_iff.mp hc)
    simpa using (List.mem_filter.mp hmem).2

/-! ### The invariant -/

/-- An event that records an update. -/
def Records (u : WebhookUpdate) (e : TaskEvent) : Prop :=
  e.eventType = u.eventType.value ∧ ∃ d prev, e.payload = u.eventPayload d prev

/-- An event that records a binding and what it carries over. -/
def RecordsBinding (cfg : GitHubAppConfiguration) (b : PullRequestBinding)
    (reviews threads : List String) (e : TaskEvent) : Prop :=
  e.eventType = githubPrBoundEvent ∧ e.payload = bindingPayload cfg b (carryoverJson reviews threads)

/-- The webhook history of a task is well formed. -/
structure WellRecorded (rt : Runtime) (cfg : GitHubAppConfiguration) (taskId : UUID)
    (db : Database) : Prop where
  increasing : Increasing TaskEvent.sequence (gitHubEvents db taskId)
  binding : ∀ e ∈ gitHubEvents db taskId, isBinding e = true →
    ∃ b reviews threads, b.WellFormed cfg rt.unicode ∧ (∀ s ∈ reviews, s ≠ "") ∧
      (∀ s ∈ threads, s ≠ "") ∧ RecordsBinding cfg b reviews threads e
  update : ∀ e ∈ gitHubEvents db taskId, isUpdateEvent e = true →
    ∃ u : WebhookUpdate, u.Recordable ∧ Records u e
  /-- What was recorded after the latest binding is about its pull request. -/
  concerns : ∀ bound ∈ latestBinding db taskId, ∀ e ∈ gitHubEvents db taskId,
    bound.sequence < e.sequence →
      sameInt (e.payload.get "pull_request_number") (bound.payload.get "pull_request_number") ∧
      sameText (e.payload.get "task_branch") (bound.payload.get "task_branch")

theorem WebhookUpdate.Recordable.asHeadChange {u : WebhookUpdate} (h : u.Recordable) :
    u.asHeadChange.Recordable where
  eventType_eq := rfl
  resourceId_ne := Json.toString_int_ne _
  headSha_valid := h.headSha_valid
  pullRequest_id := by simp [WebhookUpdate.asHeadChange]

/-! ### Keys of the review states -/

section ReviewStates
variable {P : String → Prop}

/-- The resource of a review event. -/
def reviewed (e : TaskEvent) : Option String := (e.payload.get "resource_id").str?

theorem ReviewStates.keys_add {s : ReviewStates} {e : TaskEvent}
    (hs : (∀ id, (s.reviews.get? id).isSome → P id) ∧ ∀ id, (s.threads.get? id).isSome → P id)
    (he : ∀ id, reviewed e = some id → P id) :
    (∀ id, ((s.add e).reviews.get? id).isSome → P id) ∧
      ∀ id, ((s.add e).threads.get? id).isSome → P id := by
  unfold ReviewStates.add
  split
  · rename_i resourceId state hid hstate
    have hP : P resourceId := he resourceId (by simp [reviewed, hid, Json.str?])
    split
    · split
      · refine ⟨fun id hsome => ?_, hs.2⟩
        rw [Dict.get?_set] at hsome
        by_cases heq : id = resourceId
        · exact heq ▸ hP
        · exact hs.1 id (by simpa [heq] using hsome)
      · exact hs
    · split
      · refine ⟨hs.1, fun id hsome => ?_⟩
        rw [Dict.get?_set] at hsome
        by_cases heq : id = resourceId
        · exact heq ▸ hP
        · exact hs.2 id (by simpa [heq] using hsome)
      · exact hs
  · exact hs

theorem ReviewStates.keys_foldl (events : List TaskEvent) {s : ReviewStates}
    (hs : (∀ id, (s.reviews.get? id).isSome → P id) ∧ ∀ id, (s.threads.get? id).isSome → P id)
    (he : ∀ e ∈ events, ∀ id, reviewed e = some id → P id) :
    (∀ id, ((events.foldl ReviewStates.add s).reviews.get? id).isSome → P id) ∧
      ∀ id, ((events.foldl ReviewStates.add s).threads.get? id).isSome → P id := by
  induction events generalizing s with
  | nil => exact hs
  | cons e events ih =>
    exact ih (ReviewStates.keys_add hs (he e List.mem_cons_self))
      fun a ha => he a (List.mem_cons_of_mem e ha)

theorem mem_sortedTexts {s : String} {values : List String} :
    s ∈ sortedTexts values ↔ s ∈ values := (List.perm_insertionSort _ _).mem_iff

/-- Carried reviewers and threads are resources of recorded review events. -/
theorem carried_of_events (events : List TaskEvent)
    (h : ∀ e ∈ events, e.eventType = UpdateType.review.value → ∀ id, reviewed e = some id → P id) :
    (∀ id ∈ (reviewStatesAfter events).blockingReviews, P id) ∧
      ∀ id ∈ (reviewStatesAfter events).openThreads, P id := by
  have hkeys := ReviewStates.keys_foldl (P := P) (s := {})
    (events.filter fun e => e.eventType = UpdateType.review.value) ⟨by simp, by simp⟩ fun e he => h e (List.mem_of_mem_filter he) (by
      simpa using (List.mem_filter.mp he).2)
  refine ⟨fun id hid => ?_, fun id hid => ?_⟩
  · obtain ⟨a, ha, -⟩ := Dict.mem_keysWhere.mp (mem_sortedTexts.mp hid)
    exact hkeys.1 id (by rw [← reviewStatesAfter] ; simp [ha])
  · obtain ⟨a, ha, -⟩ := Dict.mem_keysWhere.mp (mem_sortedTexts.mp hid)
    exact hkeys.2 id (by rw [← reviewStatesAfter] ; simp [ha])

end ReviewStates

/-! ### Steps -/

section Steps
variable {rt : Runtime} {cfg : GitHubAppConfiguration} {db db' : Database} {taskId : UUID}

theorem bindsUpdate_of_mem_candidates {u : WebhookUpdate} {includeHead : Bool} {task : Task}
    (h : task ∈ bindingCandidates db u includeHead) :
    ∃ bound, latestBinding db task.id = some bound ∧ bindsUpdate u includeHead bound = true := by
  have hmatch := (List.mem_filter.mp h).2
  simp only [Bool.and_eq_true] at hmatch
  cases hbound : latestBinding db task.id with
  | none => simp [hbound] at hmatch
  | some bound => exact ⟨bound, rfl, by simpa [hbound] using hmatch.2⟩

theorem bindsUpdate_true (u : WebhookUpdate) (bound : TaskEvent) :
    bindsUpdate u true bound = (bindsUpdate u false bound &&
      sameText (bound.payload.get "head_sha") (.str u.headSha)) := by
  simp [bindsUpdate]

theorem bindsUpdate_false_of_true {u : WebhookUpdate} {bound : TaskEvent}
    (h : bindsUpdate u true bound = true) : bindsUpdate u false bound = true := by
  rw [bindsUpdate_true, Bool.and_eq_true] at h
  exact h.1

/-- How an update is accepted: as it is, at the head its pull request was bound at or is
known to be at, or as a head change. -/
theorem correlate_accepted {u v : WebhookUpdate} {task : Task} {prev : Option String}
    (h : correlate db u = .accepted task v prev) :
    (v = u ∧ bindingCandidates db u true = [task]) ∨
      (bindingCandidates db u true = [] ∧ bindingCandidates db u false = [task] ∧
        ((v = u ∧ effectiveTaskHead db task.id = some u.headSha) ∨
          (v = u.asHeadChange ∧ u.eventType = .pullRequest ∧ u.action = "synchronize" ∧
            ∃ effective, effectiveTaskHead db task.id = some effective ∧
              u.headSha ≠ effective))) := by
  unfold correlate at h
  split at h
  · rename_i hnone
    split at h
    · rename_i t hone
      unfold correlateOtherHead at h
      cases heffective : effectiveTaskHead db t.id with
      | none => simp [heffective] at h
      | some effective =>
        simp only [heffective] at h
        by_cases hhead : u.headSha = effective
        · simp only [hhead, if_true, Correlation.accepted.injEq] at h
          obtain ⟨rfl, rfl, -⟩ := h
          exact .inr ⟨hnone, hone, .inl ⟨rfl, by rw [heffective, hhead]⟩⟩
        · by_cases hsync : u.eventType = .pullRequest ∧ u.action = "synchronize"
          · simp only [hhead, hsync, and_self, if_true, if_false,
              Correlation.accepted.injEq] at h
            obtain ⟨rfl, rfl, -⟩ := h
            exact .inr ⟨hnone, hone, .inr ⟨rfl, hsync.1, hsync.2, effective, heffective, hhead⟩⟩
          · simp [hhead, hsync] at h
    · cases h
  · rename_i t hone
    simp only [Correlation.accepted.injEq] at h
    obtain ⟨rfl, rfl, -⟩ := h
    exact .inl ⟨rfl, hone⟩
  · cases h

/-- An accepted update is about the pull request its task is bound to. -/
theorem bindsUpdate_of_accepted {u v : WebhookUpdate} {task : Task} {prev : Option String}
    (h : correlate db u = .accepted task v prev) :
    ∃ bound, latestBinding db task.id = some bound ∧ bindsUpdate u false bound = true := by
  rcases correlate_accepted h with ⟨-, hone⟩ | ⟨-, hone, -⟩
  · obtain ⟨bound, hbound, hmatch⟩ :=
      bindsUpdate_of_mem_candidates (hone ▸ List.mem_singleton_self task)
    exact ⟨bound, hbound, bindsUpdate_false_of_true hmatch⟩
  · exact bindsUpdate_of_mem_candidates (hone ▸ List.mem_singleton_self task)

theorem accepted_eq {u v : WebhookUpdate} {task : Task} {prev : Option String}
    (h : correlate db u = .accepted task v prev) : v = u ∨ v = u.asHeadChange := by
  rcases correlate_accepted h with ⟨hv, -⟩ | ⟨-, -, ⟨hv, -⟩ | ⟨hv, -⟩⟩
  · exact .inl hv
  · exact .inl hv
  · exact .inr hv

/-- A task that is the only candidate is one with the head exactly when it is bound there. -/
theorem candidates_true_eq_nil {u : WebhookUpdate} {task : Task} {bound : TaskEvent}
    (hone : bindingCandidates db u false = [task]) (hbound : latestBinding db task.id = some bound) :
    bindingCandidates db u true = [] ↔
      sameText (bound.payload.get "head_sha") (.str u.headSha) = false := by
  obtain ⟨bound', hbound', hbinds⟩ :=
    bindsUpdate_of_mem_candidates (hone ▸ List.mem_singleton_self task)
  obtain rfl : bound = bound' := by simpa [hbound] using hbound'
  have hwith : bindsUpdate u true bound =
      sameText (bound.payload.get "head_sha") (.str u.headSha) := by
    rw [bindsUpdate_true, hbinds, Bool.true_and]
  have hsub : bindingCandidates db u true =
      (bindingCandidates db u false).filter fun t =>
        (latestBinding db t.id).any (bindsUpdate u true) := by
    simp only [bindingCandidates, Table.select, List.filter_filter]
    refine List.filter_congr fun t _ => ?_
    cases hlatest : latestBinding db t.id with
    | none => simp
    | some c =>
      cases hc : bindsUpdate u true c with
      | true => simp [hc, bindsUpdate_false_of_true hc]
      | false => simp [hc]
  rw [hsub, hone]
  simp only [List.filter_cons, List.filter_nil, hbound, Option.any_some, hwith]
  cases sameText (bound.payload.get "head_sha") (.str u.headSha) <;> simp

/-- What processing an update appends to the history of one task. -/
theorem Recorded.append {u : WebhookUpdate} (h : Recorded rt db u db') (taskId : UUID) :
    gitHubEvents db' taskId = gitHubEvents db taskId ∨
      ∃ task v prev d now eventId, correlate db u = .accepted task v prev ∧ task.id = taskId ∧
        task.state.isTerminal = false ∧ NewerThanRecorded rt db taskId v ∧
        gitHubEvents db' taskId =
          gitHubEvents db taskId ++ [updateEvent db d task v prev now eventId] := by
  cases h with
  | unknown reason hcorrelate hevents => exact .inl (gitHubEvents_congr hevents)
  | stale task hcorrelate hevents => exact .inl (gitHubEvents_congr hevents)
  | inactive task v prev hcorrelate hstate hevents => exact .inl (gitHubEvents_congr hevents)
  | notNewer task v prev hcorrelate hstate hold hevents => exact .inl (gitHubEvents_congr hevents)
  | appended task v prev d now eventId hcorrelate hstate hnew hrows =>
    have happend := gitHubEvents_append taskId hrows (isGitHubEvent_of_update rfl)
    by_cases htask : task.id = taskId
    · refine .inr ⟨task, v, prev, d, now, eventId, hcorrelate, htask, hstate, htask ▸ hnew, ?_⟩
      exact happend.trans (if_pos htask)
    · exact .inl (happend.trans (if_neg htask))

/-- What a binding appends to the history of its task. -/
theorem bindTransaction_append {arguments b : PullRequestBinding} {id : UUID} {ids : List UUID}
    (hcheck : checkBinding rt cfg arguments = .ok b) (htask : b.taskId = taskId)
    (h : bindTransaction rt cfg db arguments = .ok (id, ids, db')) :
    (gitHubEvents db' taskId = gitHubEvents db taskId ∧ ∃ current,
        latestBinding db taskId = some current ∧
        current.payload.pyEq (bindingPayload cfg b (reviewStateCarryover db taskId)) = true) ∨
      ((∀ current ∈ latestBinding db taskId,
          current.payload.pyEq (bindingPayload cfg b (reviewStateCarryover db taskId)) = false) ∧
        ∃ task, task.id = taskId ∧ gitHubEvents db' taskId = gitHubEvents db taskId ++
          [bindingEvent cfg db task b (reviewStateCarryover db taskId)]) := by
  obtain ⟨b', task, hcheck', hget, -, -, -, h⟩ := bindTransaction_ok h
  obtain rfl : b' = b := by simpa [hcheck] using hcheck'.symm
  have hid : task.id = taskId := (Table.key_of_get? hget).trans htask
  rw [hid] at h
  rcases h with ⟨current, hcurrent, hequal, hevents⟩ | ⟨hdiffers, hrows⟩
  · exact .inl ⟨gitHubEvents_congr hevents, current, hcurrent, hequal⟩
  · refine .inr ⟨hdiffers, task, hid, ?_⟩
    rw [gitHubEvents_append taskId hrows (isGitHubEvent_of_isBinding (by simp [isBinding, bindingEvent]))]
    exact if_pos hid

theorem latestBinding_sequence_le {bound e : TaskEvent}
    (hbound : latestBinding db taskId = some bound) (he : e ∈ gitHubEvents db taskId)
    (hbinding : isBinding e = true) : e.sequence ≤ bound.sequence := by
  rw [latestBinding_eq] at hbound
  exact (latestBy_spec hbound).2 e (List.mem_filter.mpr ⟨he, hbinding⟩)

theorem mem_of_latestBinding {bound : TaskEvent} (h : latestBinding db taskId = some bound) :
    bound ∈ gitHubEvents db taskId ∧ isBinding bound = true := by
  rw [latestBinding_eq] at h
  exact List.mem_filter.mp (latestBy_spec h).1

/-- A recorded update keeps the history well formed. -/
theorem WellRecorded.update_step {u : WebhookUpdate} (hdb : WellRecorded rt cfg taskId db)
    (hu : u.WellFormed) (h : Recorded rt db u db') : WellRecorded rt cfg taskId db' := by
  rcases h.append taskId with hsame | ⟨task, v, prev, d, now, eventId, hcorrelate, htask, -, -, hes⟩
  · have hlatest := latestBinding_congr hsame
    refine ⟨hsame ▸ hdb.increasing, ?_, ?_, ?_⟩
    · rw [hsame]
      exact hdb.binding
    · rw [hsame]
      exact hdb.update
    · rw [hsame, hlatest]
      exact hdb.concerns
  · have hv : v.Recordable := by
      rcases accepted_eq hcorrelate with rfl | rfl
      · exact hu.toRecordable
      · exact hu.toRecordable.asHeadChange
    obtain ⟨bound, hbound, hbinds⟩ := bindsUpdate_of_accepted hcorrelate
    rw [htask] at hbound
    have hevent : isBinding (updateEvent db d task v prev now eventId) = false :=
      isBinding_eq_false_of_update rfl
    have hlatest := latestBinding_append_other hes hevent
    have hseq : ∀ a ∈ gitHubEvents db taskId,
        a.sequence < (updateEvent db d task v prev now eventId).sequence := by
      intro a ha
      rw [updateEvent, htask]
      exact lt_nextEventSequence ha
    refine ⟨?_, ?_, ?_, ?_⟩
    · rw [hes]
      exact hdb.increasing.concat hseq
    · intro e he hbinding
      rw [hes, List.mem_append, List.mem_singleton] at he
      rcases he with he | rfl
      · exact hdb.binding e he hbinding
      · rw [hevent] at hbinding
        cases hbinding
    · intro e he hupdate
      rw [hes, List.mem_append, List.mem_singleton] at he
      rcases he with he | rfl
      · exact hdb.update e he hupdate
      · exact ⟨v, hv, rfl, d, prev, rfl⟩
    · intro a ha e he hlt
      rw [hlatest] at ha
      rw [hes, List.mem_append, List.mem_singleton] at he
      rcases he with he | rfl
      · exact hdb.concerns a ha e he hlt
      · obtain rfl : bound = a := by simpa [hbound] using ha
        simp only [bindsUpdate, Bool.and_eq_true] at hbinds
        obtain ⟨⟨⟨-, hnumber⟩, hbranch⟩, -⟩ := hbinds
        have hfields : v.pullRequestNumber = u.pullRequestNumber ∧ v.taskBranch = u.taskBranch := by
          rcases accepted_eq hcorrelate with rfl | rfl
          · exact ⟨rfl, rfl⟩
          · exact ⟨rfl, rfl⟩
        rw [sameInt_comm, sameText_comm]
        simpa [updateEvent, hfields] using And.intro hnumber hbranch

/-- A binding keeps the history well formed. -/
theorem WellRecorded.bind_step {arguments b : PullRequestBinding} {id : UUID} {ids : List UUID}
    (hdb : WellRecorded rt cfg taskId db) (hcheck : checkBinding rt cfg arguments = .ok b)
    (htask : b.taskId = taskId)
    (h : bindTransaction rt cfg db arguments = .ok (id, ids, db')) :
    WellRecorded rt cfg taskId db' := by
  rcases bindTransaction_append hcheck htask h with ⟨hsame, -⟩ | ⟨-, task, hid, hes⟩
  · have hlatest := latestBinding_congr hsame
    refine ⟨hsame ▸ hdb.increasing, ?_, ?_, ?_⟩
    · rw [hsame]
      exact hdb.binding
    · rw [hsame]
      exact hdb.update
    · rw [hsame, hlatest]
      exact hdb.concerns
  · have hevent : isBinding (bindingEvent cfg db task b (reviewStateCarryover db taskId)) = true := by
      simp [isBinding, bindingEvent]
    have hseq : ∀ a ∈ gitHubEvents db taskId,
        a.sequence < (bindingEvent cfg db task b (reviewStateCarryover db taskId)).sequence := by
      intro a ha
      rw [bindingEvent, hid]
      exact lt_nextEventSequence ha
    -- What is carried over are resources of recorded review events.
    have hcarried := carried_of_events (P := (· ≠ "")) (taskEventsOf db taskId)
      fun e he htype id hreviewed => by
        have hmem : e ∈ gitHubEvents db taskId :=
          List.mem_filter.mpr ⟨he, isGitHubEvent_of_update htype⟩
        obtain ⟨u, hu, -, d, prev, hpayload⟩ :=
          hdb.update e hmem (isUpdateEvent_iff.mpr ⟨_, htype⟩)
        simp only [reviewed, hpayload, eventPayload_resourceId, Json.str?, Option.some.injEq]
          at hreviewed
        exact hreviewed ▸ hu.resourceId_ne
    refine ⟨?_, ?_, ?_, ?_⟩
    · rw [hes]
      exact hdb.increasing.concat hseq
    · intro e he hbinding
      rw [hes, List.mem_append, List.mem_singleton] at he
      rcases he with he | rfl
      · exact hdb.binding e he hbinding
      · exact ⟨b, _, _, (checkBinding_ok hcheck).1, hcarried.1, hcarried.2, rfl, rfl⟩
    · intro e he hupdate
      rw [hes, List.mem_append, List.mem_singleton] at he
      rcases he with he | rfl
      · exact hdb.update e he hupdate
      · obtain ⟨k, hk⟩ := isUpdateEvent_iff.mp hupdate
        exact absurd hk.symm (UpdateType.value_ne_bound k)
    · intro a ha e he hlt
      rw [latestBinding_append_binding hes hseq hevent] at ha
      obtain rfl : _ = a := by simpa using ha
      rw [hes, List.mem_append, List.mem_singleton] at he
      rcases he with he | rfl
      · exact absurd hlt (hseq e he).not_gt
      · exact absurd hlt (lt_irrefl _)

end Steps

/-- After every run the webhook history of the task is well formed. -/
theorem TaskRun.wellRecorded {rt : Runtime} {cfg : GitHubAppConfiguration} {taskId : UUID}
    {condition : List Activity → Database → Activity → Prop} {activities : List Activity}
    {db : Database} (h : TaskRun rt cfg taskId condition activities db) :
    WellRecorded rt cfg taskId db := by
  induction h with
  | start h =>
    refine ⟨?_, ?_, ?_, ?_⟩
    · rw [h]
      exact List.Pairwise.nil
    · simp [h]
    · simp [h]
    · simp [h]
  | bind hrun hcheck htask hcondition h ih => exact ih.bind_step hcheck htask h
  | process hrun hupdate hcondition h ih =>
    have hstep := (processDelivery_ok h).2
    rw [hupdate] at hstep
    exact ih.update_step (processedUpdate_ok hupdate).1 hstep
  | other hrun h ih =>
    have hlatest := latestBinding_congr h
    refine ⟨h ▸ ih.increasing, ?_, ?_, ?_⟩
    · rw [h]
      exact ih.binding
    · rw [h]
      exact ih.update
    · rw [h, hlatest]
      exact ih.concerns

end ControlPlane
