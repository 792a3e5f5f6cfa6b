import ControlPlane.Readiness.Verdicts

/-!
# The history around the latest binding

A history splits at the latest binding. What the binding carries over was computed from the
part before it; the part after it is what readiness projects its facts from, as long as the
head is the one the pull request was bound at.

## Main results

* `TaskRun.layout`
* `Layout.noBlockingReview_iff`
-/
namespace ControlPlane

open History

/-- What follows a binding: no binding, and other heads than the bound one only where a
head change was recorded. -/
structure SinceBinding (head : String) (post : List TaskEvent) : Prop where
  no_binding : ∀ e ∈ post, isBinding e = false
  at_head : (∃ e ∈ post, e.eventType = UpdateType.headChanged.value) ∨
    ∀ e ∈ post, e.payload.get "head_sha" = .str head
  changed : ∀ e ∈ post, e.eventType = UpdateType.headChanged.value →
    e.payload.get "head_sha" ≠ .str head

/-- A history that splits at the latest binding. -/
structure SplitAt (cfg : GitHubAppConfiguration) (taskId : UUID) (db : Database)
    (b : PullRequestBinding) (pre : List TaskEvent) (bound : TaskEvent) (post : List TaskEvent) :
    Prop where
  events : gitHubEvents db taskId = pre ++ bound :: post
  records : RecordsBinding cfg b (reviewStatesAfter pre).blockingReviews
    (reviewStatesAfter pre).openThreads bound
  since : SinceBinding b.headSha post

/-- The latest binding made is the latest one recorded. -/
structure Layout (cfg : GitHubAppConfiguration) (taskId : UUID) (activities : List Activity)
    (db : Database) : Prop where
  unbound : lastBound activities = none → gitHubEvents db taskId = []
  bound : ∀ b asOf, lastBound activities = some (b, asOf) →
    ∃ b' pre bound post, SplitAt cfg taskId db b' pre bound post ∧
      b'.pullRequestNumber = b.pullRequestNumber ∧ b'.headSha = b.headSha

section Split
variable {rt : Runtime} {cfg : GitHubAppConfiguration} {db db' : Database} {taskId : UUID}
  {b : PullRequestBinding} {pre post : List TaskEvent} {bound : TaskEvent}

theorem SplitAt.isBinding (h : SplitAt cfg taskId db b pre bound post) :
    isBinding bound = true := by
  simp [ControlPlane.isBinding, h.records.1]

theorem SplitAt.sequence_pre (h : SplitAt cfg taskId db b pre bound post)
    (hdb : WellRecorded rt cfg taskId db) {e : TaskEvent} (he : e ∈ pre) :
    e.sequence < bound.sequence := by
  have hincreasing := hdb.increasing
  rw [h.events] at hincreasing
  exact (List.pairwise_append.mp hincreasing).2.2 e he bound List.mem_cons_self

theorem SplitAt.sequence_post (h : SplitAt cfg taskId db b pre bound post)
    (hdb : WellRecorded rt cfg taskId db) {e : TaskEvent} (he : e ∈ post) :
    bound.sequence < e.sequence := by
  have hincreasing := hdb.increasing
  rw [h.events] at hincreasing
  exact (List.pairwise_cons.mp (List.pairwise_append.mp hincreasing).2.1).1 e he

theorem SplitAt.mem_post (h : SplitAt cfg taskId db b pre bound post) {e : TaskEvent}
    (he : e ∈ post) : e ∈ gitHubEvents db taskId := by
  rw [h.events]
  exact List.mem_append_right _ (List.mem_cons_of_mem _ he)

theorem SplitAt.isUpdateEvent (h : SplitAt cfg taskId db b pre bound post) {e : TaskEvent}
    (he : e ∈ post) : isUpdateEvent e = true := by
  have hgithub := (List.mem_filter.mp (h.mem_post he)).2
  simpa [isGitHubEvent, h.since.no_binding e he] using hgithub

theorem SplitAt.latestBinding (h : SplitAt cfg taskId db b pre bound post)
    (hdb : WellRecorded rt cfg taskId db) : latestBinding db taskId = some bound := by
  have hnone : post.filter ControlPlane.isBinding = [] :=
    List.filter_eq_nil_iff.mpr fun e he => by simp [h.since.no_binding e he]
  rw [latestBinding_eq, (hdb.increasing.filter _).latestBy_eq_getLast?, h.events,
    List.filter_append, List.filter_cons_of_pos h.isBinding, hnone]
  simp

/-- The head changes since the binding. -/
theorem SplitAt.headChanges (h : SplitAt cfg taskId db b pre bound post)
    (hdb : WellRecorded rt cfg taskId db) :
    (gitHubEvents db taskId).filter (headChangeAfter bound) =
      post.filter fun e => e.eventType = UpdateType.headChanged.value := by
  have hpre : pre.filter (headChangeAfter bound) = [] := by
    refine List.filter_eq_nil_iff.mpr fun e he => ?_
    simp [headChangeAfter, (h.sequence_pre hdb he).le.not_gt]
  have hbound : headChangeAfter bound bound = false := by simp [headChangeAfter]
  rw [h.events, List.filter_append, hpre, List.filter_cons_of_neg (by simp [hbound])]
  refine List.filter_congr fun e he => ?_
  have hconcerns := hdb.concerns bound (h.latestBinding hdb) e (h.mem_post he)
    (h.sequence_post hdb he)
  simp [headChangeAfter, h.sequence_post hdb he, hconcerns]

/-- At the bound head nothing but the bound head was seen since the binding. -/
theorem SplitAt.head_of_effective (h : SplitAt cfg taskId db b pre bound post)
    (hdb : WellRecorded rt cfg taskId db) (heffective : effectiveTaskHead db taskId = some b.headSha) :
    (∀ e ∈ post, e.payload.get "head_sha" = .str b.headSha) ∧
      post.filter (fun e => e.eventType = UpdateType.headChanged.value) = [] := by
  have hnone : post.filter (fun e => e.eventType = UpdateType.headChanged.value) = [] := by
    rw [effectiveTaskHead_eq, h.latestBinding hdb, Option.bind_some, h.headChanges hdb]
      at heffective
    cases hlatest : latestBy TaskEvent.sequence
        (post.filter fun e => e.eventType = UpdateType.headChanged.value) with
    | none => exact latestBy_eq_none.mp hlatest
    | some change =>
      obtain ⟨hmem, -⟩ := latestBy_spec hlatest
      obtain ⟨hpost, htype⟩ := List.mem_filter.mp hmem
      simp only [decide_eq_true_eq] at htype
      rw [hlatest, Option.getD_some, Json.str?_eq_some] at heffective
      exact absurd heffective (h.since.changed change hpost htype)
  refine ⟨?_, hnone⟩
  rcases h.since.at_head with ⟨e, he, htype⟩ | hall
  · have hmem : e ∈ post.filter fun e => e.eventType = UpdateType.headChanged.value :=
      List.mem_filter.mpr ⟨he, by simpa using htype⟩
    rw [hnone] at hmem
    cases hmem
  · exact hall

/-- The bound head is the head again only without head changes, and the other way round. -/
theorem SplitAt.effective_of_head (h : SplitAt cfg taskId db b pre bound post)
    (hdb : WellRecorded rt cfg taskId db)
    (hnone : post.filter (fun e => e.eventType = UpdateType.headChanged.value) = []) :
    effectiveTaskHead db taskId = some b.headSha := by
  rw [effectiveTaskHead_eq, h.latestBinding hdb, Option.bind_some, h.headChanges hdb, hnone]
  simp [latestBy, h.records.2, Json.str?]

end Split

/-! ### The window -/

theorem texts_injective : Function.Injective texts := by
  intro a b h
  exact List.map_injective_iff.mpr (fun s t hst => Json.str.inj hst) (Json.arr.inj h)

/-- What is carried over can be read off a binding. -/
theorem carryoverJson_injective {r t r' t' : List String}
    (h : (carryoverJson r t).getD .null = (carryoverJson r' t').getD .null) :
    r = r' ∧ t = t' := by
  unfold carryoverJson at h
  by_cases hnone : r = [] ∧ t = []
  · by_cases hnone' : r' = [] ∧ t' = []
    · exact ⟨hnone.1.trans hnone'.1.symm, hnone.2.trans hnone'.2.symm⟩
    · simp [hnone, hnone'] at h
  · by_cases hnone' : r' = [] ∧ t' = []
    · simp [hnone, hnone'] at h
    · simp only [hnone, hnone', if_false, Option.getD_some, Json.obj.injEq, List.cons.injEq,
        Prod.mk.injEq, true_and, and_true] at h
      exact ⟨texts_injective h.1, texts_injective h.2⟩

section Window
variable {rt : Runtime} {cfg : GitHubAppConfiguration} {db : Database} {taskId : UUID}
  {b : PullRequestBinding} {pre post : List TaskEvent} {bound : TaskEvent}

/-- At the bound head readiness projects what was recorded since the binding. -/
theorem SplitAt.window (h : SplitAt cfg taskId db b pre bound post)
    (hdb : WellRecorded rt cfg taskId db) (heffective : effectiveTaskHead db taskId = some b.headSha) :
    ∃ w, projectionWindow (assessedEvents db taskId) = some w ∧
      (assessedEvents db taskId).filter w.covers = post ∧ w.head = b.headSha ∧
      w.binding =
        { event := bound, number := b.pullRequestNumber, branch := b.taskBranch, head := b.headSha,
          requiredChecks := b.requiredChecks
          carriedReviews := (reviewStatesAfter pre).blockingReviews
          carriedThreads := (reviewStatesAfter pre).openThreads } := by
  have hlatest := h.latestBinding hdb
  obtain ⟨hheads, hchanges⟩ := h.head_of_effective hdb heffective
  obtain ⟨b', reviews, threads, hb', hrecords, w, hw, hbinding, hhead, hstart⟩ :=
    projectionWindow_assessed hdb hlatest
  have hpayload : bindingPayload cfg b' (carryoverJson reviews threads) =
      bindingPayload cfg b (carryoverJson (reviewStatesAfter pre).blockingReviews
        (reviewStatesAfter pre).openThreads) := hrecords.2.symm.trans h.records.2
  have hcarried : (carryoverJson reviews threads).getD .null =
      (carryoverJson (reviewStatesAfter pre).blockingReviews
        (reviewStatesAfter pre).openThreads).getD .null := by
    rw [← bindingPayload_carryover cfg b', hpayload, bindingPayload_carryover]
  obtain ⟨hreviews, hthreads⟩ := carryoverJson_injective hcarried
  have hchecks : b'.requiredChecks = b.requiredChecks := by
    refine texts_injective ?_
    rw [← bindingPayload_checks cfg b', hpayload, bindingPayload_checks]
  have hnumber : b'.pullRequestNumber = b.pullRequestNumber := by
    refine Json.int.inj ?_
    rw [← bindingPayload_number cfg b', hpayload, bindingPayload_number]
  have hbranch : b'.taskBranch = b.taskBranch := by
    refine Json.str.inj ?_
    rw [← bindingPayload_branch cfg b', hpayload, bindingPayload_branch]
  have hbound : b'.headSha = b.headSha := by
    refine Json.str.inj ?_
    rw [← bindingPayload_headSha cfg b', hpayload, bindingPayload_headSha]
  rw [hreviews, hthreads, hchecks, hnumber, hbranch, hbound] at hbinding
  have hwhead : w.head = b.headSha := Option.some.inj (hhead.symm.trans heffective)
  have hwstart : w.start = bound.sequence := by
    rw [hstart, h.headChanges hdb, hchanges]
    rfl
  refine ⟨w, hw, ?_, hwhead, hbinding⟩
  have hassessed : (assessedEvents db taskId).filter w.covers =
      (gitHubEvents db taskId).filter fun e => w.covers e && bound.sequence ≤ e.sequence := by
    rw [filter_gitHubEvents fun e he => ?_]
    · simp only [assessedEvents, hlatest, List.filter_filter]
    · simp only [ProjectionWindow.covers, Bool.and_eq_true] at he
      simp [isGitHubEvent, he.1.1.1.1.2]
  have hpre : pre.filter (fun e => w.covers e && decide (bound.sequence ≤ e.sequence)) = [] := by
    refine List.filter_eq_nil_iff.mpr fun e he => ?_
    simp [(h.sequence_pre hdb he).not_ge]
  have hcovers : w.covers bound = false := by
    have hupdate : ControlPlane.isUpdateEvent bound = false := by
      by_contra hupdate
      obtain ⟨k, hk⟩ := isUpdateEvent_iff.mp (Bool.eq_true_of_not_eq_false hupdate)
      rw [h.records.1] at hk
      exact UpdateType.value_ne_bound k hk.symm
    simp [ProjectionWindow.covers, hupdate]
  rw [hassessed, h.events, List.filter_append, hpre, List.filter_cons_of_neg (by simp [hcovers]),
    List.nil_append]
  refine List.filter_eq_self.mpr fun e he => ?_
  have hseq := h.sequence_post hdb he
  obtain ⟨hsameNumber, hsameBranch⟩ := hdb.concerns bound hlatest e (h.mem_post he) hseq
  rw [h.records.2, bindingPayload_number] at hsameNumber
  rw [h.records.2, bindingPayload_branch] at hsameBranch
  simp only [ProjectionWindow.covers, hwstart, hseq.le, h.isUpdateEvent he, hheads e he, hwhead,
    hbinding, hsameNumber, hsameBranch, sameText_str, decide_true, Bool.and_self]

end Window

/-! ### Runs -/

section Runs
variable {rt : Runtime} {cfg : GitHubAppConfiguration} {db db' : Database} {taskId : UUID}
  {activities : List Activity}

theorem reviewStateCarryover_eq : reviewStateCarryover db taskId =
    carryoverJson (reviewStatesAfter (gitHubEvents db taskId)).blockingReviews
      (reviewStatesAfter (gitHubEvents db taskId)).openThreads := by
  have hfilter : (gitHubEvents db taskId).filter (fun e => e.eventType = UpdateType.review.value) =
      (taskEventsOf db taskId).filter fun e => e.eventType = UpdateType.review.value :=
    filter_gitHubEvents fun e he => isGitHubEvent_of_update (by simpa using he)
  simp only [reviewStateCarryover, reviewStatesAfter, hfilter]

/-- What an accepted update adds to what follows the binding. -/
theorem SinceBinding.concat {head : String} {post : List TaskEvent} {e : TaskEvent}
    (h : SinceBinding head post) (hbinding : isBinding e = false)
    (hsame : e.payload.get "head_sha" = .str head →
      e.eventType ≠ UpdateType.headChanged.value)
    (hother : e.payload.get "head_sha" = .str head ∨
      e.eventType = UpdateType.headChanged.value ∨
      ∃ a ∈ post, a.eventType = UpdateType.headChanged.value) :
    SinceBinding head (post ++ [e]) := by
  refine ⟨?_, ?_, ?_⟩
  · intro a ha
    rcases List.mem_append.mp ha with ha | ha
    · exact h.no_binding a ha
    · rw [List.mem_singleton.mp ha]
      exact hbinding
  · rcases hother with hhead | htype | ⟨a, ha, htype⟩
    · rcases h.at_head with ⟨a, ha, htype⟩ | hall
      · exact .inl ⟨a, List.mem_append_left _ ha, htype⟩
      · refine .inr fun a ha => ?_
        rcases List.mem_append.mp ha with ha | ha
        · exact hall a ha
        · rw [List.mem_singleton.mp ha]
          exact hhead
    · exact .inl ⟨e, List.mem_append_right _ (List.mem_singleton_self e), htype⟩
    · exact .inl ⟨a, List.mem_append_left _ ha, htype⟩
  · intro a ha htype hhead
    rcases List.mem_append.mp ha with ha | ha
    · exact h.changed a ha htype hhead
    · rw [List.mem_singleton.mp ha] at htype hhead
      exact hsame hhead htype

/-- An update that is appended follows the latest binding. -/
theorem SplitAt.append {b : PullRequestBinding} {pre post : List TaskEvent} {bound e : TaskEvent}
    (h : SplitAt cfg taskId db b pre bound post) (hdb : WellRecorded rt cfg taskId db)
    {u v : WebhookUpdate} (hu : u.WellFormed) {task : Task} {prev : Option String}
    {d : WebhookDelivery} {now : Time} {eventId : UUID}
    (hcorrelate : correlate db u = .accepted task v prev) (htask : task.id = taskId)
    (he : e = updateEvent db d task v prev now eventId)
    (hes : gitHubEvents db' taskId = gitHubEvents db taskId ++ [e]) :
    SplitAt cfg taskId db' b pre bound (post ++ [e]) := by
  have hlatest := h.latestBinding hdb
  have hheadEq : ∀ sha, sameText (bound.payload.get "head_sha") (.str sha) =
      decide (b.headSha = sha) := by
    intro sha
    rw [h.records.2, bindingPayload_headSha, sameText_str]
  have hpayload : e.payload.get "head_sha" = .str v.headSha := by rw [he]; rfl
  have htype : e.eventType = v.eventType.value := by rw [he]; rfl
  refine ⟨by rw [hes, h.events, List.append_assoc, List.cons_append], h.records, ?_⟩
  refine h.since.concat (isBinding_eq_false_of_update htype) ?_ ?_
  · intro hhead hchanged
    rw [hpayload, Json.str.injEq] at hhead
    rw [htype, UpdateType.value_inj] at hchanged
    rcases correlate_accepted hcorrelate with ⟨rfl, -⟩ | ⟨hnone, hone, ⟨rfl, -⟩ | ⟨rfl, -⟩⟩
    · exact hu.eventType_ne hchanged
    · exact hu.eventType_ne hchanged
    · rw [candidates_true_eq_nil hone (htask ▸ hlatest), hheadEq, decide_eq_false_iff_not] at hnone
      exact hnone hhead.symm
  · rcases correlate_accepted hcorrelate with ⟨rfl, hone⟩ | ⟨-, -, ⟨rfl, heffective⟩ | ⟨rfl, -⟩⟩
    · left
      obtain ⟨bound', hbound', hbinds⟩ :=
        bindsUpdate_of_mem_candidates (hone ▸ List.mem_singleton_self task)
      rw [htask, hlatest, Option.some.injEq] at hbound'
      rw [bindsUpdate_true, ← hbound', hheadEq, Bool.and_eq_true, decide_eq_true_eq] at hbinds
      rw [hpayload, hbinds.2]
    · by_cases hchanges : post.filter (fun e => e.eventType = UpdateType.headChanged.value) = []
      · left
        have hhead := h.effective_of_head hdb hchanges
        rw [htask, hhead, Option.some.injEq] at heffective
        rw [hpayload, heffective]
      · right; right
        obtain ⟨a, ha⟩ := List.exists_mem_of_ne_nil _ hchanges
        exact ⟨a, List.mem_of_mem_filter ha, by simpa using (List.mem_filter.mp ha).2⟩
    · exact .inr (.inl (by rw [htype]; rfl))

theorem TaskRun.layout {condition : List Activity → Database → Activity → Prop}
    (h : TaskRun rt cfg taskId condition activities db) : Layout cfg taskId activities db := by
  induction h with
  | start h => exact ⟨fun _ => h, fun b asOf hbound => by simp [lastBound] at hbound⟩
  | @bind activities db db' arguments b id ids asOf hrun hcheck htask hcondition h ih =>
    refine ⟨fun hnone => by simp at hnone, fun c asOf' hbound => ?_⟩
    obtain ⟨rfl, rfl⟩ : b = c ∧ asOf = asOf' := by simpa using hbound
    rcases bindTransaction_append hcheck htask h with ⟨hsame, current, hcurrent, hequal⟩ |
      ⟨-, task, hid, hes⟩
    · -- The latest binding says the same already.
      cases hlast : lastBound activities with
      | none =>
        rw [latestBinding_eq, ih.unbound hlast] at hcurrent
        cases hcurrent
      | some p =>
        obtain ⟨b', pre, bound, post, hsplit, -, -⟩ := ih.bound p.1 p.2 hlast
        rw [hsplit.latestBinding hrun.wellRecorded, Option.some.injEq] at hcurrent
        obtain ⟨hnumber, hhead⟩ := bindingPayload_pyEq (hsplit.records.2 ▸ hcurrent ▸ hequal)
        exact ⟨b', pre, bound, post, ⟨hsame ▸ hsplit.events, hsplit.records, hsplit.since⟩,
          hnumber, hhead⟩
    · refine ⟨b, gitHubEvents db taskId, _, [], ⟨hes, ⟨rfl, ?_⟩, ?_⟩, rfl, rfl⟩
      · rw [← reviewStateCarryover_eq]
        rfl
      · exact ⟨by simp, .inr (by simp), by simp⟩
  | process hrun hupdate hcondition h ih =>
    have hstep := (processDelivery_ok h).2
    rw [hupdate] at hstep
    rcases hstep.append taskId with hsame | ⟨task, v, prev, d, now, eventId, hcorrelate, hid, -, -,
      hes⟩
    · refine ⟨fun hnone => ?_, fun b asOf hbound => ?_⟩
      · rw [hsame]
        exact ih.unbound (lastBound_processed.symm.trans hnone)
      · obtain ⟨b', pre, bound, post, hsplit, hrest⟩ :=
          ih.bound b asOf (lastBound_processed.symm.trans hbound)
        exact ⟨b', pre, bound, post, ⟨hsame ▸ hsplit.events, hsplit.records, hsplit.since⟩, hrest⟩
    · refine ⟨fun hnone => ?_, fun b asOf hbound => ?_⟩
      · obtain ⟨bound, hbound, -⟩ := bindsUpdate_of_accepted hcorrelate
        rw [hid, latestBinding_eq, ih.unbound (lastBound_processed.symm.trans hnone)] at hbound
        cases hbound
      · obtain ⟨b', pre, bound, post, hsplit, hrest⟩ :=
          ih.bound b asOf (lastBound_processed.symm.trans hbound)
        exact ⟨b', pre, bound, _, hsplit.append hrun.wellRecorded (processedUpdate_ok hupdate).1
          hcorrelate hid rfl hes, hrest⟩
  | other hrun h ih =>
    refine ⟨fun hnone => h ▸ ih.unbound hnone, fun b asOf hbound => ?_⟩
    obtain ⟨b', pre, bound, post, hsplit, hrest⟩ := ih.bound b asOf hbound
    exact ⟨b', pre, bound, post, ⟨h ▸ hsplit.events, hsplit.records, hsplit.since⟩, hrest⟩

end Runs

end ControlPlane
