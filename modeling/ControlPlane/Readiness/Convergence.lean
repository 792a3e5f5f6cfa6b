import ControlPlane.Lib.Register
import ControlPlane.Readiness.Reviews
import Mathlib.Data.List.Find

/-!
# Convergence of the projection

After a binding, updates for the bound head are processed in some order. What is recorded of
a resource is a register that only moves forward, so its last update is the newest one in
every order, and the facts derived from these are the same. Two folds look at more than the
last update of every resource: a comment does not replace an earlier verdict, and checks of
one name compete across suites.

## Main results

* `Processes.log`: what is recorded is the run of a register.
* `windowFacts_converge`
-/
namespace ControlPlane

open History

/-- Deliveries processed one after another. -/
inductive Processes (rt : Runtime) (cfg : GitHubAppConfiguration) (db : Database) :
    List WebhookUpdate → Database → Prop
  | nil : Processes rt cfg db [] db
  | concat {us : List WebhookUpdate} {u : WebhookUpdate} {db₁ db₂ : Database}
      {deliveryId eventId jobId : UUID} {now : Time} {r : IngestionResponse}
      (h : Processes rt cfg db us db₁) (hupdate : processedUpdate rt cfg db₁ deliveryId = some u)
      (hstep : processDelivery rt cfg db₁ deliveryId now eventId jobId = .ok (r, db₂)) :
      Processes rt cfg db (us ++ [u]) db₂

def resourceOf (u : WebhookUpdate) : ResourceType × String := (u.resourceType, u.resourceId)

/-- What is recorded of some updates, in the order in which they are processed. -/
noncomputable def recordedLog (rt : Runtime) (db : Database) (taskId : UUID)
    (us : List WebhookUpdate) : List WebhookUpdate :=
  Register.run resourceOf sourceRank (RecordedFor rt db taskId) us

/-- An event that records an update for a head. -/
structure RecordsAt (head : String) (u : WebhookUpdate) (e : TaskEvent) : Prop where
  records : Records u e
  wellFormed : u.WellFormed
  at_head : u.headSha = head

/-! ### Related lists -/

section Related
variable {α β γ : Type*} {R : α → β → Prop} {as : List α} {bs : List β}

theorem forall₂_filter {p : α → Bool} {q : β → Bool} (h : List.Forall₂ R as bs)
    (hpq : ∀ a b, R a b → p a = q b) : List.Forall₂ R (as.filter p) (bs.filter q) := by
  induction h with
  | nil => exact .nil
  | @cons a b as bs hab _ ih =>
    cases hp : p a with
    | true =>
      rw [List.filter_cons_of_pos hp, List.filter_cons_of_pos (hpq a b hab ▸ hp)]
      exact .cons hab ih
    | false =>
      rw [List.filter_cons_of_neg (by simp [hp]),
        List.filter_cons_of_neg (by simp [← hpq a b hab, hp])]
      exact ih

theorem forall₂_filterMap {f : α → Option γ} {g : β → Option γ} (h : List.Forall₂ R as bs)
    (hfg : ∀ a b, R a b → f a = g b) : as.filterMap f = bs.filterMap g := by
  induction h with
  | nil => rfl
  | @cons a b as bs hab _ ih => rw [List.filterMap_cons, List.filterMap_cons, hfg a b hab, ih]

theorem forall₂_mem_right (h : List.Forall₂ R as bs) {b : β} (hb : b ∈ bs) :
    ∃ a ∈ as, R a b := by
  induction h with
  | nil => cases hb
  | @cons a c as bs hac _ ih =>
    rcases List.mem_cons.mp hb with rfl | hb
    · exact ⟨a, List.mem_cons_self, hac⟩
    · obtain ⟨a', ha', hr⟩ := ih hb
      exact ⟨a', List.mem_cons_of_mem a ha', hr⟩

theorem forall₂_getLast? (h : List.Forall₂ R as bs) :
    (as.getLast? = none ∧ bs.getLast? = none) ∨
      ∃ a b, as.getLast? = some a ∧ bs.getLast? = some b ∧ R a b := by
  induction h with
  | nil => exact .inl ⟨rfl, rfl⟩
  | @cons a b as bs hab htail ih =>
    rcases ih with ⟨has, hbs⟩ | ⟨c, d, hc, hd, hcd⟩
    · exact .inr ⟨a, b, by simp [List.getLast?_cons, has], by simp [List.getLast?_cons, hbs], hab⟩
    · exact .inr ⟨c, d, by simp [List.getLast?_cons, hc], by simp [List.getLast?_cons, hd], hcd⟩

end Related

/-! ### What is recorded -/

section Recording
variable {rt : Runtime} {cfg : GitHubAppConfiguration} {db db₁ db₂ : Database} {taskId : UUID}
  {b : PullRequestBinding} {pre es : List TaskEvent} {bound : TaskEvent} {us : List WebhookUpdate}

theorem Recorded.latestBinding {u : WebhookUpdate} (h : Recorded rt db u db₁) (id : UUID) :
    latestBinding db₁ id = latestBinding db id := by
  rcases h.append id with hsame | ⟨task, v, prev, d, now, eventId, -, -, -, -, hes⟩
  · exact latestBinding_congr hsame
  · exact latestBinding_append_other hes (isBinding_eq_false_of_update rfl)

theorem bindingCandidates_congr {u : WebhookUpdate} {includeHead : Bool}
    (htasks : db₁.tasks = db.tasks)
    (hbindings : ∀ id, latestBinding db₁ id = latestBinding db id) :
    bindingCandidates db₁ u includeHead = bindingCandidates db u includeHead := by
  simp only [bindingCandidates, htasks, hbindings]

/-- Which events are of the resource of an update at its head. -/
theorem isResourceEvent_of_recordsAt {head : String} {u v : WebhookUpdate} {e : TaskEvent}
    (hu : u.WellFormed) (hhead : u.headSha = head) (h : RecordsAt head v e) :
    isResourceEvent u e = decide (resourceOf v = resourceOf u) := by
  obtain ⟨⟨htype, d, prev, hpayload⟩, hv, hvhead⟩ := h
  simp only [isResourceEvent, htype, hpayload, eventPayload_headSha, eventPayload_resourceType,
    eventPayload_resourceId, sameText_str, UpdateType.value_inj, ResourceType.value_inj,
    hvhead, hhead, decide_true, Bool.and_true, resourceOf, Prod.mk.injEq, Bool.decide_and]
  by_cases hkind : v.resourceType = u.resourceType
  · have hevents : v.eventType = u.eventType := by
      rw [hv.eventType_eq, hu.eventType_eq, hkind]
    simp [hkind, hevents]
  · simp [hkind]

theorem updatedAt_of_records {u : WebhookUpdate} {e : TaskEvent} (h : Records u e) :
    updatedAt rt e = .ok u.sourceUpdatedAt := by
  obtain ⟨-, d, prev, hpayload⟩ := h
  rw [updatedAt, hpayload, eventPayload_sourceUpdatedAt, parseTimestamp_isoTimestamp]

/-- The state of a run after a binding. -/
structure Recording (rt : Runtime) (cfg : GitHubAppConfiguration) (taskId : UUID) (db : Database)
    (b : PullRequestBinding) (pre : List TaskEvent) (bound : TaskEvent) (us : List WebhookUpdate)
    (db₁ : Database) (es : List TaskEvent) : Prop where
  split : SplitAt cfg taskId db₁ b pre bound es
  log : List.Forall₂ (RecordsAt b.headSha) (recordedLog rt db taskId us) es
  well : WellRecorded rt cfg taskId db₁
  tasks : db₁.tasks = db.tasks
  bindings : ∀ id, latestBinding db₁ id = latestBinding db id

theorem Recording.recordsAt (h : Recording rt cfg taskId db b pre bound us db₁ es) {e : TaskEvent}
    (he : e ∈ es) : ∃ u ∈ recordedLog rt db taskId us, RecordsAt b.headSha u e :=
  forall₂_mem_right h.log he

theorem Recording.effective (h : Recording rt cfg taskId db b pre bound us db₁ es) :
    effectiveTaskHead db₁ taskId = some b.headSha := by
  refine h.split.effective_of_head h.well (List.filter_eq_nil_iff.mpr fun e he htype => ?_)
  obtain ⟨u, -, hu⟩ := h.recordsAt he
  exact hu.wellFormed.eventType_ne (UpdateType.value_injective
    (hu.records.1.symm.trans (by simpa using htype)))

/-- Where the latest update of a resource is recorded. -/
theorem Recording.latestResourceEvent (h : Recording rt cfg taskId db b pre bound us db₁ es)
    (hstart : gitHubEvents db taskId = pre ++ [bound]) (hdb : WellRecorded rt cfg taskId db)
    (u : WebhookUpdate) :
    latestResourceEvent db₁ taskId u =
      ((es.filter (isResourceEvent u)).getLast?).or (latestResourceEvent db taskId u) := by
  have hevents : gitHubEvents db₁ taskId = gitHubEvents db taskId ++ es := by
    rw [h.split.events, hstart, List.append_assoc, List.singleton_append]
  rw [latestResourceEvent_eq, latestResourceEvent_eq,
    (h.well.increasing.filter _).latestBy_eq_getLast?,
    (hdb.increasing.filter _).latestBy_eq_getLast?, hevents, List.filter_append,
    List.getLast?_append]

/-- An update is newer than what is recorded when it was at the start and is newer than what
was recorded since. -/
theorem Recording.newer_iff (h : Recording rt cfg taskId db b pre bound us db₁ es)
    (hstart : gitHubEvents db taskId = pre ++ [bound]) (hdb : WellRecorded rt cfg taskId db)
    {u : WebhookUpdate} (hu : u.WellFormed) (hhead : u.headSha = b.headSha) :
    NewerThanRecorded rt db₁ taskId u ↔ NewerThanRecorded rt db taskId u ∧
      Register.Newer resourceOf sourceRank (recordedLog rt db taskId us) u := by
  have hrelated := forall₂_filter (p := fun v => decide (resourceOf v = resourceOf u))
    (q := isResourceEvent u) h.log fun v e hve =>
      (isResourceEvent_of_recordsAt hu hhead hve).symm
  have hnewer : NewerThanRecorded rt db₁ taskId u ↔
      ∀ previous ∈ ((es.filter (isResourceEvent u)).getLast?).or
        (ControlPlane.latestResourceEvent db taskId u), ∃ t, updatedAt rt previous = .ok t ∧
          t.val < u.sourceUpdatedAt.val := by
    rw [NewerThanRecorded, h.latestResourceEvent hstart hdb]
  rw [hnewer]
  rcases forall₂_getLast? hrelated with ⟨hnone, hnone'⟩ | ⟨v, e, hv, he, hve⟩
  · -- Nothing was recorded of the resource since.
    have hempty : ∀ v ∈ recordedLog rt db taskId us, resourceOf v ≠ resourceOf u := by
      intro v hv hkey
      have hmem : v ∈ (recordedLog rt db taskId us).filter fun v =>
          decide (resourceOf v = resourceOf u) := List.mem_filter.mpr ⟨hv, by simpa using hkey⟩
      rw [List.getLast?_eq_none_iff.mp hnone] at hmem
      cases hmem
    rw [hnone', Option.none_or]
    exact ⟨fun hnew => ⟨hnew, fun v hv hkey => absurd hkey (hempty v hv)⟩, fun hnew => hnew.1⟩
  · have hlast : Register.last resourceOf (recordedLog rt db taskId us) (resourceOf u) = some v := by
      rw [Register.last_eq]
      exact hv
    obtain ⟨hmem, hkey⟩ := Register.last_mem hlast
    have hadmissible : RecordedFor rt db taskId v := (Register.mem_of_mem_run hmem).2
    rw [he, Option.some_or]
    simp only [Option.mem_some_iff, forall_eq', updatedAt_of_records hve.records, Except.ok.injEq,
      exists_eq_left']
    constructor
    · intro hlt
      refine ⟨fun previous hprevious => ?_, fun w hw hwkey => ?_⟩
      · -- What was recorded before is older than the update recorded since.
        have hsame : isResourceEvent u = isResourceEvent v := by
          obtain ⟨hkind, hid⟩ := Prod.ext_iff.mp hkey
          have hevents : u.eventType = v.eventType := by
            rw [hu.eventType_eq, hve.wellFormed.eventType_eq]
            exact congrArg _ hkind.symm
          funext a
          simp only [isResourceEvent, hevents, hhead, hve.at_head,
            show u.resourceType = v.resourceType from hkind.symm,
            show u.resourceId = v.resourceId from hid.symm]
        have hprevious' : previous ∈ ControlPlane.latestResourceEvent db taskId v := by
          rw [ControlPlane.latestResourceEvent, ← hsame]
          exact hprevious
        obtain ⟨t, ht, htlt⟩ := hadmissible.newer previous hprevious'
        exact ⟨t, ht, htlt.trans hlt⟩
      · exact lt_of_le_of_lt (Register.le_last (Register.pairwise_run us) hlast hw hwkey) hlt
    · exact fun hnew => hnew.2 v hmem hkey

/-- One more update is recorded exactly when the register accepts it. -/
theorem Recording.step {u : WebhookUpdate} (h : Recording rt cfg taskId db b pre bound us db₁ es)
    (hstart : SplitAt cfg taskId db b pre bound []) (hdb : WellRecorded rt cfg taskId db)
    (hu : u.WellFormed) (hhead : u.headSha = b.headSha) (htasks : db₂.tasks = db₁.tasks)
    (hstep : Recorded rt db₁ u db₂) :
    ∃ es', Recording rt cfg taskId db b pre bound (us ++ [u]) db₂ es' := by
  have hevents : gitHubEvents db taskId = pre ++ [bound] := hstart.events
  have hcandidates : ∀ includeHead,
      bindingCandidates db₁ u includeHead = bindingCandidates db u includeHead :=
    fun includeHead => bindingCandidates_congr h.tasks h.bindings
  have hheads : effectiveTaskHead db₁ taskId = effectiveTaskHead db taskId :=
    h.effective.trans (hstart.effective_of_head hdb rfl).symm
  have hfor : RecordedFor rt db₁ taskId u ↔ RecordedFor rt db taskId u ∧
      Register.Newer resourceOf sourceRank (recordedLog rt db taskId us) u := by
    constructor
    · rintro ⟨hcorrelated, hnewer⟩
      rw [hcandidates, hcandidates, hheads] at hcorrelated
      obtain ⟨hnewer, hlog⟩ := (h.newer_iff hevents hdb hu hhead).mp hnewer
      exact ⟨⟨hcorrelated, hnewer⟩, hlog⟩
    · rintro ⟨⟨hcorrelated, hnewer⟩, hlog⟩
      rw [← hcandidates, ← hcandidates, ← hheads] at hcorrelated
      exact ⟨hcorrelated, (h.newer_iff hevents hdb hu hhead).mpr ⟨hnewer, hlog⟩⟩
  have hwell : WellRecorded rt cfg taskId db₂ := h.well.update_step hu hstep
  have hbindings : ∀ id, ControlPlane.latestBinding db₂ id = ControlPlane.latestBinding db id :=
    fun id => (hstep.latestBinding id).trans (h.bindings id)
  have hlog : recordedLog rt db taskId (us ++ [u]) = Register.accept resourceOf sourceRank
      (RecordedFor rt db taskId) (recordedLog rt db taskId us) u := Register.run_concat us u
  by_cases hrecorded : RecordedFor rt db₁ taskId u
  · obtain ⟨e, hrecords, hes⟩ := hrecorded.appended hstep
    refine ⟨es ++ [e], ?_, ?_, hwell, htasks.trans h.tasks, hbindings⟩
    · refine ⟨by rw [hes, h.split.events, List.append_assoc, List.cons_append],
        h.split.records, ?_⟩
      have hehead : e.payload.get "head_sha" = .str b.headSha := by
        obtain ⟨-, d, prev, hpayload⟩ := hrecords
        rw [hpayload, eventPayload_headSha, hhead]
      refine h.split.since.concat (isBinding_eq_false_of_update hrecords.1) (fun _ htype => ?_)
        (.inl hehead)
      exact hu.eventType_ne (UpdateType.value_injective (hrecords.1.symm.trans htype))
    · rw [hlog, Register.accept_of _ (hfor.mp hrecorded)]
      exact List.rel_append h.log (.cons ⟨hrecords, hu, hhead⟩ .nil)
  · have hsame : gitHubEvents db₂ taskId = gitHubEvents db₁ taskId := by
      rcases hstep.append taskId with hsame | ⟨task, v, prev, d, now, eventId, hcorrelate, htask,
        hlive, hnew, hes⟩
      · exact hsame
      · refine absurd ?_ hrecorded
        -- At the bound head an update is recorded as it is.
        rcases correlate_accepted hcorrelate with ⟨rfl, hone⟩ | ⟨hnone, hone, ⟨rfl, heffective⟩ |
          ⟨rfl, -, -, effective, heffective, hne⟩⟩
        · exact ⟨⟨task, htask, hlive, .inl hone⟩, hnew⟩
        · exact ⟨⟨task, htask, hlive, .inr ⟨hnone, hone, htask ▸ heffective⟩⟩, hnew⟩
        · rw [htask, h.effective, Option.some.injEq] at heffective
          exact absurd (hhead.trans heffective) hne
    refine ⟨es, ⟨hsame ▸ h.split.events, h.split.records, h.split.since⟩, ?_, hwell,
      htasks.trans h.tasks, hbindings⟩
    rw [hlog, Register.accept_of_not _ fun hboth => hrecorded (hfor.mpr hboth)]
    exact h.log

/-- What is recorded of the updates processed after a binding. -/
theorem Processes.recording (h : Processes rt cfg db us db₁)
    (hstart : SplitAt cfg taskId db b pre bound []) (hdb : WellRecorded rt cfg taskId db)
    (hheads : ∀ u ∈ us, u.headSha = b.headSha) :
    ∃ es, Recording rt cfg taskId db b pre bound us db₁ es := by
  induction h with
  | nil => exact ⟨[], hstart, .nil, hdb, rfl, fun _ => rfl⟩
  | concat h hupdate hstep ih =>
    obtain ⟨es, hrecording⟩ := ih fun u hu => hheads u (List.mem_append_left _ hu)
    obtain ⟨htasks, hrecorded⟩ := processDelivery_ok hstep
    rw [hupdate] at hrecorded
    exact hrecording.step hstart hdb (processedUpdate_ok hupdate).1
      (hheads _ (List.mem_append_right _ (List.mem_singleton_self _))) htasks hrecorded

end Recording

/-! ### The last update of a resource -/

section Last
variable {rt : Runtime} {cfg : GitHubAppConfiguration} {db db₁ : Database} {taskId : UUID}
  {b : PullRequestBinding} {pre es : List TaskEvent} {bound : TaskEvent} {us : List WebhookUpdate}

/-- The last update recorded of a resource. -/
noncomputable def lastUpdate (rt : Runtime) (db : Database) (taskId : UUID)
    (us : List WebhookUpdate) (kind : ResourceType) (id : String) : Option WebhookUpdate :=
  Register.last resourceOf (recordedLog rt db taskId us) (kind, id)

theorem get?_latestUpdates {key : ResourceKey} (hkind : key.1 ≠ some ResourceType.review.value) :
    (latestUpdates es).get? key = (es.filter fun e => resourceKey e = key).getLast? := by
  have hfold : ∀ latest : Dict ResourceKey TaskEvent, (es.foldl addLatest latest).get? key =
      ((es.filter fun e => resourceKey e = key).getLast?).or (latest.get? key) := by
    induction es with
    | nil => exact fun latest => rfl
    | cons e es ih =>
      intro latest
      rw [List.foldl_cons, ih, addLatest_get?_of_not_review latest e hkind]
      by_cases hkey : resourceKey e = key
      · rw [List.filter_cons_of_pos (by simpa using hkey), List.getLast?_cons, if_pos hkey.symm]
        cases (es.filter fun e => resourceKey e = key).getLast? <;> rfl
      · rw [List.filter_cons_of_neg (by simpa using hkey), if_neg fun h => hkey h.symm]
  rw [latestUpdates, hfold]
  exact Option.or_none

theorem RecordsAt.resourceKey_eq {head : String} {u : WebhookUpdate} {e : TaskEvent}
    (h : RecordsAt head u e) (kind : ResourceType) (id : String) :
    decide (resourceKey e = (some kind.value, some id)) = decide (resourceOf u = (kind, id)) := by
  rw [h.records.resourceKey]
  simp [resourceOf]

/-- The latest event of a resource records its last update. -/
theorem Recording.latest (h : Recording rt cfg taskId db b pre bound us db₁ es)
    (kind : ResourceType) (hkind : kind ≠ .review) (id : String) :
    (lastUpdate rt db taskId us kind id = none ∧
        (latestUpdates es).get? (some kind.value, some id) = none) ∨
      ∃ u e, lastUpdate rt db taskId us kind id = some u ∧
        (latestUpdates es).get? (some kind.value, some id) = some e ∧
        RecordsAt b.headSha u e := by
  have hkey : (some kind.value, some id).1 ≠ some ResourceType.review.value := by
    simpa using hkind
  rw [get?_latestUpdates hkey, lastUpdate, Register.last_eq]
  exact forall₂_getLast? (forall₂_filter h.log fun u e hue => (hue.resourceKey_eq kind id).symm)

/-- Every entry but a review is the latest event of a resource. -/
theorem Recording.entry (h : Recording rt cfg taskId db b pre bound us db₁ es) {key : ResourceKey}
    {e : TaskEvent} (he : (latestUpdates es).get? key = some e)
    (hkey : key.1 ≠ some ResourceType.review.value) :
    ∃ u, key = (some u.resourceType.value, some u.resourceId) ∧
      lastUpdate rt db taskId us u.resourceType u.resourceId = some u ∧
      RecordsAt b.headSha u e := by
  have hmem := he
  rw [get?_latestUpdates hkey] at hmem
  obtain ⟨hes, heq⟩ := List.mem_filter.mp (List.mem_of_getLast? hmem)
  obtain ⟨v, -, hv⟩ := h.recordsAt hes
  have hkeyEq : key = (some v.resourceType.value, some v.resourceId) := by
    rw [← hv.records.resourceKey]
    simpa using (of_decide_eq_true heq).symm
  have hkind : v.resourceType ≠ .review := by
    intro hreview
    rw [hkeyEq, hreview] at hkey
    exact hkey rfl
  rcases h.latest v.resourceType hkind v.resourceId with ⟨-, hnone⟩ | ⟨u, e', hu, he', hrecords⟩
  · rw [← hkeyEq, he] at hnone
    cases hnone
  · rw [← hkeyEq, he, Option.some.injEq] at he'
    subst he'
    obtain ⟨-, hresource⟩ := Register.last_mem hu
    obtain ⟨hkind', hid⟩ := Prod.ext_iff.mp hresource
    change u.resourceType = v.resourceType at hkind'
    change u.resourceId = v.resourceId at hid
    exact ⟨u, by rw [hkind', hid]; exact hkeyEq, by rw [hkind', hid]; exact hu, hrecords⟩

/-- What is last for a reviewer decides the verdict, unless it is a comment. -/
theorem Recording.verdict_cases (h : Recording rt cfg taskId db b pre bound us db₁ es) (id : String) :
    match lastUpdate rt db taskId us .review id with
    | none => verdict es id = none
    | some u =>
      if u.state = "COMMENTED" then
        ∀ state, verdict es id = some state → ∃ v ∈ recordedLog rt db taskId us,
          resourceOf v = (.review, id) ∧ v.state = state ∧ state ≠ "COMMENTED"
      else verdict es id = some u.state := by
  have hverdict : verdict es id =
      ((recordedLog rt db taskId us).filterMap (WebhookUpdate.verdict id)).getLast? := by
    rw [verdict, forall₂_filterMap h.log fun u e hue => (hue.records.verdict_eq id).symm]
  have hsource : ∀ v state, v.verdict id = some state →
      resourceOf v = (.review, id) ∧ v.state = state ∧ state ≠ "COMMENTED" := by
    intro v state hv
    unfold WebhookUpdate.verdict at hv
    split at hv
    · rename_i hkind
      obtain rfl := Option.some.inj hv
      exact ⟨by rw [resourceOf, hkind.1, hkind.2.1], rfl, hkind.2.2⟩
    · cases hv
  have hfrom : ∀ state, verdict es id = some state → ∃ v ∈ recordedLog rt db taskId us,
      resourceOf v = (.review, id) ∧ v.state = state ∧ state ≠ "COMMENTED" := by
    intro state hstate
    rw [hverdict] at hstate
    obtain ⟨v, hv, hvstate⟩ := List.mem_filterMap.mp (List.mem_of_getLast? hstate)
    exact ⟨v, hv, hsource v state hvstate⟩
  cases hlast : lastUpdate rt db taskId us .review id with
  | none =>
    cases hstate : verdict es id with
    | none => rfl
    | some state =>
      obtain ⟨v, hv, hresource, -⟩ := hfrom state hstate
      exact absurd hresource (Register.last_eq_none.mp hlast v hv)
  | some u =>
    by_cases hcomment : u.state = "COMMENTED"
    · simp only [hcomment, if_true]
      exact hfrom
    · simp only [hcomment, if_false]
      rw [lastUpdate, Register.last_eq] at hlast
      obtain ⟨init, hinit⟩ := List.getLast?_eq_some_iff.mp hlast
      have hfilter : (recordedLog rt db taskId us).filterMap (WebhookUpdate.verdict id) =
          ((recordedLog rt db taskId us).filter fun v =>
            decide (resourceOf v = (.review, id))).filterMap (WebhookUpdate.verdict id) := by
        rw [List.filterMap_filter]
        refine List.filterMap_congr fun v _ => ?_
        by_cases hresource : resourceOf v = (.review, id)
        · simp [hresource]
        · cases hv : v.verdict id with
          | none => simp [hresource]
          | some state => exact absurd (hsource v state hv).1 hresource
      have hresource : resourceOf u = (.review, id) := by
        have hmem := List.mem_of_getLast? hlast
        simpa using (List.mem_filter.mp hmem).2
      have hu : u.verdict id = some u.state := by
        obtain ⟨hkind, hid⟩ := Prod.ext_iff.mp hresource
        exact if_pos ⟨hkind, hid, hcomment⟩
      rw [hverdict, hfilter, hinit, List.filterMap_append, List.getLast?_append]
      simp [hu]

theorem Recording.state_isSome (h : Recording rt cfg taskId db b pre bound us db₁ es) :
    ∀ e ∈ es, (eventState e).isSome := by
  intro e he
  obtain ⟨u, -, hu⟩ := h.recordsAt he
  simp [hu.records.eventState]

theorem Recording.threadState_eq (h : Recording rt cfg taskId db b pre bound us db₁ es)
    (id : String) :
    threadState es id = (lastUpdate rt db taskId us .reviewThread id).map WebhookUpdate.state := by
  rw [← stateAt_threadKey id h.state_isSome, stateAt]
  rcases h.latest .reviewThread (by decide) id with ⟨hlast, hget⟩ | ⟨u, e, hlast, hget, hue⟩
  · rw [hlast, threadKey, hget]
    rfl
  · rw [hlast, threadKey, hget, Option.bind_some, hue.records.eventState]
    rfl

end Last

/-! ### Checks of one name -/

section Checks
variable {rt : Runtime}

/-- An entry of the latest updates for a check of some name. -/
def IsCheck (name : String) (entry : ResourceKey × TaskEvent) : Prop :=
  entry.1.1 = some ResourceType.checkRun.value ∧
    entry.2.payload.get "resource_label" = .str name

theorem moreRecent_le {a b : TaskEvent} (h : moreRecent rt a b = true) :
    sourceTime rt b ≤ sourceTime rt a := by
  simp only [moreRecent, Bool.or_eq_true, Bool.and_eq_true, decide_eq_true_eq] at h
  omega

theorem le_of_not_moreRecent {a b : TaskEvent} (h : moreRecent rt a b = false) :
    sourceTime rt a ≤ sourceTime rt b := by
  simp only [moreRecent, Bool.or_eq_false_iff, decide_eq_false_iff_not] at h
  omega

theorem addCheck_of_not_isCheck {checks : Dict String TaskEvent}
    {entry : ResourceKey × TaskEvent} {name : String} (h : ¬ IsCheck name entry) :
    (addCheck rt checks entry).get? name = checks.get? name := by
  unfold addCheck
  split
  · rename_i label hkind hlabel
    have hne : ¬ name = label := fun heq => h ⟨hkind, by rw [hlabel, heq]⟩
    split
    · rw [Dict.get?_set, if_neg hne]
    · rfl
  · rfl

theorem addCheck_of_isCheck {checks : Dict String TaskEvent} {entry : ResourceKey × TaskEvent}
    {name : String} (h : IsCheck name entry) :
    (addCheck rt checks entry).get? name =
      if (checks.get? name).all (moreRecent rt entry.2) then some entry.2
      else checks.get? name := by
  obtain ⟨⟨kind, id⟩, e⟩ := entry
  obtain ⟨hkind, hlabel⟩ := h
  change kind = some "check_run" at hkind
  change e.payload.get "resource_label" = .str name at hlabel
  subst hkind
  simp only [addCheck, hlabel]
  split
  · rw [Dict.get?_set, if_pos rfl]
  · rfl

/-- The check kept for a name is among the entries and none of them is later. -/
theorem foldl_addCheck_spec (rt : Runtime) (entries : List (ResourceKey × TaskEvent))
    (checks : Dict String TaskEvent) (name : String) :
    match (entries.foldl (addCheck rt) checks).get? name with
    | none => checks.get? name = none ∧ ∀ entry ∈ entries, ¬ IsCheck name entry
    | some e =>
      (checks.get? name = some e ∨ ∃ entry ∈ entries, IsCheck name entry ∧ entry.2 = e) ∧
        (∀ previous ∈ checks.get? name, sourceTime rt previous ≤ sourceTime rt e) ∧
        ∀ entry ∈ entries, IsCheck name entry → sourceTime rt entry.2 ≤ sourceTime rt e := by
  induction entries generalizing checks with
  | nil =>
    rw [List.foldl_nil]
    cases hget : checks.get? name with
    | none => exact ⟨rfl, by simp⟩
    | some e => exact ⟨.inl rfl, by simp, by simp⟩
  | cons entry entries ih =>
    have ih := ih (addCheck rt checks entry)
    rw [List.foldl_cons]
    -- What one more entry does to the check kept so far.
    have hkept : ∀ previous ∈ checks.get? name,
        ∃ kept, (addCheck rt checks entry).get? name = some kept ∧
          sourceTime rt previous ≤ sourceTime rt kept := by
      intro previous hprevious
      by_cases hcheck : IsCheck name entry
      · rw [addCheck_of_isCheck hcheck, hprevious, Option.all_some]
        cases hmore : moreRecent rt entry.2 previous with
        | true => exact ⟨entry.2, rfl, moreRecent_le hmore⟩
        | false => exact ⟨previous, rfl, le_rfl⟩
      · exact ⟨previous, (addCheck_of_not_isCheck hcheck).trans hprevious, le_rfl⟩
    have hadded : IsCheck name entry → ∃ kept, (addCheck rt checks entry).get? name = some kept ∧
        sourceTime rt entry.2 ≤ sourceTime rt kept := by
      intro hcheck
      rw [addCheck_of_isCheck hcheck]
      cases hget : checks.get? name with
      | none => exact ⟨entry.2, rfl, le_rfl⟩
      | some previous =>
        rw [Option.all_some]
        cases hmore : moreRecent rt entry.2 previous with
        | true => exact ⟨entry.2, rfl, le_rfl⟩
        | false => exact ⟨previous, rfl, le_of_not_moreRecent hmore⟩
    have horigin : ∀ kept, (addCheck rt checks entry).get? name = some kept →
        checks.get? name = some kept ∨ (IsCheck name entry ∧ entry.2 = kept) := by
      intro kept hget
      by_cases hcheck : IsCheck name entry
      · rw [addCheck_of_isCheck hcheck] at hget
        split at hget
        · exact .inr ⟨hcheck, Option.some.inj hget⟩
        · exact .inl hget
      · rw [addCheck_of_not_isCheck hcheck] at hget
        exact .inl hget
    cases hget : (entries.foldl (addCheck rt) (addCheck rt checks entry)).get? name with
    | none =>
      simp only [hget] at ih
      refine ⟨?_, ?_⟩
      · cases hprevious : checks.get? name with
        | none => rfl
        | some previous =>
          obtain ⟨kept, hsome, -⟩ := hkept previous hprevious
          rw [ih.1] at hsome
          cases hsome
      · intro a ha hcheck
        rcases List.mem_cons.mp ha with rfl | ha
        · obtain ⟨kept, hsome, -⟩ := hadded hcheck
          rw [ih.1] at hsome
          cases hsome
        · exact ih.2 a ha hcheck
    | some e =>
      simp only [hget] at ih
      obtain ⟨hsource, hprevious, hentries⟩ := ih
      refine ⟨?_, fun previous hmem => ?_, fun a ha hcheck => ?_⟩
      · rcases hsource with hsome | ⟨a, ha, hcheck, rfl⟩
        · rcases horigin e hsome with hsame | ⟨hcheck, rfl⟩
          · exact .inl hsame
          · exact .inr ⟨entry, List.mem_cons_self, hcheck, rfl⟩
        · exact .inr ⟨a, List.mem_cons_of_mem entry ha, hcheck, rfl⟩
      · obtain ⟨kept, hsome, hle⟩ := hkept previous hmem
        exact hle.trans (hprevious kept hsome)
      · rcases List.mem_cons.mp ha with rfl | ha
        · obtain ⟨kept, hsome, hle⟩ := hadded hcheck
          exact hle.trans (hprevious kept hsome)
        · exact hentries a ha hcheck

theorem sourceTime_of_records {u : WebhookUpdate} {e : TaskEvent} (h : Records u e) :
    sourceTime rt e = sourceRank u := by
  obtain ⟨-, d, prev, hpayload⟩ := h
  simp only [sourceTime, hpayload, eventPayload_sourceUpdatedAt, rt.fromIsoformat_isoTimestamp]
  rfl

variable {cfg : GitHubAppConfiguration} {db db₁ : Database} {taskId : UUID}
  {b : PullRequestBinding} {pre es : List TaskEvent} {bound : TaskEvent} {us : List WebhookUpdate}

/-- A check run that is the last update of its resource. -/
structure LastCheck (rt : Runtime) (db : Database) (taskId : UUID) (us : List WebhookUpdate)
    (name : String) (u : WebhookUpdate) : Prop where
  kind : u.resourceType = .checkRun
  label : u.resourceLabel = name
  last : lastUpdate rt db taskId us .checkRun u.resourceId = some u

theorem Recording.isCheck_of_lastCheck (h : Recording rt cfg taskId db b pre bound us db₁ es)
    {name : String} {u : WebhookUpdate} (hu : LastCheck rt db taskId us name u) :
    ∃ entry ∈ (latestUpdates es).entries, IsCheck name entry ∧ Records u entry.2 := by
  rcases h.latest .checkRun (by decide) u.resourceId with ⟨hnone, -⟩ |
    ⟨v, e, hv, he, hve⟩
  · rw [hu.last] at hnone
    cases hnone
  · obtain rfl : v = u := Option.some.inj (hv.symm.trans hu.last)
    refine ⟨_, Dict.get?_eq_some.mp he, ⟨rfl, ?_⟩, hve.records⟩
    obtain ⟨-, d, prev, hpayload⟩ := hve.records
    change e.payload.get "resource_label" = .str name
    rw [hpayload, eventPayload_resourceLabel, hu.label]

theorem Recording.lastCheck_of_isCheck (h : Recording rt cfg taskId db b pre bound us db₁ es)
    {name : String} {entry : ResourceKey × TaskEvent} (hentry : entry ∈ (latestUpdates es).entries)
    (hcheck : IsCheck name entry) :
    ∃ u, LastCheck rt db taskId us name u ∧ Records u entry.2 := by
  have hkey : entry.1.1 ≠ some ResourceType.review.value := by
    rw [hcheck.1]
    decide
  obtain ⟨u, hkeyEq, hlast, hue⟩ := h.entry (Dict.get?_eq_some.mpr hentry) hkey
  have hkind : u.resourceType = .checkRun := by
    have hkinds := hcheck.1
    rw [hkeyEq, Option.some.injEq, ResourceType.value_inj] at hkinds
    exact hkinds
  have hlabel : u.resourceLabel = name := by
    obtain ⟨-, d, prev, hpayload⟩ := hue.records
    have hnamed := hcheck.2
    rw [hpayload, eventPayload_resourceLabel, Json.str.injEq] at hnamed
    exact hnamed
  exact ⟨u, ⟨hkind, hlabel, hkind ▸ hlast⟩, hue.records⟩

/-- The check kept for a name is the newest of the last updates of that name. -/
theorem Recording.check (h : Recording rt cfg taskId db b pre bound us db₁ es) (name : String) :
    match (checkEvents rt (latestUpdates es)).get? name with
    | none => ∀ u, ¬ LastCheck rt db taskId us name u
    | some e => ∃ u, LastCheck rt db taskId us name u ∧ Records u e ∧
        ∀ v, LastCheck rt db taskId us name v → sourceRank v ≤ sourceRank u := by
  have hspec := foldl_addCheck_spec rt (latestUpdates es).entries .empty name
  cases hget : (checkEvents rt (latestUpdates es)).get? name with
  | none =>
    rw [checkEvents] at hget
    simp only [hget] at hspec
    intro u hu
    obtain ⟨entry, hentry, hcheck, -⟩ := h.isCheck_of_lastCheck hu
    exact hspec.2 entry hentry hcheck
  | some e =>
    rw [checkEvents] at hget
    simp only [hget] at hspec
    obtain ⟨hsource, -, hmax⟩ := hspec
    obtain ⟨entry, hentry, hcheck, rfl⟩ := hsource.resolve_left (by simp)
    obtain ⟨u, hu, hrecords⟩ := h.lastCheck_of_isCheck hentry hcheck
    refine ⟨u, hu, hrecords, fun v hv => ?_⟩
    obtain ⟨entry', hentry', hcheck', hrecords'⟩ := h.isCheck_of_lastCheck hv
    have hle := hmax entry' hentry' hcheck'
    rwa [sourceTime_of_records hrecords, sourceTime_of_records hrecords'] at hle

/-- There is one pull request among the latest updates. -/
theorem Recording.pullRequest (h : Recording rt cfg taskId db b pre bound us db₁ es) :
    ((latestUpdates es).entries.find? fun entry =>
        entry.1.1 = some ResourceType.pullRequest.value).map Prod.snd =
      (latestUpdates es).get?
        (some ResourceType.pullRequest.value, some (toString b.pullRequestNumber)) := by
  rw [Dict.get?]
  congr 1
  refine List.find?_congr fun entry hentry => ?_
  by_cases hkind : entry.1.1 = some ResourceType.pullRequest.value
  · have hkey : entry.1.1 ≠ some ResourceType.review.value := by
      rw [hkind]
      decide
    obtain ⟨u, hkeyEq, -, hue⟩ := h.entry (Dict.get?_eq_some.mpr hentry) hkey
    have hresource : u.resourceType = .pullRequest := by
      rw [hkeyEq, Option.some.injEq, ResourceType.value_inj] at hkind
      exact hkind
    have hes : entry.2 ∈ es := by
      have hget := Dict.get?_eq_some.mpr hentry
      rw [get?_latestUpdates hkey] at hget
      exact List.mem_of_mem_filter (List.mem_of_getLast? hget)
    -- What was recorded since the binding is about its pull request.
    have hnumber : u.pullRequestNumber = b.pullRequestNumber := by
      obtain ⟨hsame, -⟩ := h.well.concerns bound (h.split.latestBinding h.well) entry.2
        (h.split.mem_post hes) (h.split.sequence_post h.well hes)
      obtain ⟨-, d, prev, hpayload⟩ := hue.records
      rw [hpayload, eventPayload_number, h.split.records.2, bindingPayload_number, sameInt_int,
        decide_eq_true_eq] at hsame
      exact hsame
    have hid : u.resourceId = toString b.pullRequestNumber := by
      rw [hue.wellFormed.pullRequest_id hresource, hnumber]
    simp [hkeyEq, hresource, hid]
  · have hne : entry.1 ≠
        (some ResourceType.pullRequest.value, some (toString b.pullRequestNumber)) := by
      intro heq
      exact hkind (by rw [heq])
    rw [decide_eq_false hkind, decide_eq_false hne]

end Checks

/-! ### Two orders -/

/-- The newest of the updates of a resource that can be recorded. -/
structure NewestOfResource (rt : Runtime) (db : Database) (taskId : UUID) (us : List WebhookUpdate)
    (u : WebhookUpdate) : Prop where
  mem : u ∈ us
  recordable : RecordedFor rt db taskId u
  newest : ∀ v ∈ us, RecordedFor rt db taskId v → resourceOf v = resourceOf u →
    sourceRank v ≤ sourceRank u

/-- When the order does not matter. Where the newest review of a reviewer is a comment, the
verdicts before it say what is known already; and where the newest runs of a required check
in several suites are of the same time, they have the same state. -/
structure Convergent (rt : Runtime) (db : Database) (taskId : UUID) (us : List WebhookUpdate) :
    Prop where
  reviews : ∀ u, NewestOfResource rt db taskId us u → u.resourceType = .review →
    u.state = "COMMENTED" → ∀ v ∈ us, RecordedFor rt db taskId v → resourceOf v = resourceOf u →
      v.state ≠ "COMMENTED" → (v.state = "CHANGES_REQUESTED" ↔
        verdict (gitHubEvents db taskId) u.resourceId = some "CHANGES_REQUESTED")
  checks : ∀ u v, NewestOfResource rt db taskId us u → NewestOfResource rt db taskId us v →
    u.resourceType = .checkRun → v.resourceType = .checkRun → u.resourceLabel = v.resourceLabel →
    u.resourceLabel ∈ (githubFacts rt (assessedEvents db taskId)).requiredChecks →
    sourceRank u = sourceRank v →
    (∀ w, NewestOfResource rt db taskId us w → w.resourceType = .checkRun →
      w.resourceLabel = u.resourceLabel → sourceRank w ≤ sourceRank u) →
    u.state = v.state

/-- Updates of one resource have distinct source times. -/
def DistinctTimes (us : List WebhookUpdate) : Prop :=
  ∀ u ∈ us, ∀ v ∈ us, resourceOf u = resourceOf v → sourceRank u = sourceRank v → u = v

instance (us : List WebhookUpdate) : Decidable (DistinctTimes us) :=
  inferInstanceAs (Decidable (∀ u ∈ us, ∀ v ∈ us, resourceOf u = resourceOf v →
    sourceRank u = sourceRank v → u = v))

/-- The facts but for the identifiers of the events that record comments. -/
def GitHubFacts.withoutComments (facts : GitHubFacts) : GitHubFacts :=
  { facts with openReviewEventIds := [] }

section Orders
variable {rt : Runtime} {cfg : GitHubAppConfiguration} {db db₁ db₂ : Database} {taskId : UUID}
  {b : PullRequestBinding} {pre es₁ es₂ : List TaskEvent} {bound : TaskEvent}
  {us₁ us₂ : List WebhookUpdate}

theorem lastUpdate_newest {kind : ResourceType} {id : String} {u : WebhookUpdate}
    (h : lastUpdate rt db taskId us₁ kind id = some u) :
    NewestOfResource rt db taskId us₁ u ∧ resourceOf u = (kind, id) := by
  obtain ⟨hmem, hrecorded, hkey, hmax⟩ := Register.last_spec h
  exact ⟨⟨hmem, hrecorded, fun v hv hvr hvk => hmax v hv hvr (hvk.trans hkey)⟩, hkey⟩

theorem lastUpdate_of_newest (hdistinct : DistinctTimes us₁) {u : WebhookUpdate}
    (h : NewestOfResource rt db taskId us₁ u) :
    lastUpdate rt db taskId us₁ u.resourceType u.resourceId = some u := by
  cases hlast : lastUpdate rt db taskId us₁ u.resourceType u.resourceId with
  | none => exact absurd rfl (Register.last_run_eq_none.mp hlast u h.mem h.recordable)
  | some v =>
    obtain ⟨hv, hkey⟩ := lastUpdate_newest hlast
    have htime : sourceRank v = sourceRank u :=
      le_antisymm (h.newest v hv.mem hv.recordable hkey) (hv.newest u h.mem h.recordable hkey.symm)
    rw [hdistinct v hv.mem u h.mem hkey htime]

theorem lastUpdate_perm (hperm : us₁.Perm us₂) (hdistinct : DistinctTimes us₁) :
    lastUpdate rt db taskId us₁ = lastUpdate rt db taskId us₂ := by
  funext kind id
  exact Register.last_perm hperm hdistinct (kind, id)

/-- The verdict of a reviewer blocks after one order as after the other. -/
theorem Recording.verdict_iff (h : Recording rt cfg taskId db b pre bound us₁ db₁ es₁)
    (hstart : gitHubEvents db taskId = pre ++ [bound]) (hdb : WellRecorded rt cfg taskId db)
    (hconv : Convergent rt db taskId us₁) {binding : BindingFacts}
    (hcarried : binding.carriedReviews = (reviewStatesAfter pre).blockingReviews) (id : String) :
    currentVerdict binding es₁ id = some "CHANGES_REQUESTED" ↔
      match lastUpdate rt db taskId us₁ .review id with
      | none => id ∈ binding.carriedReviews
      | some u =>
        if u.state = "COMMENTED" then id ∈ binding.carriedReviews
        else u.state = "CHANGES_REQUESTED" := by
  have hpre : ReviewsTyped pre := hdb.reviewsTyped.of_subset (by
    rw [hstart]
    exact List.subset_append_left _ _)
  have hrecorded : id ∈ binding.carriedReviews ↔
      verdict (gitHubEvents db taskId) id = some "CHANGES_REQUESTED" := by
    have hbound : verdict [bound] id = none := by
      simp [verdict, resourceState, ResourceState.verdict, h.split.records.resourceKey, reviewKey]
    rw [hcarried, mem_blockingReviews hpre, hstart, verdict_append, hbound, Option.none_or]
  have hcases := h.verdict_cases id
  unfold currentVerdict
  cases hlast : lastUpdate rt db taskId us₁ .review id with
  | none =>
    simp only [hlast] at hcases ⊢
    rw [hcases, Option.none_or]
    simp
  | some u =>
    obtain ⟨hnewest, hresource⟩ := lastUpdate_newest hlast
    obtain ⟨hkind, hid⟩ := Prod.ext_iff.mp hresource
    change u.resourceType = .review at hkind
    change u.resourceId = id at hid
    by_cases hcomment : u.state = "COMMENTED"
    · simp only [hlast, hcomment, if_true] at hcases ⊢
      cases hstate : verdict es₁ id with
      | none => simp
      | some state =>
        obtain ⟨v, hv, hvresource, hvstate, hne⟩ := hcases state hstate
        obtain ⟨hmem, hvrecorded⟩ := Register.mem_of_mem_run hv
        have hknown := hconv.reviews u hnewest hkind hcomment v hmem hvrecorded
          (hvresource.trans hresource.symm) (hvstate ▸ hne)
        rw [hvstate, hid] at hknown
        rw [Option.some_or, Option.some.injEq, hknown, hrecorded]
    · simp only [hlast, hcomment, if_false] at hcases ⊢
      rw [hcases, Option.some_or, Option.some.injEq]

/-- A required check has the same state after both orders. -/
theorem check_state_converges (h₁ : Recording rt cfg taskId db b pre bound us₁ db₁ es₁)
    (h₂ : Recording rt cfg taskId db b pre bound us₂ db₂ es₂) (hperm : us₁.Perm us₂)
    (hdistinct : DistinctTimes us₁) (hconv : Convergent rt db taskId us₁) {name : String}
    (hname : name ∈ (githubFacts rt (assessedEvents db taskId)).requiredChecks) :
    ((checkEvents rt (latestUpdates es₁)).get? name).map eventState =
      ((checkEvents rt (latestUpdates es₂)).get? name).map eventState := by
  have hlast : ∀ u, LastCheck rt db taskId us₂ name u ↔ LastCheck rt db taskId us₁ name u := by
    intro u
    constructor
    · rintro ⟨hkind, hlabel, hu⟩
      exact ⟨hkind, hlabel, by rw [lastUpdate_perm hperm hdistinct]; exact hu⟩
    · rintro ⟨hkind, hlabel, hu⟩
      exact ⟨hkind, hlabel, by rw [← lastUpdate_perm hperm hdistinct]; exact hu⟩
  have hspec₁ := h₁.check name
  have hspec₂ := h₂.check name
  cases hget₁ : (checkEvents rt (latestUpdates es₁)).get? name with
  | none =>
    cases hget₂ : (checkEvents rt (latestUpdates es₂)).get? name with
    | none => rfl
    | some e₂ =>
      simp only [hget₁] at hspec₁
      simp only [hget₂] at hspec₂
      obtain ⟨u, hu, -⟩ := hspec₂
      exact absurd ((hlast u).mp hu) (hspec₁ u)
  | some e₁ =>
    simp only [hget₁] at hspec₁
    obtain ⟨u, hu, hue, humax⟩ := hspec₁
    cases hget₂ : (checkEvents rt (latestUpdates es₂)).get? name with
    | none =>
      simp only [hget₂] at hspec₂
      exact absurd ((hlast u).mpr hu) (hspec₂ u)
    | some e₂ =>
      simp only [hget₂] at hspec₂
      obtain ⟨v, hv, hve, hvmax⟩ := hspec₂
      have hv₁ := (hlast v).mp hv
      have htime : sourceRank u = sourceRank v :=
        le_antisymm (hvmax u ((hlast u).mpr hu)) (humax v hv₁)
      have hstate : u.state = v.state := by
        refine hconv.checks u v (lastUpdate_newest hu.last).1 (lastUpdate_newest hv₁.last).1
          hu.kind hv₁.kind (hu.label.trans hv₁.label.symm) (hu.label ▸ hname) htime ?_
        intro w hw hwkind hwlabel
        refine humax w ⟨hwkind, hwlabel.trans hu.label, ?_⟩
        have hwlast := lastUpdate_of_newest hdistinct hw
        rwa [hwkind] at hwlast
      rw [Option.map_some, Option.map_some, hue.eventState, hve.eventState, hstate]

/-- The facts but for the comments depend on the checks, the verdicts, the threads and the
pull request that the window ends with. -/
theorem windowFacts_congr {w₁ w₂ : ProjectionWindow} {events₁ events₂ : List TaskEvent}
    (hbinding : w₁.binding = w₂.binding) (hhead : w₁.head = w₂.head)
    (hes₁ : events₁.filter w₁.covers = es₁) (hes₂ : events₂.filter w₂.covers = es₂)
    (hstate₁ : ∀ e ∈ es₁, (eventState e).isSome) (hstate₂ : ∀ e ∈ es₂, (eventState e).isSome)
    (hchecks : ∀ name ∈ w₁.binding.requiredChecks,
      ((checkEvents rt (latestUpdates es₁)).get? name).map eventState =
        ((checkEvents rt (latestUpdates es₂)).get? name).map eventState)
    (hreviews : ∀ id, currentVerdict w₁.binding es₁ id = some "CHANGES_REQUESTED" ↔
      currentVerdict w₁.binding es₂ id = some "CHANGES_REQUESTED")
    (hthreads : ∀ id, currentThread w₁.binding es₁ id = currentThread w₁.binding es₂ id)
    (hpullRequest : (((latestUpdates es₁).entries.find? fun entry =>
        entry.1.1 = some ResourceType.pullRequest.value).map Prod.snd).map eventState =
      (((latestUpdates es₂).entries.find? fun entry =>
        entry.1.1 = some ResourceType.pullRequest.value).map Prod.snd).map eventState) :
    (windowFacts rt w₁ events₁).withoutComments =
      (windowFacts rt w₂ events₂).withoutComments := by
  have hstates : checkStatesOf w₁.binding.requiredChecks (checkEvents rt (latestUpdates es₁)) =
      checkStatesOf w₁.binding.requiredChecks (checkEvents rt (latestUpdates es₂)) := by
    refine List.filterMap_congr fun name hname => ?_
    have hsame := hchecks name hname
    cases hget₁ : (checkEvents rt (latestUpdates es₁)).get? name with
    | none =>
      cases hget₂ : (checkEvents rt (latestUpdates es₂)).get? name with
      | none => rfl
      | some e₂ => simp [hget₁, hget₂] at hsame
    | some e₁ =>
      cases hget₂ : (checkEvents rt (latestUpdates es₂)).get? name with
      | none => simp [hget₁, hget₂] at hsame
      | some e₂ =>
        simp only [hget₁, hget₂, Option.map_some, Option.some.injEq] at hsame
        rw [Option.map_some, Option.map_some, hsame]
  have hblocking : ((reviewStatesOf w₁.binding (latestUpdates es₁)).reviews.keysWhere
        (· = "CHANGES_REQUESTED")).length =
      ((reviewStatesOf w₁.binding (latestUpdates es₂)).reviews.keysWhere
        (· = "CHANGES_REQUESTED")).length := by
    refine Dict.length_keysWhere_eq fun id => ?_
    simp only [Dict.mem_keysWhere, decide_eq_true_eq, exists_eq_right]
    rw [reviews_get?_eq_changesRequested id hstate₁, reviews_get?_eq_changesRequested id hstate₂]
    exact hreviews id
  have hopen : ((reviewStatesOf w₁.binding (latestUpdates es₁)).threads.keysWhere
        (· = "OPEN")).length =
      ((reviewStatesOf w₁.binding (latestUpdates es₂)).threads.keysWhere (· = "OPEN")).length := by
    refine Dict.length_keysWhere_eq fun id => ?_
    simp only [Dict.mem_keysWhere]
    rw [threads_get?_eq id hstate₁, threads_get?_eq id hstate₂, hthreads id]
  have hknown : ((latestUpdates es₁).entries.find? fun entry =>
        entry.1.1 = some ResourceType.pullRequest.value).isSome =
      ((latestUpdates es₂).entries.find? fun entry =>
        entry.1.1 = some ResourceType.pullRequest.value).isSome := by
    simpa using congrArg Option.isSome hpullRequest
  have hdraft : ((latestUpdates es₁).entries.find? fun entry =>
        entry.1.1 = some ResourceType.pullRequest.value).any
          (fun entry => eventState entry.2 = some "DRAFT") =
      ((latestUpdates es₂).entries.find? fun entry =>
        entry.1.1 = some ResourceType.pullRequest.value).any
          fun entry => eventState entry.2 = some "DRAFT" := by
    have hany := congrArg (Option.any fun state => decide (state = some "DRAFT")) hpullRequest
    simpa only [Option.any_map, Function.comp_def] using hany
  subst hes₁ hes₂
  simp only [windowFacts, GitHubFacts.withoutComments, ← hbinding, ← hhead, hstates, hblocking,
    hopen, hknown, hdraft]

theorem Convergent.of_perm (hperm : us₁.Perm us₂) (h : Convergent rt db taskId us₁) :
    Convergent rt db taskId us₂ := by
  have hnewest : ∀ {u}, NewestOfResource rt db taskId us₂ u → NewestOfResource rt db taskId us₁ u :=
    fun hu => ⟨hperm.mem_iff.mpr hu.mem, hu.recordable,
      fun v hv => hu.newest v (hperm.mem_iff.mp hv)⟩
  have hnewest' : ∀ {u}, NewestOfResource rt db taskId us₁ u → NewestOfResource rt db taskId us₂ u :=
    fun hu => ⟨hperm.mem_iff.mp hu.mem, hu.recordable,
      fun v hv => hu.newest v (hperm.mem_iff.mpr hv)⟩
  refine ⟨fun u hu hkind hcomment v hv => ?_, fun u v hu hv hukind hvkind hlabel hname htime hmax => ?_⟩
  · exact h.reviews u (hnewest hu) hkind hcomment v (hperm.mem_iff.mpr hv)
  · exact h.checks u v (hnewest hu) (hnewest hv) hukind hvkind hlabel hname htime
      fun w hw => hmax w (hnewest' hw)

/-- The facts after two orders of the same updates. -/
theorem windowFacts_converge (h₁ : Recording rt cfg taskId db b pre bound us₁ db₁ es₁)
    (h₂ : Recording rt cfg taskId db b pre bound us₂ db₂ es₂)
    (hstart : SplitAt cfg taskId db b pre bound []) (hdb : WellRecorded rt cfg taskId db)
    (hperm : us₁.Perm us₂) (hdistinct : DistinctTimes us₁)
    (hconv : Convergent rt db taskId us₁) :
    (githubFacts rt (assessedEvents db₁ taskId)).withoutComments =
      (githubFacts rt (assessedEvents db₂ taskId)).withoutComments := by
  obtain ⟨w, hw, -, -, hwbinding⟩ := hstart.window hdb (hstart.effective_of_head hdb rfl)
  obtain ⟨w₁, hw₁, hes₁, hhead₁, hbinding₁⟩ := h₁.split.window h₁.well h₁.effective
  obtain ⟨w₂, hw₂, hes₂, hhead₂, hbinding₂⟩ := h₂.split.window h₂.well h₂.effective
  have hrequired : (githubFacts rt (assessedEvents db taskId)).requiredChecks =
      w₁.binding.requiredChecks := by
    simp only [githubFacts, hw, windowFacts, hwbinding, hbinding₁]
  have hlast : lastUpdate rt db taskId us₁ = lastUpdate rt db taskId us₂ :=
    lastUpdate_perm hperm hdistinct
  have hcarried : w₁.binding.carriedReviews = (reviewStatesAfter pre).blockingReviews := by
    rw [hbinding₁]
  simp only [githubFacts, hw₁, hw₂]
  refine windowFacts_congr (hbinding₁.trans hbinding₂.symm) (hhead₁.trans hhead₂.symm) hes₁ hes₂
    h₁.state_isSome h₂.state_isSome (fun name hname => ?_) (fun id => ?_) (fun id => ?_) ?_
  · exact check_state_converges h₁ h₂ hperm hdistinct hconv (hrequired ▸ hname)
  · rw [h₁.verdict_iff hstart.events hdb hconv hcarried id,
      h₂.verdict_iff hstart.events hdb (hconv.of_perm hperm) hcarried id, hlast]
  · rw [currentThread, currentThread, h₁.threadState_eq, h₂.threadState_eq, hlast]
  · rw [h₁.pullRequest, h₂.pullRequest]
    have hkind : ResourceType.pullRequest ≠ .review := by decide
    rcases h₁.latest .pullRequest hkind (toString b.pullRequestNumber) with ⟨hnone₁, hget₁⟩ |
      ⟨u, e₁, hu, hget₁, hue⟩
    · rcases h₂.latest .pullRequest hkind (toString b.pullRequestNumber) with ⟨-, hget₂⟩ | ⟨v, e₂, hv, -, -⟩
      · rw [hget₁, hget₂]
      · rw [← hlast, hnone₁] at hv
        cases hv
    · rcases h₂.latest .pullRequest hkind (toString b.pullRequestNumber) with ⟨hnone₂, -⟩ |
        ⟨v, e₂, hv, hget₂, hve⟩
      · rw [← hlast, hu] at hnone₂
        cases hnone₂
      · rw [← hlast, hu, Option.some.injEq] at hv
        subst hv
        rw [hget₁, hget₂, Option.map_some, Option.map_some, hue.records.eventState,
          hve.records.eventState]

end Orders

/-- After a run, at a binding nothing was recorded since, the updates of the bound head lead to
the same facts in every order in which they are processed. -/
theorem githubFacts_converge {rt : Runtime} {cfg : GitHubAppConfiguration} {taskId : UUID}
    {activities : List Activity} {db db₁ db₂ : Database} {b : PullRequestBinding} {asOf : ℕ}
    {us₁ us₂ : List WebhookUpdate}
    (h : TaskRun rt cfg taskId (fun _ _ _ => True) activities db)
    (hbound : lastBound activities = some (b, asOf))
    (hnothing : ∀ bound ∈ latestBinding db taskId, ∀ e ∈ gitHubEvents db taskId,
      e.sequence ≤ bound.sequence)
    (hrun₁ : Processes rt cfg db us₁ db₁) (hrun₂ : Processes rt cfg db us₂ db₂)
    (hperm : us₁.Perm us₂) (hheads : ∀ u ∈ us₁, u.headSha = b.headSha)
    (hdistinct : DistinctTimes us₁) (hconv : Convergent rt db taskId us₁) :
    (githubFacts rt (assessedEvents db₁ taskId)).withoutComments =
      (githubFacts rt (assessedEvents db₂ taskId)).withoutComments := by
  obtain ⟨b', pre, bound, post, hsplit, -, hhead⟩ := h.layout.bound b asOf hbound
  have hpost : post = [] := by
    refine List.eq_nil_iff_forall_not_mem.mpr fun e he => ?_
    have hle := hnothing bound (hsplit.latestBinding h.wellRecorded) e (hsplit.mem_post he)
    have hlt := hsplit.sequence_post h.wellRecorded he
    omega
  subst hpost
  obtain ⟨es₁, h₁⟩ := hrun₁.recording hsplit h.wellRecorded fun u hu =>
    (hheads u hu).trans hhead.symm
  obtain ⟨es₂, h₂⟩ := hrun₂.recording hsplit h.wellRecorded fun u hu =>
    (hheads u (hperm.mem_iff.mpr hu)).trans hhead.symm
  exact windowFacts_converge h₁ h₂ hsplit h.wellRecorded hperm hdistinct hconv

/-! ### A comment after a verdict -/

namespace ConvergenceExample

open GitHubExample ReviewExample

theorem processes_concat {db₀ db : Database} {us : List WebhookUpdate} {n : ℕ} {u : WebhookUpdate}
    (hrun : Processes .plain cfg db₀ us db) (hupdate : updateOf n db = some u)
    (h : processes n db = true) :
    Processes .plain cfg db₀ (us ++ [u]) (process n db) :=
  hrun.concat hupdate (eq_ok_resultOr h)

/-- Two deliveries after the binding. -/
def twoAfter (first second : Received) : Database :=
  bind (binding (sha 'a') 300) (start [first, second])

/-- Both deliveries can be processed, in both orders. -/
structure BothOrders (db : Database) : Prop where
  first : (updateOf 1 db).isSome = true
  second : (updateOf 2 db).isSome = true
  first_step : processes 1 db = true
  second_later : updateOf 2 (process 1 db) = updateOf 2 db
  second_laterStep : processes 2 (process 1 db) = true
  second_step : processes 2 db = true
  first_later : updateOf 1 (process 2 db) = updateOf 1 db
  first_laterStep : processes 1 (process 2 db) = true

instance (db : Database) : Decidable (BothOrders db) :=
  decidable_of_iff
    ((updateOf 1 db).isSome = true ∧ (updateOf 2 db).isSome = true ∧ processes 1 db = true ∧
      updateOf 2 (process 1 db) = updateOf 2 db ∧ processes 2 (process 1 db) = true ∧
      processes 2 db = true ∧ updateOf 1 (process 2 db) = updateOf 1 db ∧
      processes 1 (process 2 db) = true)
    ⟨fun ⟨h₁, h₂, h₃, h₄, h₅, h₆, h₇, h₈⟩ => ⟨h₁, h₂, h₃, h₄, h₅, h₆, h₇, h₈⟩,
      fun h => ⟨h.1, h.2, h.3, h.4, h.5, h.6, h.7, h.8⟩⟩

theorem BothOrders.processes {db : Database} (h : BothOrders db) :
    Processes .plain cfg db [(updateOf 1 db).get h.first, (updateOf 2 db).get h.second]
        (process 2 (process 1 db)) ∧
      Processes .plain cfg db [(updateOf 2 db).get h.second, (updateOf 1 db).get h.first]
        (process 1 (process 2 db)) := by
  have hfirst : updateOf 1 db = some ((updateOf 1 db).get h.first) := (Option.some_get _).symm
  have hsecond : updateOf 2 db = some ((updateOf 2 db).get h.second) := (Option.some_get _).symm
  constructor
  · exact processes_concat (processes_concat .nil hfirst h.first_step)
      (h.second_later.trans hsecond) h.second_laterStep
  · exact processes_concat (processes_concat .nil hsecond h.second_step)
      (h.first_later.trans hfirst) h.first_laterStep

theorem taskRun_twoAfter (first second : Received)
    (h : binds (binding (sha 'a') 300) (start [first, second]) = true) :
    TaskRun .plain cfg task.id (fun _ _ _ => True) [bound (sha 'a') 300 10]
      (twoAfter first second) :=
  taskRun_bind (seconds 10) (.start rfl) rfl trivial h

/-- Changes are requested, then the same reviewer comments. -/
def commentedWorld : Database :=
  twoAfter (review 1 "submitted" "changes_requested" (sha 'a') 20)
    (review 2 "submitted" "commented" (sha 'a') 30)

set_option maxRecDepth 4000 in
theorem commented_checked :
    binds (binding (sha 'a') 300) (start [review 1 "submitted" "changes_requested" (sha 'a') 20,
      review 2 "submitted" "commented" (sha 'a') 30]) = true ∧
    BothOrders commentedWorld ∧
    (githubFacts .plain
      (assessedEvents (process 2 (process 1 commentedWorld)) task.id)).blockingReviews = 1 ∧
    (githubFacts .plain
      (assessedEvents (process 1 (process 2 commentedWorld)) task.id)).blockingReviews = 0 := by
  decide +kernel

def changesRequested : WebhookUpdate := (updateOf 1 commentedWorld).get commented_checked.2.1.first
def commented : WebhookUpdate := (updateOf 2 commentedWorld).get commented_checked.2.1.second

set_option maxRecDepth 4000 in
theorem commentedUpdates_checked :
    DistinctTimes [changesRequested, commented] ∧
      ∀ u ∈ [changesRequested, commented], u.headSha = sha 'a' := by decide +kernel

/-- Changes are requested, then the pull request is updated. -/
def updatedWorld : Database :=
  twoAfter (review 1 "submitted" "changes_requested" (sha 'a') 20) (synchronize 2 (sha 'a') 30)

set_option maxRecDepth 4000 in
theorem updated_checked :
    binds (binding (sha 'a') 300) (start [review 1 "submitted" "changes_requested" (sha 'a') 20,
      synchronize 2 (sha 'a') 30]) = true ∧
    BothOrders updatedWorld ∧
    ∀ bound ∈ latestBinding updatedWorld task.id, ∀ e ∈ gitHubEvents updatedWorld task.id,
      e.sequence ≤ bound.sequence := by decide +kernel

def reviewed : WebhookUpdate := (updateOf 1 updatedWorld).get updated_checked.2.1.first
def updated : WebhookUpdate := (updateOf 2 updatedWorld).get updated_checked.2.1.second

set_option maxRecDepth 4000 in
theorem updatedUpdates_checked :
    DistinctTimes [reviewed, updated] ∧
    (∀ u ∈ [reviewed, updated],
      u.headSha = (checked (binding (sha 'a') 300)).headSha ∧
      (u.resourceType = .review → u.state ≠ "COMMENTED") ∧ u.resourceType ≠ .checkRun) := by
  decide +kernel

/-- Neither is a comment or a check. -/
theorem convergent_updated : Convergent .plain updatedWorld task.id [reviewed, updated] := by
  obtain ⟨-, hupdates⟩ := updatedUpdates_checked
  refine ⟨fun u hu hreview hcomment => ?_, fun u v hu hv hcheck => ?_⟩
  · exact absurd hcomment ((hupdates u hu.mem).2.1 hreview)
  · exact absurd hcheck (hupdates u hu.mem).2.2

end ConvergenceExample

open ConvergenceExample GitHubExample ReviewExample in
/-- A review and an update of the pull request, in both orders. -/
theorem githubFacts_converge_updated :
    (githubFacts .plain (assessedEvents (process 2 (process 1 updatedWorld)) task.id)).withoutComments =
      (githubFacts .plain
        (assessedEvents (process 1 (process 2 updatedWorld)) task.id)).withoutComments :=
  githubFacts_converge (taskRun_twoAfter _ _ updated_checked.1) rfl updated_checked.2.2
    updated_checked.2.1.processes.1 updated_checked.2.1.processes.2 (List.Perm.swap _ _ _)
    (fun u hu => (updatedUpdates_checked.2 u hu).1) updatedUpdates_checked.1 convergent_updated

open ConvergenceExample GitHubExample ReviewExample in
/-- A review that requests changes blocks when the comment after it is processed later, and is
lost when the comment is processed first. -/
theorem githubFacts_diverge_commented :
    TaskRun .plain cfg task.id (fun _ _ _ => True) [bound (sha 'a') 300 10] commentedWorld ∧
      Processes .plain cfg commentedWorld [changesRequested, commented]
        (process 2 (process 1 commentedWorld)) ∧
      Processes .plain cfg commentedWorld [commented, changesRequested]
        (process 1 (process 2 commentedWorld)) ∧
      DistinctTimes [changesRequested, commented] ∧
      (∀ u ∈ [changesRequested, commented], u.headSha = sha 'a') ∧
      (githubFacts .plain
        (assessedEvents (process 2 (process 1 commentedWorld)) task.id)).blockingReviews = 1 ∧
      (githubFacts .plain
        (assessedEvents (process 1 (process 2 commentedWorld)) task.id)).blockingReviews = 0 :=
  ⟨taskRun_twoAfter _ _ commented_checked.1, commented_checked.2.1.processes.1,
    commented_checked.2.1.processes.2, commentedUpdates_checked.1, commentedUpdates_checked.2,
    commented_checked.2.2.1, commented_checked.2.2.2⟩

end ControlPlane
