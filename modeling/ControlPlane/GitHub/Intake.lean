import ControlPlane.GitHub.History
import ControlPlane.Lib.Inbox

/-!
# Webhook intake happens once

The webhook service over whole runs: requests that are received, again or at the same time,
deliveries processed by the request, by a binding or by the pass over pending ones, bindings
that release deliveries, and crashes between any two transactions. Seen from a delivery
identifier of the provider, the service is an idempotent inbox: once for the update events
and once for the jobs that wake the workflow.

## Main definitions

* `updateEventsOf`, `wakeUpJobsOf`: what a delivery identifier has led to.
* `webhookSystem`: the transactions of the service in any order.
-/
namespace ControlPlane

open Inbox

/-! ### What a delivery leads to -/

/-- The idempotency key of the job of a delivery. -/
def wakeUpKey (providerDeliveryId : String) : String := s!"github-webhook:{providerDeliveryId}"

theorem wakeUpKey_injective : Function.Injective wakeUpKey := by
  intro a b h
  have hlist := congrArg String.toList h
  simp only [wakeUpKey, String.toList_append, toString] at hlist
  exact String.toList_injective (List.append_cancel_left hlist)

/-- The update events that name a delivery. -/
def updateEventsOf (db : Database) (providerDeliveryId : String) : List TaskEvent :=
  db.taskEvents.select fun e =>
    isUpdateEvent e && sameText (e.payload.get "delivery_id") (.str providerDeliveryId)

/-- The jobs scheduled under the key of a delivery. -/
def wakeUpJobsOf (db : Database) (providerDeliveryId : String) : List BackgroundJob :=
  db.backgroundJobs.select (·.idempotencyKey = wakeUpKey providerDeliveryId)

def deliveryOf (db : Database) (providerDeliveryId : String) : Option WebhookDelivery :=
  db.webhookDeliveries.rows.find? (·.providerDeliveryId = providerDeliveryId)

/-- A delivery that processing accepted. -/
def WebhookDelivery.IsAccepted (d : WebhookDelivery) : Prop :=
  d.processedAt.isSome ∧ d.processingResult.disposition = some .accepted

/-- What processing a delivery has written: its row, and with an accepted one exactly one
event and one job under a key that was free. -/
inductive Processed (db : Database) (d d' : WebhookDelivery) (db' : Database) : Prop
  | refused (hdisposition : d'.processingResult.disposition ≠ some .accepted)
      (hquarantine : d'.quarantineReason = d.quarantineReason ∨
        d'.processingResult.disposition = some .quarantined)
      (hevent : d'.processingResult.eventId = none) (hjob : d'.processingResult.jobId = none)
      (hevents : db'.taskEvents = db.taskEvents) (hjobs : db'.backgroundJobs = db.backgroundJobs)
  | accepted (event : TaskEvent) (job : BackgroundJob)
      (hdisposition : d'.processingResult.disposition = some .accepted)
      (hquarantine : d'.quarantineReason = d.quarantineReason)
      (hevent : d'.processingResult.eventId = some event.id)
      (hjob : d'.processingResult.jobId = some job.id)
      (hupdate : isUpdateEvent event = true)
      (hdelivery : event.payload.get "delivery_id" = .str d.providerDeliveryId)
      (hkey : job.idempotencyKey = wakeUpKey d.providerDeliveryId)
      (hevents : db'.taskEvents.rows = db.taskEvents.rows ++ [event])
      (hjobs : db'.backgroundJobs.rows = db.backgroundJobs.rows ++ [job])

/-- The rows a processed delivery is written over agree in what identifies it. -/
structure WebhookDelivery.SameRequest (d d' : WebhookDelivery) : Prop where
  id : d'.id = d.id
  providerDeliveryId : d'.providerDeliveryId = d.providerDeliveryId
  bodySha256 : d'.processingResult.bodySha256 = d.processingResult.bodySha256

/-- The answer about a delivery repeats what is recorded of it. -/
structure IngestionResponse.Reports (r : IngestionResponse) (d : WebhookDelivery) : Prop where
  deliveryId : r.deliveryId = d.id
  taskId : r.taskId = d.processingResult.taskId
  eventId : r.eventId = d.processingResult.eventId
  jobId : r.jobId = d.processingResult.jobId

/-- One processed delivery: written, answered and accounted for. -/
structure ProcessesTo (db : Database) (d : WebhookDelivery) (r : IngestionResponse)
    (db' : Database) (d' : WebhookDelivery) : Prop where
  same : d.SameRequest d'
  processed : d'.processedAt.isSome = true
  reports : r.Reports d'
  deliveries : db'.webhookDeliveries = db.webhookDeliveries.set d'
  written : Processed db d d' db'

section Processing
variable {rt : Runtime} {cfg : GitHubAppConfiguration} {db db' : Database} {d : WebhookDelivery}
  {r : IngestionResponse} {now : Time} {eventId jobId : UUID}

/-- The row that records an outcome. -/
def finished (d : WebhookDelivery) (now : Time) (o : Outcome) : WebhookDelivery :=
  { d with
    processingResult := { d.processingResult with
      processed := true, disposition := some o.disposition, reason := o.reason,
      taskId := o.taskId, eventId := o.eventId, jobId := o.jobId }
    processedAt := some now }

/-- An outcome is answered as it is recorded. -/
theorem processesTo_finished {d₀ : WebhookDelivery} {o : Outcome} {db₁ : Database}
    (hsame : d₀.SameRequest d) (hdeliveries : db₁.webhookDeliveries = db.webhookDeliveries)
    (hwritten : Processed db d₀ (finished d now o) (finish db₁ d now o).2)
    (h : finish db₁ d now o = (r, db')) : ProcessesTo db d₀ r db' (finished d now o) := by
  obtain ⟨rfl, rfl⟩ := Prod.ext_iff.mp h
  refine ⟨⟨hsame.id, hsame.providerDeliveryId, hsame.bodySha256⟩, rfl, ⟨rfl, rfl, rfl, rfl⟩, ?_,
    hwritten⟩
  exact congrArg (·.set (finished d now o)) hdeliveries

/-- An outcome that is not an acceptance. -/
theorem processesTo_finish {d₀ : WebhookDelivery} {o : Outcome} (hsame : d₀.SameRequest d)
    (hdisposition : o.disposition ≠ .accepted)
    (hquarantine : d.quarantineReason = d₀.quarantineReason ∨ o.disposition = .quarantined)
    (hevent : o.eventId = none) (hjob : o.jobId = none) (h : finish db d now o = (r, db')) :
    ∃ d', ProcessesTo db d₀ r db' d' :=
  ⟨_, processesTo_finished hsame rfl
    (.refused (fun heq => hdisposition (Option.some.inj heq))
      (hquarantine.imp_right (congrArg some)) hevent hjob rfl rfl) h⟩

theorem processesTo_quarantine {d₀ : WebhookDelivery} {reason : String} (hsame : d₀.SameRequest d)
    (h : quarantine db d now reason = (r, db')) : ∃ d', ProcessesTo db d₀ r db' d' := by
  have hrefused : WebhookDisposition.quarantined ≠ .accepted := by decide
  simp only [quarantine] at h
  refine processesTo_finish ?_ hrefused (.inr rfl) rfl rfl h
  exact ⟨hsame.id, hsame.providerDeliveryId, hsame.bodySha256⟩

theorem recordUpdate_processesTo {d₀ : WebhookDelivery} {task : Task} {v : WebhookUpdate}
    {prev : Option String} (hsame : d₀.SameRequest d)
    (hquarantine : d.quarantineReason = d₀.quarantineReason)
    (h : recordUpdate rt db d task v prev now eventId jobId = .ok (r, db')) :
    ∃ d', ProcessesTo db d₀ r db' d' := by
  simp only [recordUpdate, Except.bind_eq_ok] at h
  obtain ⟨previousAt, -, h⟩ := h
  by_cases hold : (previousAt.any fun t => decide (v.sourceUpdatedAt.val ≤ t.val)) = true
  · rw [if_pos hold, Except.pure_eq_ok] at h
    exact processesTo_finish hsame (by simp) (.inl hquarantine) rfl rfl h
  · rw [if_neg hold] at h
    simp only [Except.bind_eq_ok, Except.orThrow_eq_ok, Except.require_eq_ok,
      Except.pure_eq_ok] at h
    obtain ⟨taskEvents, hevents, -, -, jobs, hjobs, h⟩ := h
    refine ⟨_, processesTo_finished hsame ?_ ?_ h⟩
    · rfl
    · refine .accepted (updateEvent db d task v prev now eventId)
        (wakeUpJob rt d task v (updateEvent db d task v prev now eventId) now jobId)
        rfl hquarantine rfl rfl (isUpdateEvent_iff.mpr ⟨v.eventType, rfl⟩) ?_ ?_
        (Table.insert?_eq_some.mp hevents).2 (Table.insert?_eq_some.mp hjobs).2
      · exact congrArg Json.str hsame.providerDeliveryId
      · exact congrArg wakeUpKey hsame.providerDeliveryId

/-- An update that was read of a delivery is recorded or refused. -/
theorem processUpdate_processesTo {u : WebhookUpdate}
    (h : processUpdate rt db d u now eventId jobId = .ok (r, db')) :
    ∃ d', ProcessesTo db d r db' d' := by
  unfold processUpdate at h
  cases hcorrelate : correlate db u with
  | unknown reason =>
    simp only [hcorrelate, Except.ok.injEq] at h
    refine processesTo_quarantine ?_ h
    exact ⟨rfl, rfl, rfl⟩
  | stale task =>
    simp only [hcorrelate, Except.ok.injEq] at h
    have hrefused : WebhookDisposition.stale ≠ .accepted := by decide
    refine processesTo_finish ?_ hrefused ?_ rfl rfl h
    · exact ⟨rfl, rfl, rfl⟩
    · exact .inl rfl
  | accepted task v prev =>
    simp only [hcorrelate] at h
    by_cases hstate : task.state.isTerminal = true
    · rw [if_pos hstate, Except.ok.injEq] at h
      refine processesTo_quarantine ?_ h
      exact ⟨rfl, rfl, rfl⟩
    · rw [if_neg hstate] at h
      refine recordUpdate_processesTo ?_ ?_ h
      · exact ⟨rfl, rfl, rfl⟩
      · rfl

/-- A stored delivery is processed once; one that was processed is reported as it is. -/
theorem processDelivery_processesTo {deliveryId : UUID}
    (h : processDelivery rt cfg db deliveryId now eventId jobId = .ok (r, db')) :
    ∃ d, db.webhookDeliveries.get? deliveryId = some d ∧
      ((d.processedAt.isSome = true ∧ r.Reports d ∧ db' = db) ∨
        (d.processedAt = none ∧ ∃ d', ProcessesTo db d r db' d')) := by
  simp only [processDelivery, Except.bind_eq_ok, Except.orThrow_eq_ok] at h
  obtain ⟨d, hd, h⟩ := h
  refine ⟨d, hd, ?_⟩
  by_cases hprocessed : d.processedAt.isSome = true
  · simp only [hprocessed, if_true, Except.pure_eq_ok, Prod.ext_iff] at h
    obtain ⟨rfl, rfl⟩ := h
    exact .inl ⟨hprocessed, ⟨rfl, rfl, rfl, rfl⟩, rfl⟩
  · refine .inr ⟨by simpa using hprocessed, ?_⟩
    simp only [hprocessed, if_false, Bool.false_eq_true, Except.bind_eq_ok] at h
    obtain ⟨reading, -, h⟩ := h
    cases reading with
    | rejected reason =>
      simp only [Except.pure_eq_ok] at h
      exact processesTo_quarantine ⟨rfl, rfl, rfl⟩ h
    | update u => exact processUpdate_processesTo h

end Processing

/-! ### Receiving -/

/-- What is checked of a request before the store is read. -/
def checkRequest (rt : Runtime) (r : WebhookRequest) : Except GitHubWebhookError Json := do
  let _ ← requiredDeliveryId rt r.deliveryId
  let _ ← requiredEventName r.eventName
  decodePayload r.verified

section Receiving
variable {rt : Runtime} {cfg : GitHubAppConfiguration} {db db' : Database} {d : WebhookDelivery}
  {r : WebhookRequest}

theorem receive_eq :
    receive rt db r = checkRequest rt r >>= fun payload =>
      match deliveryOf db r.deliveryId with
      | some existing => do
        Except.require (existing.processingResult.bodySha256 = r.verified.bodySha256)
          (.conflict "delivery identifier does not match the original body")
        return (existing.id, true, db)
      | none => do
        let (_, db) ← Except.relabel (captureEvidence rt db (webhookCapture r payload)) .evidence
        let webhookDeliveries ← Except.orThrow
          (db.webhookDeliveries.insert? (receivedDelivery rt r payload))
          (.integrity "webhook delivery is not unique")
        return (r.deliveryUuid, false, { db with webhookDeliveries }) := by
  simp only [receive, checkRequest, deliveryOf, requiredDeliveryId, bind_assoc]
  by_cases hid : deliveryPattern.fullmatch (CharClass.holds rt.unicode) r.deliveryId.toList = true
  · simp only [hid, if_true, Except.ok_bind] <;> rfl
  · simp only [hid, if_false, Bool.false_eq_true, Except.error_bind]

/-- A request about a known delivery is only compared with it. -/
theorem receive_known (hd : deliveryOf db r.deliveryId = some d) :
    receive rt db r = checkRequest rt r >>= fun _ =>
      if d.processingResult.bodySha256 = r.verified.bodySha256 then .ok (d.id, true, db)
      else .error (.conflict "delivery identifier does not match the original body") := by
  rw [receive_eq, hd]
  refine Except.bind_congr_ok fun _ _ => ?_
  by_cases hbody : d.processingResult.bodySha256 = r.verified.bodySha256
  · simp [hbody, pure, Except.pure]
  · simp [hbody, Except.require]

/-- A new delivery is inserted; nothing else that a delivery leads to is written. -/
theorem receive_new {id : UUID} {replayed : Bool} (hd : deliveryOf db r.deliveryId = none)
    (h : receive rt db r = .ok (id, replayed, db')) :
    ∃ payload, db.webhookDeliveries.insert? (receivedDelivery rt r payload) =
        some db'.webhookDeliveries ∧
      id = r.deliveryUuid ∧ replayed = false ∧
      db'.taskEvents = db.taskEvents ∧ db'.backgroundJobs = db.backgroundJobs := by
  rw [receive_eq, hd] at h
  simp only [Except.bind_eq_ok, Except.relabel_eq_ok, Except.orThrow_eq_ok, Except.pure_eq_ok,
    Prod.ext_iff] at h
  obtain ⟨payload, -, ⟨captured, db₁⟩, hcapture, deliveries, hinsert, rfl, rfl, rfl⟩ := h
  obtain ⟨records, -, rfl⟩ := captureEvidence_ok hcapture rfl
  exact ⟨payload, hinsert, rfl, rfl, rfl, rfl⟩

theorem receive_ok_cases {id : UUID} {replayed : Bool}
    (h : receive rt db r = .ok (id, replayed, db')) :
    (∃ d, deliveryOf db r.deliveryId = some d ∧ id = d.id ∧ replayed = true ∧ db' = db) ∨
      (deliveryOf db r.deliveryId = none ∧ replayed = false ∧ id = r.deliveryUuid) := by
  cases hd : deliveryOf db r.deliveryId with
  | some d =>
    rw [receive_known hd, Except.bind_eq_ok] at h
    obtain ⟨_, -, h⟩ := h
    by_cases hbody : d.processingResult.bodySha256 = r.verified.bodySha256
    · rw [if_pos hbody, Except.ok.injEq, Prod.ext_iff, Prod.ext_iff] at h
      exact .inl ⟨d, rfl, h.1.symm, h.2.1.symm, h.2.2.symm⟩
    · simp [hbody] at h
  | none =>
    obtain ⟨_, -, hid, hreplayed, -⟩ := receive_new hd h
    exact .inr ⟨rfl, hreplayed, hid⟩

end Receiving

/-! ### Binding -/

/-- What a binding releases. -/
theorem bindTransaction_deliveries {rt : Runtime} {cfg : GitHubAppConfiguration}
    {db db' : Database} {arguments : PullRequestBinding} {id : UUID} {ids : List UUID}
    (h : bindTransaction rt cfg db arguments = .ok (id, ids, db')) :
    ∃ b, db'.webhookDeliveries.rows = db.webhookDeliveries.rows.map
        (fun d => if isDeferredFor b d then d.release else d) ∧
      db'.backgroundJobs = db.backgroundJobs ∧
      ∀ pid, updateEventsOf db' pid = updateEventsOf db pid := by
  obtain ⟨b', task, -, -, -, -, -, hevents⟩ := bindTransaction_ok h
  have hupdates : ∀ pid, updateEventsOf db' pid = updateEventsOf db pid := by
    intro pid
    rcases hevents with ⟨current, -, -, hsame⟩ | ⟨-, hrows⟩
    · rw [updateEventsOf, updateEventsOf, hsame]
    · have hbinding : isUpdateEvent (bindingEvent cfg db task b'
          (reviewStateCarryover db task.id)) = false := by
        refine Bool.eq_false_iff.mpr fun hupdate => ?_
        obtain ⟨k, hk⟩ := isUpdateEvent_iff.mp hupdate
        exact UpdateType.value_ne_bound k hk.symm
      simp [updateEventsOf, Table.select, hrows, hbinding]
  simp only [bindTransaction, Except.bind_eq_ok, Except.orThrow_eq_ok, Except.require_eq_ok] at h
  obtain ⟨b, -, task, -, -, -, h⟩ := h
  have hreleased := Table.rows_foldl_set_select (f := WebhookDelivery.release) (fun _ => rfl)
    (List.perm_insertionSort WebhookDelivery.before
      (db.webhookDeliveries.select (isDeferredFor b)))
  refine ⟨b, ?_⟩
  cases hcurrent : (latestBinding db task.id).filter fun current =>
      current.payload.pyEq (bindingEvent cfg db task b (reviewStateCarryover db task.id)).payload with
  | some current =>
    simp only [hcurrent, Except.pure_eq_ok, Prod.ext_iff] at h
    obtain ⟨-, -, rfl⟩ := h
    exact ⟨hreleased, rfl, hupdates⟩
  | none =>
    simp only [hcurrent, Except.bind_eq_ok, Except.orThrow_eq_ok, Except.pure_eq_ok,
      Prod.ext_iff] at h
    obtain ⟨taskEvents, -, -, -, rfl⟩ := h
    exact ⟨hreleased, rfl, hupdates⟩

/-! ### The service over time -/

/-- What other services do: deliveries are left alone, no update event is written, and jobs
keep their identifiers and keys, with none scheduled under the key of a delivery. -/
structure LeavesIntake (db db' : Database) : Prop where
  deliveries : db'.webhookDeliveries = db.webhookDeliveries
  events : db'.taskEvents.select isUpdateEvent = db.taskEvents.select isUpdateEvent
  jobs : ∀ pid, (wakeUpJobsOf db' pid).map BackgroundJob.id =
    (wakeUpJobsOf db pid).map BackgroundJob.id

/-- The transactions of the service. A request receives and processes, a binding binds and
then processes what it released, and the pass over pending deliveries processes: each is a
sequence of these, and stops after any of them in a crash. Of two requests with one new
identifier the second to insert fails, and is received again as the known delivery. -/
inductive WebhookStep (rt : Runtime) (cfg : GitHubAppConfiguration) (db db' : Database) : Prop
  | receive (r : WebhookRequest) (id : UUID) (replayed : Bool)
      (h : receive rt db r = .ok (id, replayed, db'))
  | process (deliveryId : UUID) (now : Time) (eventId jobId : UUID) (r : IngestionResponse)
      (h : processDelivery rt cfg db deliveryId now eventId jobId = .ok (r, db'))
  | bind (b : PullRequestBinding) (id : UUID) (ids : List UUID)
      (h : bindTransaction rt cfg db b = .ok (id, ids, db'))
  | other (h : LeavesIntake db db')

/-- Deliveries that wait have led to nothing yet. -/
structure FreshIntake (db : Database) : Prop where
  distinct : (db.webhookDeliveries.rows.map WebhookDelivery.providerDeliveryId).Nodup
  waiting : ∀ d ∈ db.webhookDeliveries, d.processedAt = none ∧ d.quarantineReason = none
  events : ∀ pid, updateEventsOf db pid = []
  jobs : ∀ pid, wakeUpJobsOf db pid = []

def webhookSystem (rt : Runtime) (cfg : GitHubAppConfiguration) : TransitionSystem Database where
  init := FreshIntake
  step := WebhookStep rt cfg

/-- Identifiers of the provider are distinct, and what is said of a delivery is consistent:
only a processed one is quarantined or accepted, and an accepted one names what it led to. -/
structure IntakeInvariant (db : Database) : Prop where
  distinct : (db.webhookDeliveries.rows.map WebhookDelivery.providerDeliveryId).Nodup
  quarantined : ∀ d ∈ db.webhookDeliveries, d.quarantineReason ≠ none →
    d.processedAt.isSome ∧ d.processingResult.disposition = some .quarantined
  named : ∀ d ∈ db.webhookDeliveries, d.IsAccepted →
    d.processingResult.eventId.isSome ∧ d.processingResult.jobId.isSome

theorem WebhookDelivery.isAccepted_release (d : WebhookDelivery) : ¬ d.release.IsAccepted :=
  fun h => by simpa [release] using h.1

section Invariant
variable {rt : Runtime} {cfg : GitHubAppConfiguration} {db db' : Database}

theorem IntakeInvariant.processes {d d' : WebhookDelivery} {r : IngestionResponse}
    (hinv : IntakeInvariant db) (hd : db.webhookDeliveries.get? d.id = some d)
    (hwaits : d.processedAt = none) (h : ProcessesTo db d r db' d') : IntakeInvariant db' := by
  have hold : db.webhookDeliveries.get? d'.id = some d := by rw [h.same.id, hd]
  have hne : db.webhookDeliveries.get? (key d') ≠ none := by
    rw [show key d' = d'.id from rfl, hold]
    exact Option.some_ne_none d
  have hfree : d.quarantineReason = none := by
    by_contra hreason
    have hprocessed := (hinv.quarantined d (Table.mem_of_get? hd) hreason).1
    simp [hwaits] at hprocessed
  refine ⟨?_, ?_, ?_⟩
  · rw [h.deliveries, Table.map_col_set hold h.same.providerDeliveryId]
    exact hinv.distinct
  · intro a ha hreason
    rw [h.deliveries, Table.mem_set hne] at ha
    rcases ha with rfl | ⟨ha, -⟩
    · refine ⟨h.processed, ?_⟩
      cases h.written with
      | refused _ hquarantine =>
        exact hquarantine.resolve_left fun hsame => hreason (hsame.trans hfree)
      | accepted _ _ _ hquarantine => exact absurd (hquarantine.trans hfree) hreason
    · exact hinv.quarantined a ha hreason
  · intro a ha haccepted
    rw [h.deliveries, Table.mem_set hne] at ha
    rcases ha with rfl | ⟨ha, -⟩
    · cases h.written with
      | refused hdisposition => exact absurd haccepted.2 hdisposition
      | accepted event job _ _ hevent hjob => simp [hevent, hjob]
    · exact hinv.named a ha haccepted

theorem IntakeInvariant.step (hinv : IntakeInvariant db) (h : WebhookStep rt cfg db db') :
    IntakeInvariant db' := by
  cases h with
  | receive r id replayed h =>
    rcases receive_ok_cases h with ⟨d, -, -, -, rfl⟩ | ⟨hnew, -, -⟩
    · exact hinv
    · obtain ⟨payload, hinsert, -⟩ := receive_new hnew h
      refine ⟨?_, ?_, ?_⟩
      · rw [(Table.insert?_eq_some.mp hinsert).2, List.map_append, List.nodup_append]
        refine ⟨hinv.distinct, List.nodup_singleton _, ?_⟩
        rintro pid hpid _ hb rfl
        obtain ⟨d, hd, rfl⟩ := List.mem_map.mp hpid
        have hfind := List.find?_eq_none.mp hnew d hd
        simp only [List.map_cons, List.map_nil, List.mem_singleton] at hb
        exact hfind (decide_eq_true hb)
      · intro d hd hreason
        rcases (Table.mem_insert? hinsert).mp hd with hd | rfl
        · exact hinv.quarantined d hd hreason
        · exact absurd rfl hreason
      · intro d hd haccepted
        rcases (Table.mem_insert? hinsert).mp hd with hd | rfl
        · exact hinv.named d hd haccepted
        · exact absurd haccepted.1 (by simp [receivedDelivery])
  | process deliveryId now eventId jobId r h =>
    obtain ⟨d, hd, ⟨-, -, rfl⟩ | ⟨hwaits, d', hprocess⟩⟩ := processDelivery_processesTo h
    · exact hinv
    · obtain rfl : d.id = deliveryId := Table.key_of_get? hd
      exact hinv.processes hd hwaits hprocess
  | bind b id ids h =>
    obtain ⟨b', hrows, -, -⟩ := bindTransaction_deliveries h
    have hmem : ∀ a ∈ db'.webhookDeliveries, a ∈ db.webhookDeliveries ∨
        ∃ d : WebhookDelivery, a = d.release := by
      intro a ha
      rw [Table.mem_def, hrows] at ha
      obtain ⟨d, hd, rfl⟩ := List.mem_map.mp ha
      by_cases hdeferred : isDeferredFor b' d = true
      · exact .inr ⟨d, if_pos hdeferred⟩
      · rw [if_neg hdeferred]
        exact .inl hd
    refine ⟨?_, ?_, ?_⟩
    · have hsame : db'.webhookDeliveries.rows.map WebhookDelivery.providerDeliveryId =
          db.webhookDeliveries.rows.map WebhookDelivery.providerDeliveryId := by
        rw [hrows, List.map_map]
        refine List.map_congr_left fun d _ => ?_
        by_cases hdeferred : isDeferredFor b' d = true <;>
          simp [hdeferred, WebhookDelivery.release]
      rw [hsame]
      exact hinv.distinct
    · intro a ha hreason
      rcases hmem a ha with ha | ⟨d, rfl⟩
      · exact hinv.quarantined a ha hreason
      · exact absurd rfl hreason
    · intro a ha haccepted
      rcases hmem a ha with ha | ⟨d, rfl⟩
      · exact hinv.named a ha haccepted
      · exact absurd haccepted d.isAccepted_release
  | other h =>
    refine ⟨?_, ?_, ?_⟩
    · rw [h.deliveries]
      exact hinv.distinct
    · rw [h.deliveries]
      exact hinv.quarantined
    · rw [h.deliveries]
      exact hinv.named

theorem FreshIntake.invariant (h : FreshIntake db) : IntakeInvariant db where
  distinct := h.distinct
  quarantined d hd hreason := absurd (h.waiting d hd).2 hreason
  named d hd haccepted := by simp [WebhookDelivery.IsAccepted, (h.waiting d hd).1] at haccepted

theorem intakeInvariant_of_reachable (h : (webhookSystem rt cfg).Reachable db) :
    IntakeInvariant db :=
  h.invariant (fun _ => FreshIntake.invariant) fun _ _ => IntakeInvariant.step

end Invariant

/-! ### The service as an inbox -/

/-- The two things an accepted delivery leads to. -/
inductive Product where
  | event
  | job

/-- The identifier of a product that is recorded of a delivery. -/
def Product.recordedIn (p : Product) (w : WebhookProcessingResult) : Option UUID :=
  match p with
  | .event => w.eventId
  | .job => w.jobId

/-- The identifiers of what a delivery identifier has led to. -/
def Product.of (p : Product) (db : Database) (providerDeliveryId : String) : List UUID :=
  match p with
  | .event => (updateEventsOf db providerDeliveryId).map TaskEvent.id
  | .job => (wakeUpJobsOf db providerDeliveryId).map BackgroundJob.id

instance (d : WebhookDelivery) : Decidable d.IsAccepted := inferInstanceAs (Decidable (_ ∧ _))

/-- Where a delivery stands. -/
def Product.standing (p : Product) : Option WebhookDelivery → Standing UUID
  | none => .unknown
  | some d =>
    if d.processedAt = none then .pending
    else if d.IsAccepted then
      match p.recordedIn d.processingResult with
      | some id => .accepted id
      | none => .settled
    else if d.quarantineReason = some "correlation_unknown" then .deferred
    else .settled

/-- The service seen from the delivery identifiers. -/
def Product.inbox (p : Product) (db : Database) : Inbox.State String UUID where
  standing pid := p.standing (deliveryOf db pid)
  effects := p.of db

section Refinement
variable {rt : Runtime} {cfg : GitHubAppConfiguration} {db db' : Database} {p : Product}

theorem Product.recordedIn_isSome {d : WebhookDelivery} (hinv : IntakeInvariant db)
    (hd : d ∈ db.webhookDeliveries) (h : d.IsAccepted) :
    ∃ id, p.recordedIn d.processingResult = some id := by
  obtain ⟨hevent, hjob⟩ := hinv.named d hd h
  cases p with
  | event => exact Option.isSome_iff_exists.mp hevent
  | job => exact Option.isSome_iff_exists.mp hjob

theorem Product.standing_accepted {d : WebhookDelivery} {id : UUID} (h : d.IsAccepted)
    (hid : p.recordedIn d.processingResult = some id) : p.standing (some d) = .accepted id := by
  have hprocessed : ¬ d.processedAt = none := fun hnone => by simpa [hnone] using h.1
  simp [standing, hprocessed, h, hid]

theorem Product.of_congr (hevents : db'.taskEvents = db.taskEvents)
    (hjobs : db'.backgroundJobs = db.backgroundJobs) : p.of db' = p.of db := by
  funext pid
  cases p <;> simp [Product.of, updateEventsOf, wakeUpJobsOf, hevents, hjobs]

/-- A processed delivery is one that was pending and has been settled, put aside or accepted. -/
theorem inbox_processes {d d' : WebhookDelivery} {r : IngestionResponse}
    (hinv : IntakeInvariant db) (hd : db.webhookDeliveries.get? d.id = some d)
    (hwaits : d.processedAt = none) (h : ProcessesTo db d r db' d') :
    Inbox.Step (p.inbox db) (p.inbox db') := by
  have hold : db.webhookDeliveries.get? (key d') = some d := by
    rw [show key d' = d'.id from rfl, h.same.id, hd]
  have hfind : ∀ pid, deliveryOf db' pid =
      if d.providerDeliveryId = pid then some d' else deliveryOf db pid := by
    intro pid
    rw [deliveryOf, h.deliveries, Table.find?_col_set hinv.distinct hold h.same.providerDeliveryId,
      h.same.providerDeliveryId, deliveryOf]
  have hpending : (p.inbox db).standing d.providerDeliveryId = .pending := by
    have hsome : deliveryOf db d.providerDeliveryId = some d :=
      (Table.find?_col_eq_some hinv.distinct).mpr ⟨Table.mem_of_get? hd, rfl⟩
    simp [Product.inbox, hsome, Product.standing, hwaits]
  have hdone : ¬ d'.processedAt = none := fun hnone => by simpa [hnone] using h.processed
  cases h.written with
  | refused hdisposition _ _ _ hevents hjobs =>
    refine .move (Product.of_congr hevents hjobs) fun pid => ?_
    by_cases hpid : d.providerDeliveryId = pid
    · subst hpid
      refine .inr ?_
      rw [hpending]
      simp only [Product.inbox, hfind, if_true, Product.standing, if_neg hdone,
        WebhookDelivery.IsAccepted, hdisposition, and_false, if_false]
      by_cases hdeferred : d'.quarantineReason = some "correlation_unknown"
      · rw [if_pos hdeferred]
        exact .defer
      · rw [if_neg hdeferred]
        exact .settle
    · exact .inl (by simp [Product.inbox, hfind, hpid])
  | accepted event job hdisposition _ hevent hjob hupdate hdelivery hkey hevents hjobs =>
    have haccepted : d'.IsAccepted := ⟨h.processed, hdisposition⟩
    obtain ⟨id, hid, hof⟩ : ∃ id, p.recordedIn d'.processingResult = some id ∧
        ∀ pid, p.of db' pid =
          if d.providerDeliveryId = pid then p.of db pid ++ [id] else p.of db pid := by
      cases p with
      | event =>
        refine ⟨event.id, hevent, fun pid => ?_⟩
        by_cases hpid : d.providerDeliveryId = pid <;>
          simp [Product.of, updateEventsOf, Table.select, hevents, hupdate, hdelivery, hpid]
      | job =>
        refine ⟨job.id, hjob, fun pid => ?_⟩
        by_cases hpid : d.providerDeliveryId = pid
        · simp [Product.of, wakeUpJobsOf, Table.select, hjobs, hkey, hpid]
        · have hkeys : wakeUpKey d.providerDeliveryId ≠ wakeUpKey pid :=
            fun heq => hpid (wakeUpKey_injective heq)
          simp [Product.of, wakeUpJobsOf, Table.select, hjobs, hkey, hpid, hkeys]
    refine .accept d.providerDeliveryId id hpending (Inbox.State.ext ?_ ?_)
    · funext pid
      by_cases hpid : d.providerDeliveryId = pid
      · subst hpid
        simp [Product.inbox, hfind, Inbox.State.accept, Product.standing_accepted haccepted hid]
      · simp [Product.inbox, hfind, hpid, Inbox.State.accept, Ne.symm hpid]
    · funext pid
      by_cases hpid : d.providerDeliveryId = pid
      · subst hpid
        simp [Product.inbox, hof, Inbox.State.accept]
      · simp [Product.inbox, hof, hpid, Inbox.State.accept, Ne.symm hpid]

theorem inbox_congr (hdeliveries : ∀ pid, deliveryOf db' pid = deliveryOf db pid)
    (hof : p.of db' = p.of db) : Inbox.Step (p.inbox db) (p.inbox db') :=
  .move hof fun pid => .inl (congrArg p.standing (hdeliveries pid))

/-- Every transaction of the service is a step of the inbox. -/
theorem inbox_step (hinv : IntakeInvariant db) (h : WebhookStep rt cfg db db') :
    Inbox.Step (p.inbox db) (p.inbox db') := by
  cases h with
  | receive r id replayed h =>
    rcases receive_ok_cases h with ⟨d, -, -, -, rfl⟩ | ⟨hnew, -, -⟩
    · exact inbox_congr (fun _ => rfl) rfl
    · obtain ⟨payload, hinsert, -, -, hevents, hjobs⟩ := receive_new hnew h
      refine .move (Product.of_congr hevents hjobs) fun pid => ?_
      have hfind : deliveryOf db' pid = (deliveryOf db pid).or
          (if r.deliveryId = pid then some (receivedDelivery rt r payload) else none) := by
        rw [deliveryOf, (Table.insert?_eq_some.mp hinsert).2, List.find?_append]
        by_cases hpid : r.deliveryId = pid <;> simp [hpid, receivedDelivery, deliveryOf]
      by_cases hpid : r.deliveryId = pid
      · subst hpid
        refine .inr ?_
        simp only [Product.inbox, hfind, hnew, if_true, Option.none_or, Product.standing,
          receivedDelivery]
        exact .receive
      · simp [Product.inbox, hfind, hpid]
  | process deliveryId now eventId jobId r h =>
    obtain ⟨d, hd, ⟨-, -, rfl⟩ | ⟨hwaits, d', hprocess⟩⟩ := processDelivery_processesTo h
    · exact inbox_congr (fun _ => rfl) rfl
    · obtain rfl : d.id = deliveryId := Table.key_of_get? hd
      exact inbox_processes hinv hd hwaits hprocess
  | bind b id ids h =>
    obtain ⟨b', hrows, hjobs, hupdates⟩ := bindTransaction_deliveries h
    have hof : p.of db' = p.of db := by
      funext pid
      cases p <;> simp [Product.of, wakeUpJobsOf, hjobs, hupdates]
    refine .move hof fun pid => ?_
    have hfind : deliveryOf db' pid =
        (deliveryOf db pid).map fun d => if isDeferredFor b' d then d.release else d := by
      rw [deliveryOf, hrows, List.find?_map]
      refine congrArg _ (congrArg (List.find? · _) (funext fun d => ?_))
      by_cases hdeferred : isDeferredFor b' d = true <;>
        simp [hdeferred, WebhookDelivery.release]
    cases hd : deliveryOf db pid with
    | none => exact .inl (by simp [Product.inbox, hfind, hd])
    | some d =>
      by_cases hdeferred : isDeferredFor b' d = true
      · -- A released delivery was put aside: it is quarantined, and so processed.
        have hreason : d.quarantineReason = some "correlation_unknown" := by
          simp only [isDeferredFor, Bool.and_eq_true, decide_eq_true_eq] at hdeferred
          exact hdeferred.2
        obtain ⟨hprocessed, hquarantined⟩ := hinv.quarantined d
          (List.mem_of_find?_eq_some hd) (by rw [hreason]; exact Option.some_ne_none _)
        have hdone : ¬ d.processedAt = none := fun hnone => by simp [hnone] at hprocessed
        have hrefused : ¬ d.IsAccepted := fun h => by simpa [hquarantined] using h.2
        refine .inr ?_
        simp only [Product.inbox, hfind, hd, Option.map_some, hdeferred, if_true,
          Product.standing, if_neg hdone, if_neg hrefused, hreason, WebhookDelivery.release]
        exact .release
      · exact .inl (by simp [Product.inbox, hfind, hd, hdeferred])
  | other h =>
    refine inbox_congr (fun pid => by rw [deliveryOf, deliveryOf, h.deliveries]) ?_
    funext pid
    cases p with
    | event =>
      have hselect : ∀ db : Database, updateEventsOf db pid =
          (db.taskEvents.select isUpdateEvent).filter
            fun e => sameText (e.payload.get "delivery_id") (.str pid) := by
        intro db
        rw [updateEventsOf, Table.select, Table.select, List.filter_filter]
        exact List.filter_congr fun e _ => Bool.and_comm _ _
      simp only [Product.of, hselect, h.events]
    | job => exact h.jobs pid

/-- The service refines an inbox, for the events and for the jobs. -/
theorem webhookSystem_simulates (p : Product) :
    (webhookSystem rt cfg).Simulates (inboxSystem String UUID) fun db s => s = p.inbox db where
  init db h := by
    refine ⟨p.inbox db, fun pid => ⟨?_, ?_⟩, rfl⟩
    · cases p <;> simp [Product.inbox, Product.of, h.events, h.jobs]
    · cases hd : deliveryOf db pid with
      | none => simp [Product.inbox, Product.standing, hd, Standing.effects]
      | some d =>
        have hwaits := (h.waiting d (List.mem_of_find?_eq_some hd)).1
        simp [Product.inbox, Product.standing, hd, hwaits, Standing.effects]
  step db db' s hdb _ hs hstep := by
    subst hs
    exact ⟨_, .single (inbox_step (intakeInvariant_of_reachable hdb) hstep), rfl⟩

theorem inbox_reachable (p : Product) (h : (webhookSystem rt cfg).Reachable db) :
    (inboxSystem String UUID).Reachable (p.inbox db) := by
  obtain ⟨s, hs, rfl⟩ := (webhookSystem_simulates p).reachable h
  exact hs

/-- What was accepted stays recorded as it is. -/
theorem standing_of_run {pid : String} {id : UUID} (hdb : (webhookSystem rt cfg).Reachable db)
    (hrun : Relation.ReflTransGen (WebhookStep rt cfg) db db')
    (h : p.standing (deliveryOf db pid) = .accepted id) :
    p.standing (deliveryOf db' pid) = .accepted id := by
  induction hrun with
  | refl => exact h
  | tail hrun hstep ih =>
    obtain ⟨db₀, h₀, hrun₀⟩ := hdb
    have hreachable : (webhookSystem rt cfg).Reachable _ := ⟨db₀, h₀, hrun₀.trans hrun⟩
    exact (inbox_step (p := p) (intakeInvariant_of_reachable hreachable) hstep).accepted ih

end Refinement

/-! ### Answers -/

section Answers
variable {rt : Runtime} {cfg : GitHubAppConfiguration} {db db' : Database} {d : WebhookDelivery}
  {r : WebhookRequest} {eventId jobId : UUID}

/-- The answer to a request about a delivery that was processed before. -/
def recordedResponse (d : WebhookDelivery) : IngestionResponse where
  deliveryId := d.id
  disposition := .replayed
  taskId := d.processingResult.taskId
  eventId := d.processingResult.eventId
  jobId := d.processingResult.jobId

/-- Another body under a known identifier is refused, whatever else is checked first. -/
theorem ingest_conflict (hd : deliveryOf db r.deliveryId = some d)
    (hbody : d.processingResult.bodySha256 ≠ r.verified.bodySha256) :
    ingest rt cfg db r eventId jobId = checkRequest rt r >>= fun _ =>
      .error (.conflict "delivery identifier does not match the original body") := by
  rw [ingest, receive_known hd, bind_assoc]
  refine Except.bind_congr_ok fun _ _ => ?_
  rw [if_neg hbody, Except.error_bind]

/-- A replay of a processed delivery is answered from its record. -/
theorem ingest_replay (hd : deliveryOf db r.deliveryId = some d)
    (hbody : d.processingResult.bodySha256 = r.verified.bodySha256)
    (hprocessed : d.processedAt.isSome = true) :
    ingest rt cfg db r eventId jobId = checkRequest rt r >>= fun _ =>
      .ok (recordedResponse d, db) := by
  have hmem : db.webhookDeliveries.get? d.id = some d :=
    Table.get?_key (List.mem_of_find?_eq_some hd)
  rw [ingest, receive_known hd, bind_assoc]
  refine Except.bind_congr_ok fun _ _ => ?_
  simp only [hbody, if_true, Except.ok_bind, processDelivery, hmem, Except.orThrow, hprocessed]
  rfl

/-- The ids answered are the ones recorded. -/
theorem ingest_reports (hinv : IntakeInvariant db) {response : IngestionResponse}
    (h : ingest rt cfg db r eventId jobId = .ok (response, db')) :
    ∃ d, deliveryOf db' r.deliveryId = some d ∧ d.processedAt.isSome = true ∧
      response.Reports d := by
  simp only [ingest, Except.bind_eq_ok, Except.pure_eq_ok, Prod.ext_iff] at h
  obtain ⟨⟨id, replayed, db₁⟩, hreceive, ⟨answer, db₂⟩, hprocess, hresponse, rfl⟩ := h
  have hreceived : WebhookStep rt cfg db db₁ := .receive r id replayed hreceive
  have hinv₁ := hinv.step hreceived
  have hknown : ∃ d, db₁.webhookDeliveries.get? id = some d ∧
      d.providerDeliveryId = r.deliveryId := by
    rcases receive_ok_cases hreceive with ⟨d, hd, rfl, -, rfl⟩ | ⟨hnew, -, rfl⟩
    · exact ⟨d, Table.get?_key (List.mem_of_find?_eq_some hd),
        ((Table.find?_col_eq_some hinv.distinct).mp hd).2⟩
    · obtain ⟨payload, hinsert, -⟩ := receive_new hnew hreceive
      exact ⟨receivedDelivery rt r payload, by rw [Table.get?_insert? hinsert]; exact if_pos rfl,
        rfl⟩
  obtain ⟨d, hd, hpid⟩ := hknown
  have hreports : ∀ d', answer.Reports d' → response.Reports d' := by
    rintro d' ⟨h₁, h₂, h₃, h₄⟩
    cases replayed
    · simp only [Bool.false_eq_true, if_false] at hresponse
      exact hresponse ▸ ⟨h₁, h₂, h₃, h₄⟩
    · simp only [if_true] at hresponse
      exact hresponse ▸ ⟨h₁, h₂, h₃, h₄⟩
  obtain ⟨d₁, hd₁, hcases⟩ := processDelivery_processesTo hprocess
  obtain rfl : d = d₁ := Option.some.inj (hd.symm.trans hd₁)
  rcases hcases with ⟨hprocessed, hanswer, rfl⟩ | ⟨hwaits, d', hto⟩
  · refine ⟨d, ?_, hprocessed, hreports d hanswer⟩
    exact (Table.find?_col_eq_some hinv₁.distinct).mpr ⟨Table.mem_of_get? hd, hpid⟩
  · obtain rfl : d.id = id := Table.key_of_get? hd
    have hinv₂ := hinv₁.processes hd hwaits hto
    refine ⟨d', (Table.find?_col_eq_some hinv₂.distinct).mpr ⟨?_, ?_⟩, hto.processed,
      hreports d' hto.reports⟩
    · rw [hto.deliveries, Table.mem_set]
      · exact .inl rfl
      · rw [show key d' = d'.id from rfl, hto.same.id, hd]
        exact Option.some_ne_none d
    · exact hto.same.providerDeliveryId.trans hpid

end Answers

/-- Intake of a delivery identifier happens once: what it has led to, what is answered, and
what stays recorded. -/
structure ExactlyOnce (rt : Runtime) (cfg : GitHubAppConfiguration) (db : Database)
    (providerDeliveryId : String) : Prop where
  event_le : (updateEventsOf db providerDeliveryId).length ≤ 1
  job_le : (wakeUpJobsOf db providerDeliveryId).length ≤ 1
  refused : (∀ d, deliveryOf db providerDeliveryId = some d → ¬ d.IsAccepted) →
    updateEventsOf db providerDeliveryId = [] ∧ wakeUpJobsOf db providerDeliveryId = []
  accepted : ∀ d, deliveryOf db providerDeliveryId = some d → d.IsAccepted →
    ∃ event job, updateEventsOf db providerDeliveryId = [event] ∧
      wakeUpJobsOf db providerDeliveryId = [job] ∧
      d.processingResult.eventId = some event.id ∧ d.processingResult.jobId = some job.id
  kept : ∀ d db', deliveryOf db providerDeliveryId = some d → d.IsAccepted →
    Relation.ReflTransGen (WebhookStep rt cfg) db db' →
      ∃ d', deliveryOf db' providerDeliveryId = some d' ∧ d'.IsAccepted ∧
        d'.processingResult.eventId = d.processingResult.eventId ∧
        d'.processingResult.jobId = d.processingResult.jobId
  reports : ∀ (r : WebhookRequest) (eventId jobId : UUID) response db',
    r.deliveryId = providerDeliveryId → ingest rt cfg db r eventId jobId = .ok (response, db') →
      ∃ d, deliveryOf db' providerDeliveryId = some d ∧ d.processedAt.isSome ∧ response.Reports d
  replay : ∀ (r : WebhookRequest) (eventId jobId : UUID) d, r.deliveryId = providerDeliveryId →
    deliveryOf db providerDeliveryId = some d → d.processedAt.isSome →
    d.processingResult.bodySha256 = r.verified.bodySha256 →
      ingest rt cfg db r eventId jobId = checkRequest rt r >>= fun _ => .ok (recordedResponse d, db)
  conflict : ∀ (r : WebhookRequest) (eventId jobId : UUID) d, r.deliveryId = providerDeliveryId →
    deliveryOf db providerDeliveryId = some d →
    d.processingResult.bodySha256 ≠ r.verified.bodySha256 →
      ingest rt cfg db r eventId jobId = checkRequest rt r >>= fun _ =>
        .error (.conflict "delivery identifier does not match the original body")

section Once
variable {rt : Runtime} {cfg : GitHubAppConfiguration} {db : Database}

theorem Product.of_accepted {p : Product} {pid : String} {d : WebhookDelivery}
    (h : (webhookSystem rt cfg).Reachable db) (hd : deliveryOf db pid = some d)
    (haccepted : d.IsAccepted) :
    ∃ id, p.recordedIn d.processingResult = some id ∧ p.of db pid = [id] := by
  obtain ⟨id, hid⟩ := Product.recordedIn_isSome (p := p) (intakeInvariant_of_reachable h)
    (List.mem_of_find?_eq_some hd) haccepted
  have heffects := effects_of_reachable (inbox_reachable p h) pid
  simp only [Product.inbox, hd, Product.standing_accepted haccepted hid] at heffects
  exact ⟨id, hid, heffects⟩

theorem Product.of_refused {p : Product} {pid : String}
    (h : (webhookSystem rt cfg).Reachable db)
    (hrefused : ∀ d, deliveryOf db pid = some d → ¬ d.IsAccepted) : p.of db pid = [] := by
  have heffects := effects_of_reachable (inbox_reachable p h) pid
  simp only [Product.inbox] at heffects
  rw [heffects]
  cases hd : deliveryOf db pid with
  | none => rfl
  | some d =>
    simp only [Product.standing, if_neg (hrefused d hd)]
    split
    · rfl
    · split <;> rfl

/-- In every state the service reaches, the intake of every delivery identifier happened
at most once, and is answered accordingly. -/
theorem exactlyOnce_of_reachable (h : (webhookSystem rt cfg).Reachable db) (pid : String) :
    ExactlyOnce rt cfg db pid where
  event_le := by
    have hle := length_effects_le (inbox_reachable .event h) pid
    simpa [Product.inbox, Product.of] using hle
  job_le := by
    have hle := length_effects_le (inbox_reachable .job h) pid
    simpa [Product.inbox, Product.of] using hle
  refused hrefused := by
    have hevent := Product.of_refused (p := .event) h hrefused
    have hjob := Product.of_refused (p := .job) h hrefused
    simp only [Product.of, List.map_eq_nil_iff] at hevent hjob
    exact ⟨hevent, hjob⟩
  accepted d hd haccepted := by
    obtain ⟨id, hid, hof⟩ := Product.of_accepted (p := .event) h hd haccepted
    obtain ⟨id', hid', hof'⟩ := Product.of_accepted (p := .job) h hd haccepted
    simp only [Product.of, List.map_eq_singleton_iff] at hof hof'
    obtain ⟨event, hevent, rfl⟩ := hof
    obtain ⟨job, hjob, rfl⟩ := hof'
    exact ⟨event, job, hevent, hjob, hid, hid'⟩
  kept d db' hd haccepted hrun := by
    have hkept : ∀ p : Product, ∃ d', deliveryOf db' pid = some d' ∧ d'.IsAccepted ∧
        p.recordedIn d'.processingResult = p.recordedIn d.processingResult := by
      intro p
      obtain ⟨id, hid, -⟩ := Product.of_accepted (p := p) h hd haccepted
      have hlater : p.standing (deliveryOf db' pid) = .accepted id :=
        standing_of_run h hrun (by rw [hd, Product.standing_accepted haccepted hid])
      cases hd' : deliveryOf db' pid with
      | none => simp [Product.standing, hd'] at hlater
      | some d' =>
        refine ⟨d', rfl, ?_⟩
        rw [hd'] at hlater
        by_cases haccepted' : d'.IsAccepted
        · obtain ⟨db₀, h₀, hrun₀⟩ := h
          have hreachable : (webhookSystem rt cfg).Reachable db' := ⟨db₀, h₀, hrun₀.trans hrun⟩
          obtain ⟨id', hid', -⟩ := Product.of_accepted (p := p) hreachable hd' haccepted'
          rw [Product.standing_accepted haccepted' hid'] at hlater
          obtain rfl : id' = id := by simpa using hlater
          exact ⟨haccepted', by rw [hid, hid']⟩
        · simp only [Product.standing, if_neg haccepted'] at hlater
          by_cases hwaits : d'.processedAt = none
          · simp [hwaits] at hlater
          · by_cases hdeferred : d'.quarantineReason = some "correlation_unknown" <;>
              simp [hwaits, hdeferred] at hlater
    obtain ⟨d', hd', haccepted', hevent⟩ := hkept .event
    obtain ⟨d'', hd'', -, hjob⟩ := hkept .job
    obtain rfl : d' = d'' := Option.some.inj (hd'.symm.trans hd'')
    exact ⟨d', hd', haccepted', hevent, hjob⟩
  reports r eventId jobId response db' hr hingest := by
    subst hr
    exact ingest_reports (intakeInvariant_of_reachable h) hingest
  replay r eventId jobId d hr hd hprocessed hbody := by
    subst hr
    exact ingest_replay hd hbody hprocessed
  conflict r eventId jobId d hr hd hbody := by
    subst hr
    exact ingest_conflict hd hbody

end Once

/-! ### A delivery that is accepted -/

namespace IntakeExample

def cfg : GitHubAppConfiguration := ⟨1, 2, "owner/app"⟩

def sha : String := String.ofList (List.replicate 40 'a')

def task : Task where
  id := .ofNat 1
  repository := "owner/app"
  state := .prActive
  ownerId := githubOwner
  rootCorrelationId := .ofNat 7

def binding : PullRequestBinding where
  taskId := task.id
  installationId := 1
  repositoryId := 2
  pullRequestNumber := 3
  taskBranch := "work"
  headSha := sha
  requiredChecks := ["build"]
  now := 0
  eventId := .ofNat 8

/-- A pull request that was opened at the bound head. -/
def body : Json :=
  .obj [("action", .str "opened"), ("installation", .obj [("id", .int 1)]),
    ("repository", .obj [("id", .int 2), ("full_name", .str "owner/app")]),
    ("pull_request", .obj [("number", .int 3), ("state", .str "open"), ("draft", .bool true),
      ("head", .obj [("ref", .str "work"), ("sha", .str sha)]),
      ("updated_at", .str (Calendar.isoTimestamp 0))])]

def request : WebhookRequest where
  eventName := "pull_request"
  deliveryId := "d"
  verified := ⟨"", "", 0, "", some body⟩
  now := ⟨seconds 100, by decide⟩
  deliveryUuid := .ofNat 9
  evidenceId := .ofNat 10

/-- Nothing of the delivery is redacted. -/
def evidence : EvidenceRecord :=
  let content := webhookEvidence request body
  let contentHash := digest .plain (Runtime.plain.dumps content)
  ((webhookCapture request body).envelope githubOwner githubActor "github-webhook"
    "github:webhook" ⟨content, .json, "", contentHash, []⟩).record .plain

def bound : TaskEvent := bindingEvent cfg {} task binding none

/-- The task is bound and the delivery waits. -/
def start : Database where
  tasks := ⟨[task], List.nodup_singleton _⟩
  taskEvents := ⟨[bound], List.nodup_singleton _⟩
  evidenceRecords := ⟨[evidence], List.nodup_singleton _⟩
  webhookDeliveries := ⟨[receivedDelivery .plain request body], List.nodup_singleton _⟩

def processed : Except GitHubWebhookError (IngestionResponse × Database) :=
  processDelivery .plain cfg start (.ofNat 9) (seconds 100) (.ofNat 11) (.ofNat 12)

/-- The delivery of a result, when it was accepted. -/
def acceptedIn (result : Except GitHubWebhookError (IngestionResponse × Database)) : Bool :=
  match result with
  | .ok (_, db) => (deliveryOf db "d").any fun d => decide d.IsAccepted
  | .error _ => false

set_option maxRecDepth 4000 in
theorem accepted_checked : acceptedIn processed = true := by decide +kernel

theorem freshIntake_start : FreshIntake start where
  distinct := List.nodup_singleton _
  waiting d hd := by
    obtain rfl : d = receivedDelivery .plain request body := List.mem_singleton.mp hd
    exact ⟨rfl, rfl⟩
  events pid := by simp [updateEventsOf, Table.select, start, bound, bindingEvent, isUpdateEvent,
    githubPrBoundEvent, UpdateType.value]
  jobs pid := rfl

end IntakeExample

open IntakeExample in
/-- The accepted delivery has led to one event and to one job. -/
theorem exactlyOnce_of_accepted :
    ∃ response db d, processed = .ok (response, db) ∧
      (webhookSystem .plain cfg).Reachable db ∧ deliveryOf db "d" = some d ∧ d.IsAccepted ∧
      ExactlyOnce .plain cfg db "d" := by
  have haccepted := accepted_checked
  cases hprocessed : processed with
  | error e => simp [hprocessed, acceptedIn] at haccepted
  | ok result =>
    obtain ⟨response, db⟩ := result
    simp only [hprocessed, acceptedIn, Option.any_eq_true, decide_eq_true_eq] at haccepted
    obtain ⟨d, hd, haccepted⟩ := haccepted
    have hreachable : (webhookSystem .plain cfg).Reachable db :=
      .tail (.of_init freshIntake_start) (.process _ _ _ _ response hprocessed)
    exact ⟨response, db, d, rfl, hreachable, hd, haccepted, exactlyOnce_of_reachable hreachable "d"⟩

end ControlPlane
