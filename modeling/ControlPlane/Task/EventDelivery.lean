import ControlPlane.Lib.Cursor
import ControlPlane.Lib.System
import ControlPlane.Task.EventStream

/-!
# Delivery of task events

Events are committed while streams of them are open; chunks are on their way for any time and
are lost when the connection is; the client reconnects with the last identifier it received,
any number of times. What it received is the log after its first cursor, without a gap and
without a repetition.

## Main results

* `StreamStep.delivers`: one step keeps what was delivered and what is on its way.
* `StreamRun.stream_promises_kept`
-/
namespace ControlPlane

open Cursor

/-- The events of a task as the lock on the task leaves them: in the order of their sequence,
with the task's owner. -/
structure EventLog (events : List TaskEvent) : Prop where
  log : Log TaskEvent.sequence events
  owned : ∀ event ∈ events, event.ownerId = localOwnerId
  bounded : ∀ event ∈ events, event.sequence ≤ maxTaskEventSequence

/-- The store, the generator of the open stream, the events it sent that are not received yet,
and the client: the identifier it would resume with, and what it received. -/
structure StreamRun where
  store : TaskStreamStore
  stream : Option EventStream := none
  inFlight : List TaskEventResponse := []
  lastEventId : Option (List Char)
  received : List TaskEventResponse := []

def StreamChunk.event? : StreamChunk → Option TaskEventResponse
  | taskEvent event => some event
  | _ => none

section
variable (rt : Runtime) (str : Json → String) (taskId : UUID)
  (authentication : AuthenticatedSession)

inductive StreamStep : StreamRun → StreamRun → Prop
  /-- Any change of the store that appends to the log of the task, or leaves it. -/
  | commit {s : StreamRun} (store : TaskStreamStore)
    (hgrown : taskEventsOf s.store.database taskId <+: taskEventsOf store.database taskId)
    (hlog : EventLog (taskEventsOf store.database taskId)) :
    StreamStep s { s with store }
  | connect {s : StreamRun} {cursor : ℕ} {initial : List TaskEventResponse} (now : Time)
    (hstream : s.stream = none) (hcursor : lastEventSequence s.lastEventId = .ok cursor)
    (hinitial : eventsAfter rt str now s.store taskId authentication cursor = .ok initial) :
    StreamStep s { s with stream := some { cursor, pending := initial }, inFlight := [] }
  | resume {s : StreamRun} {stream : EventStream} (now : Time) (connected beat : Bool)
    (hstream : s.stream = some stream) :
    StreamStep s { s with
      stream := some (stream.resume connected beat
        (eventsAfter rt str now s.store taskId authentication stream.cursor)).1
      inFlight := s.inFlight ++ (stream.resume connected beat
        (eventsAfter rt str now s.store taskId authentication stream.cursor)).2.filterMap
          StreamChunk.event? }
  /-- The response ends; what was sent may still arrive. -/
  | finish {s : StreamRun} {stream : EventStream} (hstream : s.stream = some stream)
    (hphase : stream.phase = .returned) : StreamStep s { s with stream := none }
  | receive {s : StreamRun} {event : TaskEventResponse} {rest : List TaskEventResponse}
    (hflight : s.inFlight = event :: rest) :
    StreamStep s { s with
      inFlight := rest
      lastEventId := some (eventIdText event.sequence)
      received := s.received ++ [event] }
  /-- The connection is lost with everything on its way. -/
  | disconnect {s : StreamRun} : StreamStep s { s with stream := none, inFlight := [] }

/-- Runs of a client that starts with a header. -/
def streamSystem (header : Option (List Char)) : TransitionSystem StreamRun where
  init s := s.stream = none ∧ s.inFlight = [] ∧ s.received = [] ∧ s.lastEventId = header ∧
    EventLog (taskEventsOf s.store.database taskId)
  step := StreamStep rt str taskId authentication

end

/-! ### Batches -/

section
variable {rt : Runtime} {str : Json → String} {taskId : UUID}
  {authentication : AuthenticatedSession}

/-- What a response says of its event; the number of its evidence references is the one of the
moment it was read. -/
def TaskEventResponse.content (event : TaskEventResponse) : TaskEventResponse :=
  { event with evidenceCount := 0 }

/-- The content of the response for an event. -/
def shown (rt : Runtime) (str : Json → String) (event : TaskEvent) : TaskEventResponse :=
  eventResponse rt str event 0

theorem sequence_of_content {event : TaskEventResponse} {row : TaskEvent}
    (h : event.content = shown rt str row) : event.sequence = row.sequence :=
  congrArg TaskEventResponse.sequence h

/-- The rows of a batch are the log after the cursor. -/
theorem EventLog.eventRowsAfter {db : Database} (h : EventLog (taskEventsOf db taskId)) (c : ℕ) :
    eventRowsAfter db taskId localOwnerId c =
      after TaskEvent.sequence c (taskEventsOf db taskId) := by
  have hfilter : ((taskEventsOf db taskId).filter fun event =>
      event.ownerId = localOwnerId && c < event.sequence) =
        after TaskEvent.sequence c (taskEventsOf db taskId) := by
    refine List.filter_congr fun event hevent => ?_
    simp [h.owned event hevent]
  rw [ControlPlane.eventRowsAfter, hfilter]
  exact ((h.log.log_after c).imp fun hlt => .inl hlt).insertionSort_eq

/-- A batch is the beginning of the log after the cursor; it is empty when nothing is there. -/
theorem EventLog.eventsAfter_ok {now : Time} {store : TaskStreamStore} {c : ℕ}
    {batch : List TaskEventResponse} (h : EventLog (taskEventsOf store.database taskId))
    (hbatch : eventsAfter rt str now store taskId authentication c = .ok batch) :
    batch.map TaskEventResponse.content <+:
        (after TaskEvent.sequence c (taskEventsOf store.database taskId)).map (shown rt str) ∧
      (batch = [] → after TaskEvent.sequence c (taskEventsOf store.database taskId) = []) := by
  simp only [eventsAfter, Except.bind_eq_ok, Except.require_eq_ok, Except.pure_eq_ok] at hbatch
  obtain ⟨_, _, _, _, _, _, _, _, _, _, rfl⟩ := hbatch
  rw [h.eventRowsAfter]
  constructor
  · rw [List.map_map]
    exact (List.take_prefix _ _).map _
  · intro hnil
    rw [List.map_eq_nil_iff, List.take_eq_nil_iff] at hnil
    exact hnil.resolve_left (by decide)

/-! ### The invariant -/

/-- The events a generator has read and not sent yet. -/
def EventStream.unsent (stream : EventStream) : List TaskEventResponse :=
  match stream.phase with
  | .start => stream.pending
  | .head => stream.pending
  | .batch rest => rest
  | .poll => []
  | .returned => []

/-- What one resumption does: it sends the next unsent event and moves the cursor there, or it
sends none, and drops an event at the cursor, or all of them, or has read another batch. -/
theorem EventStream.resume_cases (stream : EventStream) (connected beat : Bool)
    (polled : Except TaskStreamError (List TaskEventResponse)) :
    (∃ event, stream.unsent = event :: (stream.resume connected beat polled).1.unsent ∧
        (stream.resume connected beat polled).2.filterMap StreamChunk.event? = [event] ∧
        (stream.resume connected beat polled).1.cursor = event.sequence) ∨
      ((stream.resume connected beat polled).2.filterMap StreamChunk.event? = [] ∧
        (stream.resume connected beat polled).1.cursor = stream.cursor ∧
        ((stream.resume connected beat polled).1.unsent = stream.unsent ∨
          (stream.resume connected beat polled).1.unsent = [] ∨
          polled = .ok (stream.resume connected beat polled).1.unsent ∨
          ∃ event, event.sequence ≤ stream.cursor ∧
            stream.unsent = event :: (stream.resume connected beat polled).1.unsent)) := by
  obtain ⟨cursor, pending, phase⟩ := stream
  cases phase with
  | start => exact .inr ⟨rfl, rfl, .inl rfl⟩
  | head =>
    cases connected with
    | false => exact .inr ⟨rfl, rfl, .inr (.inl rfl)⟩
    | true =>
      by_cases hpending : pending ≠ []
      · simp only [EventStream.resume, hpending, ne_eq, not_false_eq_true, if_true]
        exact .inr ⟨rfl, rfl, .inl rfl⟩
      · simp only [EventStream.resume, hpending, if_false]
        refine .inr ⟨?_, rfl, .inr (.inl rfl)⟩
        cases beat <;> rfl
  | batch rest =>
    cases rest with
    | nil => exact .inr ⟨rfl, rfl, .inl rfl⟩
    | cons event rest =>
      by_cases hle : event.sequence ≤ cursor
      · refine .inr ⟨?_, ?_, .inr (.inr (.inr ⟨event, hle, ?_⟩))⟩ <;>
          simp [EventStream.resume, EventStream.unsent, hle]
      · refine .inl ⟨event, ?_⟩
        simp [EventStream.resume, EventStream.unsent, StreamChunk.event?, hle]
  | poll =>
    cases polled with
    | ok events => exact .inr ⟨rfl, rfl, .inr (.inr (.inl rfl))⟩
    | error error => exact .inr ⟨rfl, rfl, .inr (.inl rfl)⟩
  | returned => exact .inr ⟨rfl, rfl, .inl rfl⟩

/-- The client received the log between its first cursor and its last identifier; the log up to
some sequence is on its way, and the generator goes on from there. -/
structure StreamRun.Delivers (rt : Runtime) (str : Json → String) (taskId : UUID)
    (first last sent : ℕ) (s : StreamRun) : Prop where
  log : EventLog (taskEventsOf s.store.database taskId)
  resumable : lastEventSequence s.lastEventId = .ok last
  first_le : first ≤ last
  last_le : last ≤ sent
  last_read : first = last ∨ ∃ event ∈ taskEventsOf s.store.database taskId, event.sequence = last
  sent_read : last = sent ∨ ∃ event ∈ taskEventsOf s.store.database taskId, event.sequence = sent
  received : s.received.map TaskEventResponse.content =
    (between TaskEvent.sequence first last (taskEventsOf s.store.database taskId)).map
      (shown rt str)
  inFlight : s.inFlight.map TaskEventResponse.content =
    (between TaskEvent.sequence last sent (taskEventsOf s.store.database taskId)).map
      (shown rt str)
  stream : ∀ stream, s.stream = some stream → stream.cursor = sent ∧
    stream.unsent.map TaskEventResponse.content <+:
      (after TaskEvent.sequence sent (taskEventsOf s.store.database taskId)).map (shown rt str)

/-- One step keeps what was delivered and what is on its way. -/
theorem StreamStep.delivers {first last sent : ℕ} {s t : StreamRun}
    (hstep : StreamStep rt str taskId authentication s t)
    (h : s.Delivers rt str taskId first last sent) :
    ∃ last' sent', t.Delivers rt str taskId first last' sent' := by
  cases hstep with
  | commit store hgrown hlog =>
    have hmem : ∀ event ∈ taskEventsOf s.store.database taskId,
        event ∈ taskEventsOf store.database taskId := fun event hevent =>
      hgrown.subset hevent
    refine ⟨last, sent, hlog, h.resumable, h.first_le, h.last_le, ?_, ?_, ?_, ?_, ?_⟩
    · exact h.last_read.imp_right fun ⟨event, hevent, heq⟩ => ⟨event, hmem event hevent, heq⟩
    · exact h.sent_read.imp_right fun ⟨event, hevent, heq⟩ => ⟨event, hmem event hevent, heq⟩
    · rw [hlog.log.between_of_prefix hgrown h.last_read]
      exact h.received
    · rw [hlog.log.between_of_prefix hgrown h.sent_read]
      exact h.inFlight
    · intro stream hstream
      obtain ⟨hcursor, hunsent⟩ := h.stream stream hstream
      exact ⟨hcursor, hunsent.trans ((after_grown hgrown).map _)⟩
  | @connect cursor initial now hstream hcursor hinitial =>
    obtain rfl : last = cursor := Except.ok.inj (h.resumable.symm.trans hcursor)
    refine ⟨last, last, h.log, h.resumable, h.first_le, le_rfl, h.last_read, .inl rfl,
      h.received, by simp, ?_⟩
    rintro stream ⟨⟩
    exact ⟨rfl, (h.log.eventsAfter_ok hinitial).1⟩
  | @resume stream now connected beat hstream =>
    obtain ⟨hcursor, hunsent⟩ := h.stream stream hstream
    -- The next unsent event is the next entry of the log.
    have hnext : ∀ event rest, stream.unsent = event :: rest → ∃ row rows,
        after TaskEvent.sequence sent (taskEventsOf s.store.database taskId) = row :: rows ∧
          event.content = shown rt str row ∧
          rest.map TaskEventResponse.content <+: rows.map (shown rt str) := by
      intro event rest heq
      rw [heq, List.map_cons] at hunsent
      obtain ⟨tail, htail⟩ := hunsent
      rw [List.cons_append] at htail
      obtain ⟨row, rows, hafter, hevent, hrows⟩ := List.map_eq_cons_iff.mp htail.symm
      exact ⟨row, rows, hafter, hevent.symm, ⟨tail, hrows.symm⟩⟩
    rcases stream.resume_cases connected beat
      (eventsAfter rt str now s.store taskId authentication stream.cursor) with
      ⟨event, heq, hchunks, hmoved⟩ | ⟨hchunks, hkept, hrest⟩
    · obtain ⟨row, rows, hafter, hevent, hrows⟩ := hnext event _ heq
      obtain ⟨hlt, hfirst, hafter'⟩ := h.log.log.after_eq_cons hafter
      have hsequence := sequence_of_content hevent
      have hmem : row ∈ taskEventsOf s.store.database taskId :=
        (mem_after.mp (by rw [hafter]; exact List.mem_cons_self)).1
      refine ⟨last, row.sequence, h.log, h.resumable, h.first_le, h.last_le.trans hlt.le,
        h.last_read, .inr ⟨row, hmem, rfl⟩, h.received, ?_, ?_⟩
      · change (s.inFlight ++ _).map _ = _
        rw [hchunks, List.map_append, h.inFlight,
          ← h.log.log.between_append_between h.last_le hlt.le, hfirst, List.map_append]
        simp [hevent]
      · rintro _ ⟨⟩
        rw [hmoved, hafter']
        exact ⟨hsequence, hrows⟩
    · refine ⟨last, sent, h.log, h.resumable, h.first_le, h.last_le, h.last_read, h.sent_read,
        h.received, ?_, ?_⟩
      · change (s.inFlight ++ _).map _ = _
        rw [hchunks, List.append_nil, h.inFlight]
      · rintro _ ⟨⟩
        refine ⟨hkept.trans hcursor, ?_⟩
        rcases hrest with hsame | hnone | hpolled | ⟨event, hle, heq⟩
        · rw [hsame]
          exact hunsent
        · rw [hnone]
          exact List.nil_prefix
        · subst hcursor
          exact (h.log.eventsAfter_ok hpolled).1
        · obtain ⟨row, rows, hafter, hevent, -⟩ := hnext event _ heq
          obtain ⟨hlt, -, -⟩ := h.log.log.after_eq_cons hafter
          have hsequence := sequence_of_content hevent
          omega
  | finish hstream hphase =>
    exact ⟨last, sent, h.log, h.resumable, h.first_le, h.last_le, h.last_read, h.sent_read,
      h.received, h.inFlight, by rintro _ ⟨⟩⟩
  | @receive event rest hflight =>
    have hflightMap := h.inFlight
    rw [hflight, List.map_cons] at hflightMap
    obtain ⟨row, rows, hbetween, hevent, hrest⟩ := List.map_eq_cons_iff.mp hflightMap.symm
    obtain ⟨hlt, hle, hfirst, hrows⟩ := h.log.log.between_eq_cons hbetween
    have hsequence : event.sequence = row.sequence := sequence_of_content hevent.symm
    have hmem : row ∈ taskEventsOf s.store.database taskId :=
      (mem_between.mp (by rw [hbetween]; exact List.mem_cons_self)).1
    refine ⟨row.sequence, sent, h.log, ?_, h.first_le.trans hlt.le, hle, .inr ⟨row, hmem, rfl⟩, ?_,
      ?_, ?_, h.stream⟩
    · rw [hsequence]
      exact lastEventSequence_eventIdText (h.log.bounded row hmem)
    · rcases h.sent_read with heq | hread
      · omega
      · exact .inr hread
    · rw [← h.log.log.between_append_between h.first_le hlt.le, hfirst, List.map_append,
        List.map_append, h.received]
      simp [hevent]
    · rw [hrows, hrest]
  | disconnect =>
    exact ⟨last, last, h.log, h.resumable, h.first_le, le_rfl, h.last_read, .inl rfl,
      h.received, by simp, by rintro _ ⟨⟩⟩

/-! ### Runs -/

theorem StreamRun.delivers_of_reachable {header : Option (List Char)} {first : ℕ} {s : StreamRun}
    (hfirst : lastEventSequence header = .ok first)
    (hs : (streamSystem rt str taskId authentication header).Reachable s) :
    ∃ last sent, s.Delivers rt str taskId first last sent := by
  refine hs.invariant (P := fun s => ∃ last sent, s.Delivers rt str taskId first last sent) ?_ ?_
  · rintro s ⟨hstream, hflight, hreceived, hheader, hlog⟩
    refine ⟨first, first, hlog, by rw [hheader, hfirst], le_rfl, le_rfl, .inl rfl, .inl rfl,
      by simp [hreceived], by simp [hflight], ?_⟩
    intro stream hsome
    rw [hstream] at hsome
    cases hsome
  · rintro s t ⟨last, sent, hs⟩ hstep
    exact hstep.delivers hs

/-- What the client received is the log of the task after its first cursor and up to the
identifier it would resume with, ascending, each event once; the identifier can be resumed
with; and when nothing is on its way and the open stream reads nothing new, that is the whole
log. -/
structure StreamRun.Promises (rt : Runtime) (str : Json → String) (taskId : UUID)
    (authentication : AuthenticatedSession) (first : ℕ) (s : StreamRun) : Prop where
  delivered : ∃ last, lastEventSequence s.lastEventId = .ok last ∧ first ≤ last ∧
    s.received.map TaskEventResponse.content =
      (between TaskEvent.sequence first last (taskEventsOf s.store.database taskId)).map
        (shown rt str)
  ascending : (s.received.map TaskEventResponse.sequence).Pairwise (· < ·)
  complete : ∀ stream now, s.stream = some stream → s.inFlight = [] →
    eventsAfter rt str now s.store taskId authentication stream.cursor = .ok [] →
    s.received.map TaskEventResponse.content =
      (after TaskEvent.sequence first (taskEventsOf s.store.database taskId)).map (shown rt str)

theorem StreamRun.stream_promises_kept {header : Option (List Char)} {first : ℕ} {s : StreamRun}
    (hfirst : lastEventSequence header = .ok first)
    (hs : (streamSystem rt str taskId authentication header).Reachable s) :
    s.Promises rt str taskId authentication first := by
  obtain ⟨last, sent, h⟩ := StreamRun.delivers_of_reachable hfirst hs
  refine ⟨⟨last, h.resumable, h.first_le, h.received⟩, ?_, ?_⟩
  · have hsequences : s.received.map TaskEventResponse.sequence =
        (between TaskEvent.sequence first last (taskEventsOf s.store.database taskId)).map
          TaskEvent.sequence := by
      have hmap := congrArg (List.map TaskEventResponse.sequence) h.received
      rw [List.map_map, List.map_map] at hmap
      exact hmap
    rw [hsequences, List.pairwise_map]
    exact h.log.log.log_between first last
  · intro stream now hstream hflight hbatch
    obtain ⟨hcursor, -⟩ := h.stream stream hstream
    have hrest := (h.log.eventsAfter_ok hbatch).2 rfl
    have hread := h.inFlight
    rw [hflight, List.map_nil] at hread
    have hnone := List.map_eq_nil_iff.mp hread.symm
    have hsplit := h.log.log.between_append_after h.last_le
    rw [hnone, ← hcursor, hrest, List.append_nil] at hsplit
    rw [h.received, ← h.log.log.between_append_after h.first_le, ← hsplit, List.append_nil]

/-- A writer that takes the next sequence of the task appends to its log. -/
theorem EventLog.append {db db' : Database} {event : TaskEvent}
    (h : EventLog (taskEventsOf db taskId))
    (hrows : db'.taskEvents.rows = db.taskEvents.rows ++ [event]) (htask : event.taskId = taskId) (howner : event.ownerId = localOwnerId)
    (hsequence : event.sequence = nextEventSequence db taskId)
    (hbound : event.sequence ≤ maxTaskEventSequence) :
    taskEventsOf db taskId <+: taskEventsOf db' taskId ∧ EventLog (taskEventsOf db' taskId) := by
  have hevents : taskEventsOf db' taskId = taskEventsOf db taskId ++ [event] := by
    simp [taskEventsOf, Table.select, hrows, htask]
  rw [hevents]
  refine ⟨List.prefix_append _ _, ?_, ?_, ?_⟩
  · refine List.pairwise_append.mpr ⟨h.log, List.pairwise_singleton _ _, ?_⟩
    intro other hother last hlast
    obtain rfl := List.mem_singleton.mp hlast
    have hle : other.sequence ≤ maxRank TaskEvent.sequence (taskEventsOf db taskId) :=
      le_maxRank hother
    rw [hsequence, nextEventSequence]
    omega
  · intro other hother
    rcases List.mem_append.mp hother with hother | hother
    · exact h.owned other hother
    · rwa [List.mem_singleton.mp hother]
  · intro other hother
    rcases List.mem_append.mp hother with hother | hother
    · exact h.bounded other hother
    · rwa [List.mem_singleton.mp hother]

end

/-! ### A run -/

def streamedEvent : TaskEvent where
  id := .ofNat 3
  taskId := .ofNat 1
  sequence := 1
  eventType := "TASK_CREATED"
  payload := .obj []
  occurredAt := 0
  ownerId := localOwnerId
  rootCorrelationId := .ofNat 1

def streamedTask : Task :=
  { id := .ofNat 1, repository := "r", ownerId := localOwnerId, rootCorrelationId := .ofNat 1 }

def streamSession : AuthSession where
  id := .ofNat 2
  userId := 1
  tokenDigest := "t"
  csrfTokenDigest := "c"
  lastSeenAt := 0
  expiresAt := 9
  absoluteExpiresAt := 9
  reauthenticatedAt := 0

def streamAuthentication : AuthenticatedSession :=
  ⟨.ofNat 2, 1, "c", 9, 9, 9, 0, true⟩

theorem streamedEvents_nodup : ([streamedEvent].map key).Nodup := List.nodup_singleton _

theorem streamedTasks_nodup : ([streamedTask].map key).Nodup := List.nodup_singleton _

theorem streamSessions_nodup : ([streamSession].map key).Nodup := List.nodup_singleton _

def streamedStore : TaskStreamStore where
  database :=
    { tasks := ⟨[streamedTask], streamedTasks_nodup⟩
      taskEvents := ⟨[streamedEvent], streamedEvents_nodup⟩ }
  sessions := ⟨[streamSession], streamSessions_nodup⟩

theorem streamedLog : EventLog (taskEventsOf streamedStore.database (.ofNat 1)) := by
  have hevents : taskEventsOf streamedStore.database (.ofNat 1) = [streamedEvent] := rfl
  rw [hevents]
  refine ⟨List.pairwise_singleton _ _, ?_, ?_⟩
  · intro event hevent
    rw [List.mem_singleton.mp hevent]
    rfl
  · intro event hevent
    rw [List.mem_singleton.mp hevent]
    decide

/-- A stream is opened, its event is sent and received, and the promises hold of that run. -/
theorem streamed_promises : ∃ s : StreamRun,
    s.received.map TaskEventResponse.sequence = [1] ∧ s.lastEventId = some ['1'] ∧
    s.Promises .plain (fun _ => "") (.ofNat 1) streamAuthentication 0 := by
  have h0 : (streamSystem .plain (fun _ => "") (.ofNat 1) streamAuthentication none).Reachable
      { store := streamedStore, lastEventId := none } :=
    .of_init ⟨rfl, rfl, rfl, rfl, streamedLog⟩
  have h1 := h0.tail (StreamStep.connect 0 rfl rfl rfl)
  have h2 := h1.tail (StreamStep.resume 0 true false rfl)
  have h3 := h2.tail (StreamStep.resume 0 true false rfl)
  have h4 := h3.tail (StreamStep.resume 0 true false rfl)
  have h5 := h4.tail (StreamStep.receive rfl)
  exact ⟨_, rfl, rfl, StreamRun.stream_promises_kept rfl h5⟩

end ControlPlane
