import ControlPlane.HostAgent.Journal
import ControlPlane.Lib.System

/-!
# Runs of the execution journal

Requests are begun and finished in any order, at any time, by whoever holds them, and the host
agent restarts. What the journal answered is kept beside it, so that the answers of a run can
be compared: an operation is executed once, it is replayed with its first result, a fence
never falls back.

## Main results

* `JournalRun.consistent_of_reachable`: the invariant of the journal and its answers.
* `JournalRun.keepsPromises_iff`: when one more step keeps what the journal promises.
-/
namespace ControlPlane.HostAgent

inductive JournalEvent where
  | executed (r : HostRequestMessage)
  | replayed (r : HostRequestMessage) (result : JournalResult)
  | stored (r : HostRequestMessage) (result : JournalResult)

inductive JournalAction where
  | begin (r : HostRequestMessage) (now : ℤ)
  | finish (r : HostRequestMessage) (result : JournalResult) (now : ℤ)
  | restart

namespace JournalAction

def request? : JournalAction → Option HostRequestMessage
  | begin r _ => some r
  | finish r _ _ => some r
  | restart => none

/-- What the journal answers, and what it leaves. The journal is a file: it survives a restart. -/
def perform (rt : Runtime) (j : Journal) :
    JournalAction → Except HostJournalError (Option JournalDecision) × Journal
  | begin r now => (some <$> (j.begin rt now r).1, (j.begin rt now r).2)
  | finish r result now =>
    ((fun _ => none) <$> (j.finish rt now r result).1, (j.finish rt now r result).2)
  | restart => (.ok none, j)

def events : JournalAction → Except HostJournalError (Option JournalDecision) → List JournalEvent
  | begin r _, .ok (some .execute) => [.executed r]
  | begin r _, .ok (some (.replay result)) => [.replayed r result]
  | finish r result _, .ok _ => [.stored r result]
  | _, _ => []

end JournalAction

/-- The journal, and what it answered so far. -/
structure JournalRun where
  journal : Journal := {}
  events : List JournalEvent := []

namespace JournalRun

def perform (rt : Runtime) (s : JournalRun) (a : JournalAction) : JournalRun where
  journal := (a.perform rt s.journal).2
  events := s.events ++ a.events (a.perform rt s.journal).1

end JournalRun

/-- Steps by the admitted requests, from the empty journal. -/
def journalSystem (rt : Runtime) (admitted : HostRequestMessage → Prop) :
    TransitionSystem JournalRun where
  init s := s = {}
  step s t := ∃ a : JournalAction, (∀ r ∈ a.request?, admitted r) ∧ t = s.perform rt a

/-- The result stored first for an operation. -/
def firstStored (k : OperationKey) (events : List JournalEvent) : Option JournalResult :=
  events.findSome? fun
    | .stored r result => if r.operationKey = k then some result else none
    | _ => none

/-- No two admitted requests about different operations have one digest. -/
def CollisionFree (rt : Runtime) (admitted : HostRequestMessage → Prop) : Prop :=
  ∀ r r', admitted r → admitted r' → r.digest rt = r'.digest rt →
    r.operationKey = r'.operationKey ∧ r.semanticFingerprint rt = r'.semanticFingerprint rt

/-- What the journal promises of a step. -/
structure KeepsPromises (rt : Runtime) (s : JournalRun) (a : JournalAction) : Prop where
  once : ∀ r now, a = .begin r now → (a.perform rt s.journal).1 = .ok (some .execute) →
    ∀ r', .executed r' ∈ s.events → r'.operationKey ≠ r.operationKey
  replays : ∀ r now result, a = .begin r now →
    (a.perform rt s.journal).1 = .ok (some (.replay result)) →
    (∃ r', .executed r' ∈ s.events ∧ r'.operationKey = r.operationKey ∧
      r'.semanticFingerprint rt = r.semanticFingerprint rt) ∧
    firstStored r.operationKey s.events = some result
  monotone : ∀ job row, s.journal.jobFences.get? job = some row →
    ∃ row', (s.perform rt a).journal.jobFences.get? job = some row' ∧
      row.fencingToken ≤ row'.fencingToken
  fenced : ∀ r lease row, a.request? = some r → r.authority.lease? = some lease →
    s.journal.jobFences.get? lease.jobId = some row → lease.fencingToken < row.fencingToken →
    ∃ e, (a.perform rt s.journal).1 = .error e
  atomic : ∀ e, (a.perform rt s.journal).1 = .error e → (s.perform rt a).journal = s.journal

/-- The request finds a delivery of its own that cannot be read back, and its fence or its
receipt is written. -/
def commitsUnread (rt : Runtime) (j : Journal) : JournalAction → Prop
  | .begin r now => ∃ fences receipts delivery,
    applyFence now r j.jobFences = .ok fences ∧
    recordReceipt rt r j.requestReceipts = .ok receipts ∧
    j.deliveries.get? r.requestId = some delivery ∧ delivery.requestDigest = r.digest rt ∧
    (storedResult r.taskScoped delivery.result).isOk = false ∧
    ¬ (fences = j.jobFences ∧ receipts = j.requestReceipts)
  | _ => False

section Begin
variable {rt : Runtime} {now : ℤ} {r : HostRequestMessage} {j : Journal}

/-- How `begin` ends. -/
inductive Began (rt : Runtime) (now : ℤ) (r : HostRequestMessage) (j : Journal) :
    Except HostJournalError JournalDecision → Journal → Prop
  | rolledBack (e : HostJournalError) : Began rt now r j (.error e) j
  | delivered {fences : Table JobFence} {receipts : Table RequestReceipt} {delivery : Delivery}
    (hfence : applyFence now r j.jobFences = .ok fences)
    (hreceipt : recordReceipt rt r j.requestReceipts = .ok receipts)
    (hdelivery : j.deliveries.get? r.requestId = some delivery)
    (hdigest : delivery.requestDigest = r.digest rt) :
    Began rt now r j (JournalDecision.replay <$> storedResult r.taskScoped delivery.result)
      { j with jobFences := fences, requestReceipts := receipts }
  | reserved {fences : Table JobFence} {receipts : Table RequestReceipt}
    {operations : Table OperationRow}
    (hfence : applyFence now r j.jobFences = .ok fences)
    (hnew : j.operations.get? r.operationKey = none)
    (hinsert : j.operations.insert?
      ⟨r.operationKey, r.semanticFingerprint rt, r.requestId, none⟩ = some operations) :
    Began rt now r j (.ok .execute)
      { j with jobFences := fences, requestReceipts := receipts, operations }
  | ambiguous {fences : Table JobFence} {receipts : Table RequestReceipt}
    (hfence : applyFence now r j.jobFences = .ok fences) :
    Began rt now r j (.ok .ambiguous) { j with jobFences := fences, requestReceipts := receipts }
  | replayed {fences : Table JobFence} {receipts : Table RequestReceipt}
    {deliveries : Table Delivery} {operation : OperationRow} {stored : JournalResult}
    (hfence : applyFence now r j.jobFences = .ok fences)
    (hoperation : j.operations.get? r.operationKey = some operation)
    (hfingerprint : operation.semanticFingerprint = r.semanticFingerprint rt)
    (hstored : operation.outcome = some stored)
    (hinsert : j.deliveries.insert? ⟨r.requestId, r.digest rt, stored⟩ = some deliveries) :
    Began rt now r j (.ok (.replay stored))
      { j with jobFences := fences, requestReceipts := receipts, deliveries }

/-- A result is read back as it was stored, or not at all. -/
theorem eq_of_storedResult {taskScoped : Bool} {stored result : JournalResult}
    (h : storedResult taskScoped stored = .ok result) : result = stored := by
  simp only [storedResult, Except.bind_eq_ok, Except.orThrow_eq_ok, Except.require_eq_ok,
    Except.pure_eq_ok] at h
  obtain ⟨fields, hfields, -, -, -, -, -, -, hresult⟩ := h
  rw [← hresult, eq_of_normalizeHostJsonObject hfields]

theorem began (rt : Runtime) (now : ℤ) (r : HostRequestMessage) (j : Journal) :
    Began rt now r j (j.begin rt now r).1 (j.begin rt now r).2 := by
  unfold Journal.begin
  cases hcommit : j.beginTransaction rt now r with
  | error e => exact .rolledBack e
  | ok committed =>
    simp only [Journal.beginTransaction, Except.bind_eq_ok] at hcommit
    obtain ⟨fences, hfence, receipts, hreceipt, hcommit⟩ := hcommit
    cases hdelivery : j.deliveries.get? r.requestId with
    | some delivery =>
      simp only [hdelivery, Except.bind_eq_ok, Except.require_eq_ok, Except.pure_eq_ok] at hcommit
      obtain ⟨-, hdigest, rfl⟩ := hcommit
      exact .delivered hfence hreceipt hdelivery hdigest
    | none =>
      simp only [hdelivery, Except.bind_eq_ok, Except.pure_eq_ok, Journal.reserve] at hcommit
      obtain ⟨⟨decision, reserved⟩, hreserve, rfl⟩ := hcommit
      cases hoperation : j.operations.get? r.operationKey with
      | none =>
        simp only [hoperation, Except.bind_eq_ok, Except.orThrow_eq_ok, Except.pure_eq_ok,
          Prod.mk.injEq] at hreserve
        obtain ⟨operations, hinsert, rfl, rfl⟩ := hreserve
        exact .reserved hfence hoperation hinsert
      | some operation =>
        simp only [hoperation, Except.bind_eq_ok, Except.require_eq_ok] at hreserve
        obtain ⟨-, hfingerprint, hreserve⟩ := hreserve
        cases hstored : operation.outcome with
        | none =>
          simp only [hstored, Except.pure_eq_ok, Prod.mk.injEq] at hreserve
          obtain ⟨rfl, rfl⟩ := hreserve
          exact .ambiguous hfence
        | some stored =>
          simp only [hstored, Except.bind_eq_ok, Except.pure_eq_ok, Prod.mk.injEq,
            recordDelivery, Except.orThrow_eq_ok] at hreserve
          obtain ⟨result, hresult, deliveries, hinsert, rfl, rfl⟩ := hreserve
          obtain rfl := eq_of_storedResult hresult
          exact .replayed hfence hoperation hfingerprint hstored hinsert

/-- How `finish` ends. -/
inductive Finished (rt : Runtime) (now : ℤ) (r : HostRequestMessage) (result : JournalResult)
    (j : Journal) : Except HostJournalError Unit → Journal → Prop
  | rolledBack (e : HostJournalError) : Finished rt now r result j (.error e) j
  | stored {operation : OperationRow} {deliveries : Table Delivery}
    (hfence : assertCurrentFence now r j.jobFences = .ok ())
    (hoperation : j.operations.get? r.operationKey = some operation)
    (hfingerprint : operation.semanticFingerprint = r.semanticFingerprint rt)
    (hrunning : operation.outcome = none)
    (hinsert : j.deliveries.insert? ⟨r.requestId, r.digest rt, result⟩ = some deliveries) :
    Finished rt now r result j (.ok ())
      { j with
        operations := j.operations.set { operation with outcome := some result }, deliveries }

theorem finished (rt : Runtime) (now : ℤ) (r : HostRequestMessage) (result : JournalResult)
    (j : Journal) :
    Finished rt now r result j (j.finish rt now r result).1 (j.finish rt now r result).2 := by
  unfold Journal.finish
  cases hcommit : j.finishTransaction rt now r result with
  | error e => exact .rolledBack e
  | ok committed =>
    simp only [Journal.finishTransaction, Except.bind_eq_ok, Except.orThrow_eq_ok,
      Except.pure_eq_ok, recordDelivery, Journal.running?, Option.filter_eq_some_iff,
      Bool.and_eq_true, decide_eq_true_eq, Option.isNone_iff_eq_none] at hcommit
    obtain ⟨⟨⟩, hfence, operation, ⟨hoperation, hfingerprint, hrunning⟩, deliveries, hinsert,
      rfl⟩ := hcommit
    exact .stored hfence hoperation hfingerprint hrunning hinsert

end Begin

/-! ### Fences -/

section Fences
variable {now : ℤ} {r : HostRequestMessage} {fences fences' : Table JobFence} {row row' : JobFence}
  {lease : TaskLeaseHostAuthority}

/-- A fence stays the one of its job, and its token does not fall. -/
theorem JobFence.advance_spec (h : row.advance now lease = .ok row') :
    row'.jobId = row.jobId ∧ row.fencingToken ≤ row'.fencingToken := by
  simp only [advance, Except.bind_eq_ok, Except.require_eq_ok] at h
  obtain ⟨-, holder, -, -, h⟩ := h
  by_cases hsame : lease.fencingToken = row.fencingToken
  · simp only [hsame, if_true, Except.bind_eq_ok, Except.require_eq_ok] at h
    obtain ⟨-, -, -, -, h⟩ := h
    by_cases hlonger : row.leaseExpiresAtMs.val < lease.leaseExpiresAtMs.val
    · simp only [hlonger, if_true, Except.pure_eq_ok] at h
      subst h
      exact ⟨rfl, le_rfl⟩
    · simp only [hlonger, if_false, Except.pure_eq_ok] at h
      subst h
      exact ⟨rfl, le_rfl⟩
  · simp only [hsame, if_false, Except.pure_eq_ok] at h
    subst h
    exact ⟨rfl, not_lt.mp holder⟩

theorem applyFence_get? {job : UUID} (h : applyFence now r fences = .ok fences')
    (hrow : fences.get? job = some row) :
    ∃ row', fences'.get? job = some row' ∧ row.fencingToken ≤ row'.fencingToken := by
  unfold applyFence at h
  cases hlease : r.authority.lease? with
  | none =>
    simp only [hlease, Except.ok.injEq] at h
    exact ⟨row, h ▸ hrow, le_rfl⟩
  | some lease =>
    simp only [hlease, Except.bind_eq_ok] at h
    obtain ⟨-, -, h⟩ := h
    cases hseen : fences.get? lease.jobId with
    | none =>
      simp only [hseen, Except.orThrow_eq_ok] at h
      have hne : lease.jobId ≠ job := by
        intro heq
        rw [heq, hrow] at hseen
        cases hseen
      refine ⟨row, ?_, le_rfl⟩
      rw [Table.get?_insert? h]
      simpa [JobFence.ofAuthority, hne] using hrow
    | some seen =>
      simp only [hseen, Except.bind_eq_ok, Except.pure_eq_ok] at h
      obtain ⟨advanced, hadvance, rfl⟩ := h
      obtain ⟨hjob, htoken⟩ := JobFence.advance_spec hadvance
      have hkey : key advanced = lease.jobId := hjob.trans (Table.key_of_get? hseen)
      by_cases heq : lease.jobId = job
      · subst heq
        obtain rfl : seen = row := Option.some.inj (hseen.symm.trans hrow)
        refine ⟨advanced, ?_, htoken⟩
        rw [Table.get?_set, if_pos hkey, hseen]
        rfl
      · refine ⟨row, ?_, le_rfl⟩
        rw [Table.get?_set_of_ne (hkey ▸ heq)]
        exact hrow

/-- A lease older than the recorded one is refused when an operation begins. -/
theorem applyFence_fenced (hlease : r.authority.lease? = some lease)
    (hrow : fences.get? lease.jobId = some row) (hold : lease.fencingToken < row.fencingToken) :
    applyFence now r fences ≠ .ok fences' := by
  intro h
  simp only [applyFence, hlease, hrow, Except.bind_eq_ok, JobFence.advance,
    Except.require_eq_ok] at h
  obtain ⟨-, -, advanced, ⟨-, hfence, -⟩, -⟩ := h
  exact hfence hold

/-- A lease older than the recorded one is refused when an operation is finished. -/
theorem assertCurrentFence_fenced (hlease : r.authority.lease? = some lease)
    (hrow : fences.get? lease.jobId = some row) (hold : lease.fencingToken < row.fencingToken) :
    assertCurrentFence now r fences ≠ .ok () := by
  intro h
  simp only [assertCurrentFence, hlease, hrow, Except.bind_eq_ok, Except.require_eq_ok,
    JobFence.current, Bool.and_eq_true, decide_eq_true_eq] at h
  obtain ⟨-, ⟨-, htoken⟩, -⟩ := h
  exact hold.ne htoken.symm

end Fences

/-! ### The invariant -/

/-- The journal tells what it answered: an operation has a row once it was executed, its
outcome is what was stored first for it, and so is what was delivered to any request. -/
structure Consistent (rt : Runtime) (admitted : HostRequestMessage → Prop) (s : JournalRun) :
    Prop where
  executed : ∀ r, .executed r ∈ s.events →
    ∃ operation, s.journal.operations.get? r.operationKey = some operation
  reserved : ∀ k operation, s.journal.operations.get? k = some operation →
    ∃ r, .executed r ∈ s.events ∧ r.operationKey = k ∧
      r.semanticFingerprint rt = operation.semanticFingerprint
  stored : ∀ k, firstStored k s.events =
    (s.journal.operations.get? k).bind OperationRow.outcome
  delivered : ∀ id delivery, s.journal.deliveries.get? id = some delivery →
    ∃ r operation, admitted r ∧ r.digest rt = delivery.requestDigest ∧
      s.journal.operations.get? r.operationKey = some operation ∧
      operation.semanticFingerprint = r.semanticFingerprint rt ∧
      operation.outcome = some delivery.result

section Invariant
variable {rt : Runtime} {admitted : HostRequestMessage → Prop} {s t : JournalRun} {now : ℤ}
  {r : HostRequestMessage} {result : JournalResult} {k : OperationKey} {events : List JournalEvent}

@[simp] theorem firstStored_executed :
    firstStored k (events ++ [.executed r]) = firstStored k events := by
  simp [firstStored, List.findSome?_append]

@[simp] theorem firstStored_replayed :
    firstStored k (events ++ [.replayed r result]) = firstStored k events := by
  simp [firstStored, List.findSome?_append]

theorem firstStored_stored :
    firstStored k (events ++ [.stored r result]) =
      (firstStored k events).or (if r.operationKey = k then some result else none) := by
  by_cases h : r.operationKey = k <;> simp [firstStored, List.findSome?_append, h]

/-- A step that neither executes nor stores. -/
theorem Consistent.frame (hs : Consistent rt admitted s)
    (hoperations : t.journal.operations = s.journal.operations)
    (hdeliveries : t.journal.deliveries = s.journal.deliveries)
    (hexecuted : ∀ r, JournalEvent.executed r ∈ t.events ↔ .executed r ∈ s.events)
    (hstored : ∀ k, firstStored k t.events = firstStored k s.events) :
    Consistent rt admitted t where
  executed r hr := by
    rw [hoperations]
    exact hs.executed r ((hexecuted r).mp hr)
  reserved k operation hoperation := by
    rw [hoperations] at hoperation
    obtain ⟨r, hr, hspec⟩ := hs.reserved k operation hoperation
    exact ⟨r, (hexecuted r).mpr hr, hspec⟩
  stored k := by rw [hstored, hoperations, hs.stored]
  delivered id delivery hdelivery := by
    rw [hdeliveries] at hdelivery
    rw [hoperations]
    exact hs.delivered id delivery hdelivery

/-- A new operation is reserved. -/
theorem Consistent.reserve (hs : Consistent rt admitted s) {operations : Table OperationRow}
    (hnew : s.journal.operations.get? r.operationKey = none)
    (hinsert : s.journal.operations.insert?
      ⟨r.operationKey, r.semanticFingerprint rt, r.requestId, none⟩ = some operations)
    (hoperations : t.journal.operations = operations)
    (hdeliveries : t.journal.deliveries = s.journal.deliveries)
    (hevents : t.events = s.events ++ [.executed r]) : Consistent rt admitted t := by
  have hget : ∀ k, t.journal.operations.get? k = if r.operationKey = k then
      some ⟨r.operationKey, r.semanticFingerprint rt, r.requestId, none⟩
      else s.journal.operations.get? k := by
    intro k
    rw [hoperations]
    exact Table.get?_insert? hinsert
  have hkept : ∀ k operation, s.journal.operations.get? k = some operation →
      t.journal.operations.get? k = some operation := by
    intro k operation hk
    have hne : r.operationKey ≠ k := by
      rintro rfl
      rw [hnew] at hk
      cases hk
    rw [hget, if_neg hne, hk]
  refine ⟨?_, ?_, ?_, ?_⟩
  · intro r' hr'
    rw [hevents, List.mem_append, List.mem_singleton] at hr'
    rcases hr' with hr' | hr'
    · obtain ⟨operation, hoperation⟩ := hs.executed r' hr'
      exact ⟨operation, hkept _ _ hoperation⟩
    · obtain rfl : r' = r := by simpa using hr'
      exact ⟨_, (hget _).trans (if_pos rfl)⟩
  · intro k operation hoperation
    rw [hget] at hoperation
    rw [hevents]
    by_cases hk : r.operationKey = k
    · rw [if_pos hk, Option.some.injEq] at hoperation
      subst hoperation
      exact ⟨r, List.mem_append_right _ (List.mem_singleton_self _), hk, rfl⟩
    · rw [if_neg hk] at hoperation
      obtain ⟨r', hr', hspec⟩ := hs.reserved k operation hoperation
      exact ⟨r', List.mem_append_left _ hr', hspec⟩
  · intro k
    rw [hevents, firstStored_executed, hs.stored, hget]
    by_cases hk : r.operationKey = k
    · subst hk
      simp [hnew]
    · rw [if_neg hk]
  · intro id delivery hdelivery
    rw [hdeliveries] at hdelivery
    obtain ⟨r', operation, hr', hdigest, hoperation, hspec⟩ := hs.delivered id delivery hdelivery
    exact ⟨r', operation, hr', hdigest, hkept _ _ hoperation, hspec⟩

/-- The outcome of an operation is delivered to one more request. -/
theorem Consistent.deliver (hs : Consistent rt admitted s) (hr : admitted r)
    {deliveries : Table Delivery} {operation : OperationRow}
    (hoperation : s.journal.operations.get? r.operationKey = some operation)
    (hfingerprint : operation.semanticFingerprint = r.semanticFingerprint rt)
    (houtcome : operation.outcome = some result)
    (hinsert : s.journal.deliveries.insert? ⟨r.requestId, r.digest rt, result⟩ = some deliveries)
    (hoperations : t.journal.operations = s.journal.operations)
    (hdeliveries : t.journal.deliveries = deliveries)
    (hexecuted : ∀ r, JournalEvent.executed r ∈ t.events ↔ .executed r ∈ s.events)
    (hstored : ∀ k, firstStored k t.events = firstStored k s.events) :
    Consistent rt admitted t := by
  have hframe : Consistent rt admitted
      { t with journal := { t.journal with deliveries := s.journal.deliveries } } :=
    hs.frame hoperations rfl hexecuted hstored
  refine ⟨hframe.executed, hframe.reserved, hframe.stored, ?_⟩
  intro id delivery hdelivery
  rw [hdeliveries, Table.get?_insert? hinsert] at hdelivery
  rw [hoperations]
  by_cases hid : r.requestId = id
  · rw [key_delivery, if_pos hid, Option.some.injEq] at hdelivery
    subst hdelivery
    exact ⟨r, operation, hr, rfl, hoperation, hfingerprint, houtcome⟩
  · rw [key_delivery, if_neg hid] at hdelivery
    exact hs.delivered id delivery hdelivery

/-- The first result of an operation is stored. -/
theorem Consistent.store (hs : Consistent rt admitted s) {operation : OperationRow}
    (hoperation : s.journal.operations.get? r.operationKey = some operation)
    (hrunning : operation.outcome = none)
    (hoperations : t.journal.operations =
      s.journal.operations.set { operation with outcome := some result })
    (hdeliveries : t.journal.deliveries = s.journal.deliveries)
    (hevents : t.events = s.events ++ [.stored r result]) : Consistent rt admitted t := by
  have hkey : operation.key = r.operationKey := Table.key_of_get? hoperation
  have hget : ∀ k, t.journal.operations.get? k = if r.operationKey = k then
      some { operation with outcome := some result } else s.journal.operations.get? k := by
    intro k
    rw [hoperations, Table.get?_set]
    by_cases hk : r.operationKey = k
    · subst hk
      simp [hkey, hoperation]
    · have hne : operation.key ≠ k := hkey ▸ hk
      simp [hk, hne]
  have hexecuted : ∀ r', JournalEvent.executed r' ∈ t.events ↔ .executed r' ∈ s.events := by
    intro r'
    simp [hevents]
  refine ⟨?_, ?_, ?_, ?_⟩
  · intro r' hr'
    obtain ⟨o, ho⟩ := hs.executed r' ((hexecuted r').mp hr')
    rw [hget]
    by_cases hk : r.operationKey = r'.operationKey
    · exact ⟨_, if_pos hk⟩
    · exact ⟨o, (if_neg hk).trans ho⟩
  · intro k o ho
    rw [hget] at ho
    simp only [hexecuted]
    by_cases hk : r.operationKey = k
    · rw [if_pos hk, Option.some.injEq] at ho
      subst ho hk
      exact hs.reserved r.operationKey operation hoperation
    · rw [if_neg hk] at ho
      exact hs.reserved k o ho
  · intro k
    rw [hevents, firstStored_stored, hs.stored, hget]
    by_cases hk : r.operationKey = k
    · subst hk
      simp [hoperation, hrunning]
    · simp [hk]
  · intro id delivery hdelivery
    rw [hdeliveries] at hdelivery
    obtain ⟨r', o, hr', hdigest, ho, hfingerprint, houtcome⟩ := hs.delivered id delivery hdelivery
    have hne : r.operationKey ≠ r'.operationKey := by
      intro hk
      rw [← hk, hoperation, Option.some.injEq] at ho
      rw [← ho, hrunning] at houtcome
      cases houtcome
    exact ⟨r', o, hr', hdigest, by rw [hget, if_neg hne, ho], hfingerprint, houtcome⟩

theorem Consistent.begin (hs : Consistent rt admitted s) (hr : admitted r) :
    Consistent rt admitted (s.perform rt (.begin r now)) := by
  have hbegan := began rt now r s.journal
  simp only [JournalRun.perform, JournalAction.perform]
  generalize (s.journal.begin rt now r).1 = answer at hbegan ⊢
  generalize (s.journal.begin rt now r).2 = after at hbegan ⊢
  cases hbegan with
  | rolledBack e =>
    exact hs.frame rfl rfl (by simp [JournalAction.events]) (by simp [JournalAction.events])
  | @delivered _ _ delivery =>
    cases storedResult r.taskScoped delivery.result with
    | error e =>
      exact hs.frame rfl rfl (by simp [JournalAction.events]) (by simp [JournalAction.events])
    | ok result =>
      exact hs.frame rfl rfl (by simp [JournalAction.events]) (by simp [JournalAction.events])
  | reserved hfence hnew hinsert => exact hs.reserve hnew hinsert rfl rfl rfl
  | ambiguous hfence =>
    exact hs.frame rfl rfl (by simp [JournalAction.events]) (by simp [JournalAction.events])
  | replayed hfence hoperation hfingerprint hstored hinsert =>
    exact hs.deliver hr hoperation hfingerprint hstored hinsert rfl rfl
      (by simp [JournalAction.events]) (by simp [JournalAction.events])

theorem Consistent.finish (hs : Consistent rt admitted s) (hr : admitted r) :
    Consistent rt admitted (s.perform rt (.finish r result now)) := by
  have hfinished := finished rt now r result s.journal
  simp only [JournalRun.perform, JournalAction.perform]
  generalize (s.journal.finish rt now r result).1 = answer at hfinished ⊢
  generalize (s.journal.finish rt now r result).2 = after at hfinished ⊢
  cases hfinished with
  | rolledBack e =>
    exact hs.frame rfl rfl (by simp [JournalAction.events]) (by simp [JournalAction.events])
  | @stored operation deliveries hfence hoperation hfingerprint hrunning hinsert =>
    have hkey : operation.key = r.operationKey := Table.key_of_get? hoperation
    have hstored : Consistent rt admitted
        { journal := { s.journal with
            operations := s.journal.operations.set { operation with outcome := some result } }
          events := s.events ++ [.stored r result] } := hs.store hoperation hrunning rfl rfl rfl
    have hset : (s.journal.operations.set { operation with outcome := some result }).get?
        r.operationKey = some { operation with outcome := some result } := by
      rw [← hkey] at hoperation ⊢
      have hne : s.journal.operations.get? (key { operation with outcome := some result }) ≠
          none := by
        rw [key_operationRow, hoperation]
        exact Option.some_ne_none _
      exact Table.get?_set_self hne
    exact hstored.deliver hr hset hfingerprint rfl hinsert rfl rfl (fun _ => Iff.rfl) fun _ => rfl

theorem consistent_of_reachable (hs : (journalSystem rt admitted).Reachable s) :
    Consistent rt admitted s := by
  refine hs.invariant ?_ ?_
  · rintro s rfl
    have hnone : ∀ k, ({} : Journal).operations.get? k = none := fun _ => rfl
    have hempty : ∀ id, ({} : Journal).deliveries.get? id = none := fun _ => rfl
    constructor <;> simp [firstStored, hnone, hempty]
  · rintro s t hs ⟨a, ha, rfl⟩
    cases a with
    | begin r now => exact hs.begin (ha r rfl)
    | finish r result now => exact hs.finish (ha r rfl)
    | restart =>
      exact hs.frame rfl rfl (by simp [JournalRun.perform, JournalAction.perform,
        JournalAction.events]) (by simp [JournalRun.perform, JournalAction.perform,
        JournalAction.events])

end Invariant

/-! ### What the journal promises -/

section Promises
variable {rt : Runtime} {admitted : HostRequestMessage → Prop} {s : JournalRun}
  {a : JournalAction}

/-- The fences a step leaves are those it found or those that saw its request. -/
theorem fences_of_perform (rt : Runtime) (s : JournalRun) (a : JournalAction) :
    (s.perform rt a).journal.jobFences = s.journal.jobFences ∨
    ∃ r now, applyFence now r s.journal.jobFences = .ok (s.perform rt a).journal.jobFences := by
  cases a with
  | begin r now =>
    have hbegan := began rt now r s.journal
    simp only [JournalRun.perform, JournalAction.perform]
    generalize (s.journal.begin rt now r).1 = answer at hbegan
    generalize (s.journal.begin rt now r).2 = after at hbegan ⊢
    cases hbegan with
    | rolledBack e => exact .inl rfl
    | delivered hfence _ _ _ => exact .inr ⟨r, now, hfence⟩
    | reserved hfence _ _ => exact .inr ⟨r, now, hfence⟩
    | ambiguous hfence => exact .inr ⟨r, now, hfence⟩
    | replayed hfence _ _ _ _ => exact .inr ⟨r, now, hfence⟩
  | finish r result now =>
    have hfinished := finished rt now r result s.journal
    simp only [JournalRun.perform, JournalAction.perform]
    generalize (s.journal.finish rt now r result).1 = answer at hfinished
    generalize (s.journal.finish rt now r result).2 = after at hfinished ⊢
    cases hfinished with
    | rolledBack e => exact .inl rfl
    | stored _ _ _ _ _ => exact .inl rfl
  | restart => exact .inl rfl

theorem fences_monotone (rt : Runtime) (s : JournalRun) (a : JournalAction) {job : UUID}
    {row : JobFence} (hrow : s.journal.jobFences.get? job = some row) :
    ∃ row', (s.perform rt a).journal.jobFences.get? job = some row' ∧
      row.fencingToken ≤ row'.fencingToken := by
  rcases fences_of_perform rt s a with hsame | ⟨r, now, hfence⟩
  · exact ⟨row, hsame ▸ hrow, le_rfl⟩
  · exact applyFence_get? hfence hrow

/-- A lease older than the recorded one neither begins nor finishes an operation. -/
theorem perform_fenced {r : HostRequestMessage} {lease : TaskLeaseHostAuthority} {row : JobFence}
    (hr : a.request? = some r) (hlease : r.authority.lease? = some lease)
    (hrow : s.journal.jobFences.get? lease.jobId = some row)
    (hold : lease.fencingToken < row.fencingToken) :
    ∃ e, (a.perform rt s.journal).1 = .error e := by
  cases a with
  | begin r' now =>
    obtain rfl : r' = r := by simpa [JournalAction.request?] using hr
    have hbegan := began rt now r' s.journal
    simp only [JournalAction.perform]
    generalize (s.journal.begin rt now r').1 = answer at hbegan ⊢
    generalize (s.journal.begin rt now r').2 = after at hbegan
    cases hbegan with
    | rolledBack e => exact ⟨e, rfl⟩
    | delivered hfence _ _ _ => exact absurd hfence (applyFence_fenced hlease hrow hold)
    | reserved hfence _ _ => exact absurd hfence (applyFence_fenced hlease hrow hold)
    | ambiguous hfence => exact absurd hfence (applyFence_fenced hlease hrow hold)
    | replayed hfence _ _ _ _ => exact absurd hfence (applyFence_fenced hlease hrow hold)
  | finish r' result now =>
    obtain rfl : r' = r := by simpa [JournalAction.request?] using hr
    have hfinished := finished rt now r' result s.journal
    simp only [JournalAction.perform]
    generalize (s.journal.finish rt now r' result).1 = answer at hfinished ⊢
    generalize (s.journal.finish rt now r' result).2 = after at hfinished
    cases hfinished with
    | rolledBack e => exact ⟨e, rfl⟩
    | stored hfence _ _ _ _ => exact absurd hfence (assertCurrentFence_fenced hlease hrow hold)
  | restart => cases hr

/-- An operation that is executed was not executed before. -/
theorem Consistent.once (hs : Consistent rt admitted s) {r r' : HostRequestMessage} (now : ℤ)
    (hexecute : (s.journal.begin rt now r).1 = .ok .execute)
    (hr' : .executed r' ∈ s.events) : r'.operationKey ≠ r.operationKey := by
  intro hkey
  obtain ⟨operation, hoperation⟩ := hs.executed r' hr'
  have hbegan := began rt now r s.journal
  rw [hexecute] at hbegan
  generalize (s.journal.begin rt now r).2 = after at hbegan
  generalize hanswer : Except.ok JournalDecision.execute = answer at hbegan
  cases hbegan with
  | rolledBack e => cases hanswer
  | @delivered _ _ delivery =>
    cases hresult : storedResult r.taskScoped delivery.result with
    | error e => rw [hresult] at hanswer; cases hanswer
    | ok result => rw [hresult] at hanswer; cases hanswer
  | reserved _ hnew _ =>
    rw [hkey, hnew] at hoperation
    cases hoperation
  | ambiguous _ => cases hanswer
  | replayed _ _ _ _ _ => cases hanswer

/-- What is replayed was executed under the same fingerprint, and is what was stored first. -/
theorem Consistent.replays (hfree : CollisionFree rt admitted) (hs : Consistent rt admitted s)
    {r : HostRequestMessage} {result : JournalResult} (now : ℤ) (hr : admitted r)
    (hreplay : (s.journal.begin rt now r).1 = .ok (.replay result)) :
    (∃ r', .executed r' ∈ s.events ∧ r'.operationKey = r.operationKey ∧
      r'.semanticFingerprint rt = r.semanticFingerprint rt) ∧
    firstStored r.operationKey s.events = some result := by
  have hrow : ∃ operation, s.journal.operations.get? r.operationKey = some operation ∧
      operation.semanticFingerprint = r.semanticFingerprint rt ∧
      operation.outcome = some result := by
    have hbegan := began rt now r s.journal
    rw [hreplay] at hbegan
    generalize (s.journal.begin rt now r).2 = after at hbegan
    generalize hanswer : Except.ok (JournalDecision.replay result) = answer at hbegan
    cases hbegan with
    | rolledBack e => cases hanswer
    | @delivered _ _ delivery hfence hreceipt hdelivery hdigest =>
      cases hread : storedResult r.taskScoped delivery.result with
      | error e => rw [hread] at hanswer; cases hanswer
      | ok read =>
        rw [hread] at hanswer
        obtain rfl : result = read := by
          simpa [Functor.map, Except.map] using hanswer
        obtain rfl := eq_of_storedResult hread
        obtain ⟨r', operation, hr', hdigest', hoperation, hfingerprint, houtcome⟩ :=
          hs.delivered _ _ hdelivery
        obtain ⟨hkey, hmeaning⟩ := hfree r' r hr' hr (hdigest'.trans hdigest)
        exact ⟨operation, hkey ▸ hoperation, hfingerprint.trans hmeaning, houtcome⟩
    | reserved _ _ _ => cases hanswer
    | ambiguous _ => cases hanswer
    | replayed hfence hoperation hfingerprint hstored hinsert =>
      obtain rfl : result = _ := by simpa using hanswer
      exact ⟨_, hoperation, hfingerprint, hstored⟩
  obtain ⟨operation, hoperation, hfingerprint, houtcome⟩ := hrow
  obtain ⟨r', hr', hkey, hmeaning⟩ := hs.reserved _ _ hoperation
  refine ⟨⟨r', hr', hkey, hmeaning.trans hfingerprint⟩, ?_⟩
  rw [hs.stored, hoperation]
  exact houtcome

/-- A failure that leaves the journal changed comes after the commit. -/
theorem commitsUnread_of_raises {e : HostJournalError} (h : (a.perform rt s.journal).1 = .error e)
    (hchanged : (s.perform rt a).journal ≠ s.journal) : commitsUnread rt s.journal a := by
  cases a with
  | begin r now =>
    have hbegan := began rt now r s.journal
    simp only [JournalRun.perform, JournalAction.perform] at h hchanged
    generalize (s.journal.begin rt now r).1 = answer at hbegan h
    generalize (s.journal.begin rt now r).2 = after at hbegan hchanged
    cases hbegan with
    | rolledBack e => exact absurd rfl hchanged
    | @delivered fences receipts delivery hfence hreceipt hdelivery hdigest =>
      refine ⟨fences, receipts, delivery, hfence, hreceipt, hdelivery, hdigest, ?_, ?_⟩
      · cases hread : storedResult r.taskScoped delivery.result with
        | error e => rfl
        | ok result => rw [hread] at h; cases h
      · rintro ⟨rfl, rfl⟩
        exact hchanged rfl
    | reserved _ _ _ => cases h
    | ambiguous _ => cases h
    | replayed _ _ _ _ _ => cases h
  | finish r result now =>
    have hfinished := finished rt now r result s.journal
    simp only [JournalRun.perform, JournalAction.perform] at h hchanged
    generalize (s.journal.finish rt now r result).1 = answer at hfinished h
    generalize (s.journal.finish rt now r result).2 = after at hfinished hchanged
    cases hfinished with
    | rolledBack e => exact absurd rfl hchanged
    | stored _ _ _ _ _ => cases h
  | restart => exact absurd rfl hchanged

/-- A delivery that cannot be read back is found after the commit. -/
theorem raises_of_commitsUnread (h : commitsUnread rt s.journal a) :
    (∃ e, (a.perform rt s.journal).1 = .error e) ∧ (s.perform rt a).journal ≠ s.journal := by
  cases a with
  | begin r now =>
    obtain ⟨fences, receipts, delivery, hfence, hreceipt, hdelivery, hdigest, hread, hwritten⟩ := h
    have hcommit : s.journal.begin rt now r =
        (JournalDecision.replay <$> storedResult r.taskScoped delivery.result,
          { s.journal with jobFences := fences, requestReceipts := receipts }) := by
      simp [Journal.begin, Journal.beginTransaction, hfence, hreceipt, hdelivery, hdigest,
        pure, Except.pure]
    refine ⟨?_, ?_⟩
    · cases hstored : storedResult r.taskScoped delivery.result with
      | error e =>
        refine ⟨e, ?_⟩
        simp only [JournalAction.perform, hcommit, hstored]
        rfl
      | ok result => rw [hstored] at hread; cases hread
    · intro hsame
      simp only [JournalRun.perform, JournalAction.perform, hcommit] at hsame
      exact hwritten ⟨congrArg Journal.jobFences hsame, congrArg Journal.requestReceipts hsame⟩
  | finish r result now => cases h
  | restart => cases h

theorem not_keepsPromises_of_commitsUnread (h : commitsUnread rt s.journal a) :
    ¬ KeepsPromises rt s a := by
  intro hkeeps
  obtain ⟨⟨e, hraises⟩, hchanged⟩ := raises_of_commitsUnread h
  exact hchanged (hkeeps.atomic e hraises)

/-- A step keeps every promise of the journal unless it is a `begin` that commits and then
fails to read back what was delivered. -/
theorem keepsPromises_iff (hfree : CollisionFree rt admitted)
    (hs : (journalSystem rt admitted).Reachable s) (ha : ∀ r ∈ a.request?, admitted r) :
    KeepsPromises rt s a ↔ ¬ commitsUnread rt s.journal a := by
  have hinv := consistent_of_reachable hs
  constructor
  · exact fun hkeeps hcommits => not_keepsPromises_of_commitsUnread hcommits hkeeps
  · intro hnot
    refine ⟨?_, ?_, fun job row => fences_monotone rt s a, ?_, ?_⟩
    · rintro r now rfl hexecute r' hr'
      refine hinv.once now ?_ hr'
      cases hanswer : (s.journal.begin rt now r).1 with
      | error e => simp [JournalAction.perform, hanswer, Functor.map, Except.map] at hexecute
      | ok decision =>
        simpa [JournalAction.perform, hanswer, Functor.map, Except.map] using hexecute
    · rintro r now result rfl hreplay
      refine hinv.replays hfree now (ha r rfl) ?_
      cases hanswer : (s.journal.begin rt now r).1 with
      | error e => simp [JournalAction.perform, hanswer, Functor.map, Except.map] at hreplay
      | ok decision =>
        simpa [JournalAction.perform, hanswer, Functor.map, Except.map] using hreplay
    · exact fun r lease row hr hlease hrow => perform_fenced hr hlease hrow
    · intro e hraises
      exact Classical.byContradiction fun hchanged =>
        hnot (commitsUnread_of_raises hraises hchanged)

end Promises

/-! ### A renewed lease that finishes what it did not begin -/

namespace JournalExample

/-- The requests of the run are about one operation, so that no digest has to tell them apart. -/
abbrev rt : Runtime := .plain

def lease (expiresAtMs : PositiveInt) : TaskLeaseHostAuthority where
  taskId := .ofNat 1
  jobId := .ofNat 2
  leaseId := .ofNat 3
  workerId := "worker-1"
  attempt := ⟨1, by decide⟩
  fencingToken := ⟨1, by decide⟩
  leaseExpiresAtMs := expiresAtMs
  repositoryKey := "boppuh/mathews"
  configurationId := .ofNat 4
  configurationDigest := "sha256:" ++ String.ofList (List.replicate 64 '1')

def request (id : ℕ) (expiresAtMs : PositiveInt) : HostRequestMessage where
  requestId := .ofNat id
  issuedAtMs := ⟨5, by decide⟩
  expiresAtMs := ⟨90, by decide⟩
  authority := .taskLease (lease expiresAtMs)
  operation := ⟨"task.lease_probe", "operation-1", []⟩

def first : HostRequestMessage := request 5 ⟨50, by decide⟩

/-- The same operation under the lease once it was renewed. -/
def renewed : HostRequestMessage := request 6 ⟨500, by decide⟩

/-- A result without the fencing token a task's operation needs. -/
def tokenless : JournalResult := ⟨.ok, "OK", [], none⟩

def admitted (r : HostRequestMessage) : Prop := r = first ∨ r = renewed

/-- The fence of the lease and the operation while it runs. -/
def running : Journal where
  jobFences := ⟨[.ofAuthority (lease ⟨50, by decide⟩)], List.nodup_singleton _⟩
  operations := ⟨[⟨first.operationKey, first.semanticFingerprint rt, first.requestId, none⟩],
    List.nodup_singleton _⟩
  requestReceipts := ⟨[⟨first.requestId, first.digest rt⟩], List.nodup_singleton _⟩

/-- What the renewed request leaves when it finishes the operation. -/
def unread : JournalRun where
  journal := { running with
    operations := ⟨[⟨first.operationKey, first.semanticFingerprint rt, first.requestId,
      some tokenless⟩], List.nodup_singleton _⟩
    deliveries := ⟨[⟨renewed.requestId, renewed.digest rt, tokenless⟩], List.nodup_singleton _⟩ }
  events := [.executed first, .stored renewed tokenless]

theorem operationKey_renewed : renewed.operationKey = first.operationKey := rfl

theorem fingerprint_renewed :
    renewed.semanticFingerprint rt = first.semanticFingerprint rt := rfl

theorem collisionFree : CollisionFree rt admitted := by
  rintro r r' (rfl | rfl) (rfl | rfl) -
  · exact ⟨rfl, rfl⟩
  · exact ⟨operationKey_renewed.symm, fingerprint_renewed.symm⟩
  · exact ⟨operationKey_renewed, fingerprint_renewed⟩
  · exact ⟨rfl, rfl⟩

theorem begin_first : JournalRun.perform rt {} (.begin first 10) = ⟨running, [.executed first]⟩ :=
  rfl

theorem finish_renewed :
    JournalRun.perform rt ⟨running, [.executed first]⟩ (.finish renewed tokenless 20) =
      unread := by
  have hfence : assertCurrentFence 20 renewed running.jobFences = .ok () := by rfl
  have hrunning : running.running? rt renewed =
      some ⟨first.operationKey, first.semanticFingerprint rt, first.requestId, none⟩ := by
    rw [Journal.running?, operationKey_renewed, fingerprint_renewed]
    simp [running, Table.get?]
  have hdelivery : recordDelivery rt renewed tokenless running.deliveries =
      .ok unread.journal.deliveries := rfl
  simp only [JournalRun.perform, JournalAction.perform, Journal.finish, Journal.finishTransaction,
    hfence, hrunning, hdelivery, Except.orThrow, Except.ok_bind]
  rfl

theorem reachable_unread : (journalSystem rt admitted).Reachable unread := by
  have hinit : (journalSystem rt admitted).Reachable {} := .of_init rfl
  have hbegin : (journalSystem rt admitted).Reachable ⟨running, [.executed first]⟩ :=
    hinit.tail ⟨.begin first 10, fun r hr => by cases hr; exact .inl rfl, begin_first.symm⟩
  exact hbegin.tail ⟨.finish renewed tokenless 20, fun r hr => by cases hr; exact .inr rfl,
    finish_renewed.symm⟩

/-- The renewed request moves its fence, and its delivery cannot be read back. -/
theorem commitsUnread_renewed : commitsUnread rt unread.journal (.begin renewed 30) := by
  refine ⟨⟨[.ofAuthority (lease ⟨500, by decide⟩)], List.nodup_singleton _⟩,
    ⟨[⟨first.requestId, first.digest rt⟩, ⟨renewed.requestId, renewed.digest rt⟩], by decide⟩,
    ⟨renewed.requestId, renewed.digest rt, tokenless⟩, rfl, rfl, rfl, rfl, rfl, ?_⟩
  rintro ⟨hfences, -⟩
  have hrows := congrArg (fun t : Table JobFence => t.rows.map JobFence.leaseExpiresAtMs) hfences
  revert hrows
  decide

end JournalExample

open JournalExample in
theorem keepsPromises_iff_first :
    KeepsPromises rt unread (.begin first 30) ↔
      ¬ commitsUnread rt unread.journal (.begin first 30) :=
  keepsPromises_iff collisionFree reachable_unread fun r hr => by cases hr; exact .inl rfl

open JournalExample in
/-- The renewed request is answered with a failure, and its fence has moved. -/
theorem not_keepsPromises_renewed :
    ¬ ∀ s a, (journalSystem rt admitted).Reachable s → (∀ r ∈ a.request?, admitted r) →
      KeepsPromises rt s a := by
  intro hkeeps
  refine not_keepsPromises_of_commitsUnread commitsUnread_renewed
    (hkeeps unread (.begin renewed 30) reachable_unread ?_)
  intro r hr
  cases hr
  exact .inr rfl

end ControlPlane.HostAgent
