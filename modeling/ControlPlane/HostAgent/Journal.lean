import ControlPlane.HostAgent.Protocol
import ControlPlane.Lib.Table

/-!
# The execution journal

Every operation of the host is reserved before it is executed and finished once. The journal
keeps the fence of every job, the operations with their outcomes, the requests received and
what was delivered to each. A failure inside a transaction leaves the journal as it was.

## Main definitions

* `Journal.begin`: fence a request, and reserve its operation or replay its outcome.
* `Journal.finish`: store the outcome of an operation.
-/
namespace ControlPlane.HostAgent

/-- Failures of the journal, under their public codes. -/
inductive HostJournalError where
  | authorityConflict
  | fenced
  | fencingTokenConflict
  | idempotencyConflict
  | journalCorrupt
  | journalUnavailable
  | leaseExpired
  | operationNotReserved
  | requestIdConflict
  deriving DecidableEq

def HostJournalError.code : HostJournalError → String
  | authorityConflict => "AUTHORITY_CONFLICT"
  | fenced => "FENCED"
  | fencingTokenConflict => "FENCING_TOKEN_CONFLICT"
  | idempotencyConflict => "IDEMPOTENCY_CONFLICT"
  | journalCorrupt => "JOURNAL_CORRUPT"
  | journalUnavailable => "JOURNAL_UNAVAILABLE"
  | leaseExpired => "LEASE_EXPIRED"
  | operationNotReserved => "OPERATION_NOT_RESERVED"
  | requestIdConflict => "REQUEST_ID_CONFLICT"

inductive HostResponseStatus where
  | ok
  | rejected
  | ambiguous
  deriving DecidableEq

structure JournalResult where
  status : HostResponseStatus
  code : String
  result : List (String × Json)
  executionFencingToken : Option ℤ

/-- Only the decision to replay comes with a stored result. -/
inductive JournalDecision where
  | execute
  | replay (result : JournalResult)
  | ambiguous

/-! ### Tables -/

/-- The lease a job was last seen under. -/
structure JobFence where
  jobId : UUID
  taskId : UUID
  leaseId : UUID
  workerId : String
  attempt : PositiveInt
  fencingToken : PositiveInt
  leaseExpiresAtMs : PositiveInt
  repositoryKey : String
  configurationId : UUID
  configurationDigest : String
  deriving DecidableEq

instance : Keyed JobFence UUID := ⟨JobFence.jobId⟩

/-- What identifies an operation in the journal. -/
structure OperationKey where
  scopeKey : String
  operationName : String
  idempotencyKey : String
  deriving DecidableEq

/-- An operation: running until it has an outcome, then succeeded or failed. -/
structure OperationRow where
  key : OperationKey
  semanticFingerprint : String
  requestId : UUID
  outcome : Option JournalResult

instance : Keyed OperationRow OperationKey := ⟨OperationRow.key⟩

inductive OperationState where
  | running
  | succeeded
  | failed
  deriving DecidableEq

def OperationRow.state (o : OperationRow) : OperationState :=
  match o.outcome with
  | none => .running
  | some result => if result.status = .ok then .succeeded else .failed

structure RequestReceipt where
  requestId : UUID
  requestDigest : String

instance : Keyed RequestReceipt UUID := ⟨RequestReceipt.requestId⟩

/-- What was answered to a request. The text of the result column reads back as an object
equal to the one that was written. -/
structure Delivery where
  requestId : UUID
  requestDigest : String
  result : JournalResult

instance : Keyed Delivery UUID := ⟨Delivery.requestId⟩

structure Journal where
  jobFences : Table JobFence := .empty
  operations : Table OperationRow := .empty
  requestReceipts : Table RequestReceipt := .empty
  deliveries : Table Delivery := .empty

@[simp] theorem key_jobFence (f : JobFence) : key f = f.jobId := rfl
@[simp] theorem key_operationRow (o : OperationRow) : key o = o.key := rfl
@[simp] theorem key_requestReceipt (r : RequestReceipt) : key r = r.requestId := rfl
@[simp] theorem key_delivery (d : Delivery) : key d = d.requestId := rfl

/-- The operation a request is about. -/
def HostRequestMessage.operationKey (r : HostRequestMessage) : OperationKey :=
  ⟨r.scopeKey, r.operation.name, r.operation.idempotencyKey⟩

/-! ### Fences -/

namespace JobFence

def ofAuthority (a : TaskLeaseHostAuthority) : JobFence where
  jobId := a.jobId
  taskId := a.taskId
  leaseId := a.leaseId
  workerId := a.workerId
  attempt := a.attempt
  fencingToken := a.fencingToken
  leaseExpiresAtMs := a.leaseExpiresAtMs
  repositoryKey := a.repositoryKey
  configurationId := a.configurationId
  configurationDigest := a.configurationDigest

/-- The binding of a job that no lease changes. -/
def bindingHolds (row : JobFence) (a : TaskLeaseHostAuthority) : Bool :=
  row.taskId = a.taskId && row.repositoryKey = a.repositoryKey &&
    row.configurationId = a.configurationId && row.configurationDigest = a.configurationDigest

def exactLease (row : JobFence) (a : TaskLeaseHostAuthority) : Bool :=
  row.leaseId = a.leaseId && row.workerId = a.workerId && row.attempt = a.attempt

/-- The fence once it has seen an authority. -/
def advance (now : ℤ) (row : JobFence) (a : TaskLeaseHostAuthority) :
    Except HostJournalError JobFence := do
  Except.require (¬ a.fencingToken.val < row.fencingToken.val) .fenced
  Except.require (row.bindingHolds a) .authorityConflict
  if a.fencingToken = row.fencingToken then do
    Except.require (row.exactLease a) .fencingTokenConflict
    Except.require (now < row.leaseExpiresAtMs) .leaseExpired
    -- A renewal that reaches less far is no renewal.
    if row.leaseExpiresAtMs.val < a.leaseExpiresAtMs.val then
      return { row with leaseExpiresAtMs := a.leaseExpiresAtMs }
    else return row
  else
    return { row with
      leaseId := a.leaseId
      workerId := a.workerId
      attempt := a.attempt
      fencingToken := a.fencingToken
      leaseExpiresAtMs := a.leaseExpiresAtMs }

/-- The fence is the one of a lease. -/
def current (row : JobFence) (a : TaskLeaseHostAuthority) : Bool :=
  row.taskId = a.taskId && row.exactLease a && row.fencingToken = a.fencingToken

end JobFence

/-- The fences once they have seen a request. -/
def applyFence (now : ℤ) (r : HostRequestMessage) (fences : Table JobFence) :
    Except HostJournalError (Table JobFence) :=
  match r.authority.lease? with
  | none => .ok fences
  | some a => do
    Except.require (now < a.leaseExpiresAtMs) .leaseExpired
    match fences.get? a.jobId with
    | none => Except.orThrow (fences.insert? (.ofAuthority a)) .journalUnavailable
    | some row => do
      let advanced ← row.advance now a
      return fences.set advanced

/-- The recorded fence is the one of the request, and it has not expired. -/
def assertCurrentFence (now : ℤ) (r : HostRequestMessage) (fences : Table JobFence) :
    Except HostJournalError Unit :=
  match r.authority.lease? with
  | none => .ok ()
  | some a =>
    match fences.get? a.jobId with
    | none => .error .fenced
    | some row => do
      Except.require (row.current a) .fenced
      Except.require (now < row.leaseExpiresAtMs) .leaseExpired

/-! ### Results -/

/-- A stored result as it is read back. -/
def storedResult (taskScoped : Bool) (stored : JournalResult) :
    Except HostJournalError JournalResult := do
  let result ← Except.orThrow (normalizeHostJsonObject stored.result) .journalCorrupt
  Except.require (isResponseCode stored.code) .journalCorrupt
  Except.require (∀ token ∈ stored.executionFencingToken, 0 < token ∧ token < 2 ^ 63)
    .journalCorrupt
  Except.require (taskScoped = stored.executionFencingToken.isSome) .journalCorrupt
  return { stored with result }

def recordDelivery (rt : Runtime) (r : HostRequestMessage) (result : JournalResult)
    (deliveries : Table Delivery) : Except HostJournalError (Table Delivery) :=
  Except.orThrow (deliveries.insert? ⟨r.requestId, r.digest rt, result⟩) .journalUnavailable

/-- The receipts with the one of a request. -/
def recordReceipt (rt : Runtime) (r : HostRequestMessage) (receipts : Table RequestReceipt) :
    Except HostJournalError (Table RequestReceipt) :=
  match receipts.get? r.requestId with
  | some receipt =>
    if receipt.requestDigest = r.digest rt then .ok receipts else .error .requestIdConflict
  | none => Except.orThrow (receipts.insert? ⟨r.requestId, r.digest rt⟩) .journalUnavailable

namespace Journal

/-! ### Beginning an operation -/

/-- Reserve the operation of a request, or replay its outcome to the request. -/
def reserve (rt : Runtime) (r : HostRequestMessage) (j : Journal) :
    Except HostJournalError (JournalDecision × Journal) :=
  match j.operations.get? r.operationKey with
  | none => do
    let operations ← Except.orThrow
      (j.operations.insert? ⟨r.operationKey, r.semanticFingerprint rt, r.requestId, none⟩)
      .journalUnavailable
    return (.execute, { j with operations })
  | some operation => do
    Except.require (operation.semanticFingerprint = r.semanticFingerprint rt) .idempotencyConflict
    match operation.outcome with
    | none => return (.ambiguous, j)
    | some stored => do
      let result ← storedResult r.taskScoped stored
      let deliveries ← recordDelivery rt r result j.deliveries
      return (.replay result, { j with deliveries })

/-- The transaction: what it leaves when it is committed, and what is returned then. -/
def beginTransaction (rt : Runtime) (now : ℤ) (r : HostRequestMessage) (j : Journal) :
    Except HostJournalError (Except HostJournalError JournalDecision × Journal) := do
  let jobFences ← applyFence now r j.jobFences
  let requestReceipts ← recordReceipt rt r j.requestReceipts
  let received := { j with jobFences, requestReceipts }
  match received.deliveries.get? r.requestId with
  | some delivery => do
    Except.require (delivery.requestDigest = r.digest rt) .requestIdConflict
    -- The delivery is read back only after the commit.
    return (JournalDecision.replay <$> storedResult r.taskScoped delivery.result, received)
  | none => do
    let (decision, reserved) ← reserve rt r received
    return (.ok decision, reserved)

/-- Fence a request, and reserve its operation or replay its outcome. -/
def begin (rt : Runtime) (now : ℤ) (r : HostRequestMessage) (j : Journal) :
    Except HostJournalError JournalDecision × Journal :=
  match beginTransaction rt now r j with
  | .ok committed => committed
  | .error e => (.error e, j)

/-! ### Finishing an operation -/

/-- The operation of a request while it runs. -/
def running? (rt : Runtime) (r : HostRequestMessage) (j : Journal) : Option OperationRow :=
  (j.operations.get? r.operationKey).filter fun operation =>
    operation.semanticFingerprint = r.semanticFingerprint rt && operation.outcome.isNone

def finishTransaction (rt : Runtime) (now : ℤ) (r : HostRequestMessage) (result : JournalResult)
    (j : Journal) : Except HostJournalError Journal := do
  assertCurrentFence now r j.jobFences
  let operation ← Except.orThrow (j.running? rt r) .operationNotReserved
  let deliveries ← recordDelivery rt r result j.deliveries
  return { j with
    operations := j.operations.set { operation with outcome := some result }, deliveries }

/-- Store the outcome of an operation that still runs under its fence. -/
def finish (rt : Runtime) (now : ℤ) (r : HostRequestMessage) (result : JournalResult)
    (j : Journal) : Except HostJournalError Unit × Journal :=
  match finishTransaction rt now r result j with
  | .ok finished => (.ok (), finished)
  | .error e => (.error e, j)

end Journal

end ControlPlane.HostAgent
