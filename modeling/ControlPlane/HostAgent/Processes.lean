import ControlPlane.Domain
import ControlPlane.Lib.Transaction

/-!
# Owned process groups

A process is registered with the identity it was observed to have: its pid, its process group
and a token of its birth. A termination records its key, observes the process again, signals
the group and records how that ended. What the operating system answers is an argument: the
process observed, what `killpg` does, whether the deadline has passed.

## Main definitions

* `recordOwnership`, `beginTermination`, `finishTermination`: the transactions on the journal.
* `TerminationStage.look`: one observation, with the signal sent on it.
-/
namespace ControlPlane.HostAgent

/-- The codes of `OwnedProcessError`; `integerOverflow` is the driver's refusal of a parameter. -/
inductive OwnedProcessError where
  | invalidProcessIdentity
  | processObservationFailed
  | processTerminationFailed
  | processIdentityMismatch
  | processOwnershipConflict
  | processJournalUnavailable
  | invalidTerminationRequest
  | processNotOwned
  | terminationIdempotencyConflict
  | integerOverflow
  deriving DecidableEq

inductive OwnedProcessState where
  | running
  | terminated
  | gone
  deriving DecidableEq

structure ProcessIdentity where
  jobId : UUID
  leaseId : UUID
  fencingToken : ℤ
  pid : ℤ
  processGroupId : ℤ
  birthToken : String
  ownershipNonce : UUID
  valid : ¬ (fencingToken ≤ 0 ∨ pid ≤ 1 ∨ processGroupId ≤ 1 ∨ pid ≠ processGroupId ∨
    birthToken = "" ∨ 255 < birthToken.length)
  deriving DecidableEq

structure ObservedProcess where
  pid : ℤ
  processGroupId : ℤ
  birthToken : String
  deriving DecidableEq

structure TerminationResult where
  state : OwnedProcessState
  replayed : Bool
  deriving DecidableEq

/-- A row of `owned_process_groups`. -/
structure OwnedProcessGroup where
  identity : ProcessIdentity
  state : OwnedProcessState
  terminationKey : Option String
  registeredAtMs : ℤ
  terminatedAtMs : Option ℤ
  updatedAtMs : ℤ
  deriving DecidableEq

namespace OwnedProcessGroup

def ownershipNonce (row : OwnedProcessGroup) : UUID := row.identity.ownershipNonce

instance : Keyed OwnedProcessGroup UUID := ⟨ownershipNonce⟩

/-- The check constraint of the table. -/
def Consistent (row : OwnedProcessGroup) : Prop :=
  (row.state = .running ∧ row.terminatedAtMs = none) ∨
    (row.state ≠ .running ∧ row.terminationKey.isSome ∧ row.terminatedAtMs.isSome)

end OwnedProcessGroup

/-- The journal of the owned process groups. -/
abbrev ProcessJournal := Table OwnedProcessGroup

/-- What an observation of the registered process shows. -/
def ProcessIdentity.observation (identity : ProcessIdentity) : ObservedProcess :=
  ⟨identity.pid, identity.processGroupId, identity.birthToken⟩

def sameIdentity (expected : ProcessIdentity) : Option ObservedProcess → Bool
  | none => false
  | some observed =>
    observed.pid = expected.pid && observed.processGroupId = expected.processGroupId &&
      observed.birthToken = expected.birthToken

theorem sameIdentity_iff {expected : ProcessIdentity} {observed : Option ObservedProcess} :
    sameIdentity expected observed = true ↔ observed = some expected.observation := by
  cases observed with
  | none => simp [sameIdentity]
  | some process =>
    cases process
    simp [sameIdentity, ProcessIdentity.observation, and_assoc]

def rowMatches (identity : ProcessIdentity) (row : OwnedProcessGroup) : Bool :=
  row.identity.jobId = identity.jobId && row.identity.leaseId = identity.leaseId &&
    row.identity.fencingToken = identity.fencingToken && row.identity.pid = identity.pid &&
    row.identity.processGroupId = identity.processGroupId &&
    row.identity.birthToken = identity.birthToken

theorem rowMatches_iff {identity : ProcessIdentity} {row : OwnedProcessGroup}
    (hnonce : row.identity.ownershipNonce = identity.ownershipNonce) :
    rowMatches identity row = true ↔ row.identity = identity := by
  obtain ⟨registered, _, _, _, _, _⟩ := row
  cases registered
  cases identity
  simp only at hnonce
  simp [rowMatches, hnonce, and_assoc]

/-! ### Registering -/

/-- The integers the driver stores. -/
def fitsInteger (n : ℤ) : Bool := -2 ^ 63 ≤ n && n < 2 ^ 63

/-- The transaction of `register`, after the process was observed with its identity. -/
def recordOwnership (registeredAtMs updatedAtMs : ℤ) (identity : ProcessIdentity)
    (journal : ProcessJournal) : Except OwnedProcessError ProcessJournal :=
  match journal.get? identity.ownershipNonce with
  | some existing =>
    if rowMatches identity existing then .ok journal else .error .processOwnershipConflict
  | none => do
    Except.require (fitsInteger identity.fencingToken = true ∧ fitsInteger identity.pid = true ∧
      fitsInteger identity.processGroupId = true) .integerOverflow
    Except.orThrow
      (journal.insert? ⟨identity, .running, none, registeredAtMs, none, updatedAtMs⟩)
      .processJournalUnavailable

/-! ### Terminating -/

structure TerminationRequest where
  identity : ProcessIdentity
  idempotencyKey : String
  graceSeconds : ℚ := 2
  deriving DecidableEq

def TerminationRequest.IsValid (request : TerminationRequest) : Prop :=
  request.idempotencyKey ≠ "" ∧ request.idempotencyKey.length ≤ 255 ∧
    0 < request.graceSeconds ∧ request.graceSeconds ≤ 10

instance (request : TerminationRequest) : Decidable request.IsValid :=
  inferInstanceAs (Decidable (_ ∧ _ ∧ _ ∧ _))

inductive TerminationStart where
  | replay (result : TerminationResult)
  | proceed (journal : ProcessJournal)

/-- The first transaction of `terminate_owned`: the key is recorded before anything else. -/
def beginTermination (updatedAtMs : ℤ) (request : TerminationRequest) (journal : ProcessJournal) :
    Except OwnedProcessError TerminationStart := do
  Except.require request.IsValid .invalidTerminationRequest
  let row ← Except.orThrow (journal.get? request.identity.ownershipNonce) .processNotOwned
  Except.require (rowMatches request.identity row = true) .processNotOwned
  if row.state ≠ .running then do
    Except.require (row.terminationKey = some request.idempotencyKey)
      .terminationIdempotencyConflict
    return .replay ⟨row.state, true⟩
  else do
    Except.require (row.terminationKey = none ∨ row.terminationKey = some request.idempotencyKey)
      .terminationIdempotencyConflict
    return .proceed (journal.set
      { row with terminationKey := some request.idempotencyKey, updatedAtMs := updatedAtMs })

/-- The last transaction of `terminate_owned`, with the state the call arrived at. -/
def finishTermination (terminatedAtMs updatedAtMs : ℤ) (request : TerminationRequest)
    (state : OwnedProcessState) (journal : ProcessJournal) :
    Except OwnedProcessError (TerminationResult × ProcessJournal) := do
  let row ← Except.orThrow (journal.get? request.identity.ownershipNonce) .processOwnershipConflict
  if row.state = .running ∧ row.terminationKey = some request.idempotencyKey then
    return (⟨state, false⟩, journal.set
      { row with state := state, terminatedAtMs := some terminatedAtMs, updatedAtMs := updatedAtMs })
  else do
    Except.require (row.terminationKey = some request.idempotencyKey ∧ row.state ≠ .running)
      .processOwnershipConflict
    return (⟨row.state, true⟩, journal)

/-! ### The controller -/

inductive ProcessSignal where
  | term
  | kill
  deriving DecidableEq

/-- What `killpg` does. -/
inductive KillOutcome where
  | sent
  | lookupError
  | osError
  deriving DecidableEq

/-- Where `terminate_group` is: before SIGTERM, in the loop after it, past the deadline and
before SIGKILL, in the loop after that. -/
inductive GroupPhase where
  | first
  | polling
  | expired
  | killing
  deriving DecidableEq

inductive TerminationStage where
  | recorded
  | group (expected : ObservedProcess) (phase : GroupPhase)
  | decided (state : OwnedProcessState)
  deriving DecidableEq

/-- The result of `terminate_group` as `terminate_owned` reads it. -/
def TerminationStage.ofTerminated (terminated : Bool) : TerminationStage :=
  .decided (if terminated then .terminated else .gone)

/-- A signal on an observation, and where the call goes when it was sent. -/
def sendSignal (signal : Option ProcessSignal) (next : TerminationStage) :
    KillOutcome → Except OwnedProcessError TerminationStage × Option ProcessSignal
  | .lookupError => (.ok (.ofTerminated true), signal)
  | .osError => (.error .processTerminationFailed, signal)
  | .sent => (.ok next, signal)

/-- A phase of `terminate_group` on an observation of the leader. -/
def GroupPhase.look (expected : ObservedProcess) (phase : GroupPhase)
    (observed : Option ObservedProcess) (killed : KillOutcome) (timeUp : Bool) :
    Except OwnedProcessError TerminationStage × Option ProcessSignal :=
  match phase with
  | first =>
    if expected.processGroupId ≤ 1 then (.error .invalidProcessIdentity, none)
    else if observed ≠ some expected then (.ok (.ofTerminated false), none)
    else sendSignal (some .term) (.group expected .polling) killed
  | polling =>
    if timeUp then (.ok (.group expected .expired), none)
    else match observed with
      | none => (.ok (.ofTerminated true), none)
      | some process =>
        if process ≠ expected then (.ok (.ofTerminated false), none)
        -- Signal zero only asks whether the group exists.
        else sendSignal none (.group expected .polling) killed
  | expired =>
    match observed with
    | none => (.ok (.ofTerminated true), none)
    | some process =>
      if process ≠ expected then (.ok (.ofTerminated false), none)
      else sendSignal (some .kill) (.group expected .killing) killed
  | killing =>
    if timeUp then (.error .processTerminationFailed, none)
    else match observed with
      | none => (.ok (.ofTerminated true), none)
      | some process =>
        if process ≠ expected then (.ok (.ofTerminated false), none)
        else (.ok (.group expected .killing), none)

/-- One observation of a call, and the signal it sends on it. -/
def TerminationStage.look (identity : ProcessIdentity) (observed : Option ObservedProcess)
    (killed : KillOutcome) (timeUp : Bool) : TerminationStage →
    Except OwnedProcessError TerminationStage × Option ProcessSignal
  | recorded =>
    if sameIdentity identity observed then
      match observed with
      | some process => (.ok (.group process .first), none)
      | none => (.ok (.decided .gone), none)
    else (.ok (.decided .gone), none)
  | group expected phase => phase.look expected observed killed timeUp
  | decided state => (.ok (.decided state), none)

end ControlPlane.HostAgent
