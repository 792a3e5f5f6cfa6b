import ControlPlane.HostAgent.Processes
import ControlPlane.Lib.Deletion
import ControlPlane.Lib.System
import Mathlib.Logic.Function.Basic

/-!
# Runs of registrations and terminations

Processes start and exit, pids are used again, any number of callers register and terminate,
and the host agent stops at any moment. An observation and the signal sent on it are one step;
the transactions on the journal are steps of their own.

## Main results

* `ProcessRun.owned_of_reachable`: the invariant of the journal and the calls.
* `ProcessRun.process_promises_kept`: what the events of a run say.
-/
namespace ControlPlane.HostAgent

/-! ### The operating system -/

/-- What no two processes of a run share: a pid with the token of a birth. -/
structure ProcessBirth where
  pid : ℤ
  birthToken : String
  deriving DecidableEq

/-- A running process and the leader that made its group. A process group is known by the
birth of that leader; its number is the leader's pid. -/
structure OSProcess where
  birth : ProcessBirth
  leader : ProcessBirth
  deriving DecidableEq

namespace OSProcess

def pid (p : OSProcess) : ℤ := p.birth.pid

instance : Keyed OSProcess ℤ := ⟨pid⟩

def observed (p : OSProcess) : ObservedProcess :=
  ⟨p.birth.pid, p.leader.pid, p.birth.birthToken⟩

end OSProcess

def ProcessIdentity.birth (identity : ProcessIdentity) : ProcessBirth :=
  ⟨identity.pid, identity.birthToken⟩

/-! ### Runs -/

/-- A call of `terminate_owned` under way, and the journal it found. -/
structure ActiveCall where
  request : TerminationRequest
  began : ProcessJournal
  stage : TerminationStage

inductive ProcessEvent where
  | signalled (call : ActiveCall) (signal : ProcessSignal) (groupId : ℤ)
    (observed : Option ObservedProcess) (journal : ProcessJournal)
  | answered (request : TerminationRequest) (began : ProcessJournal)
    (answer : Except OwnedProcessError TerminationResult)

/-- The journal, the processes running and all that ever started, the registrations whose
process was observed, the terminations under way, and the events so far. -/
structure ProcessRun where
  journal : ProcessJournal := .empty
  running : Table OSProcess := .empty
  born : List OSProcess := []
  registering : List ProcessIdentity := []
  calls : ℕ → Option ActiveCall := fun _ => none
  events : List ProcessEvent := []

namespace ProcessRun

def observe (s : ProcessRun) (pid : ℤ) : Option ObservedProcess :=
  if pid ≤ 1 then none else (s.running.get? pid).map OSProcess.observed

/-- `killpg` reaches the members of a group, if there are any. -/
def killpg (s : ProcessRun) (groupId : ℤ) (permitted : Bool) : KillOutcome :=
  if ∀ p ∈ s.running.rows, p.leader.pid ≠ groupId then .lookupError
  else if permitted then .sent
  else .osError

def withCall (s : ProcessRun) (id : ℕ) (call : Option ActiveCall) : ProcessRun :=
  { s with calls := Function.update s.calls id call }

def log (s : ProcessRun) (events : List ProcessEvent) : ProcessRun :=
  { s with events := s.events ++ events }

end ProcessRun

/-- The process a stage observes, and whose group it signals. -/
def ActiveCall.target (call : ActiveCall) : ObservedProcess :=
  match call.stage with
  | .group expected _ => expected
  | _ => call.request.identity.observation

/-- One observation of a call on the operating system as it is. -/
def ActiveCall.look (call : ActiveCall) (s : ProcessRun) (permitted timeUp : Bool) :
    Except OwnedProcessError TerminationStage × Option ProcessSignal :=
  call.stage.look call.request.identity (s.observe call.target.pid)
    (s.killpg call.target.processGroupId permitted) timeUp

/-- The signal of an observation, as an event. -/
def ActiveCall.signals (call : ActiveCall) (s : ProcessRun) (signal : Option ProcessSignal) :
    List ProcessEvent :=
  signal.toList.map fun signal => .signalled call signal call.target.processGroupId
    (s.observe call.target.pid) s.journal

/-- Steps whose observations are made in the states a condition admits. -/
inductive ProcessStep (admits : ProcessRun → ProcessIdentity → Prop) :
    ProcessRun → ProcessRun → Prop
  /-- A pid that no process and no group uses is taken, by a birth that never was before; the
  process leads a group of its own or joins a running one. -/
  | start {s : ProcessRun} {p : OSProcess} {running : Table OSProcess}
    (hfresh : ∀ q ∈ s.born, q.birth ≠ p.birth)
    (hgroup : ∀ q ∈ s.running, q.leader.pid ≠ p.birth.pid)
    (hleader : p.leader = p.birth ∨ ∃ q ∈ s.running, q.leader = p.leader)
    (hinsert : s.running.insert? p = some running) :
    ProcessStep admits s { s with running, born := p :: s.born }
  /-- On a signal or of its own accord. -/
  | exit {s : ProcessRun} (pid : ℤ) :
    ProcessStep admits s { s with running := s.running.deleteWhere fun p => p.pid = pid }
  | observeOwnership {s : ProcessRun} {identity : ProcessIdentity}
    (hsame : sameIdentity identity (s.observe identity.pid) = true) :
    ProcessStep admits s { s with registering := identity :: s.registering }
  | commitOwnership {s : ProcessRun} {identity : ProcessIdentity} {journal : ProcessJournal}
    (registeredAtMs updatedAtMs : ℤ) (hobserved : identity ∈ s.registering)
    (hrecord : recordOwnership registeredAtMs updatedAtMs identity s.journal = .ok journal) :
    ProcessStep admits s { s with journal }
  | refuse {s : ProcessRun} {request : TerminationRequest} {error : OwnedProcessError}
    (updatedAtMs : ℤ) (hbegin : beginTermination updatedAtMs request s.journal = .error error) :
    ProcessStep admits s (s.log [.answered request s.journal (.error error)])
  | replay {s : ProcessRun} {request : TerminationRequest} {result : TerminationResult}
    (updatedAtMs : ℤ)
    (hbegin : beginTermination updatedAtMs request s.journal = .ok (.replay result)) :
    ProcessStep admits s (s.log [.answered request s.journal (.ok result)])
  | proceed {s : ProcessRun} {id : ℕ} {request : TerminationRequest} {journal : ProcessJournal}
    (updatedAtMs : ℤ) (hid : s.calls id = none)
    (hbegin : beginTermination updatedAtMs request s.journal = .ok (.proceed journal)) :
    ProcessStep admits s
      ({ s with journal }.withCall id (some ⟨request, s.journal, .recorded⟩))
  | look {s : ProcessRun} {id : ℕ} {call : ActiveCall} {stage : TerminationStage}
    {signal : Option ProcessSignal} (permitted timeUp : Bool) (hcall : s.calls id = some call)
    (hadmits : admits s call.request.identity)
    (hlook : call.look s permitted timeUp = (.ok stage, signal)) :
    ProcessStep admits s
      ((s.withCall id (some { call with stage })).log (call.signals s signal))
  | raise {s : ProcessRun} {id : ℕ} {call : ActiveCall} {error : OwnedProcessError}
    {signal : Option ProcessSignal} (permitted timeUp : Bool) (hcall : s.calls id = some call)
    (hlook : call.look s permitted timeUp = (.error error, signal)) :
    ProcessStep admits s ((s.withCall id none).log
      (call.signals s signal ++ [.answered call.request call.began (.error error)]))
  /-- The observation itself fails, or the journal cannot be written. -/
  | fail {s : ProcessRun} {id : ℕ} {call : ActiveCall} (error : OwnedProcessError)
    (hcall : s.calls id = some call)
    (herror : error = .processObservationFailed ∨ error = .processJournalUnavailable) :
    ProcessStep admits s
      ((s.withCall id none).log [.answered call.request call.began (.error error)])
  | finish {s : ProcessRun} {id : ℕ} {call : ActiveCall} {state : OwnedProcessState}
    {result : TerminationResult} {journal : ProcessJournal} (terminatedAtMs updatedAtMs : ℤ)
    (hcall : s.calls id = some call) (hstage : call.stage = .decided state)
    (hfinish : finishTermination terminatedAtMs updatedAtMs call.request state s.journal =
      .ok (result, journal)) :
    ProcessStep admits s (({ s with journal }.withCall id none).log
      [.answered call.request call.began (.ok result)])
  | conflict {s : ProcessRun} {id : ℕ} {call : ActiveCall} {state : OwnedProcessState}
    {error : OwnedProcessError} (terminatedAtMs updatedAtMs : ℤ)
    (hcall : s.calls id = some call) (hstage : call.stage = .decided state)
    (hfinish : finishTermination terminatedAtMs updatedAtMs call.request state s.journal =
      .error error) :
    ProcessStep admits s
      ((s.withCall id none).log [.answered call.request call.began (.error error)])
  /-- The host agent stops; the journal and the processes stay. -/
  | crash {s : ProcessRun} :
    ProcessStep admits s { s with registering := [], calls := fun _ => none }

/-- Runs from an empty journal. -/
def processSystem (admits : ProcessRun → ProcessIdentity → Prop) : TransitionSystem ProcessRun where
  init s := s = {}
  step := ProcessStep admits

/-! ### What becomes of a row -/

/-- A row keeps its identity and its key, and once it left `RUNNING` it stays as it is. -/
structure OwnedProcessGroup.Becomes (row row' : OwnedProcessGroup) : Prop where
  identity : row'.identity = row.identity
  key : ∀ key, row.terminationKey = some key → row'.terminationKey = some key
  settled : row.state ≠ .running → row' = row

namespace OwnedProcessGroup.Becomes

theorem rfl' {row : OwnedProcessGroup} : row.Becomes row :=
  ⟨rfl, fun _ h => h, fun _ => rfl⟩

theorem trans {a b c : OwnedProcessGroup} (hab : a.Becomes b) (hbc : b.Becomes c) :
    a.Becomes c where
  identity := hbc.identity.trans hab.identity
  key key hkey := hbc.key key (hab.key key hkey)
  settled hstate := by
    have hb := hab.settled hstate
    rw [hbc.settled (by rw [hb]; exact hstate), hb]

/-- A key is recorded on a running row that had none, or had this one. -/
theorem keyed {row : OwnedProcessGroup} {key : String} (updatedAtMs : ℤ)
    (hstate : row.state = .running)
    (hkey : row.terminationKey = none ∨ row.terminationKey = some key) :
    row.Becomes { row with terminationKey := some key, updatedAtMs := updatedAtMs } := by
  refine ⟨rfl, ?_, fun hsettled => absurd hstate hsettled⟩
  intro other hold
  rcases hkey with hnone | hsame
  · rw [hnone] at hold
    cases hold
  · rw [← hold, hsame]

/-- A running row is settled. -/
theorem ended {row : OwnedProcessGroup} (state : OwnedProcessState) (terminatedAtMs : Option ℤ)
    (updatedAtMs : ℤ) (hstate : row.state = .running) :
    row.Becomes { row with state, terminatedAtMs, updatedAtMs } :=
  ⟨rfl, fun _ h => h, fun hsettled => absurd hstate hsettled⟩

end OwnedProcessGroup.Becomes

theorem nonce_of_get? {journal : ProcessJournal} {row : OwnedProcessGroup} {nonce : UUID}
    (h : journal.get? nonce = some row) : row.identity.ownershipNonce = nonce :=
  Table.key_of_get? h

/-- Every row of a journal is found in a later one. -/
def ProcessJournal.Becomes (journal journal' : ProcessJournal) : Prop :=
  ∀ nonce row, journal.get? nonce = some row →
    ∃ row', journal'.get? nonce = some row' ∧ row.Becomes row'

namespace ProcessJournal.Becomes

theorem rfl' {journal : ProcessJournal} : ProcessJournal.Becomes journal journal :=
  fun _ row h => ⟨row, h, .rfl'⟩

theorem trans {a b c : ProcessJournal} (hab : ProcessJournal.Becomes a b)
    (hbc : ProcessJournal.Becomes b c) : ProcessJournal.Becomes a c := by
  intro nonce row hrow
  obtain ⟨row', hrow', hbecomes⟩ := hab nonce row hrow
  obtain ⟨row'', hrow'', hbecomes'⟩ := hbc nonce row' hrow'
  exact ⟨row'', hrow'', hbecomes.trans hbecomes'⟩

section SetRow
variable {journal : ProcessJournal} {row row' : OwnedProcessGroup} {nonce : UUID}

/-- A row is found under the nonce of the row it comes from. -/
theorem key_eq (h : row.Becomes row') (hrow : journal.get? nonce = some row) :
    key row' = nonce := by
  rw [← nonce_of_get? hrow, ← h.identity]
  rfl

theorem get?_set (h : row.Becomes row') (hrow : journal.get? nonce = some row) :
    (journal.set row').get? nonce = some row' := by
  obtain rfl : key row' = nonce := key_eq h hrow
  exact Table.get?_set_self (by rw [hrow]; exact Option.some_ne_none row)

/-- A row written back over the one it comes from. -/
theorem set (h : row.Becomes row') (hrow : journal.get? nonce = some row) :
    ProcessJournal.Becomes journal (journal.set row') := by
  intro other found hfound
  by_cases hkey : key row' = other
  · obtain rfl : nonce = other := (key_eq h hrow).symm.trans hkey
    obtain rfl : row = found := Option.some.inj (hrow.symm.trans hfound)
    exact ⟨row', get?_set h hrow, h⟩
  · exact ⟨found, by rw [Table.get?_set_of_ne hkey, hfound], .rfl'⟩

end SetRow

end ProcessJournal.Becomes

/-- The row of a request carries its identity and its key. -/
def Recorded (journal : ProcessJournal) (request : TerminationRequest)
    (row : OwnedProcessGroup) : Prop :=
  journal.get? request.identity.ownershipNonce = some row ∧ row.identity = request.identity ∧
    row.terminationKey = some request.idempotencyKey

theorem Recorded.becomes {journal journal' : ProcessJournal} {request : TerminationRequest}
    {row : OwnedProcessGroup} (h : Recorded journal request row)
    (hjournal : ProcessJournal.Becomes journal journal') :
    ∃ row', Recorded journal' request row' ∧ row.Becomes row' := by
  obtain ⟨hrow, hidentity, hkey⟩ := h
  obtain ⟨row', hrow', hbecomes⟩ := hjournal _ row hrow
  exact ⟨row', ⟨hrow', hbecomes.identity.trans hidentity, hbecomes.key _ hkey⟩, hbecomes⟩

/-- A request with another key than the one recorded, or with an identity that is not
registered. -/
def Foreign (journal : ProcessJournal) (request : TerminationRequest) : Prop :=
  ∀ row, journal.get? request.identity.ownershipNonce = some row →
    row.identity ≠ request.identity ∨
      ∃ key, row.terminationKey = some key ∧ key ≠ request.idempotencyKey

/-! ### The transactions -/

section Transactions
variable {journal journal' : ProcessJournal} {request : TerminationRequest}

/-- A registration leaves the journal, or adds one running row. -/
theorem recordOwnership_cases {registeredAtMs updatedAtMs : ℤ} {identity : ProcessIdentity}
    (h : recordOwnership registeredAtMs updatedAtMs identity journal = .ok journal') :
    journal' = journal ∨
      journal.insert? ⟨identity, .running, none, registeredAtMs, none, updatedAtMs⟩ =
        some journal' := by
  simp only [recordOwnership] at h
  cases hrow : journal.get? identity.ownershipNonce with
  | some existing =>
    by_cases hmatches : rowMatches identity existing = true
    · simp only [hrow, hmatches, if_true, Except.ok.injEq] at h
      exact .inl h.symm
    · simp [hrow, hmatches] at h
  | none =>
    simp only [hrow, Except.bind_eq_ok, Except.require_eq_ok, Except.orThrow_eq_ok] at h
    obtain ⟨_, _, hinsert⟩ := h
    exact .inr hinsert

theorem recordOwnership_becomes {registeredAtMs updatedAtMs : ℤ} {identity : ProcessIdentity}
    (h : recordOwnership registeredAtMs updatedAtMs identity journal = .ok journal') :
    ProcessJournal.Becomes journal journal' := by
  rcases recordOwnership_cases h with rfl | hinsert
  · exact .rfl'
  · intro nonce row hrow
    refine ⟨row, ?_, .rfl'⟩
    rw [Table.get?_insert? hinsert, if_neg ?_, hrow]
    rintro rfl
    rw [(Table.insert?_eq_some.mp hinsert).1] at hrow
    cases hrow

/-- The row a request belongs to, when the request is not foreign. -/
theorem not_foreign_iff :
    ¬ Foreign journal request ↔ ∃ row, journal.get? request.identity.ownershipNonce = some row ∧
      row.identity = request.identity ∧
      (row.terminationKey = none ∨ row.terminationKey = some request.idempotencyKey) := by
  simp only [Foreign, not_forall, not_or, not_not, not_exists, not_and, exists_prop]
  refine exists_congr fun row => and_congr_right fun _ => and_congr_right fun _ => ?_
  cases row.terminationKey with
  | none => simp
  | some key => simp

theorem beginTermination_replay {updatedAtMs : ℤ} {result : TerminationResult}
    (h : beginTermination updatedAtMs request journal = .ok (.replay result)) :
    ∃ row, Recorded journal request row ∧ row.state ≠ .running ∧ result = ⟨row.state, true⟩ := by
  simp only [beginTermination, Except.bind_eq_ok, Except.require_eq_ok, Except.orThrow_eq_ok] at h
  obtain ⟨_, _, row, hrow, _, hmatches, h⟩ := h
  by_cases hstate : row.state = .running
  · simp [hstate] at h
  · simp only [hstate, ne_eq, not_false_eq_true, if_true, Except.bind_eq_ok, Except.require_eq_ok,
      Except.pure_eq_ok, TerminationStart.replay.injEq] at h
    obtain ⟨_, hkey, hresult⟩ := h
    exact ⟨row, ⟨hrow, (rowMatches_iff (nonce_of_get? hrow)).mp hmatches, hkey⟩, hstate,
      hresult.symm⟩

theorem beginTermination_proceed {updatedAtMs : ℤ}
    (h : beginTermination updatedAtMs request journal = .ok (.proceed journal')) :
    ∃ row, journal.get? request.identity.ownershipNonce = some row ∧
      row.identity = request.identity ∧ row.state = .running ∧
      (row.terminationKey = none ∨ row.terminationKey = some request.idempotencyKey) ∧
      journal' = journal.set
        { row with terminationKey := some request.idempotencyKey, updatedAtMs := updatedAtMs } := by
  simp only [beginTermination, Except.bind_eq_ok, Except.require_eq_ok, Except.orThrow_eq_ok] at h
  obtain ⟨_, _, row, hrow, _, hmatches, h⟩ := h
  by_cases hstate : row.state = .running
  · simp only [hstate, ne_eq, not_true_eq_false, if_false, Except.bind_eq_ok,
      Except.require_eq_ok, Except.pure_eq_ok, TerminationStart.proceed.injEq] at h
    obtain ⟨_, hkey, rfl⟩ := h
    exact ⟨row, hrow, (rowMatches_iff (nonce_of_get? hrow)).mp hmatches, hstate, hkey,
      by rw [hstate]⟩
  · simp [hstate] at h

/-- A valid request that is not foreign passes. -/
theorem foreign_of_beginTermination_error {updatedAtMs : ℤ} {error : OwnedProcessError}
    (h : beginTermination updatedAtMs request journal = .error error) (hvalid : request.IsValid)
    (hkeyed : ∀ row ∈ journal, row.state ≠ .running → row.terminationKey.isSome) :
    Foreign journal request := by
  by_contra hforeign
  obtain ⟨row, hrow, hidentity, hkey⟩ := not_foreign_iff.mp hforeign
  have hmatches : rowMatches request.identity row = true :=
    (rowMatches_iff (nonce_of_get? hrow)).mpr hidentity
  by_cases hstate : row.state = .running
  · simp [beginTermination, hvalid, hrow, Except.orThrow, hmatches, hstate, hkey, pure,
      Except.pure] at h
  · have hsame : row.terminationKey = some request.idempotencyKey := by
      refine hkey.resolve_left fun hnone => ?_
      simpa [hnone] using hkeyed row (Table.mem_of_get? hrow) hstate
    simp [beginTermination, hvalid, hrow, Except.orThrow, hmatches, hstate, hsame, pure,
      Except.pure] at h

/-- The last transaction writes the state of the call over its running row, or repeats what a
settled one says. -/
theorem finishTermination_cases {terminatedAtMs updatedAtMs : ℤ} {state : OwnedProcessState}
    {result : TerminationResult}
    (h : finishTermination terminatedAtMs updatedAtMs request state journal =
      .ok (result, journal')) :
    ∃ row, journal.get? request.identity.ownershipNonce = some row ∧
      row.terminationKey = some request.idempotencyKey ∧
      ((row.state = .running ∧ result = ⟨state, false⟩ ∧ journal' = journal.set
          { row with
            state := state
            terminatedAtMs := some terminatedAtMs
            updatedAtMs := updatedAtMs }) ∨
        (row.state ≠ .running ∧ result = ⟨row.state, true⟩ ∧ journal' = journal)) := by
  simp only [finishTermination, Except.bind_eq_ok, Except.orThrow_eq_ok] at h
  obtain ⟨row, hrow, h⟩ := h
  by_cases hopen : row.state = .running ∧ row.terminationKey = some request.idempotencyKey
  · simp only [hopen, and_self, if_true, Except.pure_eq_ok, Prod.mk.injEq] at h
    obtain ⟨rfl, rfl⟩ := h
    exact ⟨row, hrow, hopen.2, .inl ⟨hopen.1, rfl, by rw [hopen.2]⟩⟩
  · simp only [hopen, if_false, Except.bind_eq_ok, Except.require_eq_ok, Except.pure_eq_ok,
      Prod.mk.injEq] at h
    obtain ⟨_, ⟨hkey, hstate⟩, rfl, rfl⟩ := h
    exact ⟨row, hrow, hkey, .inr ⟨hstate, rfl, rfl⟩⟩

/-- A recorded call never meets a conflict. -/
theorem finishTermination_isOk {row : OwnedProcessGroup} (h : Recorded journal request row)
    (terminatedAtMs updatedAtMs : ℤ) (state : OwnedProcessState) :
    (finishTermination terminatedAtMs updatedAtMs request state journal).isOk = true := by
  obtain ⟨hrow, -, hkey⟩ := h
  by_cases hstate : row.state = .running <;>
    simp [finishTermination, hrow, Except.orThrow, hstate, hkey, pure, Except.pure, Except.isOk,
      Except.toBool]

end Transactions

/-! ### Observations -/

section Observations
variable {s : ProcessRun} {identity : ProcessIdentity} {call : ActiveCall}

/-- No running process has the identity. -/
def Gone (running : Table OSProcess) (identity : ProcessIdentity) : Prop :=
  ∀ p ∈ running, p.observed ≠ identity.observation

/-- A process of the identity was started. -/
def ProcessRun.Seen (s : ProcessRun) (identity : ProcessIdentity) : Prop :=
  ∃ p ∈ s.born, p.observed = identity.observation

/-- The identity is observed exactly while its process runs. -/
theorem ProcessRun.observe_ne_iff :
    s.observe identity.pid ≠ some identity.observation ↔ Gone s.running identity := by
  have hpid : ¬ identity.pid ≤ 1 := fun h => identity.valid (.inr (.inl h))
  rw [observe, if_neg hpid]
  constructor
  · intro hne p hp heq
    have hkey : key p = identity.pid := congrArg ObservedProcess.pid heq
    rw [← hkey, Table.get?_key hp, Option.map_some, heq] at hne
    exact hne rfl
  · intro hgone heq
    obtain ⟨p, hp, hobserved⟩ := Option.map_eq_some_iff.mp heq
    exact hgone p (Table.mem_of_get? hp) hobserved

theorem ProcessRun.seen_of_observe
    (h : s.observe identity.pid = some identity.observation)
    (hborn : ∀ p ∈ s.running, p ∈ s.born) : s.Seen identity := by
  have hgone := mt ProcessRun.observe_ne_iff.mpr (not_not.mpr h)
  simp only [Gone, not_forall, not_not] at hgone
  obtain ⟨p, hp, hobserved⟩ := hgone
  exact ⟨p, hborn p hp, hobserved⟩

/-- The group of a running leader has a member. -/
theorem ProcessRun.killpg_of_observe {permitted : Bool}
    (h : s.observe identity.pid = some identity.observation) :
    s.killpg identity.processGroupId permitted ≠ .lookupError := by
  have hgone := mt ProcessRun.observe_ne_iff.mpr (not_not.mpr h)
  simp only [Gone, not_forall, not_not] at hgone
  obtain ⟨p, hp, hobserved⟩ := hgone
  have hgroup : p.leader.pid = identity.processGroupId :=
    congrArg ObservedProcess.processGroupId hobserved
  rw [ProcessRun.killpg, if_neg fun hnone => hnone p hp hgroup]
  cases permitted <;> simp

/-- The process a call signals is the one of its request. -/
def ActiveCall.OnTarget (call : ActiveCall) : Prop :=
  call.target = call.request.identity.observation

/-- What one observation of a call does: it decides that the process is gone when it is; or it
goes on, and what it signals was observed with the identity of the request. -/
inductive Looked (s : ProcessRun) (call : ActiveCall) :
    Except OwnedProcessError TerminationStage → Option ProcessSignal → Prop
  | decide {state : OwnedProcessState} (hstate : state ≠ .running)
    (hgone : Gone s.running call.request.identity) : Looked s call (.ok (.decided state)) none
  | settled {state : OwnedProcessState} (hstage : call.stage = .decided state) :
    Looked s call (.ok (.decided state)) none
  | goOn {phase : GroupPhase} {signal : Option ProcessSignal}
    (hsignal : signal.isSome →
      s.observe call.target.pid = some call.request.identity.observation) :
    Looked s call (.ok (.group call.request.identity.observation phase)) signal
  | fail {signal : Option ProcessSignal}
    (hsignal : signal.isSome →
      s.observe call.target.pid = some call.request.identity.observation) :
    Looked s call (.error .processTerminationFailed) signal

/-- `killpg` on an observation of the leader. -/
theorem looked_sendSignal {signal : Option ProcessSignal} {phase : GroupPhase} {permitted : Bool}
    {next : Except OwnedProcessError TerminationStage × Option ProcessSignal}
    (htarget : call.OnTarget)
    (hsame : s.observe call.target.pid = some call.request.identity.observation)
    (h : sendSignal signal (.group call.request.identity.observation phase)
      (s.killpg call.target.processGroupId permitted) = next) : Looked s call next.1 next.2 := by
  have hobserve : s.observe call.request.identity.pid =
      some call.request.identity.observation := by
    rw [htarget] at hsame
    exact hsame
  have hfound : s.killpg call.target.processGroupId permitted ≠ .lookupError := by
    rw [htarget]
    exact ProcessRun.killpg_of_observe hobserve
  subst h
  cases hkill : s.killpg call.target.processGroupId permitted with
  | lookupError => exact absurd hkill hfound
  | osError => exact .fail fun _ => hsame
  | sent => exact .goOn fun _ => hsame

theorem looked_group {phase : GroupPhase} (htarget : call.OnTarget)
    (hstage : call.stage = .group call.request.identity.observation phase)
    {permitted timeUp : Bool} : Looked s call (call.look s permitted timeUp).1
      (call.look s permitted timeUp).2 := by
  have hgone : s.observe call.target.pid ≠ some call.request.identity.observation →
      Gone s.running call.request.identity := by
    rw [htarget]
    exact ProcessRun.observe_ne_iff.mp
  have hnumber : ¬ call.request.identity.observation.processGroupId ≤ 1 :=
    fun h => call.request.identity.valid (.inr (.inr (.inl h)))
  have hlook : call.look s permitted timeUp =
      phase.look call.request.identity.observation (s.observe call.target.pid)
        (s.killpg call.target.processGroupId permitted) timeUp := by
    rw [ActiveCall.look, hstage]
    rfl
  rw [hlook]
  by_cases hsame : s.observe call.target.pid = some call.request.identity.observation
  · cases phase with
    | first =>
      simp only [GroupPhase.look, hnumber, if_false, hsame, ne_eq, not_true_eq_false]
      exact looked_sendSignal htarget hsame rfl
    | polling =>
      cases timeUp with
      | true => exact .goOn (fun h => by cases h)
      | false =>
        simp only [GroupPhase.look, Bool.false_eq_true, hsame, ne_eq, not_true_eq_false, if_false]
        exact looked_sendSignal htarget hsame rfl
    | expired =>
      simp only [GroupPhase.look, hsame, ne_eq, not_true_eq_false, if_false]
      exact looked_sendSignal htarget hsame rfl
    | killing =>
      cases timeUp with
      | true => exact .fail (fun h => by cases h)
      | false =>
        simp only [GroupPhase.look, Bool.false_eq_true, hsame, ne_eq, not_true_eq_false, if_false]
        exact .goOn (fun h => by cases h)
  · have hdecide : ∀ terminated,
        Looked s call (.ok (TerminationStage.ofTerminated terminated)) none := by
      intro terminated
      refine .decide ?_ (hgone hsame)
      cases terminated <;> simp
    cases phase with
    | first =>
      simp only [GroupPhase.look, hnumber, if_false, hsame, ne_eq, not_false_eq_true, if_true]
      exact hdecide false
    | polling =>
      cases timeUp with
      | true => exact .goOn (fun h => by cases h)
      | false =>
        cases hobserved : s.observe call.target.pid with
        | none => exact hdecide true
        | some process =>
          have hne : process ≠ call.request.identity.observation :=
            fun heq => hsame (by rw [hobserved, heq])
          simp only [GroupPhase.look, Bool.false_eq_true, if_false, hne, ne_eq,
            not_false_eq_true, if_true]
          exact hdecide false
    | expired =>
      cases hobserved : s.observe call.target.pid with
      | none => exact hdecide true
      | some process =>
        have hne : process ≠ call.request.identity.observation :=
          fun heq => hsame (by rw [hobserved, heq])
        simp only [GroupPhase.look, hne, ne_eq, not_false_eq_true, if_true]
        exact hdecide false
    | killing =>
      cases timeUp with
      | true => exact .fail (fun h => by cases h)
      | false =>
        cases hobserved : s.observe call.target.pid with
        | none => exact hdecide true
        | some process =>
          have hne : process ≠ call.request.identity.observation :=
            fun heq => hsame (by rw [hobserved, heq])
          simp only [GroupPhase.look, Bool.false_eq_true, if_false, hne, ne_eq,
            not_false_eq_true, if_true]
          exact hdecide false

theorem looked (htarget : call.OnTarget) {permitted timeUp : Bool}
    {next : Except OwnedProcessError TerminationStage} {signal : Option ProcessSignal}
    (h : call.look s permitted timeUp = (next, signal)) : Looked s call next signal := by
  have hlooked : Looked s call (call.look s permitted timeUp).1
      (call.look s permitted timeUp).2 := by
    cases hstage : call.stage with
    | recorded =>
      have htarget : call.target = call.request.identity.observation := by
        rw [ActiveCall.target, hstage]
      simp only [ActiveCall.look, hstage, TerminationStage.look]
      by_cases hsame : sameIdentity call.request.identity (s.observe call.target.pid) = true
      · rw [if_pos hsame, sameIdentity_iff.mp hsame]
        exact .goOn (fun h => by cases h)
      · rw [if_neg hsame]
        refine .decide (by simp) (ProcessRun.observe_ne_iff.mp fun heq => hsame ?_)
        rw [sameIdentity_iff, htarget]
        exact heq
    | group expected phase =>
      have hexpected : expected = call.request.identity.observation := by
        rw [← htarget, ActiveCall.target, hstage]
      exact looked_group htarget (hexpected ▸ hstage)
    | decided state =>
      simp only [ActiveCall.look, hstage, TerminationStage.look]
      exact .settled hstage
  rw [h] at hlooked
  exact hlooked

end Observations

/-! ### The invariant -/

/-- What is known of an identity once a call decided about it, and stays so. -/
structure Lasting (admits : ProcessRun → ProcessIdentity → Prop)
    (out : Table OSProcess → ProcessIdentity → Prop) : Prop where
  of_gone : ∀ s identity, admits s identity → Gone s.running identity → out s.running identity
  gone : ∀ running identity, out running identity → Gone running identity
  start : ∀ (s : ProcessRun) (p : OSProcess) running identity, s.Seen identity →
    (∀ q ∈ s.born, q.birth ≠ p.birth) →
    (p.leader = p.birth ∨ ∃ q ∈ s.running, q.leader = p.leader) →
    s.running.insert? p = some running → out s.running identity → out running identity
  exit : ∀ running (p : OSProcess → Bool) identity, out running identity →
    out (running.deleteWhere p) identity

/-- A pid is used again with another birth: who is gone stays gone. -/
theorem lasting_gone : Lasting (fun _ _ => True) Gone where
  of_gone _ _ _ hgone := hgone
  gone _ _ hgone := hgone
  start s p running identity hseen hfresh _ hinsert hgone := by
    intro q hq heq
    rcases (Table.mem_insert? hinsert).mp hq with hq | rfl
    · exact hgone q hq heq
    · obtain ⟨r, hr, hobserved⟩ := hseen
      refine hfresh r hr ?_
      have hsame := hobserved.trans heq.symm
      simp only [OSProcess.observed, ObservedProcess.mk.injEq] at hsame
      cases hbirth : r.birth
      cases hbirth' : q.birth
      simp_all
  exit _ _ _ hgone q hq := hgone q (Table.mem_of_mem_deleteWhere hq)

section Invariant
variable {admits : ProcessRun → ProcessIdentity → Prop}
  {out : Table OSProcess → ProcessIdentity → Prop} {s t : ProcessRun}

/-- A call under way found its request its own, recorded its key, and decided nothing that is
not so. -/
structure ActiveCall.Kept (out : Table OSProcess → ProcessIdentity → Prop) (s : ProcessRun)
    (call : ActiveCall) : Prop where
  recorded : ∃ row, Recorded s.journal call.request row
  own : ¬ Foreign call.began call.request
  target : call.OnTarget
  decided : ∀ state, call.stage = .decided state →
    state ≠ .running ∧ out s.running call.request.identity

structure ProcessRun.Owned (out : Table OSProcess → ProcessIdentity → Prop) (s : ProcessRun) :
    Prop where
  born : ∀ p ∈ s.running, p ∈ s.born
  registering : ∀ identity ∈ s.registering, s.Seen identity
  seen : ∀ row ∈ s.journal, s.Seen row.identity
  settled : ∀ row ∈ s.journal, row.state ≠ .running →
    out s.running row.identity ∧ row.terminationKey.isSome
  calls : ∀ id call, s.calls id = some call → call.Kept out s

namespace ProcessRun.Owned

theorem log (h : s.Owned out) (events : List ProcessEvent) : (s.log events).Owned out :=
  ⟨h.born, h.registering, h.seen, h.settled, fun id call hcall =>
    ⟨(h.calls id call hcall).recorded, (h.calls id call hcall).own, (h.calls id call hcall).target,
      (h.calls id call hcall).decided⟩⟩

theorem withCall (h : s.Owned out) (id : ℕ) (call : Option ActiveCall)
    (hcall : ∀ c, call = some c → c.Kept out s) : (s.withCall id call).Owned out where
  born := h.born
  registering := h.registering
  seen := h.seen
  settled := h.settled
  calls other c hc := by
    have hkept : c.Kept out s := by
      by_cases heq : other = id
      · subst heq
        exact hcall c (by simpa [ProcessRun.withCall] using hc)
      · exact h.calls other c (by simpa [ProcessRun.withCall, heq] using hc)
    exact ⟨hkept.recorded, hkept.own, hkept.target, hkept.decided⟩

theorem withJournal (h : s.Owned out) {journal : ProcessJournal}
    (hbecomes : ProcessJournal.Becomes s.journal journal)
    (hseen : ∀ row ∈ journal, s.Seen row.identity)
    (hsettled : ∀ row ∈ journal, row.state ≠ .running →
      out s.running row.identity ∧ row.terminationKey.isSome) :
    ({ s with journal } : ProcessRun).Owned out where
  born := h.born
  registering := h.registering
  seen := hseen
  settled := hsettled
  calls id call hcall := by
    have hkept := h.calls id call hcall
    obtain ⟨row, hrow⟩ := hkept.recorded
    obtain ⟨row', hrow', -⟩ := hrow.becomes hbecomes
    exact ⟨⟨row', hrow'⟩, hkept.own, hkept.target, hkept.decided⟩

/-- A row written back over the one with its nonce. -/
theorem setRow (h : s.Owned out) {row row' : OwnedProcessGroup} {nonce : UUID}
    (hrow : s.journal.get? nonce = some row) (hbecomes : row.Becomes row')
    (hsettled : row'.state ≠ .running →
      out s.running row'.identity ∧ row'.terminationKey.isSome) :
    ({ s with journal := s.journal.set row' } : ProcessRun).Owned out := by
  have hmem : ∀ other, other ∈ s.journal.set row' → other = row' ∨ other ∈ s.journal := by
    intro other hother
    refine ((Table.mem_set ?_).mp hother).imp id And.left
    rw [ProcessJournal.Becomes.key_eq hbecomes hrow, hrow]
    exact Option.some_ne_none row
  refine h.withJournal (.set hbecomes hrow) ?_ ?_
  · intro other hother
    rcases hmem other hother with rfl | hother
    · rw [hbecomes.identity]
      exact h.seen row (Table.mem_of_get? hrow)
    · exact h.seen other hother
  · intro other hother hstate
    rcases hmem other hother with rfl | hother
    · exact hsettled hstate
    · exact h.settled other hother hstate

theorem request_seen (h : s.Owned out) {call : ActiveCall} (hkept : call.Kept out s) :
    s.Seen call.request.identity := by
  obtain ⟨row, hrow, hidentity, -⟩ := hkept.recorded
  rw [← hidentity]
  exact h.seen row (Table.mem_of_get? hrow)

end ProcessRun.Owned

/-- The journal of a step comes from the one before. -/
theorem ProcessStep.becomes (hstep : ProcessStep admits s t) :
    ProcessJournal.Becomes s.journal t.journal := by
  cases hstep with
  | commitOwnership _ _ _ hrecord => exact recordOwnership_becomes hrecord
  | proceed _ _ hbegin =>
    obtain ⟨row, hrow, -, hstate, hkey, rfl⟩ := beginTermination_proceed hbegin
    exact .set (.keyed _ hstate hkey) hrow
  | finish _ _ _ _ hfinish =>
    obtain ⟨row, hrow, hkey, ⟨hstate, -, rfl⟩ | ⟨-, -, rfl⟩⟩ := finishTermination_cases hfinish
    · exact .set (.ended _ _ _ hstate) hrow
    · exact .rfl'
  | _ => exact .rfl'

/-- Every step keeps the invariant. -/
theorem ProcessRun.Owned.step (hout : Lasting admits out) (h : s.Owned out)
    (hstep : ProcessStep admits s t) : t.Owned out := by
  cases hstep with
  | @start p running hfresh hgroup hleader hinsert =>
    have hseen : ∀ identity, s.Seen identity →
        ({ s with running, born := p :: s.born } : ProcessRun).Seen identity := by
      rintro identity ⟨q, hq, hobserved⟩
      exact ⟨q, List.mem_cons_of_mem p hq, hobserved⟩
    have hlasts : ∀ identity, s.Seen identity → out s.running identity → out running identity :=
      fun identity hs ho => hout.start s p running identity hs hfresh hleader hinsert ho
    refine ⟨?_, ?_, ?_, ?_, ?_⟩
    · intro q hq
      rcases (Table.mem_insert? hinsert).mp hq with hq | rfl
      · exact List.mem_cons_of_mem p (h.born q hq)
      · exact List.mem_cons_self
    · exact fun identity hidentity => hseen identity (h.registering identity hidentity)
    · exact fun row hrow => hseen row.identity (h.seen row hrow)
    · intro row hrow hstate
      exact (h.settled row hrow hstate).imp_left (hlasts row.identity (h.seen row hrow))
    · intro id call hcall
      have hkept := h.calls id call hcall
      refine ⟨hkept.recorded, hkept.own, hkept.target, ?_⟩
      intro state hstage
      exact (hkept.decided state hstage).imp_right (hlasts _ (h.request_seen hkept))
  | exit pid =>
    refine ⟨?_, h.registering, h.seen, ?_, ?_⟩
    · exact fun q hq => h.born q (Table.mem_of_mem_deleteWhere hq)
    · intro row hrow hstate
      exact (h.settled row hrow hstate).imp_left (hout.exit _ _ _)
    · intro id call hcall
      have hkept := h.calls id call hcall
      refine ⟨hkept.recorded, hkept.own, hkept.target, ?_⟩
      intro state hstage
      exact (hkept.decided state hstage).imp_right (hout.exit _ _ _)
  | @observeOwnership identity hsame =>
    refine ⟨h.born, ?_, h.seen, h.settled, ?_⟩
    · intro other hother
      rcases List.mem_cons.mp hother with rfl | hother
      · exact s.seen_of_observe (sameIdentity_iff.mp hsame) h.born
      · exact h.registering other hother
    · intro id call hcall
      have hkept := h.calls id call hcall
      exact ⟨hkept.recorded, hkept.own, hkept.target, hkept.decided⟩
  | @commitOwnership identity journal _ _ hobserved hrecord =>
    refine h.withJournal (recordOwnership_becomes hrecord) ?_ ?_
    · intro row hrow
      rcases recordOwnership_cases hrecord with rfl | hinsert
      · exact h.seen row hrow
      · rcases (Table.mem_insert? hinsert).mp hrow with hrow | rfl
        · exact h.seen row hrow
        · exact h.registering identity hobserved
    · intro row hrow hstate
      rcases recordOwnership_cases hrecord with rfl | hinsert
      · exact h.settled row hrow hstate
      · rcases (Table.mem_insert? hinsert).mp hrow with hrow | rfl
        · exact h.settled row hrow hstate
        · exact absurd rfl hstate
  | refuse => exact h.log _
  | replay => exact h.log _
  | @proceed id request journal updatedAtMs hid hbegin =>
    obtain ⟨row, hrow, hidentity, hstate, hkey, hjournal⟩ := beginTermination_proceed hbegin
    have hbecomes := OwnedProcessGroup.Becomes.keyed updatedAtMs hstate hkey
    have hset := h.setRow hrow hbecomes fun hsettled => absurd hstate hsettled
    rw [← hjournal] at hset
    refine hset.withCall id _ ?_
    rintro call ⟨⟩
    refine ⟨⟨{ row with
      terminationKey := some request.idempotencyKey
      updatedAtMs := updatedAtMs }, ?_, hidentity, rfl⟩, ?_, rfl, ?_⟩
    · rw [hjournal]
      exact ProcessJournal.Becomes.get?_set hbecomes hrow
    · exact not_foreign_iff.mpr ⟨row, hrow, hidentity, hkey⟩
    · intro state hstage
      cases hstage
  | @look id call stage signal permitted timeUp hcall hadmits hlook =>
    have hkept := h.calls id call hcall
    refine (h.withCall id _ ?_).log _
    rintro _ ⟨⟩
    refine ⟨hkept.recorded, hkept.own, ?_, ?_⟩
    · cases looked hkept.target hlook with
      | decide => rfl
      | settled => rfl
      | goOn => rfl
    · rintro state hstage
      cases looked hkept.target hlook with
      | decide hstate hgone =>
        cases hstage
        exact ⟨hstate, hout.of_gone s _ hadmits hgone⟩
      | settled hold =>
        cases hstage
        exact hkept.decided _ hold
      | goOn => cases hstage
  | raise => exact (h.withCall _ _ (by rintro _ ⟨⟩)).log _
  | fail => exact (h.withCall _ _ (by rintro _ ⟨⟩)).log _
  | @finish id call state result journal _ _ hcall hstage hfinish =>
    have hkept := h.calls id call hcall
    obtain ⟨hstate, hgone⟩ := hkept.decided state hstage
    refine ProcessRun.Owned.log (ProcessRun.Owned.withCall ?_ id none (by rintro _ ⟨⟩)) _
    obtain ⟨row, hrow, hkey, ⟨hrunning, -, rfl⟩ | ⟨-, -, rfl⟩⟩ := finishTermination_cases hfinish
    · refine h.setRow hrow (.ended _ _ _ hrunning) ?_
      intro _
      obtain ⟨row', hrow', hidentity, -⟩ := hkept.recorded
      obtain rfl : row = row' := Option.some.inj (hrow.symm.trans hrow')
      refine ⟨?_, by simp [hkey]⟩
      rw [hidentity]
      exact hgone
    · exact h
  | conflict => exact (h.withCall _ _ (by rintro _ ⟨⟩)).log _
  | crash => exact ⟨h.born, by simp, h.seen, h.settled, by simp⟩

/-! ### What the events say -/

/-- A signal reached the group of a running row whose key was recorded, and an answer is what
the journal says; a foreign request got no signal and no result. -/
def ProcessRun.Reports (s : ProcessRun) : ProcessEvent → Prop
  | .signalled call _ groupId observed journal =>
    ¬ Foreign call.began call.request ∧ ∃ row, Recorded journal call.request row ∧
      row.state = .running ∧ observed = some row.identity.observation ∧
      groupId = row.identity.processGroupId
  | .answered request began (.ok result) =>
    ¬ Foreign began request ∧ ∃ row, Recorded s.journal request row ∧ row.state ≠ .running ∧
      result.state = row.state
  | .answered request began (.error error) =>
    request.IsValid → ¬ Foreign began request →
      error = .processObservationFailed ∨ error = .processTerminationFailed ∨
        error = .processJournalUnavailable

theorem ProcessRun.Reports.becomes {event : ProcessEvent} (h : s.Reports event)
    (hjournal : ProcessJournal.Becomes s.journal t.journal) : t.Reports event := by
  cases event with
  | signalled => exact h
  | answered request began answer =>
    cases answer with
    | error => exact h
    | ok result =>
      obtain ⟨hown, row, hrow, hstate, hresult⟩ := h
      obtain ⟨row', hrow', hbecomes⟩ := hrow.becomes hjournal
      obtain rfl := hbecomes.settled hstate
      exact ⟨hown, row', hrow', hstate, hresult⟩

/-- The signal of an observation of a call under way. -/
theorem reports_signals (hout : Lasting admits out) (h : s.Owned out) {id : ℕ}
    {call : ActiveCall} (hcall : s.calls id = some call)
    {next : Except OwnedProcessError TerminationStage} {signal : Option ProcessSignal}
    (hlooked : Looked s call next signal) {event : ProcessEvent}
    (hevent : event ∈ call.signals s signal) : t.Reports event := by
  obtain ⟨sent, hsent, rfl⟩ := List.mem_map.mp hevent
  have hkept := h.calls id call hcall
  have hsome : signal.isSome := by
    rw [Option.mem_toList] at hsent
    rw [hsent]
    rfl
  have hobserved : s.observe call.target.pid = some call.request.identity.observation := by
    cases hlooked with
    | decide => cases hsome
    | settled => cases hsome
    | goOn hsignal => exact hsignal hsome
    | fail hsignal => exact hsignal hsome
  obtain ⟨row, hrow⟩ := hkept.recorded
  refine ⟨hkept.own, row, hrow, ?_, ?_, ?_⟩
  · by_contra hstate
    have hgone := hout.gone _ _ (h.settled row (Table.mem_of_get? hrow.1) hstate).1
    rw [hrow.2.1, ← ProcessRun.observe_ne_iff] at hgone
    rw [hkept.target] at hobserved
    exact hgone hobserved
  · rw [hrow.2.1, hobserved]
  · rw [hrow.2.1, hkept.target]
    rfl

theorem ProcessStep.reports (hout : Lasting admits out) (h : s.Owned out)
    (hevents : ∀ event ∈ s.events, s.Reports event) (hstep : ProcessStep admits s t) :
    ∀ event ∈ t.events, t.Reports event := by
  have hbecomes := hstep.becomes
  have hold : ∀ event ∈ s.events, t.Reports event :=
    fun event hevent => (hevents event hevent).becomes hbecomes
  have hnew : ∀ new, t.events = s.events ++ new → (∀ event ∈ new, t.Reports event) →
      ∀ event ∈ t.events, t.Reports event := by
    intro new happend hreports event hevent
    rw [happend, List.mem_append] at hevent
    exact hevent.elim (hold event) (hreports event)
  cases hstep with
  | refuse updatedAtMs hbegin =>
    refine hnew _ rfl ?_
    intro event hevent
    obtain rfl := List.mem_singleton.mp hevent
    intro hvalid hown
    exact absurd (foreign_of_beginTermination_error hbegin hvalid
      fun row hrow hstate => (h.settled row hrow hstate).2) hown
  | replay updatedAtMs hbegin =>
    refine hnew _ rfl ?_
    intro event hevent
    obtain rfl := List.mem_singleton.mp hevent
    obtain ⟨row, hrow, hstate, rfl⟩ := beginTermination_replay hbegin
    exact ⟨not_foreign_iff.mpr ⟨row, hrow.1, hrow.2.1, .inr hrow.2.2⟩, row, hrow, hstate, rfl⟩
  | look permitted timeUp hcall hadmits hlook =>
    have hkept := h.calls _ _ hcall
    exact hnew _ rfl fun event => reports_signals hout h hcall (looked hkept.target hlook)
  | raise permitted timeUp hcall hlook =>
    have hkept := h.calls _ _ hcall
    refine hnew _ rfl ?_
    intro event hevent
    rcases List.mem_append.mp hevent with hevent | hevent
    · exact reports_signals hout h hcall (looked hkept.target hlook) hevent
    · obtain rfl := List.mem_singleton.mp hevent
      intro _ _
      cases looked hkept.target hlook with
      | fail => exact .inr (.inl rfl)
  | fail error hcall herror =>
    refine hnew _ rfl ?_
    intro event hevent
    obtain rfl := List.mem_singleton.mp hevent
    intro _ _
    exact herror.imp_right .inr
  | @finish id call state result journal terminatedAtMs updatedAtMs hcall hstage hfinish =>
    refine hnew _ rfl ?_
    intro event hevent
    obtain rfl := List.mem_singleton.mp hevent
    have hkept := h.calls _ _ hcall
    obtain ⟨row, hrow⟩ := hkept.recorded
    obtain ⟨hstate, -⟩ := hkept.decided state hstage
    obtain ⟨found, hfound, hkey, hcases⟩ := finishTermination_cases hfinish
    obtain rfl : row = found := Option.some.inj (hrow.1.symm.trans hfound)
    refine ⟨hkept.own, ?_⟩
    obtain ⟨hrunning, rfl, rfl⟩ | ⟨hsettled, rfl, rfl⟩ := hcases
    · have hbecomes := OwnedProcessGroup.Becomes.ended state (some terminatedAtMs) updatedAtMs
        hrunning
      exact ⟨_, ⟨ProcessJournal.Becomes.get?_set hbecomes hfound, hrow.2.1, hkey⟩, hstate, rfl⟩
    · exact ⟨row, hrow, hsettled, rfl⟩
  | conflict terminatedAtMs updatedAtMs hcall hstage hfinish =>
    obtain ⟨row, hrow⟩ := (h.calls _ _ hcall).recorded
    have hok := congrArg Except.isOk hfinish
    rw [finishTermination_isOk hrow] at hok
    cases hok
  | _ => exact hold

/-! ### Runs -/

theorem ProcessRun.owned_of_reachable (hout : Lasting admits out)
    (hs : (processSystem admits).Reachable s) :
    s.Owned out ∧ ∀ event ∈ s.events, s.Reports event := by
  refine hs.invariant (P := fun s => s.Owned out ∧ ∀ event ∈ s.events, s.Reports event) ?_ ?_
  · rintro s rfl
    have hnone : ∀ p : OSProcess, p ∉ (Table.empty : Table OSProcess) :=
      fun p hp => List.not_mem_nil hp
    have hempty : ∀ row : OwnedProcessGroup, row ∉ (Table.empty : ProcessJournal) :=
      fun row hrow => List.not_mem_nil hrow
    exact ⟨⟨fun p hp => absurd hp (hnone p), by simp, fun row hrow => absurd hrow (hempty row),
      fun row hrow => absurd hrow (hempty row), by simp⟩, by simp⟩
  · rintro s t ⟨hs, hevents⟩ hstep
    exact ⟨hs.step hout hstep, hstep.reports hout hs hevents⟩

theorem ProcessRun.becomes_of_run
    (hrun : Relation.ReflTransGen (processSystem admits).step s t) :
    ProcessJournal.Becomes s.journal t.journal := by
  induction hrun with
  | refl => exact .rfl'
  | tail _ hstep ih => exact ih.trans (ProcessStep.becomes hstep)

end Invariant

/-- Signals go to registered groups, answers are what is recorded, foreign requests are refused
without a signal, and a row is settled once, under one key. -/
structure ProcessRun.Promises (admits : ProcessRun → ProcessIdentity → Prop) (s : ProcessRun) :
    Prop where
  events : ∀ event ∈ s.events, s.Reports event
  refused : ∀ request updatedAtMs, Foreign s.journal request →
    (beginTermination updatedAtMs request s.journal).isOk = false
  lasting : ∀ t, Relation.ReflTransGen (processSystem admits).step s t →
    ProcessJournal.Becomes s.journal t.journal

theorem Foreign.refused {journal : ProcessJournal} {request : TerminationRequest}
    (h : Foreign journal request) (updatedAtMs : ℤ) :
    (beginTermination updatedAtMs request journal).isOk = false := by
  cases hbegin : beginTermination updatedAtMs request journal with
  | error => rfl
  | ok started =>
    refine absurd h ?_
    cases started with
    | replay result =>
      obtain ⟨row, hrow, -, -⟩ := beginTermination_replay hbegin
      exact not_foreign_iff.mpr ⟨row, hrow.1, hrow.2.1, .inr hrow.2.2⟩
    | proceed journal' =>
      obtain ⟨row, hrow, hidentity, -, hkey, -⟩ := beginTermination_proceed hbegin
      exact not_foreign_iff.mpr ⟨row, hrow, hidentity, hkey⟩

theorem leaderIdentity_valid : ¬ ((1 : ℤ) ≤ 0 ∨ (100 : ℤ) ≤ 1 ∨ (100 : ℤ) ≤ 1 ∨ (100 : ℤ) ≠ 100 ∨
    "b" = "" ∨ 255 < "b".length) := by decide

def leaderIdentity : ProcessIdentity :=
  ⟨.ofNat 1, .ofNat 2, 1, 100, 100, "b", .ofNat 3, leaderIdentity_valid⟩

def leaderProcess : OSProcess := ⟨⟨100, "b"⟩, ⟨100, "b"⟩⟩

def memberProcess : OSProcess := ⟨⟨101, "c"⟩, ⟨100, "b"⟩⟩

theorem leaderRows : ([leaderProcess].map key).Nodup := by decide

theorem groupRows : ([leaderProcess, memberProcess].map key).Nodup := by decide

theorem memberRows : ([memberProcess].map key).Nodup := by decide

def leaderRunning : Table OSProcess := ⟨[leaderProcess], leaderRows⟩

def groupRunning : Table OSProcess := ⟨[leaderProcess, memberProcess], groupRows⟩

def memberRunning : Table OSProcess := ⟨[memberProcess], memberRows⟩

def leaderRow (key : Option String) (state : OwnedProcessState) (terminatedAtMs : Option ℤ) :
    OwnedProcessGroup :=
  ⟨leaderIdentity, state, key, 1, terminatedAtMs, 1⟩

theorem leaderRow_nodup (termination : Option String) (state : OwnedProcessState)
    (terminatedAtMs : Option ℤ) :
    ([leaderRow termination state terminatedAtMs].map key).Nodup := List.nodup_singleton _

def leaderJournal (termination : Option String) (state : OwnedProcessState)
    (terminatedAtMs : Option ℤ) : ProcessJournal :=
  ⟨[leaderRow termination state terminatedAtMs], leaderRow_nodup termination state terminatedAtMs⟩

def leaderTermination : TerminationRequest := ⟨leaderIdentity, "k", 2⟩

def leaderCall (stage : TerminationStage) : ActiveCall :=
  ⟨leaderTermination, leaderJournal none .running none, stage⟩

/-- A group of two is registered, and its termination is under way. -/
def terminating (running : Table OSProcess) (stage : TerminationStage)
    (events : List ProcessEvent) : ProcessRun where
  journal := leaderJournal (some "k") .running none
  running := running
  born := [memberProcess, leaderProcess]
  registering := [leaderIdentity]
  calls := Function.update (fun _ => none) 0 (some (leaderCall stage))
  events := events

section Example
variable {admits : ProcessRun → ProcessIdentity → Prop}

/-- An observation of the call in the example. -/
theorem terminating_look {running : Table OSProcess} {stage : TerminationStage}
    {events : List ProcessEvent} {signal : Option ProcessSignal} (stage' : TerminationStage)
    (hs : (processSystem admits).Reachable (terminating running stage events))
    (hadmits : admits (terminating running stage events) leaderIdentity)
    (hlook : (leaderCall stage).look (terminating running stage events) true false =
      (.ok stage', signal)) :
    (processSystem admits).Reachable (terminating running stage'
      (events ++ (leaderCall stage).signals (terminating running stage events) signal)) := by
  have hcall : (terminating running stage events).calls 0 = some (leaderCall stage) := rfl
  have hstep := hs.tail (ProcessStep.look true false hcall hadmits hlook)
  have hlog : ∀ new, ((terminating running stage events).withCall 0
      (some { leaderCall stage with stage := stage' })).log new =
        terminating running stage' (events ++ new) := by
    intro new
    simp only [terminating, ProcessRun.withCall, ProcessRun.log, Function.update_idem]
    rfl
  rw [hlog] at hstep
  exact hstep

/-- The state a call of the example decided on is recorded. -/
theorem terminating_finish {running : Table OSProcess} {state : OwnedProcessState}
    {events : List ProcessEvent}
    (hs : (processSystem admits).Reachable (terminating running (.decided state) events)) :
    ∃ s, (processSystem admits).Reachable s ∧ s.running = running ∧
      s.journal = leaderJournal (some "k") state (some 2) := by
  have hcall : (terminating running (.decided state) events).calls 0 =
      some (leaderCall (.decided state)) := rfl
  have hfinish : finishTermination 2 1 leaderTermination state
      (leaderJournal (some "k") .running none) =
        .ok (⟨state, false⟩, leaderJournal (some "k") state (some 2)) := rfl
  exact ⟨_, hs.tail (ProcessStep.finish 2 1 hcall rfl hfinish), rfl, rfl⟩

theorem terminating_reachable :
    (processSystem admits).Reachable (terminating groupRunning .recorded []) := by
  have h0 : (processSystem admits).Reachable {} := .of_init rfl
  have h1 : (processSystem admits).Reachable { running := leaderRunning, born := [leaderProcess] } :=
    h0.tail (ProcessStep.start (by simp) (fun q hq => absurd hq List.not_mem_nil) (.inl rfl) rfl)
  have h2 : (processSystem admits).Reachable
      { running := groupRunning, born := [memberProcess, leaderProcess] } :=
    h1.tail (ProcessStep.start (by decide) (by decide)
      (.inr ⟨leaderProcess, List.mem_singleton_self _, rfl⟩) rfl)
  have h3 : (processSystem admits).Reachable
      { running := groupRunning, born := [memberProcess, leaderProcess]
        registering := [leaderIdentity] } :=
    h2.tail (ProcessStep.observeOwnership (by decide))
  have h4 : (processSystem admits).Reachable
      { journal := leaderJournal none .running none, running := groupRunning
        born := [memberProcess, leaderProcess], registering := [leaderIdentity] } :=
    h3.tail (ProcessStep.commitOwnership 1 1 (List.mem_singleton_self _) rfl)
  exact h4.tail (ProcessStep.proceed 1 rfl rfl)

/-- The first signal is sent to the running group. -/
theorem signalled_reachable
    (hadmits : ∀ s : ProcessRun, leaderProcess ∈ s.running → admits s leaderIdentity) :
    (processSystem admits).Reachable (terminating groupRunning
      (.group leaderIdentity.observation .polling)
      [.signalled (leaderCall (.group leaderIdentity.observation .first)) .term 100
        (some leaderIdentity.observation) (leaderJournal (some "k") .running none)]) := by
  have h1 := terminating_look (.group leaderIdentity.observation .first) terminating_reachable
    (hadmits _ List.mem_cons_self) rfl
  exact terminating_look _ h1 (hadmits _ List.mem_cons_self) rfl

end Example

end ControlPlane.HostAgent
