import ControlPlane.Approvals.Escalation
import ControlPlane.Jobs.Accounting
import ControlPlane.Readiness.Storage

/-!
# The history of an exhausted outage

Every attempt of a job is numbered by its lease, and a pause gives back the attempt but not
the number. The history of an outage takes the first hundred numbers only, and is built
where no error is caught.

## Main results

* `escalates_iff`: when the escalation of an exhausted outage raises.
-/
namespace ControlPlane

/-! ### Errors that are not translated -/

section Errors
variable {α β ε : Type} {rt : Runtime} {db : Database}

/-- The first error of a traversal is one of its elements. -/
theorem Except.mapM_eq_error {f : α → Except ε β} {xs : List α} {e : ε}
    (h : xs.mapM f = .error e) : ∃ x ∈ xs, f x = .error e := by
  induction xs with
  | nil => cases h
  | cons x xs ih =>
    rw [List.mapM_cons, Except.bind_eq_error] at h
    obtain h | ⟨y, -, h⟩ := h
    · exact ⟨x, List.mem_cons_self .., h⟩
    · rw [Except.bind_eq_error] at h
      obtain h | ⟨ys, -, h⟩ := h
      · obtain ⟨x', hx', h⟩ := ih h
        exact ⟨x', List.mem_cons_of_mem _ hx', h⟩
      · cases h

theorem verifyTransitionEvidence_ne_evidence {task : Task} {ids : List UUID} {e : EvidenceError} :
    verifyTransitionEvidence rt db task ids ≠ .error (.evidence e) := by
  intro h
  rw [verifyTransitionEvidence, Except.bind_eq_error] at h
  obtain h | ⟨_, -, h⟩ := h
  · cases (Except.require_eq_error.mp h).2
  · obtain ⟨id, -, h⟩ := Except.mapM_eq_error h
    simp [-bind_pure_comp, verifyOneTransitionEvidence, Except.bind_eq_error,
      Except.orThrow_eq_error, Except.require_eq_error, Except.relabel_eq_error,
      Except.pure_ne_error] at h

/-- A transition that asks no gate is refused with a readable error, for a readable actor. -/
theorem transitionTask_ne_evidence {c : TaskTransitionCommand} {actor : String}
    {e : EvidenceError} (hactor : requiredActor rt c.actorId = .ok actor)
    (hkind : c.kind = .escalate)
    (hgate : ∀ task policy, ∃ guards,
      c.gateEvaluator db task c.kind policy c.occurredAt = .ok guards) :
    transitionTask rt db c ≠ .error (.evidence e) := by
  intro h
  rw [transitionTask, Except.bind_eq_error] at h
  obtain h | ⟨⟨_, reason⟩, -, h⟩ := h
  · simp [-bind_pure_comp, checkCommand, hactor, hkind, TaskTransitionKind.validates,
      requiredReasonCode, Except.bind_eq_error, Except.require_eq_error, Except.pure_ne_error] at h
  · rw [Except.bind_eq_error] at h
    obtain h | ⟨task, -, h⟩ := h
    · cases (Except.orThrow_eq_error.mp h).2
    · split at h
      · simp [-bind_pure_comp, replayedTransition, Except.bind_eq_error, Except.require_eq_error,
          Except.orThrow_eq_error, Except.pure_ne_error] at h
      · simp only [applyTransition, Except.bind_eq_error] at h
        obtain h | ⟨_, -, h | ⟨policy, -, h | ⟨_, -, h | ⟨_, -, h | ⟨guards, -, h | ⟨_, -, h |
          ⟨_, -, h⟩⟩⟩⟩⟩⟩⟩ := h
        · cases (Except.require_eq_error.mp h).2
        · simp [-bind_pure_comp, activePolicy, Except.bind_eq_error, Except.orThrow_eq_error,
            Except.require_eq_error, Except.pure_ne_error] at h
        · exact verifyTransitionEvidence_ne_evidence h
        · unfold latestVerifiedPrHead at h
          dsimp only at h
          split at h
          · cases h
          · obtain ⟨_, -, h⟩ := Except.relabel_eq_error.mp h
            cases h
        · obtain ⟨guards, hguards⟩ := hgate task policy
          rw [hguards] at h
          cases h
        · rw [hkind, evaluateTaskTransition] at h
          dsimp only at h
          split at h
          · cases h
          · split at h
            · cases h
            · cases h
        · cases (Except.orThrow_eq_error.mp h).2
        · cases h

theorem checkpointOf_optionalId (rt : Runtime) (id : Option UUID) (refused : ApprovalError) :
    checkpointOf rt (optionalId id) refused = .ok id := by
  cases id with
  | none => rfl
  | some id => simp [checkpointOf, optionalId, UUID.parse_str, Except.orThrow, Except.map]

theorem get_checkpoint (b : BlockedOperation) :
    b.toDict.get "checkpoint_evidence_id" = optionalId b.checkpointEvidenceId := by
  simp [BlockedOperation.toDict, Json.get, Json.get?, Json.obj?]

/-- Reading back the operation that a request blocks raises no other error. -/
theorem storedBlockedOperation_ne_internal {row : ApprovalRequest} {b : Option BlockedOperation}
    {message : String} (hrow : row.blockedOperation = b.map BlockedOperation.toDict) :
    storedBlockedOperation rt row ≠ .error (.internal message) := by
  intro h
  unfold storedBlockedOperation at h
  rw [hrow] at h
  cases b with
  | none => cases h
  | some b =>
    rw [Option.map_some] at h
    dsimp only at h
    have hread : BlockedOperation.fromDict rt b.toDict ≠ .error (.internal message) := by
      intro h
      simp [-bind_pure_comp, BlockedOperation.fromDict, get_checkpoint, checkpointOf_optionalId,
        Except.bind_eq_error, Except.orThrow_eq_error, Except.require_eq_error,
        Except.pure_ne_error] at h
    cases hdict : BlockedOperation.fromDict rt b.toDict with
    | ok _ => rw [hdict] at h; cases h
    | error e =>
      rw [hdict] at h hread
      simp only [Except.map, Except.error.injEq] at h
      exact hread (congrArg Except.error h)

theorem exactPolicy_retryLimit {task : Task} : exactPolicy db task .retryLimit = .ok none := by
  simp [exactPolicy]

theorem pause_escalates {svc : ApprovalService} {q : RequestCommand} {reason : String}
    {policy : Option UUID} (htype : q.requestType = .retryLimit) :
    (svc.pause q reason policy).kind = .escalate := by
  rw [ApprovalService.pause, htype]
  rfl

theorem pause_gate {svc : ApprovalService} {q : RequestCommand} {reason : String}
    {policy : Option UUID} (task : Task) (version : PolicyVersion) :
    ∃ guards, (svc.pause q reason policy).gateEvaluator db task (svc.pause q reason policy).kind
      version (svc.pause q reason policy).occurredAt = .ok guards := by
  rw [ApprovalService.pause]
  dsimp only
  rw [ApprovalGates.evaluate]
  split
  · exact ⟨_, rfl⟩
  · exact ⟨_, rfl⟩

/-- A request that was refused for its transition names the refusal. -/
theorem pause_ne_internal {svc : ApprovalService} {q : RequestCommand} {actor message : String}
    {reason : String} {policy : Option UUID} (hactor : requiredActor rt svc.principalId = .ok actor)
    (htype : q.requestType = .retryLimit) :
    Except.relabel (transitionTask rt db (svc.pause q reason policy)) ApprovalError.ofTransition ≠
      .error (.internal message) := by
  intro h
  obtain ⟨e, htransition, he⟩ := Except.relabel_eq_error.mp h
  cases e with
  | evidence e =>
    exact transitionTask_ne_evidence (c := svc.pause q reason policy) hactor
      (pause_escalates htype) pause_gate htransition
  | invalid _ | notFound _ | conflict _ | integrity _ => cases he

theorem appendApprovalEvent_ne_internal {task : Task} {row : ApprovalRequest}
    {b : Option BlockedOperation} {kind message : String} {ids : List UUID} {eventId : UUID}
    {now : Time} (hrow : row.blockedOperation = b.map BlockedOperation.toDict) :
    appendApprovalEvent rt db task row kind ids eventId now ≠ .error (.internal message) := by
  intro h
  simp only [appendApprovalEvent, Except.bind_eq_error] at h
  obtain h | ⟨_, -, h | ⟨_, -, h | ⟨_, -, h⟩⟩⟩ := h
  · exact storedBlockedOperation_ne_internal hrow h
  · cases (Except.orThrow_eq_error.mp h).2
  · cases (Except.require_eq_error.mp h).2
  · cases h

theorem openRequest_ne_internal {svc : ApprovalService} {q : RequestCommand} {task : Task}
    {row : ApprovalRequest} {actor message reason : String} {b : Option BlockedOperation}
    (hactor : requiredActor rt svc.principalId = .ok actor) (htype : q.requestType = .retryLimit)
    (hrow : row.blockedOperation = b.map BlockedOperation.toDict) :
    svc.openRequest rt db task q reason row ≠ .error (.internal message) := by
  intro h
  rw [ApprovalService.openRequest, htype, exactPolicy_retryLimit, Except.bind_eq_error] at h
  obtain h | ⟨_, -, h⟩ := h
  · cases (Except.require_eq_error.mp h).2
  rw [Except.bind_eq_error] at h
  obtain h | ⟨_, -, h⟩ := h
  · cases (Except.require_eq_error.mp h).2
  rw [Except.bind_eq_error] at h
  obtain h | ⟨_, -, h⟩ := h
  · cases (Except.require_eq_error.mp h).2
  rw [Except.ok_bind, Except.bind_eq_error] at h
  obtain h | ⟨requests, -, h⟩ := h
  · cases (Except.orThrow_eq_error.mp h).2
  rw [Except.bind_eq_error] at h
  obtain h | ⟨⟨transition, moved⟩, -, h⟩ := h
  · exact pause_ne_internal hactor htype h
  dsimp only at h
  rw [Except.bind_eq_error] at h
  obtain h | ⟨moving, -, h⟩ := h
  · cases (Except.orThrow_eq_error.mp h).2
  rw [Except.bind_eq_error] at h
  obtain h | ⟨_, -, h⟩ := h
  · exact appendApprovalEvent_ne_internal hrow h
  · cases h

/-- A request for an outage is refused with errors of the approval service only. -/
theorem request_ne_internal {svc : ApprovalService} {q : RequestCommand} {actor message : String}
    (hactor : requiredActor rt svc.principalId = .ok actor) (htype : q.requestType = .retryLimit) :
    svc.request rt db q ≠ .error (.internal message) := by
  intro h
  rw [ApprovalService.request, Except.bind_eq_error] at h
  obtain h | ⟨⟨reason, shape⟩, -, h⟩ := h
  · simp [-bind_pure_comp, checkApprovalRequest, requiredApprovalReason, htype,
      validateRequestShape, Except.bind_eq_error, Except.require_eq_error,
      Except.pure_ne_error] at h
  rw [Except.bind_eq_error] at h
  obtain h | ⟨task, -, h⟩ := h
  · cases (Except.orThrow_eq_error.mp h).2
  dsimp only at h
  have hsubject : validateExactSubject rt db task q.requestType shape.subjectId q.evidenceIds
      (db.approvalRequests.get? q.requestId).isNone = .ok none := by
    rw [htype]
    rfl
  rw [hsubject, Except.ok_bind] at h
  split at h
  · simp [-bind_pure_comp, replayedRequest, transitionEventId, approvalAuditEventId,
      Except.bind_eq_error, Except.require_eq_error, Except.orThrow_eq_error,
      Except.pure_ne_error] at h
  · exact openRequest_ne_internal (b := q.blockedOperation) hactor htype rfl h

end Errors

/-! ### The blocked operation -/

section Operation
variable {rt : Runtime} {db : Database} {job : BackgroundJob} {latest : DependencyOutageAttempt}

/-- A text of a fixed number of characters of one class matches that many of them. -/
theorem loop_exactly_char {κ : Type} {holds : κ → Char → Bool} {k : κ} {fuel : ℕ}
    {seen rest : List Char} (hfuel : rest.length ≤ fuel) (h : ∀ x ∈ rest, holds k x = true) :
    (Regex.loop (·.rest.length) (Regex.Re.run holds (.char k)) true fuel rest.length
      (some rest.length) ⟨seen, rest, none⟩).any (·.rest.isEmpty) = true := by
  induction rest generalizing fuel seen with
  | nil =>
    cases fuel with
    | zero => simp [Regex.loop]
    | succ fuel => simp [Regex.loop]
  | cons x xs ih =>
    cases fuel with
    | zero => simp at hfuel
    | succ fuel =>
      have hx : holds k x = true := h x List.mem_cons_self
      have hfuel' : xs.length ≤ fuel := by simpa using hfuel
      have hxs := @ih fuel (x :: seen) hfuel' fun y hy => h y (List.mem_cons_of_mem x hy)
      simpa [Regex.loop, Regex.Re.run, hx] using hxs

theorem fullmatch_exactly_char {κ : Type} {holds : κ → Char → Bool} {k : κ} {xs : List Char}
    {n : ℕ} (hlength : xs.length = n) (h : ∀ x ∈ xs, holds k x = true) :
    (Regex.Re.exactly n (.char k)).fullmatch holds xs = true := by
  subst hlength
  exact loop_exactly_char le_rfl h

theorem hexDigest_fingerprint (j : Json) :
    hexDigest.fullmatch (CharClass.holds rt.unicode) (rt.fingerprint j).toList = true := by
  have hchars : (UUID.hexAlphabet.all fun c => Unicode.isAscii c &&
      (CharClass.union decimal (.range 'a' 'f')).holds .ascii c) = true := by
    decide
  simp only [List.all_eq_true, Bool.and_eq_true] at hchars
  refine fullmatch_exactly_char ?_ fun c hc => ?_
  · rw [String.length_toList]
    exact rt.length_sha256 _
  · obtain ⟨hascii, hholds⟩ := hchars c (mem_hexAlphabet_fingerprint rt j c hc)
    rw [CharClass.holds_eq_of_isAscii rt.unicode .ascii _ hascii]
    exact hholds

theorem toString_of_le {n : ℕ} (h : n ≤ 100) :
    (toString n).length ≤ 3 ∧ ∀ c ∈ (toString n).toList, c ∈ UUID.hexAlphabet := by
  have hall : ((List.range 101).all fun n => decide ((toString n).length ≤ 3) &&
      (toString n).toList.all UUID.hexAlphabet.contains) = true := by
    decide +kernel
  have hn := List.all_eq_true.mp hall n (List.mem_range.mpr (by omega))
  rw [Bool.and_eq_true, decide_eq_true_eq, List.all_eq_true] at hn
  exact ⟨hn.1, fun c hc => List.contains_iff_mem.mp (hn.2 c hc)⟩

/-- The characters of the key of a blocked operation. -/
def keyAlphabet : List Char :=
  'o' :: 'u' :: 't' :: 'a' :: 'g' :: 'e' :: ':' :: '-' :: UUID.hexAlphabet

theorem mem_keyAlphabet {c : Char} (h : c ∈ '-' :: UUID.hexAlphabet) : c ∈ keyAlphabet :=
  List.mem_append_right ['o', 'u', 't', 'a', 'g', 'e', ':'] h

theorem holds_keyAlphabet (u : Unicode) {c : Char} (h : c ∈ keyAlphabet) :
    (CharClass.union alnum (oneOf "._:/-")).holds u c = true := by
  have hchars : (keyAlphabet.all fun c => Unicode.isAscii c &&
      (CharClass.union alnum (oneOf "._:/-")).holds .ascii c) = true := by
    decide
  simp only [List.all_eq_true, Bool.and_eq_true] at hchars
  obtain ⟨hascii, hholds⟩ := hchars c h
  rw [CharClass.holds_eq_of_isAscii u .ascii _ hascii]
  exact hholds

/-- Every character of the key of a blocked operation may stand in an identifier. -/
theorem actorIdentifier_key (id : UUID) {n : ℕ} (h : n ≤ 100) :
    actorIdentifier.fullmatch (CharClass.holds rt.unicode)
      ("outage:" ++ id.str ++ ":" ++ toString n).toList = true := by
  have hlist : ("outage:" ++ id.str ++ ":" ++ toString n).toList =
      'o' :: ("utage:".toList ++ id.chars ++ [':'] ++ (toString n).toList) := by
    simp only [String.toList_append, UUID.toList_str]
    rfl
  rw [hlist]
  refine Regex.Re.fullmatch_seq_char_many.mpr ⟨?_, ?_, fun n hn => nomatch hn⟩
  · rw [CharClass.holds_eq_of_isAscii rt.unicode .ascii _ (by decide)]
    decide
  · intro c hc
    simp only [List.mem_append, List.mem_singleton] at hc
    refine holds_keyAlphabet rt.unicode ?_
    obtain ((hc | hc) | rfl) | hc := hc
    · have hprefix : ("utage:".toList.all fun c => keyAlphabet.contains c) = true := by
        decide
      exact List.contains_iff_mem.mp (List.all_eq_true.mp hprefix c hc)
    · exact mem_keyAlphabet (UUID.mem_chars hc)
    · decide
    · exact mem_keyAlphabet (List.mem_cons_of_mem _ ((toString_of_le h).2 c hc))

theorem length_key (id : UUID) {n : ℕ} (h : n ≤ 100) :
    ("outage:" ++ id.str ++ ":" ++ toString n).length ≤ 255 := by
  have hid : id.str.length = 36 := by
    rw [← String.length_toList, UUID.toList_str, UUID.length_chars]
  have hn := (toString_of_le h).1
  simp only [String.length_append, hid]
  have hprefix : "outage:".length = 7 := rfl
  have hcolon : ":".length = 1 := rfl
  omega

theorem run_char_congr {κ : Type} {holds holds' : κ → Char → Bool} {k : κ}
    (h : holds k = holds' k) : (Regex.Re.char k).run holds = (Regex.Re.char k).run holds' := by
  funext cursor
  simp only [Regex.Re.run, h]

theorem run_seq_congr {κ : Type} {holds holds' : κ → Char → Bool} {a b : Regex.Re κ}
    (ha : a.run holds = a.run holds') (hb : b.run holds = b.run holds') :
    (Regex.Re.seq a b).run holds = (Regex.Re.seq a b).run holds' := by
  funext cursor
  simp only [Regex.Re.run, ha, hb]

theorem run_many_congr {κ : Type} {holds holds' : κ → Char → Bool} {r : Regex.Re κ} {greedy : Bool}
    {lo : ℕ} {hi : Option ℕ} (h : r.run holds = r.run holds') :
    (Regex.Re.many greedy lo hi r).run holds = (Regex.Re.many greedy lo hi r).run holds' := by
  funext cursor
  simp only [Regex.Re.run, h]

/-- The name of an operation is read without the tables of the character classes. -/
theorem run_dottedName (u : Unicode) :
    dottedName.run (CharClass.holds u) = dottedName.run (CharClass.holds .ascii) := by
  refine run_seq_congr (run_char_congr rfl) (run_seq_congr (run_many_congr (run_char_congr rfl))
    (run_many_congr (run_seq_congr (run_char_congr rfl) (run_seq_congr (run_char_congr rfl)
      (run_many_congr (run_char_congr rfl))))))

theorem dottedName_resume (service : DependencyService) :
    dottedName.fullmatch (CharClass.holds rt.unicode) service.resumeOperation.toList = true := by
  have hall : ∀ service : DependencyService,
      dottedName.fullmatch (CharClass.holds .ascii) service.resumeOperation.toList = true := by
    intro service
    cases service <;> decide +kernel
  have h := hall service
  rw [Regex.Re.fullmatch] at h ⊢
  rw [run_dottedName]
  exact h

/-! ### The history -/

/-- What the writers of its rows promise about an outage: the lease it failed under is
numbered, its reason is a code, and it happened within the calendar. -/
structure DependencyOutageAttempt.Recorded (rt : Runtime) (o : DependencyOutageAttempt) :
    Prop where
  positive : 0 < o.attempt
  code : reasonCode.fullmatch (CharClass.holds rt.unicode) o.errorCode.toList = true
  calendar : o.occurredAt < Calendar.endOfTime

theorem ofOutage_ok {o : DependencyOutageAttempt} (h : o.Recorded rt) (hle : o.attempt ≤ 100) :
    ∃ attempt, ApprovalRetryAttempt.ofOutage rt o = .ok attempt := by
  rw [ApprovalRetryAttempt.ofOutage, Except.require_of ⟨h.positive, hle⟩, Except.ok_bind,
    Except.require_of h.code, Except.ok_bind, dif_pos h.calendar]
  exact ⟨_, rfl⟩

theorem le_of_ofOutage {o : DependencyOutageAttempt} {attempt : ApprovalRetryAttempt}
    (h : ApprovalRetryAttempt.ofOutage rt o = .ok attempt) : o.attempt ≤ 100 := by
  rw [ApprovalRetryAttempt.ofOutage, Except.bind_eq_ok] at h
  obtain ⟨_, hbounds, -⟩ := h
  exact (Except.require_eq_ok.mp hbounds).2

theorem blockedOperation_ok
    (hjob : hexDigest.fullmatch (CharClass.holds rt.unicode) job.inputFingerprint.toList = true)
    (hle : latest.attempt ≤ 100) :
    ∃ blocked, BlockedOperation.ofOutage rt job latest = .ok blocked := by
  have hkey : ("outage:" ++ job.id.str ++ ":" ++ toString latest.attempt) ≠ "" := by
    intro h
    have hlength := congrArg String.length h
    simp only [String.length_append] at hlength
    have hprefix : "outage:".length = 7 := rfl
    have hempty : "".length = 0 := rfl
    omega
  simp only [BlockedOperation.ofOutage]
  rw [Except.require_of (dottedName_resume latest.service), Except.ok_bind,
    Except.require_of ⟨hkey, length_key job.id hle, actorIdentifier_key job.id hle⟩,
    Except.ok_bind, Except.require_of hjob, Except.ok_bind]
  exact ⟨_, rfl⟩

end Operation

/-! ### When an escalation raises -/

section Escalation
variable {svc : ApprovalService} {rt : Runtime} {db db₁ : Database} {q : RequestCommand}
  {c : EscalationCommand} {job : BackgroundJob} {task : Task} {latest : DependencyOutageAttempt}

/-- The last attempt of a job failed on a dependency and used up the budget. -/
structure ExhaustedOutage (db : Database) (c : EscalationCommand) (job : BackgroundJob)
    (task : Task) (latest : DependencyOutageAttempt) : Prop where
  job_eq : db.backgroundJobs.get? c.jobId = some job
  taskId_eq : job.taskId = some task.id
  task_eq : db.tasks.get? task.id = some task
  latest_eq : (outagesOf db job.id).getLast? = some latest
  exhausted : latest.exhausted = true

theorem mem_outagesOf {o : DependencyOutageAttempt} {jobId : UUID} (h : o ∈ outagesOf db jobId) :
    o ∈ db.dependencyOutageAttempts := by
  rw [outagesOf, List.mem_insertionSort] at h
  exact List.mem_of_mem_filter h

theorem request_outages (htype : q.requestType = .retryLimit) {answer : ApprovalRequestResult}
    (h : svc.request rt db q = .ok (answer, db₁)) :
    db₁.dependencyOutageAttempts = db.dependencyOutageAttempts := by
  cases hrow : db.approvalRequests.get? q.requestId with
  | none => exact (opened_of_request htype hrow h).outages
  | some existing =>
    simp only [ApprovalService.request, Except.bind_eq_ok, Except.orThrow_eq_ok, hrow,
      Except.pure_eq_ok, Prod.mk.injEq] at h
    obtain ⟨_, -, _, -, _, -, _, -, -, rfl⟩ := h
    rfl

/-- A request that was built is asked and bound, or stays pending. -/
theorem requestOutage_ok {actor : String} (hactor : requiredActor rt svc.principalId = .ok actor)
    (htype : q.requestType = .retryLimit)
    (hlatest : db.dependencyOutageAttempts.get? latest.id = some latest)
    (hunbound : latest.approvalRequestId = none) :
    ∃ r, requestOutage svc rt db q latest = .ok r := by
  unfold requestOutage
  cases hrequest : svc.request rt db q with
  | ok r =>
    obtain ⟨answer, db₁⟩ := r
    dsimp only
    rw [linkOutage, request_outages htype hrequest, hlatest, Except.orThrow, Except.ok_bind,
      Except.require_of (.inl hunbound), Except.ok_bind]
    exact ⟨_, rfl⟩
  | error e =>
    cases e with
    | internal message => exact absurd hrequest (request_ne_internal hactor htype)
    | invalid _ | notFound _ | conflict _ | precondition _ | recentPasswordRequired _ =>
      exact ⟨_, rfl⟩

theorem outageRequest_ok (hjob : hexDigest.fullmatch (CharClass.holds rt.unicode)
      job.inputFingerprint.toList = true)
    (hlatest : latest ∈ outagesOf db job.id)
    (hrecorded : ∀ o ∈ outagesOf db job.id, o.Recorded rt)
    (hle : ∀ o ∈ outagesOf db job.id, o.attempt ≤ 100) :
    ∃ q, outageRequest rt db c job task latest = .ok q ∧ q.requestType = .retryLimit := by
  obtain ⟨history, hhistory⟩ :=
    Except.mapM_eq_ok_of fun o ho => ofOutage_ok (hrecorded o ho) (hle o ho)
  obtain ⟨blocked, hblocked⟩ := blockedOperation_ok hjob (hle latest hlatest)
  simp only [outageRequest, hhistory, hblocked, Except.ok_bind]
  exact ⟨_, rfl, rfl⟩

/-- An outage that is not bound, of a live task, is escalated unless its history holds a
number beyond the first hundred. -/
theorem escalates_iff_le {actor : String} (hactor : requiredActor rt svc.principalId = .ok actor)
    (h : ExhaustedOutage db c job task latest)
    (hjob : hexDigest.fullmatch (CharClass.holds rt.unicode) job.inputFingerprint.toList = true)
    (hrecorded : ∀ o ∈ outagesOf db job.id, o.Recorded rt) :
    (∃ r, BackgroundJobService.escalateOutage svc rt db c = .ok r) ↔
      latest.approvalRequestId ≠ none ∨ task.state.isTerminal = true ∨
        ∀ o ∈ outagesOf db job.id, o.attempt ≤ 100 := by
  have hmem : latest ∈ outagesOf db job.id := List.mem_of_getLast? h.latest_eq
  have hlatest : db.dependencyOutageAttempts.get? latest.id = some latest :=
    Table.get?_key (mem_outagesOf hmem)
  cases hbound : latest.approvalRequestId with
  | some requestId =>
    have hopen : BackgroundJobService.escalateOutage svc rt db c = .ok (some requestId, db) := by
      simp only [BackgroundJobService.escalateOutage, h.job_eq, h.taskId_eq, h.task_eq,
        h.latest_eq, Except.orThrow, Except.ok_bind, Except.require_of h.exhausted, hbound]
      rfl
    rw [hopen]
    exact ⟨fun _ => .inl (Option.some_ne_none _), fun _ => ⟨_, rfl⟩⟩
  | none =>
    have hopen : BackgroundJobService.escalateOutage svc rt db c =
        if task.state.isTerminal then .ok (none, db)
        else Except.relabel (outageRequest rt db c job task latest) EscalationError.approval >>=
          fun q => requestOutage svc rt db q latest := by
      simp only [BackgroundJobService.escalateOutage, h.job_eq, h.taskId_eq, h.task_eq,
        h.latest_eq, Except.orThrow, Except.ok_bind, Except.require_of h.exhausted, hbound]
      rfl
    rw [hopen]
    split
    · rename_i hterminal
      exact ⟨fun _ => .inr (.inl hterminal), fun _ => ⟨_, rfl⟩⟩
    · rename_i hlive
      constructor
      · rintro ⟨r, hr⟩
        rw [Except.bind_eq_ok] at hr
        obtain ⟨q, hq, -⟩ := hr
        rw [Except.relabel_eq_ok, outageRequest, Except.bind_eq_ok] at hq
        obtain ⟨history, hhistory, -⟩ := hq
        refine .inr (.inr fun o ho => ?_)
        obtain ⟨attempt, hattempt⟩ := Except.exists_of_mapM hhistory o ho
        exact le_of_ofOutage hattempt
      · rintro (hne | hterminal | hle)
        · exact absurd rfl hne
        · exact absurd hterminal hlive
        · obtain ⟨q, hq, htype⟩ := outageRequest_ok hjob hmem hrecorded hle
          rw [hq]
          exact requestOutage_ok hactor htype hlatest hbound

end Escalation

/-! ### What the writers record -/

/-- The fingerprint of the input of a job is a digest. -/
def BackgroundJob.Digested (rt : Runtime) (job : BackgroundJob) : Prop :=
  hexDigest.fullmatch (CharClass.holds rt.unicode) job.inputFingerprint.toList = true

theorem digested_of_fingerprint {rt : Runtime} {job : BackgroundJob} {j : Json}
    (h : job.inputFingerprint = rt.fingerprint j) : job.Digested rt := by
  rw [BackgroundJob.Digested, h]
  exact hexDigest_fingerprint j

/-- The rows the history of an outage is built from. -/
structure HistoryRows (rt : Runtime) (db : Database) : Prop where
  jobs : ∀ job ∈ db.backgroundJobs, job.Digested rt
  leases : ∀ lease ∈ db.backgroundJobLeases, 0 < lease.attempt
  outages : ∀ o ∈ db.dependencyOutageAttempts, 0 < o.attempt ∧
    reasonCode.fullmatch (CharClass.holds rt.unicode) o.errorCode.toList = true

theorem eq_or_mem_of_mem_set {κ α : Type} [DecidableEq κ] [Keyed α κ] {t : Table α} {x y : α}
    (h : y ∈ t.set x) : y = x ∨ y ∈ t := by
  obtain ⟨z, hz, rfl⟩ := List.mem_map.mp h
  split
  · exact .inl rfl
  · exact .inr hz

namespace HistoryRows
variable {rt : Runtime} {service : BackgroundJobService} {db db' : Database}
  {grant : JobLeaseGrant} {now : Time} {job job' : BackgroundJob}
  {lease lease' : BackgroundJobLease}

theorem frame (h : HistoryRows rt db) (hjobs : db'.backgroundJobs = db.backgroundJobs)
    (hleases : db'.backgroundJobLeases = db.backgroundJobLeases)
    (houtages : db'.dependencyOutageAttempts = db.dependencyOutageAttempts) :
    HistoryRows rt db' :=
  ⟨hjobs ▸ h.jobs, hleases ▸ h.leases, houtages ▸ h.outages⟩

theorem setJob (h : HistoryRows rt db) (hjob : job.Digested rt)
    (hjobs : db'.backgroundJobs = db.backgroundJobs.set job)
    (hleases : ∀ lease ∈ db'.backgroundJobLeases, 0 < lease.attempt)
    (houtages : db'.dependencyOutageAttempts = db.dependencyOutageAttempts) :
    HistoryRows rt db' := by
  refine ⟨fun j hj => ?_, hleases, houtages ▸ h.outages⟩
  rw [hjobs] at hj
  obtain rfl | hj := eq_or_mem_of_mem_set hj
  · exact hjob
  · exact h.jobs j hj

theorem putLeased (h : HistoryRows rt db) (hjob : job.Digested rt) (hlease : 0 < lease.attempt) :
    HistoryRows rt (db.putLeased job lease) := by
  refine h.setJob hjob rfl (fun l hl => ?_) rfl
  obtain rfl | hl := eq_or_mem_of_mem_set hl
  · exact hlease
  · exact h.leases l hl

theorem insertJob (h : HistoryRows rt db) (hjob : job.Digested rt)
    (hjobs : db.backgroundJobs.insert? job = some db'.backgroundJobs)
    (hleases : db'.backgroundJobLeases = db.backgroundJobLeases)
    (houtages : db'.dependencyOutageAttempts = db.dependencyOutageAttempts) :
    HistoryRows rt db' := by
  refine ⟨fun j hj => ?_, hleases ▸ h.leases, houtages ▸ h.outages⟩
  obtain hj | rfl := (Table.mem_insert? hjobs).mp hj
  · exact h.jobs j hj
  · exact hjob

theorem held (h : HistoryRows rt db) (hheld : HoldsLease db grant now job lease) :
    job.Digested rt ∧ 0 < lease.attempt :=
  ⟨h.jobs job (Table.mem_of_get? hheld.job_eq), h.leases lease (Table.mem_of_get? hheld.lease_eq)⟩

theorem row (h : HistoryRows rt db) (hrow : currentLeaseRow db job = some lease) :
    0 < lease.attempt :=
  h.leases lease (Table.mem_of_get? (currentLeaseRow_eq_some.mp hrow).2.1)

/-- A loop over jobs of the table. -/
theorem foldlM {ε : Type} {step : Database → BackgroundJob → Except ε Database}
    (hstep : ∀ job db db', job.Digested rt → HistoryRows rt db → step db job = .ok db' →
      HistoryRows rt db')
    (jobs : List BackgroundJob) {db db' : Database} (hjobs : ∀ job ∈ jobs, job.Digested rt)
    (h : HistoryRows rt db) (hrun : jobs.foldlM step db = .ok db') : HistoryRows rt db' := by
  induction jobs generalizing db with
  | nil =>
    simp only [List.foldlM_nil, Except.pure_eq_ok] at hrun
    exact hrun ▸ h
  | cons job jobs ih =>
    simp only [List.foldlM_cons, Except.bind_eq_ok] at hrun
    obtain ⟨db₁, h₁, hrun⟩ := hrun
    exact ih (fun other hother => hjobs other (List.mem_cons_of_mem job hother))
      (hstep job db db₁ (hjobs job List.mem_cons_self) h h₁) hrun

theorem schedule (h : HistoryRows rt db) {c : ScheduleCommand} {r : ScheduledJob}
    (hrun : BackgroundJobService.schedule rt db c = .ok (r, db')) : HistoryRows rt db' := by
  simp only [BackgroundJobService.schedule, Except.bind_eq_ok, Except.orThrow_eq_ok] at hrun
  obtain ⟨jobType, -, key, -, payload, -, task, -, -, -, hrun⟩ := hrun
  split at hrun
  · simp only [Except.bind_eq_ok, Except.pure_eq_ok, Prod.mk.injEq] at hrun
    obtain ⟨_, _, _, rfl⟩ := hrun
    exact h
  · simp only [Except.bind_eq_ok, Except.require_eq_ok, Except.orThrow_eq_ok, Except.pure_eq_ok,
      Prod.mk.injEq] at hrun
    obtain ⟨_, _, _, _, jobs, hjobs, _, rfl⟩ := hrun
    exact h.insertJob (digested_of_fingerprint rfl) hjobs rfl rfl

theorem issueLease (h : HistoryRows rt db) (hjob : job.Digested rt) {r : ClaimRequest}
    {recovered : Bool} {result : Option JobLeaseGrant}
    (hrun : ControlPlane.issueLease rt db r job now recovered = .ok (result, db')) :
    HistoryRows rt db' := by
  obtain ⟨leases, hleases, rfl⟩ := issueLease_ok hrun
  have hissued : ∀ l ∈ leases, 0 < l.attempt := by
    intro l hl
    obtain hl | rfl := (Table.mem_insert? hleases).mp hl
    · exact h.leases l hl
    · exact Nat.succ_pos _
  exact h.setJob (show (job.leaseTo _).Digested rt from hjob) rfl hissued rfl

theorem claimLoop {r : ClaimRequest} {result : Option JobLeaseGrant} (rounds : ℕ) {reading : ℕ}
    {db : Database} (h : HistoryRows rt db)
    (hrun : ControlPlane.claimLoop rt r rounds reading db = .ok (result, db')) :
    HistoryRows rt db' := by
  induction rounds generalizing reading db with
  | zero =>
    simp only [ControlPlane.claimLoop, Except.ok.injEq, Prod.mk.injEq] at hrun
    exact hrun.2 ▸ h
  | succ rounds ih =>
    rw [ControlPlane.claimLoop] at hrun
    cases hnext : nextClaimable db r.jobTypes r.locked (r.clock reading) with
    | none =>
      simp only [hnext, Except.ok.injEq, Prod.mk.injEq] at hrun
      exact hrun.2 ▸ h
    | some job =>
      have hjob : job.Digested rt := h.jobs job (nextClaimable_spec hnext).1
      simp only [hnext] at hrun
      split at hrun
      · simp only [Except.bind_eq_ok, Except.orThrow_eq_ok] at hrun
        obtain ⟨previous, hprevious, hrun⟩ := hrun
        have hlease := h.row hprevious
        split at hrun
        · simp only [Except.pure_eq_ok, Prod.mk.injEq] at hrun
          exact hrun.2 ▸ h
        · split at hrun
          · refine ih (h.putLeased ?_ ?_) hrun
            · exact hjob
            · exact hlease
          · refine HistoryRows.issueLease ?_ hjob hrun
            refine ⟨h.jobs, fun l hl => ?_, h.outages⟩
            obtain rfl | hl := eq_or_mem_of_mem_set hl
            · exact hlease
            · exact h.leases l hl
      · exact h.issueLease hjob hrun

theorem claimNext (h : HistoryRows rt db) {c : ClaimCommand} {result : Option JobLeaseGrant}
    (hrun : BackgroundJobService.claimNext rt db c = .ok (result, db')) : HistoryRows rt db' := by
  simp only [BackgroundJobService.claimNext, Except.bind_eq_ok] at hrun
  obtain ⟨_, _, _, _, _, _, hrun⟩ := hrun
  exact claimLoop _ h hrun

theorem releaseExpired (h : HistoryRows rt db) (hjob : job.Digested rt)
    (hrun : ControlPlane.releaseExpired now db job = .ok db') : HistoryRows rt db' := by
  simp only [ControlPlane.releaseExpired, Except.bind_eq_ok, Except.orThrow_eq_ok,
    Except.pure_eq_ok] at hrun
  obtain ⟨lease, hlease, _, _, rfl⟩ := hrun
  have hattempt := h.row hlease
  refine h.putLeased ?_ hattempt
  split
  · exact hjob
  · split
    · exact hjob
    · exact hjob

theorem reconcileExpiredLeases (h : HistoryRows rt db) {c : ReconcileCommand} {ids : List UUID}
    (hrun : BackgroundJobService.reconcileExpiredLeases db c = .ok (ids, db')) :
    HistoryRows rt db' := by
  simp only [BackgroundJobService.reconcileExpiredLeases, Except.bind_eq_ok, Except.pure_eq_ok,
    Prod.mk.injEq] at hrun
  obtain ⟨_, _, _, hrun, _, rfl⟩ := hrun
  refine foldlM (fun job db db' hjob h hrun => h.releaseExpired hjob hrun) _ ?_ h hrun
  intro job hmem
  have hsorted := List.mem_of_mem_take hmem
  rw [List.mem_insertionSort] at hsorted
  exact h.jobs job (List.mem_of_mem_filter hsorted)

theorem appendCheckpoint (h : HistoryRows rt db) (hjob : job.Digested rt)
    (hlease : 0 < lease.attempt) {entry : CheckpointEntry} {result : JobCheckpointResult}
    (hrun : ControlPlane.appendCheckpoint db job lease entry now =
      .ok (result, job', lease', db')) :
    HistoryRows rt db' ∧ job'.Digested rt ∧ 0 < lease'.attempt := by
  unfold ControlPlane.appendCheckpoint at hrun
  split at hrun
  · simp only [Except.bind_eq_ok, Except.pure_eq_ok, Prod.mk.injEq] at hrun
    obtain ⟨_, _, _, rfl, rfl, rfl⟩ := hrun
    exact ⟨h, hjob, hlease⟩
  · simp only [Except.bind_eq_ok, Except.require_eq_ok, Except.orThrow_eq_ok, Except.pure_eq_ok,
      Prod.mk.injEq] at hrun
    obtain ⟨_, _, checkpoints, _, _, rfl, rfl, rfl⟩ := hrun
    have hframed : HistoryRows rt { db with backgroundJobCheckpoints := checkpoints } :=
      h.frame rfl rfl rfl
    exact ⟨hframed.putLeased hjob hlease, hjob, hlease⟩

theorem settleEffect (h : HistoryRows rt db) {effect : BackgroundJobEffect}
    {status : BackgroundJobEffectStatus} {payload : Json}
    (hrun : ControlPlane.settleEffect db effect lease status payload now = .ok db') :
    HistoryRows rt db' := by
  unfold ControlPlane.settleEffect at hrun
  split at hrun
  · cases hrun
    exact h.frame rfl rfl rfl
  · simp only [Except.bind_eq_ok, Except.pure_eq_ok] at hrun
    obtain ⟨_, _, rfl⟩ := hrun
    exact h

theorem heartbeat (h : HistoryRows rt db) {duration : Time} {grant' : JobLeaseGrant}
    (hrun : BackgroundJobService.heartbeat db grant now duration = .ok (grant', db')) :
    HistoryRows rt db' := by
  simp only [BackgroundJobService.heartbeat, Except.bind_eq_ok, Except.pure_eq_ok,
    Prod.mk.injEq] at hrun
  obtain ⟨_, _, ⟨job, lease⟩, hheld, _, _, _, rfl⟩ := hrun
  obtain ⟨hjob, hlease⟩ := h.held (currentLease_ok.mp hheld)
  exact h.putLeased hjob hlease

theorem checkpoint (h : HistoryRows rt db) {c : CheckpointCommand} {result : JobCheckpointResult}
    (hrun : BackgroundJobService.checkpoint rt db grant now c = .ok (result, db')) :
    HistoryRows rt db' := by
  simp only [BackgroundJobService.checkpoint, Except.bind_eq_ok, Except.pure_eq_ok,
    Prod.mk.injEq] at hrun
  obtain ⟨entry, _, ⟨job, lease⟩, hheld, ⟨_, job', lease', _⟩, happend, _, rfl⟩ := hrun
  obtain ⟨hjob, hlease⟩ := h.held (currentLease_ok.mp hheld)
  exact (h.appendCheckpoint hjob hlease happend).1

theorem recordEffectResult (h : HistoryRows rt db) {c : EffectResultCommand}
    {result : JobCheckpointResult}
    (hrun : BackgroundJobService.recordEffectResult rt db grant now c = .ok (result, db')) :
    HistoryRows rt db' := by
  simp only [BackgroundJobService.recordEffectResult, Except.bind_eq_ok, Except.orThrow_eq_ok,
    Except.require_eq_ok, Except.pure_eq_ok, Prod.mk.injEq] at hrun
  obtain ⟨payload, _, entry, _, ⟨job, lease⟩, hheld, effect, _, _, _, db₁, h₁,
    ⟨_, job', lease', _⟩, happend, _, rfl⟩ := hrun
  obtain ⟨hjob, hlease⟩ := h.held (currentLease_ok.mp hheld)
  exact ((h.settleEffect h₁).appendCheckpoint hjob hlease happend).1

theorem complete (h : HistoryRows rt db) {c : CompleteCommand}
    (hrun : BackgroundJobService.complete rt db grant now c = .ok db') : HistoryRows rt db' := by
  simp only [BackgroundJobService.complete, Except.bind_eq_ok, Except.pure_eq_ok] at hrun
  obtain ⟨_, _, ⟨job, lease⟩, hheld, _, _, ⟨job', lease', db₁⟩, h₁, rfl⟩ := hrun
  obtain ⟨hjob, hlease⟩ := h.held (currentLease_ok.mp hheld)
  have hfinal : HistoryRows rt db₁ ∧ job'.Digested rt ∧ 0 < lease'.attempt := by
    unfold finalCheckpoint at h₁
    split at h₁
    · simp only [Except.bind_eq_ok, Except.pure_eq_ok] at h₁
      obtain ⟨_, _, ⟨_, _⟩, happend, rfl⟩ := h₁
      exact h.appendCheckpoint hjob hlease happend
    · simp only [Except.bind_eq_ok, Except.pure_eq_ok, Prod.mk.injEq] at h₁
      obtain ⟨_, _, rfl, rfl, rfl⟩ := h₁
      exact ⟨h, hjob, hlease⟩
  exact hfinal.1.putLeased hfinal.2.1 hfinal.2.2

theorem releaseFailedAttempt (h : HistoryRows rt db) (hjob : job.Digested rt)
    (hlease : 0 < lease.attempt) {errorCode : String} {retryable : Bool}
    {disposition : JobFailureDisposition}
    (hrun : ControlPlane.releaseFailedAttempt rt db job lease grant errorCode retryable now =
      .ok (disposition, db')) : HistoryRows rt db' := by
  simp only [ControlPlane.releaseFailedAttempt, Except.bind_eq_ok, Except.pure_eq_ok,
    Prod.mk.injEq] at hrun
  obtain ⟨delay, _, _, rfl⟩ := hrun
  refine h.putLeased ?_ hlease
  cases delay with
  | none => exact hjob
  | some delay => exact hjob

theorem failAttempt (h : HistoryRows rt db) {errorCode : String} {retryable : Bool}
    {disposition : JobFailureDisposition}
    (hrun : BackgroundJobService.failAttempt rt db grant now errorCode retryable =
      .ok (disposition, db')) : HistoryRows rt db' := by
  simp only [BackgroundJobService.failAttempt, Except.bind_eq_ok] at hrun
  obtain ⟨_, _, ⟨job, lease⟩, hheld, hrun⟩ := hrun
  obtain ⟨hjob, hlease⟩ := h.held (currentLease_ok.mp hheld)
  exact h.releaseFailedAttempt hjob hlease hrun

theorem pauseAttempt (h : HistoryRows rt db) {errorCode : String}
    (hrun : BackgroundJobService.pauseAttempt rt db grant now errorCode = .ok db') :
    HistoryRows rt db' := by
  simp only [BackgroundJobService.pauseAttempt, Except.bind_eq_ok, Except.pure_eq_ok] at hrun
  obtain ⟨_, _, ⟨job, lease⟩, hheld, rfl⟩ := hrun
  obtain ⟨hjob, hlease⟩ := h.held (currentLease_ok.mp hheld)
  exact h.putLeased hjob hlease

theorem reasonCode_of_errorCode {value errorCode : String}
    (h : requiredErrorCode rt value = .ok errorCode) :
    reasonCode.fullmatch (CharClass.holds rt.unicode) errorCode.toList = true := by
  unfold requiredErrorCode at h
  dsimp only at h
  split at h
  · rename_i hmatch
    cases h
    rw [String.toList_ofList]
    exact hmatch
  · cases h

/-- A new outage is numbered by its lease, and its reason is a code. -/
theorem failDependencyAttempt (h : HistoryRows rt db) {dependency : DependencyService}
    {errorCode : String} {disposition : JobFailureDisposition}
    (hrun : BackgroundJobService.failDependencyAttempt rt service db grant now dependency
      errorCode = .ok (disposition, db')) : HistoryRows rt db' := by
  simp only [BackgroundJobService.failDependencyAttempt, Except.bind_eq_ok, Except.relabel_eq_ok,
    Except.orThrow_eq_ok, Except.pure_eq_ok, Prod.mk.injEq] at hrun
  obtain ⟨code, hcode, ⟨job, lease⟩, hheld, ⟨captured, db₁⟩, hcapture, ⟨_, db₂⟩, hrelease,
    outages, hinsert, _, rfl⟩ := hrun
  obtain ⟨records, -, rfl⟩ := captureEvidence_ok hcapture rfl
  obtain ⟨hjob, hlease⟩ := h.held (currentLease_ok.mp hheld)
  have hcaptured : HistoryRows rt { db with evidenceRecords := records } := h.frame rfl rfl rfl
  have hreleased := hcaptured.releaseFailedAttempt hjob hlease hrelease
  refine ⟨hreleased.jobs, hreleased.leases, fun o ho => ?_⟩
  obtain ho | rfl := (Table.mem_insert? hinsert).mp ho
  · exact hreleased.outages o ho
  · exact ⟨hlease, reasonCode_of_errorCode hcode⟩

theorem taskTransition (h : HistoryRows rt db) {c : TaskTransitionCommand}
    {result : TaskTransitionResult}
    (hrun : ControlPlane.transitionTask rt db c = .ok (result, db')) : HistoryRows rt db' := by
  rcases transitionTask_ok hrun with rfl | ⟨a, rfl⟩
  · exact h
  · exact h.frame rfl rfl rfl

theorem transitionTask (h : HistoryRows rt db) {c : JobTransitionCommand}
    {result : TaskTransitionResult}
    (hrun : BackgroundJobService.transitionTask rt service db grant now c = .ok (result, db')) :
    HistoryRows rt db' := by
  simp only [BackgroundJobService.transitionTask, Except.bind_eq_ok, Except.relabel_eq_ok] at hrun
  obtain ⟨_, _, _, _, _, _, ⟨job, lease⟩, _, _, _, ⟨_, db₁⟩, htransition, hrun⟩ := hrun
  have hmoved := h.taskTransition htransition
  split at hrun
  · simp only [Except.bind_eq_ok, Except.pure_eq_ok, Prod.mk.injEq] at hrun
    obtain ⟨_, _, _, rfl⟩ := hrun
    exact hmoved
  · simp only [Except.bind_eq_ok, Except.pure_eq_ok, Prod.mk.injEq] at hrun
    obtain ⟨_, _, _, rfl⟩ := hrun
    exact hmoved.frame rfl rfl rfl

/-- An outage is rewritten with a number and a reason. -/
theorem setOutage (h : HistoryRows rt db) {o : DependencyOutageAttempt}
    (ho : 0 < o.attempt ∧
      reasonCode.fullmatch (CharClass.holds rt.unicode) o.errorCode.toList = true) :
    HistoryRows rt { db with dependencyOutageAttempts := db.dependencyOutageAttempts.set o } := by
  refine ⟨h.jobs, h.leases, fun x hx => ?_⟩
  obtain rfl | hx := eq_or_mem_of_mem_set hx
  · exact ho
  · exact h.outages x hx

theorem reconcileOutageEscalation (h : HistoryRows rt db) {jobId : UUID} {result : Option UUID}
    (hrun : BackgroundJobService.reconcileOutageEscalation rt db jobId = .ok (result, db')) :
    HistoryRows rt db' := by
  simp only [BackgroundJobService.reconcileOutageEscalation, Except.bind_eq_ok,
    Except.orThrow_eq_ok] at hrun
  obtain ⟨_, _, _, _, _, _, latest, hlatest, _, _, hrun⟩ := hrun
  have hmem := mem_outagesOf (List.mem_of_getLast? hlatest)
  split at hrun
  · simp only [Except.pure_eq_ok, Prod.mk.injEq] at hrun
    exact hrun.2 ▸ h
  · split at hrun
    · simp only [Except.pure_eq_ok, Prod.mk.injEq] at hrun
      exact hrun.2 ▸ h
    · simp only [Except.pure_eq_ok, Prod.mk.injEq] at hrun
      exact hrun.2 ▸ h.setOutage (h.outages latest hmem)

theorem resumeJob (h : HistoryRows rt db) {taskId decisionId newId id : UUID}
    (hrun : ControlPlane.resumeJob rt db job taskId decisionId newId now = .ok (id, db')) :
    HistoryRows rt db' := by
  unfold ControlPlane.resumeJob at hrun
  split at hrun
  · simp only [Except.bind_eq_ok, Except.pure_eq_ok, Prod.mk.injEq] at hrun
    obtain ⟨_, _, _, rfl⟩ := hrun
    exact h
  · simp only [Except.bind_eq_ok, Except.orThrow_eq_ok, Except.pure_eq_ok, Prod.mk.injEq] at hrun
    obtain ⟨policy, _, jobs, hjobs, _, rfl⟩ := hrun
    exact h.insertJob (digested_of_fingerprint rfl) hjobs rfl rfl

theorem recorded_of_decided (h : HistoryRows rt db) {c : OutageDecisionCommand}
    {o : DependencyOutageAttempt} (ho : o ∈ decidedOutages db c) :
    0 < o.attempt ∧
      reasonCode.fullmatch (CharClass.holds rt.unicode) o.errorCode.toList = true := by
  have hsorted := List.mem_of_mem_take ho
  rw [List.mem_insertionSort] at hsorted
  exact h.outages o (List.mem_of_mem_filter hsorted)

theorem resolveOutages {c : OutageDecisionCommand} (entries : List (DependencyOutageAttempt × ℕ))
    (hentries : ∀ entry ∈ entries, 0 < entry.1.attempt ∧
      reasonCode.fullmatch (CharClass.holds rt.unicode) entry.1.errorCode.toList = true)
    {db : Database} (h : HistoryRows rt db)
    (hrun : entries.foldlM (resolveOutage rt c) db = .ok db') : HistoryRows rt db' := by
  induction entries generalizing db with
  | nil =>
    simp only [List.foldlM_nil, Except.pure_eq_ok] at hrun
    exact hrun ▸ h
  | cons entry entries ih =>
    simp only [List.foldlM_cons, Except.bind_eq_ok] at hrun
    obtain ⟨db₁, h₁, hrun⟩ := hrun
    refine ih (fun other hother => hentries other (List.mem_cons_of_mem entry hother)) ?_ hrun
    simp only [resolveOutage, Except.bind_eq_ok, Except.orThrow_eq_ok, Except.pure_eq_ok] at h₁
    obtain ⟨_, _, job, _, _, _, _, _, _, _, ⟨_, db₂⟩, h₂, rfl⟩ := h₁
    have hresumed : HistoryRows rt db₂ := by
      unfold resumeOnRetry at h₂
      split at h₂
      · simp only [Except.bind_eq_ok, Except.pure_eq_ok, Prod.mk.injEq] at h₂
        obtain ⟨⟨_, _⟩, h₂, _, rfl⟩ := h₂
        exact h.resumeJob h₂
      · simp only [Except.ok.injEq, Prod.mk.injEq] at h₂
        exact h₂.2 ▸ h
    exact hresumed.setOutage (hentries entry List.mem_cons_self)

theorem reconcileOutageDecisions (h : HistoryRows rt db) {c : OutageDecisionCommand}
    {ids : List UUID}
    (hrun : BackgroundJobService.reconcileOutageDecisions rt db c = .ok (ids, db')) :
    HistoryRows rt db' := by
  simp only [BackgroundJobService.reconcileOutageDecisions, Except.bind_eq_ok, Except.pure_eq_ok,
    Prod.mk.injEq] at hrun
  obtain ⟨_, _, _, hrun, _, rfl⟩ := hrun
  exact resolveOutages _ (fun entry hentry =>
    h.recorded_of_decided (List.fst_mem_of_mem_zipIdx hentry)) h hrun

theorem fenceJob (h : HistoryRows rt db) {code : String} {corrupt : BackgroundJobError}
    (hjob : job.Digested rt)
    (hrun : ControlPlane.fenceJob code corrupt now db job = .ok db') : HistoryRows rt db' := by
  unfold ControlPlane.fenceJob at hrun
  split at hrun
  · split at hrun
    · simp only [Except.bind_eq_ok, Except.orThrow_eq_ok, Except.pure_eq_ok] at hrun
      obtain ⟨lease, hlease, _, _, rfl⟩ := hrun
      have hattempt := h.row hlease
      refine h.putLeased ?_ ?_
      · exact hjob
      · exact hattempt
    · simp only [Except.pure_eq_ok] at hrun
      subst hrun
      exact h.setJob (show (job.fenced code now).Digested rt from hjob) rfl h.leases rfl
  · simp only [Except.ok.injEq] at hrun
    exact hrun ▸ h

theorem fenceJobs (h : HistoryRows rt db) {taskId : UUID} {code reason : String}
    {corrupt : BackgroundJobError}
    (hrun : ControlPlane.fenceJobs db taskId code reason corrupt now = .ok db') :
    HistoryRows rt db' := by
  simp only [ControlPlane.fenceJobs, Except.bind_eq_ok, Except.pure_eq_ok] at hrun
  obtain ⟨db₁, h₁, rfl⟩ := hrun
  have hfenced : HistoryRows rt db₁ :=
    foldlM (fun job db db' hjob h hrun => h.fenceJob hjob hrun) _
      (fun job hmem => h.jobs job (List.mem_of_mem_filter hmem)) h h₁
  exact hfenced.frame rfl rfl rfl

theorem recordCancellation (h : HistoryRows rt db) {c : CancelCommand} {task : Task}
    {reason : String} (hrun : ControlPlane.recordCancellation rt db c task reason = .ok db') :
    HistoryRows rt db' := by
  unfold ControlPlane.recordCancellation at hrun
  split at hrun
  · simp only [Except.bind_eq_ok, Except.pure_eq_ok] at hrun
    obtain ⟨_, _, rfl⟩ := hrun
    exact h
  · simp only [Except.bind_eq_ok, Except.pure_eq_ok] at hrun
    obtain ⟨⟨_, db₁⟩, h₁, _, _, rfl⟩ := hrun
    have hterminal : HistoryRows rt db₁ := by
      unfold terminalTransition at h₁
      split at h₁
      · simp only [Except.bind_eq_ok, Except.relabel_eq_ok, Except.pure_eq_ok,
          Prod.mk.injEq] at h₁
        obtain ⟨⟨_, _⟩, h₁, _, rfl⟩ := h₁
        exact h.taskTransition h₁
      · simp only [Except.bind_eq_ok, Except.pure_eq_ok, Prod.mk.injEq] at h₁
        obtain ⟨_, _, _, rfl⟩ := h₁
        exact h
    exact hterminal.frame rfl rfl rfl

theorem cancelTask (h : HistoryRows rt db) {c : CancelCommand}
    (hrun : CancellationService.cancelTask rt db c = .ok db') : HistoryRows rt db' := by
  simp only [CancellationService.cancelTask, Except.bind_eq_ok] at hrun
  obtain ⟨_, _, task, _, db₁, h₁, hrun⟩ := hrun
  exact (h.recordCancellation h₁).fenceJobs hrun

theorem settleOutages (h : HistoryRows rt db) (c : SteerCommand) :
    HistoryRows rt (ControlPlane.settleOutages rt db c) := by
  have hfold : ∀ (os : List DependencyOutageAttempt) (t : Table DependencyOutageAttempt),
      (∀ o ∈ os, o ∈ db.dependencyOutageAttempts) →
      (∀ o ∈ t, 0 < o.attempt ∧
        reasonCode.fullmatch (CharClass.holds rt.unicode) o.errorCode.toList = true) →
      ∀ o ∈ os.foldl (fun outages outage => outages.set { outage with
          resolvedAt := some c.now
          decisionId := some (steeringDerivedId rt c.steeringId ("outage:" ++ outage.id.str)) }) t,
        0 < o.attempt ∧
          reasonCode.fullmatch (CharClass.holds rt.unicode) o.errorCode.toList = true := by
    intro os
    induction os with
    | nil => exact fun t _ ht => ht
    | cons outage os ih =>
      intro t hos ht
      refine ih _ (fun o ho => hos o (List.mem_cons_of_mem outage ho)) fun o ho => ?_
      obtain rfl | ho := eq_or_mem_of_mem_set ho
      · exact h.outages outage (hos outage List.mem_cons_self)
      · exact ht o ho
  exact ⟨h.jobs, h.leases, hfold _ _ (fun o ho => List.mem_of_mem_filter ho) h.outages⟩

theorem steer (h : HistoryRows rt db) {c : SteerCommand}
    (hrun : SteeringService.steer rt db c = .ok db') : HistoryRows rt db' := by
  simp only [SteeringService.steer, fenceScopeWork, Except.bind_eq_ok, Except.relabel_eq_ok,
    Except.pure_eq_ok] at hrun
  obtain ⟨task, _, _, _, _, _, _, _, _, _, db₂, ⟨db₁, h₁, rfl⟩, ⟨_, _⟩, htransition, rfl⟩ := hrun
  have hcancelled : HistoryRows rt (cancelApprovals rt db₁ c) :=
    (h.fenceJobs h₁).frame rfl rfl rfl
  exact (hcancelled.settleOutages c).taskTransition htransition

theorem request (h : HistoryRows rt db) {svc : ApprovalService} {q : RequestCommand}
    {answer : ApprovalRequestResult} (hrun : svc.request rt db q = .ok (answer, db')) :
    HistoryRows rt db' := by
  simp only [ApprovalService.request, Except.bind_eq_ok, Except.orThrow_eq_ok] at hrun
  obtain ⟨_, -, task, -, _, -, hrun⟩ := hrun
  split at hrun
  · simp only [Except.bind_eq_ok, Except.pure_eq_ok, Prod.mk.injEq] at hrun
    obtain ⟨_, -, -, rfl⟩ := hrun
    exact h
  · simp only [ApprovalService.openRequest, Except.bind_eq_ok, Except.orThrow_eq_ok,
      Except.relabel_eq_ok, Except.pure_eq_ok, Prod.mk.injEq] at hrun
    obtain ⟨_, -, _, -, _, -, _, -, requests, -, ⟨_, moved⟩, htransition, _, -, ⟨_, last⟩,
      happend, -, rfl⟩ := hrun
    have hinserted : HistoryRows rt { db with approvalRequests := requests } :=
      h.frame rfl rfl rfl
    have hmoved := hinserted.taskTransition htransition
    simp only [appendApprovalEvent, Except.bind_eq_ok, Except.pure_eq_ok, Prod.mk.injEq]
      at happend
    obtain ⟨_, -, _, -, _, -, -, rfl⟩ := happend
    exact hmoved.frame rfl rfl rfl

theorem escalateOutage (h : HistoryRows rt db) {svc : ApprovalService} {c : EscalationCommand}
    {result : Option UUID}
    (hrun : BackgroundJobService.escalateOutage svc rt db c = .ok (result, db')) :
    HistoryRows rt db' := by
  simp only [BackgroundJobService.escalateOutage, Except.bind_eq_ok] at hrun
  obtain ⟨_, _, _, _, _, _, latest, _, _, _, hrun⟩ := hrun
  split at hrun
  · simp only [Except.pure_eq_ok, Prod.mk.injEq] at hrun
    exact hrun.2 ▸ h
  · split at hrun
    · simp only [Except.pure_eq_ok, Prod.mk.injEq] at hrun
      exact hrun.2 ▸ h
    · rw [Except.bind_eq_ok] at hrun
      obtain ⟨q, _, hrun⟩ := hrun
      unfold requestOutage at hrun
      split at hrun
      · rename_i answer db₁ hrequest
        have hrequested := h.request hrequest
        simp only [linkOutage, Except.bind_eq_ok, Except.orThrow_eq_ok, Except.pure_eq_ok,
          Prod.mk.injEq] at hrun
        obtain ⟨outage, houtage, _, _, _, rfl⟩ := hrun
        exact hrequested.setOutage (hrequested.outages outage (Table.mem_of_get? houtage))
      · cases hrun
      · simp only [Except.ok.injEq, Prod.mk.injEq] at hrun
        exact hrun.2 ▸ h

end HistoryRows

/-! ### Over whole runs -/

/-- The job service, cancellation, steering and the escalation of outages from the store
without jobs; whoever else writes to the store leaves jobs, leases and outages alone. -/
def outageSystem (rt : Runtime) : TransitionSystem Database where
  init db := (jobSystem rt).init db ∧ db.dependencyOutageAttempts.rows = []
  step db db' :=
    (∃ (service : BackgroundJobService) (c : JobCommand),
      db' = db.commit (c.run rt service db)) ∨
    (∃ (svc : ApprovalService) (c : EscalationCommand) (result : Option UUID),
      BackgroundJobService.escalateOutage svc rt db c = .ok (result, db')) ∨
    SameWork db db' ∧ db'.dependencyOutageAttempts = db.dependencyOutageAttempts

section Runs
variable {rt : Runtime} {service : BackgroundJobService} {db db' : Database}

theorem GrantCommand.run_historyRows (h : HistoryRows rt db) {grant : JobLeaseGrant} {now : Time}
    {c : GrantCommand} (hrun : c.run rt service db grant now = .ok db') : HistoryRows rt db' := by
  cases c with
  | heartbeat duration =>
    obtain ⟨_, hrun⟩ := map_snd_eq_ok hrun
    exact h.heartbeat hrun
  | checkpoint c =>
    obtain ⟨_, hrun⟩ := map_snd_eq_ok hrun
    exact h.checkpoint hrun
  | prepareEffect c =>
    obtain ⟨prepared, hrun⟩ := map_snd_eq_ok hrun
    obtain ⟨r, job, lease, -, -, hcases⟩ := BackgroundJobService.prepareEffect_ok hrun
    rcases hcases with ⟨rfl, -⟩ | ⟨effects, -, -, -, -, rfl⟩
    · exact h
    · exact h.frame rfl rfl rfl
  | recordEffectResult c =>
    obtain ⟨_, hrun⟩ := map_snd_eq_ok hrun
    exact h.recordEffectResult hrun
  | recordIgnoredResult c =>
    obtain ⟨_, hrun⟩ := map_snd_eq_ok hrun
    obtain ⟨records, ignored, rfl⟩ := BackgroundJobService.recordIgnoredResult_ok hrun
    exact h.frame rfl rfl rfl
  | complete c => exact h.complete hrun
  | failAttempt errorCode retryable =>
    obtain ⟨_, hrun⟩ := map_snd_eq_ok hrun
    exact h.failAttempt hrun
  | pauseAttempt errorCode => exact h.pauseAttempt hrun
  | failDependencyAttempt dependency errorCode =>
    obtain ⟨_, hrun⟩ := map_snd_eq_ok hrun
    exact h.failDependencyAttempt hrun
  | transitionTask c =>
    obtain ⟨_, hrun⟩ := map_snd_eq_ok hrun
    exact h.transitionTask hrun

theorem JobCommand.run_historyRows (h : HistoryRows rt db) {c : JobCommand}
    (hrun : c.run rt service db = .ok db') : HistoryRows rt db' := by
  cases c with
  | schedule c =>
    obtain ⟨_, hrun⟩ := map_snd_eq_ok hrun
    exact h.schedule hrun
  | claimNext c =>
    obtain ⟨_, hrun⟩ := map_snd_eq_ok hrun
    exact h.claimNext hrun
  | granted grant now c => exact GrantCommand.run_historyRows h hrun
  | reconcileExpiredLeases c =>
    obtain ⟨_, hrun⟩ := map_snd_eq_ok hrun
    exact h.reconcileExpiredLeases hrun
  | reconcileOutageEscalation jobId =>
    obtain ⟨_, hrun⟩ := map_snd_eq_ok hrun
    exact h.reconcileOutageEscalation hrun
  | reconcileOutageDecisions c =>
    obtain ⟨_, hrun⟩ := map_snd_eq_ok hrun
    exact h.reconcileOutageDecisions hrun
  | cancelTask c => exact h.cancelTask hrun
  | steer c => exact h.steer hrun

theorem HistoryRows.step (h : HistoryRows rt db) (hstep : (outageSystem rt).step db db') :
    HistoryRows rt db' := by
  obtain ⟨service, c, rfl⟩ | ⟨svc, c, result, hrun⟩ | ⟨hsame, houtages⟩ := hstep
  · cases hrun : c.run rt service db with
    | error e => exact h
    | ok db' => exact JobCommand.run_historyRows h hrun
  · exact h.escalateOutage hrun
  · exact h.frame hsame.jobs hsame.leases houtages

theorem historyRows_of_reachable (h : (outageSystem rt).Reachable db) : HistoryRows rt db := by
  refine h.invariant (P := HistoryRows rt) ?_ fun _ _ hrows hstep => hrows.step hstep
  rintro db ⟨⟨hjobs, hleases, -⟩, houtages⟩
  refine ⟨fun job hjob => ?_, fun lease hlease => ?_, fun o ho => ?_⟩
  · rw [Table.mem_def, hjobs] at hjob
    cases hjob
  · rw [Table.mem_def, hleases] at hlease
    cases hlease
  · rw [Table.mem_def, houtages] at ho
    cases ho

end Runs

/-- In every store a run reaches, the escalation of an exhausted outage goes through exactly
when the outage is bound, its task is terminal, or all attempts of its history are among the
first hundred. -/
theorem escalates_of_history {rt : Runtime} {svc : ApprovalService} {db : Database}
    {c : EscalationCommand} {job : BackgroundJob} {task : Task} {latest : DependencyOutageAttempt}
    {actor : String} (hreach : (outageSystem rt).Reachable db)
    (hclock : ∀ o ∈ db.dependencyOutageAttempts, o.occurredAt < Calendar.endOfTime)
    (hactor : requiredActor rt svc.principalId = .ok actor)
    (h : ExhaustedOutage db c job task latest) :
    (∃ r, BackgroundJobService.escalateOutage svc rt db c = .ok r) ↔
      latest.approvalRequestId ≠ none ∨ task.state.isTerminal = true ∨
        ∀ o ∈ outagesOf db job.id, o.attempt ≤ 100 := by
  have hrows := historyRows_of_reachable hreach
  refine escalates_iff_le hactor h (hrows.jobs job (Table.mem_of_get? h.job_eq)) fun o ho => ?_
  obtain ⟨hpositive, hcode⟩ := hrows.outages o (mem_outagesOf ho)
  exact ⟨hpositive, hcode, hclock o (mem_outagesOf ho)⟩

/-! ### A hundred pauses -/

namespace RetryHistoryExample

open TakeoverExample (schedule claim service store)

theorem one_attempt : 1 ≤ 1 ∧ 1 ≤ 100 := by decide

/-- A policy of a single attempt. -/
def once : RetryPolicy :=
  { RetryPolicy.standard with maxAttempts := 1, maxAttempts_bounds := one_attempt }

def single : ScheduleCommand := { schedule with retryPolicy := once }

def moment (n : ℕ) : Time := seconds (2 + 2 * n)

/-- The lease of the claim after `n` others. -/
def lease (n : ℕ) : JobLeaseGrant :=
  { TakeoverExample.grant with
    leaseId := .ofNat (100 + n), fencingToken := n + 1, attempt := n + 1 }

def claimed (n : ℕ) : JobCommand := .claimNext (claim "a" (moment n) (.ofNat (100 + n)))

/-- The job of a single attempt is paused some times, and then fails on a dependency. -/
def commands (pauses : ℕ) : List JobCommand :=
  .schedule single ::
    ((List.range pauses).flatMap fun n =>
      [claimed n, .granted (lease n) (moment n) (.pauseAttempt "BLOCKED")]) ++
    [claimed pauses,
      .granted (lease pauses) (moment pauses) (.failDependencyAttempt .github "TIMEOUT")]

def after (pauses : ℕ) : Database := runJobs .plain service store (commands pauses)

def call : EscalationCommand where
  jobId := schedule.jobId
  now := seconds 1000
  requestedAt := seconds 1000
  transitionEventId := .ofNat 73
  eventId := .ofNat 74

/-- The job, its task and its last outage. -/
def found (db : Database) : Option (BackgroundJob × Task × DependencyOutageAttempt) := do
  let job ← db.backgroundJobs.get? call.jobId
  let taskId ← job.taskId
  let task ← db.tasks.get? taskId
  let latest ← (outagesOf db job.id).getLast?
  return (job, task, latest)

/-- An outage that is exhausted and not bound, of a live task, within the calendar. -/
def pending (db : Database) (latest : DependencyOutageAttempt) (task : Task) : Bool :=
  latest.exhausted && latest.approvalRequestId.isNone && !task.state.isTerminal &&
    db.dependencyOutageAttempts.rows.all fun o => o.occurredAt < Calendar.endOfTime

/-- The numbers of the outages of the job, where the last one is pending. -/
def numbers (db : Database) : Option (List ℕ) := do
  let (job, task, latest) ← found db
  if pending db latest task then some ((outagesOf db job.id).map DependencyOutageAttempt.attempt)
  else none

theorem of_numbers {db : Database} {ns : List ℕ} (h : numbers db = some ns) :
    ∃ job task latest, ExhaustedOutage db call job task latest ∧
      latest.approvalRequestId = none ∧ task.state.isTerminal = false ∧
      (∀ o ∈ db.dependencyOutageAttempts, o.occurredAt < Calendar.endOfTime) ∧
      (outagesOf db job.id).map DependencyOutageAttempt.attempt = ns := by
  simp only [numbers, found, Option.bind_eq_bind, Option.bind_eq_some_iff, Option.pure_def,
    Option.some.injEq] at h
  obtain ⟨⟨job, task, latest⟩, ⟨job', hjob, taskId, htaskId, task', htask, latest', hlatest,
    hfound⟩, h⟩ := h
  cases hfound
  dsimp only at h
  by_cases hpending : pending db latest task = true
  · rw [if_pos hpending] at h
    simp only [pending, Bool.and_eq_true, Option.isNone_iff_eq_none, Bool.not_eq_true',
      List.all_eq_true, decide_eq_true_eq] at hpending
    obtain ⟨⟨⟨hexhausted, hunbound⟩, hlive⟩, hclock⟩ := hpending
    obtain rfl : task.id = taskId := Table.key_of_get? htask
    exact ⟨job, task, latest, ⟨hjob, htaskId, htask, hlatest, hexhausted⟩, hunbound, hlive, hclock,
      Option.some.inj h⟩
  · rw [if_neg hpending] at h
    cases h

theorem outages_runJobs (commands : List JobCommand) {db : Database}
    (h : (outageSystem .plain).Reachable db) :
    (outageSystem .plain).Reachable (runJobs .plain service db commands) := by
  induction commands generalizing db with
  | nil => exact h
  | cons command commands ih => exact ih (h.tail (.inl ⟨service, command, rfl⟩))

theorem reachable (pauses : ℕ) : (outageSystem .plain).Reachable (after pauses) :=
  outages_runJobs (commands pauses) (.of_init ⟨⟨rfl, rfl, rfl⟩, rfl⟩)

def approvals : ApprovalService := {}

theorem actor : requiredActor .plain approvals.principalId = .ok "control-plane" := by
  decide +kernel

theorem le_of_numbers {db : Database} {jobId : UUID} {ns : List ℕ}
    (h : (outagesOf db jobId).map DependencyOutageAttempt.attempt = ns) :
    (∀ o ∈ outagesOf db jobId, o.attempt ≤ 100) ↔ ∀ n ∈ ns, n ≤ 100 := by
  rw [← h, List.forall_mem_map]

set_option maxRecDepth 20000 in
theorem numbers_hundred : numbers (after 100) = some [101] := by
  decide +kernel

end RetryHistoryExample

open RetryHistoryExample in
/-- Once the task of the job is cancelled, its outage is left without a request. -/
theorem escalates_of_history_cancelled :
    ∃ db, (outageSystem .plain).Reachable db ∧
      ∃ r, BackgroundJobService.escalateOutage approvals .plain db call = .ok r := by
  obtain ⟨db, hreach, hdb⟩ : ∃ db, (outageSystem .plain).Reachable db ∧
      numbers db = some [101] := ⟨after 100, reachable 100, numbers_hundred⟩
  obtain ⟨job, task, latest, hexhausted, -, -, hclock, -⟩ := of_numbers hdb
  let ended : Task := { task with state := .cancelled }
  let db' : Database := { db with tasks := ⟨[ended], List.nodup_singleton _⟩ }
  have hreach' : (outageSystem .plain).Reachable db' :=
    hreach.tail (.inr (.inr ⟨⟨rfl, rfl, rfl, rfl, rfl⟩, rfl⟩))
  have htask : db'.tasks.get? ended.id = some ended := Table.get?_key List.mem_cons_self
  have hexhausted' : ExhaustedOutage db' call job ended latest :=
    { job_eq := hexhausted.job_eq
      taskId_eq := hexhausted.taskId_eq
      task_eq := htask
      latest_eq := hexhausted.latest_eq
      exhausted := hexhausted.exhausted }
  exact ⟨db', hreach', (escalates_of_history hreach' hclock actor hexhausted').mpr
    (.inr (.inl rfl))⟩

open RetryHistoryExample in
/-- After a hundred pauses the lease of the only attempt has the number 101, and the
escalation of its outage raises. -/
theorem not_escalates_after_pauses :
    ∃ db job task latest, (outageSystem .plain).Reachable db ∧
      ExhaustedOutage db call job task latest ∧
      ¬ ∃ r, BackgroundJobService.escalateOutage approvals .plain db call = .ok r := by
  obtain ⟨db, hreach, hdb⟩ : ∃ db, (outageSystem .plain).Reachable db ∧
      numbers db = some [101] := ⟨after 100, reachable 100, numbers_hundred⟩
  obtain ⟨job, task, latest, hexhausted, hunbound, hlive, hclock, hnumbers⟩ := of_numbers hdb
  refine ⟨db, job, task, latest, hreach, hexhausted, fun hescalates => ?_⟩
  have hrows := historyRows_of_reachable hreach
  have hrecorded : ∀ o ∈ outagesOf db job.id, o.Recorded .plain := fun o ho =>
    ⟨(hrows.outages o (mem_outagesOf ho)).1, (hrows.outages o (mem_outagesOf ho)).2,
      hclock o (mem_outagesOf ho)⟩
  obtain hbound | hterminal | hle :=
    (escalates_iff_le actor hexhausted (hrows.jobs job (Table.mem_of_get? hexhausted.job_eq))
      hrecorded).mp hescalates
  · exact hbound hunbound
  · rw [hlive] at hterminal
    cases hterminal
  · have hnumber : ∀ n ∈ [101], n ≤ 100 := (le_of_numbers hnumbers).mp hle
    exact absurd (hnumber 101 List.mem_cons_self) (by decide)

end ControlPlane
