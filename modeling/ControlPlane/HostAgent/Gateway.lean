import ControlPlane.HostAgent.Effects

/-!
# What the gateway accepts

The control plane sends a request through its gateway and checks that the answer is one to
that request, under a fence the request could have seen. An answer that is replayed names the
token of an earlier lease, so that the check succeeds only since the journal never lets the
token of a job fall.

## Main results

* `accepts_of_run`: the gateway accepts every answer of the host.
-/
namespace ControlPlane.HostAgent

/-! ### The checks of the gateway -/

/-- A response as it is sent: with the identity of what it answers. -/
structure HostResponseMessage where
  requestId : UUID
  operationName : String
  idempotencyKey : String
  response : HostResponse

/-- The message the dispatcher makes of its response to a request. -/
def HostRequestMessage.responseMessage (r : HostRequestMessage) (response : HostResponse) :
    HostResponseMessage where
  requestId := r.requestId
  operationName := r.operation.name
  idempotencyKey := r.operation.idempotencyKey
  response := response

inductive HostGatewayError where
  | hostResponseMismatch
  deriving DecidableEq

namespace LocalHostGateway

/-- The token of a response against the one of the authority of its request. -/
def validateExecutionFence (r : HostRequestMessage) (m : HostResponseMessage) :
    Except HostGatewayError Unit :=
  match r.authority.lease? with
  | none => Except.require (m.response.executionFencingToken = none) .hostResponseMismatch
  | some authority =>
    if m.response.status ≠ .ok then
      Except.require (∀ token ∈ m.response.executionFencingToken,
        ¬ (authority.fencingToken : ℤ) < token) .hostResponseMismatch
    else
      match m.response.executionFencingToken with
      | none => .error .hostResponseMismatch
      | some token => do
        Except.require (¬ (authority.fencingToken : ℤ) < token) .hostResponseMismatch
        Except.require (m.response.replayed = true ∨ token = authority.fencingToken)
          .hostResponseMismatch

/-- What the gateway checks of a verified message before it returns it. -/
def validateResponse (r : HostRequestMessage) (m : HostResponseMessage) :
    Except HostGatewayError Unit := do
  Except.require (m.requestId = r.requestId ∧ m.operationName = r.operation.name ∧
      m.idempotencyKey = r.operation.idempotencyKey) .hostResponseMismatch
  validateExecutionFence r m

end LocalHostGateway

open LocalHostGateway

/-! ### Runs of the journal -/

/-- A request is received, or its handler ends and is concluded: what a dispatch does to the
journal. Dispatches of any number of requests take turns. -/
inductive JournalStep (rt : Runtime) (registry : HostOperationRegistry) (r : HostRequestMessage)
    (j : Journal) : Journal → Prop
  | receive (now : ℤ) : JournalStep rt registry r j (receive rt registry now r j).2
  | conclude (now : ℤ) (definition : HostOperationDefinition) (context : HostOperationContext)
      (ending : HandlerEnd) :
    JournalStep rt registry r j (conclude rt now r definition context ending j).2

/-- The journal under the dispatches of the admitted requests. -/
def dispatchedJournal (rt : Runtime) (registry : HostOperationRegistry)
    (admitted : HostRequestMessage → Prop) : TransitionSystem Journal where
  init j := j = {}
  step j j' := ∃ r, admitted r ∧ JournalStep rt registry r j j'

/-- A step of a dispatch leaves the journal, or is one of the request it is about. -/
theorem DispatchStep.journal {rt : Runtime} {registry : HostOperationRegistry}
    {s t : DispatchRun} (h : DispatchStep rt registry s t) :
    t.journal = s.journal ∨ ∃ r, JournalStep rt registry r s.journal t.journal := by
  cases h with
  | answer r now response j hreceive =>
    have hj : (receive rt registry now r s.journal).2 = j := by rw [hreceive]
    exact .inr ⟨r, hj ▸ .receive now⟩
  | reserve r now definition j hreceive =>
    have hj : (receive rt registry now r s.journal).2 = j := by rw [hreceive]
    exact .inr ⟨r, hj ▸ .receive now⟩
  | enter k d hactive hnew => exact .inl rfl
  | effect k d kind now after returns hactive hentered => exact .inl rfl
  | conclude k d now ending hactive hentered =>
    exact .inr ⟨d.request, .conclude now d.definition d.context ending⟩
  | crash => exact .inl rfl

/-- The digests of two admitted requests are equal only when the requests are. -/
def DistinctDigests (rt : Runtime) (admitted : HostRequestMessage → Prop) : Prop :=
  ∀ r r', admitted r → admitted r' → r.digest rt = r'.digest rt → r.toDict = r'.toDict

/-- The token of an outcome is none its job has not seen. -/
def TokenSeen (fences : Table JobFence) (key : OperationKey) (result : JournalResult) : Prop :=
  ∀ token ∈ result.executionFencingToken, ∃ r : HostRequestMessage, r.operationKey = key ∧
    ∃ lease, r.authority.lease? = some lease ∧ ∃ row, fences.get? lease.jobId = some row ∧
      token ≤ (row.fencingToken : ℤ)

/-- The token of a result is none beyond the one of a request. -/
def TokenWithin (r : HostRequestMessage) (result : JournalResult) : Prop :=
  ∀ token ∈ result.executionFencingToken, ∃ lease, r.authority.lease? = some lease ∧
    token ≤ (lease.fencingToken : ℤ)

/-- Every outcome was stored under a fence of its job, and every delivery was made to an
admitted request that could have seen its fence. -/
structure FencesHold (rt : Runtime) (admitted : HostRequestMessage → Prop) (j : Journal) :
    Prop where
  outcome : ∀ operation ∈ j.operations, ∀ result ∈ operation.outcome,
    TokenSeen j.jobFences operation.key result
  delivery : ∀ delivery ∈ j.deliveries, ∃ r, admitted r ∧
    delivery.requestDigest = r.digest rt ∧ TokenWithin r delivery.result

section Fences
variable {rt : Runtime} {registry : HostOperationRegistry} {admitted : HostRequestMessage → Prop}
  {r r' : HostRequestMessage} {j j' : Journal} {now : ℤ} {fences fences' : Table JobFence}
  {result : JournalResult} {lease lease' : TaskLeaseHostAuthority}

/-- The scope of a job names the job. -/
theorem jobId_of_operationKey (h : r.operationKey = r'.operationKey)
    (hlease : r.authority.lease? = some lease) (hlease' : r'.authority.lease? = some lease') :
    lease.jobId = lease'.jobId := by
  have hscope : r.scopeKey = r'.scopeKey := congrArg OperationKey.scopeKey h
  cases hauthority : r.authority with
  | system => rw [hauthority] at hlease; cases hlease
  | repository a => rw [hauthority] at hlease; cases hlease
  | taskLease a =>
    cases hauthority' : r'.authority with
    | system => rw [hauthority'] at hlease'; cases hlease'
    | repository a => rw [hauthority'] at hlease'; cases hlease'
    | taskLease a' =>
      rw [hauthority] at hlease
      rw [hauthority'] at hlease'
      obtain rfl : a = lease := Option.some.inj hlease
      obtain rfl : a' = lease' := Option.some.inj hlease'
      simp only [HostRequestMessage.scopeKey, hauthority, hauthority'] at hscope
      have hstr : a.jobId.str = a'.jobId.str := by
        have hlist := congrArg String.toList hscope
        rw [String.toList_append, String.toList_append] at hlist
        exact String.toList_inj.mp (List.append_cancel_left hlist)
      exact UUID.str_inj.mp hstr

/-- Equal messages act under equal tokens. -/
theorem fencingToken_of_toDict (h : r.toDict = r'.toDict) : r.fencingToken = r'.fencingToken := by
  simp only [HostRequestMessage.toDict, Json.obj.injEq, List.cons.injEq, Prod.mk.injEq,
    true_and] at h
  have hauthority : r.authority.toDict = r'.authority.toDict := h.2.2.2.1
  cases hr : r.authority with
  | system =>
    cases hr' : r'.authority with
    | system => simp [HostRequestMessage.fencingToken, hr, hr', HostAuthority.lease?]
    | repository a => simp [HostRequestMessage.fencingToken, hr, hr', HostAuthority.lease?]
    | taskLease a => simp [hr, hr', HostAuthority.toDict] at hauthority
  | repository a =>
    cases hr' : r'.authority with
    | system => simp [HostRequestMessage.fencingToken, hr, hr', HostAuthority.lease?]
    | repository a' => simp [HostRequestMessage.fencingToken, hr, hr', HostAuthority.lease?]
    | taskLease a' => simp [hr, hr', HostAuthority.toDict] at hauthority
  | taskLease a =>
    cases hr' : r'.authority with
    | system => simp [hr, hr', HostAuthority.toDict] at hauthority
    | repository a' => simp [hr, hr', HostAuthority.toDict] at hauthority
    | taskLease a' =>
      simp only [hr, hr', HostAuthority.toDict, List.cons.injEq, Prod.mk.injEq, Json.int.injEq,
        true_and] at hauthority
      have htoken : (a.fencingToken : ℤ) = a'.fencingToken := hauthority.2.2.2.2.2.1
      simp [HostRequestMessage.fencingToken, hr, hr', HostAuthority.lease?, htoken]

/-- An advanced fence has reached the token of the lease it was advanced by. -/
theorem JobFence.token_of_advance {row row' : JobFence} (h : row.advance now lease = .ok row') :
    row'.fencingToken = lease.fencingToken := by
  simp only [advance, Except.bind_eq_ok] at h
  obtain ⟨-, -, -, -, h⟩ := h
  by_cases hsame : lease.fencingToken = row.fencingToken
  · simp only [hsame, if_true, Except.bind_eq_ok] at h
    obtain ⟨-, -, -, -, h⟩ := h
    split at h
    · simp only [Except.pure_eq_ok] at h
      rw [← h, hsame]
    · simp only [Except.pure_eq_ok] at h
      rw [← h, hsame]
  · simp only [hsame, if_false, Except.pure_eq_ok] at h
    rw [← h]

/-- A fence that let a lease pass stands at the token of the lease. -/
theorem fence_of_applyFence (hlease : r.authority.lease? = some lease)
    (h : applyFence now r fences = .ok fences') :
    ∃ row, fences'.get? lease.jobId = some row ∧ row.fencingToken = lease.fencingToken := by
  simp only [applyFence, hlease, Except.bind_eq_ok] at h
  obtain ⟨-, -, h⟩ := h
  cases hseen : fences.get? lease.jobId with
  | none =>
    simp only [hseen, Except.orThrow_eq_ok] at h
    exact ⟨.ofAuthority lease, (Table.get?_insert? h).trans (if_pos rfl), rfl⟩
  | some row =>
    simp only [hseen, Except.bind_eq_ok, Except.pure_eq_ok] at h
    obtain ⟨advanced, hadvance, rfl⟩ := h
    have hkey : key advanced = lease.jobId :=
      (JobFence.advance_spec hadvance).1.trans (Table.key_of_get? hseen)
    refine ⟨advanced, ?_, JobFence.token_of_advance hadvance⟩
    rw [Table.get?_set, if_pos hkey, hseen]
    rfl

/-- A fence that is asserted stands at the token of the lease. -/
theorem fence_of_assertCurrentFence (hlease : r.authority.lease? = some lease)
    (h : assertCurrentFence now r fences = .ok ()) :
    ∃ row, fences.get? lease.jobId = some row ∧ row.fencingToken = lease.fencingToken := by
  simp only [assertCurrentFence, hlease] at h
  cases hrow : fences.get? lease.jobId with
  | none => simp [hrow] at h
  | some row =>
    simp only [hrow, Except.bind_eq_ok, Except.require_eq_ok, JobFence.current, Bool.and_eq_true,
      decide_eq_true_eq] at h
    obtain ⟨-, ⟨-, htoken⟩, -⟩ := h
    exact ⟨row, rfl, htoken⟩

theorem TokenSeen.mono {k : OperationKey} (h : TokenSeen fences k result)
    (hfence : applyFence now r fences = .ok fences') : TokenSeen fences' k result := by
  intro token htoken
  obtain ⟨r', hkey, lease, hlease, row, hrow, hle⟩ := h token htoken
  obtain ⟨row', hrow', hmono⟩ := applyFence_get? hfence hrow
  exact ⟨r', hkey, lease, hlease, row', hrow', hle.trans hmono⟩

/-- A fence that was seen lies within the lease of a request that passes it. -/
theorem TokenSeen.within (h : TokenSeen fences r.operationKey result)
    (hscoped : result.executionFencingToken.isSome = true → r.taskScoped = true)
    (hfence : applyFence now r fences = .ok fences') : TokenWithin r result := by
  intro token htoken
  obtain ⟨r', hkey, lease', hlease', row, hrow, hle⟩ := h token htoken
  have hscoped := hscoped (Option.isSome_of_mem htoken)
  obtain ⟨lease, hlease⟩ := Option.isSome_iff_exists.mp hscoped
  have hjob : lease'.jobId = lease.jobId := jobId_of_operationKey hkey hlease' hlease
  rw [hjob] at hrow
  obtain ⟨row', hrow', hmono⟩ := applyFence_get? hfence hrow
  obtain ⟨last, hlast, htoken⟩ := fence_of_applyFence hlease hfence
  obtain rfl : last = row' := Option.some.inj (hlast.symm.trans hrow')
  exact ⟨lease, hlease, hle.trans (htoken ▸ hmono)⟩

/-- What lies within a message lies within an equal one. -/
theorem TokenWithin.of_toDict (h : TokenWithin r result) (hequal : r.toDict = r'.toDict) :
    TokenWithin r' result := by
  intro token htoken
  obtain ⟨lease, hlease, hle⟩ := h token htoken
  have hsame := fencingToken_of_toDict hequal
  simp only [HostRequestMessage.fencingToken, hlease, Option.map_some] at hsame
  obtain ⟨lease', hlease', heq⟩ := Option.map_eq_some_iff.mp hsame.symm
  exact ⟨lease', hlease', heq ▸ hle⟩

/-- What is read back has a token exactly when the request is of a task. -/
theorem isSome_of_storedResult {taskScoped : Bool} {stored : JournalResult}
    (h : storedResult taskScoped stored = .ok result) :
    result.executionFencingToken.isSome = taskScoped := by
  have hsame := eq_of_storedResult h
  simp only [storedResult, Except.bind_eq_ok, Except.require_eq_ok] at h
  obtain ⟨-, -, -, -, -, -, -, hscoped, -⟩ := h
  rw [hsame, hscoped]

/-- A message under the identity of its request is checked for its fence. -/
theorem validateResponse_responseMessage {response : HostResponse} :
    validateResponse r (r.responseMessage response) =
      validateExecutionFence r (r.responseMessage response) := by
  simp [validateResponse, HostRequestMessage.responseMessage, Except.require]

/-- The gateway accepts what is replayed within the lease of the request. -/
theorem accepts_replayed (hwithin : TokenWithin r result)
    (hscoped : result.executionFencingToken.isSome = r.taskScoped) :
    validateResponse r (r.responseMessage
      ⟨result.status, result.code, result.result, true, result.executionFencingToken⟩) =
      .ok () := by
  rw [validateResponse_responseMessage]
  cases hlease : r.authority.lease? with
  | none =>
    have hnone : result.executionFencingToken = none := by
      rw [HostRequestMessage.taskScoped, hlease] at hscoped
      exact Option.isSome_eq_false_iff.mp hscoped |> Option.isNone_iff_eq_none.mp
    simp [validateExecutionFence, HostRequestMessage.responseMessage, hlease, hnone]
  | some lease =>
    rw [HostRequestMessage.taskScoped, hlease] at hscoped
    obtain ⟨token, htoken⟩ := Option.isSome_iff_exists.mp hscoped
    obtain ⟨lease', hlease', hle⟩ := hwithin token htoken
    obtain rfl : lease = lease' := Option.some.inj (hlease.symm.trans hlease')
    by_cases hok : result.status = .ok
    · simp [validateExecutionFence, HostRequestMessage.responseMessage, hlease, htoken, hok, hle]
    · simp [validateExecutionFence, HostRequestMessage.responseMessage, hlease, htoken, hok, hle]

/-- The gateway accepts what names no token and reports no success. -/
theorem accepts_unfenced {response : HostResponse} (hstatus : response.status ≠ .ok)
    (htoken : response.executionFencingToken = none) :
    validateResponse r (r.responseMessage response) = .ok () := by
  rw [validateResponse_responseMessage]
  cases hlease : r.authority.lease? with
  | none => simp [validateExecutionFence, HostRequestMessage.responseMessage, hlease, htoken]
  | some lease =>
    simp [validateExecutionFence, HostRequestMessage.responseMessage, hlease, htoken, hstatus]

/-- The gateway accepts what names the token of the request. -/
theorem accepts_fresh {response : HostResponse}
    (htoken : response.executionFencingToken = r.fencingToken) :
    validateResponse r (r.responseMessage response) = .ok () := by
  rw [validateResponse_responseMessage]
  cases hlease : r.authority.lease? with
  | none =>
    have hnone : response.executionFencingToken = none := by
      rw [htoken, HostRequestMessage.fencingToken, hlease]
      rfl
    simp [validateExecutionFence, HostRequestMessage.responseMessage, hlease, hnone]
  | some lease =>
    have hsome : response.executionFencingToken = some (lease.fencingToken : ℤ) := by
      rw [htoken, HostRequestMessage.fencingToken, hlease]
      rfl
    by_cases hok : response.status = .ok
    · simp [validateExecutionFence, HostRequestMessage.responseMessage, hlease, hsome, hok]
    · simp [validateExecutionFence, HostRequestMessage.responseMessage, hlease, hsome, hok]

/-- The invariant when a request passed the fence and nothing else was written. -/
theorem FencesHold.frame (h : FencesHold rt admitted j)
    (hfence : applyFence now r j.jobFences = .ok j'.jobFences)
    (hoperations : j'.operations = j.operations) (hdeliveries : j'.deliveries = j.deliveries) :
    FencesHold rt admitted j' where
  outcome operation hoperation result hresult :=
    (h.outcome operation (hoperations ▸ hoperation) result hresult).mono hfence
  delivery delivery hdelivery := h.delivery delivery (hdeliveries ▸ hdelivery)

/-- What is replayed was read back. -/
theorem isSome_of_begin (h : (j.begin rt now r).1 = .ok (.replay result)) :
    result.executionFencingToken.isSome = r.taskScoped := by
  unfold Journal.begin at h
  cases hcommit : j.beginTransaction rt now r with
  | error e => simp [hcommit] at h
  | ok committed =>
    simp only [hcommit] at h
    simp only [Journal.beginTransaction, Except.bind_eq_ok] at hcommit
    obtain ⟨fences, hfence, receipts, hreceipt, hcommit⟩ := hcommit
    cases hdelivery : j.deliveries.get? r.requestId with
    | some delivery =>
      simp only [hdelivery, Except.bind_eq_ok, Except.pure_eq_ok] at hcommit
      obtain ⟨-, -, rfl⟩ := hcommit
      obtain ⟨stored, hstored, hreplay⟩ := Except.map_eq_ok.mp h
      obtain rfl := JournalDecision.replay.inj hreplay
      exact isSome_of_storedResult hstored
    | none =>
      simp only [hdelivery, Except.bind_eq_ok, Except.pure_eq_ok] at hcommit
      obtain ⟨⟨decision, reserved⟩, hreserve, rfl⟩ := hcommit
      obtain rfl : decision = .replay result := Except.ok.inj h
      unfold Journal.reserve at hreserve
      split at hreserve
      · simp only [Except.bind_eq_ok, Except.pure_eq_ok, Prod.mk.injEq] at hreserve
        obtain ⟨-, -, hdecision, -⟩ := hreserve
        cases hdecision
      · simp only [Except.bind_eq_ok] at hreserve
        obtain ⟨-, -, hreserve⟩ := hreserve
        split at hreserve
        · simp only [Except.pure_eq_ok, Prod.mk.injEq] at hreserve
          cases hreserve.1
        · simp only [Except.bind_eq_ok, Except.pure_eq_ok, Prod.mk.injEq] at hreserve
          obtain ⟨read, hread, -, -, hdecision, -⟩ := hreserve
          obtain rfl := JournalDecision.replay.inj hdecision
          exact isSome_of_storedResult hread

theorem eq_of_signedResponse {response signed : HostResponse}
    (h : signedResponse response = some signed) : signed = response := by
  unfold signedResponse at h
  split at h
  · exact (Option.some.inj h).symm
  · cases h

/-- The gateway accepts a rejection and an ambiguous answer. -/
theorem accepts_signed {response signed : HostResponse} (h : signedResponse response = some signed)
    (hstatus : response.status ≠ .ok) (htoken : response.executionFencingToken = none) :
    validateResponse r (r.responseMessage signed) = .ok () := by
  rw [eq_of_signedResponse h]
  exact accepts_unfenced hstatus htoken

theorem accepts_ambiguous (evidence : List (String × Json)) {signed : HostResponse}
    (h : signedResponse (ambiguousResponse evidence) = some signed) :
    validateResponse r (r.responseMessage signed) = .ok () :=
  accepts_signed h nofun rfl

/-- An answer given when a request is received is accepted, and the invariant is kept. -/
theorem FencesHold.receive (h : FencesHold rt admitted j) (hdistinct : DistinctDigests rt admitted)
    (hr : admitted r) :
    FencesHold rt admitted (receive rt registry now r j).2 ∧
      ∀ response, (receive rt registry now r j).1 = .answered (some response) →
        validateResponse r (r.responseMessage response) = .ok () := by
  unfold HostAgent.receive
  cases hresolve : resolve registry r with
  | error code =>
    refine ⟨h, fun response hresponse => ?_⟩
    exact accepts_signed (Reception.answered.inj hresponse) nofun rfl
  | ok definition =>
    simp only
    have hread : ∀ result, (j.begin rt now r).1 = .ok (.replay result) →
        result.executionFencingToken.isSome = r.taskScoped := fun result => isSome_of_begin
    have hbegan := began rt now r j
    generalize (j.begin rt now r).1 = answer at hbegan hread ⊢
    generalize (j.begin rt now r).2 = after at hbegan ⊢
    cases hbegan with
    | rolledBack e =>
      refine ⟨h, fun response hresponse => ?_⟩
      exact accepts_signed (Reception.answered.inj hresponse) nofun rfl
    | @delivered fences receipts delivery hfence hreceipt hdelivery hdigest =>
      refine ⟨?_, ?_⟩
      · have hframe :
            FencesHold rt admitted { j with jobFences := fences, requestReceipts := receipts } :=
          h.frame hfence rfl rfl
        cases storedResult r.taskScoped delivery.result <;> exact hframe
      · intro response hresponse
        cases hstored : storedResult r.taskScoped delivery.result with
        | error e =>
          rw [hstored] at hresponse
          exact accepts_signed (Reception.answered.inj hresponse) nofun rfl
        | ok result =>
          rw [hstored] at hresponse
          obtain rfl := eq_of_signedResponse (Reception.answered.inj hresponse)
          have hsame := eq_of_storedResult hstored
          -- The delivery was made to this message.
          obtain ⟨r₀, hr₀, hdigest₀, hwithin⟩ :=
            h.delivery delivery (Table.mem_of_get? hdelivery)
          have hequal := hdistinct r₀ r hr₀ hr (hdigest₀.symm.trans hdigest)
          refine accepts_replayed ?_ (isSome_of_storedResult hstored)
          rw [hsame]
          exact hwithin.of_toDict hequal
    | @reserved fences receipts operations hfence hnew hinsert =>
      refine ⟨⟨?_, h.delivery⟩, fun response hresponse => nomatch hresponse⟩
      intro operation hoperation result hresult
      rcases (Table.mem_insert? hinsert).mp hoperation with hoperation | rfl
      · exact (h.outcome operation hoperation result hresult).mono hfence
      · cases hresult
    | @ambiguous fences receipts hfence =>
      refine ⟨h.frame hfence rfl rfl, fun response hresponse => ?_⟩
      exact accepts_signed (Reception.answered.inj hresponse) nofun rfl
    | @replayed fences receipts deliveries operation stored hfence hoperation _ hstored hinsert =>
      have hscoped := hread stored rfl
      have hkey : operation.key = r.operationKey := Table.key_of_get? hoperation
      have hseen := h.outcome operation (Table.mem_of_get? hoperation) stored hstored
      rw [hkey] at hseen
      have hwithin : TokenWithin r stored := hseen.within (fun hsome => hscoped ▸ hsome) hfence
      refine ⟨⟨?_, ?_⟩, ?_⟩
      · intro operation hoperation result hresult
        exact (h.outcome operation hoperation result hresult).mono hfence
      · intro delivery hdelivery
        rcases (Table.mem_insert? hinsert).mp hdelivery with hdelivery | rfl
        · exact h.delivery delivery hdelivery
        · exact ⟨r, hr, rfl, hwithin⟩
      · intro response hresponse
        rw [eq_of_signedResponse (Reception.answered.inj hresponse)]
        exact accepts_replayed hwithin hscoped

theorem fencingToken_of_journalResult {definition : HostOperationDefinition}
    {context : HostOperationContext} {ending : HandlerEnd}
    (h : journalResult r definition context ending = some result) :
    result.executionFencingToken = r.fencingToken := by
  cases ending with
  | returned fields =>
    simp only [journalResult] at h
    split at h
    · rw [← Option.some.inj h]
    · split at h
      · rw [← Option.some.inj h]
      · rw [← Option.some.inj h]
  | effectAmbiguous fields => cases h
  | rejected code => rw [← Option.some.inj h]
  | journalFailed e => rw [← Option.some.inj h]
  | failed => rw [← Option.some.inj h]

/-- The token of a request lies within its lease. -/
theorem TokenWithin.of_fencingToken (h : result.executionFencingToken = r.fencingToken) :
    TokenWithin r result := by
  intro token htoken
  rw [h, HostRequestMessage.fencingToken] at htoken
  obtain ⟨lease, hlease, rfl⟩ := Option.mem_map.mp htoken
  exact ⟨lease, hlease, le_rfl⟩

/-- The answer to a handler that ended is accepted, and the invariant is kept. -/
theorem FencesHold.conclude (h : FencesHold rt admitted j) (hr : admitted r)
    (definition : HostOperationDefinition) (context : HostOperationContext) (ending : HandlerEnd) :
    FencesHold rt admitted (conclude rt now r definition context ending j).2 ∧
      ∀ response, (conclude rt now r definition context ending j).1 = some response →
        validateResponse r (r.responseMessage response) = .ok () := by
  unfold HostAgent.conclude
  cases hresult : journalResult r definition context ending with
  | none =>
    refine ⟨h, fun response hresponse => ?_⟩
    obtain ⟨evidence, -, hsigned⟩ := Option.bind_eq_some_iff.mp hresponse
    exact accepts_ambiguous evidence hsigned
  | some result =>
    have htoken := fencingToken_of_journalResult hresult
    simp only
    by_cases hrejected : context.effectAttempted = true ∧ result.status ≠ .ok
    · rw [if_pos hrejected]
      exact ⟨h, fun response hresponse => accepts_ambiguous [] hresponse⟩
    · rw [if_neg hrejected]
      have hfinished := finished rt now r result j
      generalize (j.finish rt now r result).1 = answer at hfinished ⊢
      generalize (j.finish rt now r result).2 = after at hfinished ⊢
      cases hfinished with
      | rolledBack e => exact ⟨h, fun response hresponse => accepts_ambiguous [] hresponse⟩
      | @stored operation deliveries hfence hoperation _ _ hinsert =>
        have hkey : operation.key = r.operationKey := Table.key_of_get? hoperation
        refine ⟨⟨?_, ?_⟩, ?_⟩
        · intro other hother result' hresult'
          have hknown :
              j.operations.get? (key { operation with outcome := some result }) ≠ none := by
            rw [key_operationRow, hkey, hoperation]
            exact Option.some_ne_none _
          rcases (Table.mem_set hknown).mp hother with rfl | ⟨hother, -⟩
          · obtain rfl : result = result' := Option.some.inj hresult'
            intro token hmem
            rw [htoken, HostRequestMessage.fencingToken] at hmem
            obtain ⟨lease, hlease, rfl⟩ := Option.mem_map.mp hmem
            obtain ⟨row, hrow, hrowtoken⟩ := fence_of_assertCurrentFence hlease hfence
            exact ⟨r, hkey.symm, lease, hlease, row, hrow, (congrArg Subtype.val hrowtoken).ge⟩
          · exact h.outcome other hother result' hresult'
        · intro delivery hdelivery
          rcases (Table.mem_insert? hinsert).mp hdelivery with hdelivery | rfl
          · exact h.delivery delivery hdelivery
          · exact ⟨r, hr, rfl, .of_fencingToken htoken⟩
        · intro response hresponse
          rw [eq_of_signedResponse hresponse]
          exact accepts_fresh htoken

/-- The journals of a run hold the fences. -/
theorem fencesHold_of_reachable (hdistinct : DistinctDigests rt admitted)
    (h : (dispatchedJournal rt registry admitted).Reachable j) : FencesHold rt admitted j := by
  refine h.invariant ?_ ?_
  · rintro j rfl
    exact ⟨fun operation hoperation => (nomatch hoperation),
      fun delivery hdelivery => (nomatch hdelivery)⟩
  · rintro j j' hj ⟨r, hr, hstep⟩
    cases hstep with
    | receive now => exact (hj.receive hdistinct hr).1
    | conclude now definition context ending => exact (hj.conclude hr definition context ending).1

end Fences

/-- Whatever the host answers to an admitted request, in whatever journal a run reaches, the
gateway accepts it: an answer given at once, with or without a replay, and the one given when
the handler ended. -/
theorem accepts_of_run {rt : Runtime} {registry : HostOperationRegistry}
    {admitted : HostRequestMessage → Prop} (hdistinct : DistinctDigests rt admitted)
    {j : Journal} (h : (dispatchedJournal rt registry admitted).Reachable j)
    {r : HostRequestMessage} (hr : admitted r) (now : ℤ) :
    (∀ response, (receive rt registry now r j).1 = .answered (some response) →
      validateResponse r (r.responseMessage response) = .ok ()) ∧
    ∀ definition context ending response,
      (conclude rt now r definition context ending j).1 = some response →
        validateResponse r (r.responseMessage response) = .ok () := by
  have hholds := fencesHold_of_reachable hdistinct h
  exact ⟨(hholds.receive hdistinct hr).2, fun definition context ending =>
    (hholds.conclude hr definition context ending).2⟩

namespace GatewayExample
open JournalExample DispatchExample

/-- The one request of the run. -/
def once (r : HostRequestMessage) : Prop := r = first

theorem distinct : DistinctDigests rt once := by
  rintro r r' rfl rfl -
  rfl

/-- The journal once the handler of the request returned. -/
def handled : Journal :=
  (conclude rt 20 first probe { authorizedEffects := 1 } (.returned []) running).2

theorem reachable : (dispatchedJournal rt registry once).Reachable handled := by
  have hinit : (dispatchedJournal rt registry once).Reachable {} := .of_init rfl
  have hrunning : (dispatchedJournal rt registry once).Reachable running :=
    hinit.tail ⟨first, rfl, .receive 10⟩
  exact hrunning.tail ⟨first, rfl, .conclude 20 probe { authorizedEffects := 1 } (.returned [])⟩

/-- The answer to the request when it is sent again. -/
def replayed : HostResponse := ⟨.ok, "OK", [], true, some 1⟩

theorem receive_again : (receive rt registry 30 first handled).1 = .answered (some replayed) := rfl

end GatewayExample

open GatewayExample JournalExample DispatchExample in
theorem accepts_of_run_replayed :
    (receive rt registry 30 first handled).1 = .answered (some replayed) ∧
    validateResponse first (first.responseMessage replayed) = .ok () :=
  ⟨receive_again, (accepts_of_run distinct reachable rfl 30).1 replayed receive_again⟩

end ControlPlane.HostAgent
