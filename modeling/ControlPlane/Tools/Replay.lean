import ControlPlane.Tools.Refused

/-!
# Results that are asked for again

The first return of an execution carries what the host answered, and every later one what
was stored of it. The two agree exactly when the redaction policy leaves the result as it
is.
-/
namespace ControlPlane

section Replay
variable {rt : Runtime} {checks : RepositoryChecks} {s s' : ToolState} {db db' : Database}
  {condition : ToolState → ToolAuthorization → HermesToolProposalRequest → ToolAnswer → Prop}

/-- A proposal that ended with a result, and what is left of the evidence of the result. -/
structure EndedWith (db : Database) (proposalId : UUID) (row : HermesToolResult)
    (envelope : EvidenceEnvelope) : Prop where
  terminal : terminalResults db proposalId = [row]
  evidence : ∃ record, db.evidenceRecords.get? row.resultEvidenceId = some record ∧
    (record.artifact = some envelope ∨ record.artifact = none)

theorem EndedWith.kept {proposalId : UUID} {row : HermesToolResult} {envelope : EvidenceEnvelope}
    (h : EndedWith db proposalId row envelope) (hevidence : EvidenceKept db db')
    (hterminal : terminalResults db' proposalId = terminalResults db proposalId) :
    EndedWith db' proposalId row envelope := by
  obtain ⟨record, hget, hartifact⟩ := h.evidence
  obtain ⟨record', hget', -, hkept⟩ := hevidence _ record hget
  refine ⟨hterminal.trans h.terminal, record', hget', ?_⟩
  rcases hkept with hkept | hkept
  · rw [hkept]
    exact hartifact
  · exact .inr hkept

/-- No step ends a proposal a second time. -/
theorem EndedWith.step {proposalId : UUID} {row : HermesToolResult} {envelope : EvidenceEnvelope}
    (hended : EndedWith s.db proposalId row envelope) (h : ToolStep rt checks condition s s') :
    EndedWith s'.db proposalId row envelope := by
  cases h with
  | authorize principalId grant runId proposal now taskEventId authorization h =>
    obtain ⟨hresults, -, hevidence, -⟩ := authorizeProposal_ok h
    exact hended.kept hevidence.kept (terminalResults_congr hresults _)
  | finished principalId grant runId proposal now taskEventId authorization h =>
    obtain ⟨hresults, -, hevidence, -⟩ := authorizeProposal_ok h
    exact hended.kept hevidence.kept (terminalResults_congr hresults _)
  | deny _ _ _ _ _ hdb => exact hdb ▸ hended
  | dispatch _ _ _ _ _ _ _ _ _ _ hdb => exact hdb ▸ hended
  | refuse _ _ _ _ _ _ _ _ _ _ hdb => exact hdb ▸ hended
  | record principalId authorization proposal answer now taskEventId result _ _ h =>
    rcases recordResult_ok h with ⟨-, -, hdb⟩ | ⟨hnone, decision, -, status, code, fields, -, happends⟩
    · exact hdb ▸ hended
    · obtain ⟨row', hid, -, -, -, hrows⟩ := happends.row
      refine hended.kept happends.evidence.kept ?_
      have hne : row'.proposalId ≠ proposalId := by
        rintro rfl
        have hone := hended.terminal
        rw [hid, hnone] at hone
        cases hone
      rw [terminalResults_append hrows, if_neg fun h => hne h.1, List.append_nil]
  | stop hdb => exact hdb ▸ hended
  | other h => exact hended.kept h.evidence (terminalResults_congr h.results _)

theorem EndedWith.run {proposalId : UUID} {row : HermesToolResult} {envelope : EvidenceEnvelope}
    (hended : EndedWith s.db proposalId row envelope)
    (h : Relation.ReflTransGen (toolSystem rt checks condition).step s s') :
    EndedWith s'.db proposalId row envelope := by
  induction h with
  | refl => exact hended
  | tail _ hstep ih => exact ih.step hstep

theorem latestBy_singleton (row : HermesToolResult) :
    latestBy HermesToolResult.attempt [row] = some row := rfl

/-- A later answer: the status and the code of the row, and the stored result. -/
theorem terminalResult_ok {proposalId : UUID} {externalId : String} {row : HermesToolResult}
    {envelope : EvidenceEnvelope} {later : ScopedToolExecutionResult}
    (hended : EndedWith db proposalId row envelope)
    (h : terminalResult rt db proposalId externalId = .ok (some later)) :
    later.status = row.status ∧ later.code = row.code ∧
      later.result = (envelope.content.get "result").obj?.getD [] := by
  simp only [terminalResult] at h
  split at h
  · cases h
  · rw [hended.terminal, latestBy_singleton] at h
    simp only [storedAnswer, toolEvidencePayload, Except.bind_eq_ok, Except.orThrow_eq_ok,
      Except.relabel_eq_ok, Except.pure_eq_ok, Option.some.injEq] at h
    obtain ⟨answer, ⟨payload, ⟨record, hget, loaded, hloaded, hpayload⟩, rfl⟩, rfl⟩ := h
    obtain ⟨record', hget', hartifact'⟩ := hended.evidence
    obtain rfl : record' = record := Option.some.inj (hget'.symm.trans hget)
    obtain ⟨envelope', hartifact, hcontent⟩ := loadEvidence_ok hloaded
    rcases hartifact' with hartifact' | hartifact'
    · obtain rfl : envelope = envelope' := Option.some.inj (hartifact'.symm.trans hartifact)
      rw [Json.obj?_eq_some, hcontent] at hpayload
      exact ⟨rfl, rfl, by rw [hpayload]⟩
    · rw [hartifact'] at hartifact
      cases hartifact

theorem redacted_obj (u : Unicode) (fields : List (String × Json)) :
    redacted u (.obj fields) = .obj (redactedFields u fields) := by
  simp only [redacted]

/-- The first terminal return of a proposal: the response as it is recorded. -/
theorem endedWith_of_record {principalId : String} {authorization : ToolAuthorization}
    {proposal : HermesToolProposalRequest} {response : HostResponse} {now : Time}
    {taskEventId : UUID} {first : ScopedToolExecutionResult} {decision : HermesToolDecision}
    (hrecord : recordResult rt checks principalId db authorization proposal response now
      taskEventId = .ok (first, db'))
    (hdecision : db.hermesToolDecisions.get? authorization.decisionId = some decision)
    (hfirst : first.replayed = false) (hterminal : first.status ≠ .ambiguous) :
    ∃ row envelope, EndedWith db' authorization.proposalId row envelope ∧
      row.status = first.status ∧ row.code = first.code ∧
      first.result = (recordedOutcome rt checks db decision proposal.toolName
        (normalizeResponse rt response)).2.2 ∧
      envelope.content.get "result" = .obj (redactedFields rt.unicode first.result) := by
  rcases recordResult_ok hrecord with ⟨-, hreplayed, -⟩ | ⟨hnone, decision', hdecision', status,
    code, fields, houtcome, happends⟩
  · rw [hfirst] at hreplayed
    cases hreplayed
  · obtain rfl : decision = decision' := Option.some.inj (hdecision.symm.trans hdecision')
    obtain ⟨row, hid, hstatus, hcode, hevidence, hrows⟩ := happends.row
    obtain ⟨record, envelope, hget, hartifact, hcontent⟩ := happends.content
    refine ⟨row, envelope, ⟨?_, record, by rw [hevidence, hget], .inl hartifact⟩,
      hstatus.trans happends.status.symm, hcode.trans happends.code.symm, ?_, ?_⟩
    · have hended : row.isTerminal = true := by
        rw [happends.status] at hterminal
        simp [HermesToolResult.isTerminal, hstatus, hterminal]
      rw [terminalResults_append hrows, hnone, if_pos ⟨hid, hended⟩, List.nil_append]
    · rw [houtcome, happends.result]
    · rw [hcontent, redacted_obj, happends.result]

/-- A later answer is the first one exactly when redaction leaves the result as it is. -/
theorem replayed_iff {s₁ s₂ : ToolState} {principalId externalId : String}
    {authorization : ToolAuthorization} {proposal : HermesToolProposalRequest}
    {response : HostResponse} {now : Time} {taskEventId : UUID}
    {first later : ScopedToolExecutionResult} {decision : HermesToolDecision}
    (hrecord : recordResult rt checks principalId db authorization proposal response now
      taskEventId = .ok (first, s₁.db))
    (hdecision : db.hermesToolDecisions.get? authorization.decisionId = some decision)
    (hfirst : first.replayed = false) (hterminal : first.status ≠ .ambiguous)
    (hrun : Relation.ReflTransGen (toolSystem rt checks condition).step s₁ s₂)
    (hlater : terminalResult rt s₂.db authorization.proposalId externalId = .ok (some later)) :
    (later.status = first.status ∧ later.code = first.code ∧ later.result = first.result) ↔
      redactedFields rt.unicode
          (recordedOutcome rt checks db decision proposal.toolName
            (normalizeResponse rt response)).2.2 =
        (recordedOutcome rt checks db decision proposal.toolName
          (normalizeResponse rt response)).2.2 := by
  obtain ⟨row, envelope, hended, hstatus, hcode, hresult, hcontent⟩ :=
    endedWith_of_record hrecord hdecision hfirst hterminal
  obtain ⟨hstatus', hcode', hresult'⟩ := terminalResult_ok (hended.run hrun) hlater
  have hstored : later.result = redactedFields rt.unicode first.result := by
    rw [hresult', hcontent]
    rfl
  rw [← hresult, hstored, hstatus', hcode']
  exact ⟨fun h => h.2.2, fun h => ⟨hstatus, hcode, h⟩⟩

end Replay

namespace ToolExample

/-- The host applied the patch. -/
def applied : HostResponse where
  status := .ok
  code := "APPLIED"
  replayed := false
  result :=
    [("head_sha", .str "0000000000000000000000000000000000000000"),
      ("changed_paths", .arr [.str "a"]), ("diff", .str "password=x")]

/-- The first return, the store it left, and the answer of that store. -/
def answered : Except ScopedToolError (ScopedToolExecutionResult × Database) :=
  record authorized₁ authorization₁ (.answered applied) (.ofNat 43)

def noAnswer : ScopedToolExecutionResult :=
  ⟨"", .ambiguous, "", [], .ofNat 0, .ofNat 0, none, true⟩

def first : ScopedToolExecutionResult := valueOr noAnswer answered
def recorded : Database := after authorized₁ answered

def asked : Except ScopedToolError (Option ScopedToolExecutionResult) :=
  terminalResult .plain recorded authorization₁.proposalId proposal.proposalId

def diff (result : ScopedToolExecutionResult) : Option String :=
  ((Json.obj result.result).get "diff").str?

theorem answered_checked :
    (answered.isOk && decide (first.replayed = false) && decide (first.status = .succeeded) &&
      (authorized₁.hermesToolDecisions.get? authorization₁.decisionId).isSome &&
      (match asked with
        | .ok (some later) => decide (diff later ≠ diff first)
        | _ => false)) = true := by
  decide +kernel

theorem exists_state (db : Database) : ∃ s : ToolState, s.db = db :=
  ⟨⟨db, .idle, []⟩, rfl⟩

theorem answered_ok (h : answered.isOk = true) : answered = .ok (first, recorded) :=
  eq_ok_after noAnswer authorized₁ h

theorem asked_ok : ∃ later, asked = .ok (some later) ∧ later.result ≠ first.result := by
  have hchecked := answered_checked
  simp only [Bool.and_eq_true] at hchecked
  obtain ⟨-, hasked⟩ := hchecked
  split at hasked
  · rename_i later heq
    refine ⟨later, heq, fun hsame => of_decide_eq_true hasked ?_⟩
    rw [diff, diff, hsame]
  · cases hasked

end ToolExample

open ToolExample in
open HermesExample (grant) in
/-- The stored answer does not carry the secret of the diff, which the first one did. -/
theorem answer_changes_applied :
    (toolSystem .plain checks fun _ _ _ _ => True).Reachable
        ⟨recorded, .idle, dispatches (.ok applied)⟩ ∧
      answered = .ok (first, recorded) ∧ first.status = .succeeded ∧ first.replayed = false ∧
      ∃ later, terminalResult .plain recorded authorization₁.proposalId proposal.proposalId =
        .ok (some later) ∧ later.result ≠ first.result := by
  have hchecked := answered_checked
  simp only [Bool.and_eq_true, decide_eq_true_eq] at hchecked
  obtain ⟨⟨⟨⟨hok, hreplayed⟩, hstatus⟩, -⟩, -⟩ := hchecked
  have hanswered : (toolSystem .plain checks fun _ _ _ _ => True).Reachable
      ⟨authorized₁, .answered authorization₁ proposal (.answered applied),
        dispatches (.ok applied)⟩ := reachable_dispatched (.ok applied)
  exact ⟨hanswered.tail (record_step trivial hok), answered_ok hok, hstatus,
    hreplayed, asked_ok⟩

open ToolExample in
/-- That result is not the one redaction leaves. -/
theorem replayed_iff_applied :
    ∃ decision, authorized₁.hermesToolDecisions.get? authorization₁.decisionId = some decision ∧
      ¬ redactedFields Runtime.plain.unicode
          (recordedOutcome .plain checks authorized₁ decision proposal.toolName
            (normalizeResponse .plain applied)).2.2 =
        (recordedOutcome .plain checks authorized₁ decision proposal.toolName
          (normalizeResponse .plain applied)).2.2 := by
  have hchecked := answered_checked
  simp only [Bool.and_eq_true, decide_eq_true_eq] at hchecked
  obtain ⟨⟨⟨⟨hok, hreplayed⟩, hstatus⟩, hsome⟩, -⟩ := hchecked
  obtain ⟨decision, hdecision⟩ := Option.isSome_iff_exists.mp hsome
  obtain ⟨later, hasked, hne⟩ := asked_ok
  obtain ⟨s, hs⟩ := exists_state recorded
  have hanswered := answered_ok hok
  have hterminal : first.status ≠ .ambiguous := by
    rw [hstatus]
    decide
  rw [asked] at hasked
  rw [← hs] at hanswered hasked
  have hrecord : recordResult .plain checks "control-plane" authorized₁ authorization₁ proposal
      applied (seconds 2) (.ofNat 43) = .ok (first, s.db) := hanswered
  refine ⟨decision, hdecision, fun hsame => hne ?_⟩
  have hrun : Relation.ReflTransGen (toolSystem .plain checks fun _ _ _ _ => True).step s s := .refl
  have hiff := replayed_iff hrecord hdecision hreplayed hterminal hrun hasked
  exact (hiff.mpr hsame).2.2

end ControlPlane
