import ControlPlane.Task.StateMachine

/-!
# The proof of a verified draft

Publication of a draft pull request captures a proof: what the branch, the remote and the
pull request showed of one validated commit. The gate of the transition that opens the draft
reads the proof back and compares it with the task, and so does readiness, again and again.

## Main definitions

* `readDraftProof`: the parts of a proof that are parsed.
* `DraftProof.holds`: what the gate compares.
* `draftProofGates`, `draftPrFacts`
-/
namespace ControlPlane

/-- A proof has exactly these members. -/
def draftPullRequestProofKeys : List String :=
  ["schema_version", "task_id", "brief_id", "validation_contract_id",
    "validation_contract_version", "repository_configuration_id",
    "repository_configuration_version", "validation_run_id", "validation_decision_evidence_id",
    "commit_sha", "tree_sha", "local_before_push", "push_result", "local_after_push",
    "pull_request", "pull_request_content_sha256"]

def draftProofEvidenceType : String := "draft-pull-request-proof"

/-- A human decision is pending or the task was cancelled. -/
def humanOrCancelFence (db : Database) (taskId : UUID) : Bool :=
  db.approvalRequests.rows.any (fun r => r.taskId = taskId && r.status = .pending) ||
    db.taskCancellations.rows.any fun c => c.taskId = taskId

/-! ### Reading a proof -/

/-- A Git object ID, normalized. -/
def gitObject (u : Unicode) (value : Json) : Option String :=
  match value with
  | .str s =>
    let normalized := String.ofList (u.lower (u.strip s.toList))
    if IsGitSha normalized then some normalized else none
  | _ => none

def uuidMember (u : Unicode) (payload : Json) (key : String) : Option UUID :=
  (payload.get key).str?.bind (UUID.parse u)

def objectMember (payload : Json) (key : String) : Option Json :=
  (payload.get key).obj?.map Json.obj

/-- The parts of a proof that are parsed. -/
structure DraftProof where
  commit : String
  taskId : UUID
  briefId : UUID
  runId : UUID
  contractId : UUID
  configurationId : UUID
  decisionId : UUID
  before : Json
  pushed : Json
  after : Json
  pullRequest : Json

def readDraftProof (u : Unicode) (payload : Json) : Option DraftProof :=
  if payload.hasKeys draftPullRequestProofKeys then do
    let commit ← gitObject u (payload.get "commit_sha")
    let taskId ← uuidMember u payload "task_id"
    let briefId ← uuidMember u payload "brief_id"
    let runId ← uuidMember u payload "validation_run_id"
    let contractId ← uuidMember u payload "validation_contract_id"
    let configurationId ← uuidMember u payload "repository_configuration_id"
    let decisionId ← uuidMember u payload "validation_decision_evidence_id"
    let before ← objectMember payload "local_before_push"
    let pushed ← objectMember payload "push_result"
    let after ← objectMember payload "local_after_push"
    let pullRequest ← objectMember payload "pull_request"
    return { commit, taskId, briefId, runId, contractId, configurationId, decisionId,
             before, pushed, after, pullRequest }
  else none

/-- The hexadecimal digits of a SHA-256 digest. -/
def isSha256 (s : String) : Bool :=
  s.length = 64 && s.toList.all fun c => c ∈ UUID.hexAlphabet

/-! ### The gate -/

namespace DraftProof
variable (db : Database) (task : Task) (payload : Json) (p : DraftProof)

/-- The proof names what the task is bound to. -/
def matchesTask : Bool :=
  (payload.get "schema_version").pyEq (.int 1) &&
  p.taskId = task.id &&
  task.acceptedBriefId = some p.briefId &&
  task.validationContractId = some p.contractId &&
  task.repositoryConfigurationId = some p.configurationId &&
  (db.validationContracts.get? p.contractId).any (fun contract =>
    contract.taskId = task.id && task.acceptedBriefId = some contract.briefId &&
    (payload.get "validation_contract_version").pyEq (.int contract.version)) &&
  (db.repositoryConfigurations.get? p.configurationId).any fun configuration =>
    (payload.get "repository_configuration_version").pyEq (.int configuration.version)

/-- The run passed on the commit, and the decision is about the run. -/
def passed (run : ValidationRun) : Bool :=
  run.taskId = task.id && run.validationContractId = p.contractId &&
  run.repositoryConfigurationId = p.configurationId && run.outcome = .passed &&
  run.commitSha = p.commit && (payload.get "tree_sha").pyEq (.str run.treeSha) &&
  (db.evidenceRecords.get? p.decisionId).any fun decision =>
    decision.taskId = some task.id && decision.validationRunId = some run.id &&
    decision.evidenceType = "validation-decision" &&
    (payload.get "validation_decision_evidence_id").pyEq (.str decision.id.str)

/-- A clean observation of the commit on the host. -/
def observed (run : ValidationRun) (observation : Json) : Bool :=
  (observation.get "head_sha").pyEq (.str p.commit) &&
  (observation.get "tree_sha").pyEq (.str run.treeSha) &&
  (observation.get "clean").bool? = some true

/-- The branch, the remote and the pull request showed the commit. -/
def exactHead (run : ValidationRun) : Bool :=
  (match payload.get "pull_request_content_sha256" with
    | .str s => isSha256 s
    | _ => false) &&
  p.observed run p.before && p.observed run p.pushed &&
  (p.pushed.get "remote_head_sha").pyEq (.str p.commit) && p.observed run p.after &&
  (p.pullRequest.get "head_sha").pyEq (.str p.commit) &&
  (p.pullRequest.get "is_draft").bool? = some true &&
  (p.before.get "branch_name").pyEq (p.pushed.get "branch_name") &&
  (p.before.get "branch_name").pyEq (p.after.get "branch_name") &&
  (p.before.get "branch_name").pyEq (p.pullRequest.get "branch_name")

def holds : Bool :=
  p.matchesTask db task payload &&
  (db.validationRuns.get? p.runId).any (fun run =>
    p.passed db task payload run && p.exactHead payload run) &&
  !humanOrCancelFence db task.id

/-- The facts of a proof that holds. -/
def facts : DraftPrGateFacts where
  currentHeadSha := p.commit
  validationCommitSha := p.commit
  localBranchSha := p.commit
  remoteBranchSha := p.commit
  pullRequestHeadSha := p.commit
  validationPassed := true
  requiredArtifactsPresent := true
  branchClean := true
  pullRequestIsDraft := true
  noUnresolvedApproval := true
  cancellationClear := true

end DraftProof

/-- The guards of one proof. Evidence that does not load is an error. -/
def draftProofGates (rt : Runtime) (db : Database) (proofId : UUID) (task : Task)
    (kind : TaskTransitionKind) : Except EvidenceError TaskTransitionGuards :=
  if kind ≠ .openVerifiedDraftPr then .ok {}
  else match db.evidenceRecords.get? proofId with
  | none => .ok {}
  | some record =>
    if record.taskId ≠ some task.id ∨ record.evidenceType ≠ draftProofEvidenceType then .ok {}
    else do
      let loaded ← loadEvidence rt db record
      match readDraftProof rt.unicode loaded.content with
      | none => return {}
      | some proof =>
        match db.evidenceRecords.get? proof.decisionId with
        | none => return {}
        | some decision => do
          let _ ← loadEvidence rt db decision
          if proof.holds db task loaded.content then return { draftPr := some proof.facts }
          else return {}

/-! ### The latest proof -/

/-- The latest transition that opened a verified draft. -/
def latestOpening (db : Database) (taskId : UUID) : Option TaskEvent :=
  latestBy TaskEvent.sequence <| db.taskEvents.select fun e =>
    e.taskId = taskId && e.transitionKind = some .openVerifiedDraftPr

/-- The proof among the evidence of a transition. -/
def proofOf (db : Database) (transition : TaskEvent) : Option EvidenceRecord :=
  ((db.taskEventEvidenceReferences.filter (·.taskEventId = transition.id)).insertionSort
      fun a b => a.position ≤ b.position).findSome? fun reference =>
    (db.evidenceRecords.get? reference.evidenceId).filter
      (·.evidenceType = draftProofEvidenceType)

/-- The latest proof and, while it holds, its facts. -/
def draftPrFacts (rt : Runtime) (db : Database) (task : Task) :
    Option UUID × Option DraftPrGateFacts :=
  match latestOpening db task.id with
  | none => (none, none)
  | some transition =>
    match proofOf db transition with
    | none => (none, none)
    | some proof =>
      if corrected db proof.id || deletionRequested db proof.id then (some proof.id, none)
      else match draftProofGates rt db proof.id task .openVerifiedDraftPr with
      | .error _ => (some proof.id, none)
      | .ok guards =>
        (some proof.id, guards.draftPr.filter fun facts =>
          transition.gateHeadSha = some facts.currentHeadSha)

/-! ### What the facts say -/

/-- The latest proof is live, uncorrected and matches the task's bindings. -/
structure VerifiedDraft (rt : Runtime) (db : Database) (task : Task) (proofId : UUID)
    (head : String) : Prop where
  proof : ∃ transition record loaded, ∃ proof : DraftProof,
    latestOpening db task.id = some transition ∧ transition.gateHeadSha = some head ∧
    proofOf db transition = some record ∧ record.id = proofId ∧
    loadEvidence rt db record = .ok loaded ∧
    readDraftProof rt.unicode loaded.content = some proof ∧
    proof.holds db task loaded.content = true ∧ proof.commit = head
  uncorrected : corrected db proofId = false
  live : deletionRequested db proofId = false

theorem draftProofGates_ok {rt : Runtime} {db : Database} {proofId : UUID} {task : Task}
    {guards : TaskTransitionGuards} {facts : DraftPrGateFacts}
    (h : draftProofGates rt db proofId task .openVerifiedDraftPr = .ok guards)
    (hfacts : guards.draftPr = some facts) :
    ∃ record loaded, ∃ proof : DraftProof, db.evidenceRecords.get? proofId = some record ∧
      loadEvidence rt db record = .ok loaded ∧
      readDraftProof rt.unicode loaded.content = some proof ∧
      proof.holds db task loaded.content = true ∧ facts = proof.facts := by
  simp only [draftProofGates, ne_eq, not_true, if_false] at h
  split at h
  · cases h
    cases hfacts
  · rename_i record hrecord
    split at h
    · cases h
      cases hfacts
    · simp only [Except.bind_eq_ok] at h
      obtain ⟨loaded, hloaded, h⟩ := h
      split at h
      · cases h
        cases hfacts
      · rename_i proof hproof
        split at h
        · cases h
          cases hfacts
        · simp only [Except.bind_eq_ok] at h
          obtain ⟨_, _, h⟩ := h
          split at h
          · rename_i hholds
            cases h
            exact ⟨record, loaded, proof, hrecord, hloaded, hproof, hholds,
              (Option.some.inj hfacts).symm⟩
          · cases h
            cases hfacts

/-- Facts come from a live proof that holds, with the head the transition verified. -/
theorem draftPrFacts_some {rt : Runtime} {db : Database} {task : Task} {proofId : Option UUID}
    {facts : DraftPrGateFacts} (h : draftPrFacts rt db task = (proofId, some facts)) :
    ∃ id, proofId = some id ∧ VerifiedDraft rt db task id facts.currentHeadSha := by
  unfold draftPrFacts at h
  split at h
  · cases h
  · rename_i transition htransition
    split at h
    · cases h
    · rename_i record hrecord
      split at h
      · cases h
      · rename_i hlive
        split at h
        · cases h
        · rename_i guards hguards
          obtain ⟨rfl, hfilter⟩ := Prod.ext_iff.mp h
          obtain ⟨hfacts, hhead⟩ := Option.filter_eq_some_iff.mp hfilter
          obtain ⟨stored, loaded, proof, hstored, hloaded, hproof, hholds, rfl⟩ :=
            draftProofGates_ok hguards hfacts
          -- The proof was looked up once by its identifier already.
          have hsame : stored = record := by
            obtain ⟨reference, -, hfound⟩ := List.exists_of_findSome?_eq_some hrecord
            obtain ⟨hget, -⟩ := Option.filter_eq_some_iff.mp hfound
            have hkey : record.id = reference.evidenceId := Table.key_of_get? hget
            rw [hkey, hget, Option.some.injEq] at hstored
            exact hstored.symm
          subst hsame
          simp only [Bool.or_eq_true, not_or, Bool.not_eq_true] at hlive
          exact ⟨stored.id, rfl,
            ⟨⟨transition, stored, loaded, proof, htransition, by simpa using hhead, hrecord, rfl,
              hloaded, hproof, hholds, rfl⟩, hlive.1, hlive.2⟩⟩

end ControlPlane
