import ControlPlane.Lib.History
import ControlPlane.Lib.System
import ControlPlane.Task.StateMachine

/-!
# The task lifecycle over whole runs

The lifecycle of one task is what a run leaves in its row and in its history of accepted
transitions. `Edge` is the transition relation the pure engine accepts; the invariant
speaks of the *effective* state, the one an escalated task resumes to, because escalation
and resumption may come between any two steps.
-/
namespace ControlPlane

open History

/-! ### The edges of the engine -/

/-- The plans the engine accepts from a snapshot. -/
inductive Edge (s : TaskTransitionSnapshot) : TaskTransitionPlan → Prop
  | cancel : Edge s
      { fromState := s.state, toState := .cancelled, kind := .cancel,
        terminalOutcome := some .cancelled }
  | fail : Edge s
      { fromState := s.state, toState := .failed, kind := .fail, terminalOutcome := some .failed }
  | escalate (h : s.state ≠ .escalated) : Edge s
      { fromState := s.state, toState := .escalated, kind := .escalate,
        escalationResumeState := some s.state }
  | resume {target : TaskState} (h : s.state = .escalated)
      (hresume : s.escalationResumeState = some target) (hlive : target.isTerminal = false)
      (hne : target ≠ .escalated) : Edge s
      { fromState := s.state, toState := target, kind := .resume }
  | scopeSteer (h : s.state ≠ .escalated) : Edge s
      { fromState := s.state, toState := .briefing, kind := .scopeSteer,
        invalidateScopeBindings := true }
  | startBriefing (h : s.state = .intake) : Edge s
      { fromState := s.state, toState := .briefing, kind := .startBriefing }
  | autoAcceptBrief (h : s.state = .briefing) : Edge s
      { fromState := s.state, toState := .implementing, kind := .autoAcceptBrief }
  | requestBriefApproval (h : s.state = .briefing) : Edge s
      { fromState := s.state, toState := .briefPendingApproval, kind := .requestBriefApproval }
  | reviseBrief (h : s.state = .briefPendingApproval) : Edge s
      { fromState := s.state, toState := .briefing, kind := .reviseBrief }
  | approveExactBrief (h : s.state = .briefPendingApproval) : Edge s
      { fromState := s.state, toState := .implementing, kind := .approveExactBrief }
  | beginValidation (h : s.state = .implementing) : Edge s
      { fromState := s.state, toState := .validating, kind := .beginValidation }
  | beginRepair (h : s.state = .validating ∨ s.state = .prActive) : Edge s
      { fromState := s.state, toState := .repairing, kind := .beginRepair, retryDelta := 1 }
  | revalidate (h : s.state = .repairing) : Edge s
      { fromState := s.state, toState := .validating, kind := .revalidate }
  | openVerifiedDraftPr (head : GitSha) (h : s.state = .validating) : Edge s
      { fromState := s.state, toState := .prActive, kind := .openVerifiedDraftPr,
        gateHeadSha := some head }
  | markMergeReady (head : GitSha) (h : s.state = .prActive)
      (hhead : s.verifiedPrHeadSha = some head) : Edge s
      { fromState := s.state, toState := .readyForHumanMerge, kind := .markMergeReady,
        gateHeadSha := some head }
  | invalidateReadiness (h : s.state = .readyForHumanMerge) : Edge s
      { fromState := s.state, toState := .prActive, kind := .invalidateReadiness }
  | acknowledgeHandoff (head : GitSha) (h : s.state = .readyForHumanMerge)
      (hhead : s.verifiedPrHeadSha = some head) : Edge s
      { fromState := s.state, toState := .handedOff, kind := .acknowledgeHandoff,
        terminalOutcome := some .automationHandedOff, gateHeadSha := some head }

theorem readinessHead_ok {rt : Runtime} {s : TaskTransitionSnapshot} {facts : ReadinessGateFacts}
    {head : GitSha} (h : readinessHead rt s facts = .ok head) :
    s.verifiedPrHeadSha = some head := by
  simp only [readinessHead, Except.bind_eq_ok, Except.require_eq_ok, Except.pure_eq_ok] at h
  obtain ⟨_, _, _, ⟨hhead, _⟩, rfl⟩ := h
  exact hhead

/-- A plan is of the kind that was asked for. -/
theorem kind_of_evaluate {rt : Runtime} {s : TaskTransitionSnapshot} {kind : TaskTransitionKind}
    {guards : TaskTransitionGuards} {plan : TaskTransitionPlan}
    (h : evaluateTaskTransition rt s kind guards = .ok plan) : plan.kind = kind := by
  unfold evaluateTaskTransition at h
  dsimp only at h
  split at h
  · cases h
  · split at h
    · rw [Except.ok.injEq] at h
      rw [← h]
    · rw [Except.ok.injEq] at h
      rw [← h]
    · simp only [Except.ite_error_eq_ok, Except.ok.injEq] at h
      rw [← h.2]
    · split at h
      · simp only [Except.ite_error_eq_ok, Except.ok.injEq] at h
        rw [← h.2]
      · cases h
    · simp only [Except.ite_error_eq_ok, Except.ok.injEq] at h
      rw [← h.2]
    · simp only [Except.bind_eq_ok, Except.pure_eq_ok] at h
      obtain ⟨_, -, _, -, h⟩ := h
      rw [← h]

/-- Every accepted plan is an edge out of a state that is not terminal. -/
theorem edge_of_evaluate {rt : Runtime} {s : TaskTransitionSnapshot} {kind : TaskTransitionKind}
    {guards : TaskTransitionGuards} {plan : TaskTransitionPlan}
    (h : evaluateTaskTransition rt s kind guards = .ok plan) :
    s.state.isTerminal = false ∧ Edge s plan := by
  unfold evaluateTaskTransition at h
  cases hterminal : s.state.isTerminal with
  | true => simp [hterminal] at h
  | false =>
    refine ⟨rfl, ?_⟩
    simp only [hterminal, Bool.false_eq_true, if_false] at h
    cases kind <;> simp only [edge, gateHead, Except.ite_error_eq_ok, Except.bind_eq_ok,
      Except.require_eq_ok, Except.orThrow_eq_ok, Except.pure_eq_ok, Except.ok.injEq,
      Bool.and_eq_true, Bool.or_eq_true, decide_eq_true_eq, reduceCtorEq, if_false, if_true] at h
    case cancel => exact h ▸ .cancel
    case fail => exact h ▸ .fail
    case escalate => exact h.2 ▸ .escalate h.1
    case resume =>
      cases hresume : s.escalationResumeState with
      | none => simp [hresume] at h
      | some target =>
        simp only [hresume, Except.ite_error_eq_ok, Except.ok.injEq, not_or, not_not,
          Bool.not_eq_true] at h
        obtain ⟨⟨hstate, hlive, hne, -⟩, rfl⟩ := h
        exact .resume hstate hresume hlive hne
    case scopeSteer =>
      obtain ⟨hguard, rfl⟩ := h
      exact .scopeSteer fun hstate => hguard (.inl hstate)
    case startBriefing =>
      obtain ⟨_, hstate, _, rfl, rfl⟩ := h
      exact .startBriefing hstate
    case autoAcceptBrief =>
      obtain ⟨_, ⟨hstate, -⟩, _, rfl, rfl⟩ := h
      exact .autoAcceptBrief hstate
    case requestBriefApproval =>
      obtain ⟨_, ⟨hstate, -⟩, _, rfl, rfl⟩ := h
      exact .requestBriefApproval hstate
    case reviseBrief =>
      obtain ⟨_, ⟨hstate, -⟩, _, rfl, rfl⟩ := h
      exact .reviseBrief hstate
    case approveExactBrief =>
      obtain ⟨_, ⟨hstate, -⟩, _, rfl, rfl⟩ := h
      exact .approveExactBrief hstate
    case beginValidation =>
      obtain ⟨_, hstate, _, rfl, rfl⟩ := h
      exact .beginValidation hstate
    case beginRepair =>
      obtain ⟨_, ⟨hstate, -⟩, _, rfl, rfl⟩ := h
      exact .beginRepair hstate
    case revalidate =>
      obtain ⟨_, hstate, _, rfl, rfl⟩ := h
      exact .revalidate hstate
    case openVerifiedDraftPr =>
      obtain ⟨_, ⟨hstate, -⟩, _, ⟨_, -, head, -, rfl⟩, rfl⟩ := h
      exact .openVerifiedDraftPr head hstate
    case markMergeReady =>
      obtain ⟨_, ⟨hstate, -⟩, _, ⟨_, -, head, hhead, rfl⟩, rfl⟩ := h
      exact .markMergeReady head hstate (readinessHead_ok hhead)
    case invalidateReadiness =>
      obtain ⟨_, ⟨hstate, -⟩, _, rfl, rfl⟩ := h
      exact .invalidateReadiness hstate
    case acknowledgeHandoff =>
      obtain ⟨_, ⟨⟨hstate, -⟩, -⟩, _, ⟨_, -, head, hhead, rfl⟩, rfl⟩ := h
      exact .acknowledgeHandoff head hstate (readinessHead_ok hhead)

/-! ### The abstract lifecycle -/

/-- What a run leaves of a task: the lifecycle columns of its row, and the accepted
transitions in order. -/
structure Lifecycle where
  state : TaskState := .intake
  resumeState : Option TaskState := none
  outcome : Option TaskTerminalOutcome := none
  retries : ℕ := 0
  history : List TaskEvent := []

/-- The head of the last event that carries one. -/
def lastHead (history : List TaskEvent) : Option String :=
  (history.filter (·.gateHeadSha.isSome)).getLast?.bind TaskEvent.gateHeadSha

/-- An event records a plan. -/
structure TaskEvent.Records (e : TaskEvent) (plan : TaskTransitionPlan) : Prop where
  kind : e.transitionKind = some plan.kind
  fromState : e.transitionFromState = some plan.fromState
  toState : e.transitionToState = some plan.toState
  head : e.gateHeadSha = plan.gateHeadSha.map GitSha.val

namespace Lifecycle

/-- The lifecycle after an accepted transition. -/
def advance (l : Lifecycle) (plan : TaskTransitionPlan) (e : TaskEvent) : Lifecycle where
  state := plan.toState
  resumeState := plan.escalationResumeState
  outcome := plan.terminalOutcome
  retries := l.retries + plan.retryDelta
  history := l.history ++ [e]

/-- One accepted transition. -/
def Step (l l' : Lifecycle) : Prop :=
  ∃ (verified : Option GitSha) (plan : TaskTransitionPlan) (e : TaskEvent),
    verified.map GitSha.val = lastHead l.history ∧ l.state.isTerminal = false ∧
    Edge ⟨l.state, l.resumeState, verified⟩ plan ∧ e.Records plan ∧
    (∀ a ∈ l.history, a.sequence < e.sequence) ∧ l' = l.advance plan e

def machine : TransitionSystem Lifecycle := ⟨fun l => l = {}, Step⟩

/-- The state a task is in, or will be in once it is resumed. -/
def effective (l : Lifecycle) : TaskState := l.resumeState.getD l.state

end Lifecycle

/-! ### Progress towards a handoff -/

def entersBriefing (e : TaskEvent) : Bool := e.transitionToState = some .briefing
def entersValidating (e : TaskEvent) : Bool := e.transitionToState = some .validating

/-- A brief was accepted, by policy or by a human. -/
def acceptsBrief (e : TaskEvent) : Prop :=
  e.transitionKind = some .autoAcceptBrief ∨ e.transitionKind = some .approveExactBrief

/-- An event of a kind that carries a head. -/
def carries (kind : TaskTransitionKind) (head : GitSha) (e : TaskEvent) : Prop :=
  e.transitionKind = some kind ∧ e.gateHeadSha = some head.val

/-- The events since the last entry into briefing. -/
def sinceBriefing (history : List TaskEvent) : List TaskEvent := since entersBriefing history

/-- Those of them after the latest entry into validating. -/
def sinceValidating (history : List TaskEvent) : List TaskEvent :=
  since entersValidating (sinceBriefing history)

/-- Those of them up to that entry. -/
def upToValidating (history : List TaskEvent) : List TaskEvent :=
  upTo entersValidating (sinceBriefing history)

/-- The steps of a handoff on one head. -/
def handoffSteps (head : GitSha) : List (TaskEvent → Prop) :=
  [carries .openVerifiedDraftPr head, carries .markMergeReady head,
    carries .acknowledgeHandoff head]

/-- How far towards a handoff a state is. -/
def TaskState.stage : TaskState → ℕ
  | implementing | repairing => 1
  | validating => 2
  | prActive => 3
  | readyForHumanMerge => 4
  | handedOff => 5
  | _ => 0

/-- What the history must contain for a stage to be reached. -/
structure Progress (stage : ℕ) (history : List TaskEvent) : Prop where
  accepted : 1 ≤ stage → InOrder [acceptsBrief] (sinceBriefing history)
  validated : 2 ≤ stage →
    InOrder [acceptsBrief, fun e => entersValidating e = true] (upToValidating history)
  gated : 3 ≤ stage → ∃ head : GitSha, lastHead history = some head.val ∧
    InOrder ((handoffSteps head).take (stage - 2)) (sinceValidating history)

/-- The invariant of the lifecycle. -/
structure Lifecycle.Invariant (l : Lifecycle) : Prop where
  escalated_iff : l.state = .escalated ↔ l.resumeState.isSome
  resume_live : ∀ r ∈ l.resumeState, r.isTerminal = false ∧ r ≠ .escalated
  outcome_iff : l.outcome.isSome ↔ l.state.isTerminal
  increasing : Increasing TaskEvent.sequence l.history
  heads_valid : ∀ e ∈ l.history, ∀ v ∈ e.gateHeadSha, IsGitSha v
  linked : Linked TaskEvent.transitionFromState TaskEvent.transitionToState l.history
  ends : ∀ e ∈ l.history.getLast?, e.transitionToState = some l.state
  retries_eq : l.retries = l.history.countP fun e => e.transitionKind = some .beginRepair
  live_before : l.history.Pairwise fun e _ => ∀ s ∈ e.transitionToState, s.isTerminal = false
  progress : Progress l.effective.stage l.history

/-! ### What the edges preserve -/

section Edges
variable {s : TaskTransitionSnapshot} {plan : TaskTransitionPlan}

theorem Edge.fromState_eq (h : Edge s plan) : plan.fromState = s.state := by
  cases h <;> rfl

theorem Edge.retryDelta_eq (h : Edge s plan) :
    plan.retryDelta = if plan.kind = .beginRepair then 1 else 0 := by
  cases h <;> rfl

theorem Edge.outcome_iff (h : Edge s plan) :
    plan.terminalOutcome.isSome ↔ plan.toState.isTerminal := by
  cases h <;> simp_all [TaskState.isTerminal]

theorem Edge.escalated_iff (h : Edge s plan) :
    plan.toState = .escalated ↔ plan.escalationResumeState.isSome := by
  cases h <;> simp_all

theorem Edge.resume_live (h : Edge s plan) (hs : s.state.isTerminal = false) :
    ∀ r ∈ plan.escalationResumeState, r.isTerminal = false ∧ r ≠ .escalated := by
  cases h <;> simp_all

end Edges

/-! ### Progress -/

section Progress
variable {n m : ℕ} {history : List TaskEvent} {e : TaskEvent}

@[simp] theorem lastHead_concat_some {v : String} (h : e.gateHeadSha = some v) :
    lastHead (history ++ [e]) = some v := by
  simp [lastHead, h]

@[simp] theorem lastHead_concat_none (h : e.gateHeadSha = none) :
    lastHead (history ++ [e]) = lastHead history := by
  simp [lastHead, h]

theorem Progress.zero (history : List TaskEvent) : Progress 0 history :=
  ⟨fun h => absurd h (by decide), fun h => absurd h (by decide), fun h => absurd h (by decide)⟩

theorem InOrder.take {ps : List (TaskEvent → Prop)} {es : List TaskEvent} {i j : ℕ} (hij : i ≤ j)
    (h : InOrder (ps.take j) es) : InOrder (ps.take i) es := by
  obtain ⟨sub, hsub, hall⟩ := h
  refine ⟨sub.take i, (List.take_sublist i sub).trans hsub, ?_⟩
  have := List.forall₂_take i hall
  rwa [List.take_take, min_eq_left hij] at this

/-- An event that enters neither briefing nor validating and carries no head keeps every
stage up to the one reached. -/
theorem Progress.neutral (h : Progress n history) (hm : m ≤ n) (hb : entersBriefing e = false)
    (hv : entersValidating e = false) (hgate : e.gateHeadSha = none) :
    Progress m (history ++ [e]) where
  accepted h1 := by
    rw [sinceBriefing, since_concat_of_neg hb]
    exact (h.accepted (h1.trans hm)).concat e
  validated h2 := by
    rw [upToValidating, sinceBriefing, since_concat_of_neg hb, upTo_concat_of_neg hv]
    exact h.validated (h2.trans hm)
  gated h3 := by
    obtain ⟨head, hhead, hsteps⟩ := h.gated (h3.trans hm)
    refine ⟨head, by rw [lastHead_concat_none hgate, hhead], ?_⟩
    rw [sinceValidating, sinceBriefing, since_concat_of_neg hb, since_concat_of_neg hv]
    exact (InOrder.take (Nat.sub_le_sub_right hm 2) hsteps).concat e

/-- Acceptance of a brief reaches the first stage. -/
theorem Progress.accept (history : List TaskEvent) (hb : entersBriefing e = false)
    (he : acceptsBrief e) : Progress 1 (history ++ [e]) where
  accepted _ := by
    rw [sinceBriefing, since_concat_of_neg hb]
    exact .singleton he
  validated h := absurd h (by decide)
  gated h := absurd h (by decide)

/-- An entry into validating after an acceptance reaches the second stage. -/
theorem Progress.validate (h : Progress n history) (hn : 1 ≤ n) (hb : entersBriefing e = false)
    (hv : entersValidating e = true) : Progress 2 (history ++ [e]) where
  accepted _ := by
    rw [sinceBriefing, since_concat_of_neg hb]
    exact (h.accepted hn).concat e
  validated _ := by
    rw [upToValidating, sinceBriefing, since_concat_of_neg hb, upTo_concat_of_pos hv]
    exact (h.accepted hn).snoc hv
  gated h := absurd h (by decide)

/-- The next step of a handoff, on the head of the one before. -/
theorem Progress.gate {head : GitSha} {p : TaskEvent → Prop} (h : Progress n history)
    (hn : 2 ≤ n) (hb : entersBriefing e = false) (hv : entersValidating e = false)
    (hgate : e.gateHeadSha = some head.val)
    (hsame : 3 ≤ n → lastHead history = some head.val)
    (hsteps : (handoffSteps head).take (n + 1 - 2) = (handoffSteps head).take (n - 2) ++ [p])
    (hp : p e) : Progress (n + 1) (history ++ [e]) where
  accepted _ := by
    rw [sinceBriefing, since_concat_of_neg hb]
    exact (h.accepted (by omega)).concat e
  validated _ := by
    rw [upToValidating, sinceBriefing, since_concat_of_neg hb, upTo_concat_of_neg hv]
    exact h.validated hn
  gated _ := by
    refine ⟨head, lastHead_concat_some hgate, ?_⟩
    rw [sinceValidating, sinceBriefing, since_concat_of_neg hb, since_concat_of_neg hv, hsteps]
    refine InOrder.snoc ?_ hp
    by_cases h3 : 3 ≤ n
    · obtain ⟨head', hhead', hsteps'⟩ := h.gated h3
      have hval : head'.val = head.val := Option.some.inj (hhead'.symm.trans (hsame h3))
      obtain rfl : head' = head := by
        cases head
        cases head'
        simpa using hval
      exact hsteps'
    · obtain rfl : n = 2 := by omega
      exact ⟨[], List.nil_sublist _, .nil⟩

end Progress

/-! ### The invariant holds over every run -/

namespace Lifecycle
variable {l l' : Lifecycle}

theorem Invariant.init : Invariant {} where
  escalated_iff := by simp
  resume_live := by simp
  outcome_iff := by simp [TaskState.isTerminal]
  increasing := List.Pairwise.nil
  heads_valid := by simp
  linked := List.IsChain.nil
  ends := by simp
  retries_eq := rfl
  live_before := by simp
  progress := .zero []

/-- Outside escalation the effective state is the state. -/
theorem Invariant.effective_eq (h : Invariant l) (hne : l.state ≠ .escalated) :
    l.effective = l.state := by
  cases hresume : l.resumeState with
  | none => simp [effective, hresume]
  | some r => exact absurd (h.escalated_iff.mpr (by simp [hresume])) hne

/-- Progress along one edge: one case for each way the engine can move a task. -/
theorem Invariant.progress_advance (h : Invariant l) {verified : Option GitSha}
    {plan : TaskTransitionPlan} {e : TaskEvent}
    (hverified : verified.map GitSha.val = lastHead l.history)
    (hedge : Edge ⟨l.state, l.resumeState, verified⟩ plan) (he : e.Records plan) :
    Progress (l.advance plan e).effective.stage (l.history ++ [e]) := by
  have hp := h.progress
  have hb : entersBriefing e = decide (plan.toState = .briefing) := by
    simp [entersBriefing, he.toState]
  have hv : entersValidating e = decide (plan.toState = .validating) := by
    simp [entersValidating, he.toState]
  have hhead : ∀ head, verified = some head → lastHead l.history = some head.val := by
    rintro head rfl
    exact hverified.symm
  have heff := h.effective_eq
  have hgate := he.head
  cases hedge with
  | cancel | fail | scopeSteer | startBriefing | requestBriefApproval | reviseBrief =>
    exact .zero _
  | escalate hstate =>
    rw [heff hstate] at hp
    exact hp.neutral le_rfl hb hv hgate
  | @resume target hstate hresume hlive hne =>
    have hn : l.effective = target := by simp only [effective] at hresume ⊢; simp [hresume]
    rw [hn] at hp
    by_cases htb : target = .briefing
    · subst htb
      exact .zero _
    · by_cases htv : target = .validating
      · subst htv
        exact hp.validate (by decide) hb hv
      · exact hp.neutral le_rfl (hb.trans (by simp [htb])) (hv.trans (by simp [htv])) hgate
  | autoAcceptBrief hstate => exact .accept _ hb (.inl he.kind)
  | approveExactBrief hstate => exact .accept _ hb (.inr he.kind)
  | beginValidation hstate | revalidate hstate =>
    have hn : l.effective.stage = 1 := by
      rw [heff (by simp_all)]
      simp_all [TaskState.stage]
    exact (hn ▸ hp).validate le_rfl hb hv
  | beginRepair hstate =>
    have hn : 1 ≤ l.effective.stage := by
      rcases hstate with hstate | hstate <;> rw [heff (by simp_all)] <;>
        simp_all [TaskState.stage]
    exact hp.neutral hn hb hv hgate
  | openVerifiedDraftPr head hstate =>
    have hn : l.effective.stage = 2 := by
      rw [heff (by simp_all)]
      simp_all [TaskState.stage]
    exact (hn ▸ hp).gate le_rfl hb hv hgate (fun h => absurd h (by decide)) rfl ⟨he.kind, hgate⟩
  | markMergeReady head hstate hsame =>
    have hn : l.effective.stage = 3 := by
      rw [heff (by simp_all)]
      simp_all [TaskState.stage]
    exact (hn ▸ hp).gate (by decide) hb hv hgate (fun _ => hhead head hsame) rfl ⟨he.kind, hgate⟩
  | invalidateReadiness hstate =>
    have hn : l.effective.stage = 4 := by
      rw [heff (by simp_all)]
      simp_all [TaskState.stage]
    exact (hn ▸ hp).neutral (m := 3) (by decide) hb hv hgate
  | acknowledgeHandoff head hstate hsame =>
    have hn : l.effective.stage = 4 := by
      rw [heff (by simp_all)]
      simp_all [TaskState.stage]
    exact (hn ▸ hp).gate (by decide) hb hv hgate (fun _ => hhead head hsame) rfl ⟨he.kind, hgate⟩

theorem Invariant.step (h : Invariant l) (hstep : Step l l') : Invariant l' := by
  obtain ⟨verified, plan, e, hverified, hlive, hedge, he, hseq, rfl⟩ := hstep
  refine
    { escalated_iff := hedge.escalated_iff
      resume_live := hedge.resume_live hlive
      outcome_iff := hedge.outcome_iff
      increasing := h.increasing.concat hseq
      heads_valid := ?_
      linked := ?_
      ends := ?_
      retries_eq := ?_
      live_before := ?_
      progress := h.progress_advance hverified hedge he }
  · intro a ha v hv
    rcases List.mem_append.mp ha with ha | ha
    · exact h.heads_valid a ha v hv
    · obtain rfl := List.mem_singleton.mp ha
      rw [he.head] at hv
      obtain ⟨head, -, rfl⟩ := Option.mem_map.mp hv
      exact head.valid
  · refine h.linked.concat fun a ha => ?_
    rw [h.ends a ha, he.fromState, hedge.fromState_eq]
  · simp [advance, he.toState]
  · have hcount := hedge.retryDelta_eq
    simp only [advance, List.countP_append, List.countP_singleton, he.kind, h.retries_eq, hcount,
      Option.some.injEq, decide_eq_true_eq]
  · refine List.pairwise_append.mpr ⟨h.live_before, List.pairwise_singleton _ _, ?_⟩
    intro a ha _ _ s hs
    rcases List.eq_nil_or_concat l.history with hnil | ⟨init, last, hconcat⟩
    · simp [hnil] at ha
    · rw [List.concat_eq_append] at hconcat
      have hbefore := h.live_before
      rw [hconcat, List.pairwise_append] at hbefore
      rw [hconcat, List.mem_append, List.mem_singleton] at ha
      rcases ha with ha | rfl
      · exact hbefore.2.2 a ha last (List.mem_singleton_self last) s hs
      · have hend := h.ends a (by simp [hconcat])
        obtain rfl : s = l.state := Option.some.inj (hs.symm.trans hend)
        exact hlive

/-- Every reachable lifecycle satisfies the invariant. -/
theorem invariant_of_reachable (h : machine.Reachable l) : Invariant l :=
  h.invariant (fun _ h => h ▸ .init) fun _ _ h hstep => h.step hstep

end Lifecycle

/-! ### The service refines the lifecycle -/

/-- The lifecycle of a task with a history. -/
def Task.lifecycle (task : Task) (history : List TaskEvent) : Lifecycle :=
  ⟨task.state, task.escalationResumeState, task.terminalOutcome, task.retryCount, history⟩

/-- The store holds a task with a lifecycle. -/
def HasLifecycle (taskId : UUID) (db : Database) (l : Lifecycle) : Prop :=
  ∃ task, db.tasks.get? taskId = some task ∧ l = task.lifecycle (transitionsOf db taskId)

/-- A write of any other service: it leaves the lifecycle columns of the task and its
transition events alone, and may do anything else. -/
def LeavesLifecycle (taskId : UUID) (db db' : Database) : Prop :=
  ∀ l, HasLifecycle taskId db l → HasLifecycle taskId db' l

/-- Runs in which transitions of any task are accepted, from a fresh task. -/
def taskLifecycle (rt : Runtime) (taskId : UUID) : TransitionSystem Database where
  init db := HasLifecycle taskId db {}
  step db db' :=
    (∃ c result, TaskTransitionService.transition rt db c = .ok (result, db')) ∨
    LeavesLifecycle taskId db db'

section Refinement
variable {rt : Runtime} {taskId : UUID} {db db' : Database} {c : TaskTransitionCommand}

/-- The query for the verified head returns the head of the last event that carries one. -/
theorem latestVerifiedPrHead_ok {head : Option GitSha}
    (hinc : Increasing TaskEvent.sequence (transitionsOf db taskId))
    (hvalid : ∀ e ∈ transitionsOf db taskId, ∀ v ∈ e.gateHeadSha, IsGitSha v)
    (h : latestVerifiedPrHead rt db taskId = .ok head) :
    head.map GitSha.val = lastHead (transitionsOf db taskId) := by
  have hhead : ((transitionsOf db taskId).filter (·.gateHeadSha.isSome)).getLast?.bind
      TaskEvent.gateHeadSha = lastHead (transitionsOf db taskId) := rfl
  simp only [latestVerifiedPrHead, (hinc.filter _).latestBy_eq_getLast?, hhead] at h
  cases hlast : lastHead (transitionsOf db taskId) with
  | none =>
    rw [hlast] at h
    obtain rfl := Except.ok.inj h
    rfl
  | some value =>
    obtain ⟨e, he, hvalue⟩ := Option.bind_eq_some_iff.mp hlast
    have hmem : e ∈ transitionsOf db taskId :=
      List.mem_of_mem_filter (List.mem_of_mem_getLast? he)
    have hsha : IsGitSha value := hvalid e hmem value hvalue
    rw [hlast] at h
    simp only [normalizedGitSha_of_valid rt hsha, Except.map, Except.relabel_eq_ok,
      Except.ok.injEq] at h
    rw [← h]
    rfl

theorem Acceptance.event_records (a : Acceptance rt db c) : a.event.Records a.plan :=
  ⟨rfl, rfl, rfl, rfl⟩

theorem Acceptance.sequence_lt (a : Acceptance rt db c) :
    ∀ e ∈ transitionsOf db c.taskId, e.sequence < a.event.sequence := by
  intro e he
  simp only [transitionsOf, Table.select, List.mem_filter, Bool.and_eq_true, decide_eq_true_eq]
    at he
  have hmem : e ∈ taskEventsOf db a.task.id := by
    simp only [taskEventsOf, Table.select, List.mem_filter, decide_eq_true_eq]
    exact ⟨he.1, he.2.1.trans a.task_id.symm⟩
  exact Nat.lt_succ_of_le (le_maxRank hmem)

theorem Acceptance.transitionsOf_after (a : Acceptance rt db c) :
    transitionsOf a.after taskId =
      transitionsOf db taskId ++ if c.taskId = taskId then [a.event] else [] := by
  have hid : a.event.taskId = c.taskId := a.task_id
  have htype : a.event.eventType = taskTransitionEventType := rfl
  simp only [transitionsOf, Table.select, a.rows_after, List.filter_append]
  by_cases h : c.taskId = taskId <;> simp [hid, htype, h]

theorem Acceptance.get?_after (a : Acceptance rt db c) :
    a.after.tasks.get? taskId =
      if c.taskId = taskId then some (a.task.apply a.plan a.event.id)
      else db.tasks.get? taskId := by
  have hkey : key (a.task.apply a.plan a.event.id) = c.taskId := by
    rw [← a.task_id]
    simp only [Task.apply, key]
    split <;> rfl
  simp only [Acceptance.after, Table.get?_set, hkey]
  by_cases h : c.taskId = taskId
  · subst h
    simp [a.task_eq]
  · simp [h]

theorem Task.lifecycle_apply (task : Task) (plan : TaskTransitionPlan) (eventId : UUID)
    (history : List TaskEvent) (e : TaskEvent) :
    (task.apply plan eventId).lifecycle (history ++ [e]) =
      (task.lifecycle history).advance plan e := by
  simp only [Task.apply, Task.lifecycle, Lifecycle.advance]
  split <;> rfl

/-- An accepted transition is a step of the lifecycle, or concerns another task. -/
theorem Acceptance.refines (a : Acceptance rt db c) {l : Lifecycle} (hl : HasLifecycle taskId db l)
    (hinv : l.Invariant) : ∃ l', Relation.ReflTransGen Lifecycle.Step l l' ∧
      HasLifecycle taskId a.after l' := by
  obtain ⟨task, htask, rfl⟩ := hl
  by_cases h : c.taskId = taskId
  · subst h
    obtain rfl : a.task = task := Option.some.inj (a.task_eq.symm.trans htask)
    have hhead : a.head.map GitSha.val = lastHead (transitionsOf db c.taskId) :=
      latestVerifiedPrHead_ok hinv.increasing hinv.heads_valid (a.task_id ▸ a.head_eq)
    obtain ⟨hlive, hedge⟩ := edge_of_evaluate a.plan_eq
    refine ⟨_, .single ⟨a.head, a.plan, a.event, hhead, hlive, hedge, a.event_records,
      a.sequence_lt, rfl⟩, _, by rw [a.get?_after, if_pos rfl], ?_⟩
    rw [a.transitionsOf_after, if_pos rfl, Task.lifecycle_apply]
  · refine ⟨_, .refl, task, by rw [a.get?_after, if_neg h, htask], ?_⟩
    rw [a.transitionsOf_after, if_neg h, List.append_nil]

/-- The service, with whatever else writes to the store, refines the lifecycle. -/
theorem taskLifecycle_simulates (rt : Runtime) (taskId : UUID) :
    (taskLifecycle rt taskId).Simulates Lifecycle.machine (HasLifecycle taskId) where
  init db h := ⟨{}, rfl, h⟩
  step db db' l _ hreach hl hstep := by
    rcases hstep with ⟨c, result, h⟩ | h
    · rcases TaskTransitionService.transition_ok h with rfl | ⟨a, rfl⟩
      · exact ⟨l, .refl, hl⟩
      · exact a.refines hl (Lifecycle.invariant_of_reachable hreach)
    · exact ⟨l, .refl, h l hl⟩

/-- In every reachable store the lifecycle of the task satisfies the invariant. -/
theorem lifecycle_invariant (h : (taskLifecycle rt taskId).Reachable db) {task : Task}
    (htask : db.tasks.get? taskId = some task) :
    (task.lifecycle (transitionsOf db taskId)).Invariant := by
  obtain ⟨l, hreach, task', htask', rfl⟩ := (taskLifecycle_simulates rt taskId).reachable h
  obtain rfl : task = task' := Option.some.inj (htask.symm.trans htask')
  exact Lifecycle.invariant_of_reachable hreach

end Refinement

/-! ### Handoffs -/

/-- On one head: since the last entry into briefing a brief was accepted and validating
entered, and after the latest such entry a verified draft was opened, marked ready and
acknowledged, in this order. -/
def VerifiedHandoff (history : List TaskEvent) : Prop :=
  ∃ head : GitSha,
    InOrder [acceptsBrief, fun e => entersValidating e = true] (upToValidating history) ∧
    InOrder (handoffSteps head) (sinceValidating history)

/-- The two parts a verified handoff looks at make up the events since briefing. -/
theorem upToValidating_append (history : List TaskEvent) :
    upToValidating history ++ sinceValidating history = sinceBriefing history :=
  upTo_append_since entersValidating (sinceBriefing history)

theorem lifecycle_of_run {rt : Runtime} {taskId : UUID} {db : Database} {task : Task}
    (h : (taskLifecycle rt taskId).Reachable db) (htask : db.tasks.get? taskId = some task) :
    (task.state = .handedOff → VerifiedHandoff (transitionsOf db taskId)) ∧
    (task.state = .escalated ↔ ∃ r, task.escalationResumeState = some r) ∧
    (∀ r, task.escalationResumeState = some r → r.isTerminal = false ∧ r ≠ .escalated) ∧
    (task.terminalOutcome.isSome ↔ task.state.isTerminal) ∧
    Increasing TaskEvent.sequence (transitionsOf db taskId) ∧
    Linked TaskEvent.transitionFromState TaskEvent.transitionToState (transitionsOf db taskId) ∧
    task.retryCount =
      (transitionsOf db taskId).countP (fun e => e.transitionKind = some .beginRepair) ∧
    (transitionsOf db taskId).Pairwise
      (fun e _ => ∀ s, e.transitionToState = some s → s.isTerminal = false) := by
  have hinv := lifecycle_invariant h htask
  refine ⟨fun hstate => ?_, ?_, hinv.resume_live, hinv.outcome_iff, hinv.increasing, hinv.linked,
    hinv.retries_eq, hinv.live_before⟩
  · have heff : (task.lifecycle (transitionsOf db taskId)).effective = .handedOff := by
      rw [hinv.effective_eq (by simp [Task.lifecycle, hstate])]
      exact hstate
    have hprogress := hinv.progress
    rw [heff] at hprogress
    obtain ⟨head, -, hsteps⟩ := hprogress.gated (by decide)
    exact ⟨head, hprogress.validated (by decide), hsteps⟩
  · rw [← Option.isSome_iff_exists]
    exact hinv.escalated_iff

/-- Commands accepted one after another. -/
def TaskTransitionService.transitions (rt : Runtime) (db : Database)
    (cs : List TaskTransitionCommand) : Except TaskTransitionError Database :=
  cs.foldlM (fun db c => (TaskTransitionService.transition rt db c).map Prod.snd) db

theorem reachable_of_transitions {rt : Runtime} {taskId : UUID} (cs : List TaskTransitionCommand)
    {db db' : Database} (hdb : (taskLifecycle rt taskId).Reachable db)
    (h : TaskTransitionService.transitions rt db cs = .ok db') :
    (taskLifecycle rt taskId).Reachable db' := by
  induction cs generalizing db with
  | nil => exact Except.ok.inj h ▸ hdb
  | cons c cs ih =>
    simp only [TaskTransitionService.transitions, List.foldlM_cons, Except.bind_eq_ok] at h
    obtain ⟨db₁, h₁, h⟩ := h
    cases hc : TaskTransitionService.transition rt db c with
    | error e => simp [hc, Except.map] at h₁
    | ok r =>
      obtain rfl : r.2 = db₁ := by simpa [hc, Except.map] using h₁
      exact ih (hdb.tail (.inl ⟨c, r.1, hc⟩)) h

/-- A run of transitions that leaves a task in some state. -/
theorem reachable_of_state {rt : Runtime} {taskId : UUID} {cs : List TaskTransitionCommand}
    {db : Database} {state : TaskState} (hdb : (taskLifecycle rt taskId).Reachable db)
    (h : (((TaskTransitionService.transitions rt db cs).toOption.bind fun db =>
      db.tasks.get? taskId).map Task.state) = some state) :
    ∃ db' task, (taskLifecycle rt taskId).Reachable db' ∧ db'.tasks.get? taskId = some task ∧
      task.state = state := by
  obtain ⟨task, hbind, hstate⟩ := Option.map_eq_some_iff.mp h
  obtain ⟨db', hrun, htask⟩ := Option.bind_eq_some_iff.mp hbind
  exact ⟨db', task, reachable_of_transitions cs hdb (Except.ok_of_toOption hrun), htask, hstate⟩

/-! ### A handoff on a concrete store -/

namespace HandoffExample

def head : GitSha := ⟨String.ofList (List.replicate 40 '0'), by decide⟩

def task : Task where
  id := .ofNat 1
  repository := "owner/app"
  ownerId := "owner"
  rootCorrelationId := .ofNat 7

def evidence : EvidenceEnvelope where
  evidenceId := .ofNat 2
  sourceKind := .result
  evidenceType := "gate"
  origin := "control-plane"
  capturedAt := 0
  taskId := some task.id
  validationRunId := none
  ownerId := task.ownerId
  actorId := "cp"
  rootCorrelationId := task.rootCorrelationId
  causationId := none
  parentCorrelationId := none
  correctionOfId := none
  accessClassification := .taskOwner
  retentionPolicy := .audit
  mediaType := .json
  redactionManifest := []
  contentHash := digest .plain (Runtime.plain.dumps .null)
  content := .null

def policy : PolicyVersion where
  id := .ofNat 3
  lineageKey := "mvp"
  version := 1
  workflowThresholds := .obj []
  approvedAt := 0
  ownerId := task.ownerId

def store : Database where
  tasks := ⟨[task], by simp⟩
  policyVersions := ⟨[policy], by simp⟩
  evidenceRecords := ⟨[evidence.record .plain], by simp⟩

/-- Every gate of the shortest path is satisfied on one head. -/
def gates : TaskTransitionGuards :=
  let draftPr : DraftPrGateFacts :=
    { currentHeadSha := head.val, validationCommitSha := head.val, localBranchSha := head.val
      remoteBranchSha := head.val, pullRequestHeadSha := head.val, validationPassed := true
      requiredArtifactsPresent := true, branchClean := true, pullRequestIsDraft := true
      noUnresolvedApproval := true, cancellationClear := true }
  { briefPolicyBypassAuthorized := true, draftPr := some draftPr
    readiness := some ⟨draftPr, true, true, true⟩, humanHandoffAcknowledged := true }

def command (n : ℕ) (expectedState : TaskState) (kind : TaskTransitionKind) :
    TaskTransitionCommand where
  taskId := task.id
  transitionId := .ofNat (10 + n)
  expectedState := expectedState
  kind := kind
  reasonCode := "OK"
  actorId := "cp"
  evidenceIds := [.ofNat 2]
  validationCandidate := if kind.validates then some ⟨head, head⟩ else none
  gateEvaluator := fun _ _ _ _ _ => .ok gates
  occurredAt := 5
  eventId := .ofNat (20 + n)

def commands : List TaskTransitionCommand :=
  [command 1 .intake .startBriefing, command 2 .briefing .autoAcceptBrief,
    command 3 .implementing .beginValidation, command 4 .validating .openVerifiedDraftPr,
    command 5 .prActive .markMergeReady, command 6 .readyForHumanMerge .acknowledgeHandoff]

theorem store_init : (taskLifecycle .plain task.id).Reachable store :=
  .of_init ⟨task, rfl, rfl⟩

set_option maxRecDepth 4000 in
theorem commands_handOff :
    (((TaskTransitionService.transitions .plain store commands).toOption.bind fun db =>
      db.tasks.get? task.id).map Task.state) = some .handedOff := by
  decide +kernel

end HandoffExample

theorem lifecycle_of_run_handoff : ∃ db task,
    (taskLifecycle .plain HandoffExample.task.id).Reachable db ∧
    db.tasks.get? HandoffExample.task.id = some task ∧ task.state = .handedOff ∧
    VerifiedHandoff (transitionsOf db HandoffExample.task.id) := by
  obtain ⟨db, task, hreach, htask, hstate⟩ :=
    reachable_of_state HandoffExample.store_init HandoffExample.commands_handOff
  exact ⟨db, task, hreach, htask, hstate, (lifecycle_of_run hreach htask).1 hstate⟩

end ControlPlane
