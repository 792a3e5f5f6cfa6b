import ControlPlane.HostAgent.Dispatch
import Mathlib.Logic.Function.Basic

/-!
# Effects on the host

Any number of requests are dispatched at the same time. A handler is entered some time after
its operation was reserved, performs effects one by one, and ends; the host agent may stop at
any moment. A handler is entered once for each operation, and an operation whose handler
reported an effect never gets a rejection stored.

## Main results

* `DispatchRun.settled_of_reachable`: the invariant of the dispatches.
* `DispatchRun.dispatchPromises`
-/
namespace ControlPlane.HostAgent

/-- A dispatch whose operation is reserved. -/
structure ActiveDispatch where
  request : HostRequestMessage
  definition : HostOperationDefinition
  context : HostOperationContext := {}
  entered : Bool := false

/-- The journal, the dispatches under way by their operation, and the operations whose handler
was entered and reported an effect so far. -/
structure DispatchRun where
  journal : Journal := {}
  active : OperationKey → Option ActiveDispatch := fun _ => none
  entered : List OperationKey := []
  attempted : List OperationKey := []

/-- The fence of a request is the recorded one, and live. -/
def fenceCurrent (now : ℤ) (r : HostRequestMessage) (j : Journal) : Bool :=
  (assertCurrentFence now r j.jobFences).isOk

namespace ActiveDispatch

/-- The context after an effect, checked before at `now`. -/
def perform (d : ActiveDispatch) (kind : EffectKind) (now : ℤ) (j : Journal)
    (after : Except HostJournalError Unit) (returns : Bool) : Bool × HostOperationContext :=
  d.context.perform d.request kind (assertCurrentFence now d.request j.jobFences) after returns

def conclude (rt : Runtime) (d : ActiveDispatch) (now : ℤ) (ending : HandlerEnd) (j : Journal) :
    Option HostResponse × Journal :=
  HostAgent.conclude rt now d.request d.definition d.context ending j

end ActiveDispatch

/-- One step of some dispatch. -/
inductive DispatchStep (rt : Runtime) (registry : HostOperationRegistry) (s : DispatchRun) :
    DispatchRun → Prop
  | answer (r : HostRequestMessage) (now : ℤ) (response : Option HostResponse) (j : Journal)
    (hreceive : receive rt registry now r s.journal = (.answered response, j)) :
    DispatchStep rt registry s { s with journal := j }
  | reserve (r : HostRequestMessage) (now : ℤ) (definition : HostOperationDefinition)
    (j : Journal) (hreceive : receive rt registry now r s.journal = (.reserved definition, j)) :
    DispatchStep rt registry s
      { s with
        journal := j
        active := Function.update s.active r.operationKey
          (some { request := r, definition := definition }) }
  | enter (k : OperationKey) (d : ActiveDispatch) (hactive : s.active k = some d)
    (hnew : d.entered = false) :
    DispatchStep rt registry s
      { s with
        active := Function.update s.active k (some { d with entered := true })
        entered := s.entered ++ [k] }
  | effect (k : OperationKey) (d : ActiveDispatch) (kind : EffectKind) (now : ℤ)
    (after : Except HostJournalError Unit) (returns : Bool) (hactive : s.active k = some d)
    (hentered : d.entered = true) :
    DispatchStep rt registry s
      { s with
        active := Function.update s.active k
          (some { d with context := (d.perform kind now s.journal after returns).2 })
        attempted := if (d.perform kind now s.journal after returns).2.effectAttempted then
          s.attempted ++ [k] else s.attempted }
  | conclude (k : OperationKey) (d : ActiveDispatch) (now : ℤ) (ending : HandlerEnd)
    (hactive : s.active k = some d) (hentered : d.entered = true) :
    DispatchStep rt registry s
      { s with
        journal := (d.conclude rt now ending s.journal).2
        active := Function.update s.active k none }
  | crash : DispatchStep rt registry s { s with active := fun _ => none }

def dispatchSystem (rt : Runtime) (registry : HostOperationRegistry) :
    TransitionSystem DispatchRun where
  init s := s = {}
  step := DispatchStep rt registry

/-! ### What the phases of a dispatch do to the operations -/

section Phases
variable {rt : Runtime} {registry : HostOperationRegistry} {now : ℤ} {r : HostRequestMessage}
  {j j' : Journal} {definition : HostOperationDefinition}

/-- An answer without a reservation leaves the operations alone. -/
theorem receive_answered {response : Option HostResponse}
    (h : receive rt registry now r j = (.answered response, j')) : j'.operations = j.operations := by
  unfold receive at h
  cases hresolve : resolve registry r with
  | error code =>
    simp only [hresolve, Prod.mk.injEq] at h
    exact h.2 ▸ rfl
  | ok definition =>
    simp only [hresolve] at h
    have hbegan := began rt now r j
    generalize (j.begin rt now r).1 = answer at hbegan h
    generalize (j.begin rt now r).2 = after at hbegan h
    cases hbegan with
    | rolledBack e =>
      simp only [Prod.mk.injEq] at h
      exact h.2 ▸ rfl
    | @delivered _ _ delivery =>
      cases hread : storedResult r.taskScoped delivery.result with
      | error e =>
        simp only [hread, Functor.map, Except.map, Prod.mk.injEq] at h
        exact h.2 ▸ rfl
      | ok result =>
        simp only [hread, Functor.map, Except.map, Prod.mk.injEq] at h
        exact h.2 ▸ rfl
    | reserved _ _ _ =>
      simp only [Prod.mk.injEq, reduceCtorEq, false_and] at h
    | ambiguous _ =>
      simp only [Prod.mk.injEq] at h
      exact h.2 ▸ rfl
    | replayed _ _ _ _ _ =>
      simp only [Prod.mk.injEq] at h
      exact h.2 ▸ rfl

/-- A reservation inserts the running operation, under a fence that is current. -/
theorem receive_reserved (h : receive rt registry now r j = (.reserved definition, j')) :
    j.operations.get? r.operationKey = none ∧
    j.operations.insert? ⟨r.operationKey, r.semanticFingerprint rt, r.requestId, none⟩ =
      some j'.operations ∧
    applyFence now r j.jobFences = .ok j'.jobFences := by
  unfold receive at h
  cases hresolve : resolve registry r with
  | error code => simp [hresolve] at h
  | ok definition =>
    simp only [hresolve] at h
    have hbegan := began rt now r j
    generalize (j.begin rt now r).1 = answer at hbegan h
    generalize (j.begin rt now r).2 = after at hbegan h
    cases hbegan with
    | rolledBack e => simp at h
    | @delivered _ _ delivery =>
      cases hread : storedResult r.taskScoped delivery.result with
      | error e => simp [hread, Functor.map, Except.map] at h
      | ok result => simp [hread, Functor.map, Except.map] at h
    | reserved hfence hnew hinsert =>
      simp only [Prod.mk.injEq] at h
      obtain ⟨-, rfl⟩ := h
      exact ⟨hnew, hinsert, hfence⟩
    | ambiguous _ => simp at h
    | replayed _ _ _ _ _ => simp at h

/-- A fence that advanced is the one of the lease, and live. -/
theorem JobFence.current_of_advance {row row' : JobFence} {lease : TaskLeaseHostAuthority}
    (h : row.advance now lease = .ok row') (hlive : now < lease.leaseExpiresAtMs) :
    row'.current lease = true ∧ now < row'.leaseExpiresAtMs := by
  simp only [advance, Except.bind_eq_ok, Except.require_eq_ok, bindingHolds, Bool.and_eq_true,
    decide_eq_true_eq] at h
  obtain ⟨-, -, -, ⟨⟨⟨htask, -⟩, -⟩, -⟩, h⟩ := h
  by_cases hsame : lease.fencingToken = row.fencingToken
  · simp only [hsame, if_true, Except.bind_eq_ok, Except.require_eq_ok] at h
    obtain ⟨-, hexact, -, hunexpired, h⟩ := h
    by_cases hlonger : row.leaseExpiresAtMs.val < lease.leaseExpiresAtMs.val
    · simp only [hlonger, if_true, Except.pure_eq_ok] at h
      subst h
      refine ⟨?_, hlive⟩
      simp only [exactLease, Bool.and_eq_true, decide_eq_true_eq] at hexact
      simp [current, exactLease, htask, hexact, hsame]
    · simp only [hlonger, if_false, Except.pure_eq_ok] at h
      subst h
      exact ⟨by simp [current, htask, hexact, hsame], hunexpired⟩
  · simp only [hsame, if_false, Except.pure_eq_ok] at h
    subst h
    exact ⟨by simp [current, exactLease, htask], hlive⟩

/-- A fence that has seen a request is the one of the request. -/
theorem assertCurrentFence_of_applyFence {fences fences' : Table JobFence}
    (h : applyFence now r fences = .ok fences') : assertCurrentFence now r fences' = .ok () := by
  unfold applyFence at h
  unfold assertCurrentFence
  cases hlease : r.authority.lease? with
  | none => rfl
  | some lease =>
    simp only [hlease, Except.bind_eq_ok, Except.require_eq_ok] at h
    obtain ⟨-, hlive, h⟩ := h
    cases hseen : fences.get? lease.jobId with
    | none =>
      simp only [hseen, Except.orThrow_eq_ok] at h
      have hget : fences'.get? lease.jobId = some (.ofAuthority lease) := by
        rw [Table.get?_insert? h]
        exact if_pos rfl
      simp [hget, JobFence.current, JobFence.exactLease, JobFence.ofAuthority, hlive]
    | some row =>
      simp only [hseen, Except.bind_eq_ok, Except.pure_eq_ok] at h
      obtain ⟨advanced, hadvance, rfl⟩ := h
      have hkey : key advanced = lease.jobId :=
        (JobFence.advance_spec hadvance).1.trans (Table.key_of_get? hseen)
      have hget : (fences.set advanced).get? lease.jobId = some advanced := by
        rw [Table.get?_set, if_pos hkey, hseen]
        rfl
      obtain ⟨hcurrent, hunexpired⟩ := JobFence.current_of_advance hadvance hlive
      simp [hget, hcurrent, hunexpired]

/-- A running operation stays as it is when its dispatch ends ambiguously. -/
inductive Concluded (rt : Runtime) (r : HostRequestMessage) (c : HostOperationContext)
    (ending : HandlerEnd) (j : Journal) : Option HostResponse → Journal → Prop
  | raised (hevidence : normalizeHostJsonObject ending.evidence = none) :
    Concluded rt r c ending j none j
  | ambiguous (evidence : List (String × Json)) :
    Concluded rt r c ending j (some (ambiguousResponse evidence)) j
  | finished {operation : OperationRow} {deliveries : Table Delivery} (result : JournalResult)
    (haccepted : c.effectAttempted = true → result.status = .ok)
    (hresult : result.status = .ok →
      result = ⟨.ok, "OK", result.result, r.fencingToken⟩ ∧ ending = .returned result.result)
    (hoperation : j.operations.get? r.operationKey = some operation)
    (hrunning : operation.outcome = none) :
    Concluded rt r c ending j
      (signedResponse ⟨result.status, result.code, result.result, false,
        result.executionFencingToken⟩)
      { j with
        operations := j.operations.set { operation with outcome := some result }, deliveries }

theorem signedResponse_ambiguous (result : List (String × Json)) :
    signedResponse (ambiguousResponse result) = some (ambiguousResponse result) := by
  have hcode : isResponseCode "OPERATION_AMBIGUOUS" = true := by decide
  simp [signedResponse, ambiguousResponse, hcode]

/-- A result that is stored as a success is the one the handler returned. -/
theorem eq_of_journalResult {c : HostOperationContext} {ending : HandlerEnd}
    {result : JournalResult} (h : journalResult r definition c ending = some result)
    (hok : result.status = .ok) :
    result = ⟨.ok, "OK", result.result, r.fencingToken⟩ ∧ ending = .returned result.result := by
  cases ending with
  | returned fields =>
    simp only [journalResult] at h
    split at h
    · obtain rfl := Option.some.inj h
      cases hok
    · cases hnormal : normalizeHostJsonObject fields with
      | none =>
        simp only [hnormal, Option.some.injEq] at h
        subst h
        cases hok
      | some copied =>
        simp only [hnormal, Option.some.injEq] at h
        subst h
        exact ⟨rfl, by rw [eq_of_normalizeHostJsonObject hnormal]⟩
  | effectAmbiguous fields => cases h
  | rejected code =>
    obtain rfl := Option.some.inj h
    cases hok
  | journalFailed e =>
    obtain rfl := Option.some.inj h
    cases hok
  | failed =>
    obtain rfl := Option.some.inj h
    cases hok

theorem concluded (rt : Runtime) (now : ℤ) (r : HostRequestMessage)
    (definition : HostOperationDefinition) (c : HostOperationContext) (ending : HandlerEnd)
    (j : Journal) :
    Concluded rt r c ending j (conclude rt now r definition c ending j).1
      (conclude rt now r definition c ending j).2 := by
  unfold conclude
  cases hresult : journalResult r definition c ending with
  | none =>
    cases hevidence : normalizeHostJsonObject ending.evidence with
    | none => exact .raised hevidence
    | some evidence =>
      simp only [Option.bind_some, signedResponse_ambiguous]
      exact .ambiguous evidence
  | some result =>
    simp only []
    by_cases hrejected : c.effectAttempted = true ∧ result.status ≠ .ok
    · rw [if_pos hrejected, signedResponse_ambiguous]
      exact .ambiguous []
    · rw [if_neg hrejected]
      have hfinished := finished rt now r result j
      generalize (j.finish rt now r result).1 = answer at hfinished ⊢
      generalize (j.finish rt now r result).2 = after at hfinished ⊢
      cases hfinished with
      | rolledBack e =>
        simp only [signedResponse_ambiguous]
        exact .ambiguous []
      | stored _ hoperation _ hrunning _ =>
        refine .finished result ?_ (fun hok => eq_of_journalResult hresult hok) hoperation hrunning
        intro hattempted
        exact Classical.byContradiction fun hstatus => hrejected ⟨hattempted, hstatus⟩

end Phases

/-! ### The invariant -/

/-- The operation of a request runs. -/
def Runs (j : Journal) (r : HostRequestMessage) : Prop :=
  ∃ operation, j.operations.get? r.operationKey = some operation ∧ operation.outcome = none

/-- A dispatch under way holds a running operation, a handler that was entered has a row, and
an operation with an effect is not rejected. -/
structure Settled (s : DispatchRun) : Prop where
  active : ∀ k d, s.active k = some d → d.request.operationKey = k ∧ Runs s.journal d.request
  entered : ∀ k d, s.active k = some d → (d.entered = true ↔ k ∈ s.entered)
  context : ∀ k d, s.active k = some d → (d.context.effectAttempted = true ↔ k ∈ s.attempted)
  known : ∀ k ∈ s.entered, s.journal.operations.get? k ≠ none
  once : s.entered.Nodup
  subset : ∀ k ∈ s.attempted, k ∈ s.entered
  accepted : ∀ k ∈ s.attempted, ∀ operation, s.journal.operations.get? k = some operation →
    ∀ result ∈ operation.outcome, result.status = .ok

section Steps
variable {rt : Runtime} {registry : HostOperationRegistry} {s t : DispatchRun} {k : OperationKey}
  {d : ActiveDispatch}

/-- The invariant only depends on the operations of the journal. -/
theorem Settled.frame (hs : Settled s) {j : Journal}
    (hoperations : j.operations = s.journal.operations) : Settled { s with journal := j } where
  active k d hd := by
    obtain ⟨hkey, operation, hoperation, hrunning⟩ := hs.active k d hd
    exact ⟨hkey, operation, hoperations ▸ hoperation, hrunning⟩
  entered := hs.entered
  context := hs.context
  known k hk := by
    simp only [hoperations]
    exact hs.known k hk
  once := hs.once
  subset := hs.subset
  accepted k hk operation hoperation :=
    hs.accepted k hk operation (hoperations ▸ hoperation)

/-- An operation that has no row was neither entered nor attempted. -/
theorem Settled.not_mem (hs : Settled s) (hnew : s.journal.operations.get? k = none) :
    k ∉ s.entered ∧ k ∉ s.attempted :=
  ⟨fun hk => hs.known k hk hnew, fun hk => hs.known k (hs.subset k hk) hnew⟩

theorem Settled.reserve (hs : Settled s) {r : HostRequestMessage} {now : ℤ}
    {definition : HostOperationDefinition} {j : Journal}
    (h : receive rt registry now r s.journal = (.reserved definition, j)) :
    Settled { s with
      journal := j
      active := Function.update s.active r.operationKey
        (some { request := r, definition := definition }) } := by
  obtain ⟨hnew, hinsert, -⟩ := receive_reserved h
  obtain ⟨hentered, hattempted⟩ := hs.not_mem hnew
  have hget : ∀ k, j.operations.get? k = if r.operationKey = k then
      some ⟨r.operationKey, r.semanticFingerprint rt, r.requestId, none⟩
      else s.journal.operations.get? k := fun k => Table.get?_insert? hinsert
  have hkept : ∀ k operation, s.journal.operations.get? k = some operation →
      j.operations.get? k = some operation := by
    intro k operation hk
    have hne : r.operationKey ≠ k := by
      rintro rfl
      rw [hnew] at hk
      cases hk
    rw [hget, if_neg hne, hk]
  refine ⟨?_, ?_, ?_, ?_, hs.once, hs.subset, ?_⟩
  · intro k d hd
    by_cases hk : k = r.operationKey
    · subst hk
      simp only [Function.update_self, Option.some.injEq] at hd
      subst hd
      exact ⟨rfl, _, (hget _).trans (if_pos rfl), rfl⟩
    · simp only [Function.update_of_ne hk] at hd
      obtain ⟨hkey, operation, hoperation, hrunning⟩ := hs.active k d hd
      exact ⟨hkey, operation, hkept _ _ hoperation, hrunning⟩
  · intro k d hd
    by_cases hk : k = r.operationKey
    · subst hk
      simp only [Function.update_self, Option.some.injEq] at hd
      subst hd
      simpa using hentered
    · simp only [Function.update_of_ne hk] at hd
      exact hs.entered k d hd
  · intro k d hd
    by_cases hk : k = r.operationKey
    · subst hk
      simp only [Function.update_self, Option.some.injEq] at hd
      subst hd
      simpa using hattempted
    · simp only [Function.update_of_ne hk] at hd
      exact hs.context k d hd
  · intro k hk
    obtain ⟨operation, hoperation⟩ := Option.ne_none_iff_exists'.mp (hs.known k hk)
    rw [hkept k operation hoperation]
    exact Option.some_ne_none _
  · intro k hk operation hoperation
    have hne : r.operationKey ≠ k := fun heq => hattempted (heq ▸ hk)
    rw [hget, if_neg hne] at hoperation
    exact hs.accepted k hk operation hoperation

theorem Settled.enter (hs : Settled s) (hactive : s.active k = some d) (hnew : d.entered = false) :
    Settled { s with
      active := Function.update s.active k (some { d with entered := true })
      entered := s.entered ++ [k] } := by
  obtain ⟨hkey, hruns⟩ := hs.active k d hactive
  have hfresh : k ∉ s.entered := fun hk => by
    rw [(hs.entered k d hactive).mpr hk] at hnew
    cases hnew
  refine ⟨?_, ?_, ?_, ?_, ?_, ?_, hs.accepted⟩
  · intro k' d' hd
    by_cases hk : k' = k
    · subst hk
      simp only [Function.update_self, Option.some.injEq] at hd
      subst hd
      exact ⟨hkey, hruns⟩
    · simp only [Function.update_of_ne hk] at hd
      exact hs.active k' d' hd
  · intro k' d' hd
    by_cases hk : k' = k
    · subst hk
      simp only [Function.update_self, Option.some.injEq] at hd
      subst hd
      simp
    · simp only [Function.update_of_ne hk] at hd
      simpa [hk] using hs.entered k' d' hd
  · intro k' d' hd
    by_cases hk : k' = k
    · subst hk
      simp only [Function.update_self, Option.some.injEq] at hd
      subst hd
      exact hs.context k' d hactive
    · simp only [Function.update_of_ne hk] at hd
      exact hs.context k' d' hd
  · intro k' hk'
    rcases List.mem_append.mp hk' with hk' | hk'
    · exact hs.known k' hk'
    · obtain rfl := List.mem_singleton.mp hk'
      obtain ⟨operation, hoperation, -⟩ := hruns
      rw [← hkey, hoperation]
      exact Option.some_ne_none _
  · exact List.nodup_append.mpr ⟨hs.once, List.nodup_singleton _, fun a ha b hb heq =>
      hfresh (List.mem_singleton.mp hb ▸ heq ▸ ha)⟩
  · exact fun k' hk' => List.mem_append_left _ (hs.subset k' hk')

/-- What a handler attempted stays attempted. -/
theorem HostOperationContext.effectAttempted_perform {r : HostRequestMessage} {kind : EffectKind}
    {before after : Except HostJournalError Unit} {returns : Bool} {c : HostOperationContext}
    (h : c.effectAttempted = true) :
    (c.perform r kind before after returns).2.effectAttempted = true := by
  unfold perform
  split
  · dsimp only
    split <;> simp [h]
  · exact h

/-- The flag of the context tells whether the operation was attempted. -/
theorem Settled.effect (hs : Settled s) {c : HostOperationContext}
    (hactive : s.active k = some d) (hentered : d.entered = true)
    (hattempted : d.context.effectAttempted = true → c.effectAttempted = true) :
    Settled { s with
      active := Function.update s.active k (some { d with context := c })
      attempted := if c.effectAttempted then s.attempted ++ [k] else s.attempted } := by
  obtain ⟨hkey, operation, hoperation, hrunning⟩ := hs.active k d hactive
  have hmem : ∀ k', k' ∈ (if c.effectAttempted then s.attempted ++ [k] else s.attempted) →
      k' ∈ s.attempted ∨ (c.effectAttempted = true ∧ k' = k) := by
    intro k' hk'
    by_cases hc : c.effectAttempted = true
    · simpa [hc] using hk'
    · simp only [hc, if_false, Bool.false_eq_true] at hk'
      exact .inl hk'
  refine ⟨?_, ?_, ?_, hs.known, hs.once, ?_, ?_⟩
  · intro k' d' hd
    by_cases hk : k' = k
    · subst hk
      simp only [Function.update_self, Option.some.injEq] at hd
      subst hd
      exact ⟨hkey, operation, hoperation, hrunning⟩
    · simp only [Function.update_of_ne hk] at hd
      exact hs.active k' d' hd
  · intro k' d' hd
    by_cases hk : k' = k
    · subst hk
      simp only [Function.update_self, Option.some.injEq] at hd
      subst hd
      exact hs.entered k' d hactive
    · simp only [Function.update_of_ne hk] at hd
      exact hs.entered k' d' hd
  · intro k' d' hd
    by_cases hk : k' = k
    · subst hk
      simp only [Function.update_self, Option.some.injEq] at hd
      subst hd
      constructor
      · intro hc
        simp only at hc
        simp [hc]
      · intro hk'
        rcases hmem k' hk' with hk' | ⟨hc, -⟩
        · exact hattempted ((hs.context k' d hactive).mpr hk')
        · exact hc
    · simp only [Function.update_of_ne hk] at hd
      rw [hs.context k' d' hd]
      refine ⟨fun hk' => ?_, fun hk' => ?_⟩
      · by_cases hc : c.effectAttempted = true <;> simp [hc, hk']
      · rcases hmem k' hk' with hk' | ⟨-, rfl⟩
        · exact hk'
        · exact absurd rfl hk
  · intro k' hk'
    rcases hmem k' hk' with hk' | ⟨-, rfl⟩
    · exact hs.subset k' hk'
    · exact (hs.entered k' d hactive).mp hentered
  · intro k' hk' operation' hoperation'
    rcases hmem k' hk' with hk' | ⟨-, rfl⟩
    · exact hs.accepted k' hk' operation' hoperation'
    · rw [← hkey, hoperation, Option.some.injEq] at hoperation'
      subst hoperation'
      rw [hrunning]
      intro result hresult
      cases hresult

/-- A dispatch that is over. -/
theorem Settled.drop (hs : Settled s) {active : OperationKey → Option ActiveDispatch}
    (h : ∀ k d, active k = some d → s.active k = some d) : Settled { s with active := active } :=
  ⟨fun k d hd => hs.active k d (h k d hd), fun k d hd => hs.entered k d (h k d hd),
    fun k d hd => hs.context k d (h k d hd), hs.known, hs.once, hs.subset, hs.accepted⟩

theorem Settled.conclude (hs : Settled s) (hactive : s.active k = some d) (now : ℤ)
    (ending : HandlerEnd) :
    Settled { s with
      journal := (d.conclude rt now ending s.journal).2
      active := Function.update s.active k none } := by
  obtain ⟨hkey, -⟩ := hs.active k d hactive
  have hrest : ∀ k' d', Function.update s.active k none k' = some d' →
      k' ≠ k ∧ s.active k' = some d' := by
    intro k' d' hd
    by_cases hk : k' = k
    · subst hk
      rw [Function.update_self] at hd
      cases hd
    · rw [Function.update_of_ne hk] at hd
      exact ⟨hk, hd⟩
  have hdropped := hs.drop fun k' d' hd => (hrest k' d' hd).2
  have hconcluded := concluded rt now d.request d.definition d.context ending s.journal
  unfold ActiveDispatch.conclude
  generalize (HostAgent.conclude rt now d.request d.definition d.context ending s.journal).1 =
    response at hconcluded
  generalize (HostAgent.conclude rt now d.request d.definition d.context ending s.journal).2 =
    after at hconcluded ⊢
  cases hconcluded with
  | raised _ => exact hdropped.frame rfl
  | ambiguous _ => exact hdropped.frame rfl
  | @finished operation deliveries result haccepted hresult hoperation hrunning =>
    have hokey : operation.key = d.request.operationKey := Table.key_of_get? hoperation
    have hother : ∀ k', k' ≠ k →
        (s.journal.operations.set { operation with outcome := some result }).get? k' =
          s.journal.operations.get? k' := by
      intro k' hk'
      refine Table.get?_set_of_ne ?_
      rw [key_operationRow, hokey, hkey]
      exact hk'.symm
    have hself : (s.journal.operations.set { operation with outcome := some result }).get? k =
        some { operation with outcome := some result } := by
      rw [Table.get?_set, if_pos (by rw [key_operationRow, hokey, hkey]), ← hkey, hoperation]
      rfl
    refine ⟨?_, hdropped.entered, hdropped.context, ?_, hs.once, hs.subset, ?_⟩
    · intro k' d' hd
      obtain ⟨hk', hd⟩ := hrest k' d' hd
      obtain ⟨hkey', operation', hoperation', hrunning'⟩ := hs.active k' d' hd
      exact ⟨hkey', operation', (hother _ (hkey' ▸ hk')).trans hoperation', hrunning'⟩
    · intro k' hk'
      by_cases hk : k' = k
      · subst hk
        simp only [hself]
        exact Option.some_ne_none _
      · simp only [hother k' hk]
        exact hs.known k' hk'
    · intro k' hk' operation' hoperation'
      by_cases hk : k' = k
      · subst hk
        simp only [hself, Option.some.injEq] at hoperation'
        subst hoperation'
        intro result' hresult'
        obtain rfl : result = result' := by simpa using hresult'
        exact haccepted ((hs.context k' d hactive).mpr hk')
      · simp only [hother k' hk] at hoperation'
        exact hs.accepted k' hk' operation' hoperation'

theorem settled_of_reachable (h : (dispatchSystem rt registry).Reachable s) : Settled s := by
  refine h.invariant ?_ ?_
  · rintro s rfl
    constructor <;> simp
  · intro s t hs hstep
    cases hstep with
    | answer r now response j hreceive => exact hs.frame (receive_answered hreceive)
    | reserve r now definition j hreceive => exact hs.reserve hreceive
    | enter k d hactive hnew => exact hs.enter hactive hnew
    | effect k d kind now after returns hactive hentered =>
      exact hs.effect hactive hentered HostOperationContext.effectAttempted_perform
    | conclude k d now ending hactive hentered => exact hs.conclude hactive now ending
    | crash => exact hs.drop fun k d hd => by cases hd

end Steps

/-! ### What a dispatch promises -/

/-- A response that was stored with exactly its result. -/
def AnsweredStored (r : HostRequestMessage) (ending : HandlerEnd) (response : Option HostResponse)
    (j : Journal) : Prop :=
  ∃ result operation, ending = .returned result ∧
    response = some ⟨.ok, "OK", result, false, r.fencingToken⟩ ∧
    j.operations.get? r.operationKey = some operation ∧
    operation.outcome = some ⟨.ok, "OK", result, r.fencingToken⟩

/-- An ambiguous response to an operation that still runs. -/
def AnsweredAmbiguous (r : HostRequestMessage) (response : Option HostResponse) (j : Journal) :
    Prop :=
  (∃ evidence, response = some (ambiguousResponse evidence)) ∧ Runs j r

/-- What the dispatcher promises of its handlers and of the effects they report. -/
structure DispatchPromises (rt : Runtime) (registry : HostOperationRegistry) (s : DispatchRun) :
    Prop where
  /-- A handler is entered once for each operation. -/
  once : s.entered.Nodup
  /-- An operation is reserved under a current fence, and its handler was not entered before. -/
  reserved : ∀ r now definition j, receive rt registry now r s.journal = (.reserved definition, j) →
    fenceCurrent now r j = true ∧ r.operationKey ∉ s.entered
  /-- An effect is only run under a current fence. -/
  fenced : ∀ k d kind now after returns, s.active k = some d →
    (d.perform kind now s.journal after returns).1 = true →
    fenceCurrent now d.request s.journal = true
  /-- A handler that reported an effect is answered with what was stored, or ambiguously. -/
  answered : ∀ k d now ending, s.active k = some d → d.context.effectAttempted = true →
    (normalizeHostJsonObject ending.evidence).isSome = true →
    AnsweredStored d.request ending (d.conclude rt now ending s.journal).1
      (d.conclude rt now ending s.journal).2 ∨
    AnsweredAmbiguous d.request (d.conclude rt now ending s.journal).1
      (d.conclude rt now ending s.journal).2
  /-- No rejection is ever stored for an operation with an effect. -/
  kept : ∀ k ∈ s.attempted, ∀ operation, s.journal.operations.get? k = some operation →
    ∀ result ∈ operation.outcome, result.status = .ok

section Promises
variable {rt : Runtime} {registry : HostOperationRegistry} {s : DispatchRun} {k : OperationKey}
  {d : ActiveDispatch}

theorem fenceCurrent_of_perform {kind : EffectKind} {now : ℤ}
    {after : Except HostJournalError Unit} {returns : Bool}
    (h : (d.perform kind now s.journal after returns).1 = true) :
    fenceCurrent now d.request s.journal = true := by
  unfold ActiveDispatch.perform HostOperationContext.perform at h
  unfold fenceCurrent
  cases hcheck : assertCurrentFence now d.request s.journal.jobFences with
  | ok _ => rfl
  | error e => simp [hcheck] at h

/-- The answer to a handler that reported an effect. -/
theorem Settled.answered (hs : Settled s) (hactive : s.active k = some d) (now : ℤ)
    {ending : HandlerEnd} (hattempted : d.context.effectAttempted = true)
    (hevidence : (normalizeHostJsonObject ending.evidence).isSome = true) :
    AnsweredStored d.request ending (d.conclude rt now ending s.journal).1
      (d.conclude rt now ending s.journal).2 ∨
    AnsweredAmbiguous d.request (d.conclude rt now ending s.journal).1
      (d.conclude rt now ending s.journal).2 := by
  obtain ⟨-, hruns⟩ := hs.active k d hactive
  have hconcluded := concluded rt now d.request d.definition d.context ending s.journal
  unfold ActiveDispatch.conclude
  generalize (HostAgent.conclude rt now d.request d.definition d.context ending s.journal).1 =
    response at hconcluded ⊢
  generalize (HostAgent.conclude rt now d.request d.definition d.context ending s.journal).2 =
    after at hconcluded ⊢
  cases hconcluded with
  | raised hnone =>
    rw [hnone] at hevidence
    cases hevidence
  | ambiguous evidence => exact .inr ⟨⟨evidence, rfl⟩, hruns⟩
  | @finished operation deliveries result haccepted hresult hoperation hrunning =>
    obtain ⟨heq, hreturned⟩ := hresult (haccepted hattempted)
    have hcode : isResponseCode "OK" = true := by decide
    have hokey : operation.key = d.request.operationKey := Table.key_of_get? hoperation
    refine .inl ⟨result.result, { operation with outcome := some result }, hreturned, ?_, ?_, ?_⟩
    · rw [heq]
      simp [signedResponse, hcode]
    · rw [Table.get?_set, if_pos (by rw [key_operationRow, hokey]), hoperation]
      rfl
    · exact congrArg some heq

/-- In every state of every run, the dispatcher keeps what it promises. -/
theorem dispatchPromises (h : (dispatchSystem rt registry).Reachable s) :
    DispatchPromises rt registry s := by
  have hs := settled_of_reachable h
  refine ⟨hs.once, ?_, fun k d kind now after returns _ => fenceCurrent_of_perform,
    fun k d now ending hactive => hs.answered hactive now, hs.accepted⟩
  intro r now definition j hreceive
  obtain ⟨hnew, -, hfence⟩ := receive_reserved hreceive
  refine ⟨?_, (hs.not_mem hnew).1⟩
  rw [fenceCurrent, assertCurrentFence_of_applyFence hfence]
  rfl

end Promises

/-! ### A takeover before a handler is entered -/

namespace DispatchExample
open JournalExample

def probe : HostOperationDefinition where
  authority := .taskLease
  validate := fun arguments => .ok arguments
  mutatesHost := true
  lease_of_mutates := fun _ => rfl

def registry : HostOperationRegistry := fun _ => some probe

theorem later_valid : (0 : ℤ) < 500 ∧ (500 : ℤ) < 2 ^ 63 := by decide

/-- Another operation of the job, under the lease of the next worker. -/
def takeover : HostRequestMessage :=
  { first with
    requestId := .ofNat 7
    authority := .taskLease { lease ⟨500, later_valid⟩ with
      leaseId := .ofNat 8, workerId := "worker-2", attempt := ⟨2, by decide⟩
      fencingToken := ⟨2, by decide⟩ }
    operation := ⟨"task.lease_probe", "operation-2", []⟩ }

def reserved : DispatchRun where
  journal := running
  active := Function.update (fun _ => none) first.operationKey
    (some { request := first, definition := probe })

theorem receive_first : receive rt registry 10 first {} = (.reserved probe, running) := rfl

theorem reachable_reserved : (dispatchSystem rt registry).Reachable reserved := by
  have hinit : (dispatchSystem rt registry).Reachable {} := .of_init rfl
  exact hinit.tail (.reserve first 10 probe running receive_first)

def takenOver : DispatchRun :=
  { reserved with
    journal := (receive rt registry 20 takeover running).2
    active := Function.update reserved.active takeover.operationKey
      (some { request := takeover, definition := probe }) }

theorem receive_takeover : (receive rt registry 20 takeover running).1 = .reserved probe := rfl

theorem reachable_takenOver : (dispatchSystem rt registry).Reachable takenOver :=
  reachable_reserved.tail
    (.reserve takeover 20 probe _ (Prod.ext receive_takeover rfl))

/-- The first operation is still under way. -/
theorem active_first : takenOver.active first.operationKey =
    some { request := first, definition := probe } := by
  have hne : first.operationKey ≠ takeover.operationKey := by decide
  have htaken : takenOver.active = Function.update reserved.active takeover.operationKey
      (some { request := takeover, definition := probe }) := rfl
  have hreserved : reserved.active = Function.update (fun _ => none) first.operationKey
      (some { request := first, definition := probe }) := rfl
  rw [htaken, Function.update_of_ne hne, hreserved, Function.update_self]

/-- The fence of the job is the one of the second worker. -/
theorem recorded_takeover :
    ∃ row, takenOver.journal.jobFences.get? (lease ⟨50, by decide⟩).jobId = some row ∧
      row.fencingToken = ⟨2, by decide⟩ :=
  ⟨_, rfl, rfl⟩

end DispatchExample

open DispatchExample JournalExample in
theorem dispatchPromises_takenOver : DispatchPromises rt registry takenOver :=
  dispatchPromises reachable_takenOver

open DispatchExample JournalExample in
/-- The handler of the first operation is about to be entered, and its fence is not current at
any time. -/
theorem not_entered_current :
    ¬ ∀ s k d, (dispatchSystem rt registry).Reachable s → s.active k = some d →
      d.entered = false → d.definition.mutatesHost = true →
      ∃ now, fenceCurrent now d.request s.journal = true := by
  intro hcurrent
  obtain ⟨now, hfence⟩ :=
    hcurrent takenOver first.operationKey _ reachable_takenOver active_first rfl rfl
  obtain ⟨row, hrow, htoken⟩ := recorded_takeover
  have hold : (lease ⟨50, by decide⟩).fencingToken < row.fencingToken := by
    rw [htoken]
    decide
  cases hcheck : assertCurrentFence now first takenOver.journal.jobFences with
  | ok u => exact assertCurrentFence_fenced rfl hrow hold hcheck
  | error e =>
    rw [fenceCurrent, hcheck] at hfence
    cases hfence

end ControlPlane.HostAgent
