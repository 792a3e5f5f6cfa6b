import ControlPlane.Jobs.Writes

/-!
# Startup recovery of external targets

Before workers are polled after a restart, every target that jobs registered outside is compared
with its expected state, one kind after another and page by page. A target without an adapter,
or whose adapter raises, is blocked, and the jobs of its task with it.

## Main definitions

* `ReconciliationObservation`, `Probe`, `Adapters`
* `StartupRecoveryService.recover`

## Main results

* `failsClosed_of_recover`: what is not known to be resolved is blocked and stays unclaimed.
-/
namespace ControlPlane

/-! ### Adapters -/

inductive ReliabilityError where
  | invalid (message : String)
  | conflict (message : String)
  | storage (message : String)
  deriving DecidableEq, Repr

/-- One adapter's read-only comparison with durable expected state. The payload is missing where
it is no mapping that can be stored. -/
structure ReconciliationObservation where
  status : ReconciliationStatus
  observedPayload : Option Json
  errorCode : Option String := none
  status_open : status ≠ .pending ∧ status ≠ .cancelled
  error_iff : status = .retryRequired ↔ errorCode.isSome = true
  error_code : ∀ code ∈ errorCode,
    reasonCode.fullmatch (CharClass.holds .ascii) code.toList = true

/-- The outcome of asking an adapter: it raised or returned something that is no observation, or
it returned one. -/
inductive Probe where
  | failed
  | observed (observation : ReconciliationObservation)

/-- The adapters that are configured, by kind, and what they answer about a target with its key
and its expected payload. -/
abbrev Adapters := ReconciliationTargetKind → Option (UUID → String → Json → Probe)

def adapterUnavailable : ReconciliationObservation where
  status := .retryRequired
  observedPayload := some (.obj [])
  errorCode := some "ADAPTER_UNAVAILABLE"
  status_open := by decide
  error_iff := by decide
  error_code := by decide +kernel

def adapterFailed : ReconciliationObservation where
  status := .retryRequired
  observedPayload := some (.obj [])
  errorCode := some "ADAPTER_FAILED"
  status_open := by decide
  error_iff := by decide
  error_code := by decide +kernel

/-- What recovery goes by for a target. -/
def Adapters.observe (adapters : Adapters) (target : ReconciliationTarget) :
    ReconciliationObservation :=
  match adapters target.kind with
  | none => adapterUnavailable
  | some adapter =>
    match adapter target.id target.targetKey target.expectedPayload with
    | .failed => adapterFailed
    | .observed observation => observation

/-- The probe of a target tells nothing: there is no adapter, or it failed, or it says so. -/
def Adapters.Inconclusive (adapters : Adapters) (target : ReconciliationTarget) : Prop :=
  match adapters target.kind with
  | none => True
  | some adapter =>
    match adapter target.id target.targetKey target.expectedPayload with
    | .failed => True
    | .observed observation => observation.status = .retryRequired

/-! ### Pages of targets -/

/-- A target with what was observed about it. -/
def ReconciliationTarget.observe (target : ReconciliationTarget) (o : ReconciliationObservation)
    (payload : Json) (now : Time) : ReconciliationTarget :=
  { target with
    observedPayload := some payload
    status := o.status
    reconciliationVersion := target.reconciliationVersion + 1
    lastReconciledAt := some now
    lastErrorCode := o.errorCode }

/-- Write down what was observed about a target, unless it changed in between. -/
def reconcileTarget (adapters : Adapters) (clock : UUID → Time) (db : Database)
    (snapshot : ReconciliationTarget) : Except ReliabilityError (List UUID × Database) := do
  let observation := adapters.observe snapshot
  let target ← Except.orThrow (db.reconciliationTargets.get? snapshot.id)
    (.conflict "reconciliation target disappeared")
  if target.expectedFingerprint ≠ snapshot.expectedFingerprint ∨
      target.reconciliationVersion ≠ snapshot.reconciliationVersion then
    return ([], db)
  else do
    let payload ← Except.orThrow observation.observedPayload
      (.storage "observed payload cannot be stored")
    return ([target.id], { db with
      reconciliationTargets := db.reconciliationTargets.set
        (target.observe observation payload (clock target.id)) })

/-- The targets of a kind that are not cancelled, after an identifier. -/
def pendingTargets (db : Database) (kind : ReconciliationTargetKind) (after : Option UUID) :
    List ReconciliationTarget :=
  db.reconciliationTargets.select fun target =>
    target.status ≠ .cancelled && target.kind = kind &&
      after.all (fun id => id.bits.toNat < target.id.bits.toNat)

def targetPage (db : Database) (kind : ReconciliationTargetKind) (after : Option UUID)
    (limit : ℕ) : List ReconciliationTarget :=
  ((pendingTargets db kind after).insertionSort fun a b =>
    a.id.bits.toNat ≤ b.id.bits.toNat).take limit

def reconcilePage (adapters : Adapters) (clock : UUID → Time) :
    List ReconciliationTarget → Database → Except ReliabilityError (List UUID × Database)
  | [], db => .ok ([], db)
  | snapshot :: rest, db => do
    let (done, db) ← reconcileTarget adapters clock db snapshot
    let (more, db) ← reconcilePage adapters clock rest db
    return (done ++ more, db)

/-- The pages of a kind. Each page starts after the last one, so that the number of targets
bounds their number. -/
def reconcilePages (adapters : Adapters) (clock : UUID → Time) (limit : ℕ)
    (kind : ReconciliationTargetKind) :
    ℕ → Option UUID → Database → Except ReliabilityError (List UUID × Database)
  | 0, _, db => .ok ([], db)
  | rounds + 1, after, db =>
    let page := targetPage db kind after limit
    match page.getLast? with
    | none => .ok ([], db)
    | some last => do
      let (done, db) ← reconcilePage adapters clock page db
      if page.length < limit then return (done, db)
      else do
        let (more, db) ← reconcilePages adapters clock limit kind rounds (some last.id) db
        return (done ++ more, db)

def kindOrder : List ReconciliationTargetKind :=
  [.hermesRun, .hostProcess, .branchHead, .prHead, .webhookCursor]

def reconcileKinds (adapters : Adapters) (clock : UUID → Time) (limit : ℕ) :
    List ReconciliationTargetKind → Database → Except ReliabilityError (List UUID × Database)
  | [], db => .ok ([], db)
  | kind :: rest, db => do
    let (done, db) ← reconcilePages adapters clock limit kind
      ((pendingTargets db kind none).length + 1) none db
    let (more, db) ← reconcileKinds adapters clock limit rest db
    return (done ++ more, db)

/-- The targets come last, after leases, outages and cancellations. -/
def StartupRecoveryService.recover (adapters : Adapters) (clock : UUID → Time) (limit : ℕ)
    (before : Database → Except ReliabilityError Database) (db : Database) :
    Except ReliabilityError (List UUID × Database) := do
  Except.require (1 ≤ limit ∧ limit ≤ maxRecoveryBatchSize)
    (.invalid "startup recovery limit must be between 1 and 1000")
  let db ← before db
  reconcileKinds adapters clock limit kindOrder db

/-! ### What a page leaves -/

section Pages
variable {adapters : Adapters} {clock : UUID → Time} {limit : ℕ} {db db' : Database}
  {kind : ReconciliationTargetKind} {after : Option UUID} {done : List UUID}

theorem status_of_inconclusive {target : ReconciliationTarget}
    (h : adapters.Inconclusive target) : (adapters.observe target).status = .retryRequired := by
  unfold Adapters.Inconclusive at h
  unfold Adapters.observe
  split
  · rfl
  · rename_i adapter hadapter
    rw [hadapter] at h
    dsimp only at h
    split
    · rfl
    · rename_i observation hobservation
      rw [hobservation] at h
      exact h

theorem mem_pendingTargets {t : ReconciliationTarget} :
    t ∈ pendingTargets db kind after ↔ t ∈ db.reconciliationTargets ∧ t.status ≠ .cancelled ∧
      t.kind = kind ∧ ∀ id ∈ after, id.bits.toNat < t.id.bits.toNat := by
  simp [pendingTargets, Table.select, Table.mem_def, and_assoc, Option.all_eq_true]

theorem id_eq_of_toNat {a b : UUID} (h : a.bits.toNat = b.bits.toNat) : a = b := by
  cases a
  cases b
  simp only [UUID.mk.injEq]
  exact BitVec.eq_of_toNat_eq h

theorem nodup_pendingTargets : (pendingTargets db kind after).Nodup :=
  (List.Nodup.of_map _ db.reconciliationTargets.nodup).filter _

/-- What is pending after an identifier is on the page, or the page is full and before it. -/
theorem mem_targetPage {t : ReconciliationTarget} (ht : t ∈ pendingTargets db kind after) :
    t ∈ targetPage db kind after limit ∨
      (targetPage db kind after limit).length = limit ∧
        ∀ p ∈ targetPage db kind after limit, p.id.bits.toNat < t.id.bits.toNat := by
  rw [or_iff_not_imp_left]
  intro hpage
  let sorted := (pendingTargets db kind after).insertionSort fun a b =>
    a.id.bits.toNat ≤ b.id.bits.toNat
  have hsorted : sorted.Pairwise fun a b => a.id.bits.toNat ≤ b.id.bits.toNat :=
    List.pairwise_insertionSort _ _
  have hmem : t ∈ sorted := (List.mem_insertionSort _).mpr ht
  have hrest : t ∈ sorted.drop limit := by
    rw [← List.take_append_drop limit sorted, List.mem_append] at hmem
    exact hmem.resolve_left hpage
  rw [← List.take_append_drop limit sorted, List.pairwise_append] at hsorted
  refine ⟨?_, fun p hp => ?_⟩
  · have hlength := List.length_pos_of_mem hrest
    rw [List.length_drop] at hlength
    show (sorted.take limit).length = limit
    rw [List.length_take]
    omega
  · refine lt_of_le_of_ne (hsorted.2.2 p hp t hrest) fun heq => hpage ?_
    have hpending := mem_pendingTargets.mp ((List.mem_insertionSort _).mp (List.mem_of_mem_take hp))
    have hsame : p = t := Table.eq_of_key_eq hpending.1 (mem_pendingTargets.mp ht).1
      (id_eq_of_toNat heq)
    exact hsame ▸ hp

theorem pending_of_mem_targetPage {t : ReconciliationTarget}
    (h : t ∈ targetPage db kind after limit) : t ∈ pendingTargets db kind after :=
  (List.mem_insertionSort _).mp (List.mem_of_mem_take h)

theorem nodup_targetPage : (targetPage db kind after limit).Nodup := by
  have hsorted : ((pendingTargets db kind after).insertionSort fun a b =>
      a.id.bits.toNat ≤ b.id.bits.toNat).Nodup :=
    (List.perm_insertionSort _ _).nodup_iff.mpr nodup_pendingTargets
  exact hsorted.sublist (List.take_sublist _ _)

/-- The last target of a page has the greatest identifier. -/
theorem le_last {t last : ReconciliationTarget}
    (hlast : (targetPage db kind after limit).getLast? = some last)
    (h : t ∈ targetPage db kind after limit) : t.id.bits.toNat ≤ last.id.bits.toNat := by
  have hsorted : (targetPage db kind after limit).Pairwise fun a b =>
      a.id.bits.toNat ≤ b.id.bits.toNat :=
    (List.pairwise_insertionSort _ _).sublist (List.take_sublist _ _)
  obtain ⟨init, hinit⟩ := List.getLast?_eq_some_iff.mp hlast
  rw [hinit] at hsorted h
  rcases List.mem_append.mp h with h | h
  · exact (List.pairwise_append.mp hsorted).2.2 t h last (List.mem_singleton_self last)
  · rw [List.mem_singleton.mp h]

/-- A target as recovery leaves it. -/
structure Observed (adapters : Adapters) (t t' : ReconciliationTarget) : Prop where
  status : t'.status = (adapters.observe t).status
  kind : t'.kind = t.kind
  jobId : t'.jobId = t.jobId
  taskId : t'.taskId = t.taskId

/-- What was observed about some targets is written down, and the others are left alone. -/
structure Observes (adapters : Adapters) (db db' : Database) (ts : List ReconciliationTarget) :
    Prop where
  observed : ∀ t ∈ ts, ∃ t', db'.reconciliationTargets.get? t.id = some t' ∧ Observed adapters t t'
  others : ∀ id, (∀ t ∈ ts, t.id ≠ id) →
    db'.reconciliationTargets.get? id = db.reconciliationTargets.get? id

theorem reconcileTarget_observes {t : ReconciliationTarget} (ht : t ∈ db.reconciliationTargets)
    (h : reconcileTarget adapters clock db t = .ok (done, db')) :
    Observes adapters db db' [t] := by
  have hget : db.reconciliationTargets.get? t.id = some t := Table.get?_key ht
  simp only [reconcileTarget, hget, Except.orThrow, Except.ok_bind, ne_eq, not_true_eq_false,
    or_self, if_false, Except.bind_eq_ok, Except.pure_eq_ok, Prod.mk.injEq] at h
  obtain ⟨payload, -, -, rfl⟩ := h
  refine ⟨fun t' ht' => ?_, fun id hid => ?_⟩
  · obtain rfl := List.mem_singleton.mp ht'
    refine ⟨_, Table.get?_set_self ?_, ⟨rfl, rfl, rfl, rfl⟩⟩
    exact hget ▸ Option.some_ne_none _
  · exact Table.get?_set_of_ne (hid t List.mem_cons_self)

theorem reconcilePage_observes {page : List ReconciliationTarget} (hnodup : page.Nodup)
    (hpage : ∀ t ∈ page, t ∈ db.reconciliationTargets)
    (h : reconcilePage adapters clock page db = .ok (done, db')) :
    Observes adapters db db' page := by
  induction page generalizing db done with
  | nil =>
    cases h
    exact ⟨fun t ht => absurd ht List.not_mem_nil, fun _ _ => rfl⟩
  | cons t rest ih =>
    simp only [reconcilePage, Except.bind_eq_ok, Except.pure_eq_ok, Prod.mk.injEq] at h
    obtain ⟨⟨first, db₁⟩, hfirst, ⟨more, db₂⟩, hrest, -, rfl⟩ := h
    obtain ⟨hfresh, hnodup⟩ := List.nodup_cons.mp hnodup
    have ht := hpage t List.mem_cons_self
    have hone := reconcileTarget_observes ht hfirst
    have hne : ∀ t' ∈ rest, t.id ≠ t'.id := fun t' ht' heq =>
      hfresh (Table.eq_of_key_eq ht (hpage t' (List.mem_cons_of_mem t ht')) heq ▸ ht')
    have hkept : ∀ t' ∈ rest, t' ∈ db₁.reconciliationTargets := by
      intro t' ht'
      have hget := hone.others t'.id (by simpa using hne t' ht')
      have hrow : db.reconciliationTargets.get? t'.id = some t' :=
        Table.get?_key (hpage t' (List.mem_cons_of_mem t ht'))
      exact Table.mem_of_get? (hget.trans hrow)
    have hmore := ih hnodup hkept hrest
    refine ⟨fun t' ht' => ?_, fun id hid => ?_⟩
    · rcases List.mem_cons.mp ht' with rfl | ht'
      · obtain ⟨t₁, hget, hobserved⟩ := hone.observed _ List.mem_cons_self
        exact ⟨t₁, (hmore.others _ fun t' ht' => (hne t' ht').symm).trans hget, hobserved⟩
      · exact hmore.observed t' ht'
    · rw [hmore.others id fun t' ht' => hid t' (List.mem_cons_of_mem t ht')]
      exact hone.others id (by simpa using hid t List.mem_cons_self)

/-- What is pending after the last target of a page was pending before and is unchanged. -/
theorem pending_after_page {page : List ReconciliationTarget} {last t : ReconciliationTarget}
    (hafter : ∀ id ∈ after, id.bits.toNat < last.id.bits.toNat)
    (hle : ∀ p ∈ page, p.id.bits.toNat ≤ last.id.bits.toNat)
    (hpage : Observes adapters db db' page) :
    t ∈ pendingTargets db' kind (some last.id) ↔
      t ∈ pendingTargets db kind after ∧ last.id.bits.toNat < t.id.bits.toNat := by
  have hsame : last.id.bits.toNat < t.id.bits.toNat →
      (t ∈ db'.reconciliationTargets ↔ t ∈ db.reconciliationTargets) := by
    intro hlast
    have hget := hpage.others t.id fun p hp heq => by
      have := hle p hp
      rw [heq] at this
      omega
    constructor
    · intro ht
      have hrow : db'.reconciliationTargets.get? t.id = some t := Table.get?_key ht
      exact Table.mem_of_get? (hget.symm.trans hrow)
    · intro ht
      have hrow : db.reconciliationTargets.get? t.id = some t := Table.get?_key ht
      exact Table.mem_of_get? (hget.trans hrow)
  simp only [mem_pendingTargets, Option.mem_def, Option.some.injEq, forall_eq']
  constructor
  · rintro ⟨ht, hstatus, hkind, hlast⟩
    exact ⟨⟨(hsame hlast).mp ht, hstatus, hkind, fun id hid => (hafter id hid).trans hlast⟩, hlast⟩
  · rintro ⟨⟨ht, hstatus, hkind, -⟩, hlast⟩
    exact ⟨(hsame hlast).mpr ht, hstatus, hkind, hlast⟩

/-- The pages of a kind together observe all that is pending. -/
theorem reconcilePages_observes (hlimit : 1 ≤ limit) {rounds : ℕ}
    (hrounds : (pendingTargets db kind after).length < rounds)
    (h : reconcilePages adapters clock limit kind rounds after db = .ok (done, db')) :
    Observes adapters db db' (pendingTargets db kind after) := by
  induction rounds generalizing db after done with
  | zero => omega
  | succ rounds ih =>
    simp only [reconcilePages] at h
    have hmem : ∀ t ∈ targetPage db kind after limit, t ∈ db.reconciliationTargets := fun t ht =>
      (mem_pendingTargets.mp (pending_of_mem_targetPage ht)).1
    cases hlast : (targetPage db kind after limit).getLast? with
    | none =>
      have hempty := List.getLast?_eq_none_iff.mp hlast
      simp only [hlast, Except.ok.injEq, Prod.mk.injEq] at h
      obtain ⟨-, rfl⟩ := h
      refine ⟨fun t ht => ?_, fun _ _ => rfl⟩
      rcases (mem_targetPage ht : t ∈ targetPage db kind after limit ∨ _) with hpage | ⟨hfull, -⟩
      · rw [hempty] at hpage
        cases hpage
      · rw [hempty, List.length_nil] at hfull
        omega
    | some last =>
      simp only [hlast, Except.bind_eq_ok] at h
      obtain ⟨⟨first, db₁⟩, hpage, h⟩ := h
      have hobserves := reconcilePage_observes nodup_targetPage hmem hpage
      split at h
      · -- A page that is not full holds everything that is pending.
        rename_i hshort
        simp only [Except.pure_eq_ok, Prod.mk.injEq] at h
        obtain ⟨-, rfl⟩ := h
        refine ⟨fun t ht => ?_, fun id hid => ?_⟩
        · exact hobserves.observed t ((mem_targetPage ht).resolve_right fun hfull =>
            absurd hfull.1 (Nat.ne_of_lt hshort))
        · exact hobserves.others id fun t ht => hid t (pending_of_mem_targetPage ht)
      · simp only [Except.bind_eq_ok, Except.pure_eq_ok, Prod.mk.injEq] at h
        obtain ⟨⟨more, db₂⟩, hrest, -, rfl⟩ := h
        have hlastPage : last ∈ targetPage db kind after limit := List.mem_of_getLast? hlast
        have hlastPending := pending_of_mem_targetPage hlastPage
        have hpending : ∀ t, t ∈ pendingTargets db₁ kind (some last.id) ↔
            t ∈ pendingTargets db kind after ∧ last.id.bits.toNat < t.id.bits.toNat := fun t =>
          pending_after_page (mem_pendingTargets.mp hlastPending).2.2.2
            (fun p hp => le_last hlast hp) hobserves
        have hlength : (pendingTargets db₁ kind (some last.id)).length < rounds := by
          have hnodup : (last :: pendingTargets db₁ kind (some last.id)).Nodup := by
            refine List.nodup_cons.mpr ⟨fun hin => ?_, nodup_pendingTargets⟩
            exact absurd ((hpending last).mp hin).2 (lt_irrefl _)
          have hsubset : last :: pendingTargets db₁ kind (some last.id) ⊆
              pendingTargets db kind after := by
            intro t ht
            rcases List.mem_cons.mp ht with rfl | ht
            · exact hlastPending
            · exact ((hpending t).mp ht).1
          have hle := (List.subperm_of_subset hnodup hsubset).length_le
          rw [List.length_cons] at hle
          omega
        have hmore := ih hlength hrest
        refine ⟨fun t ht => ?_, fun id hid => ?_⟩
        · by_cases hin : t ∈ targetPage db kind after limit
          · obtain ⟨t', hget, hobserved⟩ := hobserves.observed t hin
            refine ⟨t', (hmore.others t.id fun t₁ ht₁ heq => ?_).trans hget, hobserved⟩
            have hlt := ((hpending t₁).mp ht₁).2
            rw [heq] at hlt
            exact absurd (le_last hlast hin) (not_le_of_gt hlt)
          · have hlt := ((mem_targetPage ht).resolve_left hin).2 last hlastPage
            exact hmore.observed t ((hpending t).mpr ⟨ht, hlt⟩)
        · rw [hmore.others id fun t ht => hid t ((hpending t).mp ht).1]
          exact hobserves.others id fun t ht => hid t (pending_of_mem_targetPage ht)

/-- Every target that is not cancelled is observed, whichever its kind. -/
theorem reconcileKinds_observes (hlimit : 1 ≤ limit) {kinds : List ReconciliationTargetKind}
    (hkinds : kinds.Nodup) (h : reconcileKinds adapters clock limit kinds db = .ok (done, db')) :
    (∀ t ∈ db.reconciliationTargets, t.status ≠ .cancelled → t.kind ∈ kinds →
      ∃ t', db'.reconciliationTargets.get? t.id = some t' ∧ Observed adapters t t') ∧
    ∀ t ∈ db.reconciliationTargets, t.kind ∉ kinds →
      db'.reconciliationTargets.get? t.id = some t := by
  induction kinds generalizing db done with
  | nil =>
    cases h
    exact ⟨fun _ _ _ hkind => absurd hkind List.not_mem_nil, fun t ht _ => Table.get?_key ht⟩
  | cons kind rest ih =>
    simp only [reconcileKinds, Except.bind_eq_ok, Except.pure_eq_ok, Prod.mk.injEq] at h
    obtain ⟨⟨first, db₁⟩, hpages, ⟨more, db₂⟩, hrest, -, rfl⟩ := h
    obtain ⟨hkind, hrestNodup⟩ := List.nodup_cons.mp hkinds
    have hobserves := reconcilePages_observes hlimit (Nat.lt_succ_self _) hpages
    obtain ⟨hobserved, hothers⟩ := ih hrestNodup hrest
    have hkept : ∀ t ∈ db.reconciliationTargets, t.kind ≠ kind →
        db₁.reconciliationTargets.get? t.id = some t := by
      intro t ht hne
      have hrow : db.reconciliationTargets.get? t.id = some t := Table.get?_key ht
      refine (hobserves.others t.id fun t' ht' heq => hne ?_).trans hrow
      obtain ⟨hin, -, hkind', -⟩ := mem_pendingTargets.mp ht'
      exact Table.eq_of_key_eq hin ht heq ▸ hkind'
    refine ⟨fun t ht hstatus hmem => ?_, fun t ht hmem => ?_⟩
    · by_cases hfirst : t.kind = kind
      · obtain ⟨t₁, hget, hone⟩ := hobserves.observed t
          (mem_pendingTargets.mpr ⟨ht, hstatus, hfirst, fun _ hid => by cases hid⟩)
        have hid : t₁.id = t.id := Table.key_of_get? hget
        have hlater := hothers t₁ (Table.mem_of_get? hget)
          (by rw [hone.kind, hfirst]; exact hkind)
        exact ⟨t₁, hid ▸ hlater, hone⟩
      · exact hobserved t (Table.mem_of_get? (hkept t ht hfirst)) hstatus
          ((List.mem_cons.mp hmem).resolve_left hfirst)
    · obtain ⟨hfirst, hmem⟩ := not_or.mp (mt List.mem_cons.mpr hmem)
      exact hothers t (Table.mem_of_get? (hkept t ht hfirst)) hmem

end Pages

/-! ### Claims -/

section Claims
variable {rt : Runtime} {db db' : Database} {grant : JobLeaseGrant}

/-- A grant is of the job it leases. -/
theorem grant_of_issueLease {r : ClaimRequest} {job : BackgroundJob} {now : Time}
    {recovered : Bool}
    (h : issueLease rt db r job now recovered = .ok (some grant, db')) :
    grant.jobId = job.id ∧ job.taskId = some grant.taskId := by
  simp only [issueLease, grantOf, Except.bind_eq_ok, Except.orThrow_eq_ok, Except.pure_eq_ok,
    Prod.mk.injEq, Option.some.injEq] at h
  obtain ⟨_, _, _, ⟨taskId, htask, rfl⟩, rfl, -⟩ := h
  exact ⟨rfl, htask⟩

/-- A claim grants a job that no target blocks. -/
theorem unblocked_of_claimLoop {r : ClaimRequest} (rounds : ℕ) {reading : ℕ}
    (h : claimLoop rt r rounds reading db = .ok (some grant, db')) :
    ∃ job, reconciliationBlocks db job = false ∧ grant.jobId = job.id ∧
      job.taskId = some grant.taskId := by
  induction rounds generalizing reading db with
  | zero =>
    simp only [claimLoop, Except.ok.injEq, Prod.mk.injEq] at h
    cases h.1
  | succ rounds ih =>
    rw [claimLoop] at h
    cases hnext : nextClaimable db r.jobTypes r.locked (r.clock reading) with
    | none =>
      simp only [hnext, Except.ok.injEq, Prod.mk.injEq] at h
      cases h.1
    | some job =>
      obtain ⟨-, hclaimable⟩ := nextClaimable_spec hnext
      have hblocks : reconciliationBlocks db job = false := by
        simp only [claimable, Bool.and_eq_true, Bool.not_eq_true'] at hclaimable
        exact hclaimable.1.1.2
      simp only [hnext] at h
      split at h
      · simp only [Except.bind_eq_ok, Except.orThrow_eq_ok] at h
        obtain ⟨previous, -, h⟩ := h
        split at h
        · simp only [Except.pure_eq_ok, Prod.mk.injEq] at h
          cases h.1
        · split at h
          · have hrest := ih h
            exact hrest
          · exact ⟨job, hblocks, grant_of_issueLease h⟩
      · exact ⟨job, hblocks, grant_of_issueLease h⟩

/-- No claim returns a job that a target blocks, by itself or through its task. -/
theorem unblocked_of_claimNext {c : ClaimCommand}
    (h : BackgroundJobService.claimNext rt db c = .ok (some grant, db')) :
    ∀ t ∈ db.reconciliationTargets, t.status = .retryRequired →
      t.jobId ≠ some grant.jobId ∧ t.taskId ≠ some grant.taskId := by
  simp only [BackgroundJobService.claimNext, Except.bind_eq_ok] at h
  obtain ⟨_, -, _, -, _, -, h⟩ := h
  obtain ⟨job, hblocks, hjob, htask⟩ := unblocked_of_claimLoop _ h
  intro t ht hstatus
  have hfree := List.any_eq_false.mp hblocks t ht
  simp only [hstatus, Bool.and_eq_true, Bool.or_eq_true, decide_eq_true_eq, htask, hjob] at hfree ⊢
  refine ⟨fun hid => hfree ⟨.inl hid, by decide⟩, fun hid => hfree ⟨.inr ⟨?_, hid⟩, by decide⟩⟩
  rw [hid]
  rfl

end Claims

/-- After a recovery every target that was not cancelled and whose probe told nothing is to be
retried, and as long as it is, no claim returns its job or a job of its task. -/
theorem failsClosed_of_recover {rt : Runtime} {adapters : Adapters} {clock : UUID → Time}
    {limit : ℕ} {before : Database → Except ReliabilityError Database} {db db' : Database}
    {done : List UUID}
    (h : StartupRecoveryService.recover adapters clock limit before db = .ok (done, db')) :
    (∃ mid, before db = .ok mid ∧ ∀ t ∈ mid.reconciliationTargets, t.status ≠ .cancelled →
      adapters.Inconclusive t → ∃ t', db'.reconciliationTargets.get? t.id = some t' ∧
        t'.status = .retryRequired ∧ t'.jobId = t.jobId ∧ t'.taskId = t.taskId) ∧
    ∀ later c grant after, BackgroundJobService.claimNext rt later c = .ok (some grant, after) →
      ∀ t ∈ later.reconciliationTargets, t.status = .retryRequired →
        t.jobId ≠ some grant.jobId ∧ t.taskId ≠ some grant.taskId := by
  refine ⟨?_, fun later c grant after hclaim => unblocked_of_claimNext hclaim⟩
  simp only [StartupRecoveryService.recover, Except.bind_eq_ok, Except.require_eq_ok] at h
  obtain ⟨-, ⟨hlimit, -⟩, mid, hmid, h⟩ := h
  refine ⟨mid, hmid, fun t ht hstatus hprobe => ?_⟩
  have hall : t.kind ∈ kindOrder := by
    cases t.kind <;> decide
  obtain ⟨t', hget, hobserved⟩ :=
    (reconcileKinds_observes hlimit (by decide) h).1 t ht hstatus hall
  exact ⟨t', hget, hobserved.status.trans (status_of_inconclusive hprobe), hobserved.jobId,
    hobserved.taskId⟩

namespace RecoveryExample

/-- A run that was started before the restart, of which nothing is known. -/
def target : ReconciliationTarget where
  id := .ofNat 1
  taskId := some (.ofNat 2)
  jobId := some (.ofNat 3)
  kind := .hermesRun
  status := .pending

def store : Database where
  reconciliationTargets := ⟨[target], by decide⟩

/-- No adapter is configured, and nothing else is to be recovered. -/
def recovered : Except ReliabilityError (List UUID × Database) :=
  StartupRecoveryService.recover (fun _ => none) (fun _ => seconds 1) 10 .ok store

theorem recovered_isOk : recovered.isOk = true := by
  decide +kernel

end RecoveryExample

open RecoveryExample in
theorem failsClosed_of_recover_withoutAdapter :
    ∃ done db, recovered = .ok (done, db) ∧
      ∃ t', db.reconciliationTargets.get? target.id = some t' ∧ t'.status = .retryRequired ∧
        t'.jobId = target.jobId ∧ t'.taskId = target.taskId := by
  obtain ⟨⟨done, db⟩, hrun⟩ := Except.exists_of_isOk recovered_isOk
  obtain ⟨mid, hmid, hblocked⟩ :=
    (@failsClosed_of_recover .plain (fun _ => none) (fun _ => seconds 1) 10 .ok store db done hrun).1
  cases hmid
  exact ⟨done, db, hrun, hblocked target List.mem_cons_self (by decide) trivial⟩

end ControlPlane
