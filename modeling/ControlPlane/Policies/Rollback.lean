import ControlPlane.Policies.Lineage
import ControlPlane.Task.Commands

/-!
# Rolling back

The version before the active one can always be restored, and what was rolled back can be
rolled back itself. A rollback that was carried out is answered again, however many requests
come in between, and is never carried out twice.

## Main definitions

* `Proper`: a request for the rollback of the active version.
* `Restored`: what the rollback leaves.
* `SameRequest`: requests that ask for the same rollback.

## Main results

* `rollback_restores`
* `rollback_replays`
-/
namespace ControlPlane.Policies

/-! ### A rollback that is carried out -/

/-- A request of the user to roll the active version of a lineage back. -/
structure Proper (s : PolicyStore) (lineageKey : String) (source : PolicyVersion)
    (c : RollbackCommand) : Prop where
  user : c.authentication.userId = localUserId
  password : c.authentication.recentPasswordVerified = true
  activation : s.policyActivations.get? c.activationId = none
  restored : s.policyVersions.get? c.restoredPolicyVersionId = none
  inTime : c.activationTime ≤ c.now + maxActivationClockSkew ∧
    c.now ≤ c.activationTime + maxActivationClockSkew
  active : s.activePolicy localOwnerId lineageKey c.now = some source
  changed : source.id = c.sourcePolicyVersionId
  target : source.rollbackPolicyVersionId = some c.restoreFromPolicyVersionId

/-- A rollback was carried out: from then on the new version is the active one, it contains what
the target contains, and no other version has changed. -/
structure Restored (rt : Runtime) (lineageKey : String) (c : RollbackCommand) (s s' : PolicyStore)
    (target restored : PolicyVersion) : Prop where
  carriedOut : ∃ r, rollback rt lineageKey s c = .ok (r, s') ∧ r.replayed = false
  id : restored.id = c.restoredPolicyVersionId
  active : ∀ now, c.now ≤ now → s'.activePolicy localOwnerId lineageKey now = some restored
  content : s'.content restored = s.content target
  kept : ∀ p ∈ s.policyVersions, p ∈ s'.policyVersions ∧ s'.content p = s.content p

section Restore
variable {rt : Runtime} {s s' : PolicyStore} {lineageKey : String} {source p : PolicyVersion}
  {a : PolicyActivation} {c : RollbackCommand}

theorem authorized_of_user {authentication : AuthenticatedSession}
    (huser : authentication.userId = localUserId)
    (hpassword : authentication.recentPasswordVerified = true) :
    requireHumanPolicyAuthorization authentication = .ok localOwnerId := by
  rw [requireHumanPolicyAuthorization, Except.require, if_pos huser, Except.require,
    if_pos hpassword]
  rfl

/-- A new version is the active one from its approval on. -/
theorem Installs.active (h : Installs s s' source p a) {now : Time} (hnow : p.approvedAt ≤ now) :
    s'.activePolicy p.ownerId p.lineageKey now = some p := by
  have hrows : s'.policyVersions.rows = s.policyVersions.rows ++ [p] :=
    (Table.insert?_eq_some.mp h.policies).2
  rw [PolicyStore.activePolicy, PolicyStore.lineage, Table.select, hrows, List.filter_append,
    List.filter_singleton, decide_eq_true rfl, cond_true, List.filter_append,
    List.filter_singleton, decide_eq_true rfl, decide_eq_true hnow, Bool.and_true, cond_true]
  refine latestBy_append_singleton fun q hq => ?_
  obtain ⟨hmem, hlineage⟩ := List.mem_filter.mp (List.mem_filter.mp hq).1
  exact h.version ▸ (version_lt_next hmem (of_decide_eq_true hlineage)).le

/-- The target of the active version is there, and is the version before it. -/
theorem exists_target (hs : Sound s) {now : Time} {id : UUID}
    (hactive : s.activePolicy localOwnerId lineageKey now = some source)
    (htarget : source.rollbackPolicyVersionId = some id) :
    ∃ target, s.policyVersions.get? id = some target ∧ source.predecessorId = some target.id ∧
      target.ownerId = localOwnerId ∧ target.lineageKey = lineageKey ∧
      target.approvedAt ≤ now := by
  obtain ⟨hmem, hlineage, howner, happroved⟩ := activePolicy_spec hactive
  obtain ⟨-, hnone⟩ | ⟨target, a, hfollows⟩ := hs.follows source hmem
  · rw [hnone] at htarget
    cases htarget
  · have hid : target.id = id := Option.some.inj (hfollows.rollback.symm.trans htarget)
    exact ⟨target, Table.get?_eq_some.mpr ⟨hfollows.stored, hid⟩, hfollows.predecessor,
      hfollows.owner.symm.trans howner, hfollows.lineage.symm.trans hlineage,
      hfollows.approved.trans happroved⟩

/-- The record of a first activation of a version is written. -/
theorem exists_recorded (hfingerprint : a.subjectFingerprint.length = 64)
    (hreviewed : a.regressionReviewed = true) (hevidence : a.evidenceIds.Nodup)
    (hsingle : ∀ b ∈ s.policyActivations, b.policyVersionId ≠ a.policyVersionId)
    (hfresh : s.policyActivations.get? a.id = none) :
    ∃ s', recordPolicyActivation rt s a = .ok s' := by
  obtain ⟨policyActivations, hinsert⟩ := Table.exists_insert? (t := s.policyActivations)
    (a := { a with activationFingerprint := rt.fingerprint a.payload }) hfresh
  refine ⟨{ s with policyActivations }, ?_⟩
  simp only [recordPolicyActivation, Except.bind_eq_ok, Except.require_eq_ok,
    Except.orThrow_eq_ok]
  exact ⟨(), hfingerprint, (), hreviewed, (), hevidence, (), hsingle, _, hinsert, rfl⟩

/-- With unused identifiers nothing stands against the restoring version. -/
theorem exists_restore (hs : Sound s) {target : PolicyVersion} {approver : String}
    (hactivation : s.policyActivations.get? c.activationId = none)
    (hrestored : s.policyVersions.get? c.restoredPolicyVersionId = none) :
    ∃ s', restore rt s lineageKey source target c approver =
      .ok (restoredResult s lineageKey source target c, s') := by
  obtain ⟨policyVersions, hpolicies⟩ := Table.exists_insert? (t := s.policyVersions)
    (a := restoredPolicy s lineageKey source target c approver) hrestored
  obtain ⟨mid, hinstall, hactivations⟩ : ∃ mid,
      s.install (restoredPolicy s lineageKey source target c approver)
        (Placement.copied s.policyVersionReviewRules target.id c.restoredPolicyVersionId)
        (Placement.copied s.policyVersionPromptTemplates target.id c.restoredPolicyVersionId) =
          .ok mid ∧ mid.policyActivations = s.policyActivations := by
    rw [PolicyStore.install, hpolicies]
    exact ⟨_, rfl, rfl⟩
  have hsingle : ∀ b ∈ mid.policyActivations, b.policyVersionId ≠ c.restoredPolicyVersionId := by
    intro b hb heq
    have hsome := hs.activated b (hactivations ▸ hb)
    rw [heq, hrestored] at hsome
    cases hsome
  obtain ⟨s', hrecord⟩ : ∃ s', recordPolicyActivation rt mid
      (rollbackActivation rt mid source target c approver) = .ok s' :=
    exists_recorded (rt.length_sha256 _) rfl List.nodup_nil hsingle (hactivations ▸ hactivation)
  refine ⟨s', ?_⟩
  simp only [restore, Except.bind_eq_ok]
  exact ⟨mid, hinstall, s', hrecord, rfl⟩

variable (rt) in
/-- A request for the rollback of the active version is carried out. -/
theorem restored_of_proper (hs : Sound s) (h : Proper s lineageKey source c) :
    ∃ target s' restored, s.policyVersions.get? c.restoreFromPolicyVersionId = some target ∧
      source.predecessorId = some target.id ∧ Restored rt lineageKey c s s' target restored ∧
      restored.rollbackPolicyVersionId = some source.id ∧ Sound s' := by
  obtain ⟨target, htarget, hpredecessor, howner, hlineage, happroved⟩ :=
    exists_target hs h.active h.target
  obtain ⟨s', hrestore⟩ : ∃ s', restore rt s lineageKey source target c localOwnerId =
      .ok (restoredResult s lineageKey source target c, s') :=
    exists_restore hs h.activation h.restored
  obtain ⟨hmem, hsourceLineage, hsourceOwner, hsourceApproved⟩ := activePolicy_spec h.active
  have htargetMem := Table.mem_of_get? htarget
  obtain ⟨hinstalls, hcontent, -⟩ := restore_installs hs hmem htargetMem hsourceLineage
    hsourceOwner hsourceApproved hrestore
  have hcarried : rollback rt lineageKey s c =
      .ok (restoredResult s lineageKey source target c, s') := by
    have hunused : ¬((s.policyActivations.get? c.activationId).isSome ∨
        (s.policyVersions.get? c.restoredPolicyVersionId).isSome) := by
      simp [h.activation, h.restored]
    simp only [rollback, Except.bind_eq_ok]
    refine ⟨localOwnerId, authorized_of_user h.user h.password, ?_⟩
    rw [if_neg hunused]
    simp only [Except.bind_eq_ok, checkActivationTime, Except.require_eq_ok, Except.orThrow_eq_ok,
      Except.relabel_eq_ok, Option.filter_eq_some_iff]
    refine ⟨(), h.inTime, source, h.active, (), h.changed, (), h.target, target, ⟨htarget, ?_⟩,
      hrestore⟩
    rw [decide_eq_true howner, decide_eq_true hlineage, decide_eq_true happroved]
    rfl
  have hgrows := hinstalls.grows
  refine ⟨target, s', _, htarget, hpredecessor, ⟨⟨_, hcarried, rfl⟩, rfl, fun now hnow => ?_,
    hcontent, fun q hq => ⟨hgrows.policies q hq, hgrows.content q hq⟩⟩, rfl, ?_⟩
  · exact hinstalls.active hnow
  · exact (hs.rollback hcarried).1

/-- **A rollback restores**: in every run, a request of the user to roll the active version of a
lineage back, with unused identifiers and in time, is carried out. The target is the version
before the active one; the new version is the active one from then on and contains what the
target contains. When that version is rolled back in turn, what was active before is restored. -/
theorem rollback_restores (hs : (policySystem rt).Reachable s)
    (h : Proper s lineageKey source c) :
    ∃ target s' restored, source.predecessorId = some target.id ∧
      Restored rt lineageKey c s s' target restored ∧
      ∀ c', Proper s' lineageKey restored c' →
        ∃ s'' again, Restored rt lineageKey c' s' s'' source again := by
  have hsound := sound_of_reachable hs
  obtain ⟨target, s', restored, -, hpredecessor, hrestored, hrollback, hsound'⟩ :=
    restored_of_proper rt hsound h
  refine ⟨target, s', restored, hpredecessor, hrestored, fun c' h' => ?_⟩
  obtain ⟨target', s'', again, htarget', -, hagain, -⟩ := restored_of_proper rt hsound' h'
  have hid : c'.restoreFromPolicyVersionId = source.id :=
    Option.some.inj (h'.target.symm.trans hrollback)
  have hsource : source ∈ s'.policyVersions :=
    (hrestored.kept source (activePolicy_spec h.active).1).1
  obtain rfl : target' = source := by
    rw [hid] at htarget'
    exact Option.some.inj (htarget'.symm.trans (Table.get?_key hsource))
  exact ⟨s'', again, hagain⟩

/-- The user takes the promotion back. -/
def PolicyExample.takeBack : RollbackCommand where
  sourcePolicyVersionId := .ofNat 7
  activationId := .ofNat 11
  restoredPolicyVersionId := .ofNat 12
  restoreFromPolicyVersionId := .ofNat 1
  activationTime := 20
  authentication := ⟨.ofNat 13, localUserId, "", 100, 100, 100, 20, true⟩
  now := 20

open PolicyExample in
theorem PolicyExample.exists_proper : ∃ s source, (policySystem .plain).Reachable s ∧
    Proper s "mvp" source takeBack := by
  obtain ⟨s, hs, hactive, hactivation, hversion⟩ := exists_promoted
  obtain ⟨source, hsource, heq⟩ := Option.map_eq_some_iff.mp hactive
  exact ⟨s, source, hs, rfl, rfl, hactivation, hversion, by decide, hsource,
    congrArg Prod.fst heq, congrArg Prod.snd heq⟩

open PolicyExample in
theorem rollback_restores_takeBack :
    ∃ (s s' : PolicyStore) (source target restored : PolicyVersion),
    source.predecessorId = some target.id ∧
      Restored .plain "mvp" takeBack s s' target restored := by
  obtain ⟨s, source, hs, hproper⟩ := exists_proper
  obtain ⟨target, s', restored, hpredecessor, hrestored, -⟩ := rollback_restores hs hproper
  exact ⟨s, s', source, target, restored, hpredecessor, hrestored⟩

end Restore

/-! ### A rollback that is asked for again -/

/-- Requests for the same rollback, whenever they are made. -/
structure SameRequest (c c' : RollbackCommand) : Prop where
  source : c'.sourcePolicyVersionId = c.sourcePolicyVersionId
  activation : c'.activationId = c.activationId
  restored : c'.restoredPolicyVersionId = c.restoredPolicyVersionId
  target : c'.restoreFromPolicyVersionId = c.restoreFromPolicyVersionId
  time : c'.activationTime = c.activationTime

instance (c c' : RollbackCommand) : Decidable (SameRequest c c') :=
  decidable_of_iff (c'.sourcePolicyVersionId = c.sourcePolicyVersionId ∧
      c'.activationId = c.activationId ∧ c'.restoredPolicyVersionId = c.restoredPolicyVersionId ∧
      c'.restoreFromPolicyVersionId = c.restoreFromPolicyVersionId ∧
      c'.activationTime = c.activationTime)
    ⟨fun h => ⟨h.1, h.2.1, h.2.2.1, h.2.2.2.1, h.2.2.2.2⟩,
      fun h => ⟨h.source, h.activation, h.restored, h.target, h.time⟩⟩

section Replay
variable {rt : Runtime} {s s' s'' : PolicyStore} {lineageKey lineageKey' approver : String}
  {c c' : RollbackCommand} {r r' : PolicyRollbackResult}

/-- The answer to a request that was carried out before. -/
def replayedResult (c : RollbackCommand) (restored : PolicyVersion) (a : PolicyActivation) :
    PolicyRollbackResult where
  sourcePolicyVersionId := c.sourcePolicyVersionId
  restoredPolicyVersionId := restored.id
  restoredPolicyVersion := restored.version
  restoredFromPolicyVersionId := c.restoreFromPolicyVersionId
  rollbackPolicyVersionId := c.sourcePolicyVersionId
  activationId := a.id
  activatedAt := a.activatedAt
  replayed := true

theorem replayedRollback_eq_ok : replayedRollback rt s c approver = .ok r ↔
    ∃ a restored target, s.policyActivations.get? c.activationId = some a ∧
      s.policyVersions.get? c.restoredPolicyVersionId = some restored ∧
      s.policyVersions.get? c.restoreFromPolicyVersionId = some target ∧
      Replays rt s c approver a restored target ∧ replayedResult c restored a = r := by
  simp only [replayedRollback, Except.bind_eq_ok, Except.orThrow_eq_ok, Except.require_eq_ok,
    Except.pure_eq_ok]
  constructor
  · rintro ⟨a, ha, restored, hrestored, target, htarget, _, hreplays, rfl⟩
    exact ⟨a, restored, target, ha, hrestored, htarget, hreplays, rfl⟩
  · rintro ⟨a, restored, target, ha, hrestored, htarget, hreplays, rfl⟩
    exact ⟨a, ha, restored, hrestored, target, htarget, (), hreplays, rfl⟩

/-- What is refused is refused for its identifiers. -/
theorem replayedRollback_of_ne_ok (h : ∀ r, replayedRollback rt s c approver ≠ .ok r) :
    replayedRollback rt s c approver = .error (.conflict "policy rollback ids conflict") := by
  cases hresult : replayedRollback rt s c approver with
  | ok r => exact absurd hresult (h r)
  | error e =>
    simp only [replayedRollback, Except.bind_eq_error, Except.orThrow_eq_error,
      Except.require_eq_error, Except.pure_ne_error, and_false, exists_false, or_false] at hresult
    obtain ⟨-, rfl⟩ | ⟨_, -, ⟨-, rfl⟩ | ⟨_, -, ⟨-, rfl⟩ | ⟨_, -, -, rfl⟩⟩⟩ := hresult <;> rfl

theorem SameRequest.replayedRollback_eq (h : SameRequest c c') :
    replayedRollback rt s c' approver = replayedRollback rt s c approver := by
  simp only [replayedRollback, Replays, h.source, h.activation, h.restored, h.target, h.time]

/-- Rows that are added do not change the answer. -/
theorem Grows.replayedRollback_eq_ok (hgrows : Grows s s')
    (h : replayedRollback rt s c approver = .ok r) :
    replayedRollback rt s' c approver = .ok r := by
  obtain ⟨a, restored, target, ha, hrestored, htarget, hreplays, hr⟩ :=
    Policies.replayedRollback_eq_ok.mp h
  obtain ⟨hmem, ha⟩ := Table.get?_eq_some.mp ha
  obtain ⟨hrestoredMem, hrestored⟩ := Table.get?_eq_some.mp hrestored
  obtain ⟨htargetMem, htarget⟩ := Table.get?_eq_some.mp htarget
  refine Policies.replayedRollback_eq_ok.mpr ⟨a, restored, target,
    Table.get?_eq_some.mpr ⟨hgrows.activations a hmem, ha⟩,
    Table.get?_eq_some.mpr ⟨hgrows.policies restored hrestoredMem, hrestored⟩,
    Table.get?_eq_some.mpr ⟨hgrows.policies target htargetMem, htarget⟩, ?_, hr⟩
  rw [Replays, policyFingerprint_of_content (hgrows.content target htargetMem)]
  exact hreplays

/-- What was answered once is there to be answered again. -/
theorem replayedRollback_of_rollback (hs : Sound s)
    (h : rollback rt lineageKey s c = .ok (r, s')) :
    replayedRollback rt s' c localOwnerId = .ok { r with replayed := true } := by
  obtain ⟨rfl, hreplayed⟩ | ⟨source, target, hsource, hchanged, hrollback, htarget, -, hrestore⟩ :=
    rollback_cases h
  · obtain ⟨a, restored, target, -, -, -, -, rfl⟩ := replayedRollback_eq_ok.mp hreplayed
    exact hreplayed
  obtain ⟨hmem, htargetId⟩ := Table.get?_eq_some.mp htarget
  obtain ⟨hactive, hlineage, howner, happroved⟩ := activePolicy_spec hsource
  obtain ⟨hinstalls, hcontent, rfl⟩ :=
    restore_installs hs hactive hmem hlineage howner happroved hrestore
  have hgrows := hinstalls.grows
  have hrestored := Table.get?_key hinstalls.new_mem
  have hactivation := Table.get?_key ((Table.mem_insert? hinstalls.activations).mpr (.inr rfl))
  have htarget' : s'.policyVersions.get? c.restoreFromPolicyVersionId = some target :=
    Table.get?_eq_some.mpr ⟨hgrows.policies target hmem, htargetId⟩
  have hfingerprint : policyFingerprint rt s' target = policyFingerprint rt s target :=
    policyFingerprint_of_content (hgrows.content target hmem)
  refine replayedRollback_eq_ok.mpr ⟨_, _, target, hactivation, hrestored, htarget',
    ⟨rfl, hchanged, hchanged, rfl, htargetId, rfl, hfingerprint.symm, rfl, rfl,
      congrArg some hchanged, congrArg some hchanged, rfl, rfl, hs.thresholds target hmem⟩, ?_⟩
  rw [replayedResult, restoredResult, hchanged, show target.id = _ from htargetId]
  rfl

/-- Two requests with an identifier in common that are both answered ask for the same. -/
theorem sameRequest_of_replayed (hs : Sound s)
    (h : replayedRollback rt s c approver = .ok r)
    (h' : replayedRollback rt s c' approver = .ok r')
    (hids : c'.activationId = c.activationId ∨
      c'.restoredPolicyVersionId = c.restoredPolicyVersionId) : SameRequest c c' := by
  obtain ⟨a, restored, target, ha, hrestored, htarget, hreplays, -⟩ := replayedRollback_eq_ok.mp h
  obtain ⟨a', restored', target', ha', hrestored', htarget', hreplays', -⟩ :=
    replayedRollback_eq_ok.mp h'
  obtain ⟨hmem, hid⟩ := Table.get?_eq_some.mp ha
  obtain ⟨hmem', hid'⟩ := Table.get?_eq_some.mp ha'
  obtain ⟨hversion, hsource, -, -, hsubject, -, -, -, htime, -⟩ := hreplays
  obtain ⟨hversion', hsource', -, -, hsubject', -, -, -, htime', -⟩ := hreplays'
  rw [show restored.id = _ from Table.key_of_get? hrestored] at hversion
  rw [show restored'.id = _ from Table.key_of_get? hrestored'] at hversion'
  -- Either identifier leads to the activation, which is the only one of its version.
  have hsame : a' = a := by
    rcases hids with hids | hids
    · rw [hids] at ha'
      exact Option.some.inj (ha'.symm.trans ha)
    · exact hs.single a' hmem' a hmem (by rw [hversion, hversion', hids])
  subst hsame
  exact ⟨hsource'.symm.trans hsource, hid'.symm.trans hid, hversion'.symm.trans hversion,
    hsubject'.symm.trans hsubject, htime'.symm.trans htime⟩

/-- A request with an identifier that is used is only answered again. -/
theorem rollback_of_used
    (hauthorized : requireHumanPolicyAuthorization c.authentication = .ok localOwnerId)
    (hused : (s.policyActivations.get? c.activationId).isSome ∨
      (s.policyVersions.get? c.restoredPolicyVersionId).isSome) :
    rollback rt lineageKey s c = (replayedRollback rt s c localOwnerId).map (·, s) := by
  rw [rollback, hauthorized]
  simp only [Except.ok_bind, if_pos hused]
  cases replayedRollback rt s c localOwnerId <;> rfl

/-- **A rollback is carried out once**: whatever requests come after a rollback that was
answered, a later request with one of its two identifiers changes nothing. When it asks for the
same rollback it gets the same answer, marked as a repetition, at any later time; any other
request is refused for its identifiers. -/
theorem rollback_replays (hs : (policySystem rt).Reachable s)
    (h : rollback rt lineageKey s c = .ok (r, s'))
    (hrun : Relation.ReflTransGen (PolicyStep rt) s' s'')
    (hauthorized : requireHumanPolicyAuthorization c'.authentication = .ok localOwnerId)
    (hids : c'.activationId = c.activationId ∨
      c'.restoredPolicyVersionId = c.restoredPolicyVersionId) :
    rollback rt lineageKey' s'' c' =
      if SameRequest c c' then .ok ({ r with replayed := true }, s'')
      else .error (.conflict "policy rollback ids conflict") := by
  have hsound := sound_of_reachable hs
  obtain ⟨hsound'', hgrows⟩ := grows_of_run (hsound.rollback h).1 hrun
  have hreplayed := hgrows.replayedRollback_eq_ok (replayedRollback_of_rollback hsound h)
  have hused : (s''.policyActivations.get? c'.activationId).isSome ∨
      (s''.policyVersions.get? c'.restoredPolicyVersionId).isSome := by
    obtain ⟨a, restored, -, ha, hrestored, -⟩ := replayedRollback_eq_ok.mp hreplayed
    rcases hids with hids | hids
    · exact .inl (by rw [hids, ha]; rfl)
    · exact .inr (by rw [hids, hrestored]; rfl)
  rw [rollback_of_used hauthorized hused]
  split
  · rename_i hsame
    rw [hsame.replayedRollback_eq, hreplayed]
    rfl
  · rename_i hother
    rw [replayedRollback_of_ne_ok fun r' h' =>
      hother (sameRequest_of_replayed hsound'' hreplayed h' hids)]
    rfl

/-- The same request, made again a minute and a half later. -/
def PolicyExample.takeBackAgain : RollbackCommand := { PolicyExample.takeBack with now := 90000000 }

open PolicyExample in
theorem rollback_replays_takeBack : ∃ (s' : PolicyStore) (r : PolicyRollbackResult),
    rollback .plain "mvp" s' takeBackAgain = .ok ({ r with replayed := true }, s') := by
  obtain ⟨s, source, hs, hproper⟩ := exists_proper
  obtain ⟨target, s', restored, -, -, hrestored, -⟩ :=
    restored_of_proper .plain (sound_of_reachable hs) hproper
  obtain ⟨r, hcarried, -⟩ := hrestored.carriedOut
  have hsame : SameRequest takeBack takeBackAgain := ⟨rfl, rfl, rfl, rfl, rfl⟩
  have hagain : rollback .plain "mvp" s' takeBackAgain = _ :=
    rollback_replays hs hcarried .refl (authorized_of_user rfl rfl) (.inl rfl)
  exact ⟨s', r, hagain.trans (if_pos hsame)⟩

end Replay

end ControlPlane.Policies
