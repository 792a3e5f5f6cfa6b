import ControlPlane.Policies.Store

/-!
# The lineage of a policy

Every version but the first follows the one that was active when it was approved, and says
what became of it: a rule took the place of those of its lineage, a prompt of those of its
role, or the version before was taken back. Versions never change.

## Main definitions

* `Follows`: how a version comes from the one before.
* `Grows`: rows are added, and what a version contains stays.
* `Sound`: the invariant.

## Main results

* `sound_of_reachable`
* `policies_follow`: the lineage in every run.
-/
namespace ControlPlane.Policies

/-! ### What a version contains -/

/-- The thresholds of a version, and its rules and prompts in order. -/
structure Content where
  thresholds : Json
  rules : List UUID
  prompts : List UUID

def PolicyStore.content (s : PolicyStore) (p : PolicyVersion) : Content where
  thresholds := p.workflowThresholds
  rules := Placement.members s.policyVersionReviewRules p.id
  prompts := Placement.members s.policyVersionPromptTemplates p.id

section Lookup
variable {α : Type*} [Keyed α UUID] {t t' : Table α}

theorem isSome_grown (h : ∀ a ∈ t, a ∈ t') {id : UUID} (hid : (t.get? id).isSome) :
    (t'.get? id).isSome := by
  obtain ⟨a, ha⟩ := Option.isSome_iff_exists.mp hid
  obtain ⟨hmem, rfl⟩ := Table.get?_eq_some.mp ha
  rw [Table.get?_key (h a hmem)]
  rfl

/-- Members that are there are found again in a table with more rows. -/
theorem filterMap_grown (h : ∀ a ∈ t, a ∈ t') {ids : List UUID}
    (hids : ∀ id ∈ ids, (t.get? id).isSome) : ids.filterMap t'.get? = ids.filterMap t.get? := by
  refine List.filterMap_congr fun id hid => ?_
  obtain ⟨a, ha⟩ := Option.isSome_iff_exists.mp (hids id hid)
  obtain ⟨hmem, hkey⟩ := Table.get?_eq_some.mp ha
  rw [ha]
  exact Table.get?_eq_some.mpr ⟨h a hmem, hkey⟩

/-- Rows of a table are found under their keys. -/
theorem filterMap_map_key {as : List α} (h : ∀ a ∈ as, a ∈ t) :
    (as.map key).filterMap t.get? = as := by
  rw [List.filterMap_map]
  have hfound : ∀ a ∈ as, (t.get? ∘ key) a = some a := fun a ha => Table.get?_key (h a ha)
  rw [List.filterMap_congr hfound, List.filterMap_some]

theorem mem_of_filterMap {ids : List UUID} {a : α} (h : a ∈ ids.filterMap t.get?) :
    a ∈ t ∧ key a ∈ ids := by
  obtain ⟨id, hid, ha⟩ := List.mem_filterMap.mp h
  obtain ⟨hmem, rfl⟩ := Table.get?_eq_some.mp ha
  exact ⟨hmem, hid⟩

end Lookup

/-- The promoted rule is the only one of its lineage. -/
theorem nodup_lineages_replacement {rule : ReviewRule} {rules : List ReviewRule}
    (h : (rules.map ReviewRule.lineageKey).Nodup) :
    ((replacement rule rules).map ReviewRule.lineageKey).Nodup := by
  have hothers : ∀ r ∈ rules.takeWhile (·.lineageKey ≠ rule.lineageKey) ++
      (rules.dropWhile (·.lineageKey ≠ rule.lineageKey)).filter (·.lineageKey ≠ rule.lineageKey),
      r.lineageKey ≠ rule.lineageKey := by
    intro r hr
    rcases List.mem_append.mp hr with hr | hr
    · simpa using List.mem_takeWhile_imp hr
    · simpa using (List.mem_filter.mp hr).2
  have hkept : (rules.takeWhile (·.lineageKey ≠ rule.lineageKey) ++
      (rules.dropWhile (·.lineageKey ≠ rule.lineageKey)).filter
        (·.lineageKey ≠ rule.lineageKey)).Sublist rules := by
    have happend := (List.Sublist.refl (rules.takeWhile (·.lineageKey ≠ rule.lineageKey))).append
      (List.filter_sublist (p := (·.lineageKey ≠ rule.lineageKey))
        (l := rules.dropWhile (·.lineageKey ≠ rule.lineageKey)))
    rwa [earlier_append_later] at happend
  have hperm : (replacement rule rules).Perm (rule :: _) := List.perm_middle
  rw [(hperm.map ReviewRule.lineageKey).nodup_iff, List.map_cons, List.nodup_cons]
  refine ⟨fun hmem => ?_, h.sublist (hkept.map _)⟩
  obtain ⟨r, hr, heq⟩ := List.mem_map.mp hmem
  exact hothers r hr heq

theorem nodup_roles_replaceRole {prompt : PromptTemplateVersion}
    {prompts : List PromptTemplateVersion}
    (h : (prompts.map PromptTemplateVersion.role).Nodup) :
    ((replaceRole prompt prompts).map PromptTemplateVersion.role).Nodup := by
  rw [replaceRole, List.map_append, List.nodup_append]
  refine ⟨h.sublist (List.filter_sublist.map _), List.nodup_singleton _, ?_⟩
  rintro role hrole role' hrole' rfl
  obtain ⟨p, hp, rfl⟩ := List.mem_map.mp hrole
  have hne : p.role ≠ prompt.role := by simpa using (List.mem_filter.mp hp).2
  exact hne (by simpa using hrole')

/-! ### How versions follow each other -/

/-- What became of the version before. -/
inductive Derived (s : PolicyStore) (source p : PolicyVersion) (a : PolicyActivation) : Prop
  | rollback (target : PolicyVersion) (hkind : a.activationKind = .rollback)
      (htarget : target ∈ s.policyVersions)
      (hid : source.rollbackPolicyVersionId = some target.id)
      (hcontent : s.content p = s.content target)
  | rulePromotion (rule : ReviewRule) (hkind : a.activationKind = .rulePromotion)
      (hrule : rule ∈ s.reviewRules)
      (hcontent : s.content p = { s.content source with
        rules := (replacement rule (s.rulesOf source.id)).map ReviewRule.id })
  | promptPromotion (prompt : PromptTemplateVersion) (hkind : a.activationKind = .promptPromotion)
      (hprompt : prompt ∈ s.promptTemplateVersions)
      (hcontent : s.content p = { s.content source with
        prompts := (replaceRole prompt (s.promptsOf source.id)).map PromptTemplateVersion.id })

/-- A version follows the one that was active when it was approved; the record of its
activation says so, and it can be rolled back to that one. -/
structure Follows (s : PolicyStore) (source p : PolicyVersion) (a : PolicyActivation) : Prop where
  stored : source ∈ s.policyVersions
  activation : a ∈ s.policyActivations
  predecessor : p.predecessorId = some source.id
  rollback : p.rollbackPolicyVersionId = some source.id
  lineage : p.lineageKey = source.lineageKey
  owner : p.ownerId = source.ownerId
  later : source.version < p.version
  approved : source.approvedAt ≤ p.approvedAt
  policyVersion : a.policyVersionId = p.id
  sourceVersion : a.sourcePolicyVersionId = source.id
  rollbackVersion : a.rollbackPolicyVersionId = source.id
  derived : Derived s source p a

/-- Rows are added only, and none for a version that is there. -/
structure Grows (s s' : PolicyStore) : Prop where
  policies : ∀ p ∈ s.policyVersions, p ∈ s'.policyVersions
  activations : ∀ a ∈ s.policyActivations, a ∈ s'.policyActivations
  rules : ∀ r ∈ s.reviewRules, r ∈ s'.reviewRules
  prompts : ∀ p ∈ s.promptTemplateVersions, p ∈ s'.promptTemplateVersions
  content : ∀ p ∈ s.policyVersions, s'.content p = s.content p

theorem Grows.trans {s s' s'' : PolicyStore} (h : Grows s s') (h' : Grows s' s'') :
    Grows s s'' where
  policies p hp := h'.policies p (h.policies p hp)
  activations a ha := h'.activations a (h.activations a ha)
  rules r hr := h'.rules r (h.rules r hr)
  prompts p hp := h'.prompts p (h.prompts p hp)
  content p hp := (h'.content p (h.policies p hp)).trans (h.content p hp)

theorem Grows.refl (s : PolicyStore) : Grows s s :=
  ⟨fun _ h => h, fun _ h => h, fun _ h => h, fun _ h => h, fun _ _ => rfl⟩

/-- The rows of the memberships name versions, and rules or prompts, that are there. -/
def Placed {α : Type*} [Keyed α UUID] (policies : Table PolicyVersion) (members : Table α)
    (rows : List (Placement UUID UUID)) : Prop :=
  ∀ m ∈ rows, (policies.get? m.owner).isSome ∧ (members.get? m.member).isSome

/-- What holds of the policies in every run. -/
structure Sound (s : PolicyStore) : Prop where
  rules : Placed s.policyVersions s.reviewRules s.policyVersionReviewRules
  prompts : Placed s.policyVersions s.promptTemplateVersions s.policyVersionPromptTemplates
  activated : ∀ a ∈ s.policyActivations, (s.policyVersions.get? a.policyVersionId).isSome
  single : ∀ a ∈ s.policyActivations, ∀ b ∈ s.policyActivations,
    a.policyVersionId = b.policyVersionId → a = b
  numbered : ∀ p ∈ s.policyVersions, ∀ q ∈ s.policyVersions, p.lineageKey = q.lineageKey →
    p.version = q.version → p = q
  thresholds : ∀ p ∈ s.policyVersions, p.workflowThresholds.pyEq p.workflowThresholds = true
  follows : ∀ p ∈ s.policyVersions, p.predecessorId = none ∧ p.rollbackPolicyVersionId = none ∨
    ∃ source a, Follows s source p a
  lineages : ∀ p ∈ s.policyVersions, ((s.rulesOf p.id).map ReviewRule.lineageKey).Nodup
  roles : ∀ p ∈ s.policyVersions, ((s.promptsOf p.id).map PromptTemplateVersion.role).Nodup
  promoted : ∀ p ∈ s.policyVersions, ∀ q ∈ s.promptsOf p.id, q.promoted = true

section Keeps
variable {s s' : PolicyStore} {source p : PolicyVersion} {a : PolicyActivation}

theorem isSome_of_mem_members {α : Type*} [Keyed α UUID] {policies : Table PolicyVersion}
    {members : Table α} {rows : List (Placement UUID UUID)} (h : Placed policies members rows)
    {policyId id : UUID} (hid : id ∈ Placement.members rows policyId) :
    (members.get? id).isSome := by
  obtain ⟨m, hm, -, rfl⟩ := Placement.mem_members.mp hid
  exact (h m hm).2

theorem Grows.rulesOf (h : Grows s s') (hs : Sound s) (hp : p ∈ s.policyVersions) :
    s'.rulesOf p.id = s.rulesOf p.id := by
  rw [PolicyStore.rulesOf, show Placement.members s'.policyVersionReviewRules p.id = _ from
    congrArg Content.rules (h.content p hp)]
  exact filterMap_grown h.rules fun id hid => isSome_of_mem_members hs.rules hid

theorem Grows.promptsOf (h : Grows s s') (hs : Sound s) (hp : p ∈ s.policyVersions) :
    s'.promptsOf p.id = s.promptsOf p.id := by
  rw [PolicyStore.promptsOf, show Placement.members s'.policyVersionPromptTemplates p.id = _ from
    congrArg Content.prompts (h.content p hp)]
  exact filterMap_grown h.prompts fun id hid => isSome_of_mem_members hs.prompts hid

theorem Derived.grows (h : Derived s source p a) (hs : Sound s) (hgrows : Grows s s')
    (hsource : source ∈ s.policyVersions) (hp : p ∈ s.policyVersions) :
    Derived s' source p a := by
  cases h with
  | rollback target hkind htarget hid hcontent =>
    refine .rollback target hkind (hgrows.policies _ htarget) hid ?_
    rw [hgrows.content p hp, hgrows.content target htarget, hcontent]
  | rulePromotion rule hkind hrule hcontent =>
    refine .rulePromotion rule hkind (hgrows.rules _ hrule) ?_
    rw [hgrows.content p hp, hgrows.content source hsource, hgrows.rulesOf hs hsource, hcontent]
  | promptPromotion prompt hkind hprompt hcontent =>
    refine .promptPromotion prompt hkind (hgrows.prompts _ hprompt) ?_
    rw [hgrows.content p hp, hgrows.content source hsource, hgrows.promptsOf hs hsource, hcontent]

theorem Follows.grows (h : Follows s source p a) (hs : Sound s) (hgrows : Grows s s')
    (hp : p ∈ s.policyVersions) : Follows s' source p a :=
  { h with
    stored := hgrows.policies _ h.stored
    activation := hgrows.activations _ h.activation
    derived := h.derived.grows hs hgrows h.stored hp }

theorem Sound.follows_grown (hs : Sound s) (hgrows : Grows s s') (hp : p ∈ s.policyVersions) :
    (p.predecessorId = none ∧ p.rollbackPolicyVersionId = none) ∨
      ∃ source a, Follows s' source p a := by
  rcases hs.follows p hp with hfirst | ⟨source, a, hfollows⟩
  · exact .inl hfirst
  · exact .inr ⟨source, a, hfollows.grows hs hgrows hp⟩

end Keeps

/-! ### A version more -/

/-- A step that writes the next version after an active one, with its memberships and the
record of its activation. -/
structure Installs (s s' : PolicyStore) (source p : PolicyVersion) (a : PolicyActivation) :
    Prop where
  stored : source ∈ s.policyVersions
  policies : s.policyVersions.insert? p = some s'.policyVersions
  activations : s.policyActivations.insert? a = some s'.policyActivations
  reviewRules : ∀ r ∈ s.reviewRules, r ∈ s'.reviewRules
  promptTemplates : ∀ q ∈ s.promptTemplateVersions, q ∈ s'.promptTemplateVersions
  rules : ∃ new, s'.policyVersionReviewRules = s.policyVersionReviewRules ++ new ∧
    ∀ m ∈ new, m.owner = p.id ∧ (s'.reviewRules.get? m.member).isSome
  prompts : ∃ new, s'.policyVersionPromptTemplates = s.policyVersionPromptTemplates ++ new ∧
    ∀ m ∈ new, m.owner = p.id ∧ (s'.promptTemplateVersions.get? m.member).isSome
  predecessor : p.predecessorId = some source.id
  rollback : p.rollbackPolicyVersionId = some source.id
  lineage : p.lineageKey = source.lineageKey
  owner : p.ownerId = source.ownerId
  version : p.version = s.nextVersion p.lineageKey
  approved : source.approvedAt ≤ p.approvedAt
  policyVersion : a.policyVersionId = p.id
  sourceVersion : a.sourcePolicyVersionId = source.id
  rollbackVersion : a.rollbackPolicyVersionId = source.id

section Step
variable {s s' : PolicyStore} {source p q : PolicyVersion} {a : PolicyActivation}

theorem version_lt_next {lineageKey : String} (hq : q ∈ s.policyVersions)
    (hlineage : q.lineageKey = lineageKey) : q.version < s.nextVersion lineageKey := by
  have hmem : q ∈ s.lineage lineageKey := List.mem_filter.mpr ⟨hq, decide_eq_true hlineage⟩
  exact Nat.lt_succ_of_le (le_maxRank hmem)

theorem Installs.mem (h : Installs s s' source p a) :
    q ∈ s'.policyVersions ↔ q ∈ s.policyVersions ∨ q = p := Table.mem_insert? h.policies

theorem Installs.new_mem (h : Installs s s' source p a) : p ∈ s'.policyVersions :=
  h.mem.mpr (.inr rfl)

/-- No activation names the new version before. -/
theorem Installs.inactive (h : Installs s s' source p a) (hs : Sound s) {b : PolicyActivation}
    (hb : b ∈ s.policyActivations) : b.policyVersionId ≠ p.id := by
  have hsome := hs.activated b hb
  have hnone : s.policyVersions.get? p.id = none := (Table.insert?_eq_some.mp h.policies).1
  intro heq
  rw [heq, hnone] at hsome
  cases hsome

/-- Nothing named the new version before. -/
theorem Installs.fresh (h : Installs s s' source p a) {α : Type*} [Keyed α UUID]
    {members : Table α} {rows : List (Placement UUID UUID)}
    (hplaced : Placed s.policyVersions members rows) : ∀ m ∈ rows, m.owner ≠ p.id := by
  intro m hm heq
  have hsome := (hplaced m hm).1
  have hnone : s.policyVersions.get? p.id = none := (Table.insert?_eq_some.mp h.policies).1
  rw [heq, hnone] at hsome
  cases hsome

theorem Installs.ne (h : Installs s s' source p a) (hq : q ∈ s.policyVersions) : p.id ≠ q.id := by
  have hnone : s.policyVersions.get? p.id = none := (Table.insert?_eq_some.mp h.policies).1
  exact fun heq => Table.get?_eq_none.mp hnone q hq heq.symm

theorem Installs.grows (h : Installs s s' source p a) : Grows s s' where
  policies q hq := h.mem.mpr (.inl hq)
  activations b hb := (Table.mem_insert? h.activations).mpr (.inl hb)
  rules := h.reviewRules
  prompts := h.promptTemplates
  content q hq := by
    obtain ⟨rules, hrules, hrule⟩ := h.rules
    obtain ⟨prompts, hprompts, hprompt⟩ := h.prompts
    rw [PolicyStore.content, PolicyStore.content, hrules, hprompts,
      Placement.members_append_of_ne fun m hm => (hrule m hm).1 ▸ h.ne hq,
      Placement.members_append_of_ne fun m hm => (hprompt m hm).1 ▸ h.ne hq]

theorem Placed.append {α : Type*} [Keyed α UUID] {policies policies' : Table PolicyVersion}
    {members members' : Table α} {rows new : List (Placement UUID UUID)}
    (h : Placed policies members rows) (hpolicies : ∀ p ∈ policies, p ∈ policies')
    (hmembers : ∀ a ∈ members, a ∈ members') (hp : p ∈ policies')
    (hnew : ∀ m ∈ new, m.owner = p.id ∧ (members'.get? m.member).isSome) :
    Placed policies' members' (rows ++ new) := by
  intro m hm
  rcases List.mem_append.mp hm with hm | hm
  · exact ⟨isSome_grown hpolicies (h m hm).1, isSome_grown hmembers (h m hm).2⟩
  · obtain ⟨hid, hmember⟩ := hnew m hm
    refine ⟨?_, hmember⟩
    have hfound : policies'.get? p.id = some p := Table.get?_key hp
    rw [hid, hfound]
    rfl

/-- A version more keeps the invariant, when the new version is what it should be. -/
theorem Sound.install (hs : Sound s) (h : Installs s s' source p a)
    (hderived : Derived s' source p a)
    (hthresholds : p.workflowThresholds.pyEq p.workflowThresholds = true)
    (hlineages : ((s'.rulesOf p.id).map ReviewRule.lineageKey).Nodup)
    (hroles : ((s'.promptsOf p.id).map PromptTemplateVersion.role).Nodup)
    (hpromoted : ∀ q ∈ s'.promptsOf p.id, q.promoted = true) : Sound s' := by
  have hgrows := h.grows
  have hnew := h.new_mem
  have hnext : ∀ q ∈ s.policyVersions, q.lineageKey = p.lineageKey → q.version < p.version :=
    fun q hq hlineage => h.version ▸ version_lt_next hq hlineage
  refine ⟨?_, ?_, fun b hb => ?_, ?_, ?_, ?_, ?_, ?_, ?_, ?_⟩
  · obtain ⟨new, hrows, hrule⟩ := h.rules
    rw [hrows]
    exact hs.rules.append hgrows.policies hgrows.rules hnew hrule
  · obtain ⟨new, hrows, hprompt⟩ := h.prompts
    rw [hrows]
    exact hs.prompts.append hgrows.policies hgrows.prompts hnew hprompt
  · rcases (Table.mem_insert? h.activations).mp hb with hb | rfl
    · exact isSome_grown hgrows.policies (hs.activated b hb)
    · have hfound : s'.policyVersions.get? p.id = some p := Table.get?_key hnew
      rw [h.policyVersion, hfound]
      rfl
  · intro b hb b' hb' heq
    rcases (Table.mem_insert? h.activations).mp hb with hb | rfl <;>
      rcases (Table.mem_insert? h.activations).mp hb' with hb' | rfl
    · exact hs.single b hb b' hb' heq
    · exact absurd (heq.trans h.policyVersion) (h.inactive hs hb)
    · exact absurd (heq.symm.trans h.policyVersion) (h.inactive hs hb')
    · rfl
  · intro q hq r hr hlineage hversion
    rcases h.mem.mp hq with hq | rfl <;> rcases h.mem.mp hr with hr | rfl
    · exact hs.numbered q hq r hr hlineage hversion
    · exact absurd hversion (hnext q hq hlineage).ne
    · exact absurd hversion (hnext r hr hlineage.symm).ne'
    · rfl
  · intro q hq
    rcases h.mem.mp hq with hq | rfl
    · exact hs.thresholds q hq
    · exact hthresholds
  · intro q hq
    rcases h.mem.mp hq with hq | rfl
    · exact hs.follows_grown hgrows hq
    · exact .inr ⟨source, a, hgrows.policies _ h.stored,
        (Table.mem_insert? h.activations).mpr (.inr rfl), h.predecessor, h.rollback, h.lineage,
        h.owner, hnext source h.stored h.lineage.symm, h.approved, h.policyVersion,
        h.sourceVersion, h.rollbackVersion, hderived⟩
  · intro q hq
    rcases h.mem.mp hq with hq | rfl
    · rw [hgrows.rulesOf hs hq]
      exact hs.lineages q hq
    · exact hlineages
  · intro q hq
    rcases h.mem.mp hq with hq | rfl
    · rw [hgrows.promptsOf hs hq]
      exact hs.roles q hq
    · exact hroles
  · intro q hq
    rcases h.mem.mp hq with hq | rfl
    · rw [hgrows.promptsOf hs hq]
      exact hs.promoted q hq
    · exact hpromoted

end Step

/-! ### The transactions -/

section Transactions
variable {rt : Runtime} {s s' : PolicyStore} {lineageKey : String}

/-- What a new version leaves in the store, with its memberships and its activation. -/
structure Written (s s' : PolicyStore) (policy : PolicyVersion)
    (rules prompts : List (Placement UUID UUID)) (a : PolicyActivation) : Prop where
  policies : s.policyVersions.insert? policy = some s'.policyVersions
  activations : s.policyActivations.insert? a = some s'.policyActivations
  reviewRules : s'.reviewRules = s.reviewRules
  promptTemplates : s'.promptTemplateVersions = s.promptTemplateVersions
  rules : s'.policyVersionReviewRules = s.policyVersionReviewRules ++ rules
  prompts : s'.policyVersionPromptTemplates = s.policyVersionPromptTemplates ++ prompts

theorem written_of_ok {mid : PolicyStore} {policy : PolicyVersion}
    {rules prompts : List (Placement UUID UUID)} {a : PolicyActivation}
    (hinstall : s.install policy rules prompts = .ok mid)
    (hrecord : recordPolicyActivation rt mid a = .ok s') :
    Written s s' policy rules prompts
      { a with activationFingerprint := rt.fingerprint a.payload } := by
  simp only [PolicyStore.install, Except.bind_eq_ok, Except.orThrow_eq_ok,
    Except.pure_eq_ok] at hinstall
  obtain ⟨policyVersions, hpolicies, rfl⟩ := hinstall
  simp only [recordPolicyActivation, Except.bind_eq_ok, Except.require_eq_ok,
    Except.orThrow_eq_ok, Except.pure_eq_ok] at hrecord
  obtain ⟨_, -, _, -, _, -, _, -, activations, hactivations, rfl⟩ := hrecord
  exact ⟨hpolicies, hactivations, rfl, rfl, rfl, rfl⟩

/-- What other versions contain is not touched. -/
theorem content_of_install {mid : PolicyStore} {policy q : PolicyVersion}
    {rules prompts : List (Placement UUID UUID)}
    (hinstall : s.install policy rules prompts = .ok mid)
    (hrules : ∀ m ∈ rules, m.owner ≠ q.id) (hprompts : ∀ m ∈ prompts, m.owner ≠ q.id) :
    mid.content q = s.content q := by
  simp only [PolicyStore.install, Except.bind_eq_ok, Except.pure_eq_ok] at hinstall
  obtain ⟨_, -, rfl⟩ := hinstall
  rw [PolicyStore.content, PolicyStore.content, Placement.members_append_of_ne hrules,
    Placement.members_append_of_ne hprompts]

/-- What the active policy is. -/
theorem activePolicy_spec {ownerId : String} {now : Time} {p : PolicyVersion}
    (h : s.activePolicy ownerId lineageKey now = some p) :
    p ∈ s.policyVersions ∧ p.lineageKey = lineageKey ∧ p.ownerId = ownerId ∧
      p.approvedAt ≤ now := by
  obtain ⟨hmem, hactive⟩ := List.mem_filter.mp (latestBy_spec h).1
  obtain ⟨hmem, hlineage⟩ := List.mem_filter.mp hmem
  rw [Bool.and_eq_true, decide_eq_true_eq, decide_eq_true_eq] at hactive
  exact ⟨hmem, of_decide_eq_true hlineage, hactive⟩

theorem authorized_eq {authentication : AuthenticatedSession} {approver : String}
    (h : requireHumanPolicyAuthorization authentication = .ok approver) :
    approver = localOwnerId := by
  simp only [requireHumanPolicyAuthorization, Except.bind_eq_ok, Except.require_eq_ok,
    Except.pure_eq_ok] at h
  obtain ⟨_, -, _, -, rfl⟩ := h
  rfl

/-- Rows written again for a new version name what is there. -/
theorem placed_copied {α : Type*} [Keyed α UUID] {policies : Table PolicyVersion}
    {members : Table α} {rows : List (Placement UUID UUID)} (h : Placed policies members rows)
    {source target : UUID} : ∀ m ∈ Placement.copied rows source target,
      m.owner = target ∧ (members.get? m.member).isSome := by
  intro m hm
  obtain ⟨m', hm', -, hmember⟩ := Placement.exists_of_mem_copied hm
  exact ⟨Placement.owner_of_mem_copied hm, hmember ▸ (h m' hm').2⟩

/-- Rows written for a list of what is there. -/
theorem placed_listed {α : Type*} [Keyed α UUID] {members : Table α} {policyId : UUID}
    {as : List α} (h : ∀ a ∈ as, a ∈ members) :
    ∀ m ∈ Placement.listed policyId (as.map key),
      m.owner = policyId ∧ (members.get? m.member).isSome := by
  intro m hm
  refine ⟨Placement.owner_of_mem_listed hm, ?_⟩
  have hmember : m.member ∈ as.map key := by
    rw [← Placement.map_member_listed policyId (as.map key)]
    exact List.mem_map_of_mem hm
  obtain ⟨a, ha, heq⟩ := List.mem_map.mp hmember
  rw [← heq, Table.get?_key (h a ha)]
  rfl

/-! ### A version that restores another one -/

/-- The result of a rollback that was carried out. -/
def restoredResult (s : PolicyStore) (lineageKey : String) (source restoreFrom : PolicyVersion)
    (c : RollbackCommand) : PolicyRollbackResult where
  sourcePolicyVersionId := source.id
  restoredPolicyVersionId := c.restoredPolicyVersionId
  restoredPolicyVersion := s.nextVersion lineageKey
  restoredFromPolicyVersionId := restoreFrom.id
  rollbackPolicyVersionId := source.id
  activationId := c.activationId
  activatedAt := c.activationTime
  replayed := false

/-- The activation of a rollback as it is stored. -/
def restoredActivation (rt : Runtime) (s : PolicyStore) (source restoreFrom : PolicyVersion)
    (c : RollbackCommand) (approver : String) : PolicyActivation :=
  let a := rollbackActivation rt s source restoreFrom c approver
  { a with activationFingerprint := rt.fingerprint a.payload }

theorem policyFingerprint_of_content {p : PolicyVersion} (h : s'.content p = s.content p) :
    policyFingerprint rt s' p = policyFingerprint rt s p := by
  rw [policyFingerprint, policyFingerprint, policyPayload, policyPayload,
    show Placement.members s'.policyVersionReviewRules p.id = _ from congrArg Content.rules h,
    show Placement.members s'.policyVersionPromptTemplates p.id = _ from congrArg Content.prompts h]
  rfl

variable {source target : PolicyVersion} {c : RollbackCommand} {approver : String}
  {r : PolicyRollbackResult}

theorem rollbackActivation_of_content (h : s'.content target = s.content target) :
    rollbackActivation rt s' source target c approver =
      rollbackActivation rt s source target c approver := by
  rw [rollbackActivation, rollbackActivation, policyFingerprint_of_content h]

theorem restore_installs (hs : Sound s) (hsource : source ∈ s.policyVersions)
    (htarget : target ∈ s.policyVersions) (hlineage : source.lineageKey = lineageKey)
    (howner : source.ownerId = approver) (happroved : source.approvedAt ≤ c.now)
    (h : restore rt s lineageKey source target c approver = .ok (r, s')) :
    Installs s s' source (restoredPolicy s lineageKey source target c approver)
        (restoredActivation rt s source target c approver) ∧
      s'.content (restoredPolicy s lineageKey source target c approver) = s.content target ∧
      r = restoredResult s lineageKey source target c := by
  simp only [restore, Except.bind_eq_ok, Except.pure_eq_ok, Prod.mk.injEq] at h
  obtain ⟨mid, hinstall, _, hrecord, rfl, rfl⟩ := h
  have hwritten := written_of_ok hinstall hrecord
  have hnone : s.policyVersions.get? c.restoredPolicyVersionId = none :=
    (Table.insert?_eq_some.mp hwritten.policies).1
  have hne : c.restoredPolicyVersionId ≠ target.id :=
    fun heq => Table.get?_eq_none.mp hnone target htarget heq.symm
  have hcontent : mid.content target = s.content target :=
    content_of_install hinstall (fun m hm => Placement.owner_of_mem_copied hm ▸ hne)
      fun m hm => Placement.owner_of_mem_copied hm ▸ hne
  rw [rollbackActivation_of_content hcontent] at hwritten
  have hinstalls : Installs s _ source (restoredPolicy s lineageKey source target c approver)
      (restoredActivation rt s source target c approver) :=
    { stored := hsource
      policies := hwritten.policies
      activations := hwritten.activations
      reviewRules := fun _ hr => hwritten.reviewRules ▸ hr
      promptTemplates := fun _ hq => hwritten.promptTemplates ▸ hq
      rules := ⟨_, hwritten.rules, hwritten.reviewRules ▸ placed_copied hs.rules⟩
      prompts := ⟨_, hwritten.prompts, hwritten.promptTemplates ▸ placed_copied hs.prompts⟩
      predecessor := rfl
      rollback := rfl
      lineage := hlineage.symm
      owner := howner.symm
      version := rfl
      approved := happroved
      policyVersion := rfl
      sourceVersion := rfl
      rollbackVersion := rfl }
  refine ⟨hinstalls, ?_, rfl⟩
  rw [PolicyStore.content, PolicyStore.content, hwritten.rules, hwritten.prompts]
  congr 1
  · exact Placement.members_copied (hinstalls.fresh hs.rules)
  · exact Placement.members_copied (hinstalls.fresh hs.prompts)

/-- A rollback either answers again or writes the version that restores the target. -/
theorem rollback_cases (h : rollback rt lineageKey s c = .ok (r, s')) :
    (s' = s ∧ replayedRollback rt s c localOwnerId = .ok r) ∨
    ∃ source target, s.activePolicy localOwnerId lineageKey c.now = some source ∧
      source.id = c.sourcePolicyVersionId ∧
      source.rollbackPolicyVersionId = some c.restoreFromPolicyVersionId ∧
      s.policyVersions.get? c.restoreFromPolicyVersionId = some target ∧
      s.policyActivations.get? c.activationId = none ∧
      restore rt s lineageKey source target c localOwnerId = .ok (r, s') := by
  simp only [rollback, Except.bind_eq_ok] at h
  obtain ⟨approver, hauthorized, h⟩ := h
  obtain rfl := authorized_eq hauthorized
  split at h
  · simp only [Except.bind_eq_ok, Except.pure_eq_ok, Prod.mk.injEq] at h
    obtain ⟨_, hreplayed, rfl, rfl⟩ := h
    exact .inl ⟨rfl, hreplayed⟩
  · rename_i hids
    simp only [Except.bind_eq_ok, Except.orThrow_eq_ok, Except.require_eq_ok,
      Except.relabel_eq_ok, Option.filter_eq_some_iff] at h
    obtain ⟨_, -, source, hsource, _, hid, _, hrollback, target, ⟨htarget, -⟩, hrestore⟩ := h
    rw [not_or, Bool.not_eq_true, Option.isSome_eq_false_iff, Option.isNone_iff_eq_none] at hids
    exact .inr ⟨source, target, hsource, hid, hrollback, htarget, hids.1, hrestore⟩

theorem Sound.restore (hs : Sound s) (hsource : s.activePolicy approver lineageKey c.now =
    some source) (htarget : target ∈ s.policyVersions)
    (hid : source.rollbackPolicyVersionId = some target.id)
    (h : restore rt s lineageKey source target c approver = .ok (r, s')) : Sound s' := by
  obtain ⟨hmem, hlineage, howner, happroved⟩ := activePolicy_spec hsource
  obtain ⟨hinstalls, hcontent, -⟩ := restore_installs hs hmem htarget hlineage howner happroved h
  have hgrows := hinstalls.grows
  have hrules := congrArg Content.rules hcontent
  have hprompts := congrArg Content.prompts hcontent
  have hrulesOf : s'.rulesOf c.restoredPolicyVersionId = s.rulesOf target.id := by
    rw [PolicyStore.rulesOf, show Placement.members s'.policyVersionReviewRules
      c.restoredPolicyVersionId = _ from hrules]
    exact filterMap_grown hgrows.rules fun id hid => isSome_of_mem_members hs.rules hid
  have hpromptsOf : s'.promptsOf c.restoredPolicyVersionId = s.promptsOf target.id := by
    rw [PolicyStore.promptsOf, show Placement.members s'.policyVersionPromptTemplates
      c.restoredPolicyVersionId = _ from hprompts]
    exact filterMap_grown hgrows.prompts fun id hid => isSome_of_mem_members hs.prompts hid
  refine hs.install hinstalls ?_ (hs.thresholds target htarget) ?_ ?_ ?_
  · exact .rollback target rfl (hgrows.policies _ htarget) hid
      (hcontent.trans (hgrows.content target htarget).symm)
  · exact hrulesOf ▸ hs.lineages target htarget
  · exact hpromptsOf ▸ hs.roles target htarget
  · exact hpromptsOf ▸ hs.promoted target htarget

theorem Sound.rollback (hs : Sound s) (h : rollback rt lineageKey s c = .ok (r, s')) :
    Sound s' ∧ Grows s s' := by
  obtain ⟨rfl, -⟩ | ⟨source, target, hsource, -, hrollback, htarget, -, hrestore⟩ :=
    rollback_cases h
  · exact ⟨hs, .refl _⟩
  · obtain ⟨hmem, hkey⟩ := Table.get?_eq_some.mp htarget
    obtain ⟨hactive, hlineage, howner, happroved⟩ := activePolicy_spec hsource
    refine ⟨hs.restore hsource hmem (hrollback.trans (congrArg some hkey.symm)) hrestore, ?_⟩
    exact (restore_installs hs hactive hmem hlineage howner happroved hrestore).1.grows

/-! ### Promotions -/

/-- A promotion of a rule writes the next version of the active policy. -/
theorem promoteReviewRule_installs {c : RulePromotion} (hs : Sound s)
    (h : promoteReviewRule rt lineageKey s c = .ok s') :
    ∃ active a, a.activationKind = .rulePromotion ∧
      Installs s s' active (promotedPolicy s active c.policyVersionId c.actorId c.approvedAt) a ∧
      promotedRule s c ∈ s'.reviewRules ∧
      s'.content (promotedPolicy s active c.policyVersionId c.actorId c.approvedAt) =
        { s.content active with rules :=
          (replacement (promotedRule s c) (s.rulesOf active.id)).map ReviewRule.id } := by
  simp only [promoteReviewRule, Except.bind_eq_ok, Except.orThrow_eq_ok] at h
  obtain ⟨active, hactive, reviewRules, hrule, mid, hinstall, decisionId, -, hrecord⟩ := h
  have hwritten := written_of_ok hinstall hrecord
  obtain ⟨hmem, -, -, happroved⟩ := activePolicy_spec hactive
  have hrules : ∀ r ∈ s.reviewRules, r ∈ reviewRules :=
    fun r hr => (Table.mem_insert? hrule).mpr (.inl hr)
  have hnew : promotedRule s c ∈ reviewRules := (Table.mem_insert? hrule).mpr (.inr rfl)
  -- The promoted rule is stored, but no version has it yet.
  have hbefore : ({ s with reviewRules } : PolicyStore).rulesOf active.id = s.rulesOf active.id :=
    filterMap_grown hrules fun id hid => isSome_of_mem_members hs.rules hid
  have hreplaced : ∀ r ∈ replacement (promotedRule s c) (s.rulesOf active.id), r ∈ reviewRules := by
    intro r hr
    rcases mem_replacement hr with rfl | hr
    · exact hnew
    · exact hrules r (mem_of_filterMap hr).1
  rw [replaceLineage_false, hbefore] at hwritten
  have hinstalls : Installs s s' active
      (promotedPolicy s active c.policyVersionId c.actorId c.approvedAt) _ :=
    { stored := hmem
      policies := hwritten.policies
      activations := hwritten.activations
      reviewRules := fun r hr => hwritten.reviewRules ▸ hrules r hr
      promptTemplates := fun _ hq => hwritten.promptTemplates ▸ hq
      rules := ⟨_, hwritten.rules, hwritten.reviewRules ▸ placed_listed hreplaced⟩
      prompts := ⟨_, hwritten.prompts, hwritten.promptTemplates ▸ placed_copied hs.prompts⟩
      predecessor := rfl
      rollback := rfl
      lineage := rfl
      owner := rfl
      version := rfl
      approved := happroved
      policyVersion := rfl
      sourceVersion := rfl
      rollbackVersion := rfl }
  refine ⟨active, _, rfl, hinstalls, hwritten.reviewRules ▸ hnew, ?_⟩
  rw [PolicyStore.content, PolicyStore.content, hwritten.rules, hwritten.prompts]
  congr 1
  · exact Placement.members_listed (hinstalls.fresh hs.rules)
  · exact Placement.members_copied (hinstalls.fresh hs.prompts)

theorem Sound.promoteReviewRule {c : RulePromotion} (hs : Sound s)
    (h : promoteReviewRule rt lineageKey s c = .ok s') : Sound s' ∧ Grows s s' := by
  obtain ⟨active, a, hkind, hinstalls, hrule, hcontent⟩ := promoteReviewRule_installs hs h
  have hgrows := hinstalls.grows
  have hactive := hinstalls.stored
  have hrulesOf : s'.rulesOf c.policyVersionId =
      replacement (promotedRule s c) (s.rulesOf active.id) := by
    rw [PolicyStore.rulesOf, show Placement.members s'.policyVersionReviewRules
      c.policyVersionId = _ from congrArg Content.rules hcontent]
    refine filterMap_map_key fun r hr => ?_
    rcases mem_replacement hr with rfl | hr
    · exact hrule
    · exact hgrows.rules r (mem_of_filterMap hr).1
  have hpromptsOf : s'.promptsOf c.policyVersionId = s.promptsOf active.id := by
    rw [PolicyStore.promptsOf, show Placement.members s'.policyVersionPromptTemplates
      c.policyVersionId = _ from congrArg Content.prompts hcontent]
    exact filterMap_grown hgrows.prompts fun id hid => isSome_of_mem_members hs.prompts hid
  refine ⟨hs.install hinstalls ?_ (hs.thresholds active hactive) ?_ ?_ ?_, hgrows⟩
  · refine .rulePromotion _ hkind hrule ?_
    rw [hcontent, hgrows.content active hactive, hgrows.rulesOf hs hactive]
  · exact hrulesOf ▸ nodup_lineages_replacement (hs.lineages active hactive)
  · exact hpromptsOf ▸ hs.roles active hactive
  · exact hpromptsOf ▸ hs.promoted active hactive

theorem mem_replaceRole {prompt q : PromptTemplateVersion} {prompts : List PromptTemplateVersion}
    (h : q ∈ replaceRole prompt prompts) : q = prompt ∨ q ∈ prompts := by
  rcases List.mem_append.mp h with h | h
  · exact .inr (List.mem_filter.mp h).1
  · exact .inl (List.mem_singleton.mp h)

section Prompts
variable {active : PolicyVersion} {candidate : PromptTemplateVersion} {c : PromptPromotion}
  {evidence : List (String × Json)} {runs : List UUID} {approver : String}
  {r : PromptPromotionResult}

/-- A promotion of a prompt writes the next version of the active policy. -/
theorem installPrompt_installs (hs : Sound s) (hactive : active ∈ s.policyVersions)
    (happroved : active.approvedAt ≤ c.now)
    (h : installPrompt rt s active candidate evidence runs c approver = .ok (r, s')) :
    ∃ a, a.activationKind = .promptPromotion ∧
      Installs s s' active (promotedPolicy s active c.policyVersionId approver c.now) a ∧
      promotedPrompt candidate c approver ∈ s'.promptTemplateVersions ∧
      s'.content (promotedPolicy s active c.policyVersionId approver c.now) =
        { s.content active with prompts :=
          (replaceRole (promotedPrompt candidate c approver)
            (s.promptsOf active.id)).map PromptTemplateVersion.id } := by
  simp only [installPrompt, Except.bind_eq_ok, Except.orThrow_eq_ok, Except.pure_eq_ok,
    Prod.mk.injEq] at h
  obtain ⟨promptTemplateVersions, hprompt, mid, hinstall, _, hrecord, -, rfl⟩ := h
  have hwritten := written_of_ok hinstall hrecord
  have hprompts : ∀ q ∈ s.promptTemplateVersions, q ∈ promptTemplateVersions :=
    fun q hq => (Table.mem_insert? hprompt).mpr (.inl hq)
  have hnew : promotedPrompt candidate c approver ∈ promptTemplateVersions :=
    (Table.mem_insert? hprompt).mpr (.inr rfl)
  have hbefore : ({ s with promptTemplateVersions } : PolicyStore).promptsOf active.id =
      s.promptsOf active.id :=
    filterMap_grown hprompts fun id hid => isSome_of_mem_members hs.prompts hid
  have hreplaced : ∀ q ∈ replaceRole (promotedPrompt candidate c approver)
      (s.promptsOf active.id), q ∈ promptTemplateVersions := by
    intro q hq
    rcases mem_replaceRole hq with rfl | hq
    · exact hnew
    · exact hprompts q (mem_of_filterMap hq).1
  rw [hbefore] at hwritten
  have hinstalls : Installs s _ active
      (promotedPolicy s active c.policyVersionId approver c.now) _ :=
    { stored := hactive
      policies := hwritten.policies
      activations := hwritten.activations
      reviewRules := fun _ hr => hwritten.reviewRules ▸ hr
      promptTemplates := fun q hq => hwritten.promptTemplates ▸ hprompts q hq
      rules := ⟨_, hwritten.rules, hwritten.reviewRules ▸ placed_copied hs.rules⟩
      prompts := ⟨_, hwritten.prompts, hwritten.promptTemplates ▸ placed_listed hreplaced⟩
      predecessor := rfl
      rollback := rfl
      lineage := rfl
      owner := rfl
      version := rfl
      approved := happroved
      policyVersion := rfl
      sourceVersion := rfl
      rollbackVersion := rfl }
  refine ⟨_, rfl, hinstalls, hwritten.promptTemplates ▸ hnew, ?_⟩
  rw [PolicyStore.content, PolicyStore.content, hwritten.rules, hwritten.prompts]
  congr 1
  · exact Placement.members_copied (hinstalls.fresh hs.rules)
  · exact Placement.members_listed (hinstalls.fresh hs.prompts)

/-- A promotion either answers again or installs its candidate. -/
theorem promote_cases {svc : PromptCompilerService} (h : promote rt svc s c = .ok (r, s')) :
    (s' = s ∧ replayedPromotion s c localOwnerId = .ok r) ∨
    ∃ active candidate evidence runs,
      s.activePolicy candidate.ownerId svc.policyLineage c.now = some active ∧
      installPrompt rt s active candidate evidence runs c localOwnerId = .ok (r, s') := by
  simp only [promote, Except.bind_eq_ok] at h
  obtain ⟨approver, hauthorized, h⟩ := h
  obtain rfl := authorized_eq hauthorized
  split at h
  · simp only [Except.bind_eq_ok, Except.pure_eq_ok, Prod.mk.injEq] at h
    obtain ⟨_, hreplayed, rfl, rfl⟩ := h
    exact .inl ⟨rfl, hreplayed⟩
  · simp only [Except.bind_eq_ok, Except.orThrow_eq_ok] at h
    obtain ⟨_, -, candidate, -, _, -, active, hactive, _, -, _, -, evidence, -, h⟩ := h
    exact .inr ⟨active, candidate, evidence.1, evidence.2, hactive, h⟩

theorem Sound.promote {svc : PromptCompilerService} (hs : Sound s)
    (h : promote rt svc s c = .ok (r, s')) : Sound s' ∧ Grows s s' := by
  obtain ⟨rfl, -⟩ | ⟨active, candidate, evidence, runs, hactive, h⟩ := promote_cases h
  · exact ⟨hs, .refl _⟩
  obtain ⟨hmem, -, -, happroved⟩ := activePolicy_spec hactive
  obtain ⟨a, hkind, hinstalls, hprompt, hcontent⟩ := installPrompt_installs hs hmem happroved h
  have hgrows := hinstalls.grows
  have hrulesOf : s'.rulesOf c.policyVersionId = s.rulesOf active.id := by
    rw [PolicyStore.rulesOf, show Placement.members s'.policyVersionReviewRules
      c.policyVersionId = _ from congrArg Content.rules hcontent]
    exact filterMap_grown hgrows.rules fun id hid => isSome_of_mem_members hs.rules hid
  have hpromptsOf : s'.promptsOf c.policyVersionId =
      replaceRole (promotedPrompt candidate c localOwnerId) (s.promptsOf active.id) := by
    rw [PolicyStore.promptsOf, show Placement.members s'.policyVersionPromptTemplates
      c.policyVersionId = _ from congrArg Content.prompts hcontent]
    refine filterMap_map_key fun q hq => ?_
    rcases mem_replaceRole hq with rfl | hq
    · exact hprompt
    · exact hgrows.prompts q (mem_of_filterMap hq).1
  refine ⟨hs.install hinstalls ?_ (hs.thresholds active hmem) ?_ ?_ ?_, hgrows⟩
  · refine .promptPromotion _ hkind hprompt ?_
    rw [hcontent, hgrows.content active hmem, hgrows.promptsOf hs hmem]
  · exact hrulesOf ▸ hs.lineages active hmem
  · exact hpromptsOf ▸ nodup_roles_replaceRole (hs.roles active hmem)
  · intro q hq
    rcases mem_replaceRole (hpromptsOf ▸ hq) with rfl | hq
    · rfl
    · exact hs.promoted active hmem q hq

end Prompts

/-- A new candidate is one prompt more. -/
theorem Sound.createCandidate {c : CandidateCommand} {candidate : PromptTemplateVersion}
    (hs : Sound s) (h : createCandidate s c = .ok (candidate, s')) : Sound s' ∧ Grows s s' := by
  rw [Policies.createCandidate] at h
  split at h
  · simp only [Except.bind_eq_ok, Except.pure_eq_ok, Prod.mk.injEq] at h
    obtain ⟨_, -, -, rfl⟩ := h
    exact ⟨hs, .refl _⟩
  · simp only [Except.bind_eq_ok, Except.orThrow_eq_ok, Except.pure_eq_ok, Prod.mk.injEq] at h
    obtain ⟨_, -, promptTemplateVersions, hprompt, -, rfl⟩ := h
    have hprompts : ∀ q ∈ s.promptTemplateVersions, q ∈ promptTemplateVersions :=
      fun q hq => (Table.mem_insert? hprompt).mpr (.inl hq)
    have hgrows : Grows s { s with promptTemplateVersions } :=
      ⟨fun _ h => h, fun _ h => h, fun _ h => h, hprompts, fun _ _ => rfl⟩
    refine ⟨{ hs with
      prompts := fun m hm => ⟨(hs.prompts m hm).1, isSome_grown hprompts (hs.prompts m hm).2⟩
      follows := fun p hp => hs.follows_grown hgrows hp
      roles := fun p hp => ?_
      promoted := fun p hp => ?_ }, hgrows⟩
    · rw [hgrows.promptsOf hs hp]
      exact hs.roles p hp
    · rw [hgrows.promptsOf hs hp]
      exact hs.promoted p hp

theorem Sound.step (hs : Sound s) (h : PolicyStep rt s s') : Sound s' ∧ Grows s s' := by
  cases h with
  | rollback lineageKey c r h => exact hs.rollback h
  | promoteReviewRule lineageKey c h => exact hs.promoteReviewRule h
  | promote svc c r h => exact hs.promote h
  | createCandidate c p h => exact hs.createCandidate h

end Transactions

/-! ### Runs -/

theorem bootstrap_rules (d : MvpAuthorityDefinition) :
    (bootstrap d).rulesOf d.policyId = [d.rule] := by
  have hmembers : Placement.members (bootstrap d).policyVersionReviewRules d.policyId =
      [d.rule].map key := by
    rw [show (bootstrap d).policyVersionReviewRules =
      [] ++ Placement.listed d.policyId [d.rule.id] from rfl,
      Placement.members_listed (by simp)]
    rfl
  rw [PolicyStore.rulesOf, hmembers]
  exact filterMap_map_key fun r hr => hr

theorem bootstrap_prompts (d : MvpAuthorityDefinition) :
    (bootstrap d).promptsOf d.policyId = d.prompts := by
  have hmembers : Placement.members (bootstrap d).policyVersionPromptTemplates d.policyId =
      d.prompts.map key := by
    rw [show (bootstrap d).policyVersionPromptTemplates =
      [] ++ Placement.listed d.policyId (d.prompts.map (·.id)) from rfl,
      Placement.members_listed (by simp)]
    rfl
  rw [PolicyStore.promptsOf, hmembers]
  exact filterMap_map_key fun r hr => hr

theorem sound_bootstrap (d : MvpAuthorityDefinition) : Sound (bootstrap d) := by
  have honly : ∀ p ∈ (bootstrap d).policyVersions, p.id = d.policyId ∧ p.predecessorId = none ∧
      p.rollbackPolicyVersionId = none ∧ p.workflowThresholds = d.workflowThresholds := by
    intro p hp
    obtain rfl := List.mem_singleton.mp hp
    exact ⟨rfl, rfl, rfl, rfl⟩
  have hpolicy : ((bootstrap d).policyVersions.get? d.policyId).isSome := by
    simp [bootstrap, Table.get?, key]
  refine ⟨fun m hm => ?_, fun m hm => ?_, fun a ha => ?_, fun a ha => ?_,
    fun p hp q hq _ _ => ?_, fun p hp => ?_, fun p hp => ?_, fun p hp => ?_, fun p hp => ?_,
    fun p hp => ?_⟩
  · obtain ⟨howner, hmember⟩ := placed_listed
      (show ∀ r ∈ [d.rule], r ∈ (bootstrap d).reviewRules from fun _ h => h) m hm
    exact ⟨howner ▸ hpolicy, hmember⟩
  · obtain ⟨howner, hmember⟩ := placed_listed
      (show ∀ q ∈ d.prompts, q ∈ (bootstrap d).promptTemplateVersions from fun _ h => h) m hm
    exact ⟨howner ▸ hpolicy, hmember⟩
  · cases ha
  · cases ha
  · exact (List.mem_singleton.mp hp).trans (List.mem_singleton.mp hq).symm
  · rw [(honly p hp).2.2.2]
    exact d.thresholds_self
  · exact .inl ⟨(honly p hp).2.1, (honly p hp).2.2.1⟩
  · rw [(honly p hp).1, bootstrap_rules]
    exact List.nodup_singleton _
  · rw [(honly p hp).1, bootstrap_prompts]
    exact d.roles_nodup
  · rw [(honly p hp).1, bootstrap_prompts]
    exact d.promoted

section Runs
variable {rt : Runtime} {s s' : PolicyStore}

theorem sound_of_reachable (hs : (policySystem rt).Reachable s) : Sound s := by
  refine hs.induction (fun s hinit => ?_) fun s s' _ h hstep => (h.step hstep).1
  obtain ⟨d, rfl⟩ := hinit
  exact sound_bootstrap d

/-- Requests add rows and leave what every version contains. -/
theorem grows_of_run (hs : Sound s) (h : Relation.ReflTransGen (PolicyStep rt) s s') :
    Sound s' ∧ Grows s s' := by
  induction h with
  | refl => exact ⟨hs, .refl _⟩
  | tail _ hstep ih =>
    obtain ⟨hsound, hgrows⟩ := ih.1.step hstep
    exact ⟨hsound, ih.2.trans hgrows⟩

namespace PolicyExample

def rule : ReviewRule where
  id := .ofNat 2
  lineageKey := "naming"
  version := 1
  predecessorId := none
  candidateId := .ofNat 3
  approvalRequestId := .ofNat 4
  scope := .null
  matcher := .null
  permittedAction := "p"
  riskClass := "l"
  evidenceRequirements := []
  approvedBy := localOwnerId
  approvedAt := 1
  ownerId := localOwnerId

def prompt : PromptTemplateVersion where
  id := .ofNat 5
  lineageKey := "implementer"
  role := "IMPLEMENTER"
  version := 1
  predecessorId := none
  structuredTemplate := .null
  regressionReviewed := true
  promoted := true
  approvedBy := some localOwnerId
  approvedAt := some 1
  ownerId := localOwnerId

def authority : MvpAuthorityDefinition where
  policyId := .ofNat 1
  lineageKey := "mvp"
  workflowThresholds := .null
  ownerId := localOwnerId
  approvedAt := 1
  rule
  prompts := [prompt]
  thresholds_self := rfl
  prompts_nodup := List.nodup_singleton _
  roles_nodup := List.nodup_singleton _
  promoted p hp := by
    obtain rfl := List.mem_singleton.mp hp
    rfl

/-- The next version of the only rule. -/
def promotion : RulePromotion where
  ruleId := .ofNat 6
  policyVersionId := .ofNat 7
  decisionId := some (.ofNat 8)
  candidateId := .ofNat 9
  approvalRequestId := .ofNat 10
  definition := ⟨"naming", .null, .null, "p", "l", []⟩
  candidateFingerprint := Runtime.plain.sha256 ""
  thresholdEvidence := .null
  evidenceIds := []
  regressionReviewed := true
  ownerId := localOwnerId
  actorId := localOwnerId
  approvedAt := 10

/-- The promotion is carried out, and leaves other identifiers unused. -/
theorem exists_promoted : ∃ s, (policySystem .plain).Reachable s ∧
    (s.activePolicy localOwnerId "mvp" 20).map (fun p => (p.id, p.rollbackPolicyVersionId)) =
      some (.ofNat 7, some (.ofNat 1)) ∧
    s.policyActivations.get? (.ofNat 11) = none ∧ s.policyVersions.get? (.ofNat 12) = none := by
  have hpromoted : (promoteReviewRule .plain "mvp" (bootstrap authority) promotion).toOption.map
      (fun s => ((s.activePolicy localOwnerId "mvp" 20).map fun p =>
        (p.id, p.rollbackPolicyVersionId), (s.policyActivations.get? (.ofNat 11)).isNone,
        (s.policyVersions.get? (.ofNat 12)).isNone)) =
      some (some (.ofNat 7, some (.ofNat 1)), true, true) := by
    decide +kernel
  cases hresult : promoteReviewRule .plain "mvp" (bootstrap authority) promotion with
  | error e =>
    rw [hresult] at hpromoted
    cases hpromoted
  | ok s =>
    rw [hresult] at hpromoted
    simp only [Except.toOption, Option.map_some, Option.some.injEq, Prod.mk.injEq,
      Option.isNone_iff_eq_none] at hpromoted
    have hfirst : (policySystem .plain).Reachable (bootstrap authority) := .of_init ⟨_, rfl⟩
    exact ⟨s, hfirst.tail (.promoteReviewRule _ _ hresult), hpromoted⟩

/-- The version the promotion has written. -/
theorem exists_second : ∃ s p, (policySystem .plain).Reachable s ∧ p ∈ s.policyVersions ∧
    p.rollbackPolicyVersionId = some (.ofNat 1) := by
  obtain ⟨s, hs, hactive, -⟩ := exists_promoted
  obtain ⟨p, hp, heq⟩ := Option.map_eq_some_iff.mp hactive
  exact ⟨s, p, hs, (activePolicy_spec hp).1, congrArg Prod.snd heq⟩

end PolicyExample

/-- **Lineage of the policies**: in every run of promotions and rollbacks, every version of the
policies is the first one or follows an earlier one of its lineage that was approved before it,
to which it can be rolled back. The record of its activation names both, and what the version
contains is what the activation says: what the target of the rollback contains, or what the
version before contains with the promoted rule or prompt in place of those of its lineage or
role. No request that comes later changes what a version contains. -/
theorem policies_follow (hs : (policySystem rt).Reachable s)
    (h : Relation.ReflTransGen (PolicyStep rt) s s') {p : PolicyVersion}
    (hp : p ∈ s.policyVersions) :
    (p ∈ s'.policyVersions ∧ s'.content p = s.content p) ∧
    ((p.predecessorId = none ∧ p.rollbackPolicyVersionId = none) ∨
      ∃ source a, Follows s' source p a) := by
  obtain ⟨hsound, hgrows⟩ := grows_of_run (sound_of_reachable hs) h
  exact ⟨⟨hgrows.policies p hp, hgrows.content p hp⟩, hsound.follows p (hgrows.policies p hp)⟩

open PolicyExample in
theorem policies_follow_promoted : ∃ s source p a, Follows s source p a := by
  obtain ⟨s, p, hs, hp, hrollback⟩ := exists_second
  obtain ⟨-, ⟨-, hnone⟩ | ⟨source, a, hfollows⟩⟩ := policies_follow hs .refl hp
  · rw [hnone] at hrollback
    cases hrollback
  · exact ⟨s, source, p, a, hfollows⟩

/-- **One rule of a lineage, one prompt of a role**: in every run, a version of a policy has at
most one rule of each lineage and at most one prompt of each role, and every prompt it has is a
promoted one, so what is executed under a version does not depend on which one is looked up. -/
theorem one_member_each (hs : (policySystem rt).Reachable s) {p : PolicyVersion}
    (hp : p ∈ s.policyVersions) :
    ((s.rulesOf p.id).map ReviewRule.lineageKey).Nodup ∧
    ((s.promptsOf p.id).map PromptTemplateVersion.role).Nodup ∧
    ∀ q ∈ s.promptsOf p.id, q.promoted = true := by
  have h := sound_of_reachable hs
  exact ⟨h.lineages p hp, h.roles p hp, h.promoted p hp⟩

open PolicyExample in
theorem one_member_each_promoted : ∃ (s : PolicyStore) (p : PolicyVersion),
    p.rollbackPolicyVersionId = some (.ofNat 1) ∧
    ((s.rulesOf p.id).map ReviewRule.lineageKey).Nodup := by
  obtain ⟨s, p, hs, hp, hrollback⟩ := exists_second
  exact ⟨s, p, hrollback, (one_member_each hs hp).1⟩

end Runs

end ControlPlane.Policies
