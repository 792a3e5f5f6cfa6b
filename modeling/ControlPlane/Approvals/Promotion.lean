import ControlPlane.Approvals.Runs

/-!
# The rules of a promoted policy

A promoted rule takes the place of the first active rule of its lineage; later rules of the
lineage are dropped and a new lineage goes to the end. The source walks the active rules
with a flag that says whether the promoted rule has been written yet.

## Main definitions

* `replaceLineage`: the walk.
* `rulesOf`: the rules of a policy in the order of their positions.

## Main results

* `replacementRules_eq`: the walk gives what the promotion installs.
* `promotes_of_promoteReviewRule`: the rules of the new policy.
-/
namespace ControlPlane

/-! ### The memberships of a policy -/

/-- The memberships of a policy in the order of their positions. -/
def membershipsOf (db : Database) (policyId : UUID) : List PolicyVersionReviewRule :=
  (db.policyVersionReviewRules.filter (·.policyVersionId = policyId)).insertionSort
    fun a b => a.position ≤ b.position

/-- The rules of a policy in the order of their positions. -/
def rulesOf (db : Database) (policyId : UUID) : List ReviewRule :=
  (membershipsOf db policyId).filterMap fun m => db.reviewRules.get? m.reviewRuleId

/-- The constraints of the table of memberships. -/
structure PolicyMemberships (db : Database) : Prop where
  members : (db.policyVersionReviewRules.map fun m => (m.policyVersionId, m.reviewRuleId)).Nodup
  positions : (db.policyVersionReviewRules.map fun m => (m.policyVersionId, m.position)).Nodup
  positive : ∀ m ∈ db.policyVersionReviewRules, 0 < m.position
  policies : ∀ m ∈ db.policyVersionReviewRules, (db.policyVersions.get? m.policyVersionId).isSome
  rules : ∀ m ∈ db.policyVersionReviewRules, (db.reviewRules.get? m.reviewRuleId).isSome

/-! ### The walk over the active rules -/

/-- The identifiers of the replacement, with the flag of the loop. -/
def replaceLineage (rule : ReviewRule) : Bool → List ReviewRule → List UUID
  | replaced, [] => if replaced then [] else [rule.id]
  | replaced, existing :: rest =>
    if existing.lineageKey = rule.lineageKey then
      if replaced then replaceLineage rule true rest
      else rule.id :: replaceLineage rule true rest
    else existing.id :: replaceLineage rule replaced rest

/-- The active rules with the promoted one in place of the first of its lineage. -/
def replacement (rule : ReviewRule) (rules : List ReviewRule) : List ReviewRule :=
  rules.takeWhile (·.lineageKey ≠ rule.lineageKey) ++
    rule :: (rules.dropWhile (·.lineageKey ≠ rule.lineageKey)).filter
      (·.lineageKey ≠ rule.lineageKey)

section Replacement
variable {rule : ReviewRule} {rules : List ReviewRule}

theorem replaceLineage_true :
    replaceLineage rule true rules =
      (rules.filter (·.lineageKey ≠ rule.lineageKey)).map ReviewRule.id := by
  induction rules with
  | nil => rfl
  | cons existing rest ih =>
    by_cases h : existing.lineageKey = rule.lineageKey
    · simp [replaceLineage, h, ih]
    · simp [replaceLineage, h, ih]

theorem replaceLineage_false :
    replaceLineage rule false rules = (replacement rule rules).map ReviewRule.id := by
  induction rules with
  | nil => rfl
  | cons existing rest ih =>
    by_cases h : existing.lineageKey = rule.lineageKey
    · simp [replaceLineage, replacement, h, replaceLineage_true]
    · simpa [replaceLineage, replacement, h] using ih

variable (rule rules) in
theorem earlier_append_later :
    rules.takeWhile (·.lineageKey ≠ rule.lineageKey) ++
      rules.dropWhile (·.lineageKey ≠ rule.lineageKey) = rules :=
  List.takeWhile_append_dropWhile

theorem filter_takeWhile :
    (rules.takeWhile (·.lineageKey ≠ rule.lineageKey)).filter (·.lineageKey ≠ rule.lineageKey) =
      rules.takeWhile (·.lineageKey ≠ rule.lineageKey) :=
  List.filter_eq_self.mpr fun _ hr =>
    List.mem_takeWhile_imp (p := fun r : ReviewRule => decide (r.lineageKey ≠ rule.lineageKey)) hr

theorem replacement_of_absent (h : ∀ r ∈ rules, r.lineageKey ≠ rule.lineageKey) :
    replacement rule rules = rules ++ [rule] := by
  have htake : rules.takeWhile (·.lineageKey ≠ rule.lineageKey) = rules :=
    List.takeWhile_eq_self_iff.mpr fun r hr => decide_eq_true (h r hr)
  have hdrop : rules.dropWhile (·.lineageKey ≠ rule.lineageKey) = [] :=
    List.dropWhile_eq_nil_iff.mpr fun r hr => decide_eq_true (h r hr)
  rw [replacement, htake, hdrop]
  rfl

theorem replacement_of_first {earlier later : List ReviewRule} {old : ReviewRule}
    (hold : old.lineageKey = rule.lineageKey)
    (h : ∀ r ∈ earlier, r.lineageKey ≠ rule.lineageKey) :
    replacement rule (earlier ++ old :: later) =
      earlier ++ rule :: later.filter (·.lineageKey ≠ rule.lineageKey) := by
  have hearlier : ∀ r ∈ earlier, decide (r.lineageKey ≠ rule.lineageKey) = true :=
    fun r hr => decide_eq_true (h r hr)
  rw [replacement, List.takeWhile_append_of_pos hearlier, List.dropWhile_append_of_pos hearlier]
  simp [hold]

/-- The rules of other lineages are the active ones, in their order. -/
theorem filter_replacement :
    (replacement rule rules).filter (·.lineageKey ≠ rule.lineageKey) =
      rules.filter (·.lineageKey ≠ rule.lineageKey) := by
  have hsplit := congrArg (List.filter (·.lineageKey ≠ rule.lineageKey)) 
    (earlier_append_later rule rules)
  rw [List.filter_append] at hsplit
  rw [← hsplit, replacement, List.filter_append, List.filter_cons_of_neg (by simp),
    List.filter_filter]
  simp only [Bool.and_self]

/-- The promoted lineage is left with the promoted rule alone. -/
theorem filter_lineage_replacement :
    (replacement rule rules).filter (·.lineageKey = rule.lineageKey) = [rule] := by
  have hnone : ∀ l : List ReviewRule, (∀ r ∈ l, r.lineageKey ≠ rule.lineageKey) →
      l.filter (·.lineageKey = rule.lineageKey) = [] :=
    fun l hl => List.filter_eq_nil_iff.mpr fun r hr => by simpa using hl r hr
  rw [replacement, List.filter_append, List.filter_cons_of_pos (by simp), hnone, hnone,
    List.nil_append]
  · intro r hr
    simpa using (List.mem_filter.mp hr).2
  · intro r hr
    simpa using List.mem_takeWhile_imp hr

theorem mem_replacement {r : ReviewRule} (h : r ∈ replacement rule rules) :
    r = rule ∨ r ∈ rules := by
  simp only [replacement, List.mem_append, List.mem_cons] at h
  obtain h | rfl | h := h
  · exact .inr ((List.takeWhile_sublist _).subset h)
  · exact .inl rfl
  · exact .inr ((List.dropWhile_sublist _).subset (List.mem_filter.mp h).1)

theorem nodup_replacement (hrules : (rules.map ReviewRule.id).Nodup)
    (hfresh : rule.id ∉ rules.map ReviewRule.id) :
    ((replacement rule rules).map ReviewRule.id).Nodup := by
  have hkept : (rules.takeWhile (·.lineageKey ≠ rule.lineageKey) ++
      (rules.dropWhile (·.lineageKey ≠ rule.lineageKey)).filter
        (·.lineageKey ≠ rule.lineageKey)).Sublist rules := by
    have happend := (List.Sublist.refl (rules.takeWhile (·.lineageKey ≠ rule.lineageKey))).append
      (List.filter_sublist (p := (·.lineageKey ≠ rule.lineageKey))
        (l := rules.dropWhile (·.lineageKey ≠ rule.lineageKey)))
    rwa [earlier_append_later] at happend
  have hperm : (replacement rule rules).Perm (rule :: _) := List.perm_middle
  rw [(hperm.map ReviewRule.id).nodup_iff, List.map_cons, List.nodup_cons]
  exact ⟨fun h => hfresh ((hkept.map _).subset h), hrules.sublist (hkept.map _)⟩

/-- The walk gives what the promotion installs. -/
theorem replacementRules_eq {db : Database} {activeId : UUID} :
    replacementRules db activeId rule = replaceLineage rule false (rulesOf db activeId) := by
  rw [replaceLineage_false]
  simp only [replacementRules, List.span_eq_takeWhile_dropWhile, replacement, List.map_append,
    List.map_cons]
  rw [filter_takeWhile]
  rfl

end Replacement

/-! ### What is installed -/

section Rules
variable {db : Database} {policyId : UUID}

theorem mem_membershipsOf {m : PolicyVersionReviewRule} :
    m ∈ membershipsOf db policyId ↔
      m ∈ db.policyVersionReviewRules ∧ m.policyVersionId = policyId := by
  simp [membershipsOf]

theorem mem_rulesOf {r : ReviewRule} (h : r ∈ rulesOf db policyId) :
    ∃ m ∈ db.policyVersionReviewRules, m.policyVersionId = policyId ∧
      db.reviewRules.get? m.reviewRuleId = some r := by
  obtain ⟨m, hm, hr⟩ := List.mem_filterMap.mp h
  obtain ⟨hm, hpolicy⟩ := mem_membershipsOf.mp hm
  exact ⟨m, hm, hpolicy, hr⟩

/-- With every rule there, the identifiers of the rules are those of the memberships. -/
theorem map_id_filterMap {rules : Table ReviewRule} {members : List PolicyVersionReviewRule}
    (h : ∀ m ∈ members, (rules.get? m.reviewRuleId).isSome) :
    (members.filterMap fun m => rules.get? m.reviewRuleId).map ReviewRule.id =
      members.map PolicyVersionReviewRule.reviewRuleId := by
  induction members with
  | nil => rfl
  | cons m rest ih =>
    obtain ⟨r, hr⟩ := Option.isSome_iff_exists.mp (h m List.mem_cons_self)
    have hid : r.id = m.reviewRuleId := Table.key_of_get? hr
    simp only [List.filterMap_cons, hr, List.map_cons, hid,
      ih fun m' hm' => h m' (List.mem_cons_of_mem m hm')]

theorem nodup_rulesOf (hdb : PolicyMemberships db) (policyId : UUID) :
    ((rulesOf db policyId).map ReviewRule.id).Nodup := by
  have hsome : ∀ m ∈ membershipsOf db policyId, (db.reviewRules.get? m.reviewRuleId).isSome :=
    fun m hm => hdb.rules m (mem_membershipsOf.mp hm).1
  rw [rulesOf, map_id_filterMap hsome]
  have hperm : (membershipsOf db policyId).Perm
      (db.policyVersionReviewRules.filter (·.policyVersionId = policyId)) :=
    List.perm_insertionSort _ _
  rw [(hperm.map _).nodup_iff]
  refine List.Nodup.map_on ?_ ((List.Nodup.of_map _ hdb.members).filter _)
  intro m hm m' hm' hrule
  obtain ⟨hm, hpolicy⟩ := List.mem_filter.mp hm
  obtain ⟨hm', hpolicy'⟩ := List.mem_filter.mp hm'
  refine List.inj_on_of_nodup_map hdb.members hm hm' ?_
  rw [of_decide_eq_true hpolicy, of_decide_eq_true hpolicy', hrule]

end Rules

/-- The memberships an installation adds. -/
def newMemberships (policyId : UUID) (ids : List UUID) : List PolicyVersionReviewRule :=
  ids.zipIdx.map fun (ruleId, i) =>
    { policyVersionId := policyId, reviewRuleId := ruleId, position := i + 1 }

section NewMemberships
variable {policyId : UUID} {ids : List UUID}

theorem map_reviewRuleId_newMemberships :
    (newMemberships policyId ids).map PolicyVersionReviewRule.reviewRuleId = ids := by
  rw [newMemberships, List.map_map]
  exact List.zipIdx_map_fst 0 ids

theorem map_position_newMemberships :
    (newMemberships policyId ids).map PolicyVersionReviewRule.position =
      List.range' 1 ids.length := by
  have hposition : (newMemberships policyId ids).map PolicyVersionReviewRule.position =
      (ids.zipIdx.map Prod.snd).map (1 + ·) := by
    rw [newMemberships, List.map_map, List.map_map]
    exact List.map_congr_left fun _ _ => Nat.add_comm _ _
  rw [hposition, List.zipIdx_map_snd, List.map_add_range']

theorem policyVersionId_of_mem {m : PolicyVersionReviewRule}
    (h : m ∈ newMemberships policyId ids) : m.policyVersionId = policyId := by
  obtain ⟨_, -, rfl⟩ := List.mem_map.mp h
  rfl

theorem pairwise_newMemberships :
    (newMemberships policyId ids).Pairwise fun a b => a.position ≤ b.position := by
  have hsorted : ((newMemberships policyId ids).map PolicyVersionReviewRule.position).Pairwise
      (· < ·) := by
    rw [map_position_newMemberships]
    exact List.pairwise_lt_range'
  exact (List.pairwise_map.mp hsorted).imp fun h => h.le

end NewMemberships

/-- What a promotion makes of the rules of the active policy. -/
structure Promotes (before after : List ReviewRule) (rule : ReviewRule) : Prop where
  /-- A lineage that is there is replaced in place of its first rule. -/
  in_place : ∀ earlier old later, before = earlier ++ old :: later →
    old.lineageKey = rule.lineageKey → (∀ r ∈ earlier, r.lineageKey ≠ rule.lineageKey) →
    after = earlier ++ rule :: later.filter (·.lineageKey ≠ rule.lineageKey)
  /-- A lineage that is not goes to the end. -/
  appended : (∀ r ∈ before, r.lineageKey ≠ rule.lineageKey) → after = before ++ [rule]
  promoted : after.filter (·.lineageKey = rule.lineageKey) = [rule]
  others : after.filter (·.lineageKey ≠ rule.lineageKey) =
    before.filter (·.lineageKey ≠ rule.lineageKey)
  once : (after.map ReviewRule.id).Nodup

theorem promotes_replacement {before : List ReviewRule} {rule : ReviewRule}
    (hbefore : (before.map ReviewRule.id).Nodup) (hfresh : rule.id ∉ before.map ReviewRule.id) :
    Promotes before (replacement rule before) rule where
  in_place earlier old later hsplit hold hearlier := by
    rw [hsplit]
    exact replacement_of_first hold hearlier
  appended := replacement_of_absent
  promoted := filter_lineage_replacement
  others := filter_replacement
  once := nodup_replacement hbefore hfresh

section Install
variable {db db' : Database} {active policy : PolicyVersion} {rule : ReviewRule}
  {decisionId : Option UUID} {activation : UUID → PolicyActivation}

theorem installPolicy_ok
    (h : installPolicy db active policy rule decisionId activation = .ok db') :
    db.reviewRules.insert? rule = some db'.reviewRules ∧
      db.policyVersions.insert? policy = some db'.policyVersions ∧
      db'.policyVersionReviewRules = db.policyVersionReviewRules ++
        newMemberships policy.id ((replacement rule (rulesOf db active.id)).map ReviewRule.id) := by
  simp only [installPolicy, Except.bind_eq_ok, Except.orThrow_eq_ok, Except.pure_eq_ok] at h
  obtain ⟨reviewRules, hrules, policyVersions, hpolicies, _, -, _, -, rfl⟩ := h
  rw [← replaceLineage_false, ← replacementRules_eq]
  exact ⟨hrules, hpolicies, rfl⟩

/-- The memberships of the new policy are the added ones: nothing named it before. -/
theorem membershipsOf_install (hdb : PolicyMemberships db)
    (h : installPolicy db active policy rule decisionId activation = .ok db') :
    membershipsOf db' policy.id =
      newMemberships policy.id ((replacement rule (rulesOf db active.id)).map ReviewRule.id) := by
  obtain ⟨-, hpolicies, hmembers⟩ := installPolicy_ok h
  have hnone : db.policyVersions.get? policy.id = none := (Table.insert?_eq_some.mp hpolicies).1
  have hold : db.policyVersionReviewRules.filter (·.policyVersionId = policy.id) = [] := by
    refine List.filter_eq_nil_iff.mpr fun m hm heq => ?_
    have hpolicy := hdb.policies m hm
    rw [of_decide_eq_true heq, hnone] at hpolicy
    exact absurd hpolicy Bool.false_ne_true
  rw [membershipsOf, hmembers, List.filter_append, hold, List.nil_append,
    List.filter_eq_self.mpr fun m hm => decide_eq_true (policyVersionId_of_mem hm)]
  exact pairwise_newMemberships.insertionSort_eq

theorem not_mem_of_install
    (h : installPolicy db active policy rule decisionId activation = .ok db') (policyId : UUID) :
    rule.id ∉ (rulesOf db policyId).map ReviewRule.id := by
  intro hmem
  obtain ⟨r, hr, hid⟩ := List.mem_map.mp hmem
  obtain ⟨m, -, -, hget⟩ := mem_rulesOf hr
  have hnone : db.reviewRules.get? rule.id = none :=
    (Table.insert?_eq_some.mp (installPolicy_ok h).1).1
  have hkey : r.id = m.reviewRuleId := Table.key_of_get? hget
  rw [← hkey, hid, hnone] at hget
  cases hget

/-- Every rule of the replacement is found under its identifier. -/
theorem get?_of_mem_replacement (h : installPolicy db active policy rule decisionId activation =
    .ok db') {r : ReviewRule} (hr : r ∈ replacement rule (rulesOf db active.id)) :
    db'.reviewRules.get? r.id = some r := by
  have hinsert := (installPolicy_ok h).1
  have hmem : r ∈ db'.reviewRules := by
    rw [Table.mem_insert? hinsert]
    obtain rfl | hr := mem_replacement hr
    · exact .inr rfl
    · obtain ⟨m, -, -, hget⟩ := mem_rulesOf hr
      exact .inl (Table.mem_of_get? hget)
  exact Table.get?_key hmem

theorem rulesOf_install (hdb : PolicyMemberships db)
    (h : installPolicy db active policy rule decisionId activation = .ok db') :
    rulesOf db' policy.id = replacement rule (rulesOf db active.id) := by
  have hlookup : rulesOf db' policy.id =
      ((membershipsOf db' policy.id).map PolicyVersionReviewRule.reviewRuleId).filterMap
        db'.reviewRules.get? := by
    rw [List.filterMap_map]
    rfl
  rw [hlookup, membershipsOf_install hdb h, map_reviewRuleId_newMemberships, List.filterMap_map]
  calc (replacement rule (rulesOf db active.id)).filterMap (db'.reviewRules.get? ∘ ReviewRule.id)
      = (replacement rule (rulesOf db active.id)).filterMap some :=
        List.filterMap_congr fun r hr => get?_of_mem_replacement h hr
    _ = replacement rule (rulesOf db active.id) := List.filterMap_some

theorem nodup_newMemberships (hdb : PolicyMemberships db)
    (h : installPolicy db active policy rule decisionId activation = .ok db') :
    ((replacement rule (rulesOf db active.id)).map ReviewRule.id).Nodup :=
  nodup_replacement (nodup_rulesOf hdb active.id) (not_mem_of_install h active.id)

/-- An installation keeps the constraints, so that the next promotion starts from them. -/
theorem policyMemberships_install (hdb : PolicyMemberships db)
    (h : installPolicy db active policy rule decisionId activation = .ok db') :
    PolicyMemberships db' := by
  obtain ⟨hrules, hpolicies, hmembers⟩ := installPolicy_ok h
  have hnone : db.policyVersions.get? policy.id = none := (Table.insert?_eq_some.mp hpolicies).1
  have hother : ∀ m ∈ db.policyVersionReviewRules, m.policyVersionId ≠ policy.id := by
    intro m hm heq
    have hpolicy := hdb.policies m hm
    rw [heq, hnone] at hpolicy
    exact absurd hpolicy Bool.false_ne_true
  -- A pair that starts with the new policy is none of the old ones.
  have hnodup {β : Type} (f : PolicyVersionReviewRule → β)
      (hold : (db.policyVersionReviewRules.map fun m => (m.policyVersionId, f m)).Nodup)
      (hnew : ((newMemberships policy.id
        ((replacement rule (rulesOf db active.id)).map ReviewRule.id)).map f).Nodup) :
      (db'.policyVersionReviewRules.map fun m => (m.policyVersionId, f m)).Nodup := by
    rw [hmembers, List.map_append, List.nodup_append]
    refine ⟨hold, List.Nodup.of_map Prod.snd ?_, ?_⟩
    · rw [List.map_map]
      exact hnew
    · rintro p hp q hq rfl
      obtain ⟨m, hm, rfl⟩ := List.mem_map.mp hp
      obtain ⟨m', hm', heq⟩ := List.mem_map.mp hq
      exact hother m hm ((congrArg Prod.fst heq).symm.trans (policyVersionId_of_mem hm'))
  have hposition : ∀ m ∈ newMemberships policy.id
      ((replacement rule (rulesOf db active.id)).map ReviewRule.id), 0 < m.position := by
    intro m hm
    obtain ⟨_, -, rfl⟩ := List.mem_map.mp hm
    exact Nat.succ_pos _
  have hrule : ∀ m ∈ newMemberships policy.id
      ((replacement rule (rulesOf db active.id)).map ReviewRule.id),
      (db'.reviewRules.get? m.reviewRuleId).isSome := by
    intro m hm
    have hid := List.mem_map_of_mem (f := PolicyVersionReviewRule.reviewRuleId) hm
    rw [map_reviewRuleId_newMemberships] at hid
    obtain ⟨r, hr, hid⟩ := List.mem_map.mp hid
    rw [← hid, get?_of_mem_replacement h hr]
    rfl
  refine
    { members := hnodup _ hdb.members ?_
      positions := hnodup _ hdb.positions ?_
      positive := ?_
      policies := ?_
      rules := ?_ }
  · rw [map_reviewRuleId_newMemberships]
    exact nodup_newMemberships hdb h
  · rw [map_position_newMemberships]
    exact List.nodup_range'
  all_goals
    intro m hm
    rw [hmembers, List.mem_append] at hm
  · exact hm.elim (hdb.positive m) (hposition m)
  · rw [Table.get?_insert? hpolicies]
    obtain hm | hm := hm
    · rw [if_neg (fun heq : key policy = _ => hother m hm heq.symm)]
      exact hdb.policies m hm
    · rw [if_pos (show key policy = _ from (policyVersionId_of_mem hm).symm)]
      rfl
  · obtain hm | hm := hm
    · rw [Table.get?_insert? hrules]
      split
      · rfl
      · exact hdb.rules m hm
    · exact hrule m hm

end Install

/-! ### Promotions -/

section Promotion
variable {svc : ApprovalService} {rt : Runtime} {db db' : Database} {c : DecisionCommand}
  {task : Task} {request : ApprovalRequest} {candidate : RuleCandidate} {actor : String}

/-- The policy a promotion starts from. -/
def promotionPolicy (svc : ApprovalService) (db : Database) (task : Task) (now : Time) :
    Option PolicyVersion :=
  latestBy PolicyVersion.version ((policiesOfLineage db svc.activePolicyLineage).filter fun p =>
    p.ownerId = task.ownerId && p.approvedAt ≤ now)

/-- **The rules of a promoted policy** are those of the active one with the promoted rule in
place of its lineage, at the positions from 1 on; the constraints are kept, so that it is so
for every promotion of a run. -/
theorem promotes_of_promoteReviewRule (hdb : PolicyMemberships db)
    (h : promoteReviewRule svc rt db task request candidate c actor = .ok db') :
    ∃ active rule, promotionPolicy svc db task c.now = some active ∧
      db'.reviewRules.get? c.ruleId = some rule ∧ rule.candidateId = candidate.id ∧
      Promotes (rulesOf db active.id) (rulesOf db' c.policyVersionId) rule ∧
      (membershipsOf db' c.policyVersionId).map PolicyVersionReviewRule.reviewRuleId =
        (rulesOf db' c.policyVersionId).map ReviewRule.id ∧
      (membershipsOf db' c.policyVersionId).map PolicyVersionReviewRule.position =
        List.range' 1 (rulesOf db' c.policyVersionId).length ∧
      PolicyMemberships db' := by
  simp only [promoteReviewRule, Except.bind_eq_ok, Except.orThrow_eq_ok] at h
  obtain ⟨validated, -, _, -, _, -, _, -, _, -, _, -, active, hactive, h⟩ := h
  have hrule := Table.get?_key ((Table.mem_insert? (installPolicy_ok h).1).mpr (.inr rfl))
  have hpolicy : membershipsOf db' c.policyVersionId = _ := membershipsOf_install hdb h
  have hrules : rulesOf db' c.policyVersionId = _ := rulesOf_install hdb h
  refine ⟨active, _, hactive, hrule, rfl, ?_, ?_, ?_, policyMemberships_install hdb h⟩
  · rw [hrules]
    exact promotes_replacement (nodup_rulesOf hdb active.id) (not_mem_of_install h active.id)
  · rw [hpolicy, hrules]
    exact map_reviewRuleId_newMemberships
  · rw [hpolicy, hrules, map_position_newMemberships, List.length_map]

end Promotion

namespace PromotionExample

def task : Task where
  id := .ofNat 1
  repository := "mathews"
  ownerId := localOwnerId
  rootCorrelationId := .ofNat 1

def evidence : EvidenceEnvelope where
  evidenceId := .ofNat 10
  sourceKind := .request
  evidenceType := "review"
  origin := "reviewer"
  capturedAt := 3
  taskId := some task.id
  validationRunId := none
  ownerId := task.ownerId
  actorId := "worker"
  rootCorrelationId := .ofNat 1
  causationId := none
  parentCorrelationId := none
  correctionOfId := none
  accessClassification := .taskOwner
  retentionPolicy := .taskLifetime
  mediaType := .text
  redactionManifest := []
  contentHash := digest .plain "a"
  content := .str "a"

def candidate : RuleCandidate where
  id := .ofNat 20
  taskId := some task.id
  proposedRule := "r"
  citedEvidenceIds := [evidence.evidenceId.str]
  recurrenceAssessment := "r"
  severityAssessment := "HIGH"
  falsePositiveRisks := .arr []
  evaluationResult := some <| .obj
    [("passed", .bool true),
      ("review_rule", .obj
        [("lineage_key", .str "b"), ("scope", .obj [("s", .int 1)]),
          ("matcher", .obj [("m", .int 1)]), ("permitted_action", .str "p"),
          ("risk_class", .str "l"), ("evidence_requirements", .arr [.str "e"])])]
  status := .approved
  ownerId := task.ownerId

def request : ApprovalRequest where
  id := .ofNat 42
  taskId := task.id
  decisionId := some (.ofNat 43)
  supportingEvidenceIds := [evidence.evidenceId.str]

def policy : PolicyVersion where
  id := .ofNat 30
  lineageKey := "mvp"
  version := 1
  workflowThresholds := .null
  approvedAt := 1
  ownerId := task.ownerId

def activeRule (id : ℕ) (lineageKey : String) (version : ℕ) : ReviewRule where
  id := .ofNat id
  lineageKey
  version
  predecessorId := none
  candidateId := .ofNat 21
  approvalRequestId := .ofNat 41
  scope := .null
  matcher := .null
  permittedAction := "p"
  riskClass := "l"
  evidenceRequirements := []
  approvedBy := localOwnerId
  approvedAt := 1
  ownerId := task.ownerId

/-- Three active rules, stored out of order; the first and the last are of one lineage. -/
def store : Database where
  tasks := ⟨[task], List.nodup_singleton _⟩
  evidenceRecords := ⟨[evidence.record .plain], List.nodup_singleton _⟩
  policyVersions := ⟨[policy], List.nodup_singleton _⟩
  reviewRules := ⟨[activeRule 31 "b" 1, activeRule 32 "c" 1, activeRule 33 "b" 2], by decide⟩
  policyVersionReviewRules :=
    [⟨policy.id, .ofNat 32, 2⟩, ⟨policy.id, .ofNat 31, 1⟩, ⟨policy.id, .ofNat 33, 3⟩]

def approval : DecisionCommand where
  requestId := request.id
  decisionId := .ofNat 43
  decision := .approve
  actorId := localOwnerId
  regressionReview := some ⟨candidate.id, Runtime.plain.fingerprint .null, true⟩
  now := 10
  transitionEventId := .ofNat 44
  eventId := .ofNat 45
  ruleId := .ofNat 46
  policyVersionId := .ofNat 47

theorem policyMemberships_store : PolicyMemberships store where
  members := by decide
  positions := by decide
  positive := by decide
  policies := by decide
  rules := by decide

set_option maxRecDepth 4000 in
theorem promoted : (promoteReviewRule {} .plain store task request candidate approval
    localOwnerId).toOption.map (fun db => (rulesOf db (.ofNat 47)).map ReviewRule.id) =
      some [.ofNat 46, .ofNat 32] := by
  decide +kernel

end PromotionExample

open PromotionExample in
theorem promotes_of_promoteReviewRule_sample : ∃ db' rule,
    Promotes (rulesOf store policy.id) (rulesOf db' approval.policyVersionId) rule := by
  obtain ⟨db', hdb', -⟩ := Option.map_eq_some_iff.mp promoted
  cases hresult : promoteReviewRule {} .plain store task request candidate approval
      localOwnerId with
  | error e =>
    rw [hresult] at hdb'
    cases hdb'
  | ok after =>
    obtain ⟨active, rule, hactive, -, -, hpromotes, -⟩ :=
      promotes_of_promoteReviewRule policyMemberships_store hresult
    have hpolicy : active.id = policy.id := by
      have hfound : promotionPolicy {} store task approval.now = some policy := rfl
      exact congrArg PolicyVersion.id (Option.some.inj (hactive.symm.trans hfound))
    rw [hpolicy] at hpromotes
    exact ⟨after, rule, hpromotes⟩

end ControlPlane
