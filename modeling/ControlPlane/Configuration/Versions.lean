import ControlPlane.Configuration.Boundaries
import ControlPlane.Lib.Pages
import ControlPlane.Validation.EvidenceCollection

/-!
# Versions of a configuration

The owner reads a configuration without its secrets and writes it back with updates of them. A
version is materialized from what is written and from the version before it, then checked and
stored in a canonical form; what the owner leaves out is taken over.

The checks that read no secret are a parameter, and so is the canonical spelling of a secret
reference.

## Main definitions

* `materializeConfiguration`, `createVersion`
* `projection`: a stored version as it is read.
* `Saves`: a chain of versions, with what was written for each.

## Main results

* `versions_keep_secrets`: which secrets and references a version has after any chain.
-/
namespace ControlPlane.Repositories

open ControlPlane.Configuration (OperationKind)
open ControlPlane.ValidationEvidence (operationKindOfValue?)

/-! ### What is stored -/

/-- The flow of an operation, the account apart from the other entries. -/
structure Flow where
  testAccount : Option Json
  others : Json

/-- An operation, its flow apart from the other entries when it is a dictionary. -/
structure Operation where
  flow : Option Flow
  others : Json

/-- The Git settings, the credential apart from the other entries. -/
structure GitSettings where
  pushCredential : Option Json
  others : Json

structure Settings where
  repositorySettings : Json
  gitSettings : GitSettings
  xcodeSettings : Json
  operations : List Operation
  e2eAssertions : Json
  artifactSettings : Json
  prohibitedPaths : Json

structure Materialized extends Settings where
  secretReferences : List Json

/-- A version that was saved. -/
structure RepositoryConfigurationRecord extends Materialized where
  repositoryKey : String
  version : ℕ

/-- Write-only references; what is omitted keeps its value. -/
structure SecretReferenceUpdates where
  pushCredential : Option String := none
  e2eTestAccount : Option String := none
  additional : Option (List String) := none

structure RepositoryConfigurationWriteRequest extends Settings where
  repositoryKey : String
  expectedConfigurationVersion : Option ℕ
  secretUpdates : SecretReferenceUpdates
  approveSensitiveChange : Bool

inductive SaveError where
  | value (message : String)
  | permission (message : String)
  | conflict (message : String)
  deriving DecidableEq, Repr

/-- The parts of a configuration that are checked one by one. -/
inductive Section where
  | repository | git | xcode | operation | flow | assertions | artifacts | paths
  deriving DecidableEq, Repr

/-- The checks of a configuration that read no secret, and the spelling of references. -/
structure Checks where
  /-- A part as it is stored, if it is valid. -/
  stored : Section → Json → Option Json
  stored_stored : ∀ part value value', stored part value = some value' →
    stored part value' = some value'
  /-- The canonical URI of a reference. -/
  uri : String → Option String
  uri_uri : ∀ text text', uri text = some text' → uri text' = some text'
  /-- The bindings between the parts. -/
  bound : Settings → Bool
  /-- A version crosses the typed host boundary. -/
  crosses : RepositoryConfigurationRecord → Bool

/-! ### Materializing -/

/-- The value under a key that a dictionary may not have. -/
def entry (value : Option Json) : Json := value.getD .null

/-- The account of the first flow. -/
def e2eTestAccount (operations : List Operation) : Json :=
  match operations.findSome? (·.flow) with
  | some flow => entry flow.testAccount
  | none => .null

/-- An update, or what was there. -/
def updated (update : Option String) (previous : Json) : Json :=
  match update with
  | some text => .str text
  | none => previous

def materializeOperation (account : Json) (operation : Operation) :
    Except SaveError Operation :=
  match operation.flow with
  | none => .ok operation
  | some flow => do
    Except.require (flow.testAccount = none)
      (SaveError.value "E2E account must use the write-only secret field")
    return { operation with flow := some { flow with testAccount := some account } }

/-- A designated reference comes at the end of a list that does not have it. -/
def addReference (references : List Json) (reference : Json) : List Json :=
  match reference.str? with
  | some text =>
    if references.any (·.str? = some text) then references else references ++ [reference]
  | none => references

def withDesignated (references designated : List Json) : List Json :=
  designated.foldl addReference references

def materializeConfiguration (body : RepositoryConfigurationWriteRequest)
    (latest : Option RepositoryConfigurationRecord) : Except SaveError Materialized := do
  Except.require (body.gitSettings.pushCredential = none)
    (SaveError.value "push credential must use the write-only secret field")
  let previousPush := entry (latest.bind (·.gitSettings.pushCredential))
  let push := updated body.secretUpdates.pushCredential previousPush
  let previousAccount := entry (latest.map fun version => e2eTestAccount version.operations)
  let operations ← body.operations.mapM
    (materializeOperation (updated body.secretUpdates.e2eTestAccount previousAccount))
  let additional : List Json := match body.secretUpdates.additional with
    | some texts => texts.map Json.str
    | none => (latest.map fun version => version.secretReferences).getD []
  let previousDesignated := [previousPush, previousAccount].filterMap Json.str?
  let kept := additional.filter fun reference =>
    reference.str?.all fun text => !previousDesignated.contains text
  return {
    body.toSettings with
    gitSettings := { body.gitSettings with pushCredential := some push }
    operations
    secretReferences := withDesignated kept [push, e2eTestAccount operations] }

/-! ### Checking and storing -/

section Storing
variable (checks : Checks)

def storedPart (part : Section) (value : Json) : Except SaveError Json :=
  Except.orThrow (checks.stored part value) (SaveError.value "repository configuration is invalid")

/-- A reference in its canonical spelling. -/
def storedReference (value : Json) : Except SaveError String := do
  let text ← Except.orThrow value.str? (SaveError.value "secret reference must be text")
  Except.orThrow (checks.uri text)
    (SaveError.value "secret reference must use keychain://<service>/<account>")

def storedFlow (flow : Flow) : Except SaveError Flow := do
  let others ← storedPart checks .flow flow.others
  let account ← storedReference checks (entry flow.testAccount)
  return { testAccount := some (.str account), others }

def Operation.kind (operation : Operation) : Option OperationKind :=
  (operation.others.get "kind").str?.bind operationKindOfValue?

/-- Exactly the end-to-end operation has a flow. -/
def storedOperation (operation : Operation) : Except SaveError Operation := do
  let others ← storedPart checks .operation operation.others
  let flow ← match operation.flow with
    | none => pure none
    | some flow => some <$> storedFlow checks flow
  Except.require ((Operation.kind { flow, others } = some .simulatorE2e) ↔ flow.isSome = true)
    (SaveError.value "exactly the SIMULATOR_E2E operation must contain the E2E flow")
  return { flow, others }

/-- One operation of each kind. -/
def allKinds (operations : List Operation) : Prop :=
  (operations.map Operation.kind).Perm
    [some .build, some .unitTest, some .integrationTest, some .simulatorE2e]

instance (operations : List Operation) : Decidable (allKinds operations) := by
  unfold allKinds
  infer_instance

def storedGit (git : GitSettings) : Except SaveError GitSettings := do
  let others ← storedPart checks .git git.others
  match git.pushCredential with
  | none => return { pushCredential := none, others }
  | some value =>
    let push ← storedReference checks value
    return { pushCredential := some (.str push), others }

/-- The settings without their secrets. -/
def projection (settings : Settings) : Settings :=
  { settings with
    gitSettings := { settings.gitSettings with pushCredential := none }
    operations := settings.operations.map fun operation =>
      { operation with flow := operation.flow.map fun flow => { flow with testAccount := none } } }

def createRepositoryConfiguration (repositoryKey : String) (materialized : Materialized)
    (latest : Option RepositoryConfigurationRecord) :
    Except SaveError RepositoryConfigurationRecord := do
  let repositorySettings ← storedPart checks .repository materialized.repositorySettings
  let gitSettings ← storedGit checks materialized.gitSettings
  let xcodeSettings ← storedPart checks .xcode materialized.xcodeSettings
  let operations ← materialized.operations.mapM (storedOperation checks)
  let e2eAssertions ← storedPart checks .assertions materialized.e2eAssertions
  let artifactSettings ← storedPart checks .artifacts materialized.artifactSettings
  let prohibitedPaths ← storedPart checks .paths materialized.prohibitedPaths
  let references ← materialized.secretReferences.mapM (storedReference checks)
  let settings : Settings :=
    { repositorySettings, gitSettings, xcodeSettings, operations, e2eAssertions, artifactSettings,
      prohibitedPaths }
  Except.require (allKinds operations) (SaveError.value
    ("configuration must define exactly one BUILD, UNIT_TEST, INTEGRATION_TEST, and " ++
      "SIMULATOR_E2E operation"))
  Except.require (checks.bound (projection settings) = true)
    (SaveError.value "repository configuration is invalid")
  Except.require references.Nodup (SaveError.value "secret references must be unique")
  Except.require (∀ push ∈ gitSettings.pushCredential, ∃ text ∈ references, push.str? = some text)
    (SaveError.value "Git push credential must be listed in opaque secret references")
  Except.require (∃ text ∈ references, (e2eTestAccount operations).str? = some text)
    (SaveError.value "E2E test account must be listed in opaque secret references")
  Except.require ((entry gitSettings.pushCredential).str? ≠ (e2eTestAccount operations).str?)
    (SaveError.value "Git push credential must be distinct from the E2E test account")
  return {
    settings with
    secretReferences := references.map .str
    repositoryKey
    version := (latest.map (·.version)).getD 0 + 1 }

/-- Save the next version; `verified` says that the password was entered recently. -/
def createVersion (repositoryKey : String) (verified : Bool)
    (body : RepositoryConfigurationWriteRequest) (latest : Option RepositoryConfigurationRecord) :
    Except SaveError RepositoryConfigurationRecord := do
  Except.require (body.repositoryKey = repositoryKey)
    (SaveError.value "only the configured repository may be changed")
  Except.require (body.approveSensitiveChange = true)
    (SaveError.permission "explicit approval is required")
  Except.require (verified = true)
    (SaveError.permission "recent password authentication is required")
  Except.require (body.expectedConfigurationVersion = latest.map (·.version))
    (SaveError.conflict "repository configuration changed; reload and try again")
  let materialized ← materializeConfiguration body latest
  let created ← createRepositoryConfiguration checks repositoryKey materialized latest
  Except.require (checks.crosses created = true) (SaveError.value "INVALID_OPERATION")
  return created

end Storing

/-! ### Accounts -/

section Accounts
variable {checks : Checks} {operations : List Operation}

/-- Every flow has one account, and there is a flow. -/
structure Account (operations : List Operation) (account : Json) : Prop where
  same : ∀ operation ∈ operations, ∀ flow ∈ operation.flow, flow.testAccount = some account
  exists_flow : ∃ operation ∈ operations, operation.flow.isSome = true

theorem Account.e2eTestAccount_eq {account : Json} (h : Account operations account) :
    e2eTestAccount operations = account := by
  obtain ⟨operation, hoperation, hsome⟩ := h.exists_flow
  unfold e2eTestAccount
  cases hfind : operations.findSome? (·.flow) with
  | none =>
    have hnone := List.findSome?_eq_none_iff.mp hfind operation hoperation
    rw [hnone] at hsome
    cases hsome
  | some flow =>
    obtain ⟨found, hfound, hflow⟩ := List.exists_of_findSome?_eq_some hfind
    simp only [entry, h.same found hfound flow hflow, Option.getD_some]

theorem materializeOperation_ok {account : Json} {operation operation' : Operation}
    (h : materializeOperation account operation = .ok operation') :
    operation'.others = operation.others ∧
      operation'.flow =
        operation.flow.map fun flow => { flow with testAccount := some account } := by
  unfold materializeOperation at h
  cases hflow : operation.flow with
  | none =>
    simp only [hflow, Except.ok.injEq] at h
    subst h
    simp [hflow]
  | some flow =>
    simp only [hflow, Except.bind_eq_ok, Except.require_eq_ok, Except.pure_eq_ok] at h
    obtain ⟨_, -, rfl⟩ := h
    simp

theorem storedReference_eq_ok {value : Json} {uri : String} :
    storedReference checks value = .ok uri ↔
      ∃ text, value = .str text ∧ checks.uri text = some uri := by
  simp [storedReference]

theorem storedPart_eq_ok {part : Section} {value value' : Json} :
    storedPart checks part value = .ok value' ↔ checks.stored part value = some value' := by
  simp [storedPart]

theorem storedFlow_ok {flow flow' : Flow} (h : storedFlow checks flow = .ok flow') :
    storedFlow checks flow' = .ok flow' ∧ ∃ uri,
      storedReference checks (entry flow.testAccount) = .ok uri ∧
      flow'.testAccount = some (.str uri) := by
  simp only [storedFlow, Except.bind_eq_ok, Except.pure_eq_ok, storedPart_eq_ok] at h
  obtain ⟨others, hothers, uri, huri, rfl⟩ := h
  obtain ⟨text, -, hcanonical⟩ := storedReference_eq_ok.mp huri
  refine ⟨?_, uri, huri, rfl⟩
  simp only [storedFlow, Except.bind_eq_ok, Except.pure_eq_ok, storedPart_eq_ok]
  exact ⟨others, checks.stored_stored _ _ _ hothers, uri,
    storedReference_eq_ok.mpr ⟨uri, rfl, checks.uri_uri _ _ hcanonical⟩, rfl⟩

/-- A stored operation has a flow exactly when it had one, and is stored as it is. -/
theorem storedOperation_ok {operation operation' : Operation}
    (h : storedOperation checks operation = .ok operation') :
    storedOperation checks operation' = .ok operation' ∧
      (operation'.kind = some .simulatorE2e ↔ operation'.flow.isSome = true) ∧
      (operation.flow = none ∧ operation'.flow = none ∨ ∃ flow flow', operation.flow = some flow ∧
        storedFlow checks flow = .ok flow' ∧ operation'.flow = some flow') := by
  unfold storedOperation at h
  cases hflow : operation.flow with
  | none =>
    simp only [hflow, Except.bind_eq_ok, Except.pure_eq_ok, Except.require_eq_ok,
      storedPart_eq_ok] at h
    obtain ⟨others, hothers, flow', rfl, _, hkind, rfl⟩ := h
    refine ⟨?_, hkind, Or.inl ⟨rfl, rfl⟩⟩
    simp only [storedOperation, Except.bind_eq_ok, Except.pure_eq_ok, Except.require_eq_ok,
      storedPart_eq_ok]
    exact ⟨others, checks.stored_stored _ _ _ hothers, none, rfl, (), hkind, rfl⟩
  | some flow =>
    simp only [hflow, Except.bind_eq_ok, Except.pure_eq_ok, Except.require_eq_ok,
      storedPart_eq_ok, Except.map_eq_ok] at h
    obtain ⟨others, hothers, _, ⟨flow', hstored, rfl⟩, _, hkind, rfl⟩ := h
    refine ⟨?_, hkind, Or.inr ⟨flow, flow', rfl, hstored, rfl⟩⟩
    simp only [storedOperation, Except.bind_eq_ok, Except.pure_eq_ok, Except.require_eq_ok,
      storedPart_eq_ok, Except.map_eq_ok]
    exact ⟨others, checks.stored_stored _ _ _ hothers, _, ⟨flow', (storedFlow_ok hstored).1, rfl⟩,
      (), hkind, rfl⟩

/-- The operations of a version: all with the account of the write, in canonical spelling. -/
theorem Account.stored {account : Json} {operations' : List Operation}
    (hsame : ∀ operation ∈ operations, ∀ flow ∈ operation.flow, flow.testAccount = some account)
    (h : operations.mapM (storedOperation checks) = .ok operations')
    (hkinds : allKinds operations') :
    (∀ operation ∈ operations', storedOperation checks operation = .ok operation) ∧
      ∃ uri, Account operations account ∧ storedReference checks account = .ok uri ∧
        Account operations' (.str uri) := by
  have hforall := Except.mapM_eq_ok.mp h
  have hfrom : ∀ operation' ∈ operations', ∃ operation ∈ operations,
      storedOperation checks operation = .ok operation' :=
    fun operation' hmem => Pages.exists_of_mem_right hforall hmem
  -- The one end-to-end operation has a flow, which every other one shares its account with.
  have hend : ∃ operation' ∈ operations', operation'.kind = some .simulatorE2e := by
    have hmem : some OperationKind.simulatorE2e ∈ operations'.map Operation.kind :=
      hkinds.mem_iff.mpr (by decide)
    obtain ⟨operation', hmem, hkind⟩ := List.mem_map.mp hmem
    exact ⟨operation', hmem, hkind⟩
  obtain ⟨chosen', hchosen', hkind⟩ := hend
  obtain ⟨chosen, hchosen, hstored⟩ := hfrom chosen' hchosen'
  obtain ⟨-, hiff, hcases⟩ := storedOperation_ok hstored
  have hsome := hiff.mp hkind
  obtain ⟨-, hnone⟩ | ⟨flow, flow', hflow, hstoredFlow, -⟩ := hcases
  · rw [hnone] at hsome
    cases hsome
  obtain ⟨-, uri, huri, -⟩ := storedFlow_ok hstoredFlow
  rw [hsame chosen hchosen flow hflow] at huri
  refine ⟨fun operation' hmem => ?_, uri, ⟨hsame, chosen, hchosen, by rw [hflow]; rfl⟩, huri, ?_,
    chosen', hchosen', hsome⟩
  · obtain ⟨operation, -, hoperation⟩ := hfrom operation' hmem
    exact (storedOperation_ok hoperation).1
  · intro operation' hmem flow' hflow'
    obtain ⟨operation, hoperation, hstored⟩ := hfrom operation' hmem
    obtain ⟨-, -, ⟨-, hnone⟩ | ⟨flow, stored, hflow, hstoredFlow, hsomeStored⟩⟩ :=
      storedOperation_ok hstored
    · rw [hnone] at hflow'
      cases hflow'
    · obtain ⟨-, uri', huri', haccount⟩ := storedFlow_ok hstoredFlow
      rw [hsame operation hoperation flow hflow] at huri'
      change storedReference checks account = .ok uri at huri
      change storedReference checks account = .ok uri' at huri'
      rw [huri, Except.ok.injEq] at huri'
      rw [hsomeStored] at hflow'
      obtain rfl := Option.some.inj hflow'
      rw [haccount, huri']

end Accounts

/-! ### One write -/

section Write
variable {checks : Checks} {repositoryKey : String} {verified : Bool}
  {body : RepositoryConfigurationWriteRequest} {latest : Option RepositoryConfigurationRecord}
  {created : RepositoryConfigurationRecord}

/-- What the version before has as its credential, its account and its references. -/
def pushBefore (latest : Option RepositoryConfigurationRecord) : Json :=
  entry (latest.bind (·.gitSettings.pushCredential))

def accountBefore (latest : Option RepositoryConfigurationRecord) : Json :=
  entry (latest.map fun version => e2eTestAccount version.operations)

def referencesBefore (latest : Option RepositoryConfigurationRecord) : List Json :=
  (latest.map fun version => version.secretReferences).getD []

/-- The references that are written or taken over, without those designated before. -/
def keptReferences (body : RepositoryConfigurationWriteRequest)
    (latest : Option RepositoryConfigurationRecord) : List Json :=
  (match body.secretUpdates.additional with
    | some texts => texts.map Json.str
    | none => referencesBefore latest).filter fun reference =>
      reference.str?.all fun text =>
        !([pushBefore latest, accountBefore latest].filterMap Json.str?).contains text

theorem materializeConfiguration_ok {materialized : Materialized}
    (h : materializeConfiguration body latest = .ok materialized) :
    ∃ operations, body.operations.mapM (materializeOperation
        (updated body.secretUpdates.e2eTestAccount (accountBefore latest))) = .ok operations ∧
      materialized = {
        body.toSettings with
        gitSettings := { body.gitSettings with
          pushCredential := some (updated body.secretUpdates.pushCredential (pushBefore latest)) }
        operations
        secretReferences := withDesignated (keptReferences body latest)
          [updated body.secretUpdates.pushCredential (pushBefore latest),
            e2eTestAccount operations] } := by
  simp only [materializeConfiguration, Except.bind_eq_ok, Except.require_eq_ok,
    Except.pure_eq_ok] at h
  obtain ⟨_, -, operations, hoperations, rfl⟩ := h
  exact ⟨operations, hoperations, rfl⟩

/-- What a saved version keeps. -/
structure Saved (checks : Checks) (v : RepositoryConfigurationRecord) (push account : String)
    (references : List String) : Prop where
  pushCredential : v.gitSettings.pushCredential = some (.str push)
  testAccount : Account v.operations (.str account)
  secretReferences : v.secretReferences = references.map .str
  push_uri : checks.uri push = some push
  references_uri : ∀ text ∈ references, checks.uri text = some text
  nodup : references.Nodup
  push_mem : push ∈ references
  account_mem : account ∈ references
  distinct : push ≠ account
  kinds : allKinds v.operations
  bound : checks.bound (projection v.toSettings) = true
  repository : checks.stored .repository v.repositorySettings = some v.repositorySettings
  git : checks.stored .git v.gitSettings.others = some v.gitSettings.others
  xcode : checks.stored .xcode v.xcodeSettings = some v.xcodeSettings
  operations : ∀ operation ∈ v.operations, storedOperation checks operation = .ok operation
  assertions : checks.stored .assertions v.e2eAssertions = some v.e2eAssertions
  artifacts : checks.stored .artifacts v.artifactSettings = some v.artifactSettings
  paths : checks.stored .paths v.prohibitedPaths = some v.prohibitedPaths

/-- What a saved version has of the write, and of the version before where the write omits it. -/
structure Written (checks : Checks) (body : RepositoryConfigurationWriteRequest)
    (latest : Option RepositoryConfigurationRecord) (created : RepositoryConfigurationRecord)
    (push account : String) (references : List String) : Prop where
  saved : Saved checks created push account references
  push : ∃ text, updated body.secretUpdates.pushCredential (pushBefore latest) = .str text ∧
    checks.uri text = some push
  account : ∃ text, updated body.secretUpdates.e2eTestAccount (accountBefore latest) = .str text ∧
    checks.uri text = some account
  references : (withDesignated (keptReferences body latest)
    [updated body.secretUpdates.pushCredential (pushBefore latest),
      updated body.secretUpdates.e2eTestAccount (accountBefore latest)]).mapM
        (storedReference checks) = .ok references

theorem written_of_createVersion
    (h : createVersion checks repositoryKey verified body latest = .ok created) :
    ∃ push account references, Written checks body latest created push account references := by
  simp only [createVersion, Except.bind_eq_ok, Except.require_eq_ok, Except.pure_eq_ok] at h
  obtain ⟨_, -, _, -, _, -, _, -, materialized, hmaterialized, _, hcreated, _, -, rfl⟩ := h
  obtain ⟨operations, hoperations, rfl⟩ := materializeConfiguration_ok hmaterialized
  simp only [createRepositoryConfiguration, Except.bind_eq_ok, Except.require_eq_ok,
    Except.pure_eq_ok, storedPart_eq_ok] at hcreated
  obtain ⟨repository, hrepository, git, hgit, xcode, hxcode, stored, hstored, assertions,
    hassertions, artifacts, hartifacts, paths, hpaths, references, hreferences, _, hkinds, _,
    hbound, _, hnodup, _, hpush, _, haccount, _, hdistinct, rfl⟩ := hcreated
  have hsame : ∀ operation ∈ operations, ∀ flow ∈ operation.flow, flow.testAccount =
      some (updated body.secretUpdates.e2eTestAccount (accountBefore latest)) := by
    intro operation hmem flow hflow
    obtain ⟨source, -, hsource⟩ :=
      Pages.exists_of_mem_right (Except.mapM_eq_ok.mp hoperations) hmem
    rw [(materializeOperation_ok hsource).2] at hflow
    obtain ⟨_, -, rfl⟩ := Option.map_eq_some_iff.mp hflow
    rfl
  obtain ⟨hidempotent, account, hwritten, haccountUri, hall⟩ := Account.stored hsame hstored hkinds
  obtain ⟨accountText, haccountText, haccountCanonical⟩ := storedReference_eq_ok.mp haccountUri
  -- The write always sets the credential, so that it is read.
  simp only [storedGit, Except.bind_eq_ok, storedPart_eq_ok, Except.pure_eq_ok] at hgit
  obtain ⟨others, hothers, push, hpushUri, rfl⟩ := hgit
  obtain ⟨pushText, hpushText, hpushCanonical⟩ := storedReference_eq_ok.mp hpushUri
  rw [hwritten.e2eTestAccount_eq] at hreferences
  rw [hall.e2eTestAccount_eq] at haccount hdistinct
  have hpushMem : push ∈ references := by simpa [Json.str?] using hpush
  have haccountMem : account ∈ references := by simpa [Json.str?] using haccount
  have hne : push ≠ account := by simpa [entry, Json.str?] using hdistinct
  have hcanonical : ∀ text ∈ references, checks.uri text = some text := by
    intro text htext
    obtain ⟨value, -, hvalue⟩ :=
      Pages.exists_of_mem_right (Except.mapM_eq_ok.mp hreferences) htext
    obtain ⟨raw, -, hraw⟩ := storedReference_eq_ok.mp hvalue
    exact checks.uri_uri _ _ hraw
  refine ⟨push, account, references, ?_, ⟨pushText, hpushText, hpushCanonical⟩,
    ⟨accountText, haccountText, haccountCanonical⟩, hreferences⟩
  exact {
    pushCredential := rfl
    testAccount := hall
    secretReferences := rfl
    push_uri := checks.uri_uri _ _ hpushCanonical
    references_uri := hcanonical
    nodup := hnodup
    push_mem := hpushMem
    account_mem := haccountMem
    distinct := hne
    kinds := hkinds
    bound := hbound
    repository := checks.stored_stored _ _ _ hrepository
    git := checks.stored_stored _ _ _ hothers
    xcode := checks.stored_stored _ _ _ hxcode
    operations := hidempotent
    assertions := checks.stored_stored _ _ _ hassertions
    artifacts := checks.stored_stored _ _ _ hartifacts
    paths := checks.stored_stored _ _ _ hpaths }

/-! ### References -/

theorem any_str {references : List String} {text : String} :
    (references.map Json.str).any (fun reference => decide (reference.str? = some text)) =
      references.contains text := by
  induction references with
  | nil => rfl
  | cons reference rest ih =>
    rw [List.map_cons, List.any_cons, ih, List.contains_cons]
    simp [Json.str?, eq_comm, Bool.beq_eq_decide_eq]

theorem addReference_str {references : List String} {text : String} :
    addReference (references.map Json.str) (.str text) =
      (if references.contains text then references else references ++ [text]).map Json.str := by
  have hstr : (Json.str text).str? = some text := rfl
  unfold addReference
  rw [hstr]
  dsimp only
  simp only [any_str]
  split <;> simp

/-- The designated references that a list does not have, after it. -/
theorem withDesignated_strs {references : List String} {push account : String}
    (hne : push ≠ account) :
    withDesignated (references.map Json.str) [.str push, .str account] =
      (references ++
        [push, account].filter fun text => !references.contains text).map Json.str := by
  rw [withDesignated, List.foldl_cons, List.foldl_cons, List.foldl_nil, addReference_str,
    addReference_str]
  by_cases hpush : push ∈ references <;> by_cases haccount : account ∈ references <;>
    simp [hpush, haccount, hne.symm]

theorem keptReferences_eq {additional designated : List String}
    (hadditional : (match body.secretUpdates.additional with
      | some texts => texts.map Json.str
      | none => referencesBefore latest) = additional.map Json.str)
    (hdesignated : [pushBefore latest, accountBefore latest].filterMap Json.str? = designated) :
    keptReferences body latest =
      (additional.filter fun text => !designated.contains text).map Json.str := by
  rw [keptReferences, hadditional, hdesignated, List.filter_map]
  rfl

theorem mapM_storedReference {texts references : List String} :
    (texts.map Json.str).mapM (storedReference checks) = .ok references ↔
      List.Forall₂ (fun text reference => checks.uri text = some reference) texts references := by
  rw [Except.mapM_eq_ok, List.forall₂_map_left_iff]
  simp only [storedReference_eq_ok, Json.str.injEq, exists_eq_left']

/-! ### Saving what was read -/

theorem materializeOperation_projection {v : RepositoryConfigurationRecord} {account : Json}
    (h : Account v.operations account) :
    (projection v.toSettings).operations.mapM (materializeOperation account) =
      .ok v.operations := by
  refine Except.mapM_eq_ok.mpr ?_
  rw [projection, List.forall₂_map_left_iff, List.forall₂_same]
  intro operation hmem
  obtain ⟨flow, others⟩ := operation
  cases flow with
  | none => rfl
  | some flow =>
    have haccount := h.same _ hmem flow rfl
    obtain ⟨testAccount, others⟩ := flow
    change testAccount = some account at haccount
    subst haccount
    rfl

/-- The version that saving a version again makes of it. -/
def resaved (v : RepositoryConfigurationRecord) (push account : String)
    (references : List String) : RepositoryConfigurationRecord :=
  { v with
    secretReferences := ((references.filter fun text => !([push, account].contains text)) ++
      [push, account]).map Json.str
    version := v.version + 1 }

theorem Saved.pushBefore_eq {v : RepositoryConfigurationRecord} {push account : String}
    {references : List String} (h : Saved checks v push account references) :
    pushBefore (some v) = .str push := by
  simp only [pushBefore, Option.bind_some, h.pushCredential, entry, Option.getD_some]

theorem Saved.accountBefore_eq {v : RepositoryConfigurationRecord} {push account : String}
    {references : List String} (h : Saved checks v push account references) :
    accountBefore (some v) = .str account :=
  h.testAccount.e2eTestAccount_eq

theorem Saved.nodup_resaved {v : RepositoryConfigurationRecord} {push account : String}
    {references : List String} (h : Saved checks v push account references) :
    ((references.filter fun text => !([push, account].contains text)) ++
      [push, account]).Nodup := by
  refine List.nodup_append.mpr ⟨h.nodup.filter _, by simpa using h.distinct, ?_⟩
  intro text htext other hother heq
  subst heq
  have hnot := (List.mem_filter.mp htext).2
  rw [List.contains_iff_mem.mpr hother] at hnot
  cases hnot

theorem Saved.perm_resaved {v : RepositoryConfigurationRecord} {push account : String}
    {references : List String} (h : Saved checks v push account references) :
    (resaved v push account references).secretReferences.Perm v.secretReferences := by
  rw [h.secretReferences]
  refine List.Perm.map Json.str ((List.perm_ext_iff_of_nodup h.nodup_resaved h.nodup).mpr ?_)
  intro text
  simp only [List.mem_append, List.mem_filter, Bool.not_eq_true', List.mem_cons, List.not_mem_nil,
    or_false]
  constructor
  · rintro (⟨hmem, -⟩ | rfl | rfl)
    · exact hmem
    · exact h.push_mem
    · exact h.account_mem
  · intro hmem
    by_cases hdesignated : text = push ∨ text = account
    · exact Or.inr hdesignated
    · exact Or.inl ⟨hmem, by simpa using hdesignated⟩

theorem repositoryKey_of_createVersion
    (h : createVersion checks repositoryKey verified body latest = .ok created) :
    created.repositoryKey = repositoryKey := by
  simp only [createVersion, Except.bind_eq_ok, Except.require_eq_ok, Except.pure_eq_ok] at h
  obtain ⟨_, -, _, -, _, -, _, -, materialized, -, _, hcreated, _, -, rfl⟩ := h
  simp only [createRepositoryConfiguration, Except.bind_eq_ok, Except.pure_eq_ok] at hcreated
  obtain ⟨_, -, _, -, _, -, _, -, _, -, _, -, _, -, _, -, _, -, _, -, _, -, _, -, _, -, _, -,
    rfl⟩ := hcreated
  rfl

/-- What is read of a version and written back is saved as it is, with the designated references
at the end, when it crosses the host boundary. -/
theorem createVersion_projection {v : RepositoryConfigurationRecord} {push account : String}
    {references : List String} (h : Saved checks v push account references)
    (hkey : v.repositoryKey = repositoryKey) (hbodyKey : body.repositoryKey = repositoryKey)
    (happroved : body.approveSensitiveChange = true) (hverified : verified = true)
    (hexpected : body.expectedConfigurationVersion = some v.version)
    (hsettings : body.toSettings = projection v.toSettings) (hupdates : body.secretUpdates = {}) :
    createVersion checks repositoryKey verified body (some v) =
      (do Except.require (checks.crosses (resaved v push account references) = true)
            (SaveError.value "INVALID_OPERATION")
          return resaved v push account references) := by
  have haccount := h.accountBefore_eq
  have hpush := h.pushBefore_eq
  have hkept : keptReferences body (some v) =
      (references.filter fun text => !([push, account].contains text)).map Json.str := by
    refine keptReferences_eq ?_ ?_
    · rw [hupdates]
      exact h.secretReferences
    · rw [hpush, haccount]
      rfl
  have hlisted : withDesignated (keptReferences body (some v)) [.str push, .str account] =
      ((references.filter fun text => !([push, account].contains text)) ++
        [push, account]).map Json.str := by
    rw [hkept, withDesignated_strs h.distinct]
    simp
  have hgit : { v.gitSettings with pushCredential := some (.str push) } = v.gitSettings := by
    rw [← h.pushCredential]
  have hmaterialized : materializeConfiguration body (some v) = .ok
      { v.toSettings with
        secretReferences := ((references.filter fun text => !([push, account].contains text)) ++
          [push, account]).map Json.str } := by
    obtain ⟨settings, key, expected, updates, approve⟩ := body
    change settings = projection v.toSettings at hsettings
    change updates = {} at hupdates
    subst hsettings hupdates
    have hoperations : (projection v.toSettings).operations.mapM
        (materializeOperation (updated none (accountBefore (some v)))) = .ok v.operations := by
      rw [updated, haccount]
      exact materializeOperation_projection h.testAccount
    simp only [materializeConfiguration, Except.bind_eq_ok, Except.require_eq_ok,
      Except.pure_eq_ok]
    refine ⟨(), rfl, v.operations, hoperations, ?_⟩
    rw [h.testAccount.e2eTestAccount_eq, ← hlisted]
    change ({
      v.toSettings with
      gitSettings := { v.gitSettings with pushCredential := some (pushBefore (some v)) }
      secretReferences := withDesignated
        (keptReferences ⟨projection v.toSettings, key, expected, {}, approve⟩ (some v))
        [pushBefore (some v), .str account] } : Materialized) = _
    rw [hpush, hgit]
  have hcreated : createRepositoryConfiguration checks repositoryKey
      { v.toSettings with
        secretReferences := ((references.filter fun text => !([push, account].contains text)) ++
          [push, account]).map Json.str } (some v) = .ok (resaved v push account references) := by
    have hstoredGit : storedGit checks v.gitSettings = .ok v.gitSettings := by
      simp only [storedGit, h.pushCredential, Except.bind_eq_ok, storedPart_eq_ok,
        Except.pure_eq_ok]
      exact ⟨_, h.git, push, storedReference_eq_ok.mpr ⟨push, rfl, h.push_uri⟩, hgit⟩
    have hoperations : v.operations.mapM (storedOperation checks) = .ok v.operations :=
      Except.mapM_eq_ok.mpr (List.forall₂_same.mpr h.operations)
    have hreferences : (((references.filter fun text => !([push, account].contains text)) ++
        [push, account]).map Json.str).mapM (storedReference checks) =
          .ok ((references.filter fun text => !([push, account].contains text)) ++
            [push, account]) := by
      refine mapM_storedReference.mpr (List.forall₂_same.mpr fun text htext => ?_)
      refine h.references_uri text ?_
      obtain hkeptText | hdesignated := List.mem_append.mp htext
      · exact (List.mem_filter.mp hkeptText).1
      · obtain rfl | rfl := List.mem_pair.mp hdesignated
        · exact h.push_mem
        · exact h.account_mem
    simp only [createRepositoryConfiguration, Except.bind_eq_ok, Except.require_eq_ok,
      Except.pure_eq_ok, storedPart_eq_ok]
    refine ⟨_, h.repository, v.gitSettings, hstoredGit, _, h.xcode, v.operations, hoperations, _,
      h.assertions, _, h.artifacts, _, h.paths, _, hreferences, (), h.kinds, (), h.bound, (), ?_,
      (), ?_, (), ?_, (), ?_, ?_⟩
    · exact h.nodup_resaved
    · simp [h.pushCredential, Json.str?]
    · simp [h.testAccount.e2eTestAccount_eq, Json.str?]
    · simpa [h.pushCredential, h.testAccount.e2eTestAccount_eq, entry, Json.str?] using h.distinct
    · subst hkey
      rfl
  simp only [createVersion, hbodyKey, happroved, hverified, hexpected, hmaterialized, hcreated,
    Option.map_some, Except.require_of, bind, Except.bind]

end Write

/-! ### Chains of versions -/

/-- A chain of saved versions with what was written, ending in the latest one. -/
inductive Saves (checks : Checks) (repositoryKey : String) :
    List RepositoryConfigurationWriteRequest → Option RepositoryConfigurationRecord → Prop
  | start : Saves checks repositoryKey [] none
  | save {bodies : List RepositoryConfigurationWriteRequest}
    {latest : Option RepositoryConfigurationRecord} {body : RepositoryConfigurationWriteRequest}
    {verified : Bool} {created : RepositoryConfigurationRecord}
    (h : Saves checks repositoryKey bodies latest)
    (hsave : createVersion checks repositoryKey verified body latest = .ok created) :
    Saves checks repositoryKey (bodies ++ [body]) (some created)

/-- The last value that was given. -/
def lastGiven (update : SecretReferenceUpdates → Option String)
    (bodies : List RepositoryConfigurationWriteRequest) : Option String :=
  (bodies.filterMap fun body => update body.secretUpdates).getLast?

/-- The additional references without those designated before, and then the designated ones. -/
def expectedReferences (additional before designated : List String) : List String :=
  let kept := additional.filter fun text => !before.contains text
  kept ++ designated.filter fun text => !kept.contains text

def textsOf (values : List Json) : List String := values.filterMap Json.str?

section Chains
variable {checks : Checks} {repositoryKey : String}
  {bodies : List RepositoryConfigurationWriteRequest} {verified : Bool}
  {body : RepositoryConfigurationWriteRequest} {latest : Option RepositoryConfigurationRecord}
  {created : RepositoryConfigurationRecord}

theorem lastGiven_append (update : SecretReferenceUpdates → Option String) :
    lastGiven update (bodies ++ [body]) =
      (update body.secretUpdates).or (lastGiven update bodies) := by
  cases hupdate : update body.secretUpdates with
  | none => simp [lastGiven, List.filterMap_append, hupdate]
  | some text => simp [lastGiven, List.filterMap_append, hupdate]

/-- The secrets of a version are the last ones that were given, in their canonical spelling. -/
def HasLastGiven (checks : Checks) (bodies : List RepositoryConfigurationWriteRequest)
    (push account : String) : Prop :=
  (lastGiven (·.pushCredential) bodies).bind checks.uri = some push ∧
    (lastGiven (·.e2eTestAccount) bodies).bind checks.uri = some account

theorem hasLastGiven_of_written {push account : String} {references : List String}
    (hlatest : ∀ v, latest = some v → ∃ push account references,
      Saved checks v push account references ∧ HasLastGiven checks bodies push account)
    (hwritten : Written checks body latest created push account references) :
    HasLastGiven checks (bodies ++ [body]) push account := by
  obtain ⟨pushText, hpushText, hpush⟩ := hwritten.push
  obtain ⟨accountText, haccountText, haccount⟩ := hwritten.account
  constructor
  · rw [lastGiven_append]
    cases hupdate : body.secretUpdates.pushCredential with
    | some text =>
      rw [hupdate, updated, Json.str.injEq] at hpushText
      subst hpushText
      exact hpush
    | none =>
      rw [hupdate, updated] at hpushText
      cases latest with
      | none => cases hpushText
      | some v =>
        obtain ⟨push', account', references', hsaved, hlast, -⟩ := hlatest v rfl
        rw [hsaved.pushBefore_eq, Json.str.injEq] at hpushText
        rw [← hpushText, hsaved.push_uri] at hpush
        rw [Option.none_or, hlast, hpush]
  · rw [lastGiven_append]
    cases hupdate : body.secretUpdates.e2eTestAccount with
    | some text =>
      rw [hupdate, updated, Json.str.injEq] at haccountText
      subst haccountText
      exact haccount
    | none =>
      rw [hupdate, updated] at haccountText
      cases latest with
      | none => cases haccountText
      | some v =>
        obtain ⟨push', account', references', hsaved, -, hlast⟩ := hlatest v rfl
        rw [hsaved.accountBefore_eq, Json.str.injEq] at haccountText
        rw [← haccountText, hsaved.references_uri _ hsaved.account_mem] at haccount
        rw [Option.none_or, hlast, haccount]

theorem Saves.secrets (h : Saves checks repositoryKey bodies latest) :
    ∀ v, latest = some v → ∃ push account references, Saved checks v push account references ∧
      HasLastGiven checks bodies push account := by
  induction h with
  | start => exact fun v hv => nomatch hv
  | save _ hsave ih =>
    rintro _ ⟨⟩
    obtain ⟨push, account, references, hwritten⟩ := written_of_createVersion hsave
    exact ⟨push, account, references, hwritten.saved, hasLastGiven_of_written ih hwritten⟩

/-- The texts that a saved version has as references and as designated ones. -/
theorem texts_of_saves (h : Saves checks repositoryKey bodies latest) :
    referencesBefore latest = (textsOf (referencesBefore latest)).map Json.str := by
  cases latest with
  | none => rfl
  | some v =>
    obtain ⟨push, account, references, hsaved, -⟩ := h.secrets v rfl
    have hreferences : referencesBefore (some v) = references.map Json.str :=
      hsaved.secretReferences
    rw [hreferences, textsOf, List.filterMap_map]
    congr 1
    symm
    exact List.filterMap_some

theorem references_of_written {push account : String} {references : List String}
    (h : Saves checks repositoryKey bodies latest)
    (hwritten : Written checks body latest created push account references) :
    ∃ pushText accountText,
      updated body.secretUpdates.pushCredential (pushBefore latest) = .str pushText ∧
      updated body.secretUpdates.e2eTestAccount (accountBefore latest) = .str accountText ∧
      List.Forall₂ (fun text reference => checks.uri text = some reference)
        (expectedReferences
          (body.secretUpdates.additional.getD (textsOf (referencesBefore latest)))
          (textsOf [pushBefore latest, accountBefore latest]) [pushText, accountText])
        references := by
  obtain ⟨pushText, hpushText, hpush⟩ := hwritten.push
  obtain ⟨accountText, haccountText, haccount⟩ := hwritten.account
  have hne : pushText ≠ accountText := by
    rintro rfl
    rw [hpush, Option.some.injEq] at haccount
    exact hwritten.saved.distinct haccount
  refine ⟨pushText, accountText, hpushText, haccountText, ?_⟩
  have hadditional : (match body.secretUpdates.additional with
      | some texts => texts.map Json.str
      | none => referencesBefore latest) =
      (body.secretUpdates.additional.getD (textsOf (referencesBefore latest))).map Json.str := by
    cases body.secretUpdates.additional with
    | some texts => rfl
    | none => exact texts_of_saves h
  have hreferences := hwritten.references
  rw [hpushText, haccountText, keptReferences_eq hadditional rfl, withDesignated_strs hne,
    mapM_storedReference] at hreferences
  exact hreferences

/-- After any chain a saved version has the secrets that were given last, in canonical spelling.
Its references are those that were written or taken over, without the ones that were designated
in the version before, followed by the designated ones that are not among them; a reference that
is no longer designated is dropped even where it is listed again. What is read of a version and
written back is saved as it is, with the designated references at the end. -/
theorem versions_keep_secrets (checks : Checks) (repositoryKey : String)
    {bodies : List RepositoryConfigurationWriteRequest} {verified : Bool}
    {body : RepositoryConfigurationWriteRequest} {latest : Option RepositoryConfigurationRecord}
    {created : RepositoryConfigurationRecord} (h : Saves checks repositoryKey bodies latest)
    (hsave : createVersion checks repositoryKey verified body latest = .ok created) :
    ∃ push account references,
      ((lastGiven (·.pushCredential) (bodies ++ [body])).bind checks.uri = some push ∧
        created.gitSettings.pushCredential = some (.str push)) ∧
      ((lastGiven (·.e2eTestAccount) (bodies ++ [body])).bind checks.uri = some account ∧
        Account created.operations (.str account)) ∧
      (created.secretReferences = references.map .str ∧ references.Nodup ∧
        ∃ pushText accountText,
          updated body.secretUpdates.pushCredential (pushBefore latest) = .str pushText ∧
          updated body.secretUpdates.e2eTestAccount (accountBefore latest) = .str accountText ∧
          List.Forall₂ (fun text reference => checks.uri text = some reference)
            (expectedReferences
              (body.secretUpdates.additional.getD (textsOf (referencesBefore latest)))
              (textsOf [pushBefore latest, accountBefore latest]) [pushText, accountText])
            references) ∧
      (resaved created push account references).secretReferences.Perm created.secretReferences ∧
      ∀ body' : RepositoryConfigurationWriteRequest, body'.repositoryKey = repositoryKey →
        body'.approveSensitiveChange = true →
        body'.expectedConfigurationVersion = some created.version →
        body'.toSettings = projection created.toSettings → body'.secretUpdates = {} →
        createVersion checks repositoryKey true body' (some created) =
          (do Except.require (checks.crosses (resaved created push account references) = true)
                (SaveError.value "INVALID_OPERATION")
              return resaved created push account references) := by
  obtain ⟨push, account, references, hwritten⟩ := written_of_createVersion hsave
  have hsaved := hwritten.saved
  obtain ⟨hpush, haccount⟩ := hasLastGiven_of_written h.secrets hwritten
  refine ⟨push, account, references, ⟨hpush, hsaved.pushCredential⟩,
    ⟨haccount, hsaved.testAccount⟩, ⟨hsaved.secretReferences, hsaved.nodup,
      references_of_written h hwritten⟩, hsaved.perm_resaved, ?_⟩
  intro body' hkey happroved hexpected hsettings hupdates
  exact createVersion_projection hsaved (repositoryKey_of_createVersion hsave) hkey happroved rfl
    hexpected hsettings hupdates

end Chains

namespace VersionExample

/-- Checks that accept everything, with references that are canonical as they are. -/
def checks : Checks where
  stored _ value := some value
  stored_stored _ _ _ _ := rfl
  uri text := if "keychain://".toList.isPrefixOf text.toList then some text else none
  uri_uri text text' h := by
    split at h
    case isTrue hprefix =>
      obtain rfl := Option.some.inj h
      exact if_pos hprefix
    case isFalse => cases h
  bound _ := true
  crosses _ := true

def git : String := "keychain://mathews/git"

def account : String := "keychain://mathews/account"

def rotated : String := "keychain://mathews/git-rotated"

def operation (kind : String) (flow : Option Flow) : Operation where
  flow := flow
  others := .obj [("kind", .str kind)]

def settings : Settings where
  repositorySettings := .obj []
  gitSettings := ⟨none, .obj []⟩
  xcodeSettings := .obj []
  operations :=
    [operation "BUILD" none, operation "UNIT_TEST" none, operation "INTEGRATION_TEST" none,
      operation "SIMULATOR_E2E" (some ⟨none, .obj []⟩)]
  e2eAssertions := .arr []
  artifactSettings := .obj []
  prohibitedPaths := .arr []

def write (expected : Option ℕ) (updates : SecretReferenceUpdates) :
    RepositoryConfigurationWriteRequest where
  toSettings := settings
  repositoryKey := "mathews"
  expectedConfigurationVersion := expected
  secretUpdates := updates
  approveSensitiveChange := true

def first : RepositoryConfigurationWriteRequest :=
  write none { pushCredential := some git, e2eTestAccount := some account }

/-- The credential is rotated, and the old one listed as an additional reference. -/
def second : RepositoryConfigurationWriteRequest :=
  write (some 1) { pushCredential := some rotated, additional := some [git] }

/-- The references after the two writes. -/
def outcome : Option (List String) := do
  let v ← (createVersion checks "mathews" true first none).toOption
  let v' ← (createVersion checks "mathews" true second (some v)).toOption
  return textsOf v'.secretReferences

theorem outcome_eq : outcome = some [rotated, account] := by decide +kernel

theorem exists_outcome : ∃ v created, createVersion checks "mathews" true first none = .ok v ∧
    createVersion checks "mathews" true second (some v) = .ok created ∧
      textsOf created.secretReferences = [rotated, account] := by
  have h := outcome_eq
  simp only [outcome, Option.bind_eq_bind, Option.bind_eq_some_iff, Option.pure_def,
    Option.some.injEq] at h
  obtain ⟨v, hv, created, hcreated, htexts⟩ := h
  have hok {x : Except SaveError RepositoryConfigurationRecord} {value}
      (hx : x.toOption = some value) : x = .ok value := by
    cases x with
    | error _ => cases hx
    | ok _ => rw [Option.some.inj hx]
  exact ⟨v, created, hok hv, hok hcreated, htexts⟩

end VersionExample

open VersionExample in
/-- The references of the second of two versions. -/
theorem versions_keep_secrets_rotated :
    ∃ v created push account, ∃ references : List String,
    createVersion checks "mathews" true first none = .ok v ∧
      createVersion checks "mathews" true second (some v) = .ok created ∧
      (lastGiven (·.pushCredential) [first, second]).bind checks.uri = some push ∧
      (lastGiven (·.e2eTestAccount) [first, second]).bind checks.uri = some account ∧
      created.secretReferences = references.map .str := by
  obtain ⟨v, created, hfirst, hsecond, -⟩ := exists_outcome
  obtain ⟨push, account, references, hpush, haccount, hreferences, -⟩ :=
    versions_keep_secrets checks "mathews" (.save .start hfirst) hsecond
  exact ⟨v, created, push, account, references, hfirst, hsecond, hpush.1, haccount.1,
    hreferences.1⟩

open VersionExample in
/-- A reference that was designated and is listed again is dropped. -/
theorem relisted_reference_dropped : ∃ v created, Saves checks "mathews" [first] (some v) ∧
    createVersion checks "mathews" true second (some v) = .ok created ∧
      git ∈ second.secretUpdates.additional.getD [] ∧
      Json.str git ∉ created.secretReferences := by
  obtain ⟨v, created, hfirst, hsecond, htexts⟩ := exists_outcome
  refine ⟨v, created, .save .start hfirst, hsecond, by decide, fun hmem => ?_⟩
  have htext : git ∈ textsOf created.secretReferences := List.mem_filterMap.mpr ⟨_, hmem, rfl⟩
  rw [htexts] at htext
  revert htext
  decide

end ControlPlane.Repositories
