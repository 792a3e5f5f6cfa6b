import ControlPlane.Lib.Runtime
import ControlPlane.Lib.Transaction

/-!
# The host protocol

A request to the host names the authority it acts under and the operation it asks for. Two
digests identify it: one of the whole message, and one of what the message means, which
leaves out everything a renewal or a takeover of the lease changes.

## Main definitions

* `HostRequestMessage`, `HostRequestMessage.digest`, `HostRequestMessage.semanticFingerprint`
* `normalizeHostJsonObject`: the bounds of the objects the protocol carries.
-/
namespace ControlPlane.HostAgent

/-- A counter or a time the protocol accepts. -/
abbrev PositiveInt := {n : ℤ // 0 < n ∧ n < 2 ^ 63}

/-! ### Authorities -/

structure RepositoryHostAuthority where
  repositoryKey : String
  configurationId : UUID
  configurationDigest : String
  deriving DecidableEq

structure TaskLeaseHostAuthority where
  taskId : UUID
  jobId : UUID
  leaseId : UUID
  workerId : String
  attempt : PositiveInt
  fencingToken : PositiveInt
  leaseExpiresAtMs : PositiveInt
  repositoryKey : String
  configurationId : UUID
  configurationDigest : String
  deriving DecidableEq

inductive HostAuthority where
  | system
  | repository (authority : RepositoryHostAuthority)
  | taskLease (authority : TaskLeaseHostAuthority)
  deriving DecidableEq

inductive HostAuthorityKind where
  | system
  | repository
  | taskLease
  deriving DecidableEq

namespace HostAuthority

def kind : HostAuthority → HostAuthorityKind
  | system => .system
  | repository _ => .repository
  | taskLease _ => .taskLease

/-- The lease an authority holds, if it is one of a task. -/
def lease? : HostAuthority → Option TaskLeaseHostAuthority
  | taskLease authority => some authority
  | _ => none

def toDict : HostAuthority → List (String × Json)
  | system => [("kind", .str "SYSTEM")]
  | repository a =>
    [("kind", .str "REPOSITORY"), ("repository_key", .str a.repositoryKey),
      ("configuration_id", .str a.configurationId.str),
      ("configuration_digest", .str a.configurationDigest)]
  | taskLease a =>
    [("kind", .str "TASK_LEASE"), ("task_id", .str a.taskId.str), ("job_id", .str a.jobId.str),
      ("lease_id", .str a.leaseId.str), ("worker_id", .str a.workerId),
      ("attempt", .int a.attempt), ("fencing_token", .int a.fencingToken),
      ("lease_expires_at_ms", .int a.leaseExpiresAtMs), ("repository_key", .str a.repositoryKey),
      ("configuration_id", .str a.configurationId.str),
      ("configuration_digest", .str a.configurationDigest)]

/-- What an authority means, whoever holds the lease and until when. -/
def semantic : HostAuthority → Json
  | taskLease a => (Json.obj (taskLease a).toDict).without
      ["lease_id", "worker_id", "attempt", "fencing_token", "lease_expires_at_ms"]
  | other => .obj other.toDict

end HostAuthority

/-! ### Requests -/

structure HostOperation where
  name : String
  idempotencyKey : String
  arguments : List (String × Json)

def HostOperation.toDict (o : HostOperation) : Json :=
  .obj [("name", .str o.name), ("schema_version", .int 1),
    ("idempotency_key", .str o.idempotencyKey), ("arguments", .obj o.arguments)]

structure HostRequestMessage where
  requestId : UUID
  issuedAtMs : PositiveInt
  expiresAtMs : PositiveInt
  authority : HostAuthority
  operation : HostOperation

namespace HostRequestMessage

def toDict (r : HostRequestMessage) : Json :=
  .obj [("protocol_version", .int 1), ("request_id", .str r.requestId.str),
    ("issuer", .str "control-plane"), ("audience", .str "local-macos-host"),
    ("issued_at_ms", .int r.issuedAtMs), ("expires_at_ms", .int r.expiresAtMs),
    ("authority", .obj r.authority.toDict), ("operation", r.operation.toDict)]

/-- The digest of a whole message. -/
def digest (rt : Runtime) (r : HostRequestMessage) : String :=
  "sha256:" ++ rt.fingerprint r.toDict

/-- The digest of what a message means. -/
def semanticFingerprint (rt : Runtime) (r : HostRequestMessage) : String :=
  "sha256:" ++ rt.fingerprint
    (.obj [("authority", r.authority.semantic), ("operation", r.operation.toDict)])

/-- The scope in which the idempotency keys of a request are unique. -/
def scopeKey (r : HostRequestMessage) : String :=
  match r.authority with
  | .system => "system"
  | .repository a =>
    "repository:" ++ a.repositoryKey ++ ":" ++ a.configurationId.str ++ ":" ++
      a.configurationDigest
  | .taskLease a => "job:" ++ a.jobId.str

/-- A request of a task acts under a lease. -/
def taskScoped (r : HostRequestMessage) : Bool := r.authority.lease?.isSome

end HostRequestMessage

/-! ### Objects and codes -/

def maxJsonDepth : ℕ := 16
def maxJsonNodes : ℕ := 4096
def maxCollectionItems : ℕ := 512
def maxStringLength : ℕ := 64 * 1024

mutual

/-- The nodes counted once a value has been copied; `none` when it is out of bounds. Floats
are no values of the protocol. -/
def jsonValue (depth nodes : ℕ) (value : Json) : Option ℕ :=
  if maxJsonDepth < depth ∨ maxJsonNodes < nodes + 1 then none
  else match value with
    | .null | .bool _ => some (nodes + 1)
    | .int n => if -(2 ^ 63) ≤ n ∧ n < 2 ^ 63 then some (nodes + 1) else none
    | .float _ => none
    | .str s =>
      if maxStringLength < s.length ∨ s.toList.contains (Char.ofNat 0) then none
      else some (nodes + 1)
    | .obj fields =>
      if maxCollectionItems < fields.length then none else jsonFields (depth + 1) (nodes + 1) fields
    | .arr items =>
      if maxCollectionItems < items.length then none else jsonItems (depth + 1) (nodes + 1) items

def jsonItems (depth nodes : ℕ) : List Json → Option ℕ
  | [] => some nodes
  | item :: items =>
    match jsonValue depth nodes item with
    | some nodes => jsonItems depth nodes items
    | none => none

def jsonFields (depth nodes : ℕ) : List (String × Json) → Option ℕ
  | [] => some nodes
  | (key, item) :: fields =>
    if key = "" ∨ 255 < key.length then none
    else match jsonValue depth nodes item with
      | some nodes => jsonFields depth nodes fields
      | none => none

end

/-- A bounded object; the copy that is made of it is equal to it. -/
def normalizeHostJsonObject (fields : List (String × Json)) : Option (List (String × Json)) :=
  (jsonValue 0 0 (.obj fields)).map fun _ => fields

/-- A capital letter and up to ninety-nine capital letters, digits and underscores. -/
def isResponseCode (code : String) : Bool :=
  match code.toList with
  | [] => false
  | c :: cs => c.isUpper && cs.length ≤ 99 && cs.all fun d => d.isUpper || d.isDigit || d == '_'

theorem eq_of_normalizeHostJsonObject {fields copied : List (String × Json)}
    (h : normalizeHostJsonObject fields = some copied) : copied = fields := by
  obtain ⟨nodes, -, hcopied⟩ := Option.map_eq_some_iff.mp h
  exact hcopied.symm

end ControlPlane.HostAgent
