import ControlPlane.Task.StateMachine

/-!
# Commands of the background-job service

What every operation checks of its arguments before a transaction begins: identifiers,
error codes, payloads and lease durations; and the values it derives from them.
-/
namespace ControlPlane

open Regex Regex.Re

/-- Safe durable-job failures. `integrity` is the store's refusal of a row. -/
inductive BackgroundJobError where
  | invalid (message : String)
  | notFound (message : String)
  | conflict (message : String)
  | leaseLost (message : String)
  | ambiguousEffect (message : String)
  | integrity (message : String)
  | evidence (error : EvidenceError)
  | transition (error : TaskTransitionError)
  deriving DecidableEq, Repr

/-! ### Arguments -/

def maxJobIdentifierLength : ℕ := 100
def maxIdempotencyKeyLength : ℕ := 255
def maxRecoveryBatchSize : ℕ := 1000
def maxRetrySeconds : ℕ := 86400

/-- A text without white space around it. -/
def stripped (rt : Runtime) (value : String) : String :=
  String.ofList (rt.unicode.strip value.toList)

def jobIdentifier : Pattern := seq (cls alnum) (star (cls (.union alnum (oneOf "._:/-"))))

def requiredIdentifier (rt : Runtime) (value field : String) (maximum : ℕ) :
    Except BackgroundJobError String :=
  let normalized := rt.unicode.strip value.toList
  if normalized ≠ [] ∧ normalized.length ≤ maximum ∧
      jobIdentifier.fullmatch (CharClass.holds rt.unicode) normalized ∧
      occursIn "://".toList normalized = false ∧ occursIn "//".toList normalized = false ∧
      occursIn "..".toList normalized = false ∧ "/".toList.isPrefixOf normalized = false then
    .ok (stripped rt value)
  else .error (.invalid s!"background job {field} is invalid")

def requiredErrorCode (rt : Runtime) (value : String) : Except BackgroundJobError String :=
  let normalized := rt.unicode.upper (rt.unicode.strip value.toList)
  if reasonCode.fullmatch (CharClass.holds rt.unicode) normalized then
    .ok (String.ofList normalized)
  else .error (.invalid "background job error code is invalid")

/-- The number of bytes of the canonical encoding, which is ASCII. -/
def encodedLength (rt : Runtime) (value : Json) : ℕ := (value.encode rt.floatRepr).length

/-- A payload that the redaction policy leaves alone, within the size limit. -/
def safePayload (rt : Runtime) (value : Json) (field : String) :
    Except BackgroundJobError Json := do
  let prepared ← Except.relabel (redactEvidenceContent rt value .json) .evidence
  Except.require (prepared.manifest = [])
    (.invalid s!"background job {field} contains sensitive values")
  Except.require (prepared.value.obj?.isSome) (.invalid s!"background job {field} is invalid")
  Except.require (encodedLength rt prepared.value ≤ 1024 * 1024)
    (.invalid s!"background job {field} exceeds the size limit")
  return prepared.value

/-- A lease lasts between one second and five minutes. -/
def leaseDuration (value : Time) : Except BackgroundJobError Time :=
  if seconds 1 ≤ value ∧ value ≤ seconds 300 then .ok value
  else .error (.invalid "background job lease duration must be between 1 and 300 seconds")

/-! ### Evidence of results -/

def jsonTypeName : Json → String
  | .null => "NoneType"
  | .bool _ => "bool"
  | .int _ => "int"
  | .float _ => "float"
  | .str _ => "str"
  | .arr _ => "list"
  | .obj _ => "dict"

/-- A field of an evidence payload cut to its bound. -/
def boundedField : Json → Json
  | .str s => .str (String.ofList (s.toList.take 2048))
  | .arr items => .obj [("truncated", .bool true), ("value_type", .str (jsonTypeName (.arr items)))]
  | .obj fields =>
    .obj [("truncated", .bool true), ("value_type", .str (jsonTypeName (.obj fields)))]
  | scalar => scalar

/-- Keep operational evidence below the envelope limit without losing identity. -/
def boundedEvidencePayload (rt : Runtime) (value : Json) : Json :=
  if encodedLength rt value ≤ 256 * 1024 then value
  else
    let fields := value.obj?.getD []
    let kept := ((fields.insertionSort fun a b => a.1 ≤ b.1).take 64).map fun f =>
      (f.1, boundedField f.2)
    .obj <| (kept.filter fun f => f.1 ≠ "_truncation") ++
      [("_truncation", .obj
        [("byte_count", .int (encodedLength rt value)), ("field_count", .int fields.length),
          ("truncated", .bool true)])]

/-! ### Retries -/

/-- Immutable retry budget captured when a job is scheduled. -/
structure RetryPolicy where
  maxAttempts : ℕ := 5
  baseDelaySeconds : ℕ := 1
  maxDelaySeconds : ℕ := 300
  maxAttempts_bounds : 1 ≤ maxAttempts ∧ maxAttempts ≤ 100 := by decide
  baseDelaySeconds_bounds : 1 ≤ baseDelaySeconds ∧ baseDelaySeconds ≤ maxRetrySeconds := by decide
  maxDelaySeconds_bounds : baseDelaySeconds ≤ maxDelaySeconds ∧ maxDelaySeconds ≤ maxRetrySeconds
    := by decide

/-- The policy of a job scheduled without one. -/
def RetryPolicy.standard : RetryPolicy := {}

/-- The policy with the given bounds. -/
def RetryPolicy.of (maxAttempts baseDelaySeconds maxDelaySeconds : ℕ) :
    Except BackgroundJobError RetryPolicy :=
  if h₁ : 1 ≤ maxAttempts ∧ maxAttempts ≤ 100 then
    if h₂ : 1 ≤ baseDelaySeconds ∧ baseDelaySeconds ≤ maxRetrySeconds then
      if h₃ : baseDelaySeconds ≤ maxDelaySeconds ∧ maxDelaySeconds ≤ maxRetrySeconds then
        .ok ⟨maxAttempts, baseDelaySeconds, maxDelaySeconds, h₁, h₂, h₃⟩
      else .error (.invalid "background job maximum retry delay is invalid")
    else .error (.invalid "background job base retry delay is invalid")
  else .error (.invalid "background job max attempts must be between 1 and 100")

/-- The policy a job was scheduled with. -/
def BackgroundJob.retryPolicy (job : BackgroundJob) : Except BackgroundJobError RetryPolicy :=
  RetryPolicy.of job.maxAttempts job.retryBaseSeconds job.retryMaxSeconds

def hexValue (digits : List Char) : ℕ :=
  digits.foldl (fun n c => n * 16 + UUID.hexAlphabet.idxOf c) 0

/-- Persisted full jitter bounded by the scheduled retry policy. -/
def deterministicRetryDelay (rt : Runtime) (jobId : UUID) (failedAttempt : ℕ)
    (policy : RetryPolicy) : Except BackgroundJobError Time := do
  Except.require (1 ≤ failedAttempt) (.invalid "background job attempt is invalid")
  let exponent := min (failedAttempt - 1) 63
  let capSeconds := min policy.maxDelaySeconds (policy.baseDelaySeconds * 2 ^ exponent)
  let digest := rt.sha256 <|
    s!"{jobId.str}:{failedAttempt}:{policy.maxAttempts}:" ++
    s!"{policy.baseDelaySeconds}:{policy.maxDelaySeconds}"
  -- The first eight bytes of the digest, as a big-endian number.
  return hexValue (digest.toList.take 16) % (capSeconds * 1000 + 1) * 1000

/-! ### Fingerprints -/

def optionalTimestamp : Option Time → Json
  | none => .null
  | some t => .str (Calendar.timestamp t)

def RetryPolicy.toJson (p : RetryPolicy) : Json :=
  .obj
    [("max_attempts", .int p.maxAttempts), ("base_delay_seconds", .int p.baseDelaySeconds),
      ("max_delay_seconds", .int p.maxDelaySeconds)]

def scheduleFingerprint (rt : Runtime) (taskId : UUID) (jobType : String) (payload : Json)
    (policy : RetryPolicy) (requestedAvailableAt : Option Time) : String :=
  rt.fingerprint <| .obj
    [("task_id", .str taskId.str), ("job_type", .str jobType), ("payload", payload),
      ("retry_policy", policy.toJson), ("available_at", optionalTimestamp requestedAvailableAt)]

def leaseFingerprint (rt : Runtime) (job : BackgroundJob) (leaseId : UUID) (workerId : String)
    (attempt token : ℕ) : String :=
  rt.fingerprint <| .obj
    [("job_id", .str job.id.str), ("lease_id", .str leaseId.str), ("worker_id", .str workerId),
      ("attempt", .int attempt), ("fencing_token", .int token),
      ("input_fingerprint", .str job.inputFingerprint)]

def effectFingerprint (rt : Runtime) (effectType effectKey : String) (payload : Json) : String :=
  rt.fingerprint <| .obj
    [("effect_type", .str effectType), ("effect_key", .str effectKey),
      ("request_payload", payload)]

/-- The key under which the provider of a side effect sees it. -/
def providerKey (jobId : UUID) (effectKey : String) : String := jobId.str ++ ":" ++ effectKey

/-- The provider's key names the job and the effect. -/
theorem providerKey_inj {j j' : UUID} {k k' : String} :
    providerKey j k = providerKey j' k' ↔ j = j' ∧ k = k' := by
  constructor
  · intro h
    have hlist : j.chars ++ ':' :: k.toList = j'.chars ++ ':' :: k'.toList := by
      have := congrArg String.toList h
      simpa [providerKey] using this
    have hparts := List.append_inj hlist (by simp)
    refine ⟨UUID.chars_injective hparts.1, ?_⟩
    exact String.toList_inj.mp (List.cons.inj hparts.2).2
  · rintro ⟨rfl, rfl⟩
    rfl

end ControlPlane
