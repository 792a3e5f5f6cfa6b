import ControlPlane.GitHub.Transparency
import ControlPlane.Lib.Dialogue
import Mathlib.Data.Rat.Floor

/-!
# Installation credentials

The broker of a GitHub App: it verifies what the App is installed on with an audit token,
mints tokens for one purpose at a time, and revokes a token when its response is refused.
The transport is any sequence of responses and errors, the clock any sequence of readings.
-/
namespace ControlPlane.GitHubApp

open Calendar (Instant)

/-! ### Errors -/

/-- The classes of the client's own errors. -/
inductive GitHubErrorClass where
  | app
  | unavailable
  | rateLimit (retryAfterSeconds : ℕ)
  | authorization (statusCode : Option ℕ)
  | protocol
  | permission
  | credentialCleanup
  | webhookVerification
  deriving DecidableEq, Repr

structure GitHubAppError where
  cls : GitHubErrorClass
  message : String
  deriving DecidableEq, Repr

/-- What a call can raise: an error of the client, or one of the interpreter. -/
inductive Raised where
  | github (e : GitHubAppError)
  | overflow
  | recursion
  | assertion (message : String)
  deriving DecidableEq, Repr

def protocolError (message : String) : Raised := .github ⟨.protocol, message⟩
def permissionError (message : String) : Raised := .github ⟨.permission, message⟩
def cleanupError : Raised :=
  .github ⟨.credentialCleanup, "github credential cleanup remains uncertain"⟩

/-! ### Requests and responses -/

inductive HttpMethod where
  | get
  | post
  | delete
  deriving DecidableEq, Repr

structure GitHubHttpRequest where
  method : HttpMethod
  path : String
  headers : List (String × String)
  body : Option Json

/-- The body of a response, by what the decoder makes of it. Objects are as they are
written, repeated keys included. -/
inductive ResponseBody where
  | empty
  /-- Bytes that are no JSON text. -/
  | malformed
  /-- A JSON text nested deeper than the decoder can follow. -/
  | nested (value : Json)
  | text (value : Json)

structure GitHubHttpResponse where
  statusCode : ℕ
  contentType : Option String
  body : ResponseBody
  retryAfter : Option String := none
  rateLimitRemaining : Option String := none
  rateLimitReset : Option String := none

inductive ClockReading where
  /-- A datetime without an offset. -/
  | naive
  | aware (t : Instant)

/-- What the transport does with a request; the clock is read on every response. -/
inductive Outcome where
  | raised (e : GitHubAppError)
  | response (r : GitHubHttpResponse) (now : ClockReading)

structure Exchange where
  request : GitHubHttpRequest
  outcome : Outcome

/-! ### Integers and floats of headers -/

/-- An integer rounded to the nearest one, ties to the even one. -/
def roundHalfEven (q : ℚ) : ℤ :=
  let below := q.floor
  let rest := q - below
  if rest < 1 / 2 then below
  else if 1 / 2 < rest then below + 1
  else if below % 2 = 0 then below else below + 1

/-- The nearest double of a number of moderate size: 53 significant bits. -/
def nearestDouble (q : ℚ) : ℚ :=
  let guess : ℤ := (q.num.natAbs.log2 : ℤ) - q.den.log2
  let exponent : ℤ := if |q| < (2 : ℚ) ^ guess then guess - 53 else guess - 52
  roundHalfEven (q / (2 : ℚ) ^ exponent) * (2 : ℚ) ^ exponent

/-- An integer that rounds to a power of two no double reaches. -/
def tooLargeForDouble (n : ℤ) : Bool := 2 ^ 1024 - 2 ^ 970 ≤ n.natAbs

/-- An integer as a double; a too large one raises. -/
def doubleOfInt (n : ℤ) : Except Raised ℚ :=
  if tooLargeForDouble n then .error .overflow else .ok (nearestDouble n)

def unixEpoch : ℤ := 719162 * 86400000000

/-- The seconds since the epoch, as a double. -/
def unixTimestamp (t : ℤ) : ℚ := nearestDouble (((t - unixEpoch : ℤ) : ℚ) / 1000000)

/-- The longest text of digits the interpreter reads as an integer. -/
def maxIntegerDigits : ℕ := 4300

/-- Digits in groups, with single underscores between them. -/
def digitGroups (cs : List Char) : Bool :=
  (cs.splitOn '_').all fun group => group ≠ [] && group.all Unicode.asciiDigit

def decimalValue (cs : List Char) : ℕ := cs.foldl (fun n c => n * 10 + (c.toNat - 48)) 0

/-- The integer an ASCII text stands for: white space around, a sign, and digits. -/
def integerOfText (u : Unicode) (text : String) : Option ℤ :=
  let cs := u.strip text.toList
  let negative := cs.head? = some '-'
  let digits := if negative ∨ cs.head? = some '+' then cs.tail else cs
  if digitGroups digits && (digits.filter (· ≠ '_')).length ≤ maxIntegerDigits then
    let value : ℤ := decimalValue (digits.filter (· ≠ '_'))
    some (if negative then -value else value)
  else none

def isAsciiText (text : String) : Bool := text.toList.all Unicode.isAscii

/-! ### Reading responses -/

/-- A delay between one second and one day. -/
def boundedDelay (seconds : ℤ) : ℕ := (min (max seconds 1) 86400).toNat

/-- The seconds to wait after a throttled response, if it is one. -/
def rateLimitRetryAfter (u : Unicode) (r : GitHubHttpResponse) (now : Instant) :
    Except Raised (Option ℕ) :=
  if r.statusCode ≠ 403 ∧ r.statusCode ≠ 429 then .ok none
  else
    match r.retryAfter.filter isAsciiText with
    | some retryAfter => .ok (some (boundedDelay ((integerOfText u retryAfter).getD 60)))
    | none =>
      match r.rateLimitReset.filter isAsciiText with
      | some resetText =>
        if r.rateLimitRemaining = some "0" then
          match integerOfText u resetText with
          | none => .ok (some 60)
          | some reset => do
            let reset ← doubleOfInt reset
            let delay := (nearestDouble (reset - unixTimestamp now.val)).ceil
            .ok (some (boundedDelay delay))
        else .ok (some 60)
      | none => .ok (some 60)

def awareUtc : ClockReading → Except Raised Instant
  | .naive => .error (protocolError "clock must return a timezone-aware timestamp")
  | .aware t => .ok t

/-- What `_request` makes of a response. -/
def readOutcome (u : Unicode) (successStatus : ℕ) : Outcome → Except Raised GitHubHttpResponse
  | .raised e => .error (.github e)
  | .response r now => do
    let now ← awareUtc now
    match ← rateLimitRetryAfter u r now with
    | some seconds =>
      .error (.github ⟨.rateLimit seconds, "github rate limit requires a delayed retry"⟩)
    | none =>
      if r.statusCode = 401 ∨ r.statusCode = 404 then
        .error (.github ⟨.authorization (some r.statusCode),
          "github app request was not authorized"⟩)
      else if r.statusCode ≥ 500 then .error (.github ⟨.unavailable, "github app request failed"⟩)
      else if r.statusCode ≠ successStatus then
        .error (protocolError "github app returned an unexpected status")
      else .ok r

mutual

/-- No object of a value, at any depth, has a key twice. -/
def uniqueKeys : Json → Bool
  | .arr items => uniqueKeysItems items
  | .obj fields => decide (fields.map Prod.fst).Nodup && uniqueKeysFields fields
  | _ => true

def uniqueKeysItems : List Json → Bool
  | [] => true
  | x :: xs => uniqueKeys x && uniqueKeysItems xs

def uniqueKeysFields : List (String × Json) → Bool
  | [] => true
  | (_, v) :: fs => uniqueKeys v && uniqueKeysFields fs

end

def decodeJson : ResponseBody → Except Raised Json
  | .nested _ => .error .recursion
  | .text value =>
    if uniqueKeys value then .ok value
    else .error (protocolError "github response contained invalid JSON")
  | _ => .error (protocolError "github response contained invalid JSON")

def decodeJsonObject (body : ResponseBody) : Except Raised (List (String × Json)) := do
  let value ← decodeJson body
  Except.orThrow value.obj? (protocolError "github response must be a JSON object")

def decodeJsonArray (body : ResponseBody) : Except Raised (List Json) := do
  let value ← decodeJson body
  Except.orThrow value.arr? (protocolError "github response must be a JSON array")

/-- The response has to be JSON before its body is decoded. -/
def readJsonAs {α : Type} (decode : ResponseBody → Except Raised α) (r : GitHubHttpResponse) :
    Except Raised α := do
  Except.require (r.contentType = some "application/json")
    (protocolError "github app returned a non-JSON response")
  decode r.body

/-! ### Fields of responses -/

def requiredInteger (j : Json) (key : String) : Except Raised ℤ :=
  match j.get key with
  | .int n =>
    if n ≤ 0 then .error (protocolError "github response contains an invalid integer") else .ok n
  | _ => .error (protocolError "github response contains an invalid integer")

def fieldError (field : String) : Raised :=
  protocolError ("github " ++ field ++ " response is invalid")

def stringMappingItem (field : String) : String × Json → Except Raised (String × String)
  | (key, .str item) =>
    if key = "" ∨ (item ≠ "read" ∧ item ≠ "write") then .error (fieldError field)
    else .ok (key, item)
  | _ => .error (fieldError field)

def stringMapping (value : Json) (field : String) : Except Raised (List (String × String)) :=
  match value with
  | .obj fields => fields.mapM (stringMappingItem field)
  | _ => .error (fieldError field)

def stringTuple (value : Json) (field : String) : Except Raised (List String) :=
  match value with
  | .arr items => Except.orThrow (items.mapM Json.str?) (fieldError field)
  | _ => .error (fieldError field)

/-- A text with every `Z` written as the offset of UTC. -/
def withUtcOffset (text : String) : String :=
  String.ofList (text.toList.flatMap fun c =>
    if c = 'Z' then ['+', '0', '0', ':', '0', '0'] else [c])

/-- The instant of an ISO 8601 text. -/
def timestampField (rt : Runtime) (value : Json) (field : String) : Except Raised Instant :=
  match value with
  | .str text =>
    match rt.fromIsoformat (withUtcOffset text) with
    | .malformed | .naive => .error (fieldError field)
    | .outOfRange => .error .overflow
    | .aware t => .ok t
  | _ => .error (fieldError field)

/-- What a token looks like: up to 8192 characters, no white space and no zero byte. -/
def isToken (u : Unicode) (text : String) : Bool :=
  1 ≤ text.toList.length && text.toList.length ≤ 8192 &&
    text.toList.all fun c => !u.isSpace c && c != Char.ofNat 0

def tokenOf (u : Unicode) (response : Json) (message : String) : Except Raised String :=
  match response.get "token" with
  | .str text => if isToken u text then .ok text else .error (protocolError message)
  | _ => .error (protocolError message)

def tokenMinimumLifetime : ℤ := 30 * 1000000
def tokenMaximumLifetime : ℤ := 65 * 60 * 1000000

/-- An expiry that a fresh token may have. -/
def LifetimeOk (expiresAt now : Instant) : Prop :=
  tokenMinimumLifetime < (expiresAt.val : ℤ) - now.val ∧
    (expiresAt.val : ℤ) - now.val ≤ tokenMaximumLifetime

instance (expiresAt now : Instant) : Decidable (LifetimeOk expiresAt now) :=
  inferInstanceAs (Decidable (_ ∧ _))

/-! ### Policy -/

/-- The credentials that may be minted. -/
inductive GitHubCredentialPurpose where
  | observe
  | pullRequestWrite
  deriving DecidableEq, Repr

def githubAppPermissions : List (String × String) :=
  [("checks", "read"), ("metadata", "read"), ("pull_requests", "write")]

def githubTokenPermissions : GitHubCredentialPurpose → List (String × String)
  | .observe => [("checks", "read"), ("pull_requests", "read")]
  | .pullRequestWrite => [("pull_requests", "write")]

/-- The permissions a token for a purpose may have; metadata is granted implicitly. -/
def AcceptedPermissions (purpose : GitHubCredentialPurpose) (actual : List (String × String)) :
    Prop :=
  actual.Perm (githubTokenPermissions purpose) ∨
    actual.Perm (githubTokenPermissions purpose ++ [("metadata", "read")])

instance (purpose : GitHubCredentialPurpose) (actual : List (String × String)) :
    Decidable (AcceptedPermissions purpose actual) :=
  inferInstanceAs (Decidable (_ ∨ _))

def permissionsJson (permissions : List (String × String)) : Json :=
  .obj (permissions.map fun p => (p.1, .str p.2))

def sortedItems (items : List (String × String)) : List (String × String) :=
  items.insertionSort fun a b => a.1 ≤ b.1

/-! ### The broker -/

structure JwtClaims where
  issuedAt : ℤ
  expiresAt : ℤ
  issuer : String

/-- A broker with the environment it runs in. -/
structure GitHubAppCredentialBroker where
  runtime : Runtime
  configuration : GitHubAppConfiguration
  appId : ℤ
  /-- What the secret provider gives, unless it raises. -/
  privateKey : Option String
  /-- What the signer gives, unless it raises. -/
  signer : JwtClaims → String → Option String
  /-- What happens to the requests, in the order they are sent. -/
  outcomes : ℕ → Outcome
  /-- The clock between requests, once some of them were sent. -/
  clock : ℕ → ClockReading

structure GitHubInstallationAttestation where
  appId : ℤ
  installationId : ℤ
  repositoryId : ℤ
  repositoryKey : String
  repositorySelection : String
  permissions : List (String × String)
  events : List String

structure GitHubInstallationCredential where
  token : String
  purpose : GitHubCredentialPurpose
  repositoryId : ℤ
  repositoryKey : String
  expiresAt : Instant
  permissions : List (String × String)

/-- A dialogue of the broker with GitHub. -/
abbrev Call (α : Type) := Dialogue Exchange Raised α

/-- The integer part of a number. -/
def truncated (q : ℚ) : ℤ := q.num.tdiv q.den

/-- The claims of the App's own token; leaving the calendar raises. -/
def jwtClaims (appId : ℤ) (now : Instant) : Except Raised JwtClaims := do
  let issued : ℤ := now.val - 60 * 1000000
  let expires : ℤ := now.val + 9 * 60 * 1000000
  Except.require (0 ≤ issued ∧ expires < Calendar.endOfTime) Raised.overflow
  .ok ⟨truncated (unixTimestamp issued), truncated (unixTimestamp expires), toString appId⟩

def requestHeaders (authorization : String) (body : Option Json) : List (String × String) :=
  [("Accept", "application/vnd.github+json"), ("Authorization", authorization),
    ("User-Agent", "mathews-control-plane"), ("X-GitHub-Api-Version", "2026-03-10")] ++
  (if body.isSome then [("Content-Type", "application/json")] else [])

def githubRequest (method : HttpMethod) (path authorization : String) (body : Option Json) :
    GitHubHttpRequest :=
  ⟨method, path, requestHeaders authorization body, body⟩

namespace GitHubAppCredentialBroker
variable (b : GitHubAppCredentialBroker)

def appJwt : Call String := .decideOn fun log => do
  let now ← awareUtc (b.clock log.length)
  let claims ← jwtClaims b.appId now
  let encoded ← Except.orThrow (b.privateKey.bind (b.signer claims))
    (.github ⟨.authorization none, "github app private key is unavailable or invalid"⟩)
  Except.require (isToken b.runtime.unicode encoded)
    (.github ⟨.authorization none, "github app signer returned an invalid JWT"⟩)
  .ok encoded

/-- The exchange a request leads to after others. -/
def exchange (request : GitHubHttpRequest) (log : List Exchange) : Exchange :=
  ⟨request, b.outcomes log.length⟩

def request (request : GitHubHttpRequest) (successStatus : ℕ) : Call GitHubHttpResponse :=
  .ask (b.exchange request) fun x => readOutcome b.runtime.unicode successStatus x.outcome

def requestJson {α : Type} (decode : ResponseBody → Except Raised α)
    (request : GitHubHttpRequest) (successStatus : ℕ) : Call α := do
  let response ← b.request request successStatus
  .lift (readJsonAs decode response)

/-! ### Requests of the broker -/

def installationsRequest (jwt : String) : GitHubHttpRequest :=
  githubRequest .get "/app/installations" ("Bearer " ++ jwt) none

def accessTokensPath : String :=
  "/app/installations/" ++ toString b.configuration.installationId ++ "/access_tokens"

def auditBody : Json := .obj [("permissions", permissionsJson [("metadata", "read")])]

def auditRequest (jwt : String) : GitHubHttpRequest :=
  githubRequest .post b.accessTokensPath ("Bearer " ++ jwt) (some auditBody)

def mintBody (purpose : GitHubCredentialPurpose) : Json :=
  .obj [("permissions", permissionsJson (githubTokenPermissions purpose)),
    ("repository_ids", .arr [.int b.configuration.repositoryId])]

def mintRequest (purpose : GitHubCredentialPurpose) (jwt : String) : GitHubHttpRequest :=
  githubRequest .post b.accessTokensPath ("Bearer " ++ jwt) (some (b.mintBody purpose))

def revocationRequest (token : String) : GitHubHttpRequest :=
  githubRequest .delete "/installation/token" ("Bearer " ++ token) none

/-! ### Revocation -/

/-- What the loop does about an error of an attempt. -/
inductive Verdict where
  | revoked
  | retry (delay : ℕ)
  | uncertain
  | escapes
  deriving DecidableEq, Repr

/-- The handlers of the loop; an error that has none leaves it. -/
def onFailure (attempt : ℕ) : Raised → Verdict
  | .github ⟨.authorization statusCode, _⟩ =>
    if statusCode = some 401 then .revoked
    else if attempt = 2 then .uncertain
    else .retry (2 ^ attempt)
  | .github ⟨.rateLimit seconds, _⟩ =>
    if attempt = 2 then .uncertain
    else if seconds > 60 then .uncertain
    else .retry seconds
  | .github ⟨.unavailable, _⟩ | .github ⟨.protocol, _⟩ =>
    if attempt = 2 then .uncertain
    else if 2 ^ attempt > 60 then .uncertain
    else .retry (2 ^ attempt)
  | _ => .escapes

/-- The answer to a revocation: no content and no body. -/
def readRevocation (r : GitHubHttpResponse) : Except Raised Unit :=
  match r.body with
  | .empty => .ok ()
  | _ => .error (protocolError "github token revocation returned a body")

def tryRevoke (token : String) : Call Unit := do
  let response ← b.request (revocationRequest token) 204
  .lift (readRevocation response)

/-- The attempts of the loop, in order. -/
def revokeAttempts (token : String) : List ℕ → Call Unit
  | [] => .throw (.assertion "unreachable")
  | attempt :: rest => (b.tryRevoke token).rescue fun e =>
    match onFailure attempt e with
    | .revoked => pure ()
    | .retry _ => revokeAttempts token rest
    | .uncertain => .throw cleanupError
    | .escapes => .throw e

def revokeInstallationToken (token : String) : Call Unit :=
  b.revokeAttempts token (List.range 3)

/-! ### Verification and minting -/

/-- The one installation has to match the policy exactly. -/
def checkInstallation (installations : List Json) :
    Except Raised (List (String × String) × List String) := do
  let installation ← match installations with
    | [.obj fields] => Except.ok (Json.obj fields)
    | _ => .error (permissionError "github app must have exactly one installation")
  let id ← requiredInteger installation "id"
  Except.require (id = b.configuration.installationId)
    (permissionError "github installation identity mismatch")
  let appId ← requiredInteger installation "app_id"
  Except.require (appId = b.appId) (permissionError "github app identity mismatch")
  Except.require ((installation.get "suspended_at").isNull)
    (permissionError "github installation is suspended")
  Except.require ((installation.get "repository_selection").str? = some "selected")
    (permissionError "github installation must select repositories explicitly")
  let permissions ← stringMapping (installation.get "permissions") "permissions"
  Except.require (permissions.Perm githubAppPermissions)
    (permissionError "github installation permissions do not match policy")
  let events ← stringTuple (installation.get "events") "events"
  Except.require (events.Nodup ∧ (∀ e ∈ events, e ∈ webhookEventNames) ∧
      ∀ e ∈ webhookEventNames, e ∈ events)
    (permissionError "github webhook subscriptions do not match policy")
  .ok (permissions, events)

def requireExactRepositoryScope (response : Json) : Except Raised Unit := do
  let repository ← match response.get "repositories" with
    | .arr [repository] => Except.ok repository
    | _ => .error (permissionError "github authority is not restricted to one repository")
  Except.require repository.obj?.isSome (protocolError "github repository response is invalid")
  let id ← requiredInteger repository "id"
  Except.require (id = b.configuration.repositoryId)
    (permissionError "github repository id mismatch")
  match repository.get "full_name" with
  | .str fullName =>
    Except.require (b.runtime.unicode.strip fullName.toList = fullName.toList ∧
        b.runtime.unicode.lower fullName.toList = b.configuration.repositoryKey.toList)
      (permissionError "github repository key mismatch")
  | _ => .error (permissionError "github repository key mismatch")

/-- The checks of the audit token's response. -/
def checkAudit (now : ClockReading) (response : Json) : Except Raised Unit := do
  let expiresAt ← timestampField b.runtime (response.get "expires_at") "expires_at"
  let now ← awareUtc now
  Except.require (LifetimeOk expiresAt now)
    (protocolError "github audit token lifetime is invalid")
  let permissions ← stringMapping (response.get "permissions") "permissions"
  Except.require (permissions.Perm [("metadata", "read")])
    (permissionError "github audit token permissions exceed metadata read")
  Except.require ((response.get "repository_selection").str? = some "selected")
    (permissionError "github audit token repository selection mismatch")
  b.requireExactRepositoryScope response

def verifyInstallation : Call GitHubInstallationAttestation := do
  let jwt ← b.appJwt
  let installations ← b.requestJson decodeJsonArray (installationsRequest jwt) 200
  let (permissions, events) ← Dialogue.lift (b.checkInstallation installations)
  let audit ← b.requestJson decodeJsonObject (b.auditRequest jwt) 201
  let token ← Dialogue.lift
    (tokenOf b.runtime.unicode (.obj audit) "github audit token response is invalid")
  Dialogue.ensure (.decideOn fun log => b.checkAudit (b.clock log.length) (.obj audit))
    (b.revokeInstallationToken token)
  pure
    { appId := b.appId
      installationId := b.configuration.installationId
      repositoryId := b.configuration.repositoryId
      repositoryKey := b.configuration.repositoryKey
      repositorySelection := "selected"
      permissions := sortedItems permissions
      events := sortedTexts events }

/-- The checks of a minted token's response, and the credential they allow. -/
def checkMint (purpose : GitHubCredentialPurpose) (token : String) (now : ClockReading)
    (response : Json) : Except Raised GitHubInstallationCredential := do
  let expiresAt ← timestampField b.runtime (response.get "expires_at") "expires_at"
  let now ← awareUtc now
  Except.require (LifetimeOk expiresAt now) (protocolError "github token lifetime is invalid")
  let permissions ← stringMapping (response.get "permissions") "permissions"
  Except.require (AcceptedPermissions purpose permissions)
    (permissionError "github token permissions exceed requested purpose")
  b.requireExactRepositoryScope response
  .ok
    { token := token
      purpose := purpose
      repositoryId := b.configuration.repositoryId
      repositoryKey := b.configuration.repositoryKey
      expiresAt := expiresAt
      permissions := sortedItems permissions }

def mintInstallationToken (purpose : GitHubCredentialPurpose) :
    Call GitHubInstallationCredential := do
  let _ ← b.verifyInstallation
  let jwt ← b.appJwt
  let response ← b.requestJson decodeJsonObject (b.mintRequest purpose jwt) 201
  let token ← Dialogue.lift
    (tokenOf b.runtime.unicode (.obj response) "github token response is invalid")
  Dialogue.rescue
    (.decideOn fun log => b.checkMint purpose token (b.clock log.length) (.obj response))
    fun e => do
      b.revokeInstallationToken token
      .throw e

end GitHubAppCredentialBroker

end ControlPlane.GitHubApp
