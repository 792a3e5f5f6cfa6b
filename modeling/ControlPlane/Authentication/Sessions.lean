import ControlPlane.Domain
import ControlPlane.Lib.Deletion
import ControlPlane.Lib.Runtime
import ControlPlane.Lib.Transaction

/-!
# Authentication sessions

The single local user, the bootstrap claim that creates it, the throttle of password attempts,
and the sessions: rows that hold the digest of a token, two expiries, and whether they were
revoked. Each operation is one transaction; an error that is raised inside rolls it back.

Fresh tokens, identifiers and salts are arguments of the operations that draw them.

## Main definitions

* `AuthenticationService.authenticate`, `login`, `reauthenticate`, `bootstrap`
* `AuthenticationService.issueSession`
-/
namespace ControlPlane

/-! ### Rows -/

structure LocalUser where
  passwordHash : String
  deriving DecidableEq

/-- The singleton state of the bootstrap and of the throttle. Its row is created with these
values where it is missing. -/
structure AuthenticationState where
  bootstrapTokenDigest : Option String := none
  failedLoginAttempts : ℕ := 0
  loginBlockedUntil : Option Time := none
  deriving DecidableEq

structure AuthSession where
  id : UUID
  userId : ℕ
  tokenDigest : String
  csrfTokenDigest : String
  lastSeenAt : Time
  expiresAt : Time
  absoluteExpiresAt : Time
  reauthenticatedAt : Time
  revokedAt : Option Time := none
  deriving DecidableEq

instance : Keyed AuthSession UUID := ⟨AuthSession.id⟩

structure AuthenticationStore where
  user : Option LocalUser := none
  state : AuthenticationState := {}
  sessions : Table AuthSession := .empty

def localUserId : ℕ := 1

/-! ### Values -/

inductive AuthenticationFailure where
  | invalidCredentials
  | bootstrapUnavailable
  | bootstrapAlreadyCompleted
  | invalidBootstrapToken
  | passwordPolicy
  /-- A unique constraint refuses the row. -/
  | integrity
  deriving DecidableEq

/-- Non-secret request authentication context. -/
structure AuthenticatedSession where
  sessionId : UUID
  userId : ℕ
  csrfTokenDigest : String
  expiresAt : Time
  absoluteExpiresAt : Time
  reauthenticatedUntil : Time
  evaluatedAt : Time
  recentPasswordVerified : Bool
  deriving DecidableEq

structure IssuedSession where
  authentication : AuthenticatedSession
  sessionToken : String
  csrfToken : String
  deriving DecidableEq

/-- What a new session draws. -/
structure FreshSession where
  id : UUID
  sessionToken : String
  csrfToken : String
  deriving DecidableEq

/-- The password hashing library, and the hash of a credential that is never valid. -/
structure PasswordHasher where
  hash : ℕ → String → String
  verify : String → String → Bool
  checkNeedsRehash : String → Bool
  dummyPasswordHash : String

def tokenDigest (rt : Runtime) (token : String) : String := rt.sha256 token

/-- Forty-three characters of the URL-safe alphabet. -/
def tokenIsCanonical (token : String) : Bool :=
  token.length = 43 && token.toList.all fun c => c.isAlphanum || c = '_' || c = '-'

def invalidTokenDigest (rt : Runtime) : String := rt.sha256 "invalid-mathews-authentication-token"

def minPasswordCharacters : ℕ := 15

def maxPasswordBytes : ℕ := 1024

def validNewPassword (password : String) : Bool :=
  minPasswordCharacters ≤ password.length && password.utf8ByteSize ≤ maxPasswordBytes

def authenticationInputIsBounded (password : String) : Bool :=
  password.utf8ByteSize ≤ maxPasswordBytes

def loginThrottleStart : ℕ := 5

def loginThrottleMaxSeconds : ℕ := 300

def loginThrottleMaxFailures : ℕ := 16

/-! ### The service -/

structure AuthenticationService where
  idleTtl : Time := seconds 1800
  absoluteTtl : Time := seconds 28800
  reauthenticationTtl : Time := seconds 300
  valid : 0 < idleTtl ∧ 0 < absoluteTtl ∧ idleTtl ≤ absoluteTtl ∧ 0 < reauthenticationTtl

/-- Create or rotate the one-time setup claim before a user exists. -/
def generateBootstrapToken (rt : Runtime) (rawToken : String) (store : AuthenticationStore) :
    Except AuthenticationFailure String × AuthenticationStore :=
  if store.user.isSome then (.error .bootstrapAlreadyCompleted, store)
  else (.ok rawToken, { store with
    state := { store.state with bootstrapTokenDigest := some (tokenDigest rt rawToken) } })

def recordLoginFailure (state : AuthenticationState) (now : Time) : AuthenticationState :=
  let failures := min (state.failedLoginAttempts + 1) loginThrottleMaxFailures
  if loginThrottleStart ≤ failures then
    { state with
      failedLoginAttempts := failures
      loginBlockedUntil := some
        (now + seconds (min (2 ^ (failures - loginThrottleStart + 1)) loginThrottleMaxSeconds)) }
  else { state with failedLoginAttempts := failures }

/-- The throttle is in force. -/
def AuthenticationState.blocked (state : AuthenticationState) (now : Time) : Bool :=
  state.loginBlockedUntil.any fun blockedUntil => now < blockedUntil

/-- A password that was accepted: the throttle is reset, and the hash renewed if it is old. -/
def AuthenticationStore.acceptPassword (hasher : PasswordHasher) (salt : ℕ) (password : String)
    (user : LocalUser) (store : AuthenticationStore) : AuthenticationStore :=
  { store with
    user := some (if hasher.checkNeedsRehash user.passwordHash then ⟨hasher.hash salt password⟩
      else user)
    state := { store.state with failedLoginAttempts := 0, loginBlockedUntil := none } }

def AuthSession.expired (record : AuthSession) (now : Time) : Bool :=
  record.expiresAt ≤ now || record.absoluteExpiresAt ≤ now

/-- Revoked or expired sessions are deleted. -/
def deleteStaleSessions (now : Time) (sessions : Table AuthSession) : Table AuthSession :=
  sessions.deleteWhere fun record => record.revokedAt.isSome || record.expired now

def deleteSession (id : UUID) (sessions : Table AuthSession) : Table AuthSession :=
  sessions.deleteWhere fun record => record.id = id

/-- The session of a token. -/
def sessionOfToken (rt : Runtime) (token : String) (sessions : Table AuthSession) :
    Option AuthSession :=
  sessions.rows.find? fun record => record.tokenDigest = tokenDigest rt token

def revokeToken (rt : Runtime) (now : Time) (token : Option String)
    (sessions : Table AuthSession) : Table AuthSession :=
  match token with
  | none => sessions
  | some token =>
    if tokenIsCanonical token then
      match sessionOfToken rt token sessions with
      | some record =>
        if record.revokedAt = none then sessions.set { record with revokedAt := some now }
        else sessions
      | none => sessions
    else sessions

namespace AuthenticationService
variable (svc : AuthenticationService) (rt : Runtime) (hasher : PasswordHasher)

def authenticationFromRecord (now : Time) (record : AuthSession) : AuthenticatedSession :=
  let reauthenticatedUntil := record.reauthenticatedAt + svc.reauthenticationTtl
  { sessionId := record.id
    userId := record.userId
    csrfTokenDigest := record.csrfTokenDigest
    expiresAt := record.expiresAt
    absoluteExpiresAt := record.absoluteExpiresAt
    reauthenticatedUntil := if now < record.reauthenticatedAt then now else reauthenticatedUntil
    evaluatedAt := now
    recentPasswordVerified := record.reauthenticatedAt ≤ now && now < reauthenticatedUntil }

/-- The row of a new session. -/
def newRecord (now : Time) (fresh : FreshSession) : AuthSession :=
  let absoluteExpiresAt := now + svc.absoluteTtl
  { id := fresh.id
    userId := localUserId
    tokenDigest := tokenDigest rt fresh.sessionToken
    csrfTokenDigest := tokenDigest rt fresh.csrfToken
    lastSeenAt := now
    expiresAt := min (now + svc.idleTtl) absoluteExpiresAt
    absoluteExpiresAt
    reauthenticatedAt := now }

def issueSession (now : Time) (fresh : FreshSession) (store : AuthenticationStore) :
    Except AuthenticationFailure (IssuedSession × AuthenticationStore) := do
  let sessions := deleteStaleSessions now store.sessions
  let record := svc.newRecord rt now fresh
  Except.require (sessions.rows.all fun other => other.tokenDigest ≠ record.tokenDigest)
    .integrity
  let sessions ← Except.orThrow (sessions.insert? record) .integrity
  return (⟨svc.authenticationFromRecord now record, fresh.sessionToken, fresh.csrfToken⟩,
    { store with sessions })

/-- A new session, or a rollback. -/
def issueOrRollback (now : Time) (fresh : FreshSession) (store before : AuthenticationStore) :
    Except AuthenticationFailure IssuedSession × AuthenticationStore :=
  match svc.issueSession rt now fresh store with
  | .ok (issued, store) => (.ok issued, store)
  | .error error => (.error error, before)

def bootstrap (now : Time) (fresh : FreshSession) (salt : ℕ) (bootstrapToken password : String)
    (store : AuthenticationStore) :
    Except AuthenticationFailure IssuedSession × AuthenticationStore :=
  if validNewPassword password = false then (.error .passwordPolicy, store)
  else if store.user.isSome then (.error .bootstrapAlreadyCompleted, store)
  else
    match store.state.bootstrapTokenDigest with
    | none => (.error .bootstrapUnavailable, store)
    | some expected =>
      let presented :=
        if tokenIsCanonical bootstrapToken then tokenDigest rt bootstrapToken
        else invalidTokenDigest rt
      if expected ≠ presented then (.error .invalidBootstrapToken, store)
      else svc.issueOrRollback rt now fresh
        { store with user := some ⟨hasher.hash salt password⟩, state := {} } store

def login (now : Time) (fresh : FreshSession) (salt : ℕ) (password : String)
    (existingSessionToken : Option String) (store : AuthenticationStore) :
    Except AuthenticationFailure IssuedSession × AuthenticationStore :=
  if authenticationInputIsBounded password = false then (.error .invalidCredentials, store)
  else if store.state.blocked now then (.error .invalidCredentials, store)
  else
    let failed := { store with state := recordLoginFailure store.state now }
    match store.user with
    | none => (.error .invalidCredentials, failed)
    | some user =>
      if hasher.verify user.passwordHash password then
        let accepted := store.acceptPassword hasher salt password user
        svc.issueOrRollback rt now fresh
          { accepted with sessions := revokeToken rt now existingSessionToken accepted.sessions }
          store
      else (.error .invalidCredentials, failed)

def authenticate (now : Time) (sessionToken : Option String) (store : AuthenticationStore) :
    Option AuthenticatedSession × AuthenticationStore :=
  match sessionToken with
  | none => (none, store)
  | some token =>
    if tokenIsCanonical token = false then (none, store)
    else
      match sessionOfToken rt token store.sessions with
      | none => (none, store)
      | some record =>
        if record.revokedAt.isSome then (none, store)
        else if record.expired now then
          (none, { store with sessions := deleteSession record.id store.sessions })
        else
          let seen := { record with
            lastSeenAt := now
            expiresAt := min (now + svc.idleTtl) record.absoluteExpiresAt }
          (some (svc.authenticationFromRecord now seen),
            { store with sessions := store.sessions.set seen })

def reauthenticate (now : Time) (fresh : FreshSession) (salt : ℕ) (sessionId : UUID)
    (password : String) (store : AuthenticationStore) :
    Except AuthenticationFailure IssuedSession × AuthenticationStore :=
  if authenticationInputIsBounded password = false then (.error .invalidCredentials, store)
  else if store.state.blocked now then (.error .invalidCredentials, store)
  else
    match store.sessions.get? sessionId with
    | none => (.error .invalidCredentials, store)
    | some record =>
      if record.revokedAt.isSome then (.error .invalidCredentials, store)
      else if record.expired now then
        (.error .invalidCredentials,
          { store with sessions := deleteSession record.id store.sessions })
      else
        let failed := { store with state := recordLoginFailure store.state now }
        match (if record.userId = localUserId then store.user else none) with
        | none => (.error .invalidCredentials, failed)
        | some user =>
          if hasher.verify user.passwordHash password then
            let accepted := store.acceptPassword hasher salt password user
            svc.issueOrRollback rt now fresh
              { accepted with
                sessions := accepted.sessions.set { record with revokedAt := some now } } store
          else (.error .invalidCredentials, failed)

end AuthenticationService

def logout (now : Time) (sessionId : UUID) (store : AuthenticationStore) : AuthenticationStore :=
  match store.sessions.get? sessionId with
  | none => store
  | some record =>
    if record.revokedAt = none then
      { store with sessions := store.sessions.set { record with revokedAt := some now } }
    else store

/-- An expired session is refused, and its deletion rolled back with the refusal. -/
def rotateCsrf (rt : Runtime) (now : Time) (rawToken : String) (sessionId : UUID)
    (store : AuthenticationStore) : Except AuthenticationFailure String × AuthenticationStore :=
  match store.sessions.get? sessionId with
  | none => (.error .invalidCredentials, store)
  | some record =>
    if record.revokedAt.isSome || record.expired now then (.error .invalidCredentials, store)
    else (.ok rawToken, { store with
      sessions := store.sessions.set { record with csrfTokenDigest := tokenDigest rt rawToken } })

def cleanupStaleSessions (now : Time) (store : AuthenticationStore) : AuthenticationStore :=
  { store with sessions := deleteStaleSessions now store.sessions }

end ControlPlane
