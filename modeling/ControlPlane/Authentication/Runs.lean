import ControlPlane.Authentication.Tokens
import ControlPlane.Lib.System

/-!
# Runs of the authentication service

Bootstraps, logins, uses, reauthentications, logouts and cleanups in any order, under a clock
that never falls back. A token that is drawn was neither drawn nor presented before.

## Main results

* `AuthenticationRun.kept_of_reachable`: the invariant of the sessions and their history.
* `AuthenticationRun.authentication_promises_kept`
-/
namespace ControlPlane

inductive AuthenticationAction where
  | generateBootstrapToken (rawToken : String)
  | bootstrap (fresh : FreshSession) (salt : ℕ) (bootstrapToken password : String)
  | login (fresh : FreshSession) (salt : ℕ) (password : String)
    (existingSessionToken : Option String)
  | authenticate (sessionToken : Option String)
  | reauthenticate (fresh : FreshSession) (salt : ℕ) (sessionId : UUID) (password : String)
  | logout (sessionId : UUID)
  | rotateCsrf (rawToken : String) (sessionId : UUID)
  | cleanup

namespace AuthenticationAction

def fresh? : AuthenticationAction → Option FreshSession
  | bootstrap fresh _ _ _ => some fresh
  | login fresh _ _ _ => some fresh
  | reauthenticate fresh _ _ _ => some fresh
  | _ => none

/-- The session tokens that are presented. -/
def tokens : AuthenticationAction → List String
  | login _ _ _ existing => existing.toList
  | authenticate token => token.toList
  | _ => []

/-- The sessions that are named. -/
def ids : AuthenticationAction → List UUID
  | reauthenticate _ _ id _ => [id]
  | logout id => [id]
  | rotateCsrf _ id => [id]
  | _ => []

end AuthenticationAction

/-- The store, the time of the last call, and the history of the sessions. -/
structure AuthenticationRun where
  store : AuthenticationStore := {}
  now : Time := 0
  events : List AuthenticationEvent := []
  tokens : List String := []
  ids : List UUID := []

def issuedEvents (now : Time) (proof : PasswordProof) (before : List AuthenticationEvent) :
    Except AuthenticationFailure IssuedSession → List AuthenticationEvent
  | .ok issued => before ++ [.issued issued.sessionToken issued.authentication.sessionId now proof]
  | .error _ => []

/-- The hash a password was checked against. -/
def AuthenticationStore.proof (store : AuthenticationStore) (password : String) : PasswordProof :=
  match store.user with
  | some user => .verified user.passwordHash password
  | none => .chosen

namespace AuthenticationRun

def log (s : AuthenticationRun) : SessionLog :=
  ⟨s.store.sessions, s.events, s.tokens, s.ids⟩

section
variable (svc : AuthenticationService) (rt : Runtime) (hasher : PasswordHasher)

/-- What a call leaves of the store, and what it adds to the history. -/
def effect (now : Time) (store : AuthenticationStore) :
    AuthenticationAction → AuthenticationStore × List AuthenticationEvent
  | .generateBootstrapToken rawToken => ((generateBootstrapToken rt rawToken store).2, [])
  | .bootstrap fresh salt bootstrapToken password =>
    let r := svc.bootstrap rt hasher now fresh salt bootstrapToken password store
    (r.2, issuedEvents now .chosen [.bootstrapped (tokenDigest rt bootstrapToken)] r.1)
  | .login fresh salt password existing =>
    let r := svc.login rt hasher now fresh salt password existing store
    (r.2, issuedEvents now (store.proof password)
      (existing.toList.map .presentedAtLogin) r.1)
  | .authenticate token =>
    let r := svc.authenticate rt now token store
    (r.2, if r.1.isSome then token.toList.map fun token => .used token now else [])
  | .reauthenticate fresh salt sessionId password =>
    let r := svc.reauthenticate rt hasher now fresh salt sessionId password store
    (r.2, issuedEvents now (store.proof password) [.reauthenticated sessionId] r.1)
  | .logout sessionId => (logout now sessionId store, [.loggedOut sessionId])
  | .rotateCsrf rawToken sessionId => ((rotateCsrf rt now rawToken sessionId store).2, [])
  | .cleanup => (cleanupStaleSessions now store, [])

def perform (s : AuthenticationRun) (now : Time) (a : AuthenticationAction) :
    AuthenticationRun where
  store := (effect svc rt hasher now s.store a).1
  now := now
  events := s.events ++ (effect svc rt hasher now s.store a).2
  tokens := (a.fresh?.toList.map FreshSession.sessionToken) ++ (a.tokens ++ s.tokens)
  ids := (a.fresh?.toList.map FreshSession.id) ++ (a.ids ++ s.ids)

end

/-- What is assumed of the tokens and identifiers of a call: they are among the admitted ones,
and what is drawn is canonical and new. -/
structure Admits (admitted : String → Prop) (s : AuthenticationRun) (a : AuthenticationAction) :
    Prop where
  presented : ∀ token ∈ a.tokens, admitted token
  drawn : ∀ fresh ∈ a.fresh?, admitted fresh.sessionToken ∧
    tokenIsCanonical fresh.sessionToken = true ∧
    fresh.sessionToken ∉ a.tokens ++ s.tokens ∧ fresh.id ∉ a.ids ++ s.ids

end AuthenticationRun

def authenticationSystem (svc : AuthenticationService) (rt : Runtime) (hasher : PasswordHasher)
    (admitted : String → Prop) : TransitionSystem AuthenticationRun where
  init s := s = {}
  step s t := ∃ a now, s.now ≤ now ∧ s.Admits admitted a ∧ t = s.perform svc rt hasher now a

/-! ### The operations as changes of the sessions -/

section
variable {svc : AuthenticationService} {rt : Runtime} {hasher : PasswordHasher}
  {admitted : String → Prop} {now : Time}

/-- Changes one after the other. -/
abbrev SessionSteps (svc : AuthenticationService) (rt : Runtime) (admitted : String → Prop)
    (now : Time) : SessionLog → SessionLog → Prop :=
  Relation.ReflTransGen (SessionStep svc rt admitted now)

theorem SessionSteps.kept {c c' : SessionLog} (hdiffer : TokensDiffer rt admitted)
    (hsteps : SessionSteps svc rt admitted now c c') (h : c.Kept svc rt admitted now) :
    c'.Kept svc rt admitted now := by
  induction hsteps with
  | refl => exact h
  | tail _ hstep ih => exact hstep.kept hdiffer ih

theorem SessionSteps.refuses {c c' : SessionLog} {token : String}
    (hdiffer : TokensDiffer rt admitted) (hadmitted : admitted token)
    (hsteps : SessionSteps svc rt admitted now c c') (h : c.Kept svc rt admitted now)
    (hrefuses : c.Refuses svc now token) : c'.Refuses svc now token := by
  induction hsteps with
  | refl => exact hrefuses
  | tail hsteps hstep ih => exact hstep.refuses hdiffer hadmitted (SessionSteps.kept hdiffer hsteps h) ih

/-- A session is issued after the stale ones were deleted. -/
theorem steps_of_issueSession {store store' : AuthenticationStore} {fresh : FreshSession}
    {issued : IssuedSession} {c : SessionLog} (proof : PasswordProof)
    (hissue : svc.issueSession rt now fresh store = .ok (issued, store'))
    (hsessions : store.sessions = c.sessions) (hadmitted : admitted fresh.sessionToken)
    (hcanonical : tokenIsCanonical fresh.sessionToken = true)
    (htoken : fresh.sessionToken ∉ c.tokens) (hid : fresh.id ∉ c.ids) :
    SessionSteps svc rt admitted now c
      { sessions := store'.sessions
        events := c.events ++ [.issued fresh.sessionToken fresh.id now proof]
        tokens := fresh.sessionToken :: c.tokens
        ids := fresh.id :: c.ids } := by
  simp only [AuthenticationService.issueSession, Except.bind_eq_ok, Except.require_eq_ok,
    Except.orThrow_eq_ok, Except.pure_eq_ok, Prod.mk.injEq] at hissue
  obtain ⟨_, _, sessions, hinsert, _, rfl⟩ := hissue
  rw [hsessions] at hinsert
  have hclean : SessionSteps svc rt admitted now c
      (c.withSessions (deleteStaleSessions now c.sessions)) := .single .clean
  exact hclean.tail (.issue proof hadmitted hcanonical htoken hid hinsert)

theorem issued_of_issueSession {store store' : AuthenticationStore} {fresh : FreshSession}
    {issued : IssuedSession} (h : svc.issueSession rt now fresh store = .ok (issued, store')) :
    issued.sessionToken = fresh.sessionToken ∧ issued.authentication.sessionId = fresh.id ∧
      store'.user = store.user := by
  simp only [AuthenticationService.issueSession, Except.bind_eq_ok, Except.require_eq_ok,
    Except.orThrow_eq_ok, Except.pure_eq_ok, Prod.mk.injEq] at h
  obtain ⟨_, _, sessions, _, rfl, rfl⟩ := h
  exact ⟨rfl, rfl, rfl⟩

theorem issueOrRollback_cases (svc : AuthenticationService) (rt : Runtime) (now : Time)
    (fresh : FreshSession) (store before : AuthenticationStore) :
    (∃ error, svc.issueOrRollback rt now fresh store before = (.error error, before)) ∨
      ∃ issued store', svc.issueSession rt now fresh store = .ok (issued, store') ∧
        svc.issueOrRollback rt now fresh store before = (.ok issued, store') := by
  cases h : svc.issueSession rt now fresh store with
  | error error => exact .inl ⟨error, by simp [AuthenticationService.issueOrRollback, h]⟩
  | ok result =>
    exact .inr ⟨result.1, result.2, rfl, by simp [AuthenticationService.issueOrRollback, h]⟩

/-- A bootstrap is refused and changes nothing, or it creates the missing user and a session. -/
theorem bootstrap_cases (svc : AuthenticationService) (rt : Runtime) (hasher : PasswordHasher)
    (now : Time) (fresh : FreshSession) (salt : ℕ) (bootstrapToken password : String)
    (store : AuthenticationStore) :
    (∃ error, svc.bootstrap rt hasher now fresh salt bootstrapToken password store =
        (.error error, store)) ∨
      ∃ issued store', store.user = none ∧
        svc.issueSession rt now fresh
          { store with user := some ⟨hasher.hash salt password⟩, state := {} } =
            .ok (issued, store') ∧
        svc.bootstrap rt hasher now fresh salt bootstrapToken password store =
          (.ok issued, store') := by
  by_cases hpassword : validNewPassword password = false
  · exact .inl ⟨_, by rw [AuthenticationService.bootstrap, if_pos hpassword]⟩
  cases huser : store.user with
  | some user =>
    exact .inl ⟨.bootstrapAlreadyCompleted, by
      simp [AuthenticationService.bootstrap, hpassword, huser]⟩
  | none =>
    cases hdigest : store.state.bootstrapTokenDigest with
    | none =>
      exact .inl ⟨.bootstrapUnavailable, by
        simp [AuthenticationService.bootstrap, hpassword, huser, hdigest]⟩
    | some expected =>
      by_cases hpresented : expected ≠ (if tokenIsCanonical bootstrapToken then
          tokenDigest rt bootstrapToken else invalidTokenDigest rt)
      · exact .inl ⟨.invalidBootstrapToken, by
          simp [AuthenticationService.bootstrap, hpassword, huser, hdigest, hpresented]⟩
      · have hbootstrap : svc.bootstrap rt hasher now fresh salt bootstrapToken password store =
            svc.issueOrRollback rt now fresh
              { store with user := some ⟨hasher.hash salt password⟩, state := {} } store := by
          simp [AuthenticationService.bootstrap, hpassword, huser, hdigest, hpresented]
        rw [hbootstrap]
        rcases issueOrRollback_cases svc rt now fresh
          { store with user := some ⟨hasher.hash salt password⟩, state := {} } store with
          ⟨error, herror⟩ | ⟨issued, store', hissue, hok⟩
        · exact .inl ⟨error, herror⟩
        · exact .inr ⟨issued, store', rfl, hissue, hok⟩

/-- A login is refused and leaves the sessions and the user, or the password matched. -/
theorem login_cases (svc : AuthenticationService) (rt : Runtime) (hasher : PasswordHasher)
    (now : Time) (fresh : FreshSession) (salt : ℕ) (password : String)
    (existing : Option String) (store : AuthenticationStore) :
    (∃ error store', store'.sessions = store.sessions ∧ store'.user = store.user ∧
        svc.login rt hasher now fresh salt password existing store = (.error error, store')) ∨
      ∃ user issued store', store.user = some user ∧
        hasher.verify user.passwordHash password = true ∧
        svc.issueSession rt now fresh
          { store.acceptPassword hasher salt password user with
            sessions := revokeToken rt now existing store.sessions } = .ok (issued, store') ∧
        svc.login rt hasher now fresh salt password existing store = (.ok issued, store') := by
  by_cases hbounded : authenticationInputIsBounded password = false
  · exact .inl ⟨_, store, rfl, rfl, by rw [AuthenticationService.login, if_pos hbounded]⟩
  by_cases hblocked : store.state.blocked now = true
  · exact .inl ⟨_, store, rfl, rfl, by
      rw [AuthenticationService.login, if_neg hbounded, if_pos hblocked]⟩
  cases huser : store.user with
  | none =>
    exact .inl ⟨.invalidCredentials,
      { store with state := recordLoginFailure store.state now }, rfl, huser, by
        simp [AuthenticationService.login, hbounded, hblocked, huser]⟩
  | some user =>
    by_cases hverify : hasher.verify user.passwordHash password = true
    · have hlogin : svc.login rt hasher now fresh salt password existing store =
          svc.issueOrRollback rt now fresh
            { store.acceptPassword hasher salt password user with
              sessions := revokeToken rt now existing store.sessions } store := by
        simp [AuthenticationService.login, hbounded, hblocked, huser, hverify,
          AuthenticationStore.acceptPassword]
      rw [hlogin]
      rcases issueOrRollback_cases svc rt now fresh
        { store.acceptPassword hasher salt password user with
          sessions := revokeToken rt now existing store.sessions } store with
        ⟨error, herror⟩ | ⟨issued, store', hissue, hok⟩
      · exact .inl ⟨error, store, rfl, huser, herror⟩
      · exact .inr ⟨user, issued, store', rfl, hverify, hissue, hok⟩
    · exact .inl ⟨.invalidCredentials,
        { store with state := recordLoginFailure store.state now }, rfl, huser, by
          simp [AuthenticationService.login, hbounded, hblocked, huser, hverify]⟩

/-- A reauthentication is refused and leaves the sessions, or drops the expired one it named,
or the password matched and the session is replaced. -/
theorem reauthenticate_cases (svc : AuthenticationService) (rt : Runtime)
    (hasher : PasswordHasher) (now : Time) (fresh : FreshSession) (salt : ℕ) (sessionId : UUID)
    (password : String) (store : AuthenticationStore) :
    (∃ error store', store'.sessions = store.sessions ∧ store'.user = store.user ∧
        svc.reauthenticate rt hasher now fresh salt sessionId password store =
          (.error error, store')) ∨
      (∃ row, store.sessions.get? row.id = some row ∧ row.expired now = true ∧
        svc.reauthenticate rt hasher now fresh salt sessionId password store =
          (.error .invalidCredentials,
            { store with sessions := deleteSession row.id store.sessions })) ∨
      ∃ row user issued store', store.sessions.get? row.id = some row ∧ row.id = sessionId ∧
        store.user = some user ∧ hasher.verify user.passwordHash password = true ∧
        svc.issueSession rt now fresh
          { store.acceptPassword hasher salt password user with
            sessions := store.sessions.set { row with revokedAt := some now } } =
              .ok (issued, store') ∧
        svc.reauthenticate rt hasher now fresh salt sessionId password store =
          (.ok issued, store') := by
  by_cases hbounded : authenticationInputIsBounded password = false
  · exact .inl ⟨_, store, rfl, rfl, by rw [AuthenticationService.reauthenticate, if_pos hbounded]⟩
  by_cases hblocked : store.state.blocked now = true
  · exact .inl ⟨_, store, rfl, rfl, by
      rw [AuthenticationService.reauthenticate, if_neg hbounded, if_pos hblocked]⟩
  cases hrow : store.sessions.get? sessionId with
  | none =>
    exact .inl ⟨.invalidCredentials, store, rfl, rfl, by
      simp [AuthenticationService.reauthenticate, hbounded, hblocked, hrow]⟩
  | some row =>
    have hid : row.id = sessionId := Table.key_of_get? hrow
    have hget : store.sessions.get? row.id = some row := by rw [hid, hrow]
    by_cases hrevoked : row.revokedAt.isSome = true
    · exact .inl ⟨.invalidCredentials, store, rfl, rfl, by
        simp [AuthenticationService.reauthenticate, hbounded, hblocked, hrow, hrevoked]⟩
    by_cases hexpired : row.expired now = true
    · exact .inr (.inl ⟨row, hget, hexpired, by
        simp [AuthenticationService.reauthenticate, hbounded, hblocked, hrow, hrevoked,
          hexpired]⟩)
    cases huser : (if row.userId = localUserId then store.user else none) with
    | none =>
      exact .inl ⟨.invalidCredentials,
        { store with state := recordLoginFailure store.state now }, rfl, rfl, by
          simp [AuthenticationService.reauthenticate, hbounded, hblocked, hrow, hrevoked,
            hexpired, huser]⟩
    | some user =>
      by_cases hverify : hasher.verify user.passwordHash password = true
      · have hsome : store.user = some user := by
          by_cases hlocal : row.userId = localUserId
          · rw [← huser, if_pos hlocal]
          · rw [if_neg hlocal] at huser
            cases huser
        have hreauth : svc.reauthenticate rt hasher now fresh salt sessionId password store =
            svc.issueOrRollback rt now fresh
              { store.acceptPassword hasher salt password user with
                sessions := store.sessions.set { row with revokedAt := some now } } store := by
          simp [AuthenticationService.reauthenticate, hbounded, hblocked, hrow, hrevoked,
            hexpired, huser, hverify, AuthenticationStore.acceptPassword]
        rw [hreauth]
        rcases issueOrRollback_cases svc rt now fresh
          { store.acceptPassword hasher salt password user with
            sessions := store.sessions.set { row with revokedAt := some now } } store with
          ⟨error, herror⟩ | ⟨issued, store', hissue, hok⟩
        · exact .inl ⟨error, store, rfl, rfl, herror⟩
        · exact .inr (.inr ⟨row, user, issued, store', hget, hid, hsome, hverify, hissue, hok⟩)
      · exact .inl ⟨.invalidCredentials,
          { store with state := recordLoginFailure store.state now }, rfl, rfl, by
            simp [AuthenticationService.reauthenticate, hbounded, hblocked, hrow, hrevoked,
              hexpired, huser, hverify]⟩

/-- A presented token finds no live session, drops an expired one, or uses its session. -/
theorem authenticate_cases (svc : AuthenticationService) (rt : Runtime) (now : Time)
    (token : String) (store : AuthenticationStore) :
    (svc.authenticate rt now (some token) store = (none, store) ∧
        ¬ (tokenIsCanonical token = true ∧ RowsAccept rt store.sessions token now)) ∨
      (∃ row, store.sessions.get? row.id = some row ∧ row.expired now = true ∧
        sessionOfToken rt token store.sessions = some row ∧
        svc.authenticate rt now (some token) store =
          (none, { store with sessions := deleteSession row.id store.sessions })) ∨
      ∃ row, tokenIsCanonical token = true ∧ sessionOfToken rt token store.sessions = some row ∧
        row.revokedAt = none ∧ row.expired now = false ∧
        svc.authenticate rt now (some token) store =
          (some (svc.authenticationFromRecord now { row with
              lastSeenAt := now
              expiresAt := min (now + svc.idleTtl) row.absoluteExpiresAt }),
            { store with sessions := store.sessions.set { row with
              lastSeenAt := now
              expiresAt := min (now + svc.idleTtl) row.absoluteExpiresAt } }) := by
  by_cases hcanonical : tokenIsCanonical token = true
  swap
  · refine .inl ⟨?_, fun h => hcanonical h.1⟩
    simp [AuthenticationService.authenticate, hcanonical]
  cases hfound : sessionOfToken rt token store.sessions with
  | none =>
    refine .inl ⟨?_, ?_⟩
    · simp [AuthenticationService.authenticate, hcanonical, hfound]
    · rintro ⟨-, row, hrow, -⟩
      rw [hfound] at hrow
      cases hrow
  | some row =>
    by_cases hrevoked : row.revokedAt.isSome = true
    · refine .inl ⟨?_, ?_⟩
      · simp [AuthenticationService.authenticate, hcanonical, hfound, hrevoked]
      · rintro ⟨-, other, hother, hlive, -⟩
        obtain rfl : row = other := Option.some.inj (hfound.symm.trans hother)
        rw [hlive] at hrevoked
        cases hrevoked
    have hlive : row.revokedAt = none := by simpa using hrevoked
    cases hexpired : row.expired now with
    | true =>
      refine .inr (.inl ⟨row, Table.get?_key (mem_of_sessionOfToken hfound).1, hexpired, rfl, ?_⟩)
      simp [AuthenticationService.authenticate, hcanonical, hfound, hlive, hexpired]
    | false =>
      refine .inr (.inr ⟨row, hcanonical, rfl, hlive, hexpired, ?_⟩)
      simp [AuthenticationService.authenticate, hcanonical, hfound, hlive, hexpired]

/-- A token is let in when the rows accept it. -/
theorem authenticate_isSome_iff (svc : AuthenticationService) (rt : Runtime) (now : Time)
    (token : String) (store : AuthenticationStore) :
    (svc.authenticate rt now (some token) store).1.isSome = true ↔
      tokenIsCanonical token = true ∧ RowsAccept rt store.sessions token now := by
  rcases authenticate_cases svc rt now token store with
    ⟨hnone, hnot⟩ | ⟨row, -, hexpired, hfound, hnone⟩ |
      ⟨row, hcanonical, hfound, hlive, hexpired, hsome⟩
  · rw [hnone]
    simpa using hnot
  · rw [hnone]
    simp only [Option.isSome_none, Bool.false_eq_true, false_iff]
    rintro ⟨-, other, hother, -, hother'⟩
    obtain rfl : row = other := Option.some.inj (hfound.symm.trans hother)
    rw [hexpired] at hother'
    cases hother'
  · rw [hsome]
    simp only [Option.isSome_some, true_iff]
    exact ⟨hcanonical, row, hfound, hlive, hexpired⟩

/-- The session of a token presented at a login is revoked, if it is live. -/
theorem steps_of_revokeToken {c : SessionLog} {existing : Option String}
    (hadmitted : ∀ token ∈ existing.toList, admitted token)
    (hseen : ∀ token ∈ existing.toList, token ∈ c.tokens) :
    SessionSteps svc rt admitted now c
      { c with
        sessions := revokeToken rt now existing c.sessions
        events := c.events ++ existing.toList.map .presentedAtLogin } := by
  cases existing with
  | none =>
    simp only [revokeToken, Option.toList_none, List.map_nil, List.append_nil]
    exact .refl
  | some token =>
    have hmem : token ∈ (some token).toList := List.mem_singleton_self token
    have hevent : (∀ t ∈ (AuthenticationEvent.presentedAtLogin token).tokens, t ∈ c.tokens) ∧
        ∀ i ∈ (AuthenticationEvent.presentedAtLogin token).ids, i ∈ c.ids := by
      refine ⟨fun t ht => ?_, fun i hi => by cases hi⟩
      obtain rfl := List.mem_singleton.mp ht
      exact hseen t hmem
    have hignore : (tokenIsCanonical token = true →
        ∀ row, sessionOfToken rt token c.sessions = some row → row.revokedAt.isSome) →
        SessionSteps svc rt admitted now c (c.record (.presentedAtLogin token)) :=
      fun h => .single (.ignore hevent (.inr ⟨token, rfl, h⟩))
    simp only [Option.toList_some, List.map_cons, List.map_nil, revokeToken]
    by_cases hcanonical : tokenIsCanonical token = true
    swap
    · rw [if_neg hcanonical]
      exact hignore fun h => absurd h hcanonical
    rw [if_pos hcanonical]
    cases hfound : sessionOfToken rt token c.sessions with
    | none => exact hignore fun _ row hrow => by rw [hfound] at hrow; cases hrow
    | some row =>
      obtain ⟨hrow, hdigest⟩ := mem_of_sessionOfToken hfound
      by_cases hlive : row.revokedAt = none
      · simp only [hlive, if_true]
        exact .single (.revoke (Table.get?_key hrow) hevent
          (.inr (.inr ⟨token, rfl, hadmitted token hmem, hdigest⟩)))
      · simp only [hlive, if_false]
        refine hignore fun _ other hother => ?_
        obtain rfl : row = other := Option.some.inj (hfound.symm.trans hother)
        exact Option.isSome_iff_ne_none.mpr hlive

/-- Every call is a chain of changes. -/
theorem AuthenticationRun.steps_of_perform {s : AuthenticationRun} {a : AuthenticationAction}
    (hadmits : s.Admits admitted a) :
    SessionSteps svc rt admitted now s.log (s.perform svc rt hasher now a).log := by
  have hpresent : SessionSteps svc rt admitted now s.log
      { s.log with tokens := a.tokens ++ s.tokens, ids := a.ids ++ s.ids } :=
    .single (.present a.tokens a.ids)
  refine hpresent.trans ?_
  -- What was drawn for a refused call is spent.
  have hspent : ∀ (c : SessionLog) (fresh : FreshSession), SessionSteps svc rt admitted now c
      { c with tokens := fresh.sessionToken :: c.tokens, ids := fresh.id :: c.ids } :=
    fun c fresh => .single (.present [fresh.sessionToken] [fresh.id])
  cases a with
  | generateBootstrapToken rawToken =>
    have hsame : (generateBootstrapToken rt rawToken s.store).2.sessions = s.store.sessions := by
      by_cases huser : s.store.user.isSome = true <;> simp [generateBootstrapToken, huser]
    simp only [AuthenticationRun.perform, AuthenticationRun.log, AuthenticationRun.effect, hsame,
      List.append_nil]
    exact .refl
  | bootstrap fresh salt bootstrapToken password =>
    obtain ⟨hfresh, hcanonical, htoken, hid⟩ := hadmits.drawn fresh rfl
    rcases bootstrap_cases svc rt hasher now fresh salt bootstrapToken password s.store with
      ⟨error, herror⟩ | ⟨issued, store', huser, hissue, hok⟩
    · simp only [AuthenticationRun.perform, AuthenticationRun.log, AuthenticationRun.effect,
        herror, issuedEvents, List.append_nil]
      exact hspent _ fresh
    · obtain ⟨hsession, hsessionId, -⟩ := issued_of_issueSession hissue
      simp only [AuthenticationRun.perform, AuthenticationRun.log, AuthenticationRun.effect,
        hok, issuedEvents, hsession, hsessionId]
      rw [← List.append_assoc]
      exact .head (.note _) (steps_of_issueSession .chosen hissue rfl hfresh hcanonical htoken hid)
  | login fresh salt password existing =>
    obtain ⟨hfresh, hcanonical, htoken, hid⟩ := hadmits.drawn fresh rfl
    rcases login_cases svc rt hasher now fresh salt password existing s.store with
      ⟨error, store', hsessions, -, herror⟩ | ⟨user, issued, store', huser, hverify, hissue, hok⟩
    · simp only [AuthenticationRun.perform, AuthenticationRun.log, AuthenticationRun.effect,
        herror, issuedEvents, List.append_nil, hsessions]
      exact hspent _ fresh
    · obtain ⟨hsession, hsessionId, -⟩ := issued_of_issueSession hissue
      simp only [AuthenticationRun.perform, AuthenticationRun.log, AuthenticationRun.effect,
        hok, issuedEvents, hsession, hsessionId]
      rw [← List.append_assoc]
      refine Relation.ReflTransGen.trans (steps_of_revokeToken hadmits.presented ?_)
        (steps_of_issueSession _ hissue rfl hfresh hcanonical htoken hid)
      exact fun token ht => List.mem_append_left _ ht
  | authenticate presented =>
    cases presented with
    | none =>
      simp only [AuthenticationRun.perform, AuthenticationRun.log, AuthenticationRun.effect,
        AuthenticationService.authenticate, Option.toList_none, List.map_nil, ite_self,
        List.append_nil]
      exact .refl
    | some token =>
      have hadmitted := hadmits.presented token (List.mem_singleton_self token)
      rcases authenticate_cases svc rt now token s.store with
        ⟨hnone, -⟩ | ⟨row, hrow, hexpired, -, hnone⟩ |
          ⟨row, hcanonical, hfound, hlive, hexpired, hsome⟩
      · simp only [AuthenticationRun.perform, AuthenticationRun.log, AuthenticationRun.effect,
          hnone, Option.isSome_none, Bool.false_eq_true, if_false, List.append_nil]
        exact .refl
      · simp only [AuthenticationRun.perform, AuthenticationRun.log, AuthenticationRun.effect,
          hnone, Option.isSome_none, Bool.false_eq_true, if_false, List.append_nil]
        exact .single (.drop hrow hexpired)
      · obtain ⟨hmem, hdigest⟩ := mem_of_sessionOfToken hfound
        simp only [AuthenticationRun.perform, AuthenticationRun.log, AuthenticationRun.effect,
          hsome, Option.isSome_some, if_true]
        exact .single (.use (Table.get?_key hmem) hadmitted List.mem_cons_self hdigest hlive
          hexpired)
  | reauthenticate fresh salt sessionId password =>
    obtain ⟨hfresh, hcanonical, htoken, hid⟩ := hadmits.drawn fresh rfl
    rcases reauthenticate_cases svc rt hasher now fresh salt sessionId password s.store with
      ⟨error, store', hsessions, -, herror⟩ | ⟨row, hrow, hexpired, herror⟩ |
        ⟨row, user, issued, store', hrow, rfl, huser, hverify, hissue, hok⟩
    · simp only [AuthenticationRun.perform, AuthenticationRun.log, AuthenticationRun.effect,
        herror, issuedEvents, List.append_nil, hsessions]
      exact hspent _ fresh
    · simp only [AuthenticationRun.perform, AuthenticationRun.log, AuthenticationRun.effect,
        herror, issuedEvents, List.append_nil]
      exact .head (.drop hrow hexpired) (hspent _ fresh)
    · obtain ⟨hsession, hsessionId, -⟩ := issued_of_issueSession hissue
      simp only [AuthenticationRun.perform, AuthenticationRun.log, AuthenticationRun.effect,
        hok, issuedEvents, hsession, hsessionId]
      rw [← List.append_assoc]
      refine .head (.revoke hrow ?_ (.inr (.inl rfl)))
        (steps_of_issueSession _ hissue rfl hfresh hcanonical htoken hid)
      exact ⟨fun token ht => (by cases ht), fun id hi => List.mem_append_left _ hi⟩
  | logout sessionId =>
    have hseen : (∀ token ∈ (AuthenticationEvent.loggedOut sessionId).tokens,
        token ∈ ([] ++ s.tokens)) ∧
        ∀ id ∈ (AuthenticationEvent.loggedOut sessionId).ids, id ∈ ([sessionId] ++ s.ids) :=
      ⟨fun token ht => (by cases ht), fun id hi => List.mem_append_left _ hi⟩
    simp only [AuthenticationRun.perform, AuthenticationRun.log, AuthenticationRun.effect, logout]
    cases hrow : s.store.sessions.get? sessionId with
    | none =>
      refine .single (.ignore hseen (.inl ⟨sessionId, .inl rfl, ?_⟩))
      intro row hfound
      rw [show s.store.sessions.get? sessionId = some row from hfound] at hrow
      cases hrow
    | some row =>
      obtain rfl : row.id = sessionId := Table.key_of_get? hrow
      by_cases hlive : row.revokedAt = none
      · simp only [hlive, if_true]
        exact .single (.revoke hrow hseen (.inl rfl))
      · simp only [hlive, if_false]
        refine .single (.ignore hseen (.inl ⟨row.id, .inl rfl, ?_⟩))
        intro other hother
        obtain rfl : row = other := Option.some.inj (hrow.symm.trans hother)
        exact Option.isSome_iff_ne_none.mpr hlive
  | rotateCsrf rawToken sessionId =>
    simp only [AuthenticationRun.perform, AuthenticationRun.log, AuthenticationRun.effect,
      rotateCsrf, List.append_nil]
    cases hrow : s.store.sessions.get? sessionId with
    | none => exact .refl
    | some row =>
      obtain rfl : row.id = sessionId := Table.key_of_get? hrow
      by_cases hrefused : (row.revokedAt.isSome || row.expired now) = true
      · simp only [hrefused, if_true]
        exact .refl
      · simp only [hrefused]
        exact .single (.rotate _ hrow)
  | cleanup =>
    simp only [AuthenticationRun.perform, AuthenticationRun.log, AuthenticationRun.effect,
      cleanupStaleSessions, List.append_nil]
    exact .single .clean

/-! ### Users and proofs -/

def AuthenticationEvent.isBootstrapped : AuthenticationEvent → Bool
  | bootstrapped _ => true
  | _ => false

/-- The password was chosen with the bootstrap, or matched the hash that was stored. -/
def PasswordProof.Holds (hasher : PasswordHasher) : PasswordProof → Prop
  | chosen => True
  | verified passwordHash password => hasher.verify passwordHash password = true

/-- How a call changes the account: it consumes a bootstrap token where there was no user, or
consumes none and leaves the user; and every session it issues has its proof. -/
structure AccountStep (hasher : PasswordHasher) (store store' : AuthenticationStore)
    (events : List AuthenticationEvent) : Prop where
  user : (events.countP (·.isBootstrapped) = 0 ∧ store'.user.isSome = store.user.isSome) ∨
    (events.countP (·.isBootstrapped) = 1 ∧ store.user = none ∧ store'.user.isSome = true)
  proofs : ∀ token id issuedAt proof, .issued token id issuedAt proof ∈ events →
    proof.Holds hasher

theorem AccountStep.same {store store' : AuthenticationStore}
    (h : store'.user.isSome = store.user.isSome) : AccountStep hasher store store' [] :=
  ⟨.inl ⟨rfl, h⟩, fun _ _ _ _ hmem => by cases hmem⟩

/-- A session issued on a verified password. -/
theorem AccountStep.issue {store store' : AuthenticationStore} {user : LocalUser}
    {password token : String} {id : UUID} {before : List AuthenticationEvent}
    (huser : store.user = some user) (hsome : store'.user.isSome = true)
    (hverify : hasher.verify user.passwordHash password = true)
    (hbefore : ∀ event ∈ before, event.isBootstrapped = false ∧
      ∀ token id issuedAt proof, event ≠ .issued token id issuedAt proof) :
    AccountStep hasher store store' (before ++ [.issued token id now (store.proof password)]) := by
  have hproof : store.proof password = .verified user.passwordHash password := by
    rw [AuthenticationStore.proof, huser]
  refine ⟨.inl ⟨?_, ?_⟩, ?_⟩
  · rw [List.countP_append, List.countP_eq_zero.mpr]
    · rfl
    · intro event hevent
      simp [(hbefore event hevent).1]
  · rw [hsome, huser]
    rfl
  · intro token' id' issuedAt' proof' hmem
    rcases List.mem_append.mp hmem with hmem | hmem
    · exact absurd rfl ((hbefore _ hmem).2 token' id' issuedAt' proof')
    · simp only [List.mem_singleton, AuthenticationEvent.issued.injEq] at hmem
      obtain ⟨-, -, -, rfl⟩ := hmem
      rw [hproof]
      exact hverify

theorem AuthenticationRun.accountStep (svc : AuthenticationService) (rt : Runtime)
    (hasher : PasswordHasher) (now : Time) (store : AuthenticationStore)
    (a : AuthenticationAction) :
    AccountStep hasher store (effect svc rt hasher now store a).1
      (effect svc rt hasher now store a).2 := by
  cases a with
  | generateBootstrapToken rawToken =>
    refine .same ?_
    by_cases huser : store.user.isSome = true <;>
      simp [effect, generateBootstrapToken, huser]
  | bootstrap fresh salt bootstrapToken password =>
    rcases bootstrap_cases svc rt hasher now fresh salt bootstrapToken password store with
      ⟨error, herror⟩ | ⟨issued, store', huser, hissue, hok⟩
    · simp only [effect, herror, issuedEvents]
      exact .same rfl
    · obtain ⟨-, -, hsame⟩ := issued_of_issueSession hissue
      simp only [effect, hok, issuedEvents]
      refine ⟨.inr ⟨rfl, huser, by rw [hsame]; rfl⟩, ?_⟩
      intro token id issuedAt proof hmem
      simp only [List.cons_append, List.nil_append, List.mem_cons, List.not_mem_nil, or_false,
        reduceCtorEq, false_or, AuthenticationEvent.issued.injEq] at hmem
      obtain ⟨-, -, -, rfl⟩ := hmem
      trivial
  | login fresh salt password existing =>
    rcases login_cases svc rt hasher now fresh salt password existing store with
      ⟨error, store', -, huser, herror⟩ | ⟨user, issued, store', huser, hverify, hissue, hok⟩
    · simp only [effect, herror, issuedEvents]
      exact .same (by rw [huser])
    · obtain ⟨-, -, hsame⟩ := issued_of_issueSession hissue
      simp only [effect, hok, issuedEvents]
      refine .issue huser (by rw [hsame]; rfl) hverify ?_
      intro event hevent
      obtain ⟨token, -, rfl⟩ := List.mem_map.mp hevent
      exact ⟨rfl, by simp⟩
  | authenticate presented =>
    cases presented with
    | none => exact .same rfl
    | some token =>
      rcases authenticate_cases svc rt now token store with
        ⟨hnone, -⟩ | ⟨row, -, -, -, hnone⟩ | ⟨row, -, -, -, -, hsome⟩
      · simp only [effect, hnone]
        exact .same rfl
      · simp only [effect, hnone]
        exact .same rfl
      · simp only [effect, hsome]
        exact ⟨.inl ⟨rfl, rfl⟩, by simp⟩
  | reauthenticate fresh salt sessionId password =>
    rcases reauthenticate_cases svc rt hasher now fresh salt sessionId password store with
      ⟨error, store', -, huser, herror⟩ | ⟨row, -, -, herror⟩ |
        ⟨row, user, issued, store', -, -, huser, hverify, hissue, hok⟩
    · simp only [effect, herror, issuedEvents]
      exact .same (by rw [huser])
    · simp only [effect, herror, issuedEvents]
      exact .same rfl
    · obtain ⟨-, -, hsame⟩ := issued_of_issueSession hissue
      simp only [effect, hok, issuedEvents]
      refine .issue huser (by rw [hsame]; rfl) hverify ?_
      intro event hevent
      obtain rfl := List.mem_singleton.mp hevent
      exact ⟨rfl, by simp⟩
  | logout sessionId =>
    refine ⟨.inl ⟨rfl, ?_⟩, by simp [effect]⟩
    simp only [effect, logout]
    cases store.sessions.get? sessionId with
    | none => rfl
    | some row => by_cases hlive : row.revokedAt = none <;> simp [hlive]
  | rotateCsrf rawToken sessionId =>
    refine .same ?_
    simp only [effect, rotateCsrf]
    cases store.sessions.get? sessionId with
    | none => rfl
    | some row =>
      by_cases hrefused : (row.revokedAt.isSome || row.expired now) = true <;> simp [hrefused]
  | cleanup => exact .same rfl

/-! ### Runs -/

structure AuthenticationRun.Kept (svc : AuthenticationService) (rt : Runtime)
    (hasher : PasswordHasher) (admitted : String → Prop) (s : AuthenticationRun) : Prop where
  log : s.log.Kept svc rt admitted s.now
  user : s.events.countP (·.isBootstrapped) = if s.store.user.isSome then 1 else 0
  proofs : ∀ token id issuedAt proof, .issued token id issuedAt proof ∈ s.events →
    proof.Holds hasher

theorem AuthenticationRun.Kept.perform {s : AuthenticationRun} {a : AuthenticationAction}
    (hdiffer : TokensDiffer rt admitted) (h : s.Kept svc rt hasher admitted)
    (hnow : s.now ≤ now) (hadmits : s.Admits admitted a) :
    (s.perform svc rt hasher now a).Kept svc rt hasher admitted where
  log := (AuthenticationRun.steps_of_perform hadmits).kept hdiffer (h.log.advance hnow)
  user := by
    have haccount := (AuthenticationRun.accountStep svc rt hasher now s.store a).user
    change (s.events ++ _).countP _ = _
    rw [List.countP_append, h.user]
    rcases haccount with ⟨hcount, huser⟩ | ⟨hcount, hnone, hsome⟩
    · rw [hcount, ← huser, add_zero]
      rfl
    · rw [hcount, hnone]
      exact (if_pos hsome).symm
  proofs token id issuedAt proof hmem := by
    rcases List.mem_append.mp hmem with hmem | hmem
    · exact h.proofs token id issuedAt proof hmem
    · exact (AuthenticationRun.accountStep svc rt hasher now s.store a).proofs _ _ _ _ hmem

theorem AuthenticationRun.kept_of_reachable (hdiffer : TokensDiffer rt admitted)
    {s : AuthenticationRun} (hs : (authenticationSystem svc rt hasher admitted).Reachable s) :
    s.Kept svc rt hasher admitted := by
  refine hs.invariant ?_ ?_
  · rintro s rfl
    refine ⟨⟨by simp [AuthenticationRun.log], ?_, ?_, ?_⟩, rfl, by simp⟩
    · exact fun row hrow => absurd hrow List.not_mem_nil
    · intro token id issuedAt proof token' id' issuedAt' proof' hmem
      exact absurd hmem List.not_mem_nil
    · exact fun token id issuedAt proof hmem => absurd hmem List.not_mem_nil
  · rintro s t hs ⟨a, now, hnow, hadmits, rfl⟩
    exact hs.perform hdiffer hnow hadmits

/-- A refused token stays refused. -/
theorem AuthenticationRun.refuses_of_run (hdiffer : TokensDiffer rt admitted) {token : String}
    (hadmitted : admitted token) {s t : AuthenticationRun}
    (hrun : Relation.ReflTransGen (authenticationSystem svc rt hasher admitted).step s t)
    (h : s.Kept svc rt hasher admitted) (hrefuses : s.log.Refuses svc s.now token) :
    t.Kept svc rt hasher admitted ∧ t.log.Refuses svc t.now token := by
  induction hrun with
  | refl => exact ⟨h, hrefuses⟩
  | tail _ hstep ih =>
    obtain ⟨a, now, hnow, hadmits, rfl⟩ := hstep
    refine ⟨ih.1.perform hdiffer hnow hadmits, ?_⟩
    have hlater : SessionLog.Refuses svc now _ token :=
      ⟨ih.2.seen, fun time htime => ih.2.refused time (hnow.trans htime)⟩
    exact SessionSteps.refuses hdiffer hadmitted (AuthenticationRun.steps_of_perform hadmits)
      (ih.1.log.advance hnow) hlater

/-- What a use of an accepted token says of its password. -/
theorem AuthenticationRun.Kept.recent (hdiffer : TokensDiffer rt admitted)
    {s : AuthenticationRun} (h : s.Kept svc rt hasher admitted) {token : String}
    (hadmitted : admitted token) {time : Time} {session : AuthenticatedSession}
    (hsome : (svc.authenticate rt time (some token) s.store).1 = some session) :
    ∃ issuedAt proof, .issued token session.sessionId issuedAt proof ∈ s.events ∧
      proof.Holds hasher ∧ (session.recentPasswordVerified = true →
        issuedAt ≤ time ∧ time < issuedAt + svc.reauthenticationTtl) := by
  rcases authenticate_cases svc rt time token s.store with
    ⟨hnone, -⟩ | ⟨row, -, -, -, hnone⟩ | ⟨row, -, hfound, hlive, -, hrow⟩
  · rw [hnone] at hsome
    cases hsome
  · rw [hnone] at hsome
    cases hsome
  · rw [hrow] at hsome
    obtain rfl := Option.some.inj hsome
    obtain ⟨issuedAt, proof, last, hissued, -, -, hrow⟩ :=
      h.log.live_of_found hdiffer hadmitted hfound hlive
    refine ⟨issuedAt, proof, hissued, h.proofs _ _ _ _ hissued, ?_⟩
    intro hrecent
    simp only [AuthenticationService.authenticationFromRecord, Bool.and_eq_true,
      decide_eq_true_eq, hrow.reauthenticated] at hrecent
    exact hrecent

/-- A token is accepted when its history says so, and once refused it stays refused; a recent
password was proven when that session was issued; and there is one user, from one token. -/
structure AuthenticationRun.Promises (svc : AuthenticationService) (rt : Runtime)
    (hasher : PasswordHasher) (admitted : String → Prop) (s : AuthenticationRun) : Prop where
  accepted : ∀ token, admitted token → ∀ time, s.now ≤ time →
    ((svc.authenticate rt time (some token) s.store).1.isSome = true ↔
      Accepted svc s.events token time)
  refused : ∀ token, admitted token → ∀ time, s.now ≤ time →
    (svc.authenticate rt time (some token) s.store).1 = none → ∀ t : AuthenticationRun,
    Relation.ReflTransGen (authenticationSystem svc rt hasher admitted).step
      (s.perform svc rt hasher time (.authenticate (some token))) t →
    ∀ time', t.now ≤ time' → (svc.authenticate rt time' (some token) t.store).1 = none
  recent : ∀ token, admitted token → ∀ time, s.now ≤ time → ∀ session,
    (svc.authenticate rt time (some token) s.store).1 = some session →
    session.recentPasswordVerified = true →
    ∃ issuedAt proof, .issued token session.sessionId issuedAt proof ∈ s.events ∧
      proof.Holds hasher ∧ issuedAt ≤ time ∧ time < issuedAt + svc.reauthenticationTtl
  once : s.events.countP (·.isBootstrapped) ≤ 1

theorem AuthenticationRun.Kept.authenticate_iff (hdiffer : TokensDiffer rt admitted)
    {s : AuthenticationRun} (h : s.Kept svc rt hasher admitted) {token : String}
    (hadmitted : admitted token) {time : Time} (htime : s.now ≤ time) :
    (svc.authenticate rt time (some token) s.store).1.isSome = true ↔
      Accepted svc s.events token time :=
  (authenticate_isSome_iff svc rt time token s.store).trans
    (h.log.accepts_iff hdiffer hadmitted htime)

theorem AuthenticationRun.authentication_promises_kept (hdiffer : TokensDiffer rt admitted)
    {s : AuthenticationRun} (hs : (authenticationSystem svc rt hasher admitted).Reachable s) :
    s.Promises svc rt hasher admitted := by
  have h := AuthenticationRun.kept_of_reachable hdiffer hs
  refine ⟨fun token hadmitted time htime => h.authenticate_iff hdiffer hadmitted htime,
    ?_, ?_, ?_⟩
  · intro token hadmitted time htime hnone t hrun time' htime'
    have hadmits : s.Admits admitted (.authenticate (some token)) := by
      refine ⟨fun other hother => ?_, fun fresh hfresh => by cases hfresh⟩
      obtain rfl := List.mem_singleton.mp hother
      exact hadmitted
    have hevents : (s.perform svc rt hasher time (.authenticate (some token))).events =
        s.events := by
      simp only [AuthenticationRun.perform, AuthenticationRun.effect, hnone, Option.isSome_none,
        Bool.false_eq_true, if_false, List.append_nil]
    have hrefuses : SessionLog.Refuses svc time
        (s.perform svc rt hasher time (.authenticate (some token))).log token := by
      refine ⟨List.mem_cons_self, fun time' htime' haccepted => ?_⟩
      change Accepted svc (s.perform svc rt hasher time _).events token time' at haccepted
      rw [hevents] at haccepted
      have hsome := (h.authenticate_iff hdiffer hadmitted htime).mpr (haccepted.of_le htime')
      rw [hnone] at hsome
      cases hsome
    obtain ⟨hkept, hlater⟩ := AuthenticationRun.refuses_of_run hdiffer hadmitted hrun
      (h.perform hdiffer htime hadmits) hrefuses
    rw [← Option.not_isSome_iff_eq_none, hkept.authenticate_iff hdiffer hadmitted htime']
    exact hlater.refused time' htime'
  · intro token hadmitted time _ session hsome hrecent
    obtain ⟨issuedAt, proof, hissued, hproof, htimes⟩ := h.recent hdiffer hadmitted hsome
    exact ⟨issuedAt, proof, hissued, hproof, htimes hrecent⟩
  · rw [h.user]
    by_cases huser : s.store.user.isSome = true <;> simp [huser]

end

/-! ### A run -/

theorem defaultLifetimes : 0 < seconds 1800 ∧ 0 < seconds 28800 ∧ seconds 1800 ≤ seconds 28800 ∧
    0 < seconds 300 := by decide

def defaultAuthenticationService : AuthenticationService := { valid := defaultLifetimes }

def plainHasher : PasswordHasher where
  hash _ password := password
  verify passwordHash password := passwordHash == password
  checkNeedsRehash _ := false
  dummyPasswordHash := ""

/-- A token of one letter. -/
def letterToken (c : Char) : String := String.ofList (List.replicate 43 c)

def firstSession : FreshSession := ⟨.ofNat 1, letterToken 's', letterToken 'c'⟩

def firstPassword : String := String.ofList (List.replicate 15 'p')

/-- The bootstrap token is generated, and presented a microsecond later. -/
def bootstrappedRun : AuthenticationRun :=
  AuthenticationRun.perform defaultAuthenticationService .plain plainHasher
    (AuthenticationRun.perform defaultAuthenticationService .plain plainHasher {} 0
      (.generateBootstrapToken (letterToken 'b'))) 1
    (.bootstrap firstSession 0 (letterToken 'b') firstPassword)

theorem letterToken_canonical : tokenIsCanonical (letterToken 's') = true := by decide +kernel

theorem bootstrappedRun_reachable :
    (authenticationSystem defaultAuthenticationService .plain plainHasher
      (· = letterToken 's')).Reachable bootstrappedRun := by
  have h0 : (authenticationSystem defaultAuthenticationService .plain plainHasher
      (· = letterToken 's')).Reachable {} := .of_init rfl
  have h1 := h0.tail ⟨.generateBootstrapToken (letterToken 'b'), 0, le_rfl,
    ⟨fun token htoken => (by cases htoken), fun fresh hfresh => (by cases hfresh)⟩, rfl⟩
  refine h1.tail ⟨.bootstrap firstSession 0 (letterToken 'b') firstPassword, 1, by decide, ?_, rfl⟩
  refine ⟨fun token htoken => (by cases htoken), fun fresh hfresh => ?_⟩
  obtain rfl : firstSession = fresh := Option.some.inj hfresh
  exact ⟨rfl, letterToken_canonical, List.not_mem_nil, List.not_mem_nil⟩

theorem bootstrappedRun_promises : bootstrappedRun.events.countP (·.isBootstrapped) = 1 ∧
    bootstrappedRun.Promises defaultAuthenticationService .plain plainHasher
      (· = letterToken 's') :=
  ⟨by decide +kernel, AuthenticationRun.authentication_promises_kept
    (fun a b ha hb _ => ha.trans hb.symm) bootstrappedRun_reachable⟩

end ControlPlane
