import ControlPlane.Authentication.Sessions
import Mathlib.Data.List.Chain

/-!
# What becomes of a session

Every operation on the sessions is a few small changes: stale rows are deleted, an expired row
is dropped, a row is revoked, used or issued. Beside the rows stands the history of what
happened to each token, and the invariant says that the rows know no more and no less than the
history: a live row is one that was issued, used often enough, and never revoked.

## Main results

* `SessionStep.kept`: every change keeps the invariant.
* `SessionLog.Kept.accepts_iff`: a token is accepted by the rows when the history accepts it.
-/
namespace ControlPlane

/-! ### The history -/

/-- How the password of a session was proven when it was issued: it was chosen with the
bootstrap, or it matched the stored hash. -/
inductive PasswordProof where
  | chosen
  | verified (passwordHash password : String)
  deriving DecidableEq

inductive AuthenticationEvent where
  | bootstrapped (tokenDigest : String)
  | issued (token : String) (sessionId : UUID) (issuedAt : Time) (proof : PasswordProof)
  | used (token : String) (usedAt : Time)
  | loggedOut (sessionId : UUID)
  | reauthenticated (sessionId : UUID)
  | presentedAtLogin (token : String)
  deriving DecidableEq

namespace AuthenticationEvent

def tokens : AuthenticationEvent → List String
  | issued token _ _ _ => [token]
  | used token _ => [token]
  | presentedAtLogin token => [token]
  | _ => []

def ids : AuthenticationEvent → List UUID
  | issued _ id _ _ => [id]
  | loggedOut id => [id]
  | reauthenticated id => [id]
  | _ => []

/-- The time a token was issued or used. -/
def use? (token : String) : AuthenticationEvent → Option Time
  | issued token' _ time _ => if token' = token then some time else none
  | used token' time => if token' = token then some time else none
  | _ => none

def Revokes (token : String) (id : UUID) : AuthenticationEvent → Prop
  | loggedOut id' => id' = id
  | reauthenticated id' => id' = id
  | presentedAtLogin token' => token' = token
  | _ => False

end AuthenticationEvent

def usesOf (token : String) (events : List AuthenticationEvent) : List Time :=
  events.filterMap (AuthenticationEvent.use? token)

def Revoked (token : String) (id : UUID) (events : List AuthenticationEvent) : Prop :=
  ∃ event ∈ events, event.Revokes token id

/-- The token was issued and not revoked, its absolute lifetime is not over, and no two
consecutive uses, the one at hand included, are an idle lifetime or more apart. -/
def Accepted (svc : AuthenticationService) (events : List AuthenticationEvent) (token : String)
    (time : Time) : Prop :=
  ∃ id issuedAt proof, .issued token id issuedAt proof ∈ events ∧ ¬ Revoked token id events ∧
    time < issuedAt + svc.absoluteTtl ∧
    (usesOf token events ++ [time]).IsChain fun a b => b < a + svc.idleTtl

/-- The sessions, their history, and the tokens and identifiers that were drawn or presented. -/
structure SessionLog where
  sessions : Table AuthSession := .empty
  events : List AuthenticationEvent := []
  tokens : List String := []
  ids : List UUID := []

namespace SessionLog

def record (c : SessionLog) (event : AuthenticationEvent) : SessionLog :=
  { c with events := c.events ++ [event] }

def withSessions (c : SessionLog) (sessions : Table AuthSession) : SessionLog :=
  { c with sessions }

end SessionLog

/-- No two admitted tokens have one digest. -/
def TokensDiffer (rt : Runtime) (admitted : String → Prop) : Prop :=
  ∀ a b, admitted a → admitted b → tokenDigest rt a = tokenDigest rt b → a = b

/-- The changes the operations are made of, at one time. -/
inductive SessionStep (svc : AuthenticationService) (rt : Runtime) (admitted : String → Prop)
    (now : Time) : SessionLog → SessionLog → Prop
  | present {c : SessionLog} (tokens : List String) (ids : List UUID) :
    SessionStep svc rt admitted now c
      { c with tokens := tokens ++ c.tokens, ids := ids ++ c.ids }
  | note {c : SessionLog} (digest : String) :
    SessionStep svc rt admitted now c (c.record (.bootstrapped digest))
  | clean {c : SessionLog} :
    SessionStep svc rt admitted now c (c.withSessions (deleteStaleSessions now c.sessions))
  | drop {c : SessionLog} {row : AuthSession} (hrow : c.sessions.get? row.id = some row)
    (hexpired : row.expired now = true) :
    SessionStep svc rt admitted now c (c.withSessions (deleteSession row.id c.sessions))
  | revoke {c : SessionLog} {row : AuthSession} {event : AuthenticationEvent}
    (hrow : c.sessions.get? row.id = some row)
    (hseen : (∀ token ∈ event.tokens, token ∈ c.tokens) ∧ ∀ id ∈ event.ids, id ∈ c.ids)
    (hevent : event = .loggedOut row.id ∨ event = .reauthenticated row.id ∨
      ∃ token, event = .presentedAtLogin token ∧ admitted token ∧
        row.tokenDigest = tokenDigest rt token) :
    SessionStep svc rt admitted now c
      ((c.withSessions (c.sessions.set { row with revokedAt := some now })).record event)
  | ignore {c : SessionLog} {event : AuthenticationEvent}
    (hseen : (∀ token ∈ event.tokens, token ∈ c.tokens) ∧ ∀ id ∈ event.ids, id ∈ c.ids)
    (hevent : (∃ id, (event = .loggedOut id ∨ event = .reauthenticated id) ∧
        ∀ row, c.sessions.get? id = some row → row.revokedAt.isSome) ∨
      ∃ token, event = .presentedAtLogin token ∧ (tokenIsCanonical token = true →
        ∀ row, sessionOfToken rt token c.sessions = some row → row.revokedAt.isSome)) :
    SessionStep svc rt admitted now c (c.record event)
  | use {c : SessionLog} {row : AuthSession} {token : String}
    (hrow : c.sessions.get? row.id = some row) (hadmitted : admitted token)
    (hseen : token ∈ c.tokens) (hdigest : row.tokenDigest = tokenDigest rt token)
    (hlive : row.revokedAt = none) (hexpired : row.expired now = false) :
    SessionStep svc rt admitted now c ((c.withSessions (c.sessions.set { row with
      lastSeenAt := now
      expiresAt := min (now + svc.idleTtl) row.absoluteExpiresAt })).record (.used token now))
  | rotate {c : SessionLog} {row : AuthSession} (digest : String)
    (hrow : c.sessions.get? row.id = some row) :
    SessionStep svc rt admitted now c
      (c.withSessions (c.sessions.set { row with csrfTokenDigest := digest }))
  | issue {c : SessionLog} {fresh : FreshSession} {sessions : Table AuthSession}
    (proof : PasswordProof) (hadmitted : admitted fresh.sessionToken)
    (hcanonical : tokenIsCanonical fresh.sessionToken = true)
    (htoken : fresh.sessionToken ∉ c.tokens) (hid : fresh.id ∉ c.ids)
    (hinsert : c.sessions.insert? (svc.newRecord rt now fresh) = some sessions) :
    SessionStep svc rt admitted now c
      { sessions
        events := c.events ++ [.issued fresh.sessionToken fresh.id now proof]
        tokens := fresh.sessionToken :: c.tokens
        ids := fresh.id :: c.ids }

/-! ### The invariant -/

section
variable {svc : AuthenticationService} {rt : Runtime} {admitted : String → Prop}
  {now now' : Time} {c c' : SessionLog} {token : String} {id : UUID} {issuedAt last : Time}

/-- The row of a session that was issued and is not revoked. -/
structure LiveRow (svc : AuthenticationService) (rt : Runtime) (sessions : Table AuthSession)
    (token : String) (id : UUID) (issuedAt last : Time) (row : AuthSession) : Prop where
  found : sessions.get? id = some row
  digest : row.tokenDigest = tokenDigest rt token
  user : row.userId = localUserId
  live : row.revokedAt = none
  expires : row.expiresAt = min (last + svc.idleTtl) (issuedAt + svc.absoluteTtl)
  absolute : row.absoluteExpiresAt = issuedAt + svc.absoluteTtl
  reauthenticated : row.reauthenticatedAt = issuedAt

/-- What the rows hold of an issued token: the live row of its last use, or nothing any more. -/
def RowStatus (svc : AuthenticationService) (rt : Runtime) (now : Time) (c : SessionLog)
    (token : String) (id : UUID) (issuedAt last : Time) : Prop :=
  (¬ Revoked token id c.events ∧ ∃ row, LiveRow svc rt c.sessions token id issuedAt last row) ∨
    ((∀ row, c.sessions.get? id = some row → row.revokedAt.isSome) ∧
      (Revoked token id c.events ∨ min (last + svc.idleTtl) (issuedAt + svc.absoluteTtl) ≤ now))

/-- An issued token, with its uses so far. -/
structure TokenKept (svc : AuthenticationService) (rt : Runtime) (now : Time) (c : SessionLog)
    (token : String) (id : UUID) (issuedAt last : Time) : Prop where
  last_use : (usesOf token c.events).getLast? = some last
  spaced : (usesOf token c.events).IsChain fun a b => b < a + svc.idleTtl
  issued_le : issuedAt ≤ last
  last_le : last ≤ now
  within : last < issuedAt + svc.absoluteTtl
  status : RowStatus svc rt now c token id issuedAt last

structure SessionLog.Kept (svc : AuthenticationService) (rt : Runtime) (admitted : String → Prop)
    (now : Time) (c : SessionLog) : Prop where
  seen : ∀ event ∈ c.events, (∀ token ∈ event.tokens, token ∈ c.tokens) ∧
    ∀ id ∈ event.ids, id ∈ c.ids
  rows : ∀ row ∈ c.sessions, ∃ token issuedAt proof,
    .issued token row.id issuedAt proof ∈ c.events ∧ row.tokenDigest = tokenDigest rt token
  once : ∀ token id issuedAt proof token' id' issuedAt' proof',
    .issued token id issuedAt proof ∈ c.events → .issued token' id' issuedAt' proof' ∈ c.events →
    token = token' ∨ id = id' → token = token' ∧ id = id' ∧ issuedAt = issuedAt'
  issued : ∀ token id issuedAt proof, .issued token id issuedAt proof ∈ c.events →
    admitted token ∧ tokenIsCanonical token = true ∧
      ∃ last, TokenKept svc rt now c token id issuedAt last

/-! ### Histories that grow -/

theorem usesOf_append {events new : List AuthenticationEvent} :
    usesOf token (events ++ new) = usesOf token events ++ usesOf token new := by
  simp [usesOf, List.filterMap_append]

theorem revoked_append {events new : List AuthenticationEvent} :
    Revoked token id (events ++ new) ↔ Revoked token id events ∨ Revoked token id new := by
  simp only [Revoked, List.mem_append, or_and_right, exists_or]

@[simp] theorem revoked_singleton {event : AuthenticationEvent} :
    Revoked token id [event] ↔ event.Revokes token id := by
  simp [Revoked]

theorem AuthenticationEvent.use?_of_not_mem {event : AuthenticationEvent}
    (h : token ∉ event.tokens) : event.use? token = none := by
  cases event <;> simp_all [AuthenticationEvent.tokens, AuthenticationEvent.use?, eq_comm]

theorem usesOf_eq_nil {events : List AuthenticationEvent}
    (h : ∀ event ∈ events, token ∉ event.tokens) : usesOf token events = [] := by
  simp only [usesOf, List.filterMap_eq_nil_iff]
  exact fun event hevent => AuthenticationEvent.use?_of_not_mem (h event hevent)

theorem AuthenticationEvent.not_revokes {event : AuthenticationEvent}
    (htoken : token ∉ event.tokens) (hid : id ∉ event.ids) : ¬ event.Revokes token id := by
  cases event <;> simp_all [AuthenticationEvent.tokens, AuthenticationEvent.ids,
    AuthenticationEvent.Revokes, eq_comm]

theorem mem_of_sessionOfToken {sessions : Table AuthSession} {row : AuthSession}
    (h : sessionOfToken rt token sessions = some row) :
    row ∈ sessions ∧ row.tokenDigest = tokenDigest rt token :=
  ⟨List.mem_of_find?_eq_some h, by simpa using List.find?_some h⟩

/-! ### What a change does to one token -/

/-- A change that leaves the uses of a token. -/
theorem TokenKept.of_status (h : TokenKept svc rt now c token id issuedAt last)
    (hnow : now ≤ now') (huses : usesOf token c'.events = usesOf token c.events)
    (hstatus : RowStatus svc rt now' c' token id issuedAt last) :
    TokenKept svc rt now' c' token id issuedAt last where
  last_use := by rw [huses, h.last_use]
  spaced := by
    rw [huses]
    exact h.spaced
  issued_le := h.issued_le
  last_le := h.last_le.trans hnow
  within := h.within
  status := hstatus

theorem RowStatus.advance (h : RowStatus svc rt now c token id issuedAt last) (hnow : now ≤ now') :
    RowStatus svc rt now' c token id issuedAt last :=
  h.imp_right fun hgone => hgone.imp_right fun hwhy => hwhy.imp_right fun hle => hle.trans hnow

/-- Rows that are revoked or expired may go. -/
theorem RowStatus.deleteWhere (h : RowStatus svc rt now c token id issuedAt last)
    {p : AuthSession → Bool}
    (hp : ∀ row, c.sessions.get? row.id = some row → p row = true →
      row.revokedAt.isSome ∨ row.expired now = true) :
    RowStatus svc rt now (c.withSessions (c.sessions.deleteWhere p)) token id issuedAt last := by
  have hsub : ∀ row, (c.sessions.deleteWhere p).get? id = some row →
      c.sessions.get? id = some row ∧ p row = false := by
    intro row hrow
    rw [Table.get?_deleteWhere, Option.filter_eq_some_iff] at hrow
    simpa using hrow
  rcases h with ⟨hrevoked, row, hrow⟩ | ⟨hrows, hwhy⟩
  · have hid : row.id = id := Table.key_of_get? hrow.found
    cases hdeleted : p row with
    | false =>
      refine .inl ⟨hrevoked, row, ?_, hrow.digest, hrow.user, hrow.live, hrow.expires,
        hrow.absolute, hrow.reauthenticated⟩
      change (c.sessions.deleteWhere p).get? id = some row
      rw [Table.get?_deleteWhere, hrow.found]
      simp [hdeleted]
    | true =>
      refine .inr ⟨?_, .inr ?_⟩
      · intro other hother
        obtain ⟨hfound, hkept⟩ := hsub other hother
        obtain rfl : row = other := Option.some.inj (hrow.found.symm.trans hfound)
        rw [hdeleted] at hkept
        cases hkept
      · rcases hp row (by rw [hid]; exact hrow.found) hdeleted with hsome | hexpired
        · rw [hrow.live] at hsome
          cases hsome
        · simp only [AuthSession.expired, Bool.or_eq_true, decide_eq_true_eq, hrow.expires,
            hrow.absolute] at hexpired
          rcases hexpired with hle | hle
          · exact hle
          · exact (min_le_right _ _).trans hle
  · exact .inr ⟨fun row hrow => hrows row (hsub row hrow).1, hwhy⟩

/-- Where the row of the token is the same. -/
theorem RowStatus.of_get? (h : RowStatus svc rt now c token id issuedAt last)
    (hrow : c'.sessions.get? id = c.sessions.get? id)
    (hrevoked : Revoked token id c'.events ↔ Revoked token id c.events) :
    RowStatus svc rt now c' token id issuedAt last := by
  rcases h with ⟨hnot, row, hlive⟩ | ⟨hrows, hwhy⟩
  · exact .inl ⟨mt hrevoked.mp hnot, row, by rw [hrow, hlive.found], hlive.digest, hlive.user,
      hlive.live, hlive.expires, hlive.absolute, hlive.reauthenticated⟩
  · exact .inr ⟨fun row hfound => hrows row (by rw [← hrow, hfound]),
      hwhy.imp_left hrevoked.mpr⟩

namespace SessionLog.Kept

theorem advance (h : c.Kept svc rt admitted now) (hnow : now ≤ now') :
    c.Kept svc rt admitted now' where
  seen := h.seen
  rows := h.rows
  once := h.once
  issued token id issuedAt proof hissued := by
    obtain ⟨hadmitted, hcanonical, last, hkept⟩ := h.issued token id issuedAt proof hissued
    exact ⟨hadmitted, hcanonical, last,
      hkept.of_status hnow rfl (hkept.status.advance hnow)⟩

/-- A row of an issued token carries its digest. -/
theorem digest_of_row (h : c.Kept svc rt admitted now) {row : AuthSession}
    {proof : PasswordProof} (hrow : row ∈ c.sessions)
    (hissued : .issued token row.id issuedAt proof ∈ c.events) :
    row.tokenDigest = tokenDigest rt token := by
  obtain ⟨token', issuedAt', proof', hissued', hdigest⟩ := h.rows row hrow
  obtain ⟨rfl, -, -⟩ := h.once _ _ _ _ _ _ _ _ hissued' hissued (.inr rfl)
  exact hdigest

/-- The row with the digest of an issued token is the row of that token. -/
theorem id_of_digest (h : c.Kept svc rt admitted now) (hdiffer : TokensDiffer rt admitted)
    {row : AuthSession} {proof : PasswordProof} (hrow : row ∈ c.sessions)
    (hissued : .issued token id issuedAt proof ∈ c.events)
    (hdigest : row.tokenDigest = tokenDigest rt token) : row.id = id := by
  obtain ⟨token', issuedAt', proof', hissued', hdigest'⟩ := h.rows row hrow
  have hsame : token' = token := hdiffer _ _ (h.issued _ _ _ _ hissued').1
    (h.issued _ _ _ _ hissued).1 (hdigest'.symm.trans hdigest)
  exact (h.once _ _ _ _ _ _ _ _ hissued' hissued (.inl hsame)).2.1

/-- The live row of an issued token is the one its digest finds. -/
theorem found_of_live (h : c.Kept svc rt admitted now) (hdiffer : TokensDiffer rt admitted)
    {row : AuthSession} {proof : PasswordProof}
    (hissued : .issued token id issuedAt proof ∈ c.events)
    (hlive : LiveRow svc rt c.sessions token id issuedAt last row) :
    sessionOfToken rt token c.sessions = some row := by
  have hmem := Table.mem_of_get? hlive.found
  cases hfound : sessionOfToken rt token c.sessions with
  | none =>
    have hnone := List.find?_eq_none.mp hfound row hmem
    exact absurd hlive.digest (by simpa using hnone)
  | some row' =>
    obtain ⟨hmem', hdigest'⟩ := mem_of_sessionOfToken hfound
    have hid' : row'.id = id := h.id_of_digest hdiffer hmem' hissued hdigest'
    have hid : row.id = id := Table.key_of_get? hlive.found
    rw [Table.eq_of_key_eq hmem' hmem (hid'.trans hid.symm)]

/-- A change that issues nothing, seen token by token. -/
theorem of_tokens (h : c.Kept svc rt admitted now) (new : List AuthenticationEvent)
    (hevents : c'.events = c.events ++ new)
    (hnew : ∀ token id issuedAt proof, .issued token id issuedAt proof ∉ new)
    (htokens : ∀ token ∈ c.tokens, token ∈ c'.tokens) (hids : ∀ id ∈ c.ids, id ∈ c'.ids)
    (hseen : ∀ event ∈ new, (∀ token ∈ event.tokens, token ∈ c'.tokens) ∧
      ∀ id ∈ event.ids, id ∈ c'.ids)
    (hrows : ∀ row ∈ c'.sessions, ∃ old ∈ c.sessions,
      old.id = row.id ∧ old.tokenDigest = row.tokenDigest)
    (hkept : ∀ token id issuedAt proof last, .issued token id issuedAt proof ∈ c.events →
      TokenKept svc rt now c token id issuedAt last →
      ∃ last', TokenKept svc rt now c' token id issuedAt last') :
    c'.Kept svc rt admitted now := by
  have hissued : ∀ token id issuedAt proof, .issued token id issuedAt proof ∈ c'.events →
      .issued token id issuedAt proof ∈ c.events := by
    intro token id issuedAt proof hmem
    rw [hevents, List.mem_append] at hmem
    exact hmem.resolve_right (hnew token id issuedAt proof)
  refine ⟨?_, ?_, ?_, ?_⟩
  · intro event hevent
    rw [hevents, List.mem_append] at hevent
    rcases hevent with hevent | hevent
    · exact ⟨fun token htoken => htokens token ((h.seen event hevent).1 token htoken),
        fun id hid => hids id ((h.seen event hevent).2 id hid)⟩
    · exact hseen event hevent
  · intro row hrow
    obtain ⟨old, hold, hid, hdigest⟩ := hrows row hrow
    obtain ⟨token, issuedAt, proof, hmem, hold⟩ := h.rows old hold
    refine ⟨token, issuedAt, proof, ?_, hdigest.symm.trans hold⟩
    rw [hevents, ← hid]
    exact List.mem_append_left _ hmem
  · intro token id issuedAt proof token' id' issuedAt' proof' hmem hmem'
    exact h.once _ _ _ _ _ _ _ _ (hissued _ _ _ _ hmem) (hissued _ _ _ _ hmem')
  · intro token id issuedAt proof hmem
    obtain ⟨hadmitted, hcanonical, last, htoken⟩ := h.issued _ _ _ _ (hissued _ _ _ _ hmem)
    exact ⟨hadmitted, hcanonical, hkept _ _ _ _ _ (hissued _ _ _ _ hmem) htoken⟩

end SessionLog.Kept

/-- A row written back with its digest. -/
theorem rows_of_set {sessions : Table AuthSession} {row row' : AuthSession}
    (hrow : sessions.get? row.id = some row) (hid : row'.id = row.id)
    (hdigest : row'.tokenDigest = row.tokenDigest) :
    ∀ other ∈ sessions.set row', ∃ old ∈ sessions,
      old.id = other.id ∧ old.tokenDigest = other.tokenDigest := by
  intro other hother
  have hne : sessions.get? (key row') ≠ none := by
    change sessions.get? row'.id ≠ none
    rw [hid, hrow]
    exact Option.some_ne_none row
  rcases (Table.mem_set hne).mp hother with rfl | ⟨hmem, -⟩
  · exact ⟨row, Table.mem_of_get? hrow, hid.symm, hdigest.symm⟩
  · exact ⟨other, hmem, rfl, rfl⟩

theorem get?_set_row {sessions : Table AuthSession} {row row' : AuthSession}
    (hrow : sessions.get? row.id = some row) (hid : row'.id = row.id) :
    (sessions.set row').get? id = if row.id = id then some row' else sessions.get? id := by
  have hkey : key row' = row.id := hid
  rw [Table.get?_set, hkey]
  by_cases heq : row.id = id
  · rw [if_pos heq, if_pos heq, ← heq, hrow]
    rfl
  · rw [if_neg heq, if_neg heq]

/-- Every change keeps the invariant. -/
theorem SessionStep.kept (hdiffer : TokensDiffer rt admitted)
    (hstep : SessionStep svc rt admitted now c c') (h : c.Kept svc rt admitted now) :
    c'.Kept svc rt admitted now := by
  cases hstep with
  | present tokens ids =>
    refine h.of_tokens [] (by simp) (by simp) ?_ ?_ (by simp) ?_ ?_
    · exact fun token htoken => List.mem_append_right _ htoken
    · exact fun id hid => List.mem_append_right _ hid
    · exact fun row hrow => ⟨row, hrow, rfl, rfl⟩
    · intro token id issuedAt proof last _ hkept
      exact ⟨last, hkept.of_status le_rfl rfl hkept.status⟩
  | note digest =>
    refine h.of_tokens [.bootstrapped digest] rfl (by simp) (fun _ ht => ht) (fun _ hi => hi) ?_
      (fun row hrow => ⟨row, hrow, rfl, rfl⟩) ?_
    · simp [AuthenticationEvent.tokens, AuthenticationEvent.ids]
    · intro token id issuedAt proof last _ hkept
      refine ⟨last, hkept.of_status le_rfl ?_ (hkept.status.of_get? rfl ?_)⟩
      · simp [SessionLog.record, usesOf, AuthenticationEvent.use?]
      · simp [SessionLog.record, revoked_append, AuthenticationEvent.Revokes]
  | clean =>
    refine h.of_tokens [] (by simp [SessionLog.withSessions]) (by simp) (fun _ ht => ht)
      (fun _ hi => hi) (by simp) ?_ ?_
    · exact fun row hrow => ⟨row, Table.mem_of_mem_deleteWhere hrow, rfl, rfl⟩
    · intro token id issuedAt proof last _ hkept
      refine ⟨last, hkept.of_status le_rfl rfl (hkept.status.deleteWhere ?_)⟩
      intro row _ hp
      simpa using hp
  | @drop row hrow hexpired =>
    refine h.of_tokens [] (by simp [SessionLog.withSessions]) (by simp) (fun _ ht => ht)
      (fun _ hi => hi) (by simp) ?_ ?_
    · exact fun row hrow => ⟨row, Table.mem_of_mem_deleteWhere hrow, rfl, rfl⟩
    · intro token id issuedAt proof last _ hkept
      refine ⟨last, hkept.of_status le_rfl rfl (hkept.status.deleteWhere ?_)⟩
      intro other hother hp
      have hid : other.id = row.id := by simpa using hp
      rw [hid, hrow] at hother
      obtain rfl : row = other := Option.some.inj hother
      exact .inr hexpired
  | @revoke row event hrow hseen hevent =>
    have hid : ({ row with revokedAt := some now } : AuthSession).id = row.id := rfl
    refine h.of_tokens [event] rfl ?_ (fun _ ht => ht) (fun _ hi => hi) ?_
      (rows_of_set hrow hid rfl) ?_
    · rintro token id issuedAt proof hmem
      obtain rfl := List.mem_singleton.mp hmem
      rcases hevent with hevent | hevent | ⟨_, hevent, _⟩ <;> cases hevent
    · intro other hother
      obtain rfl := List.mem_singleton.mp hother
      exact hseen
    · intro token id issuedAt proof last hissued hkept
      refine ⟨last, hkept.of_status le_rfl ?_ ?_⟩
      · have hnone : event.use? token = none := by
          rcases hevent with rfl | rfl | ⟨_, rfl, _⟩ <;> rfl
        simp [SessionLog.record, SessionLog.withSessions, usesOf, hnone]
      · have hrevokes : event.Revokes token id ↔ row.id = id := by
          rcases hevent with rfl | rfl | ⟨token', rfl, hadmitted, hdigest⟩
          · exact Iff.rfl
          · exact Iff.rfl
          · constructor
            · rintro rfl
              exact h.id_of_digest hdiffer (Table.mem_of_get? hrow) hissued hdigest
            · rintro rfl
              have hown := h.digest_of_row (Table.mem_of_get? hrow) hissued
              exact hdiffer _ _ hadmitted (h.issued _ _ _ _ hissued).1 (hdigest.symm.trans hown)
        by_cases heq : row.id = id
        · refine .inr ⟨?_, .inl ?_⟩
          · intro other hother
            change (c.sessions.set _).get? id = some other at hother
            rw [get?_set_row hrow hid, if_pos heq] at hother
            obtain rfl := Option.some.inj hother
            rfl
          · exact revoked_append.mpr (.inr (revoked_singleton.mpr (hrevokes.mpr heq)))
        · refine hkept.status.of_get? ?_ ?_
          · change (c.sessions.set _).get? id = _
            rw [get?_set_row hrow hid, if_neg heq]
          · change Revoked token id (c.events ++ [event]) ↔ _
            rw [revoked_append, revoked_singleton, hrevokes, or_iff_left heq]
  | @ignore event hseen hevent =>
    refine h.of_tokens [event] rfl ?_ (fun _ ht => ht) (fun _ hi => hi) ?_
      (fun row hrow => ⟨row, hrow, rfl, rfl⟩) ?_
    · rintro token id issuedAt proof hmem
      obtain rfl := List.mem_singleton.mp hmem
      rcases hevent with ⟨_, hevent | hevent, _⟩ | ⟨_, hevent, _⟩ <;> cases hevent
    · intro other hother
      obtain rfl := List.mem_singleton.mp hother
      exact hseen
    · intro token id issuedAt proof last hissued hkept
      refine ⟨last, hkept.of_status le_rfl ?_ ?_⟩
      · have hnone : event.use? token = none := by
          rcases hevent with ⟨_, rfl | rfl, _⟩ | ⟨_, rfl, _⟩ <;> rfl
        simp [SessionLog.record, usesOf, hnone]
      · rcases hkept.status with ⟨hnot, row, hlive⟩ | ⟨hrows, hwhy⟩
        · refine .inl ⟨?_, row, hlive⟩
          change ¬ Revoked token id (c.events ++ [event])
          rw [revoked_append, revoked_singleton, not_or]
          refine ⟨hnot, fun hrevokes => ?_⟩
          have hsome : row.revokedAt.isSome := by
            rcases hevent with ⟨id', rfl | rfl, hgone⟩ | ⟨token', rfl, hgone⟩
            · exact hgone row ((show id' = id from hrevokes) ▸ hlive.found)
            · exact hgone row ((show id' = id from hrevokes) ▸ hlive.found)
            · obtain rfl : token' = token := hrevokes
              exact hgone (h.issued _ _ _ _ hissued).2.1 row
                (h.found_of_live hdiffer hissued hlive)
          rw [hlive.live] at hsome
          cases hsome
        · exact .inr ⟨hrows, hwhy.imp_left fun hrevoked => revoked_append.mpr (.inl hrevoked)⟩
  | @use row used hrow hadmitted hseen hdigest hlive hexpired =>
    have hid : ({ row with
        lastSeenAt := now
        expiresAt := min (now + svc.idleTtl) row.absoluteExpiresAt } : AuthSession).id = row.id :=
      rfl
    refine h.of_tokens [.used used now] rfl (by simp) (fun _ ht => ht) (fun _ hi => hi) ?_
      (rows_of_set hrow hid rfl) ?_
    · intro event hevent
      obtain rfl := List.mem_singleton.mp hevent
      refine ⟨fun token htoken => ?_, fun id hid => by cases hid⟩
      obtain rfl := List.mem_singleton.mp htoken
      exact hseen
    · intro token id issuedAt proof last hissued hkept
      have hrevoked : Revoked token id (c.events ++ [.used used now]) ↔
          Revoked token id c.events := by
        rw [revoked_append, revoked_singleton]
        exact or_iff_left fun hrevokes => hrevokes
      by_cases heq : row.id = id
      · subst heq
        have hown := h.digest_of_row (Table.mem_of_get? hrow) hissued
        obtain rfl : used = token :=
          hdiffer _ _ hadmitted (h.issued _ _ _ _ hissued).1 (hdigest.symm.trans hown)
        obtain ⟨hnot, row', hlive'⟩ | ⟨hgone, -⟩ := hkept.status
        swap
        · have hsome := hgone row hrow
          rw [hlive] at hsome
          cases hsome
        obtain rfl : row = row' := Option.some.inj (hrow.symm.trans hlive'.found)
        simp only [AuthSession.expired, Bool.or_eq_false_iff, decide_eq_false_iff_not, not_le,
          hlive'.expires, hlive'.absolute, lt_min_iff] at hexpired
        have huses : usesOf used (c.events ++ [.used used now]) =
            usesOf used c.events ++ [now] := by
          simp [usesOf, AuthenticationEvent.use?]
        refine ⟨now, ?_, ?_, hkept.issued_le.trans hkept.last_le, le_rfl, hexpired.2, ?_⟩
        · change (usesOf used (c.events ++ [.used used now])).getLast? = _
          rw [huses, List.getLast?_append]
          rfl
        · change (usesOf used (c.events ++ [.used used now])).IsChain _
          rw [huses, List.isChain_append]
          refine ⟨hkept.spaced, List.isChain_singleton now, ?_⟩
          intro a ha b hb
          obtain rfl : last = a := Option.some.inj (hkept.last_use.symm.trans ha)
          obtain rfl : now = b := Option.some.inj hb
          exact hexpired.1.1
        · refine .inl ⟨mt hrevoked.mp hnot, { row with
            lastSeenAt := now
            expiresAt := min (now + svc.idleTtl) row.absoluteExpiresAt }, ?_, hlive'.digest,
            hlive'.user, hlive'.live, ?_, hlive'.absolute, hlive'.reauthenticated⟩
          · change (c.sessions.set _).get? row.id = some _
            rw [get?_set_row hrow hid, if_pos rfl]
          · change min _ row.absoluteExpiresAt = _
            rw [hlive'.absolute]
      · have hne : used ≠ token := by
          rintro rfl
          exact heq (h.id_of_digest hdiffer (Table.mem_of_get? hrow) hissued hdigest)
        refine ⟨last, hkept.of_status le_rfl ?_ (hkept.status.of_get? ?_ hrevoked)⟩
        · simp [SessionLog.record, SessionLog.withSessions, usesOf, AuthenticationEvent.use?, hne]
        · change (c.sessions.set _).get? id = _
          rw [get?_set_row hrow hid, if_neg heq]
  | @rotate row digest hrow =>
    have hid : ({ row with csrfTokenDigest := digest } : AuthSession).id = row.id := rfl
    refine h.of_tokens [] (by simp [SessionLog.withSessions]) (by simp) (fun _ ht => ht)
      (fun _ hi => hi) (by simp) (rows_of_set hrow hid rfl) ?_
    intro token id issuedAt proof last hissued hkept
    refine ⟨last, hkept.of_status le_rfl rfl ?_⟩
    have hget : (c.sessions.set { row with csrfTokenDigest := digest }).get? id =
        if row.id = id then some { row with csrfTokenDigest := digest } else c.sessions.get? id :=
      get?_set_row hrow hid
    by_cases heq : row.id = id
    · rw [if_pos heq] at hget
      subst heq
      rcases hkept.status with ⟨hnot, row', hlive⟩ | ⟨hgone, hwhy⟩
      · obtain rfl : row = row' := Option.some.inj (hrow.symm.trans hlive.found)
        exact .inl ⟨hnot, _, hget, hlive.digest, hlive.user, hlive.live, hlive.expires,
          hlive.absolute, hlive.reauthenticated⟩
      · refine .inr ⟨?_, hwhy⟩
        intro other hother
        obtain rfl := Option.some.inj (hget.symm.trans hother)
        exact hgone row hrow
    · rw [if_neg heq] at hget
      exact hkept.status.of_get? hget Iff.rfl
  | @issue fresh sessions proof hadmitted hcanonical htoken hid hinsert =>
    have hget : ∀ id, sessions.get? id =
        if fresh.id = id then some (svc.newRecord rt now fresh) else c.sessions.get? id :=
      fun id => Table.get?_insert? hinsert
    have hold : ∀ token id issuedAt proof, .issued token id issuedAt proof ∈ c.events →
        token ≠ fresh.sessionToken ∧ id ≠ fresh.id := by
      intro token id issuedAt proof hmem
      have hseen := h.seen _ hmem
      constructor
      · rintro rfl
        exact htoken (hseen.1 _ List.mem_cons_self)
      · rintro rfl
        exact hid (hseen.2 _ List.mem_cons_self)
    refine ⟨?_, ?_, ?_, ?_⟩
    · intro event hevent
      rcases List.mem_append.mp hevent with hevent | hevent
      · exact ⟨fun t ht => List.mem_cons_of_mem _ ((h.seen event hevent).1 t ht),
          fun i hi => List.mem_cons_of_mem _ ((h.seen event hevent).2 i hi)⟩
      · obtain rfl := List.mem_singleton.mp hevent
        simp [AuthenticationEvent.tokens, AuthenticationEvent.ids]
    · intro row hrow
      rcases (Table.mem_insert? hinsert).mp hrow with hrow | rfl
      · obtain ⟨token, issuedAt, proof', hmem, hdigest⟩ := h.rows row hrow
        exact ⟨token, issuedAt, proof', List.mem_append_left _ hmem, hdigest⟩
      · exact ⟨fresh.sessionToken, now, proof, List.mem_append_right _ List.mem_cons_self, rfl⟩
    · intro token id issuedAt proof token' id' issuedAt' proof' hmem hmem' hsame
      rcases List.mem_append.mp hmem with hmem | hmem <;>
        rcases List.mem_append.mp hmem' with hmem' | hmem'
      · exact h.once _ _ _ _ _ _ _ _ hmem hmem' hsame
      · have hne := hold _ _ _ _ hmem
        simp only [List.mem_singleton, AuthenticationEvent.issued.injEq] at hmem'
        obtain ⟨rfl, rfl, -⟩ := hmem'
        exact (hsame.elim hne.1 hne.2).elim
      · have hne := hold _ _ _ _ hmem'
        simp only [List.mem_singleton, AuthenticationEvent.issued.injEq] at hmem
        obtain ⟨rfl, rfl, -⟩ := hmem
        exact (hsame.elim (fun heq => hne.1 heq.symm) fun heq => hne.2 heq.symm).elim
      · simp only [List.mem_singleton, AuthenticationEvent.issued.injEq] at hmem hmem'
        obtain ⟨rfl, rfl, rfl, -⟩ := hmem
        obtain ⟨rfl, rfl, rfl, -⟩ := hmem'
        exact ⟨rfl, rfl, rfl⟩
    · intro token id issuedAt proof' hmem
      rcases List.mem_append.mp hmem with hmem | hmem
      · obtain ⟨hadmitted', hcanonical', last, hkept⟩ := h.issued _ _ _ _ hmem
        obtain ⟨htokenne, hidne⟩ := hold _ _ _ _ hmem
        refine ⟨hadmitted', hcanonical', last, hkept.of_status le_rfl ?_
          (hkept.status.of_get? ?_ ?_)⟩
        · simp [usesOf, AuthenticationEvent.use?, Ne.symm htokenne]
        · rw [hget, if_neg (Ne.symm hidne)]
        · rw [revoked_append, revoked_singleton]
          exact or_iff_left fun hrevokes => hrevokes
      · simp only [List.mem_singleton, AuthenticationEvent.issued.injEq] at hmem
        obtain ⟨rfl, rfl, rfl, -⟩ := hmem
        have hnone : usesOf fresh.sessionToken c.events = [] :=
          usesOf_eq_nil fun event hevent hmem => htoken ((h.seen event hevent).1 _ hmem)
        have huses : usesOf fresh.sessionToken
            (c.events ++ [.issued fresh.sessionToken fresh.id issuedAt proof]) = [issuedAt] := by
          rw [usesOf_append, hnone]
          simp [usesOf, AuthenticationEvent.use?]
        refine ⟨hadmitted, hcanonical, issuedAt, ?_, ?_, le_rfl, le_rfl, ?_,
          .inl ⟨?_, svc.newRecord rt issuedAt fresh, ?_⟩⟩
        · rw [huses]
          rfl
        · rw [huses]
          exact List.isChain_singleton issuedAt
        · exact Nat.lt_add_of_pos_right svc.valid.2.1
        · rw [revoked_append, revoked_singleton, not_or]
          refine ⟨?_, fun hrevokes => hrevokes⟩
          rintro ⟨event, hevent, hrevokes⟩
          exact AuthenticationEvent.not_revokes
            (fun hmem => htoken ((h.seen event hevent).1 _ hmem))
            (fun hmem => hid ((h.seen event hevent).2 _ hmem)) hrevokes
        · refine ⟨?_, rfl, rfl, rfl, rfl, rfl, rfl⟩
          rw [hget, if_pos rfl]

/-! ### Acceptance -/

/-- The rows accept a token when its session is found, live and not expired. -/
def RowsAccept (rt : Runtime) (sessions : Table AuthSession) (token : String) (time : Time) :
    Prop :=
  ∃ row, sessionOfToken rt token sessions = some row ∧ row.revokedAt = none ∧
    row.expired time = false

/-- What is known of the row that a token finds. -/
theorem SessionLog.Kept.live_of_found (h : c.Kept svc rt admitted now)
    (hdiffer : TokensDiffer rt admitted) (hadmitted : admitted token) {row : AuthSession}
    (hfound : sessionOfToken rt token c.sessions = some row) (hlive : row.revokedAt = none) :
    ∃ issuedAt proof last, .issued token row.id issuedAt proof ∈ c.events ∧
      TokenKept svc rt now c token row.id issuedAt last ∧ ¬ Revoked token row.id c.events ∧
      LiveRow svc rt c.sessions token row.id issuedAt last row := by
  obtain ⟨hmem, hdigest⟩ := mem_of_sessionOfToken hfound
  obtain ⟨token', issuedAt, proof, hissued, hdigest'⟩ := h.rows row hmem
  obtain rfl : token' = token := hdiffer _ _ (h.issued _ _ _ _ hissued).1 hadmitted
    (hdigest'.symm.trans hdigest)
  obtain ⟨-, -, last, hkept⟩ := h.issued _ _ _ _ hissued
  have hget : c.sessions.get? row.id = some row := Table.get?_key hmem
  rcases hkept.status with ⟨hnot, row', hrow'⟩ | ⟨hgone, -⟩
  · obtain rfl : row = row' := Option.some.inj (hget.symm.trans hrow'.found)
    exact ⟨issuedAt, proof, last, hissued, hkept, hnot, hrow'⟩
  · have hsome := hgone row hget
    rw [hlive] at hsome
    cases hsome

/-- The next use is spaced from the uses so far when it is spaced from the last. -/
theorem TokenKept.spaced_iff (h : TokenKept svc rt now c token id issuedAt last) {time : Time} :
    ((usesOf token c.events ++ [time]).IsChain fun a b => b < a + svc.idleTtl) ↔
      time < last + svc.idleTtl := by
  rw [List.isChain_append, h.last_use]
  simp [h.spaced]

theorem LiveRow.expired_iff {sessions : Table AuthSession} {row : AuthSession} {time : Time}
    (h : LiveRow svc rt sessions token id issuedAt last row) :
    row.expired time = false ↔ time < last + svc.idleTtl ∧ time < issuedAt + svc.absoluteTtl := by
  simp only [AuthSession.expired, h.expires, h.absolute, Bool.or_eq_false_iff,
    decide_eq_false_iff_not, not_le, lt_min_iff]
  exact ⟨And.left, fun hlt => ⟨hlt, hlt.2⟩⟩

/-- The rows accept a token when its history does. -/
theorem SessionLog.Kept.accepts_iff (h : c.Kept svc rt admitted now)
    (hdiffer : TokensDiffer rt admitted) (hadmitted : admitted token) {time : Time}
    (htime : now ≤ time) :
    (tokenIsCanonical token = true ∧ RowsAccept rt c.sessions token time) ↔
      Accepted svc c.events token time := by
  constructor
  · rintro ⟨-, row, hfound, hlive, hexpired⟩
    obtain ⟨issuedAt, proof, last, hissued, hkept, hnot, hrow⟩ :=
      h.live_of_found hdiffer hadmitted hfound hlive
    obtain ⟨hidle, habsolute⟩ := hrow.expired_iff.mp hexpired
    exact ⟨row.id, issuedAt, proof, hissued, hnot, habsolute, hkept.spaced_iff.mpr hidle⟩
  · rintro ⟨id, issuedAt, proof, hissued, hnot, habsolute, hspaced⟩
    obtain ⟨-, hcanonical, last, hkept⟩ := h.issued _ _ _ _ hissued
    have hidle := hkept.spaced_iff.mp hspaced
    refine ⟨hcanonical, ?_⟩
    rcases hkept.status with ⟨-, row, hrow⟩ | ⟨-, hwhy⟩
    · exact ⟨row, h.found_of_live hdiffer hissued hrow, hrow.live,
        hrow.expired_iff.mpr ⟨hidle, habsolute⟩⟩
    · rcases hwhy with hrevoked | hover
      · exact absurd hrevoked hnot
      · have hlt : time < min (last + svc.idleTtl) (issuedAt + svc.absoluteTtl) :=
          lt_min hidle habsolute
        exact absurd (hover.trans htime) (not_le.mpr hlt)

/-! ### Refusals -/

theorem Accepted.of_le {events : List AuthenticationEvent} {time time' : Time}
    (h : Accepted svc events token time') (hle : time ≤ time') : Accepted svc events token time := by
  obtain ⟨id, issuedAt, proof, hissued, hnot, habsolute, hspaced⟩ := h
  refine ⟨id, issuedAt, proof, hissued, hnot, hle.trans_lt habsolute, ?_⟩
  rw [List.isChain_append] at hspaced ⊢
  refine ⟨hspaced.1, List.isChain_singleton time, ?_⟩
  intro a ha b hb
  obtain rfl : time = b := Option.some.inj hb
  exact hle.trans_lt (hspaced.2.2 a ha time' rfl)

/-- What neither issues nor uses a token gives it no life. -/
theorem Accepted.of_append {events : List AuthenticationEvent} {event : AuthenticationEvent}
    {time : Time} (h : Accepted svc (events ++ [event]) token time)
    (hissued : ∀ id issuedAt proof, event ≠ .issued token id issuedAt proof)
    (huse : event.use? token = none) : Accepted svc events token time := by
  obtain ⟨id, issuedAt, proof, hmem, hnot, habsolute, hspaced⟩ := h
  have huses : usesOf token (events ++ [event]) = usesOf token events := by
    simp [usesOf, huse]
  rw [huses] at hspaced
  refine ⟨id, issuedAt, proof, ?_, fun hrevoked => hnot (revoked_append.mpr (.inl hrevoked)),
    habsolute, hspaced⟩
  rcases List.mem_append.mp hmem with hmem | hmem
  · exact hmem
  · exact absurd (List.mem_singleton.mp hmem).symm (hissued id issuedAt proof)

/-- A token that was seen and is refused from now on. -/
structure SessionLog.Refuses (svc : AuthenticationService) (now : Time) (c : SessionLog)
    (token : String) : Prop where
  seen : token ∈ c.tokens
  refused : ∀ time, now ≤ time → ¬ Accepted svc c.events token time

/-- No change revives a token. -/
theorem SessionStep.refuses (hdiffer : TokensDiffer rt admitted) (hadmitted : admitted token)
    (hstep : SessionStep svc rt admitted now c c') (h : c.Kept svc rt admitted now)
    (hrefuses : c.Refuses svc now token) : c'.Refuses svc now token := by
  have hmore : ∀ event : AuthenticationEvent,
      (∀ id issuedAt proof, event ≠ .issued token id issuedAt proof) →
      event.use? token = none → ∀ time, now ≤ time →
      ¬ Accepted svc (c.events ++ [event]) token time :=
    fun event hissued huse time htime haccepted =>
      hrefuses.refused time htime (haccepted.of_append hissued huse)
  cases hstep with
  | present tokens ids => exact ⟨List.mem_append_right _ hrefuses.seen, hrefuses.refused⟩
  | note digest => exact ⟨hrefuses.seen, hmore _ (by simp) rfl⟩
  | clean => exact ⟨hrefuses.seen, hrefuses.refused⟩
  | drop => exact ⟨hrefuses.seen, hrefuses.refused⟩
  | revoke _ _ hevent =>
    refine ⟨hrefuses.seen, hmore _ ?_ ?_⟩
    · rcases hevent with rfl | rfl | ⟨_, rfl, _⟩ <;> simp
    · rcases hevent with rfl | rfl | ⟨_, rfl, _⟩ <;> rfl
  | ignore _ hevent =>
    refine ⟨hrefuses.seen, hmore _ ?_ ?_⟩
    · rcases hevent with ⟨_, rfl | rfl, _⟩ | ⟨_, rfl, _⟩ <;> simp
    · rcases hevent with ⟨_, rfl | rfl, _⟩ | ⟨_, rfl, _⟩ <;> rfl
  | @use row used hrow hused hseen hdigest hlive hexpired =>
    refine ⟨hrefuses.seen, hmore _ (by simp) ?_⟩
    have hne : used ≠ token := by
      rintro rfl
      obtain ⟨token', issuedAt, proof, hissued, hdigest'⟩ := h.rows row (Table.mem_of_get? hrow)
      obtain rfl : token' = used := hdiffer _ _ (h.issued _ _ _ _ hissued).1 hused
        (hdigest'.symm.trans hdigest)
      obtain ⟨-, hcanonical, last, hkept⟩ := h.issued _ _ _ _ hissued
      rcases hkept.status with ⟨-, row', hrow'⟩ | ⟨hgone, -⟩
      · obtain rfl : row = row' := Option.some.inj (hrow.symm.trans hrow'.found)
        exact hrefuses.refused now le_rfl ((h.accepts_iff hdiffer hused le_rfl).mp
          ⟨hcanonical, row, h.found_of_live hdiffer hissued hrow', hlive, hexpired⟩)
      · have hsome := hgone row hrow
        rw [hlive] at hsome
        cases hsome
    simp [AuthenticationEvent.use?, hne]
  | rotate => exact ⟨hrefuses.seen, hrefuses.refused⟩
  | @issue fresh sessions proof _ _ htoken _ _ =>
    have hne : fresh.sessionToken ≠ token := by
      rintro rfl
      exact htoken hrefuses.seen
    exact ⟨List.mem_cons_of_mem _ hrefuses.seen, hmore _ (by simp [hne])
      (by simp [AuthenticationEvent.use?, hne])⟩

end

end ControlPlane
