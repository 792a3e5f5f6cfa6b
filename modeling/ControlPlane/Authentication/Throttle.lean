import ControlPlane.Authentication.Runs

/-!
# The throttle of password attempts

Logins and reauthentications share one count of failures and one deadline. An attempt compares
the password, or ends before it does: the input is too long, a block is in force, or there is no
live session to reauthenticate.

## Main definitions

* `PasswordAttempt.compared`: the comparison an attempt makes, and how it ended.
* `blockedUntil`: the block that the comparisons of a run left in force.

## Main results

* `ThrottleRun.kept_of_reachable`: the count and the deadline are those of the comparisons.
* `ThrottleRun.throttle_promises_kept`
-/
namespace ControlPlane

inductive PasswordAttempt where
  | login (fresh : FreshSession) (salt : ℕ) (password : String)
    (existingSessionToken : Option String)
  | reauthenticate (fresh : FreshSession) (salt : ℕ) (sessionId : UUID) (password : String)

/-- How a comparison ended. A password can match in a transaction that is rolled back, when the
new session is refused. -/
inductive ComparisonOutcome where
  | failed | accepted | undone
  deriving DecidableEq

structure PasswordComparison where
  time : Time
  outcome : ComparisonOutcome
  deriving DecidableEq

namespace PasswordAttempt
variable (svc : AuthenticationService) (rt : Runtime) (hasher : PasswordHasher) (now : Time)
  (store : AuthenticationStore)

def perform : PasswordAttempt → Except AuthenticationFailure IssuedSession × AuthenticationStore
  | login fresh salt password existing => svc.login rt hasher now fresh salt password existing store
  | reauthenticate fresh salt sessionId password =>
    svc.reauthenticate rt hasher now fresh salt sessionId password store

/-- Whether the password matches, for an attempt that gets to compare it. Where there is no user
the hash of no credential stands in, and never matches. -/
def matches? : PasswordAttempt → Option Bool
  | login _ _ password _ =>
    if authenticationInputIsBounded password = false then none
    else if store.state.blocked now then none
    else some (store.user.any fun user => hasher.verify user.passwordHash password)
  | reauthenticate _ _ sessionId password =>
    if authenticationInputIsBounded password = false then none
    else if store.state.blocked now then none
    else
      match store.sessions.get? sessionId with
      | none => none
      | some record =>
        if record.revokedAt.isSome then none
        else if record.expired now then none
        else
          let user := if record.userId = localUserId then store.user else none
          some (user.any fun user => hasher.verify user.passwordHash password)

/-- The comparison of an attempt. -/
def compared (a : PasswordAttempt) : Option PasswordComparison :=
  (a.matches? hasher now store).map fun matched =>
    ⟨now, if matched = false then .failed
      else if (a.perform svc rt hasher now store).1.isOk then .accepted
      else .undone⟩

end PasswordAttempt

/-! ### What the comparisons left -/

/-- The failures since the last accepted password. The comparisons are listed from the last one
back. -/
def failures (cs : List PasswordComparison) : ℕ :=
  (cs.takeWhile fun c => c.outcome ≠ .accepted).countP fun c => c.outcome = .failed

/-- For how long the `k`-th failure blocks. -/
def throttleDelay (k : ℕ) : Time := seconds (min (2 ^ (min k 16 - 4)) 300)

/-- The end of the block: the last failure since the last accepted password set it. -/
def blockedUntil : List PasswordComparison → Option Time
  | [] => none
  | c :: older =>
    match c.outcome with
    | .undone => blockedUntil older
    | .accepted => none
    | .failed =>
      if 5 ≤ failures (c :: older) then some (c.time + throttleDelay (failures (c :: older)))
      else none

/-- A block is in force after the comparisons. -/
def InForce (cs : List PasswordComparison) (now : Time) : Prop :=
  ∃ until_, blockedUntil cs = some until_ ∧ now < until_

section Comparisons
variable {c : PasswordComparison} {cs : List PasswordComparison} {time : Time}

@[simp] theorem failures_failed : failures (⟨time, .failed⟩ :: cs) = failures cs + 1 := by
  simp [failures]

@[simp] theorem failures_undone : failures (⟨time, .undone⟩ :: cs) = failures cs := by
  simp [failures]

@[simp] theorem failures_accepted : failures (⟨time, .accepted⟩ :: cs) = 0 := by
  simp [failures]

theorem throttleDelay_mono {k l : ℕ} (h : k ≤ l) : throttleDelay k ≤ throttleDelay l := by
  have hexponent : min k 16 - 4 ≤ min l 16 - 4 := by omega
  have hpower := Nat.pow_le_pow_right (show 0 < 2 by decide) hexponent
  simp only [throttleDelay, seconds]
  exact Nat.mul_le_mul_right _ (min_le_min_right 300 hpower)

/-- Consecutive failures are among those since the last accepted password. -/
theorem length_le_failures {fails : List PasswordComparison}
    (h : ∀ f ∈ fails, f.outcome = .failed) :
    fails.length ≤ failures (fails ++ cs) := by
  induction fails with
  | nil => exact Nat.zero_le _
  | cons f fails ih =>
    obtain ⟨time, outcome⟩ := f
    obtain rfl : outcome = .failed := h _ List.mem_cons_self
    rw [List.cons_append, failures_failed, List.length_cons]
    exact Nat.succ_le_succ (ih fun g hg => h g (List.mem_cons_of_mem _ hg))

/-- A block stands on five failures. -/
theorem five_le_failures {until_ : Time} (h : blockedUntil cs = some until_) :
    5 ≤ failures cs := by
  induction cs with
  | nil => cases h
  | cons c older ih =>
    obtain ⟨time, outcome⟩ := c
    cases outcome with
    | undone =>
      rw [failures_undone]
      exact ih h
    | accepted => cases h
    | failed =>
      by_contra hfew
      simp [blockedUntil, failures_failed] at h
      rw [failures_failed] at hfew
      exact hfew (Nat.succ_le_succ h.1)

/-- The block after five failures or more in a row. -/
theorem inForce_of_failed {fails : List PasswordComparison}
    (h : ∀ f ∈ c :: fails, f.outcome = .failed) (hmany : 5 ≤ (c :: fails).length)
    (htime : time < c.time + throttleDelay (c :: fails).length) :
    InForce (c :: fails ++ cs) time := by
  have hlength : (c :: fails).length ≤ failures (c :: fails ++ cs) := length_le_failures h
  have hdelay := throttleDelay_mono hlength
  refine ⟨c.time + throttleDelay (failures (c :: fails ++ cs)), ?_,
    htime.trans_le (Nat.add_le_add_left hdelay _)⟩
  obtain ⟨start, outcome⟩ := c
  obtain rfl : outcome = .failed := h _ List.mem_cons_self
  rw [List.cons_append, blockedUntil]
  exact if_pos (hmany.trans hlength)

end Comparisons

/-! ### What an attempt does to the throttle -/

section Attempt
variable {svc : AuthenticationService} {rt : Runtime} {hasher : PasswordHasher} {now : Time}
  {store : AuthenticationStore} {a : PasswordAttempt}

theorem state_of_issueSession {store' : AuthenticationStore} {fresh : FreshSession}
    {issued : IssuedSession} (h : svc.issueSession rt now fresh store = .ok (issued, store')) :
    store'.state = store.state := by
  simp only [AuthenticationService.issueSession, Except.bind_eq_ok, Except.require_eq_ok,
    Except.orThrow_eq_ok, Except.pure_eq_ok, Prod.mk.injEq] at h
  obtain ⟨_, _, sessions, _, rfl, rfl⟩ := h
  rfl

/-- The throttle after an attempt. -/
inductive Throttled (store : AuthenticationStore) (now : Time) :
    Option PasswordComparison → AuthenticationState → Prop
  | ended : Throttled store now none store.state
  | failed : Throttled store now (some ⟨now, .failed⟩) (recordLoginFailure store.state now)
  | accepted : Throttled store now (some ⟨now, .accepted⟩)
      { store.state with failedLoginAttempts := 0, loginBlockedUntil := none }
  | undone : Throttled store now (some ⟨now, .undone⟩) store.state

/-- The end of an attempt whose password matched. -/
theorem throttled_issue {fresh : FreshSession} {accepted : AuthenticationStore}
    (haccepted : accepted.state =
      { store.state with failedLoginAttempts := 0, loginBlockedUntil := none }) :
    Throttled store now
      (some ⟨now, if (svc.issueOrRollback rt now fresh accepted store).1.isOk then .accepted
        else .undone⟩)
      (svc.issueOrRollback rt now fresh accepted store).2.state := by
  rcases issueOrRollback_cases svc rt now fresh accepted store with
    ⟨error, herror⟩ | ⟨issued, store', hissue, hok⟩
  · rw [herror]
    exact .undone
  · rw [hok, state_of_issueSession hissue, haccepted]
    exact .accepted

theorem PasswordAttempt.throttled (svc : AuthenticationService) (rt : Runtime)
    (hasher : PasswordHasher) (now : Time) (store : AuthenticationStore) (a : PasswordAttempt) :
    Throttled store now (a.compared svc rt hasher now store)
      (a.perform svc rt hasher now store).2.state := by
  cases a with
  | login fresh salt password existing =>
    by_cases hbounded : authenticationInputIsBounded password = false
    · simp only [compared, matches?, perform, AuthenticationService.login, hbounded, if_true,
        Option.map_none]
      exact .ended
    by_cases hblocked : store.state.blocked now = true
    · simp only [compared, matches?, perform, AuthenticationService.login, hbounded, hblocked,
        if_true]
      exact .ended
    cases huser : store.user with
    | none =>
      simp only [compared, matches?, perform, AuthenticationService.login, hbounded, hblocked,
        huser, Option.any_none]
      exact .failed
    | some user =>
      by_cases hverify : hasher.verify user.passwordHash password = true
      · simp only [compared, matches?, perform, AuthenticationService.login, hbounded, hblocked,
          huser, hverify, if_true, Option.any_some]
        exact throttled_issue rfl
      · simp only [compared, matches?, perform, AuthenticationService.login, hbounded, hblocked,
          huser, hverify, Option.any_some]
        exact .failed
  | reauthenticate fresh salt sessionId password =>
    by_cases hbounded : authenticationInputIsBounded password = false
    · simp only [compared, matches?, perform, AuthenticationService.reauthenticate, hbounded,
        if_true, Option.map_none]
      exact .ended
    by_cases hblocked : store.state.blocked now = true
    · simp only [compared, matches?, perform, AuthenticationService.reauthenticate, hbounded,
        hblocked, if_true]
      exact .ended
    cases hrow : store.sessions.get? sessionId with
    | none =>
      simp only [compared, matches?, perform, AuthenticationService.reauthenticate, hbounded,
        hblocked, hrow]
      exact .ended
    | some record =>
      by_cases hrevoked : record.revokedAt.isSome = true
      · simp only [compared, matches?, perform, AuthenticationService.reauthenticate, hbounded,
          hblocked, hrow, hrevoked, if_true]
        exact .ended
      by_cases hexpired : record.expired now = true
      · simp only [compared, matches?, perform, AuthenticationService.reauthenticate, hbounded,
          hblocked, hrow, hrevoked, hexpired, if_true]
        exact .ended
      cases huser : (if record.userId = localUserId then store.user else none) with
      | none =>
        simp only [compared, matches?, perform, AuthenticationService.reauthenticate, hbounded,
          hblocked, hrow, hrevoked, hexpired, huser, Option.any_none]
        exact .failed
      | some user =>
        by_cases hverify : hasher.verify user.passwordHash password = true
        · simp only [compared, matches?, perform, AuthenticationService.reauthenticate, hbounded,
            hblocked, hrow, hrevoked, hexpired, huser, hverify, if_true, Option.any_some]
          exact throttled_issue rfl
        · simp only [compared, matches?, perform, AuthenticationService.reauthenticate, hbounded,
            hblocked, hrow, hrevoked, hexpired, huser, hverify, Option.any_some]
          exact .failed

/-- Nothing is compared while a block is in force. -/
theorem PasswordAttempt.compared_eq_none (hblocked : store.state.blocked now = true) :
    a.compared svc rt hasher now store = none := by
  cases a <;> simp [compared, matches?, hblocked]

end Attempt

/-! ### Runs -/

/-- The store, the time of the last attempt, and the comparisons so far, the last one first. -/
structure ThrottleRun where
  store : AuthenticationStore
  now : Time
  comparisons : List PasswordComparison := []

inductive ThrottleStep (svc : AuthenticationService) (rt : Runtime) (hasher : PasswordHasher) :
    ThrottleRun → ThrottleRun → Prop
  | attempt {s : ThrottleRun} {now : Time} (a : PasswordAttempt) (hnow : s.now ≤ now) :
    ThrottleStep svc rt hasher s
      { store := (a.perform svc rt hasher now s.store).2
        now := now
        comparisons := (a.compared svc rt hasher now s.store).toList ++ s.comparisons }
  /-- What other operations do to the sessions. -/
  | sessions {s : ThrottleRun} (sessions : Table AuthSession) :
    ThrottleStep svc rt hasher s { s with store := { s.store with sessions } }

/-- Attempts on any user and any sessions, from a throttle that counts nothing. -/
def throttleSystem (svc : AuthenticationService) (rt : Runtime) (hasher : PasswordHasher) :
    TransitionSystem ThrottleRun where
  init s := s.store.state.failedLoginAttempts = 0 ∧ s.store.state.loginBlockedUntil = none ∧
    s.comparisons = []
  step := ThrottleStep svc rt hasher

structure ThrottleRun.Kept (s : ThrottleRun) : Prop where
  count : s.store.state.failedLoginAttempts = min (failures s.comparisons) 16
  deadline : s.store.state.loginBlockedUntil = blockedUntil s.comparisons
  compared : ∀ newer c older, s.comparisons = newer ++ c :: older → ¬InForce older c.time
  ordered : s.comparisons.Pairwise fun c d => d.time ≤ c.time
  past : ∀ c ∈ s.comparisons, c.time ≤ s.now

section Runs
variable {svc : AuthenticationService} {rt : Runtime} {hasher : PasswordHasher} {s t : ThrottleRun}
  {now : Time}

theorem ThrottleRun.Kept.blocked_iff (h : s.Kept) :
    s.store.state.blocked now = true ↔ InForce s.comparisons now := by
  rw [AuthenticationState.blocked, h.deadline, InForce, Option.any_eq_true]
  simp

/-- The throttle of a state that counted the failures so far, and one more. -/
theorem recordLoginFailure_kept (now : Time) {cs : List PasswordComparison}
    {state : AuthenticationState}
    (hcount : state.failedLoginAttempts = min (failures cs) 16)
    (hdeadline : state.loginBlockedUntil = blockedUntil cs) :
    (recordLoginFailure state now).failedLoginAttempts =
        min (failures (⟨now, .failed⟩ :: cs)) 16 ∧
      (recordLoginFailure state now).loginBlockedUntil =
        blockedUntil (⟨now, .failed⟩ :: cs) := by
  have hnext : min (min (failures cs) 16 + 1) loginThrottleMaxFailures =
      min (failures cs + 1) 16 := by
    simp only [loginThrottleMaxFailures]
    omega
  simp only [recordLoginFailure, hcount, hnext, blockedUntil, failures_failed]
  by_cases hmany : 5 ≤ failures cs + 1
  · have hstart : loginThrottleStart ≤ min (failures cs + 1) 16 := by
      simp only [loginThrottleStart]
      omega
    have hexponent : min (failures cs + 1) 16 - loginThrottleStart + 1 =
        min (failures cs + 1) 16 - 4 := by
      simp only [loginThrottleStart] at hstart ⊢
      omega
    rw [if_pos hstart, if_pos hmany, hexponent]
    exact ⟨rfl, rfl⟩
  · have hstart : ¬loginThrottleStart ≤ min (failures cs + 1) 16 := by
      simp only [loginThrottleStart]
      omega
    rw [if_neg hstart, if_neg hmany]
    refine ⟨rfl, ?_⟩
    -- Fewer than five failures never set a block.
    cases hblocked : blockedUntil cs with
    | none => rw [hdeadline, hblocked]
    | some until_ =>
      have := five_le_failures hblocked
      omega

theorem PasswordAttempt.time_of_compared {store : AuthenticationStore} {a : PasswordAttempt}
    {c : PasswordComparison} (h : a.compared svc rt hasher now store = some c) : c.time = now := by
  obtain ⟨matched, -, rfl⟩ := Option.map_eq_some_iff.mp h
  rfl

theorem ThrottleRun.Kept.attempt (h : s.Kept) (hnow : s.now ≤ now) (a : PasswordAttempt) :
    ({ store := (a.perform svc rt hasher now s.store).2
       now := now
       comparisons := (a.compared svc rt hasher now s.store).toList ++ s.comparisons } :
      ThrottleRun).Kept := by
  have hthrottled := a.throttled svc rt hasher now s.store
  have hpast : ∀ c ∈ s.comparisons, c.time ≤ now := fun c hc => (h.past c hc).trans hnow
  -- What is compared is compared without a block, so the older comparisons decide.
  have hcompared : ∀ c, a.compared svc rt hasher now s.store = some c →
      (∀ newer d older, c :: s.comparisons = newer ++ d :: older → ¬InForce older d.time) ∧
        ((c :: s.comparisons).Pairwise fun c d => d.time ≤ c.time) ∧
        ∀ d ∈ c :: s.comparisons, d.time ≤ now := by
    intro c hc
    have htime := PasswordAttempt.time_of_compared hc
    refine ⟨?_, List.pairwise_cons.mpr ⟨?_, h.ordered⟩, ?_⟩
    rotate_left
    · rw [htime]
      exact hpast
    · intro d hd
      rcases List.mem_cons.mp hd with rfl | hd
      · exact htime.le
      · exact hpast d hd
    intro newer d older heq
    cases newer with
    | nil =>
      obtain ⟨rfl, rfl⟩ := List.cons.inj heq
      rw [← h.blocked_iff, htime]
      intro hblocked
      rw [PasswordAttempt.compared_eq_none hblocked] at hc
      cases hc
    | cons e newer =>
      obtain ⟨rfl, hrest⟩ := List.cons.inj heq
      exact h.compared newer d older hrest
  generalize (a.perform svc rt hasher now s.store).2 = store at hthrottled ⊢
  generalize a.compared svc rt hasher now s.store = compared at hthrottled hcompared ⊢
  generalize hstate : store.state = state at hthrottled
  cases hthrottled with
  | ended =>
    exact ⟨by rw [hstate]; exact h.count, by rw [hstate]; exact h.deadline, h.compared, h.ordered,
      hpast⟩
  | failed =>
    obtain ⟨hcount, hdeadline⟩ := recordLoginFailure_kept now h.count h.deadline
    obtain ⟨hfree, hordered, htimes⟩ := hcompared _ rfl
    exact ⟨by rw [hstate]; exact hcount, by rw [hstate]; exact hdeadline, hfree, hordered, htimes⟩
  | accepted =>
    obtain ⟨hfree, hordered, htimes⟩ := hcompared _ rfl
    refine ⟨?_, by rw [hstate]; rfl, hfree, hordered, htimes⟩
    rw [hstate]
    exact (Nat.zero_min 16).symm.trans (by rw [Option.toList_some]; simp)
  | undone =>
    obtain ⟨hfree, hordered, htimes⟩ := hcompared _ rfl
    refine ⟨?_, by rw [hstate]; exact h.deadline, hfree, hordered, htimes⟩
    rw [hstate, h.count, Option.toList_some, List.singleton_append, failures_undone]

theorem ThrottleRun.kept_of_reachable (hs : (throttleSystem svc rt hasher).Reachable s) :
    s.Kept := by
  refine hs.invariant ?_ ?_
  · rintro s ⟨hcount, hdeadline, hnone⟩
    refine ⟨by rw [hcount, hnone]; rfl, by rw [hdeadline, hnone]; rfl, ?_, ?_, ?_⟩
    · intro newer c older heq
      rw [hnone] at heq
      cases newer <;> cases heq
    · rw [hnone]
      exact List.Pairwise.nil
    · simp [hnone]
  · intro s t hs hstep
    cases hstep with
    | attempt a hnow => exact hs.attempt hnow a
    | sessions => exact ⟨hs.count, hs.deadline, hs.compared, hs.ordered, hs.past⟩

/-- What the throttle promises of the comparisons made so far and of the next attempt. -/
structure ThrottleRun.Promises (svc : AuthenticationService) (rt : Runtime)
    (hasher : PasswordHasher) (s : ThrottleRun) : Prop where
  /-- A password was compared only when no block was in force. -/
  compared : ∀ newer c older, s.comparisons = newer ++ c :: older → ¬InForce older c.time
  /-- Nothing was compared for a while after `k` failures in a row, for `k` from five on. -/
  spaced : ∀ newer last fails older, s.comparisons = newer ++ last :: fails ++ older →
    (∀ f ∈ last :: fails, f.outcome = .failed) → 5 ≤ (last :: fails).length →
    ∀ c ∈ newer,
      last.time + seconds (min (2 ^ (min (last :: fails).length 16 - 4)) 300) ≤ c.time
  /-- Nor is anything compared next; the attempt neither counts nor moves the deadline. -/
  waits : ∀ now (a : PasswordAttempt), InForce s.comparisons now →
    a.compared svc rt hasher now s.store = none
  ended : ∀ now (a : PasswordAttempt), a.compared svc rt hasher now s.store = none →
    (a.perform svc rt hasher now s.store).2.state = s.store.state
  /-- The count falls when a password is accepted, and then to zero. -/
  reset : ∀ now (a : PasswordAttempt),
    (a.perform svc rt hasher now s.store).2.state.failedLoginAttempts <
      s.store.state.failedLoginAttempts →
    a.compared svc rt hasher now s.store = some ⟨now, .accepted⟩ ∧
      (a.perform svc rt hasher now s.store).2.state.failedLoginAttempts = 0
  count : s.store.state.failedLoginAttempts = min (failures s.comparisons) 16

/-- Whatever logins and reauthentications are attempted. -/
theorem ThrottleRun.throttle_promises_kept (hs : (throttleSystem svc rt hasher).Reachable s) :
    s.Promises svc rt hasher := by
  have hkept := kept_of_reachable hs
  refine ⟨hkept.compared, ?_, ?_, ?_, ?_, hkept.count⟩
  · intro newer last fails older heq hfailed hmany c hc
    -- The next comparison waits for the block, and the others come after it.
    obtain ⟨later, next, rfl⟩ := List.eq_nil_or_concat newer |>.resolve_left
      (List.ne_nil_of_mem hc)
    rw [List.concat_eq_append] at heq hc
    have hnext : last.time + throttleDelay (last :: fails).length ≤ next.time := by
      by_contra hearly
      refine hkept.compared later next (last :: fails ++ older) (by simpa using heq) ?_
      exact inForce_of_failed hfailed hmany (not_le.mp hearly)
    rcases List.mem_append.mp hc with hlater | hlast
    · have hordered := hkept.ordered
      rw [heq, List.append_assoc, List.append_assoc, List.pairwise_append] at hordered
      exact hnext.trans (hordered.2.2 c hlater next (List.mem_append_left _ List.mem_cons_self))
    · rw [List.mem_singleton.mp hlast]
      exact hnext
  · intro now a hforce
    exact PasswordAttempt.compared_eq_none (hkept.blocked_iff.mpr hforce)
  · intro now a hnone
    have hthrottled := a.throttled svc rt hasher now s.store
    rw [hnone] at hthrottled
    generalize (a.perform svc rt hasher now s.store).2.state = state at hthrottled
    cases hthrottled
    rfl
  · intro now a hless
    have hthrottled := a.throttled svc rt hasher now s.store
    generalize (a.perform svc rt hasher now s.store).2.state = state at hthrottled hless ⊢
    generalize a.compared svc rt hasher now s.store = compared at hthrottled ⊢
    cases hthrottled with
    | ended => exact absurd hless (Nat.lt_irrefl _)
    | undone => exact absurd hless (Nat.lt_irrefl _)
    | accepted => exact ⟨rfl, rfl⟩
    | failed =>
      obtain ⟨hcount, -⟩ := recordLoginFailure_kept now hkept.count hkept.deadline
      rw [hcount, hkept.count, failures_failed] at hless
      omega

end Runs

/-! ### Failures in a row -/

def guess : PasswordAttempt := .login ⟨.ofNat 1, "", ""⟩ 0 "guess" none

/-- A run of logins at one time. -/
def guessing : ℕ → ThrottleRun
  | 0 => { store := { user := some ⟨"hash"⟩ }, now := 0 }
  | n + 1 =>
    { store := (guess.perform defaultAuthenticationService .plain plainHasher 0 (guessing n).store).2
      now := 0
      comparisons := (guess.compared defaultAuthenticationService .plain plainHasher 0
        (guessing n).store).toList ++ (guessing n).comparisons }

theorem guessing_now (n : ℕ) : (guessing n).now = 0 := by
  cases n <;> rfl

theorem guessing_reachable (n : ℕ) :
    (throttleSystem defaultAuthenticationService .plain plainHasher).Reachable (guessing n) := by
  induction n with
  | zero => exact .of_init ⟨rfl, rfl, rfl⟩
  | succ n ih => exact ih.tail (ThrottleStep.attempt guess (guessing_now n).le)

/-- Of seven guesses that fail the last two are not compared. -/
example : (guessing 7).comparisons.length = 5 := by decide +kernel

theorem guessing_promises : (guessing 7).Promises defaultAuthenticationService .plain plainHasher :=
  ThrottleRun.throttle_promises_kept (guessing_reachable 7)

end ControlPlane
