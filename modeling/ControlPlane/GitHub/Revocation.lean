import ControlPlane.GitHub.Credentials

/-!
# No token is left alive silently

What a call of the broker leaves behind: every token it received is given away in a
credential, or was revoked, or the call ends with the error that says so. That is so
exactly when the broker could read the responses that carried a token and the loop of a
revocation has a handler for what happened to its requests.

## Main results

* `readOutcome_reads`: the ways a response is read.
* `revokeInstallationToken_spec`: what a revocation asks and how it ends.
* `Trail.accounted_iff`: the result for any sequence of parts of a call.
-/
namespace ControlPlane.GitHubApp

open Calendar (Instant)

/-! ### Reading one outcome -/

def Throttled (r : GitHubHttpResponse) : Prop := r.statusCode = 403 ∨ r.statusCode = 429

/-- The response is throttled until a time that no double can hold, and says nothing else
about when to try again. -/
def ResetOverflows (u : Unicode) (r : GitHubHttpResponse) : Prop :=
  Throttled r ∧ r.retryAfter.filter isAsciiText = none ∧ r.rateLimitRemaining = some "0" ∧
  ∃ text reset, r.rateLimitReset = some text ∧ isAsciiText text = true ∧
    integerOfText u text = some reset ∧ tooLargeForDouble reset = true

/-- The ways `_request` reads an outcome. -/
inductive Reads (u : Unicode) (s : ℕ) : Outcome → Except Raised GitHubHttpResponse → Prop
  | raised (e : GitHubAppError) : Reads u s (.raised e) (.error (.github e))
  | naive (r : GitHubHttpResponse) (message : String) :
      Reads u s (.response r .naive) (.error (protocolError message))
  | overflow (r : GitHubHttpResponse) (t : Instant) (h : ResetOverflows u r) :
      Reads u s (.response r (.aware t)) (.error .overflow)
  | throttled (r : GitHubHttpResponse) (t : Instant) (seconds : ℕ) (message : String)
      (h : Throttled r) (hreset : ¬ResetOverflows u r) :
      Reads u s (.response r (.aware t)) (.error (.github ⟨.rateLimit seconds, message⟩))
  | unauthorized (r : GitHubHttpResponse) (t : Instant) (message : String) (h : ¬Throttled r)
      (hstatus : r.statusCode = 401 ∨ r.statusCode = 404) :
      Reads u s (.response r (.aware t))
        (.error (.github ⟨.authorization (some r.statusCode), message⟩))
  | unavailable (r : GitHubHttpResponse) (t : Instant) (message : String) (h : ¬Throttled r)
      (hstatus : r.statusCode ≥ 500) :
      Reads u s (.response r (.aware t)) (.error (.github ⟨.unavailable, message⟩))
  | unexpected (r : GitHubHttpResponse) (t : Instant) (message : String) (h : ¬Throttled r)
      (hstatus : r.statusCode ≠ s) :
      Reads u s (.response r (.aware t)) (.error (protocolError message))
  | success (r : GitHubHttpResponse) (t : Instant) (h : ¬Throttled r)
      (hstatus : r.statusCode = s) : Reads u s (.response r (.aware t)) (.ok r)

theorem rateLimitRetryAfter_of_calm {u : Unicode} {r : GitHubHttpResponse} {now : Instant}
    (h : ¬Throttled r) : rateLimitRetryAfter u r now = .ok none := by
  have hstatus : r.statusCode ≠ 403 ∧ r.statusCode ≠ 429 := by
    simpa only [Throttled, not_or] using h
  simp only [rateLimitRetryAfter, if_pos hstatus]

/-- A throttled response gives a delay, unless its reset is too large. -/
theorem rateLimitRetryAfter_of_throttled {u : Unicode} {r : GitHubHttpResponse} (now : Instant)
    (h : Throttled r) :
    (ResetOverflows u r ∧ rateLimitRetryAfter u r now = .error .overflow) ∨
    (¬ResetOverflows u r ∧ ∃ seconds, rateLimitRetryAfter u r now = .ok (some seconds)) := by
  have hstatus : ¬(r.statusCode ≠ 403 ∧ r.statusCode ≠ 429) := by
    rcases h with h | h <;> simp [h]
  simp only [rateLimitRetryAfter, if_neg hstatus]
  cases hretry : r.retryAfter.filter isAsciiText with
  | some text =>
    refine .inr ⟨fun hover => ?_, _, rfl⟩
    rw [hover.2.1] at hretry
    cases hretry
  | none =>
    cases hreset : r.rateLimitReset.filter isAsciiText with
    | none =>
      refine .inr ⟨fun hover => ?_, _, rfl⟩
      obtain ⟨text, reset, htext, hascii, -, -⟩ := hover.2.2.2
      simp [htext, hascii] at hreset
    | some text =>
      obtain ⟨htext, hascii⟩ := Option.filter_eq_some_iff.mp hreset
      by_cases hremaining : r.rateLimitRemaining = some "0"
      · simp only [hremaining, if_true]
        cases hint : integerOfText u text with
        | none =>
          refine .inr ⟨fun hover => ?_, _, rfl⟩
          obtain ⟨text', reset, htext', -, hint', -⟩ := hover.2.2.2
          rw [htext] at htext'
          cases htext'
          rw [hint] at hint'
          cases hint'
        | some reset =>
          by_cases hlarge : tooLargeForDouble reset = true
          · refine .inl ⟨⟨h, hretry, hremaining, text, reset, htext, hascii, hint, hlarge⟩, ?_⟩
            simp only [doubleOfInt, hlarge, if_true]
            rfl
          · refine .inr ⟨fun hover => ?_, _, by
              simp only [doubleOfInt, hlarge]
              rfl⟩
            obtain ⟨text', reset', htext', -, hint', hlarge'⟩ := hover.2.2.2
            rw [htext] at htext'
            cases htext'
            rw [hint] at hint'
            cases hint'
            exact hlarge hlarge'
      · simp only [hremaining, if_false]
        exact .inr ⟨fun hover => hremaining hover.2.2.1, _, rfl⟩

theorem readOutcome_reads (u : Unicode) (s : ℕ) (o : Outcome) :
    Reads u s o (readOutcome u s o) := by
  cases o with
  | raised e => exact .raised e
  | response r now =>
    cases now with
    | naive => exact .naive r _
    | aware t =>
      simp only [readOutcome, awareUtc, Except.ok_bind]
      by_cases hthrottled : Throttled r
      · rcases rateLimitRetryAfter_of_throttled (u := u) t hthrottled with
          ⟨hover, hread⟩ | ⟨hover, seconds, hread⟩
        · rw [hread]
          exact .overflow r t hover
        · rw [hread]
          exact .throttled r t seconds _ hthrottled hover
      · rw [rateLimitRetryAfter_of_calm hthrottled]
        simp only [Except.ok_bind]
        split
        · exact .unauthorized r t _ hthrottled ‹_›
        · split
          · exact .unavailable r t _ hthrottled ‹_›
          · split
            · exact .unexpected r t _ hthrottled ‹_›
            · exact .success r t hthrottled (not_not.mp ‹_›)

/-! ### One attempt to revoke -/

/-- The error says that the revocation of a credential is uncertain. -/
def Raised.IsCleanup (e : Raised) : Prop := ∃ message, e = .github ⟨.credentialCleanup, message⟩

/-- A call ends with the error that says so. -/
def CleanupRaised {α : Type} (r : Except Raised α) : Prop := ∃ e, r = .error e ∧ e.IsCleanup

/-- The token is known to be without authority: its revocation was answered 204 without a
body, or 401. The client's own error for a 401 answer counts as one. -/
def Outcome.Answered : Outcome → Prop
  | .raised e => e.cls = .authorization (some 401)
  | .response r (.aware _) => (r.statusCode = 204 ∧ r.body = .empty) ∨ r.statusCode = 401
  | .response _ .naive => False

/-- No handler of the loop knows what is raised on this outcome. -/
def Outcome.Escapes (u : Unicode) : Outcome → Prop
  | .raised e => e.cls = .app ∨ e.cls = .permission ∨ e.cls = .webhookVerification
  | .response r (.aware _) => ResetOverflows u r
  | .response _ .naive => False

/-- What an attempt makes of an outcome. -/
def revocationResult (u : Unicode) (o : Outcome) : Except Raised Unit :=
  readOutcome u 204 o >>= GitHubAppCredentialBroker.readRevocation

namespace GitHubAppCredentialBroker
variable {b : GitHubAppCredentialBroker} {token : String}

/-- How an attempt ends and what the loop does about it. -/
inductive Attempt (u : Unicode) (attempt : ℕ) (o : Outcome) : Except Raised Unit → Prop
  | done (answered : o.Answered) (calm : ¬o.Escapes u) : Attempt u attempt o (.ok ())
  | revoked (e : Raised) (verdict : onFailure attempt e = .revoked) (answered : o.Answered)
      (calm : ¬o.Escapes u) : Attempt u attempt o (.error e)
  | retry (e : Raised) (delay : ℕ) (verdict : onFailure attempt e = .retry delay)
      (more : attempt ≠ 2) (calm : ¬o.Escapes u) : Attempt u attempt o (.error e)
  | uncertain (e : Raised) (verdict : onFailure attempt e = .uncertain) (calm : ¬o.Escapes u) :
      Attempt u attempt o (.error e)
  | cleanup (e : Raised) (verdict : onFailure attempt e = .escapes) (cleanup : e.IsCleanup)
      (calm : ¬o.Escapes u) : Attempt u attempt o (.error e)
  | escapes (e : Raised) (verdict : onFailure attempt e = .escapes) (unknown : ¬e.IsCleanup)
      (wild : o.Escapes u) : Attempt u attempt o (.error e)

/-- A failure of a class that is retried, with its delay. -/
theorem Attempt.of_delay {u : Unicode} {attempt : ℕ} {o : Outcome} {e : Raised} (delay : ℕ)
    (h : onFailure attempt e = if attempt = 2 then .uncertain
      else if delay > 60 then .uncertain else .retry delay)
    (calm : ¬o.Escapes u) : Attempt u attempt o (.error e) := by
  by_cases hlast : attempt = 2
  · rw [if_pos hlast] at h
    exact .uncertain e h calm
  · rw [if_neg hlast] at h
    by_cases hlong : delay > 60
    · rw [if_pos hlong] at h
      exact .uncertain e h calm
    · rw [if_neg hlong] at h
      exact .retry e delay h hlast calm

/-- A response that was not authorized revokes the token or is tried again. -/
theorem Attempt.of_authorization {u : Unicode} {attempt : ℕ} {o : Outcome}
    {statusCode : Option ℕ} {message : String} (answered : statusCode = some 401 → o.Answered)
    (calm : ¬o.Escapes u) :
    Attempt u attempt o (.error (.github ⟨.authorization statusCode, message⟩)) := by
  by_cases hstatus : statusCode = some 401
  · exact .revoked _ (by simp [onFailure, hstatus]) (answered hstatus) calm
  · by_cases hlast : attempt = 2
    · exact .uncertain _ (by simp [onFailure, hstatus, hlast]) calm
    · exact .retry _ (2 ^ attempt) (by simp [onFailure, hstatus, hlast]) hlast calm

/-- An error of the transport, by its class. -/
theorem Attempt.of_raised (u : Unicode) (attempt : ℕ) (e : GitHubAppError) :
    Attempt u attempt (.raised e) (.error (.github e)) := by
  obtain ⟨cls, message⟩ := e
  have hcalm (h : cls ≠ .app ∧ cls ≠ .permission ∧ cls ≠ .webhookVerification) :
      ¬(Outcome.raised ⟨cls, message⟩).Escapes u := by
    rintro (heq | heq | heq)
    · exact h.1 heq
    · exact h.2.1 heq
    · exact h.2.2 heq
  have hunknown (h : cls ≠ .credentialCleanup) :
      ¬(Raised.github ⟨cls, message⟩).IsCleanup := by
    rintro ⟨message', heq⟩
    cases heq
    exact h rfl
  cases cls with
  | app => exact .escapes _ rfl (hunknown (by decide)) (.inl rfl)
  | unavailable => exact .of_delay (2 ^ attempt) rfl (hcalm (by decide))
  | rateLimit seconds => exact .of_delay seconds rfl (hcalm (by simp))
  | authorization statusCode =>
    exact .of_authorization (fun hstatus => congrArg GitHubErrorClass.authorization hstatus)
      (hcalm (by simp))
  | protocol => exact .of_delay (2 ^ attempt) rfl (hcalm (by decide))
  | permission => exact .escapes _ rfl (hunknown (by decide)) (.inr (.inl rfl))
  | credentialCleanup => exact .cleanup _ rfl ⟨message, rfl⟩ (hcalm (by decide))
  | webhookVerification => exact .escapes _ rfl (hunknown (by decide)) (.inr (.inr rfl))

theorem revocationResult_attempt (u : Unicode) (attempt : ℕ) (o : Outcome) :
    Attempt u attempt o (revocationResult u o) := by
  have hreads := readOutcome_reads u 204 o
  unfold revocationResult
  generalize readOutcome u 204 o = read at hreads
  cases hreads with
  | raised e => exact .of_raised u attempt e
  | naive r message => exact .of_delay (2 ^ attempt) rfl (fun h => h)
  | overflow r t h =>
    refine .escapes _ rfl ?_ h
    rintro ⟨message, heq⟩
    cases heq
  | throttled r t seconds message h hreset => exact .of_delay seconds rfl hreset
  | unauthorized r t message h hstatus =>
    exact .of_authorization (fun heq => .inr (Option.some.inj heq)) (fun hover => h hover.1)
  | unavailable r t message h hstatus =>
    exact .of_delay (2 ^ attempt) rfl (fun hover => h hover.1)
  | unexpected r t message h hstatus =>
    exact .of_delay (2 ^ attempt) rfl (fun hover => h hover.1)
  | success r t h hstatus =>
    have hcalm : ¬(Outcome.response r (.aware t)).Escapes u := fun hover => h hover.1
    simp only [Except.ok_bind, readRevocation]
    cases hbody : r.body with
    | empty => exact .done (.inl ⟨hstatus, hbody⟩) hcalm
    | malformed => exact .of_delay (2 ^ attempt) rfl hcalm
    | nested value => exact .of_delay (2 ^ attempt) rfl hcalm
    | text value => exact .of_delay (2 ^ attempt) rfl hcalm

/-! ### The loop -/

theorem run_tryRevoke (log : List Exchange) :
    (b.tryRevoke token).run log =
      (revocationResult b.runtime.unicode (b.outcomes log.length),
        [b.exchange (revocationRequest token) log]) := by
  rcases h : (b.tryRevoke token).run log with ⟨r, new⟩
  rcases Dialogue.run_bind h with ⟨e, hrequest, rfl⟩ | ⟨response, first, rest, hrequest, hread, rfl⟩
  · simp only [request, Dialogue.run_ask, Prod.mk.injEq] at hrequest
    rw [← hrequest.2]
    simp only [revocationResult, exchange] at hrequest ⊢
    rw [hrequest.1]
    rfl
  · simp only [request, Dialogue.run_ask, Prod.mk.injEq] at hrequest
    simp only [Dialogue.run_lift, Prod.mk.injEq] at hread
    rw [← hrequest.2, ← hread.1, ← hread.2]
    simp only [revocationResult, exchange] at hrequest ⊢
    rw [hrequest.1]
    rfl

/-- What a revocation asks, and how it ends. -/
structure Revocation (b : GitHubAppCredentialBroker) (token : String) (attempts : ℕ)
    (ended : Except Raised Unit) (new : List Exchange) : Prop where
  requests : ∀ x ∈ new, x.request = revocationRequest token
  asked : new ≠ []
  bounded : new.length ≤ attempts
  /-- The token lost its authority, or its state is reported as uncertain. -/
  settled : (ended = .ok () ∧ ∃ x ∈ new, x.outcome.Answered) ∨ CleanupRaised ended ∨
    (∃ e, ended = .error e ∧ ¬e.IsCleanup) 
  /-- Another error leaves the loop exactly when a request had an outcome without handler. -/
  escaped : (∃ e, ended = .error e ∧ ¬e.IsCleanup) ↔
    ∃ x ∈ new, x.outcome.Escapes b.runtime.unicode

theorem not_escaped_ok : ¬∃ e, (Except.ok () : Except Raised Unit) = .error e ∧ ¬e.IsCleanup := by
  rintro ⟨e, heq, -⟩
  cases heq

theorem not_escaped_of_cleanup {e : Raised} (h : e.IsCleanup) :
    ¬∃ e', (Except.error e : Except Raised Unit) = .error e' ∧ ¬e'.IsCleanup := by
  rintro ⟨e', heq, hunknown⟩
  cases heq
  exact hunknown h

/-- The loop stops at an exchange with a result. -/
theorem Revocation.single {attempts : ℕ} {ended : Except Raised Unit} {x : Exchange}
    (hrequest : x.request = revocationRequest token)
    (hsettled : (ended = .ok () ∧ x.outcome.Answered) ∨ CleanupRaised ended ∨
      ∃ e, ended = .error e ∧ ¬e.IsCleanup)
    (hescaped : (∃ e, ended = .error e ∧ ¬e.IsCleanup) ↔ x.outcome.Escapes b.runtime.unicode) :
    Revocation b token (attempts + 1) ended [x] where
  requests := by
    intro y hy
    rw [List.mem_singleton.mp hy]
    exact hrequest
  asked := List.cons_ne_nil _ _
  bounded := by simp
  settled := by simpa using hsettled
  escaped := by simpa using hescaped

theorem revokeAttempts_spec : ∀ (attempts : List ℕ), attempts.getLast? = some 2 →
    ∀ {log new : List Exchange} {ended : Except Raised Unit},
      (b.revokeAttempts token attempts).run log = (ended, new) →
      Revocation b token attempts.length ended new := by
  intro attempts
  induction attempts with
  | nil =>
    intro hlast
    cases hlast
  | cons attempt rest ih =>
    intro hlast log new ended h
    have hattempt := revocationResult_attempt b.runtime.unicode attempt (b.outcomes log.length)
    have hrequest : (b.exchange (revocationRequest token) log).request =
        revocationRequest token := rfl
    rcases Dialogue.run_rescue h with ⟨u, htry, rfl⟩ | ⟨e, first, more, htry, hhandler, rfl⟩
    · rw [run_tryRevoke, Prod.mk.injEq] at htry
      obtain ⟨hresult, rfl⟩ := htry
      rw [hresult] at hattempt
      cases hattempt with
      | done answered calm =>
        exact .single hrequest (.inl ⟨rfl, answered⟩) ⟨fun h => (not_escaped_ok h).elim,
          fun h => (calm h).elim⟩
    · rw [run_tryRevoke, Prod.mk.injEq] at htry
      obtain ⟨hresult, rfl⟩ := htry
      rw [hresult] at hattempt
      cases hattempt with
      | revoked e verdict answered calm =>
        simp only [verdict, Dialogue.run_pure, Prod.mk.injEq] at hhandler
        obtain ⟨rfl, rfl⟩ := hhandler
        exact .single hrequest (.inl ⟨rfl, answered⟩) ⟨fun h => (not_escaped_ok h).elim,
          fun h => (calm h).elim⟩
      | retry e delay verdict hmore calm =>
        simp only [verdict] at hhandler
        have hrest : rest.getLast? = some 2 := by
          cases rest with
          | nil => exact absurd (by simpa using hlast) hmore
          | cons next rest => simpa using hlast
        have hrec := ih hrest hhandler
        refine ⟨?_, by simp, ?_, ?_, ?_⟩
        · intro x hx
          rcases List.mem_cons.mp hx with rfl | hx
          · exact hrequest
          · exact hrec.requests x hx
        · simpa using hrec.bounded
        · refine hrec.settled.imp_left fun hdone => ⟨hdone.1, ?_⟩
          obtain ⟨x, hx, hanswered⟩ := hdone.2
          exact ⟨x, List.mem_cons_of_mem _ hx, hanswered⟩
        · rw [hrec.escaped]
          constructor
          · rintro ⟨x, hx, hwild⟩
            exact ⟨x, List.mem_cons_of_mem _ hx, hwild⟩
          · rintro ⟨x, hx, hwild⟩
            rcases List.mem_cons.mp hx with rfl | hx
            · exact absurd hwild calm
            · exact ⟨x, hx, hwild⟩
      | uncertain e verdict calm =>
        simp only [verdict, Dialogue.run_throw, Prod.mk.injEq] at hhandler
        obtain ⟨rfl, rfl⟩ := hhandler
        have hcleanup : cleanupError.IsCleanup := ⟨_, rfl⟩
        exact .single hrequest (.inr (.inl ⟨_, rfl, hcleanup⟩))
          ⟨fun h => (not_escaped_of_cleanup hcleanup h).elim, fun h => (calm h).elim⟩
      | cleanup e verdict hcleanup calm =>
        simp only [verdict, Dialogue.run_throw, Prod.mk.injEq] at hhandler
        obtain ⟨rfl, rfl⟩ := hhandler
        exact .single hrequest (.inr (.inl ⟨_, rfl, hcleanup⟩))
          ⟨fun h => (not_escaped_of_cleanup hcleanup h).elim, fun h => (calm h).elim⟩
      | escapes e verdict unknown wild =>
        simp only [verdict, Dialogue.run_throw, Prod.mk.injEq] at hhandler
        obtain ⟨rfl, rfl⟩ := hhandler
        exact .single hrequest (.inr (.inr ⟨_, rfl, unknown⟩))
          ⟨fun _ => wild, fun _ => ⟨_, rfl, unknown⟩⟩

theorem revokeInstallationToken_spec {log new : List Exchange} {ended : Except Raised Unit}
    (h : (b.revokeInstallationToken token).run log = (ended, new)) :
    Revocation b token 3 ended new :=
  revokeAttempts_spec [0, 1, 2] rfl h

end GitHubAppCredentialBroker

end ControlPlane.GitHubApp
