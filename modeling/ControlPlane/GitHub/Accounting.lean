import ControlPlane.GitHub.Revocation

/-!
# Every token is accounted for

A call of the broker is a sequence of exchanges, some of which carry a token. A token is
accounted for when the call gives it away in a credential that satisfies the policy of its
purpose, when its revocation was answered, or when the call ends with the error that says
that its state is uncertain.

## Main results

* `Trail.accounted_iff`: when the tokens of a trail are accounted for.
* `verifyInstallation_trail`, `mintInstallationToken_trail`: calls leave trails.
-/
namespace ControlPlane.GitHubApp

open Calendar (Instant)
open GitHubAppCredentialBroker (revocationRequest)

/-- The calls that receive tokens. -/
inductive Operation where
  | verify
  | mint (purpose : GitHubCredentialPurpose)
  deriving DecidableEq, Repr

/-- What a call gives its caller. -/
inductive Given where
  | attestation (a : GitHubInstallationAttestation)
  | credential (c : GitHubInstallationCredential)

namespace GitHubAppCredentialBroker

def call (b : GitHubAppCredentialBroker) : Operation → Call Given
  | .verify => do
    let a ← b.verifyInstallation
    pure (.attestation a)
  | .mint purpose => do
    let c ← b.mintInstallationToken purpose
    pure (.credential c)

end GitHubAppCredentialBroker

variable (b : GitHubAppCredentialBroker)

/-! ### Tokens in responses -/

/-- A success response to a request for a token carries a well-formed one, whatever its
content type and whether or not the decoder accepts the rest of its body. -/
def Exchange.Carries (x : Exchange) (token : String) : Prop :=
  x.request.method = .post ∧ x.request.path = b.accessTokensPath ∧
  ∃ r now fields, x.outcome = .response r now ∧ r.statusCode = 201 ∧
    (r.body = .text (.obj fields) ∨ r.body = .nested (.obj fields)) ∧
    ("token", Json.str token) ∈ fields ∧ isToken b.runtime.unicode token = true

/-- A response the client accepts as JSON, with a clock that knows its offset. -/
def Exchange.Readable (x : Exchange) : Prop :=
  ∃ r t value, x.outcome = .response r (.aware t) ∧ r.contentType = some "application/json" ∧
    r.body = .text value ∧ uniqueKeys value = true

/-- The response names one repository, the one the broker is configured for. -/
def SingleRepository (response : Json) : Prop :=
  ∃ repository fullName, response.get "repositories" = .arr [repository] ∧
    repository.get "id" = .int b.configuration.repositoryId ∧
    repository.get "full_name" = .str fullName ∧
    b.runtime.unicode.lower fullName.toList = b.configuration.repositoryKey.toList

/-- The policy of a credential's purpose, for the exchange its token was received in. -/
structure PolicyMet (log : List Exchange) (x : Exchange) (c : GitHubInstallationCredential) :
    Prop where
  requested : x.request.body = some (b.mintBody c.purpose)
  permissions : AcceptedPermissions c.purpose c.permissions
  repository : c.repositoryId = b.configuration.repositoryId ∧
    c.repositoryKey = b.configuration.repositoryKey
  single : ∃ r now fields, x.outcome = .response r now ∧ r.body = .text (.obj fields) ∧
    SingleRepository b (.obj fields)
  lifetime : ∃ now, b.clock (log.length + 1) = .aware now ∧ LifetimeOk c.expiresAt now

/-- The deletions that follow at once: those of one revocation. -/
def revocations (after : List Exchange) : List Exchange :=
  after.takeWhile fun x => x.request.method = .delete

/-- A token received in an exchange, after `log` and before `after`, is accounted for. -/
structure Settled (operation : Operation) (log : List Exchange) (r : Except Raised Given)
    (x : Exchange) (token : String) (after : List Exchange) : Prop where
  outcome : (∃ c, r = .ok (.credential c) ∧ operation = .mint c.purpose ∧ c.token = token ∧
      PolicyMet b log x c) ∨
    (∃ y ∈ revocations after, y.request = revocationRequest token ∧ y.outcome.Answered) ∨
    CleanupRaised r
  bounded : (revocations after).length ≤ 3
  /-- The revocation that ran ended well, or with the error about uncertainty. -/
  contained : revocations after ≠ [] → ∃ ended,
    (b.revokeInstallationToken token).run (log ++ [x]) = (ended, revocations after) ∧
      (ended = .ok () ∨ CleanupRaised ended)

/-- Every token received in a call is accounted for. -/
def Accounted (operation : Operation) (log : List Exchange) (r : Except Raised Given)
    (new : List Exchange) : Prop :=
  ∀ before x after token, new = before ++ x :: after → x.Carries b token →
    Settled b operation (log ++ before) r x token after

/-- The client can read every response that carries a token, and the loop has a handler for
whatever happens to a revocation request. -/
def Orderly (new : List Exchange) : Prop :=
  ∀ x ∈ new, (∀ token, x.Carries b token → x.Readable) ∧
    (x.request.method = .delete → ¬x.outcome.Escapes b.runtime.unicode)

variable {b} {operation : Operation} {log new : List Exchange} {r : Except Raised Given}
variable {x : Exchange} {token : String}

theorem Exchange.Carries.not_delete (h : x.Carries b token) : x.request.method ≠ .delete := by
  rw [h.1]
  decide

/-- A response that can be read carries one token at most. -/
theorem Exchange.Carries.unique {token' : String} (hread : x.Readable) (h : x.Carries b token)
    (h' : x.Carries b token') : token = token' := by
  obtain ⟨r, t, value, hx, -, hbody, hunique⟩ := hread
  obtain ⟨-, -, r₁, now, fields, hx₁, -, hbody₁, hmem, -⟩ := h
  obtain ⟨-, -, r₂, now', fields', hx₂, -, hbody₂, hmem', -⟩ := h'
  rw [hx] at hx₁ hx₂
  cases hx₁
  cases hx₂
  rw [hbody] at hbody₁ hbody₂
  have hvalue : value = .obj fields := by simpa using hbody₁
  have hvalue' : value = .obj fields' := by simpa using hbody₂
  subst hvalue
  cases hvalue'
  have hnodup : (fields.map Prod.fst).Nodup := by
    simp only [uniqueKeys, Bool.and_eq_true, decide_eq_true_eq] at hunique
    exact hunique.1
  have hpair := List.inj_on_of_nodup_map hnodup hmem hmem' rfl
  simpa using hpair

/-! ### Trails -/

theorem accounted_nil : Accounted b operation log r [] := by
  intro before x after token hsplit
  simp at hsplit

theorem orderly_nil : Orderly b [] := by
  intro x hx
  cases hx

theorem accounted_cons : Accounted b operation log r (x :: new) ↔
    (∀ token, x.Carries b token → Settled b operation log r x token new) ∧
      Accounted b operation (log ++ [x]) r new := by
  constructor
  · intro h
    refine ⟨fun token hcarries => ?_, fun before y after token hsplit hcarries => ?_⟩
    · simpa using h [] x new token rfl hcarries
    · have hsettled := h (x :: before) y after token (by rw [hsplit, List.cons_append]) hcarries
      rwa [List.append_cons] at hsettled
  · rintro ⟨hhead, hrest⟩ before y after token hsplit hcarries
    cases before with
    | nil =>
      simp only [List.nil_append, List.cons.injEq] at hsplit
      obtain ⟨rfl, rfl⟩ := hsplit
      simpa using hhead token hcarries
    | cons z before =>
      simp only [List.cons_append, List.cons.injEq] at hsplit
      obtain ⟨rfl, rfl⟩ := hsplit
      rw [List.append_cons]
      exact hrest before y after token rfl hcarries

theorem orderly_cons : Orderly b (x :: new) ↔
    ((∀ token, x.Carries b token → x.Readable) ∧
      (x.request.method = .delete → ¬x.outcome.Escapes b.runtime.unicode)) ∧ Orderly b new :=
  List.forall_mem_cons

/-- Deletions carry no tokens. -/
theorem accounted_append_of_deletions {revs : List Exchange}
    (h : ∀ y ∈ revs, y.request.method = .delete) :
    Accounted b operation log r (revs ++ new) ↔ Accounted b operation (log ++ revs) r new := by
  induction revs generalizing log with
  | nil => simp
  | cons y revs ih =>
    have hy : y.request.method = .delete := h y (List.mem_cons_self ..)
    rw [List.cons_append, accounted_cons, ih fun z hz => h z (List.mem_cons_of_mem _ hz),
      List.append_assoc, List.singleton_append]
    exact and_iff_right fun token hcarries => (hcarries.not_delete hy).elim

theorem orderly_append_of_deletions {revs : List Exchange}
    (h : ∀ y ∈ revs, y.request.method = .delete) :
    Orderly b (revs ++ new) ↔
      (∀ y ∈ revs, ¬y.outcome.Escapes b.runtime.unicode) ∧ Orderly b new := by
  rw [Orderly, List.forall_mem_append]
  refine and_congr (forall₂_congr fun y hy => ?_) Iff.rfl
  exact ⟨fun hcalm => hcalm.2 (h y hy),
    fun hcalm => ⟨fun token hcarries => (hcarries.not_delete (h y hy)).elim, fun _ => hcalm⟩⟩

/-- How the exchanges of a call follow one another, after `log` and up to a result. -/
inductive Trail (b : GitHubAppCredentialBroker) (operation : Operation) :
    List Exchange → Except Raised Given → List Exchange → Prop
  | done (log : List Exchange) (r : Except Raised Given) : Trail b operation log r []
  /-- An exchange without a token. -/
  | quiet {log new : List Exchange} {r : Except Raised Given} {x : Exchange}
      (silent : ∀ token, ¬x.Carries b token) (kept : x.request.method ≠ .delete)
      (rest : Trail b operation (log ++ [x]) r new) : Trail b operation log r (x :: new)
  /-- A response with a token that the client rejects before it sees the token. -/
  | unread {log : List Exchange} {e : Raised} {x : Exchange} {token : String}
      (carries : x.Carries b token) (unreadable : ¬x.Readable) (other : ¬e.IsCleanup) :
      Trail b operation log (.error e) [x]
  /-- A token that is revoked; an error of the revocation ends the call. -/
  | revoked {log revs new : List Exchange} {r : Except Raised Given} {x : Exchange}
      {token : String} {ended : Except Raised Unit} (carries : x.Carries b token)
      (readable : x.Readable)
      (ran : (b.revokeInstallationToken token).run (log ++ [x]) = (ended, revs))
      (ends : ∀ e, ended = .error e → r = .error e)
      (next : ∀ y ∈ new.head?, y.request.method ≠ .delete)
      (rest : Trail b operation (log ++ [x] ++ revs) r new) :
      Trail b operation log r (x :: (revs ++ new))
  /-- A token that is given away. -/
  | returned {log : List Exchange} {x : Exchange} {c : GitHubInstallationCredential}
      (carries : x.Carries b c.token) (readable : x.Readable)
      (asked : operation = .mint c.purpose) (policy : PolicyMet b log x c) :
      Trail b operation log (.ok (.credential c)) [x]

theorem revocations_append {revs : List Exchange} (h : ∀ y ∈ revs, y.request.method = .delete)
    (hnext : ∀ y ∈ new.head?, y.request.method ≠ .delete) : revocations (revs ++ new) = revs := by
  rw [revocations, List.takeWhile_append_of_pos fun y hy => decide_eq_true (h y hy)]
  cases new with
  | nil => simp
  | cons y new => simp [hnext y rfl]

/-- A token that was revoked is accounted for exactly when the revocation stayed orderly. -/
theorem settled_revoked_iff (operation : Operation) {revs : List Exchange} {ended : Except Raised Unit}
    (hran : (b.revokeInstallationToken token).run (log ++ [x]) = (ended, revs))
    (hends : ∀ e, ended = .error e → r = .error e)
    (hnext : ∀ y ∈ new.head?, y.request.method ≠ .delete) :
    Settled b operation log r x token (revs ++ new) ↔
      ∀ y ∈ revs, ¬y.outcome.Escapes b.runtime.unicode := by
  have hspec := GitHubAppCredentialBroker.revokeInstallationToken_spec hran
  have hdelete : ∀ y ∈ revs, y.request.method = .delete := by
    intro y hy
    rw [hspec.requests y hy]
    rfl
  have hrevs : revocations (revs ++ new) = revs := revocations_append hdelete hnext
  constructor
  · intro hsettled y hy hwild
    obtain ⟨e, rfl, hunknown⟩ := hspec.escaped.mpr ⟨y, hy, hwild⟩
    obtain ⟨ended', hran', hwell⟩ := hsettled.contained (by rw [hrevs]; exact hspec.asked)
    rw [hran, Prod.mk.injEq] at hran'
    obtain ⟨rfl, -⟩ := hran'
    rcases hwell with hok | ⟨e', heq, hcleanup⟩
    · cases hok
    · cases heq
      exact hunknown hcleanup
  · intro hcalm
    have hnone : ¬∃ e, ended = .error e ∧ ¬e.IsCleanup := by
      rw [hspec.escaped]
      rintro ⟨y, hy, hwild⟩
      exact hcalm y hy hwild
    refine ⟨?_, by rw [hrevs]; exact hspec.bounded, fun _ => ⟨ended, by rw [hrevs]; exact hran, ?_⟩⟩
    · rcases hspec.settled with ⟨-, y, hy, hanswered⟩ | ⟨e, heq, hcleanup⟩ | hunknown
      · exact .inr (.inl ⟨y, by rw [hrevs]; exact hy, hspec.requests y hy, hanswered⟩)
      · exact .inr (.inr ⟨e, hends e heq, hcleanup⟩)
      · exact absurd hunknown hnone
    · rcases hspec.settled with ⟨hok, -⟩ | hcleanup | hunknown
      · exact .inl hok
      · exact .inr hcleanup
      · exact absurd hunknown hnone

/-- The tokens of a trail are accounted for exactly when the trail is orderly. -/
theorem Trail.accounted_iff (h : Trail b operation log r new) :
    Accounted b operation log r new ↔ Orderly b new := by
  induction h with
  | done log r => exact iff_of_true accounted_nil orderly_nil
  | quiet silent kept rest ih =>
    rw [accounted_cons, orderly_cons, ih]
    exact and_congr_left fun _ => iff_of_true (fun token hcarries => (silent token hcarries).elim)
      ⟨fun token hcarries => (silent token hcarries).elim, fun hdelete => (kept hdelete).elim⟩
  | unread carries unreadable other =>
    refine iff_of_false (fun haccounted => ?_) fun horderly => ?_
    · rcases ((accounted_cons.mp haccounted).1 _ carries).outcome with
        ⟨c, hr, -⟩ | ⟨y, hy, -⟩ | ⟨e, hr, hcleanup⟩
      · cases hr
      · cases hy
      · cases hr
        exact other hcleanup
    · exact unreadable ((horderly _ (List.mem_singleton_self _)).1 _ carries)
  | @revoked log revs new r x token ended carries readable ran ends next rest ih =>
    have hspec := GitHubAppCredentialBroker.revokeInstallationToken_spec ran
    have hdelete : ∀ y ∈ revs, y.request.method = .delete := by
      intro y hy
      rw [hspec.requests y hy]
      rfl
    rw [accounted_cons, orderly_cons, accounted_append_of_deletions hdelete,
      orderly_append_of_deletions hdelete, ih]
    have hhead : (∀ token', x.Carries b token' →
        Settled b operation log r x token' (revs ++ new)) ↔
        ∀ y ∈ revs, ¬y.outcome.Escapes b.runtime.unicode := by
      rw [← settled_revoked_iff operation ran ends next]
      constructor
      · exact fun hsettled => hsettled token carries
      · intro hsettled token' hcarries
        rw [Exchange.Carries.unique readable hcarries carries]
        exact hsettled
    rw [hhead]
    constructor
    · rintro ⟨hcalm, hrest⟩
      exact ⟨⟨fun _ _ => readable, fun hmethod => (carries.not_delete hmethod).elim⟩, hcalm, hrest⟩
    · rintro ⟨-, hcalm, hrest⟩
      exact ⟨hcalm, hrest⟩
  | @returned log x c carries readable asked policy =>
    refine iff_of_true ?_ ?_
    · refine accounted_cons.mpr ⟨fun token hcarries => ?_, accounted_nil⟩
      refine ⟨.inl ⟨c, rfl, asked, Exchange.Carries.unique readable carries hcarries, policy⟩,
        Nat.zero_le _, fun hne => (hne rfl).elim⟩
    · refine orderly_cons.mpr ⟨⟨fun _ _ => readable, fun hmethod => ?_⟩, orderly_nil⟩
      exact (carries.not_delete hmethod).elim

/-! ### The parts of a call -/

/-- A request and the reading of its response as JSON are one exchange. -/
theorem run_requestJson {α : Type} {decode : ResponseBody → Except Raised α}
    {request : GitHubHttpRequest} {s : ℕ} {r : Except Raised α}
    (h : (b.requestJson decode request s).run log = (r, new)) :
    new = [b.exchange request log] ∧
      r = readOutcome b.runtime.unicode s (b.outcomes log.length) >>= readJsonAs decode := by
  rcases Dialogue.run_bind h with ⟨e, hrequest, rfl⟩ | ⟨response, first, rest, hrequest, hread, rfl⟩
  · simp only [GitHubAppCredentialBroker.request, Dialogue.run_ask, Prod.mk.injEq] at hrequest
    obtain ⟨hresult, hnew⟩ := hrequest
    simp only [GitHubAppCredentialBroker.exchange] at hresult
    rw [hresult]
    exact ⟨hnew.symm, rfl⟩
  · simp only [GitHubAppCredentialBroker.request, Dialogue.run_ask, Prod.mk.injEq] at hrequest
    simp only [Dialogue.run_lift, Prod.mk.injEq] at hread
    obtain ⟨hresult, hnew⟩ := hrequest
    simp only [GitHubAppCredentialBroker.exchange] at hresult
    rw [hresult, ← hread.2, List.append_nil, ← hnew]
    exact ⟨rfl, hread.1.symm⟩

theorem lookup_of_mem_nodup {fields : List (String × Json)} {key : String} {value : Json}
    (hnodup : (fields.map Prod.fst).Nodup) (h : (key, value) ∈ fields) :
    (Json.obj fields).get key = value := by
  have hlookup : fields.lookup key = some value := by
    induction fields with
    | nil => cases h
    | cons field fields ih =>
      obtain ⟨k, v⟩ := field
      rw [List.map_cons, List.nodup_cons] at hnodup
      rcases List.mem_cons.mp h with heq | hmem
      · cases heq
        simp
      · have hne : key ≠ k := by
          rintro rfl
          exact hnodup.1 (List.mem_map.mpr ⟨_, hmem, rfl⟩)
        rw [List.lookup_cons, beq_false_of_ne hne]
        exact ih hnodup.2 hmem
  simp [Json.get, Json.get?, Json.obj?, hlookup]

theorem mem_of_get_eq_str {fields : List (String × Json)} {key text : String}
    (h : (Json.obj fields).get key = .str text) : (key, Json.str text) ∈ fields := by
  cases hlookup : fields.lookup key with
  | none => simp [Json.get, Json.get?, Json.obj?, hlookup] at h
  | some value =>
    have hvalue : value = .str text := by
      simpa [Json.get, Json.get?, Json.obj?, hlookup] using h
    subst hvalue
    obtain ⟨before, after, rfl, -⟩ := List.lookup_eq_some_iff.mp hlookup
    exact List.mem_append_right _ (List.mem_cons_self ..)

/-- What a decoded answer to a request for a token was. -/
theorem readable_of_ok {fields : List (String × Json)} {o : Outcome}
    (h : readOutcome b.runtime.unicode 201 o >>= readJsonAs decodeJsonObject = .ok fields) :
    ∃ response t, o = .response response (.aware t) ∧ response.statusCode = 201 ∧
      response.contentType = some "application/json" ∧ response.body = .text (.obj fields) ∧
      uniqueKeys (.obj fields) = true := by
  obtain ⟨response, hread, hjson⟩ := Except.bind_eq_ok.mp h
  have hreads := readOutcome_reads b.runtime.unicode 201 o
  rw [hread] at hreads
  cases hreads with
  | success response t hcalm hstatus =>
    simp only [readJsonAs, decodeJsonObject, Except.bind_eq_ok, Except.require_eq_ok,
      Except.orThrow_eq_ok, Json.obj?_eq_some, exists_const] at hjson
    obtain ⟨htype, value, hdecode, rfl⟩ := hjson
    cases hbody : response.body with
    | empty => simp [decodeJson, hbody] at hdecode
    | malformed => simp [decodeJson, hbody] at hdecode
    | nested value => simp [decodeJson, hbody] at hdecode
    | text value =>
      simp only [decodeJson, hbody] at hdecode
      split at hdecode
      · cases hdecode
        exact ⟨response, t, rfl, hstatus, htype, hbody, ‹_›⟩
      · cases hdecode

/-- A response that carries a token and is rejected cannot be read as JSON. -/
theorem unreadable_of_error {e : Raised} (hcarries : x.Carries b token)
    (h : readOutcome b.runtime.unicode 201 x.outcome >>= readJsonAs decodeJsonObject =
      .error e) : ¬x.Readable ∧ ¬e.IsCleanup := by
  obtain ⟨-, -, response, now, fields, hx, hstatus, hbody, hmem, htoken⟩ := hcarries
  have hreads := readOutcome_reads b.runtime.unicode 201 x.outcome
  generalize hread : readOutcome b.runtime.unicode 201 x.outcome = read at hreads h
  rw [hx] at hreads
  have hprotocol : ∀ message, ¬(protocolError message).IsCleanup := by
    rintro message ⟨message', heq⟩
    cases heq
  cases hreads with
  | naive r message =>
    cases h
    refine ⟨?_, hprotocol message⟩
    rintro ⟨r', t, value, hx', -⟩
    rw [hx] at hx'
    cases hx'
  | overflow r t hover => rcases hover.1 with h403 | h429 <;> omega
  | throttled r t seconds message hthrottled => rcases hthrottled with h403 | h429 <;> omega
  | unauthorized r t message hcalm hstatus' => rcases hstatus' with h401 | h404 <;> omega
  | unavailable r t message hcalm hstatus' => omega
  | unexpected r t message hcalm hstatus' => exact absurd hstatus hstatus'
  | success r t hcalm hstatus' =>
    have hreadable (hxread : x.Readable) : response.contentType = some "application/json" ∧
        response.body = .text (.obj fields) ∧ uniqueKeys (.obj fields) = true := by
      obtain ⟨r', t', value, hx', htype, hbody', hunique⟩ := hxread
      rw [hx] at hx'
      cases hx'
      rw [hbody'] at hbody
      have hvalue : value = .obj fields := by simpa using hbody
      subst hvalue
      exact ⟨htype, hbody', hunique⟩
    constructor
    · intro hxread
      obtain ⟨htype, htext, hunique⟩ := hreadable hxread
      simp [readJsonAs, htype, decodeJsonObject, htext, decodeJson, hunique, Json.obj?,
        Except.orThrow] at h
    · rintro ⟨message, rfl⟩
      by_cases htype : response.contentType = some "application/json"
      · simp only [readJsonAs, htype, Except.require_of, Except.ok_bind, decodeJsonObject] at h
        rcases hbody with htext | hnested
        · by_cases hunique : uniqueKeys (.obj fields) = true
          · simp [htext, decodeJson, hunique, Json.obj?, Except.orThrow] at h
          · simp only [htext, decodeJson, hunique] at h
            cases h
        · simp only [hnested, decodeJson] at h
          cases h
      · simp only [readJsonAs, Except.ok_bind, Except.require, if_neg htype] at h
        cases h

/-- A request for a token: what its exchange carries, by how far the client got with it. -/
inductive TokenRead (b : GitHubAppCredentialBroker) (x : Exchange) (message : String) :
    Except Raised (List (String × Json)) → Prop
  | silent {r : Except Raised (List (String × Json))} (silent : ∀ token, ¬x.Carries b token)
      (rejected : ∀ fields, r = .ok fields →
        ∃ e, tokenOf b.runtime.unicode (.obj fields) message = .error e) : TokenRead b x message r
  | unread {e : Raised} {token : String} (carries : x.Carries b token)
      (unreadable : ¬x.Readable) (other : ¬e.IsCleanup) : TokenRead b x message (.error e)
  | read {fields : List (String × Json)} {token : String} (carries : x.Carries b token)
      (readable : x.Readable)
      (found : tokenOf b.runtime.unicode (.obj fields) message = .ok token)
      (response : ∃ r now, x.outcome = .response r now ∧ r.body = .text (.obj fields)) :
      TokenRead b x message (.ok fields)

theorem tokenOf_eq_ok {u : Unicode} {response : Json} {message : String} :
    tokenOf u response message = .ok token ↔
      response.get "token" = .str token ∧ isToken u token = true := by
  unfold tokenOf
  split
  · rename_i text htext
    by_cases htoken : isToken u text = true
    · simp only [htoken, if_true, Except.ok.injEq, htext, Json.str.injEq]
      constructor
      · rintro rfl
        exact ⟨rfl, htoken⟩
      · exact fun h => h.1
    · simp only [htoken, htext, Json.str.injEq]
      constructor
      · intro h
        cases h
      · rintro ⟨rfl, h⟩
        exact absurd h htoken
  · rename_i hother
    constructor
    · intro h
      cases h
    · rintro ⟨htext, -⟩
      exact absurd htext (hother token)

theorem tokenRead (b : GitHubAppCredentialBroker) (log : List Exchange) (request : GitHubHttpRequest) (message : String)
    (hmethod : request.method = .post) (hpath : request.path = b.accessTokensPath) :
    TokenRead b (b.exchange request log) message
      (readOutcome b.runtime.unicode 201 (b.outcomes log.length) >>=
        readJsonAs decodeJsonObject) := by
  generalize hr : readOutcome b.runtime.unicode 201 (b.outcomes log.length) >>=
    readJsonAs decodeJsonObject = r
  cases r with
  | error e =>
    by_cases hcarries : ∃ token, (b.exchange request log).Carries b token
    · obtain ⟨token, hcarries⟩ := hcarries
      obtain ⟨hunreadable, hother⟩ := unreadable_of_error hcarries hr
      exact .unread hcarries hunreadable hother
    · refine .silent (fun token h => hcarries ⟨token, h⟩) fun fields h => ?_
      cases h
  | ok fields =>
    obtain ⟨response, t, ho, hstatus, htype, hbody, hunique⟩ := readable_of_ok hr
    have hnodup : (fields.map Prod.fst).Nodup := by
      simp only [uniqueKeys, Bool.and_eq_true, decide_eq_true_eq] at hunique
      exact hunique.1
    cases htoken : tokenOf b.runtime.unicode (.obj fields) message with
    | ok token =>
      obtain ⟨hget, hok⟩ := tokenOf_eq_ok.mp htoken
      refine .read ⟨hmethod, hpath, response, .aware t, fields, ho, hstatus, .inl hbody,
        mem_of_get_eq_str hget, hok⟩ ⟨response, t, .obj fields, ho, htype, hbody, hunique⟩ htoken
        ⟨response, .aware t, ho, hbody⟩
    | error e =>
      refine .silent (fun token hcarries => ?_) fun fields' heq => ?_
      · obtain ⟨-, -, response', now, fields', ho', -, hbody', hmem, hok⟩ := hcarries
        simp only [GitHubAppCredentialBroker.exchange] at ho'
        rw [ho] at ho'
        cases ho'
        rw [hbody] at hbody'
        have hfields : fields = fields' := by simpa using hbody'
        subst hfields
        rw [tokenOf_eq_ok.mpr ⟨lookup_of_mem_nodup hnodup hmem, hok⟩] at htoken
        cases htoken
      · cases heq
        exact ⟨e, htoken⟩

/-! ### Checks of a minted token -/

theorem requiredInteger_eq_ok {j : Json} {key : String} {n : ℤ}
    (h : requiredInteger j key = .ok n) : j.get key = .int n := by
  unfold requiredInteger at h
  split at h
  · split at h
    · cases h
    · cases h
      assumption
  · cases h

theorem singleRepository_of_ok {response : Json}
    (h : b.requireExactRepositoryScope response = .ok ()) : SingleRepository b response := by
  unfold GitHubAppCredentialBroker.requireExactRepositoryScope at h
  split at h
  · rename_i repository hone
    simp only [Except.ok_bind, Except.bind_eq_ok, Except.require_eq_ok, exists_const] at h
    obtain ⟨-, id, hid, rfl, hname⟩ := h
    split at hname
    · rename_i fullName hfull
      rw [Except.require_eq_ok] at hname
      exact ⟨repository, fullName, hone, requiredInteger_eq_ok hid, hfull, hname.2⟩
    · cases hname
  · cases h

/-- A credential that leaves the checks satisfies the policy of its purpose. -/
theorem policyMet_of_checkMint (log : List Exchange) {purpose : GitHubCredentialPurpose}
    {c : GitHubInstallationCredential} {fields : List (String × Json)}
    (hbody : x.request.body = some (b.mintBody purpose))
    (hresponse : ∃ r now, x.outcome = .response r now ∧ r.body = .text (.obj fields))
    (h : b.checkMint purpose token (b.clock (log.length + 1)) (.obj fields) = .ok c) :
    c.token = token ∧ c.purpose = purpose ∧ PolicyMet b log x c := by
  simp only [GitHubAppCredentialBroker.checkMint, Except.bind_eq_ok, Except.require_eq_ok,
    exists_const, Except.ok.injEq] at h
  obtain ⟨expiresAt, -, now, hnow, hlifetime, permissions, -, haccepted, scope, hscope, rfl⟩ := h
  have hclock : b.clock (log.length + 1) = .aware now := by
    cases hreading : b.clock (log.length + 1) with
    | naive => simp [hreading, awareUtc] at hnow
    | aware t =>
      simp only [hreading, awareUtc, Except.ok.injEq] at hnow
      rw [hnow]
  obtain ⟨r, time, ho, htext⟩ := hresponse
  have hsorted : (sortedItems permissions).Perm permissions := List.perm_insertionSort _ _
  exact ⟨rfl, rfl, hbody, haccepted.imp hsorted.trans hsorted.trans, ⟨rfl, rfl⟩,
    ⟨r, time, fields, ho, htext, singleRepository_of_ok hscope⟩, now, hclock, hlifetime⟩

/-! ### Calls leave trails -/

/-- Exchanges that do not go on with a revocation. -/
def Fresh (new : List Exchange) : Prop := ∀ y ∈ new.head?, y.request.method ≠ .delete

theorem fresh_nil : Fresh [] := by
  intro y hy
  cases hy

theorem fresh_cons (h : x.request.method ≠ .delete) : Fresh (x :: new) := by
  intro y hy
  obtain rfl : x = y := by simpa using hy
  exact h

/-- A request for a token fails, and the trail ends there, or its token goes to what
follows. -/
theorem run_receive (operation : Operation) {α : Type} {request : GitHubHttpRequest} {message : String}
    {k : List (String × Json) → String → Call α} {ended : Except Raised α}
    (hmethod : request.method = .post) (hpath : request.path = b.accessTokensPath)
    (h : (b.requestJson decodeJsonObject request 201 >>= fun fields =>
      Dialogue.lift (tokenOf b.runtime.unicode (.obj fields) message) >>= fun token =>
        k fields token).run log = (ended, new)) :
    (∃ e, ended = .error e ∧ new = [b.exchange request log] ∧
      Trail b operation log (.error e) new) ∨
    (∃ fields token rest, (b.exchange request log).Carries b token ∧
      (b.exchange request log).Readable ∧
      (∃ r now, (b.exchange request log).outcome = .response r now ∧
        r.body = .text (.obj fields)) ∧
      (k fields token).run (log ++ [b.exchange request log]) = (ended, rest) ∧
      new = b.exchange request log :: rest) := by
  have hkept : (b.exchange request log).request.method ≠ .delete := by
    change request.method ≠ .delete
    rw [hmethod]
    decide
  have hread := tokenRead b log request message hmethod hpath
  rcases Dialogue.run_bind h with ⟨e, hrequest, rfl⟩ | ⟨fields, first, rest, hrequest, hrest, rfl⟩
  · obtain ⟨rfl, hresult⟩ := run_requestJson hrequest
    rw [← hresult] at hread
    refine .inl ⟨e, rfl, rfl, ?_⟩
    cases hread with
    | silent silent rejected => exact .quiet silent hkept (.done _ _)
    | unread carries unreadable other => exact .unread carries unreadable other
  · obtain ⟨rfl, hresult⟩ := run_requestJson hrequest
    rw [← hresult] at hread
    rcases Dialogue.run_bind hrest with
      ⟨e, htoken, rfl⟩ | ⟨token, none, rest, htoken, hnext, rfl⟩
    · rw [Dialogue.run_lift, Prod.mk.injEq] at htoken
      obtain ⟨htoken, rfl⟩ := htoken
      refine .inl ⟨e, rfl, rfl, ?_⟩
      cases hread with
      | silent silent rejected => exact .quiet silent hkept (.done _ _)
      | read carries readable found response =>
        rw [found] at htoken
        cases htoken
    · rw [Dialogue.run_lift, Prod.mk.injEq] at htoken
      obtain ⟨htoken, rfl⟩ := htoken
      rw [List.append_nil] at hnext
      cases hread with
      | silent silent rejected =>
        obtain ⟨e, he⟩ := rejected fields rfl
        rw [he] at htoken
        cases htoken
      | read carries readable found response =>
        rw [found, Except.ok.injEq] at htoken
        subst htoken
        exact .inr ⟨fields, _, rest, carries, readable, response, hnext, rfl⟩

/-- How a part of a call leaves its trail: it ends there with its error, or goes on with
what follows. -/
structure Leaves (b : GitHubAppCredentialBroker) (operation : Operation) {α : Type}
    (log : List Exchange) (ended : Except Raised α) (new : List Exchange) : Prop where
  fresh : Fresh new
  stops : ∀ e, ended = .error e → Trail b operation log (.error e) new
  goesOn : ∀ a, ended = .ok a → ∀ r rest, Trail b operation (log ++ new) r rest → Fresh rest →
    Trail b operation log r (new ++ rest)

theorem Leaves.nothing {α : Type} (log : List Exchange) (ended : Except Raised α) :
    Leaves b operation log ended [] where
  fresh := fresh_nil
  stops := fun e _ => .done log (.error e)
  goesOn := by
    intro a _ r rest htrail _
    rwa [List.append_nil] at htrail

/-- An error ends the trail. -/
theorem Leaves.of_error {α : Type} {e : Raised} (hfresh : Fresh new)
    (h : Trail b operation log (.error e) new) :
    Leaves b operation log (.error e : Except Raised α) new where
  fresh := hfresh
  stops := by
    intro e' heq
    cases heq
    exact h
  goesOn := by
    intro a heq
    cases heq

/-- An exchange without a token comes first. -/
theorem Leaves.quiet {α : Type} {ended : Except Raised α}
    (silent : ∀ token, ¬x.Carries b token) (kept : x.request.method ≠ .delete)
    (h : Leaves b operation (log ++ [x]) ended new) : Leaves b operation log ended (x :: new) where
  fresh := fresh_cons kept
  stops := fun e heq => .quiet silent kept (h.stops e heq)
  goesOn := by
    intro a heq r rest htrail hfresh
    refine .quiet silent kept (h.goesOn a heq r rest ?_ hfresh)
    rwa [List.append_assoc, List.singleton_append]

/-- The audit token is revoked however its checks end. -/
theorem leaves_audit {α : Type} {check : Call Unit} {ended : Except Raised α} {a : α}
    (hcheck : ∀ log, (check.run log).2 = []) (hcarries : x.Carries b token)
    (hreadable : x.Readable)
    (h : (check.ensure (b.revokeInstallationToken token) >>= fun _ => pure a).run (log ++ [x]) =
      (ended, new)) : Leaves b operation log ended (x :: new) := by
  have hrevoked {ended' : Except Raised Unit} {r : Except Raised Given} {revs rest : List Exchange}
      (hran : (b.revokeInstallationToken token).run (log ++ [x]) = (ended', revs))
      (hends : ∀ e, ended' = .error e → r = .error e) (hfresh : Fresh rest)
      (htrail : Trail b operation (log ++ [x] ++ revs) r rest) :
      Trail b operation log r (x :: (revs ++ rest)) :=
    .revoked hcarries hreadable hran hends hfresh htrail
  rcases Dialogue.run_bind h with ⟨e, hensure, rfl⟩ | ⟨u, first, rest, hensure, hpure, rfl⟩
  · obtain ⟨none, revs, ended', hran, rfl, hnone, hended⟩ := Dialogue.run_ensure hensure
    obtain rfl : none = [] := hnone.symm.trans (hcheck _)
    rw [List.append_nil] at hran
    refine .of_error (fresh_cons hcarries.not_delete) ?_
    have htrail : Trail b operation log (.error e) (x :: (revs ++ [])) :=
      hrevoked hran (fun e' heq => ?_) fresh_nil (.done _ _)
    · simpa using htrail
    · rcases hended with ⟨e₁, he₁, he⟩ | ⟨hok, -⟩
      · rw [heq] at he₁
        cases he₁
        exact congrArg Except.error (Except.error.inj he)
      · rw [heq] at hok
        cases hok
  · simp only [Dialogue.run_pure, Prod.mk.injEq] at hpure
    obtain ⟨rfl, rfl⟩ := hpure
    obtain ⟨none, revs, ended', hran, rfl, hnone, hended⟩ := Dialogue.run_ensure hensure
    obtain rfl : none = [] := hnone.symm.trans (hcheck _)
    rw [List.append_nil] at hran
    refine ⟨fresh_cons hcarries.not_delete, fun e heq => ?_, fun a' _ r rest htrail hfresh => ?_⟩
    · cases heq
    · rcases hended with ⟨e₁, -, he⟩ | ⟨hok, -⟩
      · cases he
      · have hnext : Trail b operation log r (x :: (revs ++ rest)) :=
          hrevoked hran (fun e heq => ?_) hfresh (by simpa using htrail)
        · simpa using hnext
        · rw [hok] at heq
          cases heq

theorem verifyInstallation_leaves {ended : Except Raised GitHubInstallationAttestation}
    (h : b.verifyInstallation.run log = (ended, new)) : Leaves b operation log ended new := by
  have hquiet (jwt : String) (token : String) :
      ¬(b.exchange (GitHubAppCredentialBroker.installationsRequest jwt) log).Carries b token :=
    fun hcarries => absurd hcarries.1 HttpMethod.noConfusion
  have hkept (jwt : String) :
      (b.exchange (GitHubAppCredentialBroker.installationsRequest jwt) log).request.method ≠
        .delete :=
    HttpMethod.noConfusion
  rcases Dialogue.run_bind h with ⟨e, hjwt, rfl⟩ | ⟨jwt, none, rest, hjwt, hlists, rfl⟩
  · obtain rfl : new = [] := (congrArg Prod.snd hjwt).symm
    exact .nothing _ _
  · obtain rfl : none = [] := (congrArg Prod.snd hjwt).symm
    simp only [List.append_nil, List.nil_append] at hlists ⊢
    rcases Dialogue.run_bind hlists with
      ⟨e, hlist, rfl⟩ | ⟨installations, first, rest, hlist, hchecks, rfl⟩
    · rw [(run_requestJson hlist).1]
      exact .quiet (hquiet jwt) (hkept jwt) (.nothing _ _)
    · obtain rfl := (run_requestJson hlist).1
      refine .quiet (hquiet jwt) (hkept jwt) ?_
      rcases Dialogue.run_bind hchecks with
        ⟨e, hcheck, rfl⟩ | ⟨granted, none, rest, hcheck, haudit, rfl⟩
      · obtain rfl : rest = [] := (congrArg Prod.snd hcheck).symm
        exact .nothing _ _
      · obtain rfl : none = [] := (congrArg Prod.snd hcheck).symm
        simp only [List.append_nil, List.nil_append] at haudit ⊢
        obtain ⟨permissions, events⟩ := granted
        rcases run_receive operation rfl rfl haudit with
          ⟨e, rfl, rfl, htrail⟩ | ⟨fields, token, rest, hcarries, hreadable, -, hrevoke, rfl⟩
        · exact .of_error (fresh_cons HttpMethod.noConfusion) htrail
        · exact leaves_audit (fun _ => rfl) hcarries hreadable hrevoke

/-- A minted token is given away or revoked. -/
theorem mintInstallationToken_trail {purpose : GitHubCredentialPurpose}
    {ended : Except Raised GitHubInstallationCredential}
    (h : (b.mintInstallationToken purpose).run log = (ended, new)) :
    Trail b (.mint purpose) log (ended.map .credential) new := by
  rcases Dialogue.run_bind h with ⟨e, hverify, rfl⟩ | ⟨a, first, rest, hverify, hjwts, rfl⟩
  · exact (verifyInstallation_leaves hverify).stops e rfl
  have hleaves : Leaves b (.mint purpose) log (.ok a) first := verifyInstallation_leaves hverify
  rcases Dialogue.run_bind hjwts with ⟨e, hjwt, rfl⟩ | ⟨jwt, none, rest, hjwt, hmints, rfl⟩
  · obtain rfl : rest = [] := (congrArg Prod.snd hjwt).symm
    exact hleaves.goesOn a rfl _ _ (.done _ _) fresh_nil
  obtain rfl : none = [] := (congrArg Prod.snd hjwt).symm
  simp only [List.append_nil, List.nil_append] at hmints ⊢
  rcases run_receive (.mint purpose) rfl rfl hmints with
    ⟨e, rfl, rfl, htrail⟩ | ⟨fields, token, rest, hcarries, hreadable, hresponse, hchecks, rfl⟩
  · exact hleaves.goesOn a rfl _ _ htrail (fresh_cons HttpMethod.noConfusion)
  refine hleaves.goesOn a rfl _ _ ?_ (fresh_cons HttpMethod.noConfusion)
  rcases Dialogue.run_rescue hchecks with ⟨c, hcheck, rfl⟩ | ⟨e, none, rest, hcheck, hrevoke, rfl⟩
  · simp only [Dialogue.run_decideOn, Prod.mk.injEq, List.length_append, List.length_singleton]
      at hcheck
    obtain ⟨hcheck, rfl⟩ := hcheck
    obtain ⟨rfl, rfl, hpolicy⟩ := policyMet_of_checkMint (log ++ first) rfl hresponse
      (by simpa using hcheck)
    exact .returned hcarries hreadable rfl hpolicy
  · obtain rfl : none = [] := (congrArg Prod.snd hcheck).symm
    simp only [List.append_nil, List.nil_append] at hrevoke ⊢
    rcases Dialogue.run_bind hrevoke with
      ⟨e', hran, rfl⟩ | ⟨u, revs, rest, hran, hthrow, rfl⟩
    · have htrail : Trail b (.mint purpose) (log ++ first) (.error e') (_ :: (rest ++ [])) :=
        .revoked hcarries hreadable hran (fun e₁ heq => by rw [Except.error.inj heq]) fresh_nil
          (.done _ _)
      rw [List.append_nil] at htrail
      exact htrail
    · simp only [Dialogue.run_throw, Prod.mk.injEq] at hthrow
      obtain ⟨rfl, rfl⟩ := hthrow
      exact .revoked hcarries hreadable hran (fun e₁ heq => by cases heq) fresh_nil (.done _ _)

theorem call_trail (b : GitHubAppCredentialBroker) (operation : Operation)
    (log : List Exchange) :
    Trail b operation log ((b.call operation).run log).1 ((b.call operation).run log).2 := by
  rcases h : (b.call operation).run log with ⟨r, new⟩
  cases operation with
  | verify =>
    rcases Dialogue.run_bind h with ⟨e, hverify, rfl⟩ | ⟨a, first, rest, hverify, hpure, rfl⟩
    · exact (verifyInstallation_leaves hverify).stops e rfl
    · simp only [Dialogue.run_pure, Prod.mk.injEq] at hpure
      obtain ⟨rfl, rfl⟩ := hpure
      exact (verifyInstallation_leaves hverify).goesOn a rfl _ _ (.done _ _) fresh_nil
  | mint purpose =>
    rcases Dialogue.run_bind h with ⟨e, hmint, rfl⟩ | ⟨c, first, rest, hmint, hpure, rfl⟩
    · exact mintInstallationToken_trail hmint
    · simp only [Dialogue.run_pure, Prod.mk.injEq] at hpure
      obtain ⟨rfl, rfl⟩ := hpure
      rw [List.append_nil]
      exact mintInstallationToken_trail hmint

theorem mem_call_verify (h : x ∈ (b.verifyInstallation.run log).2) :
    x ∈ ((b.call .verify).run log).2 :=
  Dialogue.mem_run_bind h

/-- A revocation asks at least once. -/
theorem mem_run_revokeInstallationToken (b : GitHubAppCredentialBroker) (token : String)
    (log : List Exchange) :
    b.exchange (revocationRequest token) log ∈ ((b.revokeInstallationToken token).run log).2 := by
  refine Dialogue.mem_run_rescue ?_
  rw [GitHubAppCredentialBroker.run_tryRevoke]
  exact List.mem_singleton_self _

/-- A verification that gets as far as its audit token asks for the token's revocation. -/
theorem revocation_asked_of_audit {b : GitHubAppCredentialBroker} {jwt token : String}
    {installations : List Json} {granted : List (String × String) × List String}
    {audit : List (String × Json)} {x y : Exchange}
    (hjwt : b.appJwt.run [] = (.ok jwt, []))
    (hinstallations : (b.requestJson decodeJsonArray
      (GitHubAppCredentialBroker.installationsRequest jwt) 200).run [] = (.ok installations, [x]))
    (hgranted : b.checkInstallation installations = .ok granted)
    (haudit : (b.requestJson decodeJsonObject (b.auditRequest jwt) 201).run [x] =
      (.ok audit, [y]))
    (htoken : tokenOf b.runtime.unicode (.obj audit)
      "github audit token response is invalid" = .ok token) :
    b.exchange (revocationRequest token) [x, y] ∈ ((b.call .verify).run []).2 := by
  have hrevocation := mem_run_revokeInstallationToken b token [x, y]
  refine mem_call_verify ?_
  refine Dialogue.mem_run_bind_of_ok hjwt (Dialogue.mem_run_bind_of_ok hinstallations ?_)
  refine Dialogue.mem_run_bind_of_ok (congrArg (·, []) hgranted) ?_
  refine Dialogue.mem_run_bind_of_ok haudit ?_
  refine Dialogue.mem_run_bind_of_ok (congrArg (·, []) htoken) ?_
  simp only [List.append_nil, List.nil_append, List.cons_append]
  have hnone : ((Dialogue.decideOn fun log =>
      b.checkAudit (b.clock log.length) (.obj audit)).run [x, y]).2 = [] := rfl
  refine Dialogue.mem_run_bind (Dialogue.mem_run_ensure ?_)
  rwa [hnone, List.append_nil]

def sampleConfiguration : GitHubAppConfiguration := ⟨7, 9, "acme/site"⟩

def sampleInstallation : Json :=
  .obj [("id", .int 7), ("app_id", .int 5), ("repository_selection", .str "selected"),
    ("permissions", permissionsJson githubAppPermissions), ("events", texts webhookEventNames)]

def sampleFields : List (String × Json) :=
  [("token", .str "t"), ("expires_at", .str "2026-01-01T00:30:00Z"),
    ("permissions", permissionsJson [("metadata", "read")]),
    ("repository_selection", .str "selected"),
    ("repositories", .arr [.obj [("id", .int 9), ("full_name", .str "Acme/Site")]])]

theorem sampleNow_lt : 63902822400000000 < Calendar.endOfTime := by decide

/-- The start of the year 2026. -/
def sampleNow : Instant := ⟨63902822400000000, sampleNow_lt⟩

/-- A one and four hundred zeros. -/
def farReset : List Char := '1' :: List.replicate 400 '0'

def jsonResponse (statusCode : ℕ) (value : Json) : Outcome :=
  .response { statusCode, contentType := some "application/json", body := .text value }
    (.aware sampleNow)

def throttledForever : GitHubHttpResponse :=
  { statusCode := 403
    contentType := some "application/json"
    body := .empty
    rateLimitRemaining := some "0"
    rateLimitReset := some (String.ofList farReset) }

def sampleOutcomes : ℕ → Outcome
  | 0 => jsonResponse 200 (.arr [sampleInstallation])
  | 1 => jsonResponse 201 (.obj sampleFields)
  | _ => .response throttledForever (.aware sampleNow)

def sampleBroker : GitHubAppCredentialBroker where
  runtime := .plain
  configuration := sampleConfiguration
  appId := 5
  privateKey := some "key"
  signer := fun _ _ => some "jwt"
  outcomes := sampleOutcomes
  clock := fun _ => .aware sampleNow

theorem throttledForever_overflows : ResetOverflows .ascii throttledForever := by
  have hascii : isAsciiText (String.ofList farReset) = true := by
    rw [isAsciiText, String.toList_ofList]
    decide +kernel
  have hinteger : integerOfText .ascii (String.ofList farReset) = some (10 ^ 400) := by
    simp only [integerOfText, String.toList_ofList]
    decide +kernel
  have hlarge : tooLargeForDouble (10 ^ 400) = true := by decide +kernel
  exact ⟨.inl rfl, rfl, rfl, String.ofList farReset, 10 ^ 400, rfl, hascii, hinteger, hlarge⟩

theorem sample_revocation_asked :
    ∃ x ∈ ((sampleBroker.call .verify).run []).2, x.request = revocationRequest "t" ∧
      x.outcome = .response throttledForever (.aware sampleNow) := by
  obtain ⟨granted, hgranted⟩ := Except.exists_of_isOk
    (show (sampleBroker.checkInstallation [sampleInstallation]).isOk = true by decide +kernel)
  refine ⟨sampleBroker.exchange (revocationRequest "t")
    [sampleBroker.exchange (GitHubAppCredentialBroker.installationsRequest "jwt") [],
      sampleBroker.exchange (sampleBroker.auditRequest "jwt")
        [sampleBroker.exchange (GitHubAppCredentialBroker.installationsRequest "jwt") []]],
    ?_, rfl, rfl⟩
  exact revocation_asked_of_audit rfl rfl hgranted rfl rfl

end ControlPlane.GitHubApp
