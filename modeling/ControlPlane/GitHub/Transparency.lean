import ControlPlane.Evidence.Rewriting
import ControlPlane.GitHub.Webhooks

/-!
# Redaction and normalization

A delivery is normalized from its redacted evidence. The result is that of the delivery
itself when redaction changes none of the texts normalization reads.

## Main results

* `normalizeUpdate_redacted`
* `storedUpdate_of_receive`
-/
namespace ControlPlane

/-! ### The texts that are read -/

def PlainText (u : Unicode) : Json → Prop
  | .str s => Plain u s
  | _ => True

instance (u : Unicode) (v : Json) : Decidable (PlainText u v) := by
  cases v <;> unfold PlainText <;> infer_instance

/-- The time of a review or a comment. -/
def eitherTime (object : Json) (first second : String) : Json :=
  (object.get first).or (object.get second)

def checkRunTexts (payload : Json) : List Json :=
  let check := payload.get "check_run"
  [(check.get "check_suite").get "head_branch", check.get "head_sha", check.get "status",
    check.get "conclusion", check.get "name", check.get "updated_at"]

def pullRequestTexts (payload : Json) : List Json :=
  let head := (payload.get "pull_request").get "head"
  [head.get "ref", head.get "sha"]

def reviewTexts (payload : Json) : List Json :=
  let review := payload.get "review"
  [review.get "state", review.get "commit_id", (review.get "user").get "login",
    eitherTime review "updated_at" "submitted_at"]

/-- The texts normalization reads of a delivery. -/
def normalizedTexts (event : WebhookEvent) (payload : Json) : List Json :=
  [(payload.get "repository").get "full_name", payload.get "action"] ++
  match event with
  | .checkRun => checkRunTexts payload
  | .pullRequest =>
    let object := payload.get "pull_request"
    pullRequestTexts payload ++ [object.get "state", object.get "updated_at"]
  | .pullRequestReview => pullRequestTexts payload ++ reviewTexts payload
  | .pullRequestReviewComment =>
    pullRequestTexts payload ++ [eitherTime (payload.get "comment") "updated_at" "created_at"]
  | .pullRequestReviewThread => pullRequestTexts payload

/-- The keys under which anything is read. -/
def normalizedKeys : List String :=
  ["installation", "repository", "id", "full_name", "action", "check_run", "pull_requests",
    "number", "check_suite", "head_branch", "head_sha", "status", "conclusion", "name",
    "updated_at", "pull_request", "head", "ref", "sha", "review", "user", "state", "commit_id",
    "login", "submitted_at", "comment", "created_at", "thread", "merged", "draft", "event_name",
    "payload"]

theorem sensitiveKey_of_mem {u : Unicode} {key : String} (h : key ∈ normalizedKeys) :
    sensitiveKey u key = false := by
  have hkeys : ∀ key ∈ normalizedKeys,
      key.toList.all Unicode.isAscii = true ∧ sensitiveKey .ascii key = false := by
    decide +kernel
  rw [sensitiveKey_eq (hkeys key h).1]
  exact (hkeys key h).2

/-! ### Reading what was redacted -/

section Reading
variable {u : Unicode} {rt : Runtime} {j : Json} {key : String}

theorem get_redacted_of_mem (key : String) (h : key ∈ normalizedKeys) :
    (redacted u j).get key = redacted u (j.get key) :=
  get_redacted (sensitiveKey_of_mem h) j

theorem mapping_ok {value : Json} (h : mapping j key = .ok value) : value = j.get key := by
  unfold mapping at h
  split at h
  · rename_i hget
    rw [hget]
    exact (Except.ok.inj h).symm
  · cases h

theorem mapping_redacted (key : String) (h : key ∈ normalizedKeys) :
    mapping (redacted u j) key = redacted u <$> mapping j key := by
  unfold mapping
  rw [get_redacted_of_mem _ h]
  cases j.get key <;> simp only [redacted] <;> rfl

theorem positiveInt_redacted (key : String) (h : key ∈ normalizedKeys) :
    positiveInt (redacted u j) key = positiveInt j key := by
  unfold positiveInt
  rw [get_redacted_of_mem _ h]
  cases j.get key <;> simp only [redacted]

theorem requiredString_redacted (key : String) {maximum : ℕ} (h : key ∈ normalizedKeys)
    (hplain : PlainText u (j.get key)) :
    requiredString (redacted u j) key maximum = requiredString j key maximum := by
  unfold requiredString
  rw [get_redacted_of_mem _ h]
  cases hvalue : j.get key with
  | str s =>
    rw [hvalue] at hplain
    simp only [redacted, show redactedText u s = s from hplain]
  | null | bool | int | float | arr | obj => simp only [redacted]

theorem parseTimestamp_redacted {field : String} (hplain : PlainText u j) :
    parseTimestamp rt (redacted u j) field = parseTimestamp rt j field := by
  unfold parseTimestamp
  cases j with
  | str s => simp only [redacted, show redactedText u s = s from hplain]
  | null | bool | int | float | arr | obj => simp only [redacted]

theorem checkState_redacted {status : String} (hplain : PlainText u j) :
    checkState status (redacted u j) = checkState status j := by
  unfold checkState
  cases j with
  | str s => simp only [redacted, show redactedText u s = s from hplain]
  | null | bool | int | float | arr | obj => simp only [redacted]

theorem onlyPullRequest_redacted :
    onlyPullRequest (redacted u j) = redacted u <$> onlyPullRequest j := by
  unfold onlyPullRequest
  rw [get_redacted_of_mem _ (by decide)]
  cases j.get "pull_requests" with
  | arr items =>
    match items with
    | [] => simp only [redacted, redactedItems]; rfl
    | [item] => cases item <;> simp only [redacted, redactedItems] <;> rfl
    | item :: next :: rest => cases item <;> simp only [redacted, redactedItems] <;> rfl
  | null | bool | int | float | str | obj => simp only [redacted]; rfl

theorem redactedText_empty : redactedText u "" = "" := by
  simp [redactedText, redactText, redactionRules, applyRule, RedactionRule.constant,
    RedactionRule.keeping, normalizeNewlines, Regex.Re.subn, Regex.Re.subnFrom]

theorem truthy_redacted (h : ∀ s, j = .str s → s ≠ "" → Plain u s) :
    (redacted u j).truthy = j.truthy := by
  cases j with
  | str s =>
    by_cases hs : s = ""
    · rw [hs, redacted, redactedText_empty]
    · rw [redacted, show redactedText u s = s from h s rfl hs]
  | arr items => cases items <;> simp [redacted, redactedItems, Json.truthy]
  | obj fields => cases fields <;> simp [redacted, redactedFields, Json.truthy]
  | null | bool | int | float => simp only [redacted]

/-- The same time is looked at. -/
theorem eitherTime_redacted {first second : String} (hfirst : first ∈ normalizedKeys)
    (hsecond : second ∈ normalizedKeys) (hplain : PlainText u (eitherTime j first second)) :
    eitherTime (redacted u j) first second = redacted u (eitherTime j first second) := by
  have htruthy : (redacted u (j.get first)).truthy = (j.get first).truthy := by
    refine truthy_redacted fun s hs hne => ?_
    rw [eitherTime, Json.or, hs, if_pos (by simp [Json.truthy, hne])] at hplain
    exact hplain
  simp only [eitherTime, Json.or, get_redacted_of_mem _ hfirst, get_redacted_of_mem _ hsecond,
    htruthy]
  split <;> rfl

end Reading

/-! ### Normalizing what was redacted -/

section Normalizing
variable {rt : Runtime} {c : DeliveryContext} {payload : Json} {receivedAt : Calendar.Instant}

theorem deliveryContext_redacted {event : WebhookEvent}
    (hname : PlainText rt.unicode ((payload.get "repository").get "full_name"))
    (haction : PlainText rt.unicode (payload.get "action")) :
    deliveryContext rt event (redacted rt.unicode payload) = deliveryContext rt event payload := by
  simp only [deliveryContext, mapping_redacted "installation" (by decide),
    mapping_redacted "repository" (by decide), Except.bind_map_left,
    positiveInt_redacted "id" (by decide),
    requiredString_redacted "action" (by decide) haction]
  refine Except.bind_congr_ok fun installation _ => ?_
  refine Except.bind_congr_ok fun repository hrepository => ?_
  rw [← mapping_ok hrepository] at hname
  simp only [requiredString_redacted "full_name" (by decide) hname]

theorem normalizeCheckRun_redacted (h : ∀ v ∈ checkRunTexts payload, PlainText rt.unicode v) :
    normalizeCheckRun rt c (redacted rt.unicode payload) = normalizeCheckRun rt c payload := by
  simp only [checkRunTexts, List.forall_mem_cons] at h
  obtain ⟨hbranch, hsha, hstatus, hconclusion, hname, htime, -⟩ := h
  simp only [normalizeCheckRun, mapping_redacted "check_run" (by decide),
    Except.bind_map_left, onlyPullRequest_redacted,
    positiveInt_redacted "number" (by decide),
    mapping_redacted "check_suite" (by decide),
    positiveInt_redacted "id" (by decide)]
  refine Except.bind_congr_ok fun check hcheck => ?_
  rw [← mapping_ok hcheck] at hbranch hsha hstatus hconclusion hname htime
  simp only [requiredString_redacted "head_sha" (by decide) hsha,
    requiredString_redacted "status" (by decide) hstatus,
    requiredString_redacted "name" (by decide) hname,
    get_redacted_of_mem "conclusion" (by decide), checkState_redacted hconclusion,
    get_redacted_of_mem "updated_at" (by decide), parseTimestamp_redacted htime]
  refine Except.bind_congr_ok fun pr _ => ?_
  refine Except.bind_congr_ok fun number _ => ?_
  refine Except.bind_congr_ok fun suite hsuite => ?_
  rw [← mapping_ok hsuite] at hbranch
  simp only [requiredString_redacted "head_branch" (by decide) hbranch]

/-- The identity is the same; the object it holds is redacted. -/
theorem pullRequestIdentity_redacted
    (h : ∀ v ∈ pullRequestTexts payload, PlainText rt.unicode v) :
    pullRequestIdentity rt (redacted rt.unicode payload) =
      (fun pr => { pr with object := redacted rt.unicode pr.object }) <$>
        pullRequestIdentity rt payload := by
  simp only [pullRequestTexts, List.forall_mem_cons] at h
  obtain ⟨hbranch, hsha, -⟩ := h
  simp only [pullRequestIdentity, mapping_redacted "pull_request" (by decide),
    Except.bind_map_left, positiveInt_redacted "number" (by decide),
    mapping_redacted "head" (by decide)]
  cases hobject : mapping payload "pull_request" with
  | error e => rfl
  | ok object =>
    rw [← mapping_ok hobject] at hbranch hsha
    simp only [Except.ok_bind]
    cases positiveInt object "number" with
    | error e => rfl
    | ok number =>
      cases hhead : mapping object "head" with
      | error e => rfl
      | ok head =>
        rw [← mapping_ok hhead] at hbranch hsha
        simp only [Except.ok_bind, requiredString_redacted "ref" (by decide) hbranch,
          requiredString_redacted "sha" (by decide) hsha]
        cases requiredString head "ref" 255 with
        | error e => rfl
        | ok ref =>
          simp only [Except.ok_bind]
          cases requiredBranch rt ref with
          | error e => rfl
          | ok branch =>
            simp only [Except.ok_bind]
            cases requiredString head "sha" 64 with
            | error e => rfl
            | ok text =>
              simp only [Except.ok_bind]
              cases requiredSha rt text <;> rfl

theorem normalizeReview_redacted {pr : PullRequestIdentity}
    (h : ∀ v ∈ reviewTexts payload, PlainText rt.unicode v) (object : Json) :
    normalizeReview rt c { pr with object } (redacted rt.unicode payload) receivedAt =
      normalizeReview rt c pr payload receivedAt := by
  simp only [reviewTexts, List.forall_mem_cons] at h
  obtain ⟨hstate, hcommit, hlogin, htime, -⟩ := h
  simp only [normalizeReview, mapping_redacted "review" (by decide),
    Except.bind_map_left, mapping_redacted "user" (by decide),
    positiveInt_redacted "id" (by decide)]
  refine Except.bind_congr_ok fun review hreview => ?_
  rw [← mapping_ok hreview] at hstate hcommit hlogin htime
  have htimes := eitherTime_redacted (by decide) (by decide) htime
  unfold eitherTime at htimes
  have hparsed : ∀ field, parseTimestamp rt
      (if c.action ≠ "dismissed" then
        ((redacted rt.unicode review).get "updated_at").or
          ((redacted rt.unicode review).get "submitted_at")
      else .str (Calendar.isoTimestamp receivedAt)) field =
      parseTimestamp rt
      (if c.action ≠ "dismissed" then (review.get "updated_at").or (review.get "submitted_at")
      else .str (Calendar.isoTimestamp receivedAt)) field := by
    intro field
    by_cases haction : c.action = "dismissed"
    · simp only [haction, ne_eq, not_true_eq_false, if_false]
    · simp only [ne_eq, haction, not_false_eq_true, if_true]
      rw [htimes]
      exact parseTimestamp_redacted htime
  simp only [requiredString_redacted "state" (by decide) hstate,
    requiredString_redacted "commit_id" (by decide) hcommit, hparsed]
  refine Except.bind_congr_ok fun reviewer hreviewer => ?_
  rw [← mapping_ok hreviewer] at hlogin
  simp only [requiredString_redacted "login" (by decide) hlogin]

theorem normalizeReviewComment_redacted {pr : PullRequestIdentity}
    (h : PlainText rt.unicode (eitherTime (payload.get "comment") "updated_at" "created_at"))
    (object : Json) :
    normalizeReviewComment rt c { pr with object } (redacted rt.unicode payload) =
      normalizeReviewComment rt c pr payload := by
  simp only [normalizeReviewComment, mapping_redacted "comment" (by decide),
    Except.bind_map_left, positiveInt_redacted "id" (by decide)]
  refine Except.bind_congr_ok fun comment hcomment => ?_
  rw [← mapping_ok hcomment] at h
  have htimes := eitherTime_redacted (by decide) (by decide) h
  unfold eitherTime at htimes h
  simp only [htimes, parseTimestamp_redacted h]

theorem normalizeReviewThread_redacted {pr : PullRequestIdentity} (object : Json) :
    normalizeReviewThread c { pr with object } (redacted rt.unicode payload) receivedAt =
      normalizeReviewThread c pr payload receivedAt := by
  simp only [normalizeReviewThread, mapping_redacted "thread" (by decide),
    Except.bind_map_left, positiveInt_redacted "id" (by decide)]

theorem pullRequestState_redacted {object : Json}
    (h : PlainText rt.unicode (object.get "state")) :
    pullRequestState rt (redacted rt.unicode object) = pullRequestState rt object := by
  have hmerge : mergeState rt (redacted rt.unicode object) = mergeState rt object := by
    unfold mergeState
    rw [get_redacted_of_mem _ (by decide), requiredString_redacted _ (by decide) h]
    cases object.get "merged" with
    | bool b => cases b <;> simp only [redacted]
    | null | int | float | str | arr | obj => simp only [redacted]
  have hdraft : ∀ state, draftState (redacted rt.unicode object) state =
      draftState object state := by
    intro state
    unfold draftState
    rw [get_redacted_of_mem _ (by decide)]
    cases object.get "draft" <;> simp only [redacted]
  simp only [pullRequestState, hmerge, hdraft]

theorem normalizePullRequest_redacted {pr : PullRequestIdentity}
    (hstate : PlainText rt.unicode (pr.object.get "state"))
    (htime : PlainText rt.unicode (pr.object.get "updated_at")) :
    normalizePullRequest rt c { pr with object := redacted rt.unicode pr.object } =
      normalizePullRequest rt c pr := by
  simp only [normalizePullRequest, pullRequestState_redacted hstate,
    get_redacted_of_mem "updated_at" (by decide), parseTimestamp_redacted htime]

theorem pullRequestIdentity_object {pr : PullRequestIdentity}
    (h : pullRequestIdentity rt payload = .ok pr) : pr.object = payload.get "pull_request" := by
  simp only [pullRequestIdentity, Except.bind_eq_ok, Except.pure_eq_ok] at h
  obtain ⟨object, hobject, _, _, _, _, _, _, _, _, _, _, _, _, rfl⟩ := h
  exact mapping_ok hobject

/-- A redacted delivery is normalized as the delivery itself. -/
theorem normalizeUpdate_redacted {eventName : String}
    (h : ∀ event, WebhookEvent.ofName? eventName = some event →
      ∀ v ∈ normalizedTexts event payload, PlainText rt.unicode v) :
    normalizeUpdate rt eventName (redacted rt.unicode payload) receivedAt =
      normalizeUpdate rt eventName payload receivedAt := by
  unfold normalizeUpdate
  refine Except.bind_congr_ok fun event hevent => ?_
  have htexts := h event (Except.orThrow_eq_ok.mp hevent)
  simp only [normalizedTexts, List.cons_append, List.nil_append, List.forall_mem_cons] at htexts
  obtain ⟨hname, haction, htexts⟩ := htexts
  rw [deliveryContext_redacted hname haction]
  refine Except.bind_congr_ok fun c _ => ?_
  cases event with
  | checkRun => exact normalizeCheckRun_redacted htexts
  | pullRequest =>
    obtain ⟨hpr, hrest⟩ := List.forall_mem_append.mp htexts
    simp only [List.forall_mem_cons] at hrest
    obtain ⟨hstate, htime, -⟩ := hrest
    simp only [pullRequestIdentity_redacted hpr, Except.bind_map_left]
    refine Except.bind_congr_ok fun pr hidentity => ?_
    rw [← pullRequestIdentity_object hidentity] at hstate htime
    exact normalizePullRequest_redacted hstate htime
  | pullRequestReview =>
    obtain ⟨hpr, hreview⟩ := List.forall_mem_append.mp htexts
    simp only [pullRequestIdentity_redacted hpr, Except.bind_map_left]
    exact Except.bind_congr_ok fun pr _ => normalizeReview_redacted hreview _
  | pullRequestReviewComment =>
    obtain ⟨hpr, hcomment⟩ := List.forall_mem_append.mp htexts
    simp only [pullRequestIdentity_redacted hpr, Except.bind_map_left]
    exact Except.bind_congr_ok fun pr _ =>
      normalizeReviewComment_redacted (hcomment _ (List.mem_singleton_self _)) _
  | pullRequestReviewThread =>
    simp only [pullRequestIdentity_redacted htexts, Except.bind_map_left]
    exact Except.bind_congr_ok fun pr _ => normalizeReviewThread_redacted _

end Normalizing

/-! ### The names that are shown -/

/-- The texts an update repeats: the branch, and the name of a check or of a reviewer. -/
def repeatedTexts (event : WebhookEvent) (payload : Json) : List Json :=
  match event with
  | .checkRun =>
    let check := payload.get "check_run"
    [(check.get "check_suite").get "head_branch", check.get "name"]
  | .pullRequestReview =>
    [((payload.get "pull_request").get "head").get "ref",
      ((payload.get "review").get "user").get "login"]
  | _ => [((payload.get "pull_request").get "head").get "ref"]

def WebhookUpdate.repeatedTexts (event : WebhookEvent) (u : WebhookUpdate) : List Json :=
  match event with
  | .checkRun | .pullRequestReview => [.str u.taskBranch, .str u.resourceLabel]
  | _ => [.str u.taskBranch]

section Repeated
variable {rt : Runtime} {payload : Json} {receivedAt : Calendar.Instant}

theorem requiredString_ok {j : Json} {key text : String} {maximum : ℕ}
    (h : requiredString j key maximum = .ok text) : j.get key = .str text := by
  unfold requiredString at h
  split at h
  · rename_i s hget
    split at h
    · cases h
    · rw [hget, Except.ok.inj h]
  · cases h

theorem requiredBranch_ok {text branch : String} (h : requiredBranch rt text = .ok branch) :
    text = branch := by
  unfold requiredBranch at h
  split at h
  · exact Except.ok.inj h
  · cases h

theorem pullRequestIdentity_branch {pr : PullRequestIdentity}
    (h : pullRequestIdentity rt payload = .ok pr) :
    ((payload.get "pull_request").get "head").get "ref" = .str pr.branch := by
  simp only [pullRequestIdentity, Except.bind_eq_ok, Except.pure_eq_ok] at h
  obtain ⟨object, hobject, _, _, head, hhead, ref, href, branch, hbranch, _, _, _, _, rfl⟩ := h
  rw [← mapping_ok hobject, ← mapping_ok hhead, requiredString_ok href, requiredBranch_ok hbranch]

/-- An accepted update repeats these texts as they are. -/
theorem repeatedTexts_of_ok {eventName : String} {event : WebhookEvent} {u : WebhookUpdate}
    (hevent : WebhookEvent.ofName? eventName = some event)
    (h : normalizeUpdate rt eventName payload receivedAt = .ok u) :
    repeatedTexts event payload = u.repeatedTexts event := by
  simp only [normalizeUpdate, hevent, Except.bind_eq_ok, Except.orThrow_eq_ok,
    Option.some.injEq, exists_eq_left'] at h
  obtain ⟨c, -, h⟩ := h
  cases event with
  | checkRun =>
    simp only [normalizeCheckRun, Except.bind_eq_ok, Except.pure_eq_ok] at h
    obtain ⟨check, hcheck, _, _, _, _, suite, hsuite, _, _, text, htext, branch, hbranch, _, _, _,
      _, _, _, _, _, name, hname, _, _, rfl⟩ := h
    simp only [repeatedTexts, WebhookUpdate.repeatedTexts]
    rw [← mapping_ok hcheck, ← mapping_ok hsuite, requiredString_ok htext,
      requiredString_ok hname, requiredBranch_ok hbranch]
  | pullRequest =>
    obtain ⟨pr, hpr, h⟩ := Except.bind_eq_ok.mp h
    simp only [normalizePullRequest, Except.bind_eq_ok, Except.pure_eq_ok] at h
    obtain ⟨_, _, _, _, rfl⟩ := h
    exact congrArg (fun v => [v]) (pullRequestIdentity_branch hpr)
  | pullRequestReview =>
    obtain ⟨pr, hpr, h⟩ := Except.bind_eq_ok.mp h
    simp only [normalizeReview, Except.bind_eq_ok, Except.pure_eq_ok] at h
    obtain ⟨review, hreview, user, huser, _, _, _, _, _, _, _, _, _, _, login, hlogin, _, _,
      rfl⟩ := h
    simp only [repeatedTexts, WebhookUpdate.repeatedTexts]
    rw [pullRequestIdentity_branch hpr, ← mapping_ok hreview, ← mapping_ok huser,
      requiredString_ok hlogin]
  | pullRequestReviewComment =>
    obtain ⟨pr, hpr, h⟩ := Except.bind_eq_ok.mp h
    simp only [normalizeReviewComment, Except.bind_eq_ok, Except.pure_eq_ok] at h
    obtain ⟨_, _, _, _, _, _, rfl⟩ := h
    exact congrArg (fun v => [v]) (pullRequestIdentity_branch hpr)
  | pullRequestReviewThread =>
    obtain ⟨pr, hpr, h⟩ := Except.bind_eq_ok.mp h
    simp only [normalizeReviewThread, Except.bind_eq_ok, Except.pure_eq_ok] at h
    obtain ⟨_, _, _, _, rfl⟩ := h
    exact congrArg (fun v => [v]) (pullRequestIdentity_branch hpr)

theorem repeatedTexts_redacted {u : Unicode} (event : WebhookEvent) :
    repeatedTexts event (redacted u payload) =
      (repeatedTexts event payload).map (redacted u) := by
  have hget : ∀ key ∈ normalizedKeys, ∀ j, (redacted u j).get key = redacted u (j.get key) :=
    fun key hkey j => get_redacted_of_mem _ hkey
  cases event <;>
    simp only [repeatedTexts, List.map_cons, List.map_nil, hget "check_run" (by decide),
      hget "check_suite" (by decide), hget "head_branch" (by decide), hget "name" (by decide),
      hget "pull_request" (by decide), hget "head" (by decide), hget "ref" (by decide),
      hget "review" (by decide), hget "user" (by decide), hget "login" (by decide)]

theorem plainText_of_redacted_eq {u : Unicode} {v : Json} (h : redacted u v = v) :
    PlainText u v := by
  cases v with
  | str s =>
    rw [redacted] at h
    exact Json.str.inj h
  | null | bool | int | float | arr | obj => trivial

/-- The same update has the same names, so redaction left them alone. -/
theorem repeatedTexts_plain {eventName : String} (event : WebhookEvent) {u : WebhookUpdate}
    (hevent : WebhookEvent.ofName? eventName = some event)
    (h : normalizeUpdate rt eventName payload receivedAt = .ok u)
    (hredacted : normalizeUpdate rt eventName (redacted rt.unicode payload) receivedAt = .ok u) :
    ∀ v ∈ repeatedTexts event payload, PlainText rt.unicode v := by
  have hsame : (repeatedTexts event payload).map (redacted rt.unicode) =
      repeatedTexts event payload := by
    rw [← repeatedTexts_redacted, repeatedTexts_of_ok hevent hredacted,
      repeatedTexts_of_ok hevent h]
  have hid : (repeatedTexts event payload).map (redacted rt.unicode) =
      (repeatedTexts event payload).map id := by
    rw [hsame, List.map_id]
  exact fun v hv => plainText_of_redacted_eq (List.map_inj_left.mp hid v hv)

end Repeated

/-! ### What was received -/

def webhookEventNames : List String :=
  ["check_run", "pull_request", "pull_request_review", "pull_request_review_comment",
    "pull_request_review_thread"]

theorem mem_webhookEventNames {name : String} {event : WebhookEvent}
    (h : WebhookEvent.ofName? name = some event) : name ∈ webhookEventNames := by
  unfold WebhookEvent.ofName? at h
  split at h
  · decide
  · decide
  · decide
  · decide
  · decide
  · cases h

set_option maxRecDepth 4000 in
theorem inertText_eventNames : ∀ name ∈ webhookEventNames, inertText name = true := by
  intro name hname
  simp only [webhookEventNames, List.mem_cons, List.not_mem_nil, or_false] at hname
  rcases hname with rfl | rfl | rfl | rfl | rfl <;> decide +kernel

/-- Redaction neither hides the name of an event nor makes one up. -/
theorem ofName?_redactedText {u : Unicode} (name : String) :
    WebhookEvent.ofName? (redactedText u name) = WebhookEvent.ofName? name := by
  have hnames : ∀ n ∈ webhookEventNames, '[' ∉ n.toList ∧ '\n' ∉ n.toList := by decide
  cases hname : WebhookEvent.ofName? name with
  | some event =>
    have hplain : Plain u name :=
      plain_of_inertText (inertText_eventNames name (mem_webhookEventNames hname))
    rw [show redactedText u name = name from hplain, hname]
  | none =>
    rcases redactedText_cases (u := u) name with hplain | hmark
    · rw [show redactedText u name = name from hplain, hname]
    · cases hother : WebhookEvent.ofName? (redactedText u name) with
      | none => rfl
      | some event =>
        obtain ⟨hbracket, hline⟩ := hnames _ (mem_webhookEventNames hother)
        exact absurd hmark (by simp [hbracket, hline])

theorem normalizeUpdate_congr {rt : Runtime} {name name' : String} {payload : Json}
    {receivedAt : Calendar.Instant}
    (h : WebhookEvent.ofName? name = WebhookEvent.ofName? name') :
    normalizeUpdate rt name payload receivedAt = normalizeUpdate rt name' payload receivedAt := by
  simp only [normalizeUpdate, h]

/-- The update of the redacted evidence of a delivery. -/
theorem storedUpdate_webhookEvidence {rt : Runtime} {r : WebhookRequest} {payload : Json}
    {receivedAt : Calendar.Instant} :
    storedUpdate rt (redacted rt.unicode (webhookEvidence r payload)) receivedAt =
      normalizeUpdate rt r.eventName (redacted rt.unicode payload) receivedAt := by
  have hname : (redacted rt.unicode (webhookEvidence r payload)).get "event_name" =
      .str (redactedText rt.unicode r.eventName) := by
    rw [get_redacted_of_mem _ (by decide), ← redacted]
    rfl
  have hpayload : (redacted rt.unicode (webhookEvidence r payload)).get "payload" =
      redacted rt.unicode payload := by
    rw [get_redacted_of_mem _ (by decide)]
    rfl
  simp only [storedUpdate, hname, hpayload]
  exact normalizeUpdate_congr (ofName?_redactedText _)

/-- Redaction changes no text that is read of the delivery. -/
def ReadsPlain (rt : Runtime) (eventName : String) (payload : Json) : Prop :=
  ∀ event, WebhookEvent.ofName? eventName = some event →
    ∀ v ∈ normalizedTexts event payload, PlainText rt.unicode v

/-- A delivery that is new is received when its evidence is captured. -/
theorem receive_of_captured {rt : Runtime} {db db₁ : Database} {r : WebhookRequest}
    {deliveryId event : String} {payload : Json} {captured : CapturedEvidence}
    {deliveries : Table WebhookDelivery} (hid : requiredDeliveryId rt r.deliveryId = .ok deliveryId)
    (hname : requiredEventName r.eventName = .ok event)
    (hpayload : decodePayload r.verified = .ok payload)
    (hnew : db.webhookDeliveries.rows.find? (·.providerDeliveryId = deliveryId) = none)
    (hcaptured : captureEvidence rt db (webhookCapture r payload) = .ok (captured, db₁))
    (hinsert : db₁.webhookDeliveries.insert? (receivedDelivery rt r payload) = some deliveries) :
    receive rt db r = .ok (r.deliveryUuid, false, { db₁ with webhookDeliveries := deliveries }) := by
  simp only [receive, hid, hname, hpayload, hnew, hcaptured, hinsert, Except.relabel,
    Except.orThrow, Except.ok_bind, Except.pure_eq_ok]

theorem receive_ok {rt : Runtime} {db db' : Database} {r : WebhookRequest} {deliveryId : UUID}
    (h : receive rt db r = .ok (deliveryId, false, db')) :
    ∃ payload captured db₁ deliveries, r.verified.decoded = some payload ∧
      captureEvidence rt db (webhookCapture r payload) = .ok (captured, db₁) ∧
      db₁.webhookDeliveries.insert? (receivedDelivery rt r payload) = some deliveries ∧
      deliveryId = r.deliveryUuid ∧ db' = { db₁ with webhookDeliveries := deliveries } := by
  simp only [receive, Except.bind_eq_ok] at h
  obtain ⟨providerId, -, -, -, payload, hpayload, h⟩ := h
  have hdecoded : r.verified.decoded = some payload := by
    simp only [decodePayload, Except.bind_eq_ok, Except.orThrow_eq_ok, Except.pure_eq_ok] at hpayload
    obtain ⟨_, hdecoded, _, _, _, _, rfl⟩ := hpayload
    exact hdecoded
  cases hexisting : db.webhookDeliveries.rows.find? (·.providerDeliveryId = providerId) with
  | some existing =>
    simp only [hexisting, Except.bind_eq_ok, Except.pure_eq_ok, Prod.ext_iff] at h
    obtain ⟨-, -, -, hreplayed, -⟩ := h
    cases hreplayed
  | none =>
    simp only [hexisting, Except.bind_eq_ok, Except.relabel_eq_ok, Except.orThrow_eq_ok,
      Except.pure_eq_ok, Prod.ext_iff] at h
    obtain ⟨⟨captured, db₁⟩, hcapture, deliveries, hinsert, hid, -, hdb⟩ := h
    exact ⟨payload, captured, db₁, deliveries, hdecoded, hcapture, hinsert, hid.symm, hdb.symm⟩

namespace CheckNameExample

def name : String := "a@b.io"

def body : Json :=
  .obj [("action", .str "completed"), ("installation", .obj [("id", .int 1)]),
    ("repository", .obj [("id", .int 2), ("full_name", .str "owner/app")]),
    ("check_run", .obj [("name", .str name), ("head_sha", .str (String.ofList (.replicate 40 'a'))),
      ("status", .str "completed"), ("conclusion", .str "success"),
      ("updated_at", .str (Calendar.isoTimestamp 0)),
      ("check_suite", .obj [("id", .int 5), ("head_branch", .str "work")]),
      ("pull_requests", .arr [.obj [("number", .int 3)]])])]

theorem seconds_lt_endOfTime : seconds 100 < Calendar.endOfTime := by decide

def request : WebhookRequest where
  eventName := "check_run"
  deliveryId := "d"
  verified := ⟨"", "", 0, "", some body⟩
  now := ⟨seconds 100, seconds_lt_endOfTime⟩
  deliveryUuid := .ofNat 100
  evidenceId := .ofNat 200

def content : Json := webhookEvidence request body

/-- What is stored in place of a text of the content. -/
def storedText (text : String) : String :=
  if text = name then redactedText .ascii name else text

def contentKeys : List String :=
  ["schema_version", "provider_delivery_id", "event_name", "signature_header",
    "raw_body_artifact", "verification", "algorithm", "body_sha256", "body_bytes", "payload",
    "action", "installation", "id", "repository", "full_name", "check_run", "name", "head_sha",
    "status", "conclusion", "updated_at", "check_suite", "head_branch", "pull_requests", "number"]

/-- The keys of the content are not sensitive, its texts but one are plain, it is within the
limits, and so is all else that the capture looks at. -/
theorem content_checked :
    ((contentKeys.all fun key => !sensitiveKey .ascii key) = true ∧
      ((strings content).all fun text => text = name || decide (Plain .ascii text)) = true) ∧
    ((counted 0 content 0).isSome = true ∧
      ((Json.encode Runtime.plain.floatRepr (rewritten storedText content)).flatMap
        String.utf8EncodeChar).length ≤ maxEvidenceBytes) ∧
    ((requiredMetadataIdentifier .plain githubOwner "owner id" 255).isOk ∧
      (requiredMetadataIdentifier .plain githubActor "actor id" 255).isOk ∧
      (requiredMetadataIdentifier .plain "github-webhook" "evidence type" 100).isOk ∧
      (requiredMetadataIdentifier .plain "github:webhook" "origin" 500).isOk) ∧
    requiredDeliveryId .plain request.deliveryId = .ok "d" ∧
      requiredEventName request.eventName = .ok "check_run" ∧
      (boundedNodes 1 body).any (· ≤ 100000) = true := by
  refine ⟨⟨?_, ?_⟩, ⟨?_, ?_⟩, ⟨?_, ?_, ?_, ?_⟩, ?_, ?_, ?_⟩ <;> decide +kernel

theorem wellKeyed_content : WellKeyed Runtime.plain.unicode content := by
  show WellKeyed .ascii content
  have hkey := content_checked.1.1
  simp only [contentKeys, List.all_cons, List.all_nil, Bool.and_eq_true, Bool.not_eq_true',
    and_true] at hkey
  simp only [content, webhookEvidence, VerifiedWebhook.toJson, body, WellKeyed, WellKeyedFields,
    WellKeyedItems, hkey, List.map_cons, List.map_nil, and_true, true_and]
  decide

theorem redactedText_content (text : String) (h : text ∈ strings content) :
    redactedText Runtime.plain.unicode text = storedText text := by
  show redactedText .ascii text = storedText text
  have hplain : text = name ∨ Plain .ascii text := by
    simpa using List.all_eq_true.mp content_checked.1.2 text h
  unfold storedText
  split
  · rename_i hname
    rw [hname]
  · rename_i hname
    exact hplain.resolve_left hname

theorem decodePayload_request : decodePayload request.verified = .ok body := by
  simp only [decodePayload, request, Except.orThrow, Except.ok_bind]
  rw [Except.require_of (show body.obj?.isSome = true from rfl),
    Except.require_of content_checked.2.2.2.2.2]
  rfl

theorem exists_captured : ∃ captured db,
    captureEvidence .plain {} (webhookCapture request body) = .ok (captured, db) := by
  obtain ⟨n, hn⟩ := Option.isSome_iff_exists.mp content_checked.2.1.1
  obtain ⟨prepared, hprepared⟩ :=
    redactEvidenceContent_of_rewritten wellKeyed_content hn redactedText_content
      content_checked.2.1.2
  obtain ⟨howner, hactor, htype, horigin⟩ := content_checked.2.2.1
  refine (captureEvidence_isOk_iff rfl).mpr ⟨⟨howner, hactor, htype, horigin, ?_⟩, rfl⟩
  show (redactEvidenceContent .plain content .json).isOk = true
  rw [hprepared]
  rfl

theorem exists_received : ∃ db, receive .plain {} request = .ok (.ofNat 100, false, db) := by
  obtain ⟨captured, db, hcaptured⟩ := exists_captured
  obtain ⟨records, -, hdb⟩ := captureEvidence_ok hcaptured rfl
  have hempty : db.webhookDeliveries = .empty := by rw [hdb]
  obtain ⟨deliveries, hinsert⟩ : ∃ deliveries,
      db.webhookDeliveries.insert? (receivedDelivery .plain request body) = some deliveries := by
    rw [hempty]
    exact ⟨_, dif_neg List.not_mem_nil⟩
  exact ⟨_, receive_of_captured content_checked.2.2.2.1 content_checked.2.2.2.2.1
    decodePayload_request rfl hcaptured hinsert⟩

def original : Option WebhookUpdate :=
  (normalizeUpdate .plain "check_run" body request.now).toOption

set_option maxRecDepth 4000 in
theorem name_checked :
    original.map WebhookUpdate.resourceLabel = some name ∧ ¬ Plain .ascii name := by
  constructor <;> decide +kernel

theorem exists_original :
    ∃ u, normalizeUpdate .plain "check_run" body request.now = .ok u ∧ u.resourceLabel = name := by
  have hlabel := name_checked.1
  unfold original at hlabel
  cases hu : normalizeUpdate .plain "check_run" body request.now with
  | error e => simp [hu, Except.toOption] at hlabel
  | ok u => exact ⟨u, rfl, by simpa [hu, Except.toOption] using hlabel⟩

theorem name_mem : .str name ∈ repeatedTexts .checkRun body := List.mem_cons_of_mem _ (by
  exact List.mem_singleton_self _)

end CheckNameExample

end ControlPlane
