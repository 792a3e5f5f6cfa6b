import ControlPlane.Readiness.Facts

/-!
# The head of a pull request

Webhook correlation, readiness and review resolution each derive the head of a task's pull
request from the history. They agree. Over a run it is the head of the latest synchronized
update that is not older than the latest binding, as long as every binding and every
synchronized update meets `HeadCondition`.

## Main results

* `projectionWindow_assessed`: the window readiness projects its facts from.
* `currentPrIdentity_head`: review resolution sees the same head.
* `effectiveTaskHead_of_run`: the head after a run.
-/
namespace ControlPlane

open Regex Regex.Re History

/-! ### The head review resolution sees -/

def identifierPattern : Pattern :=
  seq (cls alnum) (many true 0 (some 254) (cls (.union alnum (oneOf "._:/-"))))

/-- The identity of a pull request as review resolution accepts it. -/
def reviewedIdentity (rt : Runtime) (number : ℤ) (branch head : String) :
    Option (ℤ × String × String) :=
  let branch := rt.unicode.strip branch.toList
  let head := rt.unicode.lower (rt.unicode.strip head.toList)
  if 0 < number ∧ branch.length ≤ 255 ∧
      identifierPattern.fullmatch (CharClass.holds rt.unicode) branch = true ∧
      isSha head = true then
    some (number, String.ofList branch, String.ofList head)
  else none

/-- The head after the latest head change, which only counts for the bound pull request. -/
def headAfter (number : ℤ) (branch head : String) : Option TaskEvent → Option String
  | none => some head
  | some change =>
    if sameInt (change.payload.get "pull_request_number") (.int number) &&
        sameText (change.payload.get "task_branch") (.str branch) then
      (change.payload.get "head_sha").str?
    else some head

def currentPrIdentity (rt : Runtime) (db : Database) (taskId : UUID) :
    Option (ℤ × String × String) := do
  let binding ← latestBinding db taskId
  let number ← (binding.payload.get "pull_request_number").int?
  let branch ← (binding.payload.get "task_branch").str?
  let head ← (binding.payload.get "head_sha").str?
  let changes := (taskEventsOf db taskId).filter fun e =>
    e.eventType = UpdateType.headChanged.value && binding.sequence < e.sequence
  let current ← headAfter number branch head (latestBy TaskEvent.sequence changes)
  reviewedIdentity rt number branch current

/-! ### The three derivations agree -/

theorem find?_reverse {α : Type*} (p : α → Bool) (l : List α) :
    l.reverse.find? p = (l.filter p).getLast? := by
  rw [← List.head?_filter, List.filter_reverse, List.head?_reverse]

section Agreement
variable {rt : Runtime} {cfg : GitHubAppConfiguration} {db : Database} {taskId : UUID}

/-- A query over the assessed events for webhook events that are not before the binding. -/
theorem find?_assessedEvents (hdb : WellRecorded rt cfg taskId db) {bound : TaskEvent}
    (hbound : latestBinding db taskId = some bound) {p : TaskEvent → Bool}
    (hp : ∀ e, p e = true → isGitHubEvent e = true ∧ bound.sequence ≤ e.sequence) :
    (assessedEvents db taskId).reverse.find? p =
      latestBy TaskEvent.sequence ((gitHubEvents db taskId).filter p) := by
  have hfilter : (assessedEvents db taskId).filter p = (gitHubEvents db taskId).filter p := by
    rw [filter_gitHubEvents fun e he => (hp e he).1]
    simp only [assessedEvents, hbound, List.filter_filter]
    refine List.filter_congr fun e _ => ?_
    cases hpe : p e with
    | false => rfl
    | true => simp [(hp e hpe).2]
  rw [find?_reverse, hfilter, (hdb.increasing.filter p).latestBy_eq_getLast?]

/-- The window readiness looks at, in a well-formed history. -/
theorem projectionWindow_assessed (hdb : WellRecorded rt cfg taskId db) {bound : TaskEvent}
    (hbound : latestBinding db taskId = some bound) :
    ∃ b reviews threads, b.WellFormed cfg rt.unicode ∧
      RecordsBinding cfg b reviews threads bound ∧
      ∃ w, projectionWindow (assessedEvents db taskId) = some w ∧
        w.binding =
          { event := bound, number := b.pullRequestNumber, branch := b.taskBranch,
            head := b.headSha, requiredChecks := b.requiredChecks, carriedReviews := reviews,
            carriedThreads := threads } ∧
        effectiveTaskHead db taskId = some w.head ∧
        w.start = ((latestBy TaskEvent.sequence
          ((gitHubEvents db taskId).filter (headChangeAfter bound))).getD bound).sequence := by
  obtain ⟨hmem, hisBinding⟩ := mem_of_latestBinding hbound
  obtain ⟨b, reviews, threads, hb, hreviews, hthreads, htype, hpayload⟩ :=
    hdb.binding bound hmem hisBinding
  have hread := readBinding_eq hb hreviews hthreads hpayload
  -- The binding is the first event assessed, so the queries find what the others find.
  have hfindBinding : (assessedEvents db taskId).reverse.find? isBinding = some bound := by
    have hcongr : (assessedEvents db taskId).filter isBinding =
        (gitHubEvents db taskId).filter fun e => isBinding e && bound.sequence ≤ e.sequence := by
      rw [filter_gitHubEvents fun e he => ?_]
      · simp only [assessedEvents, hbound, List.filter_filter]
      · simp only [Bool.and_eq_true] at he
        exact isGitHubEvent_of_isBinding he.1
    have hincreasing := hdb.increasing.filter fun e => isBinding e && bound.sequence ≤ e.sequence
    rw [find?_reverse, hcongr, ← hincreasing.latestBy_eq_getLast?]
    have hself : bound ∈ (gitHubEvents db taskId).filter
        fun e => isBinding e && bound.sequence ≤ e.sequence :=
      List.mem_filter.mpr ⟨hmem, by simp [hisBinding]⟩
    cases hlatest : latestBy TaskEvent.sequence ((gitHubEvents db taskId).filter
        fun e => isBinding e && bound.sequence ≤ e.sequence) with
    | none => simp [latestBy_eq_none.mp hlatest] at hself
    | some e =>
      obtain ⟨he, hmax⟩ := latestBy_spec hlatest
      obtain ⟨heEvents, hprop⟩ := List.mem_filter.mp he
      simp only [Bool.and_eq_true, decide_eq_true_eq] at hprop
      have hle := latestBinding_sequence_le hbound heEvents hprop.1
      exact congrArg some (hdb.increasing.eq_of_rank_eq heEvents hmem (le_antisymm hle hprop.2))
  have hfindChange := find?_assessedEvents hdb hbound (p := headChangeAfter bound)
    fun e he => ⟨isGitHubEvent_of_update (headChangeAfter_eq_true he), by
      simp only [headChangeAfter, Bool.and_eq_true, decide_eq_true_eq] at he
      exact he.1.1.2.le⟩
  refine ⟨b, reviews, threads, hb, ⟨htype, hpayload⟩, ?_⟩
  simp only [projectionWindow, hfindBinding, hread, hfindChange, Option.bind_eq_bind,
    Option.bind_some, effectiveTaskHead_eq, hbound]
  cases hchange : latestBy TaskEvent.sequence
      ((gitHubEvents db taskId).filter (headChangeAfter bound)) with
  | none =>
    refine ⟨_, rfl, rfl, ?_, rfl⟩
    simp [hpayload, Json.str?]
  | some change =>
    obtain ⟨hchangeMem, -⟩ := latestBy_spec hchange
    obtain ⟨hevents, hafter⟩ := List.mem_filter.mp hchangeMem
    obtain ⟨u, hu, -, d, prev, hu_payload⟩ :=
      hdb.update change hevents (isUpdateEvent_iff.mpr ⟨_, headChangeAfter_eq_true hafter⟩)
    refine ⟨⟨_, u.headSha, change.sequence⟩, ?_, rfl, ?_, rfl⟩
    · simp only [hu_payload, eventPayload_headSha, hu.headSha_valid, if_true]
    · simp [hu_payload, Json.str?]

/-- Readiness and webhook correlation see the same head. -/
theorem githubFacts_headSha (hdb : WellRecorded rt cfg taskId db) :
    (githubFacts rt (assessedEvents db taskId)).headSha = effectiveTaskHead db taskId := by
  cases hbound : latestBinding db taskId with
  | none =>
    have hnone : assessedEvents db taskId = [] := by simp [assessedEvents, hbound]
    rw [hnone, effectiveTaskHead_eq, hbound]
    rfl
  | some bound =>
    obtain ⟨-, -, -, -, -, w, hw, -, hhead, -⟩ := projectionWindow_assessed hdb hbound
    rw [githubFacts, hw, hhead]
    rfl

/-! ### Review resolution accepts the identity -/

theorem asciiAlnum_of_holds {u : Unicode} {c : Char} (h : alnum.holds u c = true) :
    Unicode.asciiAlnum c = true := by
  simp only [alnum, alpha, upperLetter, lowerLetter, decimal, CharClass.holds, Bool.or_eq_true]
    at h
  simp only [Unicode.asciiAlnum, Unicode.asciiAlpha, Unicode.asciiLower, Unicode.asciiUpper,
    Unicode.asciiDigit, Bool.or_eq_true]
  tauto

/-- The characters of a branch name are no white space. -/
theorem isSpace_of_branchChar {u : Unicode} {c : Char}
    (h : (CharClass.union alnum (oneOf "._/-")).holds u c = true) : u.isSpace c = false := by
  simp only [CharClass.holds, Bool.or_eq_true] at h
  rcases h with h | h
  · exact u.isSpace_eq_false_of_asciiAlnum (asciiAlnum_of_holds h)
  · have hmem : c ∈ ['.', '_', '/', '-'] := by simpa [oneOf, CharClass.holds] using h
    have hall : ∀ c ∈ ['.', '_', '/', '-'], (Unicode.isAscii c &&
        !(c == ' ' || (9 ≤ c.toNat && c.toNat ≤ 13) || (28 ≤ c.toNat && c.toNat ≤ 31))) = true :=
      List.all_eq_true.mp (by decide)
    obtain ⟨hascii, hspace⟩ := Bool.and_eq_true_iff.mp (hall c hmem)
    rw [Unicode.isSpace, if_pos hascii]
    exact (Bool.not_eq_true' _).mp hspace

/-- A branch name is an identifier as it stands. -/
theorem IsBranch.identifier {u : Unicode} {value : List Char} (h : IsBranch u value) :
    u.strip value = value ∧ value.length ≤ 255 ∧
      identifierPattern.fullmatch (CharClass.holds u) value = true := by
  cases value with
  | nil => exact absurd rfl h.ne_nil
  | cons x xs =>
    obtain ⟨hx, hxs, hlength⟩ := fullmatch_seq_char_many.mp h.1
    have hchars : ∀ c ∈ x :: xs, u.isSpace c = false := by
      intro c hc
      rcases List.mem_cons.mp hc with rfl | hc
      · exact u.isSpace_eq_false_of_asciiAlnum (asciiAlnum_of_holds hx)
      · exact isSpace_of_branchChar (hxs c hc)
    have h254 : xs.length ≤ 254 := hlength 254 rfl
    refine ⟨u.strip_eq_self (fun c hc => hchars c (List.mem_of_mem_head? hc))
      fun c hc => hchars c (List.mem_of_mem_getLast? hc), ?_, ?_⟩
    · rw [List.length_cons]
      omega
    · refine fullmatch_seq_char_many.mpr ⟨hx, fun y hy => ?_, fun n hn => ?_⟩
      · have hy := hxs y hy
        simp only [CharClass.holds, oneOf, Bool.or_eq_true] at hy ⊢
        rcases hy with hy | hy
        · exact .inl hy
        · exact .inr (by simp at hy ⊢; tauto)
      · obtain rfl : 254 = n := by simpa using hn
        exact h254

/-- A head is an object identifier as it stands. -/
theorem isSha_normalized {u : Unicode} {head : List Char} (h : isSha head = true) :
    u.lower (u.strip head) = head := by
  simp only [isSha, Bool.and_eq_true, List.all_eq_true] at h
  have hmem : ∀ c ∈ head, c ∈ UUID.hexAlphabet := fun c hc => by simpa using h.2 c hc
  have hstrip : u.strip head = head :=
    u.strip_eq_self_of_alnum fun c hc => (ascii_of_mem_hexAlphabet (hmem c hc)).2.2
  rw [hstrip]
  exact u.lower_eq_self fun c hc =>
    ⟨(ascii_of_mem_hexAlphabet (hmem c hc)).1, (ascii_of_mem_hexAlphabet (hmem c hc)).2.1⟩

theorem reviewedIdentity_eq {number : ℤ} {branch head : String} (hnumber : 0 < number)
    (hbranch : IsBranch rt.unicode branch.toList) (hhead : isSha head.toList = true) :
    reviewedIdentity rt number branch head = some (number, branch, head) := by
  obtain ⟨hstrip, hlength, hmatch⟩ := hbranch.identifier
  simp only [reviewedIdentity, hstrip, isSha_normalized hhead, String.ofList_toList]
  rw [if_pos ⟨hnumber, hlength, hmatch, hhead⟩]

/-- Review resolution sees the same head, of a pull request it accepts. -/
theorem currentPrIdentity_head (hdb : WellRecorded rt cfg taskId db) :
    (currentPrIdentity rt db taskId).map (fun identity => identity.2.2) =
      effectiveTaskHead db taskId := by
  cases hbound : latestBinding db taskId with
  | none => simp [currentPrIdentity, effectiveTaskHead_eq, hbound]
  | some bound =>
    obtain ⟨hmem, hisBinding⟩ := mem_of_latestBinding hbound
    obtain ⟨b, reviews, threads, hb, -, -, -, hpayload⟩ := hdb.binding bound hmem hisBinding
    -- Every head change since the binding is about the bound pull request.
    have hchanges : ((taskEventsOf db taskId).filter fun e =>
        e.eventType = UpdateType.headChanged.value && bound.sequence < e.sequence) =
        (gitHubEvents db taskId).filter (headChangeAfter bound) := by
      have hquery : ∀ e : TaskEvent, (decide (e.eventType = UpdateType.headChanged.value) &&
          decide (bound.sequence < e.sequence)) = true → isGitHubEvent e = true := by
        intro e he
        simp only [Bool.and_eq_true, decide_eq_true_eq] at he
        exact isGitHubEvent_of_update he.1
      rw [← filter_gitHubEvents hquery]
      refine List.filter_congr fun e he => ?_
      by_cases hlt : bound.sequence < e.sequence
      · simp [headChangeAfter, hdb.concerns bound hbound e he hlt]
      · simp [headChangeAfter, hlt]
    simp only [currentPrIdentity, hbound, hpayload, bindingPayload_number, bindingPayload_branch,
      bindingPayload_headSha, Json.int?, Json.str?, Option.bind_eq_bind, Option.bind_some,
      hchanges, effectiveTaskHead_eq]
    cases hchange : latestBy TaskEvent.sequence
        ((gitHubEvents db taskId).filter (headChangeAfter bound)) with
    | none =>
      simp only [headAfter, Option.bind_some, Option.getD_none, hpayload, bindingPayload_headSha,
        reviewedIdentity_eq hb.number_pos hb.branch hb.headSha, Option.map_some]
    | some change =>
      obtain ⟨hchangeMem, -⟩ := latestBy_spec hchange
      obtain ⟨hevents, hafter⟩ := List.mem_filter.mp hchangeMem
      obtain ⟨u, hu, -, d, prev, hu_payload⟩ :=
        hdb.update change hevents (isUpdateEvent_iff.mpr ⟨_, headChangeAfter_eq_true hafter⟩)
      simp only [headChangeAfter, hpayload, hu_payload, eventPayload_number, eventPayload_branch,
        bindingPayload_number, bindingPayload_branch, Bool.and_eq_true] at hafter
      simp only [headAfter, hu_payload, eventPayload_number, eventPayload_branch,
        eventPayload_headSha, hafter.1.2, hafter.2, Bool.and_self, if_true, Json.str?,
        Option.bind_some, Option.getD_some,
        reviewedIdentity_eq hb.number_pos hb.branch hu.headSha_valid, Option.map_some]

end Agreement

/-! ### What the head should be -/

def Activity.binding? : Activity → Option (PullRequestBinding × ℕ)
  | .bound b asOf => some (b, asOf)
  | .processed _ => none

def Activity.update? : Activity → Option WebhookUpdate
  | .bound _ _ => none
  | .processed u => some u

/-- The latest binding, with the time as of which the pull request was bound. -/
def lastBound (activities : List Activity) : Option (PullRequestBinding × ℕ) :=
  (activities.filterMap Activity.binding?).getLast?

/-- A synchronized update of a bound pull request. -/
def Synchronizes (b : PullRequestBinding) (u : WebhookUpdate) : Prop :=
  u.eventType = .pullRequest ∧ u.action = "synchronize" ∧
    u.pullRequestNumber = b.pullRequestNumber

instance (b : PullRequestBinding) (u : WebhookUpdate) : Decidable (Synchronizes b u) :=
  inferInstanceAs (Decidable (_ ∧ _))

def sourceRank (u : WebhookUpdate) : ℕ := u.sourceUpdatedAt.val

/-- The synchronized updates that are not older than the binding. -/
def synchronized (b : PullRequestBinding) (asOf : ℕ) (activities : List Activity) :
    List WebhookUpdate :=
  (activities.filterMap Activity.update?).filter fun u => Synchronizes b u ∧ asOf ≤ sourceRank u

/-- The one with the latest source time; of several, the first one processed. -/
def latestSynchronized (b : PullRequestBinding) (asOf : ℕ) (activities : List Activity) :
    Option WebhookUpdate :=
  latestBy sourceRank (synchronized b asOf activities).reverse

/-- The head of the latest synchronized update, or else the bound one. -/
def headSince (b : PullRequestBinding) (asOf : ℕ) (activities : List Activity) : String :=
  ((latestSynchronized b asOf activities).map WebhookUpdate.headSha).getD b.headSha

/-- The head a pull request should be at. -/
def expectedHead (activities : List Activity) : Option String :=
  (lastBound activities).map fun p => headSince p.1 p.2 activities

/-! ### The condition on a run -/

/-- The update is about the pull request of one task only, and that task is live. -/
def FollowedBy (db : Database) (taskId : UUID) (u : WebhookUpdate) : Prop :=
  ∃ task, bindingCandidates db u false = [task] ∧ task.id = taskId ∧
    task.state.isTerminal = false

/-- Not older than the binding, and more recent than every synchronized update so far. -/
def Newest (b : PullRequestBinding) (asOf : ℕ) (activities : List Activity) (u : WebhookUpdate) :
    Prop :=
  asOf ≤ sourceRank u ∧ ∀ v ∈ synchronized b asOf activities, sourceRank v < sourceRank u

/-- When a step follows the head. A binding must not come after a head change that it does
not know of, nor repeat the latest binding while the head is another one. A synchronized
update that is the newest must name the head that is known already, or a head other than
the bound one while its pull request is followed; an older one must not be recorded as a
head change. -/
def HeadCondition (rt : Runtime) (cfg : GitHubAppConfiguration) (taskId : UUID)
    (activities : List Activity) (db : Database) : Activity → Prop
  | .bound b asOf =>
    (∀ u ∈ latestSynchronized b asOf activities, u.headSha = b.headSha) ∧
    ∀ current ∈ latestBinding db taskId,
      current.payload.pyEq (bindingPayload cfg b (reviewStateCarryover db taskId)) = true →
        effectiveTaskHead db taskId = some b.headSha
  | .processed u =>
    ∀ b asOf, lastBound activities = some (b, asOf) → Synchronizes b u →
      (Newest b asOf activities u →
        effectiveTaskHead db taskId = some u.headSha ∨
          (u.headSha ≠ b.headSha ∧ FollowedBy db taskId u)) ∧
      (¬ Newest b asOf activities u →
        effectiveTaskHead db taskId = some u.headSha ∨ u.headSha = b.headSha ∨
          ¬ FollowedBy db taskId u ∨ ¬ NewerThanRecorded rt db taskId u.asHeadChange)

/-! ### What processing does to the head -/

section Processing
variable {rt : Runtime} {cfg : GitHubAppConfiguration} {db db' : Database} {taskId : UUID}

/-- An update that is recorded as a head change. -/
structure ChangesHead (rt : Runtime) (db : Database) (taskId : UUID) (u : WebhookUpdate) : Prop where
  followed : FollowedBy db taskId u
  not_bound : bindingCandidates db u true = []
  synchronize : u.eventType = .pullRequest ∧ u.action = "synchronize"
  other_head : ∃ head, effectiveTaskHead db taskId = some head ∧ u.headSha ≠ head
  newer : NewerThanRecorded rt db taskId u.asHeadChange

theorem ChangesHead.correlate_eq {u : WebhookUpdate} (h : ChangesHead rt db taskId u) :
    ∃ task prev, correlate db u = .accepted task u.asHeadChange prev ∧ task.id = taskId ∧
      task.state.isTerminal = false := by
  obtain ⟨task, hone, htask, hlive⟩ := h.followed
  obtain ⟨head, hhead, hne⟩ := h.other_head
  refine ⟨task, some head, ?_, htask, hlive⟩
  simp only [correlate, h.not_bound, hone, correlateOtherHead, htask, hhead, hne, h.synchronize,
    and_self, if_true, if_false]

/-- A head change becomes the head. -/
theorem Recorded.effectiveTaskHead_of_change {u : WebhookUpdate} (h : Recorded rt db u db')
    (hchange : ChangesHead rt db taskId u) :
    effectiveTaskHead db' taskId = some u.headSha := by
  obtain ⟨task, prev, hcorrelate, htask, hlive⟩ := hchange.correlate_eq
  cases h with
  | unknown reason hother => rw [hcorrelate] at hother; cases hother
  | stale t hother => rw [hcorrelate] at hother; cases hother
  | inactive t v prev' hother hstate =>
    rw [hcorrelate] at hother
    cases hother
    rw [hlive] at hstate
    cases hstate
  | notNewer t v prev' hother hstate hold =>
    rw [hcorrelate] at hother
    cases hother
    exact absurd (htask ▸ hchange.newer) hold
  | appended t v prev' d now eventId hother hstate hnew hrows =>
    rw [hcorrelate] at hother
    cases hother
    have hes := gitHubEvents_append taskId hrows
      (isGitHubEvent_of_update (k := UpdateType.headChanged) rfl)
    have htaskId : (updateEvent db d task u.asHeadChange prev now eventId).taskId = taskId := htask
    rw [if_pos htaskId] at hes
    obtain ⟨bound, hbound, hbinds⟩ := bindsUpdate_of_accepted hcorrelate
    rw [htask] at hbound
    have hseq : ∀ a ∈ gitHubEvents db taskId,
        a.sequence < (updateEvent db d task u.asHeadChange prev now eventId).sequence := by
      intro a ha
      rw [updateEvent, htask]
      exact lt_nextEventSequence ha
    have hafter : headChangeAfter bound (updateEvent db d task u.asHeadChange prev now eventId) =
        true := by
      simp only [bindsUpdate, Bool.and_eq_true] at hbinds
      obtain ⟨⟨⟨-, hnumber⟩, hbranch⟩, -⟩ := hbinds
      simp only [headChangeAfter, Bool.and_eq_true, decide_eq_true_eq]
      refine ⟨⟨⟨rfl, hseq bound (mem_of_latestBinding hbound).1⟩, ?_⟩, ?_⟩
      · rw [sameInt_comm]
        exact hnumber
      · rw [sameText_comm]
        exact hbranch
    exact effectiveTaskHead_append_change hes hseq hbound hafter

/-- Any other update leaves the head alone. -/
theorem Recorded.effectiveTaskHead_of_not_change {u : WebhookUpdate} (hu : u.WellFormed)
    (h : Recorded rt db u db') (hchange : ¬ ChangesHead rt db taskId u) :
    effectiveTaskHead db' taskId = effectiveTaskHead db taskId := by
  rcases h.append taskId with hsame | ⟨task, v, prev, d, now, eventId, hcorrelate, htask, hlive,
    hnew, hes⟩
  · exact effectiveTaskHead_congr hsame
  · have hv : v = u := by
      rcases correlate_accepted hcorrelate with ⟨hv, -⟩ | ⟨hnone, hone, ⟨hv, -⟩ |
        ⟨rfl, htype, haction, head, hhead, hne⟩⟩
      · exact hv
      · exact hv
      · exact absurd ⟨⟨task, hone, htask, hlive⟩, hnone, ⟨htype, haction⟩,
          ⟨head, htask ▸ hhead, hne⟩, hnew⟩ hchange
    refine effectiveTaskHead_append_other hes (isBinding_eq_false_of_update rfl) fun bound _ => ?_
    by_contra hafter
    have htype := headChangeAfter_eq_true (Bool.eq_true_of_not_eq_false hafter)
    have hchanged : v.eventType = .headChanged := UpdateType.value_injective htype
    exact hu.eventType_ne (hv ▸ hchanged)

end Processing

/-! ### The invariant of a run -/

/-- The latest binding recorded is the latest one made, head changes come from synchronized
updates, and the head is the expected one. -/
structure HeadInvariant (cfg : GitHubAppConfiguration) (taskId : UUID)
    (activities : List Activity) (db : Database) : Prop where
  unbound : lastBound activities = none → latestBinding db taskId = none
  bound : ∀ b asOf, lastBound activities = some (b, asOf) →
    ∃ e b' reviews threads, latestBinding db taskId = some e ∧
      RecordsBinding cfg b' reviews threads e ∧ b'.pullRequestNumber = b.pullRequestNumber ∧
      b'.headSha = b.headSha
  head : effectiveTaskHead db taskId = expectedHead activities
  changes : ∀ e ∈ gitHubEvents db taskId, e.eventType = UpdateType.headChanged.value →
    ∃ u, u ∈ activities.filterMap Activity.update? ∧ u.eventType = .pullRequest ∧
      u.action = "synchronize" ∧ Records u.asHeadChange e

section Activities
variable {activities : List Activity} {b : PullRequestBinding} {asOf : ℕ} {u : WebhookUpdate}

@[simp] theorem lastBound_bound :
    lastBound (activities ++ [.bound b asOf]) = some (b, asOf) := by
  simp [lastBound, Activity.binding?]

@[simp] theorem lastBound_processed :
    lastBound (activities ++ [.processed u]) = lastBound activities := by
  simp [lastBound, Activity.binding?]

@[simp] theorem updates_bound :
    (activities ++ [Activity.bound b asOf]).filterMap Activity.update? =
      activities.filterMap Activity.update? := by
  rw [List.filterMap_append]
  exact List.append_nil _

@[simp] theorem updates_processed :
    (activities ++ [Activity.processed u]).filterMap Activity.update? =
      activities.filterMap Activity.update? ++ [u] := by
  rw [List.filterMap_append]
  rfl

theorem headSince_bound {b' : PullRequestBinding} {asOf' : ℕ} :
    headSince b asOf (activities ++ [.bound b' asOf']) = headSince b asOf activities := by
  simp only [headSince, latestSynchronized, synchronized, updates_bound]

/-- The newest synchronized update names the head. -/
theorem headSince_newest (hsync : Synchronizes b u) (h : Newest b asOf activities u) :
    headSince b asOf (activities ++ [.processed u]) = u.headSha := by
  have hsynchronized : synchronized b asOf (activities ++ [.processed u]) =
      synchronized b asOf activities ++ [u] := by
    simp only [synchronized, updates_processed, List.filter_append]
    simp [hsync, h.1]
  have hlatest : latestSynchronized b asOf (activities ++ [.processed u]) = some u := by
    rw [latestSynchronized, hsynchronized, List.reverse_append, List.reverse_singleton,
      List.singleton_append]
    simp only [latestBy]
    cases hprevious : latestBy sourceRank (synchronized b asOf activities).reverse with
    | none => rfl
    | some v =>
      have hmem := List.mem_reverse.mp (latestBy_spec hprevious).1
      simp [h.2 v hmem]
  rw [headSince, hlatest]
  rfl

/-- Any other update does not. -/
theorem headSince_not_newest (h : Synchronizes b u → ¬ Newest b asOf activities u) :
    headSince b asOf (activities ++ [.processed u]) = headSince b asOf activities := by
  by_cases hcounts : Synchronizes b u ∧ asOf ≤ sourceRank u
  · have hsynchronized : synchronized b asOf (activities ++ [.processed u]) =
        synchronized b asOf activities ++ [u] := by
      simp only [synchronized, updates_processed, List.filter_append]
      simp [hcounts]
    have hnot := h hcounts.1
    simp only [Newest, hcounts.2, true_and, not_forall, not_lt] at hnot
    obtain ⟨v, hv, hle⟩ := hnot
    have hlatest : latestSynchronized b asOf (activities ++ [.processed u]) =
        latestSynchronized b asOf activities := by
      rw [latestSynchronized, latestSynchronized, hsynchronized, List.reverse_append,
        List.reverse_singleton, List.singleton_append]
      simp only [latestBy]
      cases hprevious : latestBy sourceRank (synchronized b asOf activities).reverse with
      | none =>
        rw [latestBy_eq_none, List.reverse_eq_nil_iff] at hprevious
        simp [hprevious] at hv
      | some w =>
        have hmax := (latestBy_spec hprevious).2 v (List.mem_reverse.mpr hv)
        simp [(hle.trans hmax).not_gt]
    rw [headSince, headSince, hlatest]
  · have hsynchronized : synchronized b asOf (activities ++ [.processed u]) =
        synchronized b asOf activities := by
      simp only [synchronized, updates_processed, List.filter_append]
      simp only [hcounts, decide_false, Bool.false_eq_true, not_false_eq_true,
        List.filter_cons_of_neg, List.filter_nil, List.append_nil]
    rw [headSince, headSince, latestSynchronized, latestSynchronized, hsynchronized]

end Activities

section Invariant
variable {rt : Runtime} {cfg : GitHubAppConfiguration} {db db' : Database} {taskId : UUID}
  {activities : List Activity}

/-- Equal bindings name the same pull request at the same head. -/
theorem bindingPayload_pyEq {b b' : PullRequestBinding} {c c' : Option Json}
    (h : (bindingPayload cfg b c).pyEq (bindingPayload cfg b' c') = true) :
    b.pullRequestNumber = b'.pullRequestNumber ∧ b.headSha = b'.headSha := by
  have hnumber := Json.pyEq_get_of_lookup h "pull_request_number" (v := .int b.pullRequestNumber) rfl
  have hhead := Json.pyEq_get_of_lookup h "head_sha" (v := .str b.headSha) rfl
  change (Json.int b.pullRequestNumber).pyEq (.int b'.pullRequestNumber) = true at hnumber
  change (Json.str b.headSha).pyEq (.str b'.headSha) = true at hhead
  refine ⟨(Json.int_pyEq_int _ _).mp hnumber, ?_⟩
  exact Json.str.inj ((Json.pyEq_str _ _).mp hhead)

/-- A binding that meets the condition starts at its head. -/
theorem HeadInvariant.bind_step {arguments b : PullRequestBinding} {id : UUID} {ids : List UUID}
    {asOf : ℕ} (hrec : WellRecorded rt cfg taskId db) (hinv : HeadInvariant cfg taskId activities db)
    (hcheck : checkBinding rt cfg arguments = .ok b) (htask : b.taskId = taskId)
    (hcondition : HeadCondition rt cfg taskId activities db (.bound b asOf))
    (h : bindTransaction rt cfg db arguments = .ok (id, ids, db')) :
    HeadInvariant cfg taskId (activities ++ [.bound b asOf]) db' := by
  obtain ⟨hknown, hrepeat⟩ := hcondition
  have hexpected : expectedHead (activities ++ [.bound b asOf]) = some b.headSha := by
    rw [expectedHead, lastBound_bound, Option.map_some, headSince_bound, headSince]
    cases hlatest : latestSynchronized b asOf activities with
    | none => rfl
    | some u => simp [hknown u hlatest]
  rcases bindTransaction_append hcheck htask h with ⟨hsame, current, hcurrent, hequal⟩ |
    ⟨-, task, hid, hes⟩
  · obtain ⟨hmem, hisBinding⟩ := mem_of_latestBinding hcurrent
    obtain ⟨b', reviews, threads, -, -, -, hrecords⟩ := hrec.binding current hmem hisBinding
    obtain ⟨hnumber, hhead⟩ := bindingPayload_pyEq (hrecords.2 ▸ hequal)
    refine ⟨fun hnone => by simp at hnone, fun c asOf' hbound => ?_, ?_, ?_⟩
    · obtain ⟨rfl, rfl⟩ : b = c ∧ asOf = asOf' := by simpa using hbound
      exact ⟨current, b', reviews, threads, by rw [latestBinding_congr hsame, hcurrent], hrecords,
        hnumber, hhead⟩
    · rw [effectiveTaskHead_congr hsame, hexpected]
      exact hrepeat current hcurrent hequal
    · rw [hsame, updates_bound]
      exact hinv.changes
  · have hevent : isBinding (bindingEvent cfg db task b (reviewStateCarryover db taskId)) = true := by
      simp [isBinding, bindingEvent]
    have hseq : ∀ a ∈ gitHubEvents db taskId,
        a.sequence < (bindingEvent cfg db task b (reviewStateCarryover db taskId)).sequence := by
      intro a ha
      rw [bindingEvent, hid]
      exact lt_nextEventSequence ha
    refine ⟨fun hnone => by simp at hnone, fun c asOf' hbound => ?_, ?_, ?_⟩
    · obtain ⟨rfl, rfl⟩ : b = c ∧ asOf = asOf' := by simpa using hbound
      exact ⟨_, b, _, _, latestBinding_append_binding hes hseq hevent, ⟨rfl, rfl⟩, rfl, rfl⟩
    · rw [effectiveTaskHead_append_binding hes hseq hevent, hexpected]
      rfl
    · rw [updates_bound]
      intro e he htype
      rw [hes, List.mem_append, List.mem_singleton] at he
      rcases he with he | rfl
      · exact hinv.changes e he htype
      · exact absurd htype.symm (UpdateType.value_ne_bound _)

/-- What the newest synchronized update would be recorded as is newer than what is recorded. -/
theorem HeadInvariant.newerThanRecorded {u : WebhookUpdate} {b : PullRequestBinding} {asOf : ℕ}
    (hinv : HeadInvariant cfg taskId activities db) (hsync : Synchronizes b u)
    (hnewest : Newest b asOf activities u) : NewerThanRecorded rt db taskId u.asHeadChange := by
  intro previous hprevious
  rw [latestResourceEvent_eq] at hprevious
  obtain ⟨hmem, -⟩ := latestBy_spec hprevious
  obtain ⟨hevents, hresource⟩ := List.mem_filter.mp hmem
  simp only [isResourceEvent, Bool.and_eq_true, decide_eq_true_eq] at hresource
  obtain ⟨⟨⟨htype, -⟩, -⟩, hid⟩ := hresource
  obtain ⟨v, hv, hvtype, hvaction, -, d, prev, hpayload⟩ := hinv.changes previous hevents htype
  -- The recorded change came from a synchronized update of the same pull request.
  have hnumber : v.pullRequestNumber = u.pullRequestNumber := by
    rw [hpayload, eventPayload_resourceId, sameText_str, decide_eq_true_eq] at hid
    exact Json.toString_int_injective hid
  have hvsync : Synchronizes b v := ⟨hvtype, hvaction, hnumber.trans hsync.2.2⟩
  refine ⟨v.sourceUpdatedAt, ?_, ?_⟩
  · rw [updatedAt, hpayload, eventPayload_sourceUpdatedAt]
    exact parseTimestamp_isoTimestamp rt _ _
  · by_cases hasOf : asOf ≤ sourceRank v
    · exact hnewest.2 v (List.mem_filter.mpr ⟨hv, by simp [hvsync, hasOf]⟩)
    · exact lt_of_lt_of_le (not_le.mp hasOf) hnewest.1

/-- An update that meets the condition leads to the expected head. -/
theorem HeadInvariant.process_step {u : WebhookUpdate} (hinv : HeadInvariant cfg taskId activities db)
    (hu : u.WellFormed) (hcondition : HeadCondition rt cfg taskId activities db (.processed u))
    (h : Recorded rt db u db') :
    HeadInvariant cfg taskId (activities ++ [.processed u]) db' := by
  have hlatest : latestBinding db' taskId = latestBinding db taskId := by
    rcases h.append taskId with hsame | ⟨task, v, prev, d, now, eventId, -, -, -, -, hes⟩
    · exact latestBinding_congr hsame
    · exact latestBinding_append_other hes (isBinding_eq_false_of_update rfl)
  refine ⟨?_, ?_, ?_, ?_⟩
  · rw [lastBound_processed, hlatest]
    exact hinv.unbound
  · rw [lastBound_processed, hlatest]
    exact hinv.bound
  · rw [expectedHead, lastBound_processed]
    cases hbound : lastBound activities with
    | none =>
      have hnone : latestBinding db' taskId = none := by rw [hlatest, hinv.unbound hbound]
      rw [effectiveTaskHead_eq, hnone]
      rfl
    | some p =>
      obtain ⟨b, asOf⟩ := p
      obtain ⟨e, b', reviews, threads, hevent, ⟨-, hpayload⟩, hnumber, hhead⟩ :=
        hinv.bound b asOf hbound
      have hcurrent : effectiveTaskHead db taskId = some (headSince b asOf activities) := by
        rw [hinv.head, expectedHead, hbound]
        rfl
      -- A followed update names the bound head exactly when it is looked up with its head.
      have hcandidates : FollowedBy db taskId u →
          (bindingCandidates db u true = [] ↔ u.headSha ≠ b.headSha) := by
        rintro ⟨task, hone, htask, -⟩
        have hbinding : latestBinding db task.id = some e := by rw [htask, hevent]
        rw [candidates_true_eq_nil hone hbinding, hpayload, bindingPayload_headSha, sameText_str,
          hhead, decide_eq_false_iff_not, eq_comm]
      by_cases hsync : Synchronizes b u
      · obtain ⟨hwhenNewest, hotherwise⟩ := hcondition b asOf hbound hsync
        by_cases hnewest : Newest b asOf activities u
        · rw [Option.map_some, headSince_newest hsync hnewest]
          by_cases hsameHead : effectiveTaskHead db taskId = some u.headSha
          · have hnot : ¬ ChangesHead rt db taskId u := by
              rintro ⟨-, -, -, ⟨head, hhead', hne⟩, -⟩
              rw [hsameHead] at hhead'
              exact hne (Option.some.inj hhead')
            rw [h.effectiveTaskHead_of_not_change hu hnot, hsameHead]
          · obtain ⟨hne, hfollowed⟩ := (hwhenNewest hnewest).resolve_left hsameHead
            refine h.effectiveTaskHead_of_change ⟨hfollowed, (hcandidates hfollowed).mpr hne,
              ⟨hsync.1, hsync.2.1⟩, ⟨_, hcurrent, fun heq => ?_⟩,
              hinv.newerThanRecorded hsync hnewest⟩
            exact hsameHead (by rw [hcurrent, heq])
        · rw [Option.map_some, headSince_not_newest fun _ => hnewest, ← hcurrent]
          refine h.effectiveTaskHead_of_not_change hu ?_
          rintro ⟨hfollowed, hnone, -, ⟨head, hhead', hne⟩, hnew⟩
          rcases hotherwise hnewest with heq | heq | hnot | hnot
          · rw [heq] at hhead'
            exact hne (Option.some.inj hhead')
          · exact (hcandidates hfollowed).mp hnone heq
          · exact hnot hfollowed
          · exact hnot hnew
      · rw [Option.map_some, headSince_not_newest fun hsync' => absurd hsync' hsync, ← hcurrent]
        refine h.effectiveTaskHead_of_not_change hu ?_
        rintro ⟨hfollowed, -, ⟨htype, haction⟩, -, -⟩
        -- A followed synchronize is about the bound pull request.
        obtain ⟨task, hone, htask, -⟩ := hfollowed
        obtain ⟨bound, hbound', hbinds⟩ :=
          bindsUpdate_of_mem_candidates (hone ▸ List.mem_singleton_self task)
        rw [htask, hevent] at hbound'
        obtain rfl : e = bound := by simpa using hbound'
        simp only [bindsUpdate, Bool.and_eq_true] at hbinds
        have hsame := hbinds.1.1.2
        rw [hpayload, bindingPayload_number, sameInt_int, decide_eq_true_eq] at hsame
        exact hsync ⟨htype, haction, hsame.symm.trans hnumber⟩
  · rw [updates_processed]
    intro e he htype
    rcases h.append taskId with hsame | ⟨task, v, prev, d, now, eventId, hcorrelate, -, -, -, hes⟩
    · rw [hsame] at he
      obtain ⟨w, hw, hrest⟩ := hinv.changes e he htype
      exact ⟨w, List.mem_append_left _ hw, hrest⟩
    · rw [hes, List.mem_append, List.mem_singleton] at he
      rcases he with he | rfl
      · obtain ⟨w, hw, hrest⟩ := hinv.changes e he htype
        exact ⟨w, List.mem_append_left _ hw, hrest⟩
      · have hchanged : v.eventType = .headChanged := UpdateType.value_injective htype
        rcases correlate_accepted hcorrelate with ⟨rfl, -⟩ | ⟨-, -, ⟨rfl, -⟩ |
          ⟨rfl, htype', haction, -⟩⟩
        · exact absurd hchanged hu.eventType_ne
        · exact absurd hchanged hu.eventType_ne
        · exact ⟨u, List.mem_append_right _ (List.mem_singleton_self u), htype', haction, rfl, d,
            prev, rfl⟩

/-- The invariant holds after every run whose steps meet the condition. -/
theorem TaskRun.headInvariant
    (h : TaskRun rt cfg taskId (HeadCondition rt cfg taskId) activities db) :
    HeadInvariant cfg taskId activities db := by
  induction h with
  | start h =>
    refine ⟨fun _ => ?_, fun b asOf hbound => ?_, ?_, ?_⟩
    · rw [latestBinding_eq, h]
      rfl
    · simp [lastBound] at hbound
    · rw [effectiveTaskHead_eq, latestBinding_eq, h]
      rfl
    · simp [h]
  | bind hrun hcheck htask hcondition h ih =>
    exact ih.bind_step hrun.wellRecorded hcheck htask hcondition h
  | process hrun hupdate hcondition h ih =>
    have hstep := (processDelivery_ok h).2
    rw [hupdate] at hstep
    exact ih.process_step (processedUpdate_ok hupdate).1 hcondition hstep
  | other hrun h ih =>
    refine ⟨?_, ?_, ?_, ?_⟩
    · rw [latestBinding_congr h]
      exact ih.unbound
    · rw [latestBinding_congr h]
      exact ih.bound
    · rw [effectiveTaskHead_congr h]
      exact ih.head
    · rw [h]
      exact ih.changes

end Invariant

/-- The head after a run is the expected one, for correlation, readiness and review resolution. -/
theorem effectiveTaskHead_of_run {rt : Runtime} {cfg : GitHubAppConfiguration} {taskId : UUID}
    {activities : List Activity} {db : Database}
    (h : TaskRun rt cfg taskId (HeadCondition rt cfg taskId) activities db) :
    effectiveTaskHead db taskId = expectedHead activities ∧
      (githubFacts rt (assessedEvents db taskId)).headSha = expectedHead activities ∧
      (currentPrIdentity rt db taskId).map (fun identity => identity.2.2) =
        expectedHead activities := by
  have hhead := h.headInvariant.head
  refine ⟨hhead, ?_, ?_⟩
  · rw [githubFacts_headSha h.wellRecorded, hhead]
  · rw [currentPrIdentity_head h.wellRecorded, hhead]

/-! ### A push and its revert -/

namespace GitHubExample

def cfg : GitHubAppConfiguration := ⟨1, 2, "owner/app"⟩

def task : Task where
  id := .ofNat 1
  repository := "owner/app"
  state := .prActive
  ownerId := githubOwner
  rootCorrelationId := .ofNat 7

def sha (c : Char) : String := String.ofList (List.replicate 40 c)

def binding (head : String) (eventId : ℕ) : PullRequestBinding where
  taskId := task.id
  installationId := 1
  repositoryId := 2
  pullRequestNumber := 3
  taskBranch := "work"
  headSha := head
  requiredChecks := ["build"]
  now := 0
  eventId := .ofNat eventId

/-- The body of a delivery of the installed repository. -/
def body (action : String) (fields : List (String × Json)) : Json :=
  .obj ([("action", .str action), ("installation", .obj [("id", .int 1)]),
    ("repository", .obj [("id", .int 2), ("full_name", .str "owner/app")])] ++ fields)

def time (t : ℕ) : Json := .str (Calendar.isoTimestamp (seconds t))

def pullRequest (head : String) (updatedAt : ℕ) : String × Json :=
  ("pull_request", .obj [("number", .int 3), ("state", .str "open"), ("draft", .bool true),
    ("head", .obj [("ref", .str "work"), ("sha", .str head)]), ("updated_at", time updatedAt)])

/-- A delivery that was received: its number, event name and body. -/
abbrev Received := ℕ × String × Json

def synchronize (n : ℕ) (head : String) (updatedAt : ℕ) : Received :=
  (n, "pull_request", body "synchronize" [pullRequest head updatedAt])

theorem seconds_lt_endOfTime : seconds 100 < Calendar.endOfTime := by decide

def request (r : Received) : WebhookRequest where
  eventName := r.2.1
  deliveryId := toString r.1
  verified := ⟨"", "", 0, "", some r.2.2⟩
  now := ⟨seconds 100, seconds_lt_endOfTime⟩
  deliveryUuid := .ofNat (100 + r.1)
  evidenceId := .ofNat (200 + r.1)

/-- The evidence of a delivery in which nothing was redacted. -/
def evidence (r : Received) : EvidenceRecord :=
  let content := webhookEvidence (request r) r.2.2
  let contentHash := digest .plain (Runtime.plain.dumps content)
  ((webhookCapture (request r) r.2.2).envelope githubOwner githubActor "github-webhook"
    "github:webhook" ⟨content, .json, "", contentHash, []⟩).record .plain

def delivery (r : Received) : WebhookDelivery := receivedDelivery .plain (request r) r.2.2

def tableOf {α : Type} [Keyed α UUID] (rows : List α) : Table α :=
  if h : (rows.map key).Nodup then ⟨rows, h⟩ else .empty

/-- The task is there and the deliveries wait. -/
def start (received : List Received) : Database where
  tasks := tableOf [task]
  evidenceRecords := tableOf (received.map evidence)
  webhookDeliveries := tableOf (received.map delivery)

def resultOr {α : Type} (result : Except GitHubWebhookError α) (default : α) : α :=
  match result with
  | .ok a => a
  | .error _ => default

theorem eq_ok_resultOr {α : Type} {result : Except GitHubWebhookError α} {default : α}
    (h : result.isOk = true) : result = .ok (resultOr result default) := by
  cases result with
  | ok a => rfl
  | error e => cases h

def checked (b : PullRequestBinding) : PullRequestBinding :=
  resultOr (checkBinding .plain cfg b) b

def bind (b : PullRequestBinding) (db : Database) : Database :=
  (resultOr (bindTransaction .plain cfg db b) (b.eventId, [], db)).2.2

def process (n : ℕ) (db : Database) : Database :=
  (resultOr (processDelivery .plain cfg db (.ofNat (100 + n)) (seconds 100) (.ofNat (300 + n))
    (.ofNat (400 + n))) (⟨.ofNat 0, .quarantined, none, none, none⟩, db)).2

def updateOf (n : ℕ) (db : Database) : Option WebhookUpdate :=
  processedUpdate .plain cfg db (.ofNat (100 + n))

/-- Whether a binding is made, and whether a delivery is processed. -/
def binds (b : PullRequestBinding) (db : Database) : Bool :=
  (checkBinding .plain cfg b).isOk && (bindTransaction .plain cfg db b).isOk

def processes (n : ℕ) (db : Database) : Bool :=
  (processDelivery .plain cfg db (.ofNat (100 + n)) (seconds 100) (.ofNat (300 + n))
    (.ofNat (400 + n))).isOk

variable {condition : List Activity → Database → Activity → Prop} {activities : List Activity}
  {db : Database}

theorem taskRun_bind {b : PullRequestBinding} (asOf : ℕ)
    (hrun : TaskRun .plain cfg task.id condition activities db) (hb : b.taskId = task.id)
    (hcondition : condition activities db (.bound (checked b) asOf)) (h : binds b db = true) :
    TaskRun .plain cfg task.id condition (activities ++ [.bound (checked b) asOf]) (bind b db) := by
  obtain ⟨hcheck, hbind⟩ := Bool.and_eq_true_iff.mp h
  have hchecked : checkBinding .plain cfg b = .ok (checked b) := eq_ok_resultOr hcheck
  exact hrun.bind hchecked ((checkBinding_ok hchecked).2.trans hb) hcondition
    (eq_ok_resultOr hbind)

theorem taskRun_process {n : ℕ} {u : WebhookUpdate}
    (hrun : TaskRun .plain cfg task.id condition activities db) (hupdate : updateOf n db = some u)
    (hcondition : condition activities db (.processed u)) (h : processes n db = true) :
    TaskRun .plain cfg task.id condition (activities ++ [.processed u]) (process n db) :=
  hrun.process hupdate hcondition (eq_ok_resultOr h)

/-- A push after the binding, and a force-push back to the bound head. -/
def pushed : Received := synchronize 1 (sha 'b') 20
def reverted : Received := synchronize 2 (sha 'a') 30

def world₀ : Database := start [pushed, reverted]
def world₁ : Database := bind (binding (sha 'a') 300) world₀
def world₂ : Database := process 1 world₁
def world₃ : Database := process 2 world₂

set_option maxRecDepth 4000 in
theorem run_checked :
    binds (binding (sha 'a') 300) world₀ = true ∧
    (updateOf 1 world₁).isSome = true ∧ processes 1 world₁ = true ∧
    (updateOf 2 world₂).isSome = true ∧ processes 2 world₂ = true ∧
    effectiveTaskHead world₃ task.id = some (sha 'b') := by decide +kernel

theorem isSome_pushed : (updateOf 1 world₁).isSome = true := run_checked.2.1
theorem isSome_reverted : (updateOf 2 world₂).isSome = true := run_checked.2.2.2.1

def pushedUpdate : WebhookUpdate := (updateOf 1 world₁).get isSome_pushed
def revertedUpdate : WebhookUpdate := (updateOf 2 world₂).get isSome_reverted

def boundActivity : Activity := .bound (checked (binding (sha 'a') 300)) (seconds 10)

theorem taskRun₁ (hcondition : condition [] world₀ boundActivity) :
    TaskRun .plain cfg task.id condition [boundActivity] world₁ :=
  taskRun_bind (seconds 10) (.start rfl) rfl hcondition run_checked.1

theorem taskRun₂ (hbound : condition [] world₀ boundActivity)
    (hpushed : condition [boundActivity] world₁ (.processed pushedUpdate)) :
    TaskRun .plain cfg task.id condition [boundActivity, .processed pushedUpdate] world₂ :=
  taskRun_process (taskRun₁ hbound) (Option.some_get _).symm hpushed run_checked.2.2.1

theorem taskRun₃ : TaskRun .plain cfg task.id (fun _ _ _ => True)
    [boundActivity, .processed pushedUpdate, .processed revertedUpdate] world₃ :=
  taskRun_process (taskRun₂ trivial trivial) (Option.some_get _).symm trivial
    run_checked.2.2.2.2.1

set_option maxRecDepth 4000 in
theorem updates_checked :
    (bindingCandidates world₁ pushedUpdate false).length = 1 ∧
    (∀ t ∈ bindingCandidates world₁ pushedUpdate false,
      t.id = task.id ∧ t.state.isTerminal = false) ∧
    pushedUpdate.headSha ≠ (checked (binding (sha 'a') 300)).headSha ∧
    seconds 10 ≤ sourceRank pushedUpdate ∧
    (∀ v ∈ synchronized (checked (binding (sha 'a') 300)) (seconds 10) [boundActivity],
      sourceRank v < sourceRank pushedUpdate) ∧
    expectedHead [boundActivity, .processed pushedUpdate, .processed revertedUpdate] =
      some (sha 'a') := by decide +kernel

theorem followedBy_pushed : FollowedBy world₁ task.id pushedUpdate := by
  obtain ⟨hone, hlive, -⟩ := updates_checked
  obtain ⟨t, ht⟩ := List.length_eq_one_iff.mp hone
  exact ⟨t, ht, hlive t (ht ▸ List.mem_singleton_self t)⟩

theorem headCondition_bound : HeadCondition .plain cfg task.id [] world₀ boundActivity := by
  have hnone : latestBinding world₀ task.id = none := rfl
  refine ⟨?_, ?_⟩
  · intro u hu
    cases hu
  · rw [hnone]
    simp

theorem headCondition_pushed :
    HeadCondition .plain cfg task.id [boundActivity] world₁ (.processed pushedUpdate) := by
  rintro b asOf hbound -
  have hbinding : (b, asOf) = (checked (binding (sha 'a') 300), seconds 10) :=
    (Option.some.inj hbound).symm
  obtain ⟨rfl, rfl⟩ := Prod.ext_iff.mp hbinding
  obtain ⟨-, -, hother, hasOf, hnewest, -⟩ := updates_checked
  exact ⟨fun _ => .inr ⟨hother, followedBy_pushed⟩, fun hold => absurd ⟨hasOf, hnewest⟩ hold⟩

end GitHubExample

open GitHubExample in
/-- The head after a push. -/
theorem effectiveTaskHead_of_push :
    effectiveTaskHead world₂ task.id =
      expectedHead [boundActivity, .processed pushedUpdate] :=
  (effectiveTaskHead_of_run (taskRun₂ headCondition_bound headCondition_pushed)).1

open GitHubExample in
/-- A force-push back to the bound head is not seen. -/
theorem effectiveTaskHead_of_revert :
    TaskRun .plain cfg task.id (fun _ _ _ => True)
        [boundActivity, .processed pushedUpdate, .processed revertedUpdate] world₃ ∧
      effectiveTaskHead world₃ task.id = some (sha 'b') ∧
      expectedHead [boundActivity, .processed pushedUpdate, .processed revertedUpdate] =
        some (sha 'a') :=
  ⟨taskRun₃, run_checked.2.2.2.2.2, updates_checked.2.2.2.2.2⟩

end ControlPlane
