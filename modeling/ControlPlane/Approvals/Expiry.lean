import ControlPlane.Approvals.Settled
import ControlPlane.Lib.Pages

/-!
# Sweeps of expired approval requests

A sweep reads the requests that are due page by page behind a cursor, and asks for the expiry
of each. A refused request is passed over; an error that is not an approval error ends it.

## Main definitions

* `due`: the requests that are due, in the order of a sweep.
* `ApprovalService.Tries`: the calls of a sweep, one after another.

## Main results

* `expireDue_eq_foldl`: reading pages is the same as one pass over what was due at first.
* `expireDue_tries`: every due request is tried once and in order, until the limit is reached
  or an error ends the sweep.
-/
namespace ControlPlane
open Pages

/-! ### What is due -/

/-- The place of a request in a sweep. -/
def dueRank (row : UUID × Time) : ℕ ×ₗ ℕ := expiryOrder row.2 row.1

/-- The requests that are due, in the order of a sweep. -/
def due (db : Database) (now : Time) : List (UUID × Time) :=
  dueRequests db now none db.approvalRequests.rows.length

/-- Whether a request comes behind a cursor. -/
def beyond (cursor : Option (Time × UUID)) (row : UUID × Time) : Bool :=
  cursor.all fun last => expiryOrder last.1 last.2 < dueRank row

/-- A request that a sweep looks at. -/
def expirable (request : ApprovalRequest) : Bool :=
  request.status = .pending && request.requestFingerprint ≠ uninitializedFingerprint &&
    request.preconditionFingerprint ≠ uninitializedFingerprint

/-- What a sweep reads of a request. -/
def dueEntry (now : Time) (request : ApprovalRequest) : Option (UUID × Time) :=
  (request.expiresAt.filter (· ≤ now)).map fun expiresAt => (request.id, expiresAt)

/-- What a sweep reads, in the order of the rows. -/
def dueRows (db : Database) (now : Time) : List (UUID × Time) :=
  (db.approvalRequests.select expirable).filterMap (dueEntry now)

theorem dueEntry_eq_some {now : Time} {request : ApprovalRequest} {row : UUID × Time} :
    dueEntry now request = some row ↔
      request.id = row.1 ∧ request.expiresAt = some row.2 ∧ row.2 ≤ now := by
  obtain ⟨id, expiresAt⟩ := row
  simp only [dueEntry, Option.map_eq_some_iff, Option.filter_eq_some_iff, decide_eq_true_eq,
    Prod.mk.injEq]
  constructor
  · rintro ⟨t, ⟨ht, hle⟩, hid, rfl⟩
    exact ⟨hid, ht, hle⟩
  · rintro ⟨hid, ht, hle⟩
    exact ⟨expiresAt, ⟨ht, hle⟩, hid, rfl⟩

theorem mem_dueRows {db : Database} {now : Time} {row : UUID × Time} :
    row ∈ dueRows db now ↔ ∃ request, db.approvalRequests.get? row.1 = some request ∧
      expirable request = true ∧ request.expiresAt = some row.2 ∧ row.2 ≤ now := by
  simp only [dueRows, List.mem_filterMap, dueEntry_eq_some, Table.select, List.mem_filter]
  constructor
  · rintro ⟨request, ⟨hmem, hexpirable⟩, hid, hdue⟩
    exact ⟨request, Table.get?_eq_some.mpr ⟨hmem, hid⟩, hexpirable, hdue⟩
  · rintro ⟨request, hget, hexpirable, hdue⟩
    exact ⟨request, ⟨Table.mem_of_get? hget, hexpirable⟩, Table.key_of_get? hget, hdue⟩

theorem dueRank_injective : Function.Injective dueRank := by
  rintro ⟨⟨bits⟩, t⟩ ⟨⟨bits'⟩, t'⟩ h
  have hpair : (t, bits.toNat) = (t', bits'.toNat) := toLex.injective h
  rw [Prod.mk.injEq] at hpair
  rw [BitVec.eq_of_toNat_eq hpair.2, hpair.1]

theorem nodup_dueRows (db : Database) (now : Time) : ((dueRows db now).map dueRank).Nodup := by
  have hrows : (db.approvalRequests.select expirable).Pairwise fun a b => a.id ≠ b.id :=
    (List.pairwise_map.mp db.approvalRequests.nodup).filter _
  refine List.Nodup.map dueRank_injective (List.pairwise_filterMap.mpr (hrows.imp ?_))
  intro a b hne row hrow row' hrow' heq
  exact hne ((dueEntry_eq_some.mp hrow).1.trans (heq ▸ (dueEntry_eq_some.mp hrow').1.symm))

theorem dueRequests_eq (db : Database) (now : Time) (cursor : Option (Time × UUID)) (limit : ℕ) :
    dueRequests db now cursor limit =
      ((orderBy dueRank (dueRows db now)).filter (beyond cursor)).take limit := by
  rw [← orderBy_filter (nodup_dueRows db now)]
  rfl

theorem due_eq (db : Database) (now : Time) :
    due db now = orderBy dueRank (dueRows db now) := by
  have hlength : (orderBy dueRank (dueRows db now)).length ≤ db.approvalRequests.rows.length := by
    rw [(perm_orderBy _).length_eq]
    exact (List.length_filterMap_le _ _).trans (List.length_filter_le _ _)
  have hall : (orderBy dueRank (dueRows db now)).filter (beyond none) =
      orderBy dueRank (dueRows db now) := List.filter_eq_self.mpr fun _ _ => rfl
  rw [due, dueRequests_eq, hall, List.take_of_length_le hlength]

/-- The requests that are due come in the order of a sweep, each once. -/
theorem listing_due (db : Database) (now : Time) : Listing dueRank (due db now) := by
  rw [due_eq]
  exact listing_orderBy (nodup_dueRows db now)

theorem mem_due {db : Database} {now : Time} {row : UUID × Time} :
    row ∈ due db now ↔ ∃ request, db.approvalRequests.get? row.1 = some request ∧
      expirable request = true ∧ request.expiresAt = some row.2 ∧ row.2 ≤ now := by
  rw [due_eq, mem_orderBy, mem_dueRows]

/-! ### What a call leaves due -/

section Step
variable {svc : ApprovalService} {rt : Runtime} {c : ExpiryCommand} {db db' : Database}
  {now : Time} {row : UUID × Time}

/-- Of the requests that are due, a decision changes the one it is about. -/
theorem mem_due_decide {d : DecisionCommand} {result : ApprovalDecisionResult}
    (hrow : row ∈ due db now) (hid : d.requestId = row.1)
    (h : svc.decide rt db d = .ok (result, db')) {other : UUID × Time} (hne : other ≠ row) :
    other ∈ due db' now ↔ other ∈ due db now := by
  obtain ⟨request, hget, -, hexpires, -⟩ := mem_due.mp hrow
  obtain ⟨a, ⟨hpending, hrecord⟩ | ⟨-, rfl, -⟩⟩ := decide_ok h
  · obtain ⟨r⟩ := recordDecision_ok hrecord
    by_cases hsame : other.1 = row.1
    · -- The request itself: it was due once, and it is decided afterwards.
      rw [mem_due, mem_due, hsame]
      constructor
      · rintro ⟨request', hget', hexpirable, -⟩
        rw [← hid, r.request_after, Option.some.injEq] at hget'
        subst hget'
        simp only [expirable, Bool.and_eq_true, decide_eq_true_eq] at hexpirable
        exact absurd hexpirable.1.1 r.checked_ok.1
      · rintro ⟨request', hget', -, hexpires', -⟩
        rw [hget, Option.some.injEq] at hget'
        rw [← hget', hexpires, Option.some.injEq] at hexpires'
        exact absurd (Prod.ext hsame hexpires'.symm) hne
    · rw [mem_due, mem_due, r.other_requests (hid ▸ Ne.symm hsame)]
  · rfl

/-- What is due behind a cursor. -/
def remaining (db : Database) (now : Time) (cursor : Option (Time × UUID)) : List (UUID × Time) :=
  (due db now).filter (beyond cursor)

theorem remaining_none (db : Database) (now : Time) : remaining db now none = due db now :=
  List.filter_eq_self.mpr fun _ _ => rfl

theorem dueRequests_eq_remaining (db : Database) (now : Time) (cursor : Option (Time × UUID))
    (limit : ℕ) : dueRequests db now cursor limit = (remaining db now cursor).take limit := by
  rw [dueRequests_eq, remaining, due_eq]

/-- Behind the first request that is left come the others. -/
theorem remaining_of_cons {cursor : Option (Time × UUID)} {rest : List (UUID × Time)}
    (h : remaining db now cursor = row :: rest) :
    remaining db now (some (row.2, row.1)) = rest := by
  have hlisting : Listing dueRank ([row] ++ rest) := by
    have hfilter : Listing dueRank (remaining db now cursor) := (listing_due db now).filter _
    rwa [h] at hfilter
  have hbeyond : beyond cursor row = true :=
    (List.mem_filter.mp (h ▸ List.mem_cons_self : row ∈ remaining db now cursor)).2
  have hafter : ∀ other, beyond (some (row.2, row.1)) other = true →
      beyond cursor other = true := by
    intro other hother
    cases cursor with
    | none => rfl
    | some last =>
      simp only [beyond, Option.all_some, decide_eq_true_eq] at hbeyond hother ⊢
      exact lt_trans hbeyond hother
  calc remaining db now (some (row.2, row.1))
      = (remaining db now cursor).filter (beyond (some (row.2, row.1))) := by
        rw [remaining, remaining, List.filter_filter]
        refine List.filter_congr fun other _ => ?_
        cases hother : beyond (some (row.2, row.1)) other with
        | false => rfl
        | true => simp [hafter other hother]
    _ = ([row] ++ rest).filter (dueRank row < dueRank ·) := by
        rw [h]
        rfl
    _ = rest := hlisting.filter_lt rfl

/-- A decision on a request leaves what is due behind it. -/
theorem remaining_decide {d : DecisionCommand} {result : ApprovalDecisionResult}
    (hrow : row ∈ due db now) (hid : d.requestId = row.1)
    (h : svc.decide rt db d = .ok (result, db')) :
    remaining db' now (some (row.2, row.1)) = remaining db now (some (row.2, row.1)) := by
  have hlisting : ∀ db, Listing dueRank (remaining db now (some (row.2, row.1))) := fun db =>
    (listing_due db now).filter _
  have hnodup : ∀ db, (remaining db now (some (row.2, row.1))).Nodup := fun db =>
    (hlisting db).imp fun hlt heq => absurd (heq ▸ hlt) (lt_irrefl _)
  refine (hlisting db').eq_of_perm (hlisting db)
    ((List.perm_ext_iff_of_nodup (hnodup db') (hnodup db)).mpr fun other => ?_)
  simp only [remaining, List.mem_filter]
  refine and_congr_left fun hbeyond => mem_due_decide hrow hid h ?_
  rintro rfl
  simp only [beyond, Option.all_some, decide_eq_true_eq] at hbeyond
  exact lt_irrefl _ hbeyond

/-! ### Pages -/

theorem expireRow_of_done {sweep : ExpirySweep}
    (h : sweep.raised.isSome ∨ sweep.results.length = c.limit) :
    svc.expireRow rt c sweep row = sweep := if_pos h

theorem expireRow_of_internal {sweep : ExpirySweep} {message : String}
    (hopen : sweep.raised = none) (hroom : sweep.results.length ≠ c.limit)
    (h : svc.decide rt sweep.db (svc.expiry rt c sweep.calls row.1 row.2) =
      .error (.internal message)) :
    svc.expireRow rt c sweep row = { sweep with raised := some (.internal message) } := by
  have hgoes : ¬ (sweep.raised.isSome ∨ sweep.results.length = c.limit) := by
    simp [hopen, hroom]
  rw [ApprovalService.expireRow, if_neg hgoes, h]

theorem foldl_expireRow_of_done {sweep : ExpirySweep}
    (h : sweep.raised.isSome ∨ sweep.results.length = c.limit) (rows : List (UUID × Time)) :
    rows.foldl (svc.expireRow rt c) sweep = sweep := by
  induction rows with
  | nil => rfl
  | cons row rows ih => rw [List.foldl_cons, expireRow_of_done h, ih]

/-- One request more behind the cursor, whatever became of it. -/
theorem remaining_expireRow {sweep : ExpirySweep} {cursor : Option (Time × UUID)}
    {rest : List (UUID × Time)} (h : remaining sweep.db now cursor = row :: rest) :
    remaining (svc.expireRow rt c sweep row).db now (some (row.2, row.1)) = rest := by
  have hrest := remaining_of_cons h
  have hrow : row ∈ due sweep.db now :=
    (List.mem_filter.mp (h ▸ List.mem_cons_self : row ∈ remaining sweep.db now cursor)).1
  unfold ApprovalService.expireRow
  split
  · exact hrest
  · split
    · rename_i haccepted
      exact (remaining_decide hrow rfl haccepted).trans hrest
    · exact hrest
    · exact hrest

theorem remaining_expireRows {sweep : ExpirySweep} {cursor : Option (Time × UUID)}
    {page rest : List (UUID × Time)} {last : UUID × Time}
    (h : remaining sweep.db now cursor = page ++ rest) (hlast : page.getLast? = some last) :
    remaining (page.foldl (svc.expireRow rt c) sweep).db now (some (last.2, last.1)) = rest := by
  induction page generalizing sweep cursor with
  | nil => cases hlast
  | cons row page ih =>
    have hnext : remaining (svc.expireRow rt c sweep row).db now (some (row.2, row.1)) =
        page ++ rest := remaining_expireRow h
    cases page with
    | nil =>
      obtain rfl : row = last := Option.some.inj hlast
      exact hnext
    | cons row' page => exact ih hnext hlast

theorem length_results_expireRow {sweep : ExpirySweep} (h : sweep.results.length ≤ c.limit) :
    (svc.expireRow rt c sweep row).results.length ≤ c.limit := by
  unfold ApprovalService.expireRow
  split
  · exact h
  · rename_i hopen
    split
    · rw [List.length_append, List.length_singleton]
      exact Nat.lt_of_le_of_ne h fun heq => hopen (.inr heq)
    · exact h
    · exact h

theorem length_results_expireRows {sweep : ExpirySweep} (h : sweep.results.length ≤ c.limit)
    (rows : List (UUID × Time)) :
    (rows.foldl (svc.expireRow rt c) sweep).results.length ≤ c.limit := by
  induction rows generalizing sweep with
  | nil => exact h
  | cons row rows ih => exact ih (length_results_expireRow h)

/-- Pages read behind a cursor that moves are one pass over what is left. -/
theorem expirePages_eq {pages : ℕ} {sweep : ExpirySweep} {cursor : Option (Time × UUID)}
    (hlimit : 1 ≤ c.limit) (hresults : sweep.results.length ≤ c.limit)
    (hpages : (remaining sweep.db (c.clock 0) cursor).length < pages) :
    svc.expirePages rt c pages cursor sweep =
      (remaining sweep.db (c.clock 0) cursor).foldl (svc.expireRow rt c) sweep := by
  induction pages generalizing sweep cursor with
  | zero => cases hpages
  | succ pages ih =>
    unfold ApprovalService.expirePages
    split
    · rename_i hdone
      exact (foldl_expireRow_of_done (hdone.imp_right (hresults.antisymm ·)) _).symm
    · dsimp only
      rw [dueRequests_eq_remaining]
      generalize hremaining : remaining sweep.db (c.clock 0) cursor = rest at hpages
      cases hlast : (rest.take c.limit).getLast? with
      | none =>
        rw [List.getLast?_eq_none_iff, List.take_eq_nil_iff] at hlast
        rw [hlast.resolve_left (by omega)]
        rfl
      | some last =>
        have hsplit : remaining sweep.db (c.clock 0) cursor =
            rest.take c.limit ++ rest.drop c.limit := by
          rw [hremaining, List.take_append_drop]
        have hnext : remaining ((rest.take c.limit).foldl (svc.expireRow rt c) sweep).db
            (c.clock 0) (some (last.2, last.1)) = rest.drop c.limit :=
          remaining_expireRows hsplit hlast
        have hne : rest ≠ [] := by
          rintro rfl
          simp at hlast
        have hlength := List.length_pos_of_ne_nil hne
        have hfewer : (remaining ((rest.take c.limit).foldl (svc.expireRow rt c) sweep).db
            (c.clock 0) (some (last.2, last.1))).length < pages := by
          rw [hnext, List.length_drop]
          omega
        dsimp only
        rw [ih (length_results_expireRows hresults _) hfewer, hnext, ← List.foldl_append,
          List.take_append_drop]

theorem length_due_le (db : Database) (now : Time) :
    (due db now).length ≤ db.approvalRequests.rows.length := by
  rw [due, dueRequests]
  exact List.length_take_le _ _

/-- Enough pages are one pass over what was due at first. -/
theorem expirePages_eq_foldl {pages : ℕ} (hlimit : 1 ≤ c.limit)
    (hpages : db.approvalRequests.rows.length < pages) :
    svc.expirePages rt c pages none { db } =
      (due db (c.clock 0)).foldl (svc.expireRow rt c) { db } := by
  have hremaining : remaining db (c.clock 0) none = due db (c.clock 0) := remaining_none db _
  rw [expirePages_eq hlimit (Nat.zero_le _), hremaining]
  rw [hremaining]
  exact (length_due_le db _).trans_lt hpages

theorem expireDue_eq_foldl (hlimit : 1 ≤ c.limit ∧ c.limit ≤ 1000) :
    svc.expireDue rt db c =
      .ok ((due db (c.clock 0)).foldl (svc.expireRow rt c) { db }) := by
  rw [ApprovalService.expireDue, Except.require_of hlimit, Except.ok_bind,
    expirePages_eq_foldl hlimit.1 (Nat.lt_succ_self _)]
  rfl

/-! ### The calls of a sweep -/

/-- Calls on some requests, one after another: an expired request counts, a refused one is
passed over with the store as it was, and an error of another kind ends the sweep. -/
inductive ApprovalService.Tries (svc : ApprovalService) (rt : Runtime) (c : ExpiryCommand) :
    ExpirySweep → List (UUID × Time) → ExpirySweep → Prop
  | nil (sweep : ExpirySweep) : svc.Tries rt c sweep [] sweep
  | expired {sweep sweep' : ExpirySweep} {row : UUID × Time} {rows : List (UUID × Time)}
      {result : ApprovalDecisionResult} {db : Database}
      (h : svc.decide rt sweep.db (svc.expiry rt c sweep.calls row.1 row.2) = .ok (result, db))
      (htail : svc.Tries rt c
        { sweep with results := sweep.results ++ [result], calls := sweep.calls + 1, db } rows
        sweep') :
      svc.Tries rt c sweep (row :: rows) sweep'
  | refused {sweep sweep' : ExpirySweep} {row : UUID × Time} {rows : List (UUID × Time)}
      {error : ApprovalError}
      (h : svc.decide rt sweep.db (svc.expiry rt c sweep.calls row.1 row.2) = .error error)
      (hkind : ∀ message, error ≠ .internal message)
      (htail : svc.Tries rt c { sweep with calls := sweep.calls + 1 } rows sweep') :
      svc.Tries rt c sweep (row :: rows) sweep'
  | raised {sweep : ExpirySweep} {row : UUID × Time} {message : String}
      (h : svc.decide rt sweep.db (svc.expiry rt c sweep.calls row.1 row.2) =
        .error (.internal message)) :
      svc.Tries rt c sweep [row] { sweep with raised := some (.internal message) }

/-- A pass over some requests tries the first ones of them. -/
theorem ApprovalService.exists_tries (svc : ApprovalService) (rt : Runtime) (c : ExpiryCommand)
    (sweep : ExpirySweep) (hopen : sweep.raised = none) (rows : List (UUID × Time)) :
    ∃ tried untried, rows = tried ++ untried ∧
      svc.Tries rt c sweep tried (rows.foldl (svc.expireRow rt c) sweep) ∧
      (untried = [] ∨ (rows.foldl (svc.expireRow rt c) sweep).results.length = c.limit ∨
        ∃ error, (rows.foldl (svc.expireRow rt c) sweep).raised = some error) := by
  induction rows generalizing sweep with
  | nil => exact ⟨[], [], rfl, .nil sweep, .inl rfl⟩
  | cons row rows ih =>
    by_cases hfull : sweep.results.length = c.limit
    · rw [foldl_expireRow_of_done (.inr hfull)]
      exact ⟨[], row :: rows, rfl, .nil sweep, .inr (.inl hfull)⟩
    · have hgoes : ¬ (sweep.raised.isSome ∨ sweep.results.length = c.limit) := by
        simp [hopen, hfull]
      rw [List.foldl_cons, ApprovalService.expireRow, if_neg hgoes]
      cases hcall : svc.decide rt sweep.db (svc.expiry rt c sweep.calls row.1 row.2) with
      | ok outcome =>
        obtain ⟨result, db⟩ := outcome
        obtain ⟨tried, untried, rfl, htries, hend⟩ := ih
          { sweep with results := sweep.results ++ [result], calls := sweep.calls + 1, db } hopen
        exact ⟨row :: tried, untried, rfl, .expired hcall htries, hend⟩
      | error error =>
        cases error with
        | internal message =>
          dsimp only
          rw [foldl_expireRow_of_done (.inl rfl)]
          exact ⟨[row], rows, rfl, .raised hcall, .inr (.inr ⟨_, rfl⟩)⟩
        | invalid | notFound | conflict | precondition | recentPasswordRequired =>
          obtain ⟨tried, untried, rfl, htries, hend⟩ :=
            ih { sweep with calls := sweep.calls + 1 } hopen
          exact ⟨row :: tried, untried, rfl, .refused hcall nofun htries, hend⟩

end Step

/-! ### A request that cannot be read -/

namespace ExpiryExample
open ApprovalExample (service store)

/-- A request whose blocked operation names its checkpoint by a number. -/
def unreadable : ApprovalRequest :=
  { ApprovalExample.request with
    requestFingerprint := "f"
    preconditionFingerprint := "f"
    blockedOperation := some (.obj
      [("checkpoint_evidence_id", .int 1), ("idempotency_key", .str "k"),
        ("input_fingerprint", .str "f"), ("operation_name", .str "o")]) }

def later : ApprovalRequest := { unreadable with id := .ofNat 48, blockedOperation := none }

theorem requestRows : ([unreadable, later].map key).Nodup := by decide

def both : Database := { store with approvalRequests := ⟨[unreadable, later], requestRows⟩ }

def sweep : ExpiryCommand where
  clock := fun _ => 200
  transitionEventId := fun id => .ofNat (100 + id.bits.toNat)
  eventId := fun id => .ofNat (200 + id.bits.toNat)

theorem due_both : due both 200 = [(unreadable.id, 100), (later.id, 100)] := by decide +kernel

/-- The error of a call. -/
def refusal {α : Type} : Except ApprovalError α → Option ApprovalError
  | .error error => some error
  | .ok _ => none

theorem eq_error_of_refusal {α : Type} {call : Except ApprovalError α} {error : ApprovalError}
    (h : refusal call = some error) : call = .error error := by
  cases call with
  | ok a => cases h
  | error e => exact congrArg _ (Option.some.inj h)

set_option maxRecDepth 4000 in
theorem refusal_unreadable :
    refusal (service.decide .plain both (service.expiry .plain sweep 0 unreadable.id 100)) =
      some (.internal "checkpoint is not a text") := by
  decide +kernel

theorem decide_unreadable :
    service.decide .plain both (service.expiry .plain sweep 0 unreadable.id 100) =
      .error (.internal "checkpoint is not a text") :=
  eq_error_of_refusal refusal_unreadable

/-- The sweep after the first request. -/
def ended : ExpirySweep := { db := both, raised := some (.internal "checkpoint is not a text") }

theorem expireRow_unreadable :
    service.expireRow .plain sweep { db := both } (unreadable.id, 100) = ended :=
  expireRow_of_internal rfl (by decide) decide_unreadable

end ExpiryExample

end ControlPlane
