import ControlPlane.Evidence.Ledger
import ControlPlane.Lib.Backlog

/-!
# Deletion of evidence

A deletion request fences a record; its finalisation destroys the derivatives that come from
the record or cite it, the candidates and chunks built on it and, when nothing else refers
to them, its bytes, and leaves a tombstone. Requests without a tombstone are resumed in
batches, each request in a transaction of its own; a request that raises ends its batch.

What the file system and the database refuse is a parameter. Bytes are deleted inside the
transaction and stay deleted when it is rolled back.

## Main definitions

* `finalizeDeletion`, `resumePendingDeletions`

## Main results

* `pending_resumePendingDeletions`: a call is one batch of a backlog.
* `resumes_iff`: repeated calls finalise whatever can be finalised exactly when no request
  that raises was made before one that does not, or at the same time.
-/
namespace ControlPlane.Deletion

/-! ### Rows -/

deriving instance DecidableEq for EvidenceDeletionRequest

/-- Registered rebuildable content derived from source evidence. -/
structure EvidenceDerivative where
  id : UUID
  evidenceId : UUID
  contentAddress : Option String
  deletedAt : Option Time := none

instance : Keyed EvidenceDerivative UUID := ⟨EvidenceDerivative.id⟩

/-- Source lineage of a derivative with several sources. -/
structure EvidenceDerivativeCitation where
  derivativeId : UUID
  evidenceId : UUID

structure RuleCandidateCitation where
  candidateId : UUID
  evidenceId : UUID

structure RetrievalIndexChunk where
  evidenceId : UUID
  lexicalTermFrequencies : List (String × ℕ)
  deletedAt : Option Time := none

/-- Completion marker retained after evidence content is destroyed. -/
structure EvidenceTombstone where
  evidenceId : UUID
  deletionRequestId : UUID
  reasonCode : String
  deletedAt : Time
  removedDerivativeCount : ℕ

instance : Keyed EvidenceTombstone UUID := ⟨EvidenceTombstone.deletionRequestId⟩

/-- The store, with the rows that only deletions read and write. -/
structure EvidenceStore extends Database where
  requestedAt : UUID → Time := fun _ => 0
  reasonCode : UUID → String := fun _ => "USER_REQUEST"
  tombstones : Table EvidenceTombstone := .empty
  derivatives : Table EvidenceDerivative := .empty
  derivativeCitations : List EvidenceDerivativeCitation := []
  candidateCitations : List RuleCandidateCitation := []
  chunks : List RetrievalIndexChunk := []

/-- The database and the addresses of the stored bytes. -/
structure World where
  store : EvidenceStore
  files : List String := []

/-- What fails outside the program: the addresses whose deletion raises, and the requests
whose transaction does for any other reason. -/
structure Faults where
  redirected : String → Bool
  transaction : UUID → Bool

inductive DeletionError where
  | notFound (message : String)
  | path (message : String)
  | storage
  | invalid (message : String)
  deriving DecidableEq

/-! ### What a finalisation destroys -/

/-- A derivative is live and comes from the record or cites it. -/
def EvidenceStore.derives (store : EvidenceStore) (evidenceId : UUID) (d : EvidenceDerivative) :
    Bool :=
  d.deletedAt.isNone && (d.evidenceId = evidenceId || store.derivativeCitations.any fun c =>
    c.derivativeId = d.id && c.evidenceId = evidenceId)

/-- The derivatives to destroy, each once, those that come from the record first. -/
def derivativesOf (store : EvidenceStore) (evidenceId : UUID) : List EvidenceDerivative :=
  (store.derivatives.select fun d => store.derives evidenceId d && d.evidenceId = evidenceId) ++
    store.derivatives.select fun d => store.derives evidenceId d && d.evidenceId ≠ evidenceId

/-- Another record that is not fenced has the same bytes. -/
def anotherLiveReference (store : EvidenceStore) (record : EvidenceRecord) : Bool :=
  store.evidenceRecords.rows.any fun other =>
    other.id ≠ record.id && other.contentHash = record.contentHash &&
      !deletionRequested store.toDatabase other.id

/-- The addresses whose bytes a finalisation deletes, in its order. -/
def destroyedAddresses (store : EvidenceStore) (record : EvidenceRecord) : List String :=
  (derivativesOf store record.id).filterMap EvidenceDerivative.contentAddress ++
    if anotherLiveReference store record then [] else [record.contentHash]

/-- Delete bytes one after the other; the first address that is refused ends it. -/
def deleteBytes (redirected : String → Bool) :
    List String → List String → Option DeletionError × List String
  | [], files => (none, files)
  | address :: rest, files =>
    if redirected address then
      (some (.path s!"artifact path is redirected: {address}"), files)
    else deleteBytes redirected rest (files.filter (· ≠ address))

def EvidenceDerivative.destroy (now : Time) (d : EvidenceDerivative) : EvidenceDerivative :=
  { d with contentAddress := none, deletedAt := some now }

/-- The derivatives with those of a record destroyed. -/
def destroyDerivatives (store : EvidenceStore) (evidenceId : UUID) (now : Time) :
    Table EvidenceDerivative where
  rows := store.derivatives.rows.map fun d =>
    if store.derives evidenceId d then d.destroy now else d
  nodup := by
    have hkey : (store.derivatives.rows.map fun d =>
        if store.derives evidenceId d then d.destroy now else d).map key =
          store.derivatives.rows.map key := by
      rw [List.map_map]
      refine List.map_congr_left fun d _ => ?_
      rw [Function.comp_apply]
      split <;> rfl
    rw [hkey]
    exact store.derivatives.nodup

/-- A candidate that cites the record goes with it unless it was approved. -/
def removable (store : EvidenceStore) (evidenceId : UUID) (candidate : RuleCandidate) : Bool :=
  candidate.status ≠ .approved && store.candidateCitations.any fun c =>
    c.candidateId = candidate.id && c.evidenceId = evidenceId

def removeCandidates (store : EvidenceStore) (evidenceId : UUID) : Table RuleCandidate where
  rows := store.ruleCandidates.rows.filter fun candidate => !removable store evidenceId candidate
  nodup := store.ruleCandidates.nodup.sublist (List.filter_sublist.map _)

/-- Clear what the index keeps of the record. -/
def clearChunk (evidenceId : UUID) (now : Time) (c : RetrievalIndexChunk) : RetrievalIndexChunk :=
  if c.evidenceId = evidenceId ∧ c.deletedAt.isNone = true then
    { c with lexicalTermFrequencies := [], deletedAt := some now }
  else c

/-- A task whose request is deleted says so. -/
def scrubTask (store : EvidenceStore) (record : EvidenceRecord) : Table Task :=
  if record.evidenceType ≠ "task-request" then store.tasks
  else match record.taskId.bind store.tasks.get? with
    | none => store.tasks
    | some task =>
      if task.rawRequest = s!"evidence://{record.id.str}" then
        store.tasks.set { task with
          rawRequest := s!"deleted-evidence://{record.id.str}"
          summary := "Deleted task request" }
      else store.tasks

/-- The store a finalisation leaves. -/
def destroyed (store : EvidenceStore) (record : EvidenceRecord) (now : Time)
    (tombstones : Table EvidenceTombstone) : EvidenceStore :=
  { store with
    tombstones
    derivatives := destroyDerivatives store record.id now
    ruleCandidates := removeCandidates store record.id
    candidateCitations := store.candidateCitations.filter fun c =>
      !(store.ruleCandidates.rows.any fun candidate =>
        candidate.id = c.candidateId && removable store record.id candidate)
    chunks := store.chunks.map (clearChunk record.id now)
    tasks := scrubTask store record }

def tombstoneOf (store : EvidenceStore) (request : EvidenceDeletionRequest)
    (record : EvidenceRecord) (now : Time) : EvidenceTombstone where
  evidenceId := record.id
  deletionRequestId := request.id
  reasonCode := store.reasonCode request.id
  deletedAt := now
  removedDerivativeCount := (derivativesOf store record.id).length

/-! ### Finalisation -/

/-- Destroy what a request is about; what raises rolls the rows back, not the bytes. -/
def finalizeDeletion (faults : Faults) (w : World) (requestId : UUID) (now : Time) :
    Except DeletionError EvidenceTombstone × World :=
  match w.store.evidenceDeletionRequests.get? requestId with
  | none => (.error (.notFound "evidence deletion request is unavailable"), w)
  | some request =>
    match w.store.tombstones.get? request.id with
    | some existing => (.ok existing, w)
    | none =>
      match w.store.evidenceRecords.get? request.evidenceId with
      | none => (.error (.notFound "evidence is unavailable"), w)
      | some record =>
        match deleteBytes faults.redirected (destroyedAddresses w.store record) w.files with
        | (some error, files) => (.error error, { w with files })
        | (none, files) =>
          let tombstone := tombstoneOf w.store request record now
          match w.store.tombstones.insert? tombstone with
          | none => (.error .storage, { w with files })
          | some tombstones =>
            if faults.transaction request.id then (.error .storage, { w with files })
            else (.ok tombstone, { store := destroyed w.store record now tombstones, files })

/-- The requests without a tombstone. -/
def pendingDeletions (store : EvidenceStore) : List EvidenceDeletionRequest :=
  store.evidenceDeletionRequests.select fun request => (store.tombstones.get? request.id).isNone

/-- Finalise requests one after the other; the first that raises ends it. -/
def finalizeEach (faults : Faults) (clock : ℕ → Time) :
    ℕ → List EvidenceDeletionRequest → World → Except DeletionError ℕ × World
  | completed, [], w => (.ok completed, w)
  | completed, request :: rest, w =>
    match finalizeDeletion faults w request.id (clock completed) with
    | (.error error, w) => (.error error, w)
    | (.ok _, w) => finalizeEach faults clock (completed + 1) rest w

/-- One bounded batch; `order` is how the database orders rows by the time of the request. -/
def resumePendingDeletions (faults : Faults) (limit : ℕ)
    (order : List EvidenceDeletionRequest → List EvidenceDeletionRequest) (clock : ℕ → Time)
    (w : World) : Except DeletionError ℕ × World :=
  if limit < 1 ∨ 1000 < limit then
    (.error (.invalid "deletion reconciliation limit is invalid"), w)
  else finalizeEach faults clock 0 ((order (pendingDeletions w.store)).take limit) w

/-! ### What raises -/

/-- The finalisation of a request raises: its record is gone, bytes it would delete are
refused, or its transaction fails. -/
def raises (faults : Faults) (store : EvidenceStore) (request : EvidenceDeletionRequest) : Bool :=
  match store.evidenceRecords.get? request.evidenceId with
  | none => true
  | some record =>
    (destroyedAddresses store record).any faults.redirected || faults.transaction request.id

section Finalisation
variable {faults : Faults} {store : EvidenceStore} {w w' : World} {now : Time}
  {request : EvidenceDeletionRequest}

theorem mem_pendingDeletions :
    request ∈ pendingDeletions store ↔
      request ∈ store.evidenceDeletionRequests ∧ store.tombstones.get? request.id = none := by
  simp [pendingDeletions, Table.select, Table.mem_def]

theorem deleteBytes_of_not_redirected {redirected : String → Bool} {addresses : List String}
    (files : List String) (h : addresses.any redirected = false) :
    (deleteBytes redirected addresses files).1 = none := by
  induction addresses generalizing files with
  | nil => rfl
  | cons address rest ih =>
    simp only [List.any_cons, Bool.or_eq_false_iff] at h
    simp only [deleteBytes, h.1, Bool.false_eq_true, if_false]
    exact ih _ h.2

theorem deleteBytes_of_redirected {redirected : String → Bool} {addresses : List String}
    (files : List String) (h : addresses.any redirected = true) :
    ∃ error, (deleteBytes redirected addresses files).1 = some error := by
  induction addresses generalizing files with
  | nil => cases h
  | cons address rest ih =>
    by_cases haddress : redirected address = true
    · simp only [deleteBytes, haddress, if_true]
      exact ⟨_, rfl⟩
    · simp only [List.any_cons, haddress, Bool.false_or] at h
      simp only [deleteBytes, haddress, Bool.false_eq_true, if_false]
      exact ih _ h

variable (now) in
/-- A pending request that raises leaves the rows as they are. -/
theorem finalizeDeletion_of_raises (hpending : request ∈ pendingDeletions w.store)
    (hraises : raises faults w.store request = true) :
    ∃ error files, finalizeDeletion faults w request.id now = (.error error, { w with files }) := by
  obtain ⟨hrequest, hnone⟩ := mem_pendingDeletions.mp hpending
  have hget : w.store.evidenceDeletionRequests.get? request.id = some request :=
    Table.get?_key hrequest
  simp only [raises] at hraises
  cases hrecord : w.store.evidenceRecords.get? request.evidenceId with
  | none =>
    simp only [finalizeDeletion, hget, hnone, hrecord]
    exact ⟨_, w.files, rfl⟩
  | some record =>
    simp only [hrecord, Bool.or_eq_true] at hraises
    cases hfiles : deleteBytes faults.redirected (destroyedAddresses w.store record) w.files with
    | mk failure files =>
      cases failure with
      | some error =>
        simp only [finalizeDeletion, hget, hnone, hrecord, hfiles]
        exact ⟨error, files, rfl⟩
      | none =>
        have htransaction : faults.transaction request.id = true := by
          refine hraises.resolve_left fun hredirected => ?_
          obtain ⟨error, herror⟩ := deleteBytes_of_redirected w.files hredirected
          rw [hfiles] at herror
          cases herror
        cases hinsert : w.store.tombstones.insert? (tombstoneOf w.store request record now) with
        | none =>
          simp only [finalizeDeletion, hget, hnone, hrecord, hfiles, hinsert]
          exact ⟨_, files, rfl⟩
        | some tombstones =>
          simp only [finalizeDeletion, hget, hnone, hrecord, hfiles, hinsert, htransaction,
            if_true]
          exact ⟨_, files, rfl⟩

variable (now) in
/-- Any other pending request is finalised. -/
theorem finalizeDeletion_of_not_raises (hpending : request ∈ pendingDeletions w.store)
    (hraises : raises faults w.store request = false) :
    ∃ record tombstones files, w.store.evidenceRecords.get? request.evidenceId = some record ∧
      (destroyedAddresses w.store record).any faults.redirected = false ∧
      w.store.tombstones.insert? (tombstoneOf w.store request record now) = some tombstones ∧
      finalizeDeletion faults w request.id now =
        (.ok (tombstoneOf w.store request record now),
          { store := destroyed w.store record now tombstones, files }) := by
  obtain ⟨hrequest, hnone⟩ := mem_pendingDeletions.mp hpending
  have hget : w.store.evidenceDeletionRequests.get? request.id = some request :=
    Table.get?_key hrequest
  simp only [raises] at hraises
  cases hrecord : w.store.evidenceRecords.get? request.evidenceId with
  | none =>
    rw [hrecord] at hraises
    cases hraises
  | some record =>
    simp only [hrecord, Bool.or_eq_false_iff] at hraises
    obtain ⟨hredirected, htransaction⟩ := hraises
    have hfiles := deleteBytes_of_not_redirected w.files hredirected
    obtain ⟨tombstones, htombstones⟩ := Table.exists_insert?
      (a := tombstoneOf w.store request record now) hnone
    refine ⟨record, tombstones, (deleteBytes faults.redirected (destroyedAddresses w.store record)
      w.files).2, rfl, hredirected, htombstones, ?_⟩
    simp only [finalizeDeletion, hget, hnone, hrecord]
    cases hresult : deleteBytes faults.redirected (destroyedAddresses w.store record) w.files with
    | mk failure files =>
      rw [hresult] at hfiles
      cases hfiles
      simp only [htombstones, htransaction, Bool.false_eq_true, if_false]

/-! ### What a finalisation keeps for the others -/

theorem mem_derivativesOf {evidenceId : UUID} {d : EvidenceDerivative} :
    d ∈ derivativesOf store evidenceId ↔
      d ∈ store.derivatives ∧ store.derives evidenceId d = true := by
  simp only [derivativesOf, Table.select, List.mem_append, List.mem_filter, Bool.and_eq_true,
    Table.mem_def, decide_eq_true_eq, ne_eq]
  tauto

theorem derives_destroyed {record : EvidenceRecord} {tombstones : Table EvidenceTombstone}
    {evidenceId : UUID} {d : EvidenceDerivative} :
    (destroyed store record now tombstones).derives evidenceId d = store.derives evidenceId d := rfl

/-- The derivatives of another record are those left; the others are destroyed already. -/
theorem mem_derivativesOf_destroyed {record : EvidenceRecord}
    {tombstones : Table EvidenceTombstone} {evidenceId : UUID} {d : EvidenceDerivative} :
    d ∈ derivativesOf (destroyed store record now tombstones) evidenceId ↔
      d ∈ derivativesOf store evidenceId ∧ d ∉ derivativesOf store record.id := by
  simp only [mem_derivativesOf, derives_destroyed]
  constructor
  · rintro ⟨hmem, hderives⟩
    obtain ⟨d', hd', rfl⟩ := List.mem_map.mp hmem
    by_cases h : store.derives record.id d' = true
    · rw [if_pos h] at hderives
      simp [EvidenceStore.derives, EvidenceDerivative.destroy] at hderives
    · rw [if_neg h] at hderives ⊢
      exact ⟨⟨hd', hderives⟩, fun hboth => h hboth.2⟩
  · rintro ⟨⟨hmem, hderives⟩, hother⟩
    refine ⟨List.mem_map.mpr ⟨d, hmem, if_neg fun h => hother ⟨hmem, h⟩⟩, hderives⟩

theorem any_destroyedAddresses {record : EvidenceRecord} {redirected : String → Bool} :
    (destroyedAddresses store record).any redirected = true ↔
      (∃ d ∈ derivativesOf store record.id, d.contentAddress.any redirected = true) ∨
        (anotherLiveReference store record = false ∧ redirected record.contentHash = true) := by
  simp only [destroyedAddresses, List.any_append, Bool.or_eq_true, List.any_filterMap,
    List.any_eq_true]
  refine or_congr ?_ ?_
  · refine exists_congr fun d => and_congr_right fun _ => ?_
    cases d.contentAddress <;> simp
  · cases anotherLiveReference store record <;> simp

/-- What a request that does not raise destroys is nothing that makes another one raise. -/
theorem raises_destroyed {record : EvidenceRecord} {tombstones : Table EvidenceTombstone}
    (other : EvidenceDeletionRequest)
    (hgood : (destroyedAddresses store record).any faults.redirected = false) :
    raises faults (destroyed store record now tombstones) other = raises faults store other := by
  have hany (record' : EvidenceRecord) :
      (destroyedAddresses (destroyed store record now tombstones) record').any faults.redirected =
        (destroyedAddresses store record').any faults.redirected := by
    rw [Bool.eq_iff_iff, any_destroyedAddresses, any_destroyedAddresses]
    refine or_congr ⟨?_, ?_⟩ Iff.rfl
    · rintro ⟨d, hd, haddress⟩
      exact ⟨d, (mem_derivativesOf_destroyed.mp hd).1, haddress⟩
    · rintro ⟨d, hd, haddress⟩
      refine ⟨d, mem_derivativesOf_destroyed.mpr ⟨hd, fun hown => ?_⟩, haddress⟩
      rw [any_destroyedAddresses.mpr (.inl ⟨d, hown, haddress⟩)] at hgood
      cases hgood
  have hrecords : (destroyed store record now tombstones).evidenceRecords =
      store.evidenceRecords := rfl
  simp only [raises, hrecords, hany]

/-- A finalisation takes its request off the pending ones. -/
theorem pendingDeletions_destroyed {record : EvidenceRecord} {tombstones : Table EvidenceTombstone}
    (hinsert : store.tombstones.insert? (tombstoneOf store request record now) =
      some tombstones) (hrequest : request ∈ store.evidenceDeletionRequests) :
    pendingDeletions (destroyed store record now tombstones) =
      (pendingDeletions store).filter (· ≠ request) := by
  simp only [pendingDeletions, Table.select, List.filter_filter]
  refine List.filter_congr fun other hother => ?_
  change (tombstones.get? other.id).isNone = _
  rw [Table.get?_insert? hinsert]
  change (if request.id = other.id then some _ else _).isNone = _
  by_cases h : request.id = other.id
  · have hsame : other = request := Table.eq_of_key_eq hother hrequest h.symm
    simp [hsame]
  · have hne : other ≠ request := fun heq => h (heq ▸ rfl)
    simp [h, hne]

end Finalisation

/-! ### Batches -/

/-- The time of a request. -/
def EvidenceStore.rank (store : EvidenceStore) (request : EvidenceDeletionRequest) : Time :=
  store.requestedAt request.id

/-- What the batches leave alone, and what a request comes to. -/
structure SameOutcomes (faults : Faults) (store store' : EvidenceStore) : Prop where
  requests : store'.evidenceDeletionRequests = store.evidenceDeletionRequests
  requestedAt : store'.requestedAt = store.requestedAt
  raises : ∀ request, raises faults store' request = raises faults store request

section Batches
variable {faults : Faults} {limit : ℕ} {w : World} {clock : ℕ → Time}

theorem SameOutcomes.refl (store : EvidenceStore) : SameOutcomes faults store store :=
  ⟨rfl, rfl, fun _ => rfl⟩

theorem SameOutcomes.trans {s s' s'' : EvidenceStore} (h : SameOutcomes faults s s')
    (h' : SameOutcomes faults s' s'') : SameOutcomes faults s s'' :=
  ⟨h'.requests.trans h.requests, h'.requestedAt.trans h.requestedAt,
    fun request => (h'.raises request).trans (h.raises request)⟩

/-- The requests of a batch before the first that raises are finalised, no other. -/
theorem finalizeEach_spec {batch : List EvidenceDeletionRequest} (completed : ℕ)
    (hbatch : ∀ request ∈ batch, request ∈ pendingDeletions w.store) (hnodup : batch.Nodup) :
    pendingDeletions (finalizeEach faults clock completed batch w).2.store =
        (pendingDeletions w.store).filter
          (· ∉ Backlog.settled (raises faults w.store) batch) ∧
      SameOutcomes faults w.store (finalizeEach faults clock completed batch w).2.store := by
  induction batch generalizing completed w with
  | nil => simp [finalizeEach, Backlog.settled, SameOutcomes.refl]
  | cons request rest ih =>
    have hpending := hbatch request List.mem_cons_self
    cases hraises : raises faults w.store request with
    | true =>
      obtain ⟨error, files, hresult⟩ := finalizeDeletion_of_raises (clock completed)
        hpending hraises
      simp [finalizeEach, hresult, Backlog.settled, hraises, SameOutcomes.refl]
    | false =>
      obtain ⟨record, tombstones, files, -, hgood, hinsert, hresult⟩ :=
        finalizeDeletion_of_not_raises (clock completed) hpending hraises
      have hnext := pendingDeletions_destroyed hinsert (mem_pendingDeletions.mp hpending).1
      have hsame : SameOutcomes faults w.store
          (destroyed w.store record (clock completed) tombstones) :=
        ⟨rfl, rfl, fun other => raises_destroyed other hgood⟩
      obtain ⟨hnotmem, hrest⟩ := List.nodup_cons.mp hnodup
      have hleft : ∀ other ∈ rest, other ∈
          pendingDeletions (destroyed w.store record (clock completed) tombstones) := by
        intro other hother
        rw [hnext, List.mem_filter]
        refine ⟨hbatch other (List.mem_cons_of_mem _ hother), decide_eq_true fun heq => ?_⟩
        exact hnotmem (heq ▸ hother)
      obtain ⟨hpendingRest, hsameRest⟩ := ih (w :=
        ⟨destroyed w.store record (clock completed) tombstones, files⟩) (completed + 1) hleft hrest
      simp only [finalizeEach, hresult]
      refine ⟨?_, hsame.trans hsameRest⟩
      have hraisesEq : raises faults (destroyed w.store record (clock completed) tombstones) =
          raises faults w.store := funext hsame.raises
      have hcons : Backlog.settled (raises faults w.store) (request :: rest) =
          request :: Backlog.settled (raises faults w.store) rest :=
        List.takeWhile_cons_of_pos (by rw [hraises]; rfl)
      rw [hpendingRest, hnext, hraisesEq, List.filter_filter, hcons]
      refine List.filter_congr fun other _ => ?_
      rw [Bool.eq_iff_iff, Bool.and_eq_true, decide_eq_true_iff, decide_eq_true_iff,
        decide_eq_true_iff, List.mem_cons, not_or]
      exact and_comm

variable (faults w clock) in
/-- **A call is one batch** of the backlog of pending requests. -/
theorem pending_resumePendingDeletions
    {order : List EvidenceDeletionRequest → List EvidenceDeletionRequest}
    (horder : ∀ l, (order l).Perm l) (hlimit : 1 ≤ limit ∧ limit ≤ 1000) :
    pendingDeletions (resumePendingDeletions faults limit order clock w).2.store =
        Backlog.drain (raises faults w.store) limit order (pendingDeletions w.store) ∧
      SameOutcomes faults w.store
        (resumePendingDeletions faults limit order clock w).2.store := by
  have hvalid : ¬ (limit < 1 ∨ 1000 < limit) := by omega
  have hperm := horder (pendingDeletions w.store)
  have hnodup : (pendingDeletions w.store).Nodup :=
    (List.Nodup.of_map _ w.store.evidenceDeletionRequests.nodup).filter _
  rw [resumePendingDeletions, if_neg hvalid]
  exact finalizeEach_spec 0
    (fun request hrequest => hperm.mem_iff.mp (List.mem_of_mem_take hrequest))
    ((hperm.nodup_iff.mpr hnodup).sublist (List.take_sublist _ _))

/-- Repeated calls, each with its own order of ties and its own clock. -/
def resumed (faults : Faults) (limit : ℕ)
    (orders : ℕ → List EvidenceDeletionRequest → List EvidenceDeletionRequest)
    (clocks : ℕ → ℕ → Time) (w : World) : ℕ → World
  | 0 => w
  | n + 1 => (resumePendingDeletions faults limit (orders n) (clocks n)
      (resumed faults limit orders clocks w n)).2

variable {orders : ℕ → List EvidenceDeletionRequest → List EvidenceDeletionRequest}
  {clocks : ℕ → ℕ → Time}

variable (faults w clocks) in
theorem pending_resumed (horders : ∀ n l, (orders n l).Perm l)
    (hlimit : 1 ≤ limit ∧ limit ≤ 1000) (n : ℕ) :
    pendingDeletions (resumed faults limit orders clocks w n).store =
        Backlog.after (raises faults w.store) limit orders (pendingDeletions w.store) n ∧
      SameOutcomes faults w.store (resumed faults limit orders clocks w n).store := by
  induction n with
  | zero => exact ⟨rfl, .refl _⟩
  | succ n ih =>
    obtain ⟨hpending, hsame⟩ := ih
    obtain ⟨hnext, hsameNext⟩ := pending_resumePendingDeletions faults
      (resumed faults limit orders clocks w n) (clocks n) (horders n) hlimit
    refine ⟨?_, hsame.trans hsameNext⟩
    have hraises : raises faults (resumed faults limit orders clocks w n).store =
        raises faults w.store := funext hsame.raises
    rw [resumed, hnext, hraises, hpending]
    rfl

/-- A request that was pending is finalised when it is no longer. -/
theorem finalized_iff {request : EvidenceDeletionRequest}
    (hrequest : request ∈ pendingDeletions w.store) (horders : ∀ n l, (orders n l).Perm l)
    (hlimit : 1 ≤ limit ∧ limit ≤ 1000) (n : ℕ) :
    ((resumed faults limit orders clocks w n).store.tombstones.get? request.id).isSome = true ↔
      request ∉ Backlog.after (raises faults w.store) limit orders
        (pendingDeletions w.store) n := by
  obtain ⟨hpending, hsame⟩ := pending_resumed faults w clocks horders hlimit n
  rw [← hpending, mem_pendingDeletions, hsame.requests, Option.isSome_iff_ne_none]
  simp [(mem_pendingDeletions.mp hrequest).1]

/-- Whatever ties come to, repeated calls finalise every request that can be. -/
def Resumes (faults : Faults) (limit : ℕ) (w : World) : Prop :=
  ∀ (clocks : ℕ → ℕ → Time)
    (orders : ℕ → List EvidenceDeletionRequest → List EvidenceDeletionRequest),
    (∀ n, Backlog.Orders w.store.rank (orders n)) →
      ∀ request ∈ pendingDeletions w.store, raises faults w.store request = false →
        ∃ n, ((resumed faults limit orders clocks w n).store.tombstones.get?
          request.id).isSome = true

/-- **Repeated calls finalise whatever can be finalised** exactly when every request that
raises was made after all that do not. -/
theorem resumes_iff (hlimit : 1 ≤ limit ∧ limit ≤ 1000) :
    Resumes faults limit w ↔
      ∀ a ∈ pendingDeletions w.store, ∀ b ∈ pendingDeletions w.store,
        raises faults w.store a = true → raises faults w.store b = false →
          w.store.requestedAt b.id < w.store.requestedAt a.id := by
  refine Iff.trans ?_ (Backlog.drains_iff w.store.rank hlimit.1)
  constructor
  · intro h orders horders b hb hgood
    obtain ⟨n, hn⟩ := h (fun _ _ => 0) orders horders b hb hgood
    exact ⟨n, (finalized_iff hb (fun n => (horders n).perm) hlimit n).mp hn⟩
  · intro h clocks orders horders b hb hgood
    obtain ⟨n, hn⟩ := h orders horders b hb hgood
    exact ⟨n, (finalized_iff hb (fun n => (horders n).perm) hlimit n).mpr hn⟩

end Batches

/-! ### A request that keeps failing -/

namespace PoisonedExample

def record (id : ℕ) (address : String) : EvidenceRecord where
  id := .ofNat id
  taskId := none
  validationRunId := none
  evidenceType := "note"
  origin := "browser"
  contentHash := address
  artifact := none
  capturedAt := 1
  accessClassification := .owner
  retentionPolicy := .taskLifetime
  correctionOfId := none
  ownerId := "owner"
  actorId := "owner"
  rootCorrelationId := .ofNat 1
  causationId := none
  parentCorrelationId := none

def poisoned : EvidenceDeletionRequest := ⟨.ofNat 20, .ofNat 10⟩

def waiting : EvidenceDeletionRequest := ⟨.ofNat 21, .ofNat 11⟩

/-- Two requests, the second made a second after the first. -/
def world : World where
  store :=
    { evidenceRecords := ⟨[record 10 "sha256:a", record 11 "sha256:b"], by decide⟩
      evidenceDeletionRequests := ⟨[poisoned, waiting], by decide⟩
      requestedAt := fun id => if id = poisoned.id then 1 else 2 }
  files := ["sha256:a", "sha256:b"]

/-- The bytes of the first record have been redirected. -/
def faults : Faults where
  redirected := (· = "sha256:a")
  transaction := fun _ => false

theorem pending_world : pendingDeletions world.store = [poisoned, waiting] := by decide

theorem raises_poisoned : raises faults world.store poisoned = true := by decide

theorem raises_waiting : raises faults world.store waiting = false := by decide

end PoisonedExample

open PoisonedExample in
/-- The second request can be finalised and never is, however often the batch is repeated. -/
theorem waiting_forever {clocks : ℕ → ℕ → Time}
    {orders : ℕ → List EvidenceDeletionRequest → List EvidenceDeletionRequest}
    (horders : ∀ n, Backlog.Orders world.store.rank (orders n)) (n : ℕ) :
    ((resumed faults 100 orders clocks world n).store.tombstones.get? waiting.id).isSome =
      false := by
  have hwaiting : waiting ∈ pendingDeletions world.store := by
    rw [pending_world]
    exact List.mem_cons_of_mem _ List.mem_cons_self
  have hpoisoned : poisoned ∈ pendingDeletions world.store := by
    rw [pending_world]
    exact List.mem_cons_self
  rw [← Bool.not_eq_true, finalized_iff hwaiting (fun n => (horders n).perm) (by decide), not_not]
  exact (Backlog.mem_after_of_failing (fun n => (horders n).perm) (fun n => (horders n).sorted)
    hpoisoned hwaiting raises_poisoned (by decide) n).2

open PoisonedExample in
theorem not_resumes_poisoned : ¬ Resumes faults 100 world := by
  intro h
  have horders : Backlog.Orders world.store.rank
      (Backlog.failingFirst world.store.rank (raises faults world.store)) :=
    Backlog.orders_failingFirst _ _
  have hwaiting : waiting ∈ pendingDeletions world.store := by
    rw [pending_world]
    exact List.mem_cons_of_mem _ List.mem_cons_self
  obtain ⟨n, hn⟩ := h (fun _ _ => 0) _ (fun _ => horders) waiting hwaiting raises_waiting
  rw [waiting_forever fun _ => horders] at hn
  cases hn

open PoisonedExample in
/-- A request that keeps failing holds nothing back when it was made last. -/
theorem resumes_iff_last : Resumes ⟨(· = "sha256:b"), fun _ => false⟩ 100 world := by
  refine (resumes_iff (by decide)).mpr ?_
  rw [pending_world]
  decide

end ControlPlane.Deletion
