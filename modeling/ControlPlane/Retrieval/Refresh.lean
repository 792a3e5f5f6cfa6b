import ControlPlane.Retrieval.Atomicity

/-!
# Refreshing stale indexes

A batch looks at the first tasks by their identifiers, calls an index stale when a row of the
task's evidence is stamped later than its live generation, and rebuilds the stale ones in order
until a rebuild fails. A rebuild reads its sources first and is stamped afterwards.

## Main definitions

* `taskIndexIsStale`, `sourcesNow`, `refreshStaleTaskIndexes`
* `refreshSystem`: runs of evidence changes, rebuilds in their two parts and index deletions.

## Main results

* `rebuild_sources`: a rebuild that commits indexes the sources of `buildSources`.
* `mem_sourcesNow`: a rebuild indexes exactly the current verified evidence of its task.
* `fresh_or_stale`: in a run whose changes are stamped behind the indexes they outdate, an index
  is current or stale.
* `refreshes_current_iff`: from any state, batches make a task current if and only if it is
  current already or the first batch gets to it.
* `refresh_converges`: in such a run one batch leaves a task current that is among the first
  tasks, when no rebuild of a stale task before it fails.
-/
namespace ControlPlane.Retrieval

/-! ### Staleness -/

/-- The evidence store, with the evidence and the time of every deletion request. -/
structure RefreshStore extends ProjectedStore where
  deletionRequestTimes : List (UUID × Time) := []

/-- What a live generation of a task was built from, and when it was stamped. -/
structure BuiltIndex where
  indexedAt : Time
  sources : List (UUID × String)
  deriving DecidableEq

/-- The evidence of a task and the evidence its events refer to. -/
def relatedEvidence (db : Database) (taskId evidenceId : UUID) : Bool :=
  db.evidenceRecords.rows.any fun record =>
    record.id = evidenceId && (record.taskId = some taskId ||
      db.taskEventEvidenceReferences.any fun reference =>
        reference.taskId = taskId && reference.evidenceId = record.id)

/-- A row of the task's evidence is stamped later than a time. -/
def changedSince (store : RefreshStore) (taskId : UUID) (indexedAt : Time) : Bool :=
  let related := relatedEvidence store.toDatabase taskId
  let changedEvidence := store.evidenceRecords.rows.any fun record =>
    related record.id &&
      (decide (indexedAt < record.capturedAt) || record.deletedAt.any (decide <| indexedAt < ·))
  let changedCorrection := store.evidenceRecords.rows.any fun record =>
    record.correctionOfId.any related && decide (indexedAt < record.capturedAt)
  let changedReference := store.taskEventEvidenceReferences.any fun reference =>
    decide (reference.taskId = taskId) && store.taskEvents.rows.any fun event =>
      decide (event.id = reference.taskEventId) && decide (indexedAt < event.occurredAt)
  let changedDeletion := store.deletionRequestTimes.any fun request =>
    related request.1 && decide (indexedAt < request.2)
  changedEvidence || changedCorrection || changedReference || changedDeletion

def taskIndexIsStale (store : RefreshStore) (taskId : UUID) : Option BuiltIndex → Bool
  | none => true
  | some built => changedSince store taskId built.indexedAt

/-! ### Sources -/

def maxIndexSources : ℕ := 1000

def maxRefreshTasks : ℕ := 1000

section Sources
variable (rt : Runtime) (unicodeDumps : Json → String) (actorId : String)

/-- The pages from a cursor on; every page but the last has two hundred entries, so that the
source limit bounds their number. -/
def verifiedPages (store : RefreshStore) (taskId : UUID) :
    ℕ → ℕ → Option UUID → Except RetrievalIndexError (List VerifiedEvidenceProjection)
  | 0, _, _ => .error (.validation "retrieval index exceeds the source limit")
  | pages + 1, scanned, after =>
    match taskProjectionsInternal rt store.toProjectedStore taskId actorId 200 after with
    | .error e => .error (.evidence e)
    | .ok page =>
      if maxIndexSources < scanned + page.projections.length then
        .error (.validation "retrieval index exceeds the source limit")
      else
        let verified := page.projections.filter fun p =>
          p.verificationStatus = .verified && p.lineageStatus = .current && p.contentHash.isSome
        match page.nextCursor with
        | none => .ok verified
        | some cursor =>
          match verifiedPages store taskId pages (scanned + page.projections.length)
              (some cursor) with
          | .error e => .error e
          | .ok rest => .ok (verified ++ rest)

def verifiedTaskProjections (store : RefreshStore) (taskId : UUID) :
    Except RetrievalIndexError (List VerifiedEvidenceProjection) :=
  verifiedPages rt actorId store taskId (maxIndexSources / 200 + 1) 0 none

/-- The sources an attempt indexes, of projections read before: each is read again, and the
chunks are limited. -/
def buildSources (store : RefreshStore) :
    List VerifiedEvidenceProjection → ℕ → Except RetrievalIndexError (List (UUID × String))
  | [], _ => .ok []
  | projection :: rest, count =>
    match readSource rt unicodeDumps store.toDatabase projection with
    | .error e => .error e
    | .ok none => buildSources store rest count
    | .ok (some (record, text)) =>
      if maxIndexChunks < count + (chunks text).length then
        .error (.validation "retrieval index exceeds the chunk limit")
      else
        match buildSources store rest (count + (chunks text).length) with
        | .error e => .error e
        | .ok sources => .ok ((record.id, projection.contentHash.getD "") :: sources)

/-- The sources a rebuild indexes that meets no change on its way. -/
def sourcesNow (store : RefreshStore) (taskId : UUID) :
    Except RetrievalIndexError (List (UUID × String)) :=
  match verifiedTaskProjections rt actorId store taskId with
  | .error e => .error e
  | .ok projections => buildSources rt unicodeDumps store projections 0

/-! ### A batch -/

/-- The evidence, the live generation of each task, and the rebuilds under way with the
projections they have read. -/
structure RefreshState where
  store : RefreshStore
  index : UUID → Option BuiltIndex
  reading : List (UUID × List VerifiedEvidenceProjection) := []

def RefreshState.indexed (s : RefreshState) (taskId : UUID) (built : Option BuiltIndex) :
    RefreshState :=
  { s with index := fun id => if id = taskId then built else s.index id }

/-- Rebuild tasks in order, up to the first that fails. -/
def rebuildTasks (now : UUID → Time) :
    List UUID → RefreshState → RefreshState × Option RetrievalIndexError
  | [], s => (s, none)
  | taskId :: rest, s =>
    match sourcesNow rt unicodeDumps actorId s.store taskId with
    | .error e => (s, some e)
    | .ok sources => rebuildTasks now rest (s.indexed taskId (some ⟨now taskId, sources⟩))

/-- Identifiers are ordered by their bits. -/
def taskPosition (id : UUID) : ℕ := id.bits.toNat

/-- The tasks a batch looks at. -/
def refreshBatch (store : RefreshStore) (limit : ℕ) : List UUID :=
  (Pages.orderBy taskPosition (store.tasks.rows.map (·.id))).take limit

def requiredRetrievalActor : Except RetrievalIndexError String :=
  let normalized := String.ofList (rt.unicode.strip actorId.toList)
  if normalized ≠ "" ∧ normalized.length ≤ 255 then .ok normalized
  else .error (.validation "retrieval actor is invalid")

def refreshStaleTaskIndexes (limit : ℕ) (now : UUID → Time) (s : RefreshState) :
    RefreshState × Option RetrievalIndexError :=
  match requiredRetrievalActor rt actorId with
  | .error e => (s, some e)
  | .ok _ =>
    if 1 ≤ limit ∧ limit ≤ maxRefreshTasks then
      -- every rebuild strips the actor again, so it may have the one given
      rebuildTasks rt unicodeDumps actorId now
        ((refreshBatch s.store limit).filter fun id => taskIndexIsStale s.store id (s.index id)) s
    else (s, some (.validation "retrieval refresh limit is invalid"))

/-- The state behind a number of batches, each with its own times. -/
def refreshes (limit : ℕ) (now : ℕ → UUID → Time) : ℕ → RefreshState → RefreshState
  | 0, s => s
  | n + 1, s =>
    (refreshStaleTaskIndexes rt unicodeDumps actorId limit (now n) (refreshes limit now n s)).1

/-- A batch gets to a stale task, when no rebuild of a stale task before it fails. -/
def RefreshState.Reaches (s : RefreshState) (limit : ℕ) (taskId : UUID) : Prop :=
  taskIndexIsStale s.store taskId (s.index taskId) = true ∧
    ∃ before after, refreshBatch s.store limit = before ++ taskId :: after ∧
      ∀ id ∈ before, taskIndexIsStale s.store id (s.index id) = true →
        (sourcesNow rt unicodeDumps actorId s.store id).isOk = true

/-- A record is current verified evidence of a task. -/
def VerifiedSource (store : RefreshStore) (task : Task) (record : EvidenceRecord)
    (contentHash : String) : Prop :=
  record ∈ store.evidenceRecords ∧ record.ownerId = task.ownerId ∧
    concernsTask store.toDatabase task record = true ∧
    corrected store.toDatabase record.id = false ∧
    ∃ loaded, verification rt store.toProjectedStore record = .ok (some loaded, .verified) ∧
      loaded.envelope.contentHash = contentHash

/-- The live generation of a task is built from exactly its current verified evidence. -/
def RefreshState.Current (s : RefreshState) (task : Task) : Prop :=
  ∃ built, s.index task.id = some built ∧ ∀ id contentHash, (id, contentHash) ∈ built.sources ↔
    ∃ record, record.id = id ∧ VerifiedSource rt s.store task record contentHash

/-! ### Runs -/

/-- Rows are added or marked as deleted, and keep their stamps. -/
structure RefreshStore.Grows (before after : RefreshStore) : Prop where
  records : ∀ record ∈ before.evidenceRecords, ∃ record' ∈ after.evidenceRecords,
    record'.id = record.id ∧ record'.taskId = record.taskId ∧
      record'.correctionOfId = record.correctionOfId ∧ record'.capturedAt = record.capturedAt ∧
      ∀ t, record.deletedAt = some t → record'.deletedAt = some t
  references : before.taskEventEvidenceReferences ⊆ after.taskEventEvidenceReferences
  events : ∀ event ∈ before.taskEvents, event ∈ after.taskEvents
  requests : before.deletionRequestTimes ⊆ after.deletionRequestTimes

inductive RefreshAction where
  /-- Evidence is captured, corrected, referred to or deleted. -/
  | change (store : RefreshStore)
  /-- A rebuild reads its sources. -/
  | read (taskId : UUID) (projections : List VerifiedEvidenceProjection)
  /-- A rebuild that has read its sources is stamped, and commits. -/
  | build (taskId : UUID) (projections : List VerifiedEvidenceProjection) (now : Time)
      (sources : List (UUID × String))
  | deleteIndex (taskId : UUID)

def RefreshState.act (s : RefreshState) : RefreshAction → RefreshState
  | .change store => { s with store }
  | .read taskId projections => { s with reading := (taskId, projections) :: s.reading }
  | .build taskId _ now sources => s.indexed taskId (some ⟨now, sources⟩)
  | .deleteIndex taskId => s.indexed taskId none

/-- What the code can do in a state; a rebuild may fail or be abandoned at any time. -/
def RefreshAction.Admissible (s : RefreshState) : RefreshAction → Prop
  | .change store => s.store.Grows store
  | .read taskId projections =>
    verifiedTaskProjections rt actorId s.store taskId = .ok projections
  | .build taskId projections _ sources => (taskId, projections) ∈ s.reading ∧
    buildSources rt unicodeDumps s.store projections 0 = .ok sources
  | .deleteIndex _ => True

/-- A change of what a rebuild of a task indexes is stamped later than the live generation of the
task, and than a generation whose sources were read before it. -/
def RefreshAction.Noticed (s : RefreshState) : RefreshAction → Prop
  | .change store => ∀ taskId built, s.index taskId = some built →
    sourcesNow rt unicodeDumps actorId store taskId =
        sourcesNow rt unicodeDumps actorId s.store taskId ∨
      changedSince store taskId built.indexedAt = true
  | .build taskId _ now sources =>
    sourcesNow rt unicodeDumps actorId s.store taskId = .ok sources ∨
      changedSince s.store taskId now = true
  | _ => True

/-- Runs from any evidence and no index, of the actions allowed in a state. -/
def refreshSystem (allowed : RefreshState → RefreshAction → Prop) :
    TransitionSystem RefreshState where
  init := fun s => s.reading = [] ∧ ∀ taskId, s.index taskId = none
  step := fun s s' => ∃ a : RefreshAction,
    a.Admissible rt unicodeDumps actorId s ∧ allowed s a ∧ s' = s.act a

end Sources

/-! ### An index is current or stale -/

section Noticed
variable {rt : Runtime} {unicodeDumps : Json → String} {actorId : String}
  {store store' : RefreshStore} {s : RefreshState} {taskId : UUID} {indexedAt : Time}

theorem RefreshStore.Grows.related (h : store.Grows store') {evidenceId : UUID}
    (hrelated : relatedEvidence store.toDatabase taskId evidenceId = true) :
    relatedEvidence store'.toDatabase taskId evidenceId = true := by
  simp only [relatedEvidence, List.any_eq_true, Bool.and_eq_true, Bool.or_eq_true,
    decide_eq_true_eq] at hrelated ⊢
  obtain ⟨record, hrecord, hid, hconcerns⟩ := hrelated
  obtain ⟨record', hrecord', hid', htask, -⟩ := h.records record hrecord
  refine ⟨record', hrecord', hid'.trans hid, hconcerns.imp htask.trans ?_⟩
  rintro ⟨reference, hreference, hof, hto⟩
  exact ⟨reference, h.references hreference, hof, hto.trans hid'.symm⟩

/-- What is stamped later than an index stays so. -/
theorem RefreshStore.Grows.changedSince (h : store.Grows store')
    (hchanged : changedSince store taskId indexedAt = true) :
    Retrieval.changedSince store' taskId indexedAt = true := by
  simp only [Retrieval.changedSince, Bool.or_eq_true, List.any_eq_true, Bool.and_eq_true,
    decide_eq_true_eq] at hchanged ⊢
  rcases hchanged with ((⟨record, hrecord, hrelated, hlater⟩ | ⟨record, hrecord, hof, hlater⟩) |
    ⟨reference, hreference, hof, event, hevent, hid, hlater⟩) |
    ⟨request, hrequest, hrelated, hlater⟩
  · obtain ⟨record', hrecord', hid, -, -, hcaptured, hdeleted⟩ := h.records record hrecord
    refine .inl (.inl (.inl ⟨record', hrecord', hid ▸ h.related hrelated, ?_⟩))
    refine hlater.imp (hcaptured ▸ ·) fun hlater => ?_
    obtain ⟨t, ht, hlater⟩ := (Option.any_eq_true _ _).mp hlater
    exact (Option.any_eq_true _ _).mpr ⟨t, hdeleted t ht, hlater⟩
  · obtain ⟨record', hrecord', -, -, hcorrects, hcaptured, -⟩ := h.records record hrecord
    obtain ⟨original, horiginal, hrelated⟩ := (Option.any_eq_true _ _).mp hof
    refine .inl (.inl (.inr ⟨record', hrecord', ?_, hcaptured ▸ hlater⟩))
    exact (Option.any_eq_true _ _).mpr ⟨original, hcorrects.trans horiginal, h.related hrelated⟩
  · exact .inl (.inr ⟨reference, h.references hreference, hof, event, h.events event hevent, hid,
      hlater⟩)
  · exact .inr ⟨request, h.requests hrequest, h.related hrelated, hlater⟩

/-- Every index is current or stale. -/
def RefreshState.FreshOrStale (rt : Runtime) (unicodeDumps : Json → String) (actorId : String)
    (s : RefreshState) : Prop :=
  ∀ taskId built, s.index taskId = some built →
    sourcesNow rt unicodeDumps actorId s.store taskId = .ok built.sources ∨
      Retrieval.changedSince s.store taskId built.indexedAt = true

theorem RefreshState.FreshOrStale.act (h : s.FreshOrStale rt unicodeDumps actorId)
    {a : RefreshAction} (hadmissible : a.Admissible rt unicodeDumps actorId s)
    (hnoticed : a.Noticed rt unicodeDumps actorId s) :
    (s.act a).FreshOrStale rt unicodeDumps actorId := by
  intro id built hbuilt
  cases a with
  | change store =>
    have hgrows : s.store.Grows store := hadmissible
    rcases h id built hbuilt with hfresh | hstale
    · exact (hnoticed id built hbuilt).imp_left fun hsame => hsame.trans hfresh
    · exact .inr (hgrows.changedSince hstale)
  | read taskId projections => exact h id built hbuilt
  | build taskId projections now sources =>
    simp only [RefreshState.act, RefreshState.indexed] at hbuilt
    split at hbuilt
    · rename_i hid
      rw [hid, ← Option.some.inj hbuilt]
      exact hnoticed
    · exact h id built hbuilt
  | deleteIndex taskId =>
    simp only [RefreshState.act, RefreshState.indexed] at hbuilt
    split at hbuilt
    · cases hbuilt
    · exact h id built hbuilt

theorem fresh_or_stale
    (h : (refreshSystem rt unicodeDumps actorId
      (RefreshAction.Noticed rt unicodeDumps actorId)).Reachable s) :
    s.FreshOrStale rt unicodeDumps actorId := by
  refine h.invariant ?_ ?_
  · rintro s ⟨-, hnone⟩ taskId built hbuilt
    rw [hnone] at hbuilt
    cases hbuilt
  · rintro s _ hs ⟨a, hadmissible, hnoticed, rfl⟩
    exact hs.act hadmissible hnoticed

end Noticed

/-! ### What a rebuild reads -/

section Sources
variable {rt : Runtime} {unicodeDumps : Json → String} {actorId : String} {store : RefreshStore}
  {task : Task}

/-- A page of the internal view, after any record of the listing. -/
theorem internalPage_ok (htask : store.tasks.get? task.id = some task)
    {done rest : List EvidenceRecord} {page : TaskEvidenceProjectionView}
    (hview : viewRecords store.toDatabase (taskFilters store.toDatabase task none) = done ++ rest)
    (h : taskProjectionsInternal rt store.toProjectedStore task.id actorId 200
      (done.getLast?.map (·.id)) = .ok page) :
    List.Forall₂ (fun record p => oneProjection rt store.toProjectedStore record = .ok p)
        (rest.take 200) page.projections ∧
      page.nextCursor = Pages.nextOf (·.id) 200 rest := by
  simp only [taskProjectionsInternal, @boundedLimit_ok 200 (by decide), htask, Except.orThrow,
    taskRecords_eq (200 + 1) hview, Except.ok_bind, Except.bind_eq_ok, Except.pure_eq_ok] at h
  obtain ⟨projections, hproject, _, _, rfl⟩ := h
  rw [List.take_take, min_eq_left (Nat.le_succ 200)] at hproject
  exact ⟨Except.mapM_eq_ok.mp hproject, next_of_take 200 rest⟩

/-- Where a rebuild finds its sources the actor is one a batch accepts. -/
theorem requiredRetrievalActor_of_sourcesNow {taskId : UUID}
    (h : (sourcesNow rt unicodeDumps actorId store taskId).isOk = true) :
    ∃ actor, requiredRetrievalActor rt actorId = .ok actor := by
  obtain ⟨sources, h⟩ := Except.exists_of_isOk h
  rw [sourcesNow] at h
  split at h
  · cases h
  · rename_i ps hps
    rw [verifiedTaskProjections, verifiedPages] at hps
    split at hps
    · cases hps
    · rename_i page hpage
      simp only [taskProjectionsInternal, internalActor, Except.bind_eq_ok, Except.require_eq_ok,
        Except.pure_eq_ok] at hpage
      obtain ⟨-, -, -, -, -, -, -, -, -, ⟨-, haccepted, -⟩, -⟩ := hpage
      exact ⟨_, if_pos haccepted⟩

/-- The listing from a cursor on is projected record by record, and the pages leave out what is
not verified or not current. -/
theorem verifiedPages_ok (htask : store.tasks.get? task.id = some task) {pages scanned : ℕ}
    (done : List EvidenceRecord) {rest : List EvidenceRecord} {ps : List VerifiedEvidenceProjection}
    (hview : viewRecords store.toDatabase (taskFilters store.toDatabase task none) = done ++ rest)
    (h : verifiedPages rt actorId store task.id pages scanned (done.getLast?.map (·.id)) =
      .ok ps) :
    ∃ all, List.Forall₂ (fun record p => oneProjection rt store.toProjectedStore record = .ok p)
        rest all ∧
      ps = all.filter fun p =>
        p.verificationStatus = .verified && p.lineageStatus = .current && p.contentHash.isSome := by
  induction pages generalizing scanned done rest ps with
  | zero => cases h
  | succ pages ih =>
    rw [verifiedPages] at h
    split at h
    · cases h
    · rename_i page hpage
      obtain ⟨hall, hnext⟩ := internalPage_ok htask hview hpage
      split at h
      · cases h
      · dsimp only at h
        by_cases hmore : 200 < rest.length
        · -- the next page starts behind the last record of this one
          have htaken : rest.take 200 ≠ [] := by
            intro hnil
            have := congrArg List.length hnil
            rw [List.length_take, List.length_nil] at this
            omega
          have hlast : (done ++ rest.take 200).getLast? = (rest.take 200).getLast? :=
            List.getLast?_append_of_ne_nil _ htaken
          have hsplit : viewRecords store.toDatabase (taskFilters store.toDatabase task none) =
              (done ++ rest.take 200) ++ rest.drop 200 := by
            rw [List.append_assoc, List.take_append_drop, hview]
          obtain ⟨cursor, hcursor⟩ := Option.ne_none_iff_exists'.mp
            (mt List.getLast?_eq_none_iff.mp htaken)
          rw [hnext, Pages.nextOf, if_pos hmore, hcursor, Option.map_some] at h
          dsimp only at h
          split at h
          · cases h
          · rename_i more hpages
            rw [← Option.map_some, ← hcursor, ← hlast] at hpages
            obtain ⟨others, hothers, rfl⟩ := ih _ hsplit hpages
            refine ⟨page.projections ++ others, ?_, ?_⟩
            · have happend := List.rel_append hall hothers
              dsimp only at happend
              rwa [List.take_append_drop] at happend
            · rw [List.filter_append]
              exact (Except.ok.inj h).symm
        · rw [hnext, Pages.nextOf, if_neg hmore] at h
          rw [List.take_of_length_le (by omega)] at hall
          exact ⟨page.projections, hall, (Except.ok.inj h).symm⟩

/-- What the pages keep are the projections of records that load, are not on their way out and
are not corrected. -/
theorem projection_kept_iff {store : ProjectedStore} {record : EvidenceRecord}
    {p : VerifiedEvidenceProjection} (h : oneProjection rt store record = .ok p) :
    (p.verificationStatus = .verified && p.lineageStatus = .current && p.contentHash.isSome) =
        true ↔
      corrected store.toDatabase record.id = false ∧
        ∃ loaded, verification rt store record = .ok (some loaded, .verified) ∧
          p.contentHash = some loaded.envelope.contentHash := by
  simp only [oneProjection, Except.bind_eq_ok, Except.pure_eq_ok] at h
  obtain ⟨⟨loaded, status⟩, hverification, rfl⟩ := h
  have hcorrected : corrected store.toDatabase record.id = false ↔
      (store.evidenceRecords.rows.find? (·.correctionOfId = some record.id)) = none := by
    rw [corrected, List.find?_eq_none, List.any_eq_false]
  rw [hverification]
  cases loaded with
  | none => simp
  | some loaded =>
    cases hfind : store.evidenceRecords.rows.find? (·.correctionOfId = some record.id) with
    | none =>
      rw [hfind] at hcorrected
      simp [hcorrected.mpr rfl]
    | some other =>
      rw [hfind] at hcorrected
      simp [mt hcorrected.mp (Option.some_ne_none other)]

theorem readSource_ok {db : Database} {projection : VerifiedEvidenceProjection}
    {record : EvidenceRecord} {found : Option (EvidenceRecord × List Char)}
    (hget : db.evidenceRecords.get? projection.evidenceId = some record)
    (hcurrent : corrected db record.id = false)
    (h : readSource rt unicodeDumps db projection = .ok found) :
    ∃ text, found = some (record, text) := by
  simp only [readSource, hget, hcurrent, Bool.false_eq_true, if_false] at h
  split at h
  · cases h
  · split at h
    · split at h
      · cases h
      · exact ⟨_, (Except.ok.inj h).symm⟩
    · cases h

theorem buildSources_ok {ps : List VerifiedEvidenceProjection} {count : ℕ}
    {sources : List (UUID × String)}
    (hread : ∀ p ∈ ps, ∃ record, store.evidenceRecords.get? p.evidenceId = some record ∧
      corrected store.toDatabase record.id = false)
    (h : buildSources rt unicodeDumps store ps count = .ok sources) :
    sources = ps.map fun p => (p.evidenceId, p.contentHash.getD "") := by
  induction ps generalizing count sources with
  | nil => exact (Except.ok.inj h).symm
  | cons p rest ih =>
    obtain ⟨record, hget, hcurrent⟩ := hread p List.mem_cons_self
    rw [buildSources] at h
    split at h
    · cases h
    · rename_i hnone
      obtain ⟨_, habsurd⟩ := readSource_ok hget hcurrent hnone
      cases habsurd
    · rename_i other text hsome
      obtain ⟨_, hsame⟩ := readSource_ok hget hcurrent hsome
      obtain rfl : other = record := congrArg Prod.fst (Option.some.inj hsame)
      split at h
      · cases h
      · split at h
        · cases h
        · rename_i others hothers
          have hid : other.id = p.evidenceId := Table.key_of_get? hget
          rw [← Except.ok.inj h, List.map_cons, hid,
            ih (fun q hq => hread q (List.mem_cons_of_mem _ hq)) hothers]

/-- A chunk that goes through is counted, within the limit, and adds a row of its record. -/
theorem indexChunk_ok {taskId : UUID} {attempt : Attempt} {record : EvidenceRecord} {chunk : Chunk}
    {p p' : Progress} (h : indexChunk taskId attempt record chunk p = (p', none)) :
    p'.chunkCount = p.chunkCount + 1 ∧ p'.chunkCount ≤ maxIndexChunks ∧
      p'.sourceCount = p.sourceCount ∧ p'.db.generations = p.db.generations ∧
      ∃ c : RetrievalIndexChunk, p'.db.chunks = p.db.chunks ++ [c] ∧ c.evidenceId = record.id := by
  simp only [indexChunk] at h
  split at h
  · cases h
  · rename_i hlimit
    split at h
    · cases h
    · cases h
    · split at h
      · cases h
      · obtain rfl := congrArg Prod.fst h
        exact ⟨rfl, not_lt.mp hlimit, rfl, rfl, _, rfl, rfl⟩

theorem indexChunks_ok {taskId : UUID} {attempt : Attempt} {record : EvidenceRecord}
    {chunks : List Chunk} {p p' : Progress}
    (h : indexChunks taskId attempt record chunks p = (p', none))
    (hcount : p.chunkCount ≤ maxIndexChunks) :
    p'.chunkCount = p.chunkCount + chunks.length ∧ p'.chunkCount ≤ maxIndexChunks ∧
      p'.sourceCount = p.sourceCount ∧ p'.db.generations = p.db.generations ∧
      ∃ added, p'.db.chunks = p.db.chunks ++ added ∧ ∀ c ∈ added, c.evidenceId = record.id := by
  induction chunks generalizing p with
  | nil =>
    obtain rfl := congrArg Prod.fst h
    exact ⟨rfl, hcount, rfl, rfl, [], (List.append_nil _).symm, by simp⟩
  | cons chunk rest ih =>
    rw [indexChunks] at h
    split at h
    · rename_i middle hchunk
      obtain ⟨hnext, hlimit, hsame, hkept, c, hrow, hof⟩ := indexChunk_ok hchunk
      obtain ⟨htotal, hmax, hsources, hgenerations, added, hrows, hall⟩ := ih h hlimit
      refine ⟨?_, hmax, hsources.trans hsame, hgenerations.trans hkept, c :: added, ?_,
        List.forall_mem_cons.mpr ⟨hof, hall⟩⟩
      · rw [htotal, hnext, List.length_cons]
        omega
      · rw [hrows, hrow, List.append_assoc, List.singleton_append]
    · rename_i hfailed
      exact absurd h (hfailed p')

/-- An attempt that goes through indexes the sources of `buildSources`: it counts them, and every
row it adds is a chunk of one of them. -/
theorem indexSources_ok {taskId : UUID} {attempt : Attempt} {ps : List VerifiedEvidenceProjection}
    {p p' : Progress}
    (h : indexSources rt unicodeDumps store.toDatabase taskId attempt ps p = (p', none))
    (hcount : p.chunkCount ≤ maxIndexChunks) :
    ∃ sources added, buildSources rt unicodeDumps store ps p.chunkCount = .ok sources ∧
      p'.sourceCount = p.sourceCount + sources.length ∧
      p'.db.generations = p.db.generations ∧ p'.db.chunks = p.db.chunks ++ added ∧
      ∀ c ∈ added, c.evidenceId ∈ sources.map Prod.fst := by
  induction ps generalizing p with
  | nil =>
    obtain rfl := congrArg Prod.fst h
    exact ⟨[], [], rfl, rfl, rfl, (List.append_nil _).symm, by simp⟩
  | cons projection rest ih =>
    cases hsource : readSource rt unicodeDumps store.toDatabase projection with
    | error e =>
      simp only [indexSources, hsource] at h
      cases h
    | ok found =>
      cases found with
      | none =>
        simp only [indexSources, hsource] at h
        simp only [buildSources, hsource]
        exact ih h hcount
      | some found =>
        obtain ⟨record, text⟩ := found
        simp only [indexSources, hsource] at h
        simp only [buildSources, hsource]
        split at h
        · rename_i middle hchunks
          obtain ⟨hnext, hlimit, hsame, hkept, added, hrows, hall⟩ := indexChunks_ok hchunks hcount
          obtain ⟨sources, others, hbuilt, htotal, hgenerations, hmore, hothers⟩ := ih h hlimit
          dsimp only at hnext hsame hkept hrows
          rw [hnext] at hbuilt hlimit
          simp only [if_neg (not_lt.mpr hlimit), hbuilt]
          refine ⟨_, added ++ others, rfl, ?_, hgenerations.trans hkept, ?_, ?_⟩
          · rw [htotal, hsame, List.length_cons]
            omega
          · rw [hmore, hrows, List.append_assoc]
          · intro c hc
            rcases List.mem_append.mp hc with hc | hc
            · rw [hall c hc]
              exact List.mem_cons_self
            · exact List.mem_cons_of_mem _ (hothers c hc)
        · rename_i hfailed
          exact absurd h (hfailed p')

/-- The generation of a rebuild that commits counts the sources of `buildSources`. -/
theorem rebuild_sources {taskId : UUID} {attempt : Attempt}
    {ps : List VerifiedEvidenceProjection} {db : IndexDatabase} {stored : List String}
    {result : RebuildResult}
    (hresult : rebuild rt unicodeDumps store.toDatabase taskId attempt ps db stored = result)
    (h : result.error = none) :
    ∃ sources, buildSources rt unicodeDumps store ps 0 = .ok sources ∧
      ∃ g ∈ result.db.generations, g.taskId = taskId ∧ g.id = attempt.generationId ∧
        g.deletedAt = none ∧ g.indexedAt = attempt.now ∧ g.sourceCount = sources.length := by
  simp only [rebuild] at hresult
  split at hresult
  · rw [← hresult] at h
    cases h
  · split at hresult
    · rw [← hresult] at h
      cases h
    · split at hresult
      · rw [← hresult] at h
        cases h
      · rename_i generations hinsert
        split at hresult
        · rw [← hresult] at h
          cases h
        · rename_i p hrun
          split at hresult
          · rw [← hresult] at h
            cases h
          · obtain ⟨sources, added, hbuilt, htotal, hgenerations, -⟩ :=
              indexSources_ok hrun (Nat.zero_le _)
            have hsame : p.db.generations = generations := hgenerations
            have hmem : _ ∈ p.db.generations :=
              hsame ▸ (Table.mem_insert? hinsert).mpr (.inr rfl)
            rw [← hresult]
            refine ⟨sources, hbuilt, _, (Table.mem_set ?_).mpr (.inl rfl), rfl, rfl, rfl, rfl, ?_⟩
            · exact (Table.get?_key hmem).symm ▸ Option.some_ne_none _
            · exact htotal.trans (Nat.zero_add _)

/-- What a rebuild indexes is exactly the current verified evidence of the task. -/
theorem mem_sourcesNow (htask : store.tasks.get? task.id = some task)
    {sources : List (UUID × String)}
    (h : sourcesNow rt unicodeDumps actorId store task.id = .ok sources) (id : UUID)
    (contentHash : String) :
    (id, contentHash) ∈ sources ↔
      ∃ record, record.id = id ∧ VerifiedSource rt store task record contentHash := by
  rw [sourcesNow] at h
  split at h
  · cases h
  · rename_i ps hps
    obtain ⟨all, hall, rfl⟩ := verifiedPages_ok htask [] rfl hps
    have hshown : ∀ record, record ∈ viewRecords store.toDatabase
        (taskFilters store.toDatabase task none) ↔ record ∈ store.evidenceRecords ∧
          record.ownerId = task.ownerId ∧ concernsTask store.toDatabase task record = true := by
      intro record
      rw [mem_viewRecords]
      simp [taskFilters]
    have hkept : ∀ p ∈ all.filter fun p => p.verificationStatus = .verified &&
        p.lineageStatus = .current && p.contentHash.isSome,
        ∃ record, ∃ loaded : LoadedEvidence,
          oneProjection rt store.toProjectedStore record = .ok p ∧
          VerifiedSource rt store task record loaded.envelope.contentHash ∧
          p.evidenceId = record.id ∧ p.contentHash = some loaded.envelope.contentHash := by
      intro p hp
      obtain ⟨hp, hfilter⟩ := List.mem_filter.mp hp
      obtain ⟨record, hrecord, hok⟩ := Pages.exists_of_mem_right hall hp
      obtain ⟨hrow, howner, hconcerns⟩ := (hshown record).mp hrecord
      obtain ⟨hcurrent, loaded, hverified, hhash⟩ := (projection_kept_iff hok).mp hfilter
      exact ⟨record, loaded, hok, ⟨hrow, howner, hconcerns, hcurrent, loaded, hverified, rfl⟩,
        (oneProjection_ok hok).1, hhash⟩
    rw [buildSources_ok (fun p hp => ?_) h, List.mem_map]
    · constructor
      · rintro ⟨p, hp, hpair⟩
        obtain ⟨record, loaded, -, hsource, hid, hhash⟩ := hkept p hp
        rw [hid, hhash, Option.getD_some, Prod.mk.injEq] at hpair
        exact ⟨record, hpair.1, hpair.2 ▸ hsource⟩
      · rintro ⟨record, rfl, hrow, howner, hconcerns, hcurrent, loaded, hverified, rfl⟩
        obtain ⟨p, hp, hok⟩ := Pages.exists_of_mem_left hall
          ((hshown record).mpr ⟨hrow, howner, hconcerns⟩)
        have hfields := hok
        simp only [oneProjection, hverified, Except.ok_bind, Except.pure_eq_ok] at hfields
        have hhash : p.contentHash = some loaded.envelope.contentHash := by
          rw [← hfields]
          rfl
        refine ⟨p, List.mem_filter.mpr ⟨hp, (projection_kept_iff hok).mpr
          ⟨hcurrent, loaded, hverified, hhash⟩⟩, ?_⟩
        rw [(oneProjection_ok hok).1, hhash, Option.getD_some]
    · obtain ⟨record, loaded, -, hsource, hid, -⟩ := hkept p hp
      refine ⟨record, ?_, hsource.2.2.2.1⟩
      rw [hid]
      exact Table.get?_key hsource.1

end Sources

/-! ### A batch -/

section Batch
variable {rt : Runtime} {unicodeDumps : Json → String} {actorId : String} {now : UUID → Time}
  {s : RefreshState} {taskId : UUID}

/-- The live generation is built from what a rebuild would index. -/
def RefreshState.UpToDate (rt : Runtime) (unicodeDumps : Json → String) (actorId : String)
    (s : RefreshState) (taskId : UUID) : Prop :=
  ∃ built, s.index taskId = some built ∧
    sourcesNow rt unicodeDumps actorId s.store taskId = .ok built.sources

theorem upToDate_indexed {other : UUID} {sources : List (UUID × String)} {t : Time}
    (hsources : sourcesNow rt unicodeDumps actorId s.store other = .ok sources)
    (h : s.UpToDate rt unicodeDumps actorId taskId) :
    (s.indexed other (some ⟨t, sources⟩)).UpToDate rt unicodeDumps actorId taskId := by
  obtain ⟨built, hbuilt, hnow⟩ := h
  by_cases heq : taskId = other
  · subst heq
    exact ⟨⟨t, sources⟩, if_pos rfl, hsources⟩
  · exact ⟨built, (if_neg heq).trans hbuilt, hnow⟩

/-- Where every occurrence of a task comes behind a failing rebuild, or fails itself, its index is
not touched. -/
theorem index_rebuildTasks {ids : List UUID}
    (h : ∀ pre post, ids = pre ++ taskId :: post → ∃ id ∈ pre ++ [taskId],
      (sourcesNow rt unicodeDumps actorId s.store id).isOk = false) :
    (rebuildTasks rt unicodeDumps actorId now ids s).1.index taskId = s.index taskId := by
  induction ids generalizing s with
  | nil => rfl
  | cons id rest ih =>
    rw [rebuildTasks]
    split
    · rfl
    · rename_i sources hsources
      have hok : (sourcesNow rt unicodeDumps actorId s.store id).isOk = true := by
        rw [hsources]
        rfl
      have hne : taskId ≠ id := by
        rintro rfl
        obtain ⟨other, hother, hfails⟩ := h [] rest rfl
        rw [List.mem_singleton.mp hother, hok] at hfails
        cases hfails
      refine (ih fun pre post hrest => ?_).trans (if_neg hne)
      obtain ⟨other, hother, hfails⟩ := h (id :: pre) post (by rw [hrest, List.cons_append])
      rcases List.mem_cons.mp hother with rfl | hother
      · rw [hok] at hfails
        cases hfails
      · exact ⟨other, hother, hfails⟩

theorem store_rebuildTasks (ids : List UUID) :
    (rebuildTasks rt unicodeDumps actorId now ids s).1.store = s.store := by
  induction ids generalizing s with
  | nil => rfl
  | cons id rest ih =>
    rw [rebuildTasks]
    split
    · rfl
    · exact ih

theorem store_refreshStaleTaskIndexes (limit : ℕ) :
    (refreshStaleTaskIndexes rt unicodeDumps actorId limit now s).1.store = s.store := by
  rw [refreshStaleTaskIndexes]
  split
  · rfl
  · split
    · exact store_rebuildTasks _
    · rfl

/-- Before every occurrence of a stale task in the batch a rebuild of a stale task fails. -/
def RefreshState.Blocked (rt : Runtime) (unicodeDumps : Json → String) (actorId : String)
    (s : RefreshState) (limit : ℕ) (taskId : UUID) : Prop :=
  ∀ before after, refreshBatch s.store limit = before ++ taskId :: after →
    taskIndexIsStale s.store taskId (s.index taskId) = true →
      ∃ id ∈ before ++ [taskId], taskIndexIsStale s.store id (s.index id) = true ∧
        (sourcesNow rt unicodeDumps actorId s.store id).isOk = false

theorem index_refreshStaleTaskIndexes {limit : ℕ}
    (h : s.Blocked rt unicodeDumps actorId limit taskId) :
    (refreshStaleTaskIndexes rt unicodeDumps actorId limit now s).1.index taskId =
      s.index taskId := by
  rw [refreshStaleTaskIndexes]
  split
  · rfl
  · split
    · refine index_rebuildTasks fun pre post hsplit => ?_
      obtain ⟨before, rest, hbatch, rfl, hrest⟩ := List.filter_eq_append_iff.mp hsplit
      obtain ⟨skipped, after, rfl, hskipped, hstale, -⟩ := List.filter_eq_cons_iff.mp hrest
      obtain ⟨id, hid, hidstale, hfails⟩ := h (before ++ skipped) after
        (by rw [hbatch, List.append_assoc]) hstale
      refine ⟨id, ?_, hfails⟩
      rw [List.mem_append, List.mem_append] at hid
      rcases hid with (hid | hid) | hid
      · exact List.mem_append_left _ (List.mem_filter.mpr ⟨hid, hidstale⟩)
      · exact absurd hidstale (hskipped id hid)
      · exact List.mem_append_right _ hid
    · rfl

/-- Blocked tasks stay blocked: what fails is not rebuilt, and so stays stale. -/
theorem RefreshState.Blocked.refresh {limit : ℕ}
    (h : s.Blocked rt unicodeDumps actorId limit taskId) :
    (refreshStaleTaskIndexes rt unicodeDumps actorId limit now s).1.Blocked rt unicodeDumps actorId
      limit taskId := by
  intro before after hbatch hstale
  rw [store_refreshStaleTaskIndexes] at hbatch hstale
  rw [index_refreshStaleTaskIndexes h] at hstale
  obtain ⟨id, hid, hidstale, hfails⟩ := h before after hbatch hstale
  have hself : s.Blocked rt unicodeDumps actorId limit id := fun _ _ _ hstale =>
    ⟨id, List.mem_append_right _ (List.mem_singleton_self id), hstale, hfails⟩
  refine ⟨id, hid, ?_, ?_⟩
  · rw [store_refreshStaleTaskIndexes, index_refreshStaleTaskIndexes hself]
    exact hidstale
  · rw [store_refreshStaleTaskIndexes]
    exact hfails

theorem refreshes_of_blocked {limit : ℕ} (now : ℕ → UUID → Time)
    (h : s.Blocked rt unicodeDumps actorId limit taskId) (n : ℕ) :
    (refreshes rt unicodeDumps actorId limit now n s).store = s.store ∧
      (refreshes rt unicodeDumps actorId limit now n s).index taskId = s.index taskId ∧
      (refreshes rt unicodeDumps actorId limit now n s).Blocked rt unicodeDumps actorId limit
        taskId := by
  induction n with
  | zero => exact ⟨rfl, rfl, h⟩
  | succ n ih =>
    obtain ⟨hstore, hindex, hblocked⟩ := ih
    exact ⟨store_refreshStaleTaskIndexes limit |>.trans hstore,
      (index_refreshStaleTaskIndexes hblocked).trans hindex, hblocked.refresh⟩

/-- An index that is up to date stays so in a batch. -/
theorem upToDate_rebuildTasks (ids : List UUID) (h : s.UpToDate rt unicodeDumps actorId taskId) :
    (rebuildTasks rt unicodeDumps actorId now ids s).1.UpToDate rt unicodeDumps actorId taskId := by
  induction ids generalizing s with
  | nil => exact h
  | cons id rest ih =>
    rw [rebuildTasks]
    split
    · exact h
    · rename_i sources hsources
      exact ih (upToDate_indexed hsources h)

/-- A task is up to date behind a batch that gets to it. -/
theorem upToDate_of_rebuilt {before after : List UUID}
    (hbefore : ∀ id ∈ before, (sourcesNow rt unicodeDumps actorId s.store id).isOk = true)
    (htask : (sourcesNow rt unicodeDumps actorId s.store taskId).isOk = true) :
    (rebuildTasks rt unicodeDumps actorId now (before ++ taskId :: after) s).1.UpToDate rt
      unicodeDumps actorId taskId := by
  induction before generalizing s with
  | nil =>
    obtain ⟨sources, hsources⟩ := Except.exists_of_isOk htask
    rw [List.nil_append, rebuildTasks, hsources]
    exact upToDate_rebuildTasks after ⟨_, if_pos rfl, hsources⟩
  | cons id rest ih =>
    obtain ⟨sources, hsources⟩ := Except.exists_of_isOk (hbefore id List.mem_cons_self)
    rw [List.cons_append, rebuildTasks, hsources]
    exact ih (fun other hother => hbefore other (List.mem_cons_of_mem _ hother)) htask

/-- A batch whose actor and limit are accepted rebuilds what is stale. -/
theorem refreshStaleTaskIndexes_eq {limit : ℕ} (hlimit : 1 ≤ limit ∧ limit ≤ maxRefreshTasks)
    (htask : (sourcesNow rt unicodeDumps actorId s.store taskId).isOk = true) :
    refreshStaleTaskIndexes rt unicodeDumps actorId limit now s =
      rebuildTasks rt unicodeDumps actorId now
        ((refreshBatch s.store limit).filter fun id => taskIndexIsStale s.store id (s.index id))
        s := by
  obtain ⟨actor, hactor⟩ := requiredRetrievalActor_of_sourcesNow htask
  simp only [refreshStaleTaskIndexes, hactor]
  rw [if_pos hlimit]

theorem RefreshState.Reaches.upToDate {limit : ℕ}
    (h : s.Reaches rt unicodeDumps actorId limit taskId)
    (hlimit : 1 ≤ limit ∧ limit ≤ maxRefreshTasks)
    (htask : (sourcesNow rt unicodeDumps actorId s.store taskId).isOk = true) :
    (refreshStaleTaskIndexes rt unicodeDumps actorId limit now s).1.UpToDate rt unicodeDumps actorId
      taskId := by
  obtain ⟨hstale, before, after, hbatch, hbefore⟩ := h
  have hkept : taskId :: after.filter (fun id => taskIndexIsStale s.store id (s.index id)) =
      (taskId :: after).filter fun id => taskIndexIsStale s.store id (s.index id) :=
    (List.filter_cons_of_pos (p := fun id => taskIndexIsStale s.store id (s.index id))
      hstale).symm
  rw [refreshStaleTaskIndexes_eq hlimit htask, hbatch, List.filter_append, ← hkept]
  refine upToDate_of_rebuilt (fun id hid => ?_) htask
  obtain ⟨hid, hidstale⟩ := List.mem_filter.mp hid
  exact hbefore id hid hidstale

theorem RefreshState.UpToDate.current {task : Task}
    (h : s.UpToDate rt unicodeDumps actorId task.id)
    (hrow : s.store.tasks.get? task.id = some task) : s.Current rt task := by
  obtain ⟨built, hbuilt, hsources⟩ := h
  exact ⟨built, hbuilt, mem_sourcesNow hrow hsources⟩

/-- From any state, batches make a task current if and only if it is current already or the first
batch gets to it. -/
theorem refreshes_current_iff {task : Task} {limit : ℕ} {now : ℕ → UUID → Time}
    (hlimit : 1 ≤ limit ∧ limit ≤ maxRefreshTasks) (hrow : s.store.tasks.get? task.id = some task)
    (htask : (sourcesNow rt unicodeDumps actorId s.store task.id).isOk = true) :
    (∃ n, (refreshes rt unicodeDumps actorId limit now n s).Current rt task) ↔
      s.Current rt task ∨ s.Reaches rt unicodeDumps actorId limit task.id := by
  constructor
  · rintro ⟨n, built, hbuilt, hsources⟩
    by_contra hnot
    rw [not_or] at hnot
    have hblocked : s.Blocked rt unicodeDumps actorId limit task.id := by
      intro before after hbatch hstale
      by_contra hnone
      refine hnot.2 ⟨hstale, before, after, hbatch, fun id hid hidstale => ?_⟩
      by_contra hfails
      exact hnone ⟨id, List.mem_append_left _ hid, hidstale, Bool.eq_false_iff.mpr hfails⟩
    obtain ⟨hstore, hindex, -⟩ := refreshes_of_blocked now hblocked n
    rw [hindex] at hbuilt
    rw [hstore] at hsources
    exact hnot.1 ⟨built, hbuilt, hsources⟩
  · rintro (hcurrent | hreaches)
    · exact ⟨0, hcurrent⟩
    · refine ⟨1, (hreaches.upToDate hlimit htask).current ?_⟩
      rw [store_refreshStaleTaskIndexes]
      exact hrow

/-- In a run whose changes are noticed, one batch that looks at a task leaves its index built from
exactly its current verified evidence, when its rebuild and the rebuilds of the stale tasks before
it go through. -/
theorem refresh_converges {task : Task}
    (h : (refreshSystem rt unicodeDumps actorId
      (RefreshAction.Noticed rt unicodeDumps actorId)).Reachable s) {limit : ℕ}
    (hlimit : 1 ≤ limit ∧ limit ≤ maxRefreshTasks) (hrow : s.store.tasks.get? task.id = some task)
    {before after : List UUID} (hbatch : refreshBatch s.store limit = before ++ task.id :: after)
    (hbefore : ∀ id ∈ before, taskIndexIsStale s.store id (s.index id) = true →
      (sourcesNow rt unicodeDumps actorId s.store id).isOk = true)
    (htask : (sourcesNow rt unicodeDumps actorId s.store task.id).isOk = true) :
    (refreshStaleTaskIndexes rt unicodeDumps actorId limit now s).1.Current rt task := by
  have hrow' : (refreshStaleTaskIndexes rt unicodeDumps actorId limit now s).1.store.tasks.get?
      task.id = some task := by
    rw [store_refreshStaleTaskIndexes]
    exact hrow
  suffices hupToDate : (refreshStaleTaskIndexes rt unicodeDumps actorId limit now s).1.UpToDate rt
      unicodeDumps actorId task.id from hupToDate.current hrow'
  cases hstale : taskIndexIsStale s.store task.id (s.index task.id) with
  | true =>
    exact RefreshState.Reaches.upToDate ⟨hstale, before, after, hbatch, hbefore⟩ hlimit htask
  | false =>
    rw [refreshStaleTaskIndexes_eq hlimit htask]
    refine upToDate_rebuildTasks _ ?_
    cases hindex : s.index task.id with
    | none =>
      rw [hindex] at hstale
      cases hstale
    | some built =>
      rw [hindex] at hstale
      refine ⟨built, hindex, (fresh_or_stale h task.id built hindex).resolve_right ?_⟩
      rw [show changedSince s.store task.id built.indexedAt = false from hstale]
      exact Bool.false_ne_true

end Batch

/-! ### Two tasks -/

section Refreshed

/-- Two tasks without evidence. -/
def twoTasks : RefreshStore where
  tasks := ⟨[indexedTask, { indexedTask with id := .ofNat 2 }], by decide⟩

def unindexed (store : RefreshStore) : RefreshState where
  store := store
  index := fun _ => none

theorem sourcesNow_twoTasks :
    sourcesNow .plain Runtime.plain.dumps "worker" twoTasks (.ofNat 2) = .ok [] := by
  rfl

/-- A batch of one task never gets to the second. -/
theorem not_refresh_converges :
    ¬ ∀ s, (refreshSystem .plain Runtime.plain.dumps "worker" fun _ _ => True).Reachable s →
      ∀ limit, 1 ≤ limit ∧ limit ≤ maxRefreshTasks → ∃ n, ∀ task ∈ s.store.tasks,
        (sourcesNow .plain Runtime.plain.dumps "worker" s.store task.id).isOk = true →
          (refreshes .plain Runtime.plain.dumps "worker" limit (fun _ _ => 7) n s).Current .plain
            task := by
  intro h
  obtain ⟨n, hn⟩ := h (unindexed twoTasks) (.of_init ⟨rfl, fun _ => rfl⟩) 1 (by decide)
  have hcurrent := hn { indexedTask with id := .ofNat 2 }
    (List.mem_cons_of_mem _ List.mem_cons_self) (by
      rw [show (unindexed twoTasks).store = twoTasks from rfl, sourcesNow_twoTasks]
      rfl)
  have hblocked : (unindexed twoTasks).Blocked .plain Runtime.plain.dumps "worker" 1
      (.ofNat 2) := by
    intro before after hbatch
    have hout : UUID.ofNat 2 ∉ refreshBatch (unindexed twoTasks).store 1 := by decide
    rw [hbatch] at hout
    exact absurd (List.mem_append_right _ List.mem_cons_self) hout
  obtain ⟨built, hbuilt, -⟩ := hcurrent
  rw [(refreshes_of_blocked (fun _ _ => 7) hblocked n).2.1] at hbuilt
  cases hbuilt

/-- A task with one source. -/
def oneTask : RefreshStore where
  toProjectedStore := { toDatabase := indexedDatabase }

theorem sourcesNow_oneTask :
    sourcesNow .plain Runtime.plain.dumps "worker" oneTask indexedTask.id =
      .ok [(indexedRecord.id, indexedEnvelope.contentHash)] := by
  have hread : verifiedTaskProjections .plain "worker" oneTask indexedTask.id =
      .ok [indexedProjection] := rfl
  have hsource : readSource .plain Runtime.plain.dumps oneTask.toDatabase indexedProjection =
      .ok (some (indexedRecord, ['a'])) := readSource_indexed
  simp only [sourcesNow, hread, buildSources, hsource, chunks_indexed]
  rfl

/-- The source is captured before the task has an index; the first batch builds one. -/
theorem oneTask_converges :
    (refreshStaleTaskIndexes .plain Runtime.plain.dumps "worker" 1 (fun _ => 7)
      (unindexed oneTask)).1.Current .plain indexedTask := by
  have hbatch : refreshBatch (unindexed oneTask).store 1 = [] ++ indexedTask.id :: [] := by decide
  refine refresh_converges (.of_init ⟨rfl, fun _ => rfl⟩) (by decide) rfl hbatch (by simp) ?_
  rw [show (unindexed oneTask).store = oneTask from rfl, sourcesNow_oneTask]
  rfl

end Refreshed

end ControlPlane.Retrieval
