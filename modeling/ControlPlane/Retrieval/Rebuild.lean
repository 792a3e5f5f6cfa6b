import ControlPlane.Evidence.Projections
import ControlPlane.Lib.System
import ControlPlane.Retrieval.Chunks

/-!
# Rebuilding the retrieval index of a task

A rebuild retires the generation a task has, writes one artifact for each chunk of the task's
verified sources and commits the rows of a new generation; the artifacts of the old one are
deleted behind the commit, those of a failed attempt in its handler. The database and the artifact
store are two, and fail apart: the rows of an attempt that fails are rolled back, its artifacts are
what its handler knows of.

## Main definitions

* `rebuild`, `retireIndex`, `finalizeDeletion`
* `indexSystem`: the runs of rebuilds, index deletions and deletions of evidence.
* `IndexState.Atomic`: what a rebuild promises in a state.
-/
namespace ControlPlane.Retrieval

/-! ### Rows -/

/-- A derivative of evidence, with the address of its artifact while it is live. -/
structure IndexDerivative where
  id : UUID
  evidenceId : UUID
  contentAddress : Option String
  capturedAt : Time
  deletedAt : Option Time := none

instance : Keyed IndexDerivative UUID := ⟨IndexDerivative.id⟩

structure RetrievalIndexGeneration where
  id : UUID
  taskId : UUID
  indexVersion : String
  indexedAt : Time
  sourceCount : ℕ := 0
  chunkCount : ℕ := 0
  deletedAt : Option Time := none

instance : Keyed RetrievalIndexGeneration UUID := ⟨RetrievalIndexGeneration.id⟩

structure RetrievalIndexChunk where
  generationId : UUID
  taskId : UUID
  evidenceId : UUID
  derivativeId : UUID
  indexedAt : Time
  ordinal : ℕ
  startOffset : ℕ
  endOffset : ℕ
  deletedAt : Option Time := none

structure IndexDatabase where
  derivatives : Table IndexDerivative := .empty
  generations : Table RetrievalIndexGeneration := .empty
  chunks : List RetrievalIndexChunk := []

/-! ### Retiring -/

/-- The live generation of a task. -/
def liveGeneration? (db : IndexDatabase) (taskId : UUID) : Option RetrievalIndexGeneration :=
  db.generations.rows.find? fun g => g.taskId = taskId && g.deletedAt.isNone

/-- The derivative of one chunk gives up its address. -/
def retireDerivative (deletedAt : Time) (retired : List String × Table IndexDerivative)
    (chunk : RetrievalIndexChunk) : List String × Table IndexDerivative :=
  match retired.2.get? chunk.derivativeId with
  | none => retired
  | some derivative =>
    match derivative.deletedAt, derivative.contentAddress with
    | none, some address =>
      (retired.1 ++ [address],
        retired.2.set { derivative with contentAddress := none, deletedAt := some deletedAt })
    | _, _ => retired

/-- Retire the live generation of a task: the addresses of its artifacts, and the rows. -/
def retireIndex (db : IndexDatabase) (taskId : UUID) (deletedAt : Time) :
    List String × IndexDatabase :=
  match liveGeneration? db taskId with
  | none => ([], db)
  | some generation =>
    let live := db.chunks.filter fun c => c.generationId = generation.id && c.deletedAt.isNone
    let retired := live.foldl (retireDerivative deletedAt) ([], db.derivatives)
    (retired.1,
      { derivatives := retired.2
        generations := db.generations.set { generation with deletedAt := some deletedAt }
        chunks := db.chunks.map fun c =>
          if c.generationId = generation.id ∧ c.deletedAt.isNone = true then
            { c with deletedAt := some deletedAt }
          else c })

/-! ### Sources -/

inductive RetrievalIndexError where
  | notFound (message : String)
  | validation (message : String)
  | evidence (error : EvidenceError)
  | storage
  deriving DecidableEq

section Sources
variable (rt : Runtime) (unicodeDumps : Json → String) (evidence : Database)

/-- The text of a source; `unicodeDumps` encodes a value without escaping its characters. -/
def sourceText (loaded : LoadedEvidence) : Except RetrievalIndexError (List Char) :=
  match loaded.mediaType, loaded.content with
  | .text, .str text => .ok text.toList
  | .text, _ => .error (.validation "retrieval source media type is invalid")
  | .json, content => .ok (unicodeDumps content).toList

/-- A source read again inside the transaction; none where it is gone or corrected. -/
def readSource (projection : VerifiedEvidenceProjection) :
    Except RetrievalIndexError (Option (EvidenceRecord × List Char)) :=
  match evidence.evidenceRecords.get? projection.evidenceId with
  | none => .ok none
  | some record =>
    if corrected evidence record.id then .ok none
    else
      match loadEvidence rt evidence record with
      | .error e => .error (.evidence e)
      | .ok loaded =>
        if some loaded.envelope.contentHash = projection.contentHash ∧
            record.contentHash = projection.envelopeHash ∧
            record.accessClassification = projection.accessClassification then
          match sourceText unicodeDumps loaded with
          | .error e => .error e
          | .ok text => .ok (some (record, text))
        else .error (.validation "retrieval source projection is stale")

end Sources

/-! ### One attempt -/

def maxIndexChunks : ℕ := 5000

/-- Where a registration fails: before its artifact is written, or behind the write, before it
returns the address. -/
inductive RegistrationFault where
  | none | beforeWrite | behindWrite
  deriving DecidableEq

/-- What an attempt draws and meets: the identifier of each derivative and the address of its
artifact, and the errors of the store and the database. -/
structure Attempt where
  generationId : UUID
  indexVersion : String
  now : Time
  derivativeId : ℕ → UUID
  address : ℕ → String
  fault : ℕ → RegistrationFault
  /-- The database fails before the first source. -/
  startFails : Bool
  /-- The database fails at a later statement or at the commit. -/
  commitFails : Bool

/-- An attempt on its way: its rows, the store, the addresses its handler knows of. -/
structure Progress where
  db : IndexDatabase
  store : List String
  created : List String := []
  sourceCount : ℕ := 0
  chunkCount : ℕ := 0

/-- The progress up to the error, if there is one. -/
abbrev Outcome : Type := Progress × Option RetrievalIndexError

section Attempts
variable (rt : Runtime) (unicodeDumps : Json → String) (evidence : Database) (taskId : UUID)
  (attempt : Attempt)

/-- Register the artifact of one chunk and add its rows. -/
def indexChunk (record : EvidenceRecord) (chunk : Chunk) (p : Progress) : Outcome :=
  let k := p.chunkCount
  let p := { p with chunkCount := k + 1 }
  if maxIndexChunks < p.chunkCount then
    (p, some (.validation "retrieval index exceeds the chunk limit"))
  else
    match attempt.fault k with
    | .beforeWrite => (p, some .storage)
    | .behindWrite => ({ p with store := p.store ++ [attempt.address k] }, some .storage)
    | .none =>
      let derivative : IndexDerivative :=
        { id := attempt.derivativeId k
          evidenceId := record.id
          contentAddress := some (attempt.address k)
          capturedAt := attempt.now }
      match p.db.derivatives.insert? derivative with
      | none => ({ p with store := p.store ++ [attempt.address k] }, some .storage)
      | some derivatives =>
        ({ p with
            db := { p.db with
              derivatives
              chunks := p.db.chunks ++
                [{ generationId := attempt.generationId
                   taskId
                   evidenceId := record.id
                   derivativeId := derivative.id
                   indexedAt := attempt.now
                   ordinal := chunk.ordinal
                   startOffset := chunk.startOffset
                   endOffset := chunk.endOffset }] }
            store := p.store ++ [attempt.address k]
            created := p.created ++ [attempt.address k] }, none)

def indexChunks (record : EvidenceRecord) : List Chunk → Progress → Outcome
  | [], p => (p, none)
  | chunk :: rest, p =>
    match indexChunk taskId attempt record chunk p with
    | (p, none) => indexChunks record rest p
    | failed => failed

def indexSources : List VerifiedEvidenceProjection → Progress → Outcome
  | [], p => (p, none)
  | projection :: rest, p =>
    match readSource rt unicodeDumps evidence projection with
    | .error e => (p, some e)
    | .ok none => indexSources rest p
    | .ok (some (record, text)) =>
      match indexChunks taskId attempt record (chunks text)
          { p with sourceCount := p.sourceCount + 1 } with
      | (p, none) => indexSources rest p
      | failed => failed

/-- The new generation with its counts. -/
def Progress.finish (p : Progress) (generation : RetrievalIndexGeneration) : IndexDatabase :=
  { p.db with
    generations := p.db.generations.set
      { generation with sourceCount := p.sourceCount, chunkCount := p.chunkCount } }

/-- What an attempt leaves: the database, the store, the addresses to delete from it, and the
error it raises. -/
structure RebuildResult where
  db : IndexDatabase
  store : List String
  deletions : List String
  error : Option RetrievalIndexError

/-- Retire the index of a task and build it again from projections read before. -/
def rebuild (projections : List VerifiedEvidenceProjection) (db : IndexDatabase)
    (store : List String) : RebuildResult :=
  if (evidence.tasks.get? taskId).isNone then
    ⟨db, store, [], some (.notFound "retrieval task is unavailable")⟩
  else if attempt.startFails then ⟨db, store, [], some .storage⟩
  else
    let retired := retireIndex db taskId attempt.now
    let generation : RetrievalIndexGeneration :=
      { id := attempt.generationId
        taskId
        indexVersion := attempt.indexVersion
        indexedAt := attempt.now }
    match retired.2.generations.insert? generation with
    | none => ⟨db, store, [], some .storage⟩
    | some generations =>
      match indexSources rt unicodeDumps evidence taskId attempt projections
          { db := { retired.2 with generations }, store } with
      | (p, some e) => ⟨db, p.store, p.created, some e⟩
      | (p, none) =>
        if attempt.commitFails then ⟨db, p.store, p.created, some .storage⟩
        else ⟨p.finish generation, p.store, retired.1, none⟩

end Attempts

/-! ### Deleting evidence -/

/-- The artifacts of a record's live derivatives. -/
def derivativeAddresses (db : IndexDatabase) (evidenceId : UUID) : List String :=
  (db.derivatives.rows.filter fun d => d.evidenceId = evidenceId && d.deletedAt.isNone).filterMap
    (·.contentAddress)

def destroyDerivative (evidenceId : UUID) (now : Time) (d : IndexDerivative) : IndexDerivative :=
  if d.evidenceId = evidenceId ∧ d.deletedAt.isNone = true then
    { d with contentAddress := none, deletedAt := some now }
  else d

/-- Destroy the derivatives of a record: the bytes are deleted inside the transaction. -/
def finalizeDeletion (evidenceId : UUID) (now : Time) (commitFails : Bool) (db : IndexDatabase)
    (store : List String) : IndexDatabase × List String :=
  let store := store.filter (· ∉ derivativeAddresses db evidenceId)
  if commitFails then (db, store)
  else
    ({ db with
        derivatives :=
          { rows := db.derivatives.rows.map (destroyDerivative evidenceId now)
            nodup := by
              have hkey : (db.derivatives.rows.map (destroyDerivative evidenceId now)).map key =
                  db.derivatives.rows.map key := by
                rw [List.map_map]
                refine List.map_congr_left fun d _ => ?_
                rw [Function.comp_apply, destroyDerivative]
                split <;> rfl
              rw [hkey]
              exact db.derivatives.nodup }
        chunks := db.chunks.map fun c =>
          if c.evidenceId = evidenceId ∧ c.deletedAt.isNone = true then
            { c with deletedAt := some now }
          else c }, store)

/-! ### Runs -/

/-- The database, the store, the deletions that still have to be done, and the artifacts written
by attempts that failed. -/
structure IndexState where
  db : IndexDatabase := {}
  store : List String := []
  pending : List String := []
  abandoned : List String := []

inductive IndexAction where
  | rebuild (evidence : Database) (taskId : UUID) (attempt : Attempt)
      (projections : List VerifiedEvidenceProjection)
  /-- One of the deletions behind a commit or in a handler. -/
  | erase (address : String)
  | deleteIndex (taskId : UUID) (now : Time)
  | finalizeDeletion (evidenceId : UUID) (now : Time) (commitFails : Bool)

section Runs
variable (rt : Runtime) (unicodeDumps : Json → String)

def IndexState.rebuilt (s : IndexState) (result : RebuildResult) : IndexState where
  db := result.db
  store := result.store
  pending := s.pending ++ result.deletions
  abandoned := if result.error.isSome then
    s.abandoned ++ result.store.filter (· ∉ s.store) else s.abandoned

def IndexState.act (s : IndexState) : IndexAction → IndexState
  | .rebuild evidence taskId attempt projections =>
    s.rebuilt (rebuild rt unicodeDumps evidence taskId attempt projections s.db s.store)
  | .erase address =>
    if address ∈ s.pending then
      { s with store := s.store.filter (· ≠ address), pending := s.pending.filter (· ≠ address) }
    else s
  | .deleteIndex taskId now =>
    let retired := retireIndex s.db taskId now
    { s with db := retired.2, pending := s.pending ++ retired.1 }
  | .finalizeDeletion evidenceId now commitFails =>
    let deleted := finalizeDeletion evidenceId now commitFails s.db s.store
    { s with db := deleted.1, store := deleted.2 }

/-- Drawn identifiers are new, and so are the addresses of artifacts that name them. -/
structure Attempt.Fresh (attempt : Attempt) (s : IndexState) : Prop where
  id_injective : Set.InjOn attempt.derivativeId (Set.Iio maxIndexChunks)
  address_injective : Set.InjOn attempt.address (Set.Iio maxIndexChunks)
  id_new : ∀ k < maxIndexChunks, ∀ d ∈ s.db.derivatives, d.id ≠ attempt.derivativeId k
  address_new : ∀ k < maxIndexChunks, attempt.address k ∉ s.store ∧ attempt.address k ∉ s.pending ∧
    attempt.address k ∉ s.abandoned ∧
    ∀ d ∈ s.db.derivatives, d.contentAddress ≠ some (attempt.address k)

/-- What an action may draw in a state. -/
def IndexAction.Admissible (s : IndexState) : IndexAction → Prop
  | .rebuild _ _ attempt _ => attempt.Fresh s
  | _ => True

/-- No write is followed by an error inside its registration, and no deletion of evidence is
rolled back. -/
def IndexAction.Steady : IndexAction → Prop
  | .rebuild _ _ attempt _ => ∀ k < maxIndexChunks, attempt.fault k ≠ .behindWrite
  | .finalizeDeletion _ _ commitFails => commitFails = false
  | _ => True

/-- The runs of a task's index from the empty store, of the actions allowed. -/
def indexSystem (allowed : IndexAction → Prop) : TransitionSystem IndexState where
  init := fun s => s = {}
  step := fun s s' => ∃ a : IndexAction, allowed a ∧ a.Admissible s ∧ s' = s.act rt unicodeDumps a

/-- The store behind an attempt, with the deletions of its handler or behind its commit done. -/
def RebuildResult.cleaned (result : RebuildResult) : List String :=
  result.store.filter (· ∉ result.deletions)

/-- At most one generation of a task is live, and the artifact of every live chunk is stored. -/
structure Loads (db : IndexDatabase) (store : List String) : Prop where
  one : ∀ g ∈ db.generations, ∀ g' ∈ db.generations, g.deletedAt = none → g'.deletedAt = none →
    g.taskId = g'.taskId → g.id = g'.id
  loadable : ∀ c ∈ db.chunks, c.deletedAt = none → ∃ d address,
    db.derivatives.get? c.derivativeId = some d ∧ d.deletedAt = none ∧
      d.contentAddress = some address ∧ address ∈ store

/-- The index is loadable; an attempt that fails leaves neither rows nor artifacts, one that
commits leaves its generation as the only live one of the task. -/
structure IndexState.Atomic (allowed : IndexAction → Prop) (s : IndexState) : Prop where
  loads : Loads s.db s.store
  failed : ∀ evidence taskId attempt projections,
    allowed (.rebuild evidence taskId attempt projections) → attempt.Fresh s →
      let result := rebuild rt unicodeDumps evidence taskId attempt projections s.db s.store
      result.error ≠ none → result.db = s.db ∧ ∀ a, a ∈ result.cleaned ↔ a ∈ s.store
  committed : ∀ evidence taskId attempt projections,
    allowed (.rebuild evidence taskId attempt projections) → attempt.Fresh s →
      let result := rebuild rt unicodeDumps evidence taskId attempt projections s.db s.store
      result.error = none → Loads result.db result.cleaned ∧
        ∃ g ∈ result.db.generations, g.taskId = taskId ∧ g.id = attempt.generationId ∧
          g.deletedAt = none

end Runs

end ControlPlane.Retrieval
