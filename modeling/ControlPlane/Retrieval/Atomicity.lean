import ControlPlane.Retrieval.Rebuild

/-!
# Rebuilds are atomic

An attempt that meets no error inside a registration behind the write of its artifact either
commits its rows or leaves the rows and, once its handler is done, the store as they were. Over
runs with index deletions and deletions of evidence the artifact of a live chunk is in the store
and in no deletion still to be done.

## Main results

* `rebuild_kept`: what an attempt leaves.
* `IndexState.Intact`: what holds of the database, the store and the deletions still to do.
* `rebuild_runs_atomic`: every state of a run in which no write is followed by an error inside its
  registration, and no deletion of evidence is rolled back, is atomic.
-/
namespace ControlPlane.Retrieval

/-! ### What the rows and the store keep -/

/-- At most one generation of a task is live; the artifact of every live chunk is in the store
and is not going to be deleted. -/
structure Loadable (db : IndexDatabase) (store pending : List String) : Prop where
  one : ∀ g ∈ db.generations, ∀ g' ∈ db.generations, g.deletedAt = none → g'.deletedAt = none →
    g.taskId = g'.taskId → g.id = g'.id
  loadable : ∀ c ∈ db.chunks, c.deletedAt = none → ∃ d address,
    db.derivatives.get? c.derivativeId = some d ∧ d.deletedAt = none ∧
      d.evidenceId = c.evidenceId ∧ d.contentAddress = some address ∧ address ∈ store ∧
      address ∉ pending
  own : ∀ c ∈ db.chunks, ∀ c' ∈ db.chunks, c.deletedAt = none → c'.deletedAt = none →
    c.derivativeId = c'.derivativeId → c.generationId = c'.generationId
  addresses : ∀ {i j : UUID} {d d' : IndexDerivative} {address : String},
    db.derivatives.get? i = some d → db.derivatives.get? j = some d' →
      d.contentAddress = some address → d'.contentAddress = some address → i = j

section Retiring
variable {db : IndexDatabase} {store pending : List String} {taskId : UUID} {now : Time}

/-- Retiring chunks takes addresses away from their derivatives only. -/
structure Retired (chunks : List RetrievalIndexChunk)
    (before after : List String × Table IndexDerivative) : Prop where
  others : ∀ id, id ∉ chunks.map (·.derivativeId) → after.2.get? id = before.2.get? id
  given : ∀ address ∈ after.1, address ∈ before.1 ∨ ∃ id ∈ chunks.map (·.derivativeId),
    ∃ d, before.2.get? id = some d ∧ d.contentAddress = some address
  kept : ∀ {id d address}, after.2.get? id = some d → d.contentAddress = some address →
    before.2.get? id = some d
  known : ∀ {id}, before.2.get? id = none → after.2.get? id = none

theorem retireDerivative_retired (now : Time) (c : RetrievalIndexChunk)
    (before : List String × Table IndexDerivative) :
    Retired [c] before (retireDerivative now before c) := by
  have hsame : Retired [c] before before :=
    ⟨fun _ _ => rfl, fun _ h => .inl h, fun h _ => h, fun h => h⟩
  cases hget : before.2.get? c.derivativeId with
  | none =>
    rw [retireDerivative, hget]
    exact hsame
  | some d =>
    cases hdeleted : d.deletedAt with
    | some t =>
      simp only [retireDerivative, hget, hdeleted]
      exact hsame
    | none =>
      cases haddress : d.contentAddress with
      | none =>
        simp only [retireDerivative, hget, hdeleted, haddress]
        exact hsame
      | some address =>
        simp only [retireDerivative, hget, hdeleted, haddress]
        have hid : d.id = c.derivativeId := Table.key_of_get? hget
        have hkey : key { d with contentAddress := none, deletedAt := some now } =
            c.derivativeId := hid
        refine ⟨fun id hout => ?_, fun a ha => ?_, fun {id d' a} hd' ha => ?_,
          fun {id} hnone => ?_⟩
        · refine Table.get?_set_of_ne ?_
          rw [hkey]
          exact fun heq => hout (by simp [heq])
        · rcases List.mem_append.mp ha with ha | ha
          · exact .inl ha
          · rw [List.mem_singleton.mp ha]
            exact .inr ⟨_, List.mem_singleton_self _, d, hget, haddress⟩
        · dsimp only at hd'
          rw [Table.get?_set, hkey] at hd'
          split at hd'
          · rename_i hsame
            rw [← hsame, hget, Option.map_some, Option.some.injEq] at hd'
            rw [← hd'] at ha
            cases ha
          · exact hd'
        · dsimp only
          rw [Table.get?_set, hkey, hnone]
          split <;> rfl

theorem retireDerivatives_retired (now : Time) (chunks : List RetrievalIndexChunk)
    (before : List String × Table IndexDerivative) :
    Retired chunks before (chunks.foldl (retireDerivative now) before) := by
  induction chunks generalizing before with
  | nil => exact ⟨fun _ _ => rfl, fun _ h => .inl h, fun h _ => h, fun h => h⟩
  | cons c chunks ih =>
    have hone := retireDerivative_retired now c before
    have hrest := ih (retireDerivative now before c)
    rw [List.foldl_cons]
    refine ⟨fun id hid => ?_, fun a ha => ?_, fun hd ha => ?_,
      fun hid => hrest.known (hone.known hid)⟩
    · rw [List.map_cons, List.mem_cons, not_or] at hid
      rw [hrest.others id hid.2, hone.others id (by simpa using hid.1)]
    · rcases hrest.given a ha with ha | ⟨id, hid, d, hd, had⟩
      · rcases hone.given a ha with ha | ⟨id, hid, h⟩
        · exact .inl ha
        · exact .inr ⟨id, List.mem_cons.mpr (.inl (by simpa using hid)), h⟩
      · exact .inr ⟨id, List.mem_cons_of_mem _ hid, d, hone.kept hd had, had⟩
    · exact hone.kept (hrest.kept hd ha) ha

theorem liveGeneration?_eq_none (h : liveGeneration? db taskId = none) :
    ∀ g ∈ db.generations, g.taskId = taskId → g.deletedAt ≠ none := by
  intro g hg htask hlive
  have := List.find?_eq_none.mp h g hg
  simp [htask, hlive] at this

/-- The addresses given up were those of derivatives. -/
theorem retireIndex_given {address : String} (h : address ∈ (retireIndex db taskId now).1) :
    ∃ d ∈ db.derivatives, d.contentAddress = some address := by
  cases hlive : liveGeneration? db taskId with
  | none =>
    simp only [retireIndex, hlive] at h
    cases h
  | some g =>
    simp only [retireIndex, hlive] at h
    rcases (retireDerivatives_retired now _ _).given address h with hin | ⟨id, -, d, hd, ha⟩
    · cases hin
    · exact ⟨d, Table.mem_of_get? hd, ha⟩

/-- Nothing but the live generation of the task is touched, and it is not live any more. -/
theorem retireIndex_loadable (now : Time) (h : Loadable db store pending) :
    Loadable (retireIndex db taskId now).2 store (pending ++ (retireIndex db taskId now).1) ∧
      (∀ g ∈ (retireIndex db taskId now).2.generations, g.taskId = taskId →
        g.deletedAt ≠ none) ∧
      (∀ id, db.derivatives.get? id = none →
        (retireIndex db taskId now).2.derivatives.get? id = none) ∧
      ∀ {id d address}, (retireIndex db taskId now).2.derivatives.get? id = some d →
        d.contentAddress = some address → db.derivatives.get? id = some d := by
  cases hlive : liveGeneration? db taskId with
  | none =>
    simp only [retireIndex, hlive, List.append_nil]
    exact ⟨h, liveGeneration?_eq_none hlive, fun _ hid => hid, fun hd _ => hd⟩
  | some g =>
    have hmem := List.mem_of_find?_eq_some hlive
    have hfound : g.taskId = taskId ∧ g.deletedAt = none := by
      simpa using List.find?_some hlive
    have hretired := retireDerivatives_retired now
      (db.chunks.filter fun c => c.generationId = g.id && c.deletedAt.isNone)
      ([], db.derivatives)
    simp only [retireIndex, hlive]
    generalize (db.chunks.filter fun c => c.generationId = g.id && c.deletedAt.isNone).foldl
      (retireDerivative now) ([], db.derivatives) = retired at hretired
    have hgenerations : ∀ g' ∈ db.generations.set { g with deletedAt := some now },
        g'.deletedAt = none → g' ∈ db.generations ∧ g'.id ≠ g.id := by
      intro g' hg' hnone
      have hpresent : db.generations.get? (key { g with deletedAt := some now }) ≠ none := by
        have hget : db.generations.get? g.id = some g := Table.get?_key hmem
        exact hget ▸ Option.some_ne_none g
      rcases (Table.mem_set hpresent).mp hg' with rfl | hold
      · cases hnone
      · exact hold
    have hchunks : ∀ c' ∈ db.chunks.map (fun c =>
        if c.generationId = g.id ∧ c.deletedAt.isNone = true then
          { c with deletedAt := some now } else c),
        c'.deletedAt = none → c' ∈ db.chunks ∧ c'.generationId ≠ g.id := by
      intro c' hc' hnone
      obtain ⟨c, hc, rfl⟩ := List.mem_map.mp hc'
      split at hnone
      · cases hnone
      · rename_i hkeep
        rw [if_neg hkeep]
        exact ⟨hc, fun heq => hkeep ⟨heq, by simp [hnone]⟩⟩
    -- a chunk that stays live shares no derivative with a retired one
    have hapart : ∀ c ∈ db.chunks, c.deletedAt = none → c.generationId ≠ g.id →
        c.derivativeId ∉ (db.chunks.filter fun c =>
          c.generationId = g.id && c.deletedAt.isNone).map (·.derivativeId) := by
      intro c hc hnone hother hin
      obtain ⟨c', hc', heq⟩ := List.mem_map.mp hin
      obtain ⟨hc', hgen⟩ := List.mem_filter.mp hc'
      simp only [Bool.and_eq_true, decide_eq_true_eq, Option.isNone_iff_eq_none] at hgen
      exact hother ((h.own c' hc' c hc hgen.2 hnone heq).symm.trans hgen.1)
    refine ⟨⟨?_, ?_, ?_, ?_⟩, ?_, fun id hid => hretired.known hid,
      fun hd ha => hretired.kept hd ha⟩
    · intro g₁ hg₁ g₂ hg₂ hnone₁ hnone₂ htask
      exact h.one g₁ (hgenerations g₁ hg₁ hnone₁).1 g₂ (hgenerations g₂ hg₂ hnone₂).1 hnone₁ hnone₂
        htask
    · intro c hc hnone
      obtain ⟨hcold, hother⟩ := hchunks c hc hnone
      obtain ⟨d, a, hd, hdlive, hevidence, ha, hstore, hpending⟩ := h.loadable c hcold hnone
      have hout := hapart c hcold hnone hother
      refine ⟨d, a, (hretired.others _ hout).trans hd, hdlive, hevidence, ha, hstore, ?_⟩
      rw [List.mem_append, not_or]
      refine ⟨hpending, fun hin => ?_⟩
      rcases hretired.given a hin with hin | ⟨id, hid, d', hd', ha'⟩
      · cases hin
      · exact hout (h.addresses hd' hd ha' ha ▸ hid)
    · intro c hc c' hc' hnone hnone' heq
      exact h.own c (hchunks c hc hnone).1 c' (hchunks c' hc' hnone').1 hnone hnone' heq
    · intro i j d d' a hd hd' ha ha'
      exact h.addresses (hretired.kept hd ha) (hretired.kept hd' ha') ha ha'
    · intro g' hg' htask hnone
      obtain ⟨hold, hne⟩ := hgenerations g' hg' hnone
      exact hne (h.one g' hold g hmem hnone hfound.2 (htask.trans hfound.1.symm))

end Retiring

/-! ### One attempt -/

section Attempts
variable {rt : Runtime} {unicodeDumps : Json → String} {evidence : Database} {taskId : UUID}
  {attempt : Attempt} {store pending : List String}
  {generations : Table RetrievalIndexGeneration} {p : Progress}

/-- On its way an attempt keeps the rows loadable, has not used what it draws later, and has
added to the store what its handler knows of. -/
structure Progress.Kept (attempt : Attempt) (store pending : List String)
    (generations : Table RetrievalIndexGeneration) (p : Progress) : Prop where
  loadable : Loadable p.db p.store pending
  generations_eq : p.db.generations = generations
  ids : ∀ k < maxIndexChunks, p.chunkCount ≤ k →
    p.db.derivatives.get? (attempt.derivativeId k) = none
  unused : ∀ k < maxIndexChunks, p.chunkCount ≤ k → ∀ i d, p.db.derivatives.get? i = some d →
    d.contentAddress ≠ some (attempt.address k)
  unpended : ∀ k < maxIndexChunks, attempt.address k ∉ pending
  written : ∀ a, a ∈ p.store ↔ a ∈ store ∨ a ∈ p.created
  drawn : ∀ a ∈ p.created, ∃ k < maxIndexChunks, a = attempt.address k

theorem Progress.Kept.count (h : p.Kept attempt store pending generations) :
    { p with chunkCount := p.chunkCount + 1 }.Kept attempt store pending generations :=
  ⟨h.loadable, h.generations_eq, fun k hmax hk => h.ids k hmax (by dsimp only at hk; omega),
    fun k hmax hk => h.unused k hmax (by dsimp only at hk; omega), h.unpended, h.written, h.drawn⟩

theorem Progress.Kept.source (h : p.Kept attempt store pending generations) :
    { p with sourceCount := p.sourceCount + 1 }.Kept attempt store pending generations :=
  ⟨h.loadable, h.generations_eq, h.ids, h.unused, h.unpended, h.written, h.drawn⟩

/-- A registered chunk is loadable and takes nothing from the others. -/
theorem Loadable.register {db : IndexDatabase} (h : Loadable db store pending)
    {derivative : IndexDerivative} {address : String} {derivatives : Table IndexDerivative}
    {chunk : RetrievalIndexChunk}
    (hinsert : db.derivatives.insert? derivative = some derivatives)
    (haddress : derivative.contentAddress = some address) (hlive : derivative.deletedAt = none)
    (hpending : address ∉ pending)
    (hunused : ∀ i d, db.derivatives.get? i = some d → d.contentAddress ≠ some address)
    (hid : chunk.derivativeId = derivative.id)
    (hevidence : chunk.evidenceId = derivative.evidenceId) :
    Loadable { db with derivatives, chunks := db.chunks ++ [chunk] } (store ++ [address])
      pending := by
  have hnone : db.derivatives.get? derivative.id = none := (Table.insert?_eq_some.mp hinsert).1
  have hget : ∀ k, derivatives.get? k =
      if derivative.id = k then some derivative else db.derivatives.get? k :=
    fun k => Table.get?_insert? hinsert
  have hold : ∀ {k d}, db.derivatives.get? k = some d → derivatives.get? k = some d := by
    intro k d hd
    rw [hget, if_neg, hd]
    rintro rfl
    rw [hnone] at hd
    cases hd
  have hnotUsed : ∀ c ∈ db.chunks, c.deletedAt = none → c.derivativeId ≠ derivative.id := by
    intro c hc hclive heq
    obtain ⟨d, _, hd, -⟩ := h.loadable c hc hclive
    rw [heq, hnone] at hd
    cases hd
  refine ⟨h.one, ?_, ?_, ?_⟩
  · intro c hc hclive
    rcases List.mem_append.mp hc with hc | hc
    · obtain ⟨d, a, hd, hdlive, hdevidence, ha, hstore, hpend⟩ := h.loadable c hc hclive
      exact ⟨d, a, hold hd, hdlive, hdevidence, ha, List.mem_append_left _ hstore, hpend⟩
    · rw [List.mem_singleton.mp hc, hid, hevidence]
      refine ⟨derivative, address, ?_, hlive, rfl, haddress,
        List.mem_append_right _ (List.mem_singleton_self _), hpending⟩
      rw [hget, if_pos rfl]
  · intro c hc c' hc' hclive hclive' heq
    rcases List.mem_append.mp hc with hc | hc <;> rcases List.mem_append.mp hc' with hc' | hc'
    · exact h.own c hc c' hc' hclive hclive' heq
    · rw [List.mem_singleton.mp hc', hid] at heq
      exact absurd heq (hnotUsed c hc hclive)
    · rw [List.mem_singleton.mp hc, hid] at heq
      exact absurd heq.symm (hnotUsed c' hc' hclive')
    · rw [List.mem_singleton.mp hc, List.mem_singleton.mp hc']
  · intro i j d d' a hd hd' ha ha'
    rw [hget] at hd hd'
    split at hd <;> split at hd'
    · rename_i hi hj
      exact hi.symm.trans hj
    · rw [← Option.some.inj hd, haddress, Option.some.injEq] at ha
      exact absurd (ha ▸ ha') (hunused j d' hd')
    · rw [← Option.some.inj hd', haddress, Option.some.injEq] at ha'
      exact absurd (ha' ▸ ha) (hunused i d hd)
    · exact h.addresses hd hd' ha ha'

theorem indexChunk_kept (taskId : UUID)
    (hids : Set.InjOn attempt.derivativeId (Set.Iio maxIndexChunks))
    (haddresses : Set.InjOn attempt.address (Set.Iio maxIndexChunks))
    (hsteady : ∀ k < maxIndexChunks, attempt.fault k ≠ .behindWrite)
    (record : EvidenceRecord) (chunk : Chunk)
    (h : p.Kept attempt store pending generations) :
    (indexChunk taskId attempt record chunk p).1.Kept attempt store pending generations := by
  simp only [indexChunk]
  split
  · exact h.count
  · rename_i hlimit
    have hmax : p.chunkCount < maxIndexChunks := by omega
    split
    · exact h.count
    · rename_i hfault
      exact absurd hfault (hsteady _ hmax)
    · have hnone := h.ids p.chunkCount hmax le_rfl
      split
      · rename_i hinsert
        refine absurd hinsert (Option.ne_none_iff_exists'.mpr (Table.exists_insert? ?_))
        exact hnone
      · rename_i derivatives hinsert
        have hget : ∀ k, derivatives.get? k =
            if attempt.derivativeId p.chunkCount = k then _ else p.db.derivatives.get? k :=
          fun k => Table.get?_insert? hinsert
        refine ⟨h.loadable.register hinsert rfl rfl (h.unpended _ hmax)
          (h.unused _ hmax le_rfl) rfl rfl, h.generations_eq, ?_, ?_, h.unpended, ?_, ?_⟩
        · intro k hk hnext
          dsimp only at hnext ⊢
          rw [hget, if_neg (fun heq => by have := hids hmax hk heq; omega)]
          exact h.ids k hk (by omega)
        · intro k hk hnext i d hd
          dsimp only at hnext hd
          rw [hget] at hd
          split at hd
          · rw [← Option.some.inj hd]
            exact fun heq => by have := haddresses hmax hk (Option.some.inj heq); omega
          · exact h.unused k hk (by omega) i d hd
        · intro a
          dsimp only
          rw [List.mem_append, List.mem_append, h.written, or_assoc]
        · intro a ha
          rcases List.mem_append.mp ha with ha | ha
          · exact h.drawn a ha
          · exact ⟨_, hmax, List.mem_singleton.mp ha⟩

theorem indexChunks_kept (taskId : UUID)
    (hids : Set.InjOn attempt.derivativeId (Set.Iio maxIndexChunks))
    (haddresses : Set.InjOn attempt.address (Set.Iio maxIndexChunks))
    (hsteady : ∀ k < maxIndexChunks, attempt.fault k ≠ .behindWrite) (record : EvidenceRecord)
    (chunks : List Chunk) (h : p.Kept attempt store pending generations) :
    (indexChunks taskId attempt record chunks p).1.Kept attempt store pending generations := by
  induction chunks generalizing p with
  | nil => exact h
  | cons chunk rest ih =>
    have hone := indexChunk_kept taskId hids haddresses hsteady record chunk h
    rw [indexChunks]
    split
    · rename_i hchunk
      rw [hchunk] at hone
      exact ih hone
    · exact hone

theorem indexSources_kept (rt : Runtime) (unicodeDumps : Json → String) (evidence : Database)
    (taskId : UUID) (hids : Set.InjOn attempt.derivativeId (Set.Iio maxIndexChunks))
    (haddresses : Set.InjOn attempt.address (Set.Iio maxIndexChunks))
    (hsteady : ∀ k < maxIndexChunks, attempt.fault k ≠ .behindWrite)
    (projections : List VerifiedEvidenceProjection)
    (h : p.Kept attempt store pending generations) :
    (indexSources rt unicodeDumps evidence taskId attempt projections p).1.Kept attempt store
      pending generations := by
  induction projections generalizing p with
  | nil => exact h
  | cons projection rest ih =>
    rw [indexSources]
    split
    · exact h
    · exact ih h
    · rename_i record text _
      have hchunks := indexChunks_kept taskId hids haddresses hsteady record
        (chunks text) h.source
      split
      · rename_i hdone
        rw [hdone] at hchunks
        exact ih hchunks
      · exact hchunks

/-- The rows with a new generation, when no other of the task is live. -/
theorem Loadable.begin {db : IndexDatabase} {generation : RetrievalIndexGeneration}
    (h : Loadable db store pending)
    (hretired : ∀ g ∈ db.generations, g.taskId = generation.taskId → g.deletedAt ≠ none)
    (hinsert : db.generations.insert? generation = some generations) :
    Loadable { db with generations } store pending := by
  refine ⟨?_, h.loadable, h.own, h.addresses⟩
  intro g hg g' hg' hlive hlive' htask
  rcases (Table.mem_insert? hinsert).mp hg with hg | rfl <;>
    rcases (Table.mem_insert? hinsert).mp hg' with hg' | rfl
  · exact h.one g hg g' hg' hlive hlive' htask
  · exact absurd hlive (hretired g hg htask)
  · exact absurd hlive' (hretired g' hg' htask.symm)
  · rfl

/-- The counts of a generation say nothing about what is live. -/
theorem Loadable.counted {db : IndexDatabase} {generation : RetrievalIndexGeneration}
    (h : Loadable db store pending) (hmem : generation ∈ db.generations) (sources chunks : ℕ) :
    Loadable
      { db with
        generations := db.generations.set
          { generation with sourceCount := sources, chunkCount := chunks } } store pending := by
  refine ⟨?_, h.loadable, h.own, h.addresses⟩
  have hbefore : ∀ g ∈ db.generations.set
      { generation with sourceCount := sources, chunkCount := chunks },
      ∃ g' ∈ db.generations, g'.id = g.id ∧ g'.taskId = g.taskId ∧
        g'.deletedAt = g.deletedAt := by
    intro g hg
    have hpresent : db.generations.get?
        (key { generation with sourceCount := sources, chunkCount := chunks }) ≠ none := by
      have hget : db.generations.get? generation.id = some generation := Table.get?_key hmem
      exact hget ▸ Option.some_ne_none generation
    rcases (Table.mem_set hpresent).mp hg with rfl | ⟨hold, -⟩
    · exact ⟨generation, hmem, rfl, rfl, rfl⟩
    · exact ⟨g, hold, rfl, rfl, rfl⟩
  intro g hg g' hg' hlive hlive' htask
  obtain ⟨b, hb, hbid, hbtask, hblive⟩ := hbefore g hg
  obtain ⟨b', hb', hbid', hbtask', hblive'⟩ := hbefore g' hg'
  rw [← hbid, ← hbid']
  exact h.one b hb b' hb' (hblive.trans hlive) (hblive'.trans hlive')
    (hbtask.trans (htask.trans hbtask'.symm))

/-- More artifacts, and deletions that no derivative asks for, take nothing from the rows. -/
theorem Loadable.widen {db : IndexDatabase} {store' pending' : List String}
    (h : Loadable db store pending) (hstore : ∀ a ∈ store, a ∈ store')
    (hpending : ∀ a ∈ pending', a ∈ pending ∨
      ∀ d ∈ db.derivatives, d.contentAddress ≠ some a) : Loadable db store' pending' := by
  refine ⟨h.one, ?_, h.own, h.addresses⟩
  intro c hc hlive
  obtain ⟨d, a, hd, hdlive, hevidence, ha, hin, hout⟩ := h.loadable c hc hlive
  refine ⟨d, a, hd, hdlive, hevidence, ha, hstore a hin, fun hin' => ?_⟩
  rcases hpending a hin' with hin' | hnone
  · exact hout hin'
  · exact hnone d (Table.mem_of_get? hd) ha

/-- What an attempt leaves that meets no error behind a write. -/
inductive RebuildResult.Kept (attempt : Attempt) (taskId : UUID) (s : IndexState) :
    RebuildResult → Prop
  | failed (store created : List String) (error : RetrievalIndexError)
      (hwritten : ∀ a, a ∈ store ↔ a ∈ s.store ∨ a ∈ created)
      (hdrawn : ∀ a ∈ created, ∃ k < maxIndexChunks, a = attempt.address k) :
      Kept attempt taskId s ⟨s.db, store, created, some error⟩
  | committed (db : IndexDatabase) (store retired : List String)
      (hloadable : Loadable db store (s.pending ++ retired))
      (hlive : ∃ g ∈ db.generations, g.taskId = taskId ∧ g.id = attempt.generationId ∧
        g.deletedAt = none)
      (hwritten : ∀ a ∈ store, a ∈ s.store ∨ ∃ k < maxIndexChunks, a = attempt.address k) :
      Kept attempt taskId s ⟨db, store, retired, none⟩

theorem RebuildResult.Kept.unwritten {s : IndexState} (error : RetrievalIndexError) :
    RebuildResult.Kept attempt taskId s ⟨s.db, s.store, [], some error⟩ :=
  .failed s.store [] error (fun a => by simp) (by simp)

/-- An attempt begins with the old index retired and a generation without chunks. -/
theorem kept_begin {s : IndexState} {generation : RetrievalIndexGeneration}
    (h : Loadable s.db s.store s.pending) (hfresh : attempt.Fresh s)
    (htask : generation.taskId = taskId)
    (hinsert : (retireIndex s.db taskId attempt.now).2.generations.insert? generation =
      some generations) :
    Progress.Kept attempt s.store (s.pending ++ (retireIndex s.db taskId attempt.now).1)
      generations
      { db := { (retireIndex s.db taskId attempt.now).2 with generations }
        store := s.store } := by
  obtain ⟨hloadable, hretired, hknown, hkept⟩ := retireIndex_loadable attempt.now h
  refine ⟨hloadable.begin (fun g hg hgtask => hretired g hg (hgtask.trans htask)) hinsert, rfl,
    fun k hk _ => hknown _ (Table.get?_eq_none.mpr (hfresh.id_new k hk)), ?_, ?_, fun a => by simp,
    by simp⟩
  · intro k hk _ i d hd ha
    exact (hfresh.address_new k hk).2.2.2 d (Table.mem_of_get? (hkept hd ha)) ha
  · intro k hk hin
    rcases List.mem_append.mp hin with hin | hin
    · exact (hfresh.address_new k hk).2.1 hin
    · obtain ⟨d, hd, ha⟩ := retireIndex_given hin
      exact (hfresh.address_new k hk).2.2.2 d hd ha

theorem rebuild_kept (rt : Runtime) (unicodeDumps : Json → String) (evidence : Database)
    (taskId : UUID) {s : IndexState} (h : Loadable s.db s.store s.pending)
    (hfresh : attempt.Fresh s) (hsteady : ∀ k < maxIndexChunks, attempt.fault k ≠ .behindWrite)
    (projections : List VerifiedEvidenceProjection) :
    (rebuild rt unicodeDumps evidence taskId attempt projections s.db s.store).Kept attempt taskId
      s := by
  simp only [rebuild]
  split
  · exact .unwritten _
  · split
    · exact .unwritten _
    · split
      · exact .unwritten _
      · rename_i generations hinsert
        have hkept := indexSources_kept rt unicodeDumps evidence taskId hfresh.id_injective
          hfresh.address_injective hsteady projections (kept_begin h hfresh rfl hinsert)
        split
        · rename_i p e hrun
          rw [hrun] at hkept
          exact .failed _ _ _ hkept.written hkept.drawn
        · rename_i p hrun
          rw [hrun] at hkept
          split
          · exact .failed _ _ _ hkept.written hkept.drawn
          · have hmem : _ ∈ p.db.generations :=
              hkept.generations_eq ▸ (Table.mem_insert? hinsert).mpr (.inr rfl)
            refine .committed _ _ _ (hkept.loadable.counted hmem _ _) ?_ ?_
            · refine ⟨_, (Table.mem_set ?_).mpr (.inl rfl), rfl, rfl, rfl⟩
              exact (Table.get?_key hmem).symm ▸ Option.some_ne_none _
            · intro a ha
              exact ((hkept.written a).mp ha).imp_right (hkept.drawn a)

end Attempts

/-! ### Deleting evidence -/

section Deleting
variable {db : IndexDatabase} {store pending : List String} {evidenceId : UUID} {now : Time}

theorem destroyDerivative_eq_self {d : IndexDerivative}
    (h : (destroyDerivative evidenceId now d).contentAddress ≠ none ∨ d.evidenceId ≠ evidenceId) :
    destroyDerivative evidenceId now d = d := by
  rw [destroyDerivative] at h ⊢
  split
  · rename_i hdestroyed
    rw [if_pos hdestroyed] at h
    rcases h with h | h
    · exact absurd rfl h
    · exact absurd hdestroyed.1 h
  · rfl

theorem get?_finalizeDeletion (id : UUID) :
    (finalizeDeletion evidenceId now false db store).1.derivatives.get? id =
      (db.derivatives.get? id).map (destroyDerivative evidenceId now) := by
  have hkey : ∀ d, key (destroyDerivative evidenceId now d) = key d := by
    intro d
    rw [destroyDerivative]
    split <;> rfl
  simp only [finalizeDeletion, Table.get?, Bool.false_eq_true, if_false, List.find?_map]
  congr 2
  funext d
  rw [Function.comp_apply, hkey]

theorem finalizeDeletion_loadable (h : Loadable db store pending) :
    Loadable (finalizeDeletion evidenceId now false db store).1
      (finalizeDeletion evidenceId now false db store).2 pending := by
  have hold : ∀ {id d a}, (finalizeDeletion evidenceId now false db store).1.derivatives.get? id =
      some d → d.contentAddress = some a → db.derivatives.get? id = some d := by
    intro id d a hd ha
    rw [get?_finalizeDeletion, Option.map_eq_some_iff] at hd
    obtain ⟨d', hd', rfl⟩ := hd
    rw [destroyDerivative_eq_self (.inl (ha ▸ Option.some_ne_none a))]
    exact hd'
  have hchunks : ∀ c ∈ (finalizeDeletion evidenceId now false db store).1.chunks,
      c.deletedAt = none → c ∈ db.chunks ∧ c.evidenceId ≠ evidenceId := by
    intro c' hc' hlive
    simp only [finalizeDeletion, Bool.false_eq_true, if_false] at hc'
    obtain ⟨c, hc, rfl⟩ := List.mem_map.mp hc'
    split at hlive
    · cases hlive
    · rename_i hkeep
      rw [if_neg hkeep]
      exact ⟨hc, fun heq => hkeep ⟨heq, by simp [hlive]⟩⟩
  refine ⟨h.one, ?_, ?_, ?_⟩
  · intro c hc hlive
    obtain ⟨hc, hother⟩ := hchunks c hc hlive
    obtain ⟨d, a, hd, hdlive, hevidence, ha, hstore, hpending⟩ := h.loadable c hc hlive
    refine ⟨d, a, ?_, hdlive, hevidence, ha, ?_, hpending⟩
    · rw [get?_finalizeDeletion, hd, Option.map_some,
        destroyDerivative_eq_self (.inr (hevidence ▸ hother))]
    · -- the derivative of another record has another address
      simp only [finalizeDeletion, Bool.false_eq_true, if_false, List.mem_filter, decide_eq_true_eq]
      refine ⟨hstore, fun hin => ?_⟩
      obtain ⟨d', hd', ha'⟩ := List.mem_filterMap.mp hin
      obtain ⟨hd', hdestroyed⟩ := List.mem_filter.mp hd'
      simp only [Bool.and_eq_true, decide_eq_true_eq] at hdestroyed
      have hget : db.derivatives.get? d'.id = some d' := Table.get?_key hd'
      have hid := h.addresses hd hget ha ha'
      rw [hid, hget, Option.some.injEq] at hd
      exact hother (hevidence ▸ hd ▸ hdestroyed.1)
  · intro c hc c' hc' hlive hlive' heq
    exact h.own c (hchunks c hc hlive).1 c' (hchunks c' hc' hlive').1 hlive hlive' heq
  · intro i j d d' a hd hd' ha ha'
    exact h.addresses (hold hd ha) (hold hd' ha') ha ha'

end Deleting

/-! ### Runs -/

section Runs
variable {rt : Runtime} {unicodeDumps : Json → String} {s : IndexState}

/-- What holds between the steps of a run: the artifact of a failed attempt is gone or about to
be deleted. -/
structure IndexState.Intact (s : IndexState) : Prop where
  loadable : Loadable s.db s.store s.pending
  abandoned : ∀ a ∈ s.abandoned, a ∈ s.pending ∨ a ∉ s.store

theorem Loadable.loads {db : IndexDatabase} {store pending : List String}
    (h : Loadable db store pending) : Loads db (store.filter (· ∉ pending)) := by
  refine ⟨h.one, fun c hc hlive => ?_⟩
  obtain ⟨d, a, hd, hdlive, -, ha, hin, hout⟩ := h.loadable c hc hlive
  exact ⟨d, a, hd, hdlive, ha, List.mem_filter.mpr ⟨hin, decide_eq_true hout⟩⟩

theorem Loads.mono {db : IndexDatabase} {store store' : List String} (h : Loads db store)
    (hstore : ∀ a ∈ store, a ∈ store') : Loads db store' := by
  refine ⟨h.one, fun c hc hlive => ?_⟩
  obtain ⟨d, a, hd, hdlive, ha, hin⟩ := h.loadable c hc hlive
  exact ⟨d, a, hd, hdlive, ha, hstore a hin⟩

theorem IndexState.Intact.rebuilt {result : RebuildResult} {attempt : Attempt} {taskId : UUID}
    (h : s.Intact) (hfresh : attempt.Fresh s) (hkept : result.Kept attempt taskId s) :
    (s.rebuilt result).Intact := by
  cases hkept with
  | failed store created error hwritten hdrawn =>
    have hpended : ∀ a ∈ store, a ∉ s.store → a ∈ s.pending ++ created := by
      intro a ha hnew
      exact List.mem_append_right _ (((hwritten a).mp ha).resolve_left hnew)
    refine ⟨h.loadable.widen (fun a ha => (hwritten a).mpr (.inl ha)) fun a ha => ?_,
      fun a ha => ?_⟩
    · refine (List.mem_append.mp ha).imp_right fun hcreated => ?_
      obtain ⟨k, hk, rfl⟩ := hdrawn a hcreated
      exact (hfresh.address_new k hk).2.2.2
    · by_cases hstore : a ∈ store
      · refine .inl ?_
        by_cases hbefore : a ∈ s.store
        · rcases List.mem_append.mp ha with ha | ha
          · exact List.mem_append_left _ ((h.abandoned a ha).resolve_right (not_not.mpr hbefore))
          · exact absurd hbefore (by simpa using (List.mem_filter.mp ha).2)
        · exact hpended a hstore hbefore
      · exact .inr hstore
  | committed db store retired hloadable hlive hwritten =>
    refine ⟨hloadable, fun a ha => ?_⟩
    refine (h.abandoned a ha).imp (List.mem_append_left _) fun hgone hin => ?_
    rcases hwritten a hin with hbefore | ⟨k, hk, rfl⟩
    · exact hgone hbefore
    · exact (hfresh.address_new k hk).2.2.1 ha

theorem IndexState.Intact.act (h : s.Intact) {a : IndexAction} (hadmissible : a.Admissible s)
    (hsteady : a.Steady) : (s.act rt unicodeDumps a).Intact := by
  cases a with
  | rebuild evidence taskId attempt projections =>
    exact h.rebuilt hadmissible (rebuild_kept rt unicodeDumps evidence taskId h.loadable
      hadmissible hsteady projections)
  | erase address =>
    rw [IndexState.act]
    split
    · rename_i hpended
      refine ⟨⟨h.loadable.one, ?_, h.loadable.own, h.loadable.addresses⟩, ?_⟩
      · intro c hc hlive
        obtain ⟨d, a, hd, hdlive, hevidence, ha, hin, hout⟩ := h.loadable.loadable c hc hlive
        refine ⟨d, a, hd, hdlive, hevidence, ha, ?_, fun hin' => hout (List.mem_filter.mp hin').1⟩
        exact List.mem_filter.mpr ⟨hin, decide_eq_true fun heq => hout (heq ▸ hpended)⟩
      · intro a ha
        by_cases heq : a = address
        · exact .inr fun hin => by simpa [heq] using (List.mem_filter.mp hin).2
        · exact (h.abandoned a ha).imp (fun hin => List.mem_filter.mpr ⟨hin, decide_eq_true heq⟩)
            fun hgone hin => hgone (List.mem_filter.mp hin).1
    · exact h
  | deleteIndex taskId now =>
    exact ⟨(retireIndex_loadable now h.loadable).1,
      fun a ha => (h.abandoned a ha).imp_left (List.mem_append_left _)⟩
  | finalizeDeletion evidenceId now commitFails =>
    obtain rfl : commitFails = false := hsteady
    refine ⟨finalizeDeletion_loadable h.loadable, fun a ha => ?_⟩
    exact (h.abandoned a ha).imp_right fun hgone hin => hgone (List.mem_filter.mp hin).1

theorem intact_of_reachable
    (h : (indexSystem rt unicodeDumps IndexAction.Steady).Reachable s) : s.Intact := by
  refine h.invariant ?_ ?_
  · rintro _ rfl
    refine ⟨⟨?_, ?_, ?_, ?_⟩, ?_⟩
    · intro g hg
      cases hg
    · intro c hc
      cases hc
    · intro c hc
      cases hc
    · intro i j d d' address hd
      cases hd
    · intro a ha
      cases ha
  · rintro s _ hs ⟨a, hsteady, hadmissible, rfl⟩
    exact hs.act hadmissible hsteady

/-- In a run without an error behind a write and without a deletion of evidence rolled back,
every rebuild is atomic. -/
theorem rebuild_runs_atomic
    (h : (indexSystem rt unicodeDumps IndexAction.Steady).Reachable s) :
    s.Atomic rt unicodeDumps IndexAction.Steady := by
  have hintact := intact_of_reachable h
  refine ⟨hintact.loadable.loads.mono fun a ha => (List.mem_filter.mp ha).1, ?_, ?_⟩
  · intro evidence taskId attempt projections hsteady hfresh result herror
    have hkept := rebuild_kept rt unicodeDumps evidence taskId hintact.loadable hfresh hsteady
      projections
    change result.Kept attempt taskId s at hkept
    generalize result = result at hkept herror
    cases hkept with
    | failed store created error hwritten hdrawn =>
      refine ⟨rfl, fun a => ?_⟩
      simp only [RebuildResult.cleaned, List.mem_filter, decide_eq_true_eq, hwritten]
      constructor
      · rintro ⟨hin | hin, hout⟩
        · exact hin
        · exact absurd hin hout
      · intro hin
        refine ⟨.inl hin, fun hcreated => ?_⟩
        obtain ⟨k, hk, rfl⟩ := hdrawn a hcreated
        exact (hfresh.address_new k hk).1 hin
    | committed => exact absurd rfl herror
  · intro evidence taskId attempt projections hsteady hfresh result herror
    have hkept := rebuild_kept rt unicodeDumps evidence taskId hintact.loadable hfresh hsteady
      projections
    change result.Kept attempt taskId s at hkept
    generalize result = result at hkept herror
    cases hkept with
    | failed => cases herror
    | committed db store retired hloadable hlive hwritten =>
      refine ⟨hloadable.loads.mono fun a ha => ?_, hlive⟩
      obtain ⟨hin, hout⟩ := List.mem_filter.mp ha
      refine List.mem_filter.mpr ⟨hin, decide_eq_true fun hretired => ?_⟩
      exact of_decide_eq_true hout (List.mem_append_right _ hretired)

end Runs

/-! ### A source of one character -/

section Indexed

def indexedTask : Task where
  id := .ofNat 1
  repository := "mathews"
  ownerId := localOwnerId
  rootCorrelationId := .ofNat 1

def indexedEnvelope : EvidenceEnvelope where
  evidenceId := .ofNat 10
  sourceKind := .request
  evidenceType := "task-request"
  origin := "browser"
  capturedAt := 3
  taskId := some (.ofNat 1)
  validationRunId := none
  ownerId := localOwnerId
  actorId := "worker"
  rootCorrelationId := .ofNat 1
  causationId := none
  parentCorrelationId := none
  correctionOfId := none
  accessClassification := .taskOwner
  retentionPolicy := .taskLifetime
  mediaType := .text
  redactionManifest := []
  contentHash := digest .plain "a"
  content := .str "a"

def indexedRecord : EvidenceRecord := indexedEnvelope.record .plain

def indexedDatabase : Database where
  tasks := ⟨[indexedTask], by decide⟩
  evidenceRecords := ⟨[indexedRecord], by decide⟩

def indexedProjection : VerifiedEvidenceProjection where
  evidenceId := indexedRecord.id
  projectionClass := .request
  evidenceType := indexedRecord.evidenceType
  sourceKind := some .request
  origin := indexedRecord.origin
  actorId := indexedRecord.actorId
  taskId := indexedRecord.taskId
  validationRunId := none
  capturedAt := indexedRecord.capturedAt
  rootCorrelationId := indexedRecord.rootCorrelationId
  causationId := none
  parentCorrelationId := none
  envelopeHash := indexedRecord.contentHash
  contentHash := some indexedEnvelope.contentHash
  verificationStatus := .verified
  lineageStatus := .current
  accessClassification := indexedRecord.accessClassification
  retentionPolicy := indexedRecord.retentionPolicy
  correctionOfId := none
  correctedById := none
  deletionReason := none
  deletedAt := none
  derivatives := []
  taskEventReferences := []

/-- An attempt whose registrations all meet the same fault, or none. -/
def indexedAttempt (fault : RegistrationFault) : Attempt where
  generationId := .ofNat 40
  indexVersion := "1"
  now := 7
  derivativeId := fun k => .ofNat (100 + k)
  address := fun k => (UUID.ofNat k).str
  fault := fun _ => fault
  startFails := false
  commitFails := false

theorem ofNat_inj {m n : ℕ} (hm : m < 2 ^ 128) (hn : n < 2 ^ 128)
    (h : UUID.ofNat m = UUID.ofNat n) : m = n := by
  have hbits := congrArg (fun u : UUID => u.bits.toNat) h
  simpa only [UUID.ofNat, BitVec.toNat_ofNat, Nat.mod_eq_of_lt hm, Nat.mod_eq_of_lt hn] using hbits

theorem indexedAttempt_fresh (fault : RegistrationFault) : (indexedAttempt fault).Fresh {} := by
  refine ⟨fun j hj k hk h => ?_, fun j hj k hk h => ?_, fun k _ d hd => ?_, fun k _ => ?_⟩
  · rw [Set.mem_Iio, maxIndexChunks] at hj hk
    have := ofNat_inj (by omega) (by omega) h
    omega
  · rw [Set.mem_Iio, maxIndexChunks] at hj hk
    exact ofNat_inj (by omega) (by omega) (UUID.str_injective h)
  · cases hd
  · refine ⟨List.not_mem_nil, List.not_mem_nil, List.not_mem_nil, fun d hd => ?_⟩
    cases hd

theorem chunks_indexed : chunks ['a'] = [⟨1, 0, 1, ['a']⟩] := by
  rw [chunks, if_neg (by simp), chunksFrom]
  rfl

theorem readSource_indexed :
    readSource .plain Runtime.plain.dumps indexedDatabase indexedProjection =
      .ok (some (indexedRecord, ['a'])) := by
  rfl

/-- The index of the task after an attempt. -/
def indexedState (fault : RegistrationFault) : IndexState :=
  ({} : IndexState).act .plain Runtime.plain.dumps
    (.rebuild indexedDatabase indexedTask.id (indexedAttempt fault) [indexedProjection])

theorem rebuild_indexed (fault : RegistrationFault) :
    rebuild .plain Runtime.plain.dumps indexedDatabase indexedTask.id (indexedAttempt fault)
        [indexedProjection] {} [] =
      match fault with
      | .none => ⟨(indexedState .none).db, [(UUID.ofNat 0).str], [], none⟩
      | .beforeWrite => ⟨{}, [], [], some .storage⟩
      | .behindWrite => ⟨{}, [(UUID.ofNat 0).str], [], some .storage⟩ := by
  cases fault <;>
    simp only [indexedState, IndexState.act, IndexState.rebuilt, rebuild, indexSources,
      readSource_indexed, chunks_indexed, indexChunks] <;> rfl

theorem indexedState_reachable :
    (indexSystem .plain Runtime.plain.dumps IndexAction.Steady).Reachable (indexedState .none) := by
  refine .tail (.of_init rfl) ⟨.rebuild indexedDatabase indexedTask.id (indexedAttempt .none)
    [indexedProjection], fun k _ => ?_, indexedAttempt_fresh .none, rfl⟩
  exact RegistrationFault.noConfusion

/-- A run that indexes the source, and what a further rebuild promises there. -/
theorem indexed_atomic :
    (∃ c ∈ (indexedState .none).db.chunks, c.deletedAt = none) ∧
    (indexedState .none).Atomic .plain Runtime.plain.dumps IndexAction.Steady := by
  refine ⟨?_, rebuild_runs_atomic indexedState_reachable⟩
  simp only [indexedState, IndexState.act, IndexState.rebuilt, rebuild, indexSources,
      readSource_indexed, chunks_indexed, indexChunks]
  exact ⟨_, List.mem_cons_self, rfl⟩

/-- An error behind the write of the first artifact leaves it in the store. -/
theorem not_rebuild_atomic :
    ¬ ∀ s, (indexSystem .plain Runtime.plain.dumps fun _ => True).Reachable s →
      s.Atomic .plain Runtime.plain.dumps fun _ => True := by
  intro h
  have hfailed := (h {} (.of_init rfl)).failed indexedDatabase indexedTask.id
    (indexedAttempt .behindWrite) [indexedProjection] trivial (indexedAttempt_fresh .behindWrite)
  simp only [rebuild_indexed] at hfailed
  have hleft := ((hfailed (by simp)).2 (UUID.ofNat 0).str).mp
  exact List.not_mem_nil (hleft List.mem_cons_self)

/-- A deletion of evidence that is rolled back leaves a live chunk without its artifact. -/
theorem not_loads_rolledBack :
    ¬ Loads (finalizeDeletion indexedRecord.id 8 true (indexedState .none).db
        (indexedState .none).store).1
      (finalizeDeletion indexedRecord.id 8 true (indexedState .none).db
        (indexedState .none).store).2 := by
  simp only [indexedState, IndexState.act, IndexState.rebuilt, rebuild, indexSources,
      readSource_indexed, chunks_indexed, indexChunks]
  intro h
  obtain ⟨d, address, -, -, -, hstored⟩ := h.loadable _ List.mem_cons_self rfl
  exact List.not_mem_nil (a := address) hstored

end Indexed

end ControlPlane.Retrieval
