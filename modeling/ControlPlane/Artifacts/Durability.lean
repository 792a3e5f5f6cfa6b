import ControlPlane.Artifacts.Soundness
import Mathlib.Data.Set.Basic

/-!
# Stored artifacts stay

What a `put` has stored can be read until a `delete` of its address removes the final name or
the path of its shard is detached, whatever else runs.

## Main definitions

* `Removes`: the steps that take an artifact away.
* `Present`: the final name of an address is there.

## Main results

* `kept_until_deleted`: what calls that start in a run without such steps end with.
-/
namespace ControlPlane.ArtifactStore

/-! ### Presence -/

/-- The path of the shard leads to a directory with the final name of the address. -/
def Present (fs : FileSystem) (digits : Hex) : Prop :=
  ∃ d, fs.resolve (shardOf digits) = some d ∧ (fs.entries d (nameOf digits)).isSome

/-- The directory whose artifact a call takes back, since the path leads elsewhere. -/
def Phase.retracts : Phase → Option Directory
  | .retracting d _ | .removing d _ => some d
  | _ => none

section Presence
variable {sha256 : Bytes → Hex} {fs fs' : FileSystem} {others : Set Process} {p p' : Process}
  {digits : Hex}

/-- What a step of a call does to the paths: it makes an empty directory, or nothing. -/
theorem Act.resolve (hact : Act sha256 fs others p fs' p') :
    fs'.resolve = fs.resolve ∨ ∃ d, (∀ name, fs.entries d name = none) ∧
      fs.resolve (shardOf p.digits) = none ∧ p.phase = .opening ∧
      p'.phase = .searching d none ∧ d.shard = shardOf p.digits ∧
      fs' = fs.setPath (shardOf p.digits) (some d) := by
  cases hact with
  | advance hlive =>
    left
    unfold ArtifactStore.advance
    repeat' split
    all_goals rfl
  | makeDirectory hlive hphase hcall hmissing hshard hempty =>
    exact .inr ⟨_, hempty, hmissing, hphase, rfl, hshard, rfl⟩
  | create | write | fail | stop => exact .inl rfl

theorem isSome_link {d d' : Directory} {name name' : Name} {file : Inode}
    (h : (fs.entries d name).isSome) : ((fs.link d' name' file).entries d name).isSome := by
  rw [FileSystem.link, FileSystem.setEntry_entries]
  split
  · rfl
  · exact h

theorem isSome_unlink {d : Directory} {name : Name} (d' : Directory) (name' : Name)
    (h : (fs.entries d name).isSome) :
    ((fs.unlink d' name').entries d name).isSome ∨ d = d' ∧ name = name' := by
  rw [FileSystem.unlink, FileSystem.setEntry_entries]
  split
  · exact .inr (by assumption)
  · exact .inl h

/-- Which final names the next call of the file system takes away. -/
theorem removed_of_advance (sha256 : Bytes → Hex) (p : Process) {d : Directory} {name : Hex}
    (h : (fs.entries d (.artifact name)).isSome) :
    ((advance sha256 fs p).1.entries d (.artifact name)).isSome ∨
      nameOf p.digits = .artifact name ∧ ((∃ t, p.phase = .removing d t) ∨
        p.phase = .unlinking d ∧ (advance sha256 fs p).2 = .finished (.deleted true)) := by
  cases hphase : p.phase with
  | removing d' t =>
    simp only [advance, hphase]
    split
    · rcases isSome_unlink d' (nameOf p.digits) h with hkept | ⟨rfl, hname⟩
      · exact .inl hkept
      · exact .inr ⟨hname.symm, .inl ⟨t, rfl⟩⟩
    · exact .inl h
  | unlinking d' =>
    simp only [advance, hphase]
    split
    · rcases isSome_unlink d' (nameOf p.digits) h with hkept | ⟨rfl, hname⟩
      · exact .inl hkept
      · exact .inr ⟨hname.symm, .inr ⟨rfl, rfl⟩⟩
    · exact .inl h
  | cleaning d' t outcome =>
    simp only [advance, hphase]
    rcases isSome_unlink d' (.temporary t.token) h with hkept | ⟨-, hname⟩
    · exact .inl hkept
    · cases hname
  | linking d' t =>
    left
    simp only [advance, hphase]
    split
    · exact isSome_link h
    · exact h
  | _ =>
    left
    simp only [advance, hphase]
    repeat' split
    all_goals exact h

/-- A step of a call leaves the paths that lead somewhere. -/
theorem Act.path (hact : Act sha256 fs others p fs' p') {shard : Hex} {d : Directory}
    (h : fs.resolve shard = some d) : fs'.resolve shard = some d := by
  rcases hact.resolve with hresolve | ⟨d', -, hmissing, -, -, -, rfl⟩
  · rwa [hresolve]
  · have hshard : shard ≠ shardOf p.digits := by
      rintro rfl
      rw [hmissing] at h
      cases h
    exact (Function.update_of_ne hshard _ _).trans h

/-- Which final names a step of a call takes away. -/
theorem Act.removed (hact : Act sha256 fs others p fs' p') {d : Directory} {name : Hex}
    (h : (fs.entries d (.artifact name)).isSome) :
    (fs'.entries d (.artifact name)).isSome ∨ nameOf p.digits = .artifact name ∧
      ((∃ t, p.phase = .removing d t) ∨
        p.phase = .unlinking d ∧ p' = p.goto (.finished (.deleted true))) := by
  cases hact with
  | advance hlive =>
    rcases removed_of_advance sha256 p h with hkept | ⟨hname, hphase⟩
    · exact .inl hkept
    · refine .inr ⟨hname, hphase.imp_right fun hdone => ⟨hdone.1, ?_⟩⟩
      rw [hdone.2]
  | create hlive hphase hfree hunused => exact .inl (isSome_link h)
  | makeDirectory | write | fail | stop => exact .inl h

theorem Phase.temporary_of_retracts {phase : Phase} {d : Directory}
    (h : phase.retracts = some d) : ∃ t, phase.temporary = some (d, t) := by
  cases phase with
  | retracting d' t | removing d' t =>
    obtain rfl := Option.some.inj h
    exact ⟨t, rfl⟩
  | _ => cases h

theorem Act.same (hact : Act sha256 fs others p fs' p') :
    p'.digits = p.digits ∧ p'.call = p.call := by
  cases hact <;> exact ⟨rfl, rfl⟩

theorem FileSystem.setPath_resolve {shard shard' : Hex} {target : Option Directory} {d : Directory}
    (h : (fs.setPath shard target).resolve shard' = some d) :
    shard' = shard ∧ target = some d ∨ shard' ≠ shard ∧ fs.resolve shard' = some d := by
  by_cases hshard : shard' = shard
  · subst hshard
    exact .inl ⟨rfl, by simpa [FileSystem.setPath] using h⟩
  · exact .inr ⟨hshard, by simpa [FileSystem.setPath, Function.update_of_ne hshard] using h⟩

theorem Phase.retracts_ending (phase : Phase) (outcome : Outcome) :
    (phase.ending outcome).retracts = none := by
  unfold Phase.ending
  split <;> rfl

/-- A call takes an artifact back only when the path leads elsewhere. -/
theorem Act.retracts (hact : Act sha256 fs others p fs' p') {d : Directory}
    (h : p'.phase.retracts = some d) :
    fs'.resolve = fs.resolve ∧
      (p.phase.retracts = some d ∨ fs.resolve (shardOf p.digits) ≠ some d) := by
  cases hact with
  | advance hlive =>
    revert h
    unfold Process.goto ArtifactStore.advance
    dsimp only
    cases hphase : p.phase with
    | installed d' t =>
      dsimp only
      split
      · exact nofun
      · rename_i hne
        intro h
        obtain rfl := Option.some.inj h
        exact ⟨rfl, .inr hne⟩
    | retracting d' t =>
      dsimp only
      split
      · split
        · exact fun h => ⟨rfl, .inl h⟩
        · exact nofun
      · exact nofun
    | reading d' t file =>
      dsimp only
      split
      · exact nofun
      · intro h
        rw [Phase.retracts_ending] at h
        cases h
    | confirming d' t found =>
      dsimp only
      intro h
      rw [Phase.retracts_ending] at h
      cases h
    | _ =>
      dsimp only
      repeat' split
      all_goals
        intro h
        cases h
  | makeDirectory | create => cases h
  | write | stop => exact ⟨rfl, .inl h⟩
  | fail =>
    rw [Process.goto, Phase.retracts_ending] at h
    cases h

end Presence

/-! ### Runs in which nothing is removed -/

section Runs
variable {ι : Type*} [DecidableEq ι] {sha256 : Bytes → Hex} {digits : Hex}
  {s s' : Interleaved FileSystem Process ι}

/-- A step that takes the artifact of an address away: the path of its shard is detached, or a
`delete` removes its final name. -/
def Removes (digits : Hex) (s s' : Interleaved FileSystem Process ι) : Prop :=
  (s.shared.resolve (shardOf digits)).isSome ∧ s'.shared.resolve (shardOf digits) = none ∨
    ∃ i p d, s.processes i = some p ∧ p.digits = digits ∧ p.phase = .unlinking d ∧
      s'.processes i = some (p.goto (.finished (.deleted true)))

/-- A step that takes the artifact of an address away from nobody. -/
def Quiet (sha256 : Bytes → Hex) (digits : Hex) (s s' : Interleaved FileSystem Process ι) : Prop :=
  ((store sha256).system ι).step s s' ∧ ¬ Removes digits s s'

/-- No call takes back an artifact to which the path leads. -/
def Retracted (s : Interleaved FileSystem Process ι) : Prop :=
  ∀ i p d, s.processes i = some p → p.phase.retracts = some d →
    s.shared.resolve (shardOf p.digits) ≠ some d

theorem Retracted.step (h : Retracted s) (hasserts : Processes.Asserts (Sound sha256) (Own sha256)
    Apart s) (hstep : ((store sha256).system ι).step s s') : Retracted s' := by
  intro j q d hq hretracts
  cases hstep with
  | start i p hfree hstart =>
    obtain ⟨-, rfl⟩ | ⟨-, hq'⟩ := Processes.at_update hq
    · rw [hstart.2.1] at hretracts
      cases hretracts
    · exact h j q d hq' hretracts
  | @act i p p' fs' hat hact =>
    obtain ⟨rfl, rfl⟩ | ⟨hj, hq'⟩ := Processes.at_update hq
    · obtain ⟨hresolve, hbefore⟩ := hact.retracts hretracts
      rw [hresolve, hact.same.1]
      exact hbefore.elim (h j p d hat) id
    · have hne := h j q d hq' hretracts
      rcases hact.resolve with hresolve | ⟨d', hempty, hmissing, -, -, -, hpath⟩
      · rw [hresolve]
        exact hne
      · obtain ⟨t, ht⟩ := Phase.temporary_of_retracts hretracts
        have hentry := (hasserts.own j q hq').temporary d t ht
        rw [hpath]
        intro heq
        rcases FileSystem.setPath_resolve heq with ⟨-, hd⟩ | ⟨-, hold⟩
        · rw [← Option.some.inj hd, hempty] at hentry
          cases hentry
        · exact hne hold
  | surroundings hdetached =>
    obtain ⟨shard, rfl⟩ := hdetached
    intro heq
    rcases FileSystem.setPath_resolve heq with ⟨-, hd⟩ | ⟨-, hold⟩
    · cases hd
    · exact h j q d hq hretracts hold

/-- A path that leads somewhere still leads there, unless it is detached. -/
theorem resolve_of_quiet (hquiet : Quiet sha256 digits s s') {d : Directory}
    (h : s.shared.resolve (shardOf digits) = some d) :
    s'.shared.resolve (shardOf digits) = some d := by
  obtain ⟨hstep, hkeeps⟩ := hquiet
  have hgone : s'.shared.resolve (shardOf digits) ≠ none :=
    fun hnone => hkeeps (.inl ⟨by rw [h]; rfl, hnone⟩)
  cases hstep with
  | start => exact h
  | act i hat hact => exact hact.path h
  | surroundings hdetached =>
    obtain ⟨shard, rfl⟩ := hdetached
    by_cases hshard : shardOf digits = shard
    · subst hshard
      exact absurd (Function.update_self _ _ _) hgone
    · exact (Function.update_of_ne hshard _ _).trans h

/-- In a quiet step the artifact stays. -/
theorem Present.quiet (h : Present s.shared digits) (hretracted : Retracted s)
    (hasserts : Processes.Asserts (Sound sha256) (Own sha256) Apart s)
    (hquiet : Quiet sha256 digits s s') : Present s'.shared digits := by
  obtain ⟨d, hresolve, hentry⟩ := h
  refine ⟨d, resolve_of_quiet hquiet hresolve, ?_⟩
  obtain ⟨hstep, hkeeps⟩ := hquiet
  cases hstep with
  | start => exact hentry
  | @act i p p' fs' hat hact =>
    rcases hact.removed hentry with hkept | ⟨hname, hremoving⟩
    · exact hkept
    · exfalso
      have hdirectory : p.phase.directory = some d := by
        rcases hremoving with ⟨t, hphase⟩ | ⟨hphase, -⟩ <;> rw [hphase] <;> rfl
      have hsame : p.digits = digits := by
        have hshard := (hasserts.own i p hat).shard d hdirectory
        rw [hasserts.shared.resolved _ d hresolve] at hshard
        rw [← shardOf_append p.digits, ← shardOf_append digits, hshard, Name.artifact.inj hname]
      rcases hremoving with ⟨t, hphase⟩ | ⟨hphase, hdeleted⟩
      · refine hretracted i p d hat (by rw [hphase]; rfl) ?_
        rw [hsame, hresolve]
      · refine hkeeps (.inr ⟨i, p, d, hat, hsame, hphase, ?_⟩)
        rw [← hdeleted]
        exact Function.update_self _ _ _
  | surroundings hdetached =>
    obtain ⟨shard, rfl⟩ := hdetached
    exact hentry

end Runs

/-! ### Calls of a quiet run -/

/-- A call has seen its artifact: it reads it, has read it or has linked it. -/
def Phase.seen : Phase → Bool
  | .reading _ _ _ | .confirming _ _ _ | .installed _ _ => true
  | .cleaning _ _ (.stored _) | .finished (.stored _) => true
  | _ => false

/-- What holds of a call that started when its directory could not be detached any more. -/
structure Steady (fs : FileSystem) (p : Process) : Prop where
  directory : ∀ d, p.phase.directory = some d → fs.resolve (shardOf p.digits) = some d
  seen : p.phase.seen = true → Present fs p.digits

/-- Where a `get` stands whose artifact is there all the time. -/
def Phase.lookup : Phase → Bool
  | .opening | .searching _ none | .reading _ none _ | .confirming _ none _ => true
  | .finished (.payload _) | .finished .failed => true
  | _ => false

section Calls
variable {sha256 : Bytes → Hex} {fs fs' : FileSystem} {others : Set Process} {p p' : Process}

theorem Phase.directory_ending {phase : Phase} {outcome : Outcome} {d : Directory}
    (h : (phase.ending outcome).directory = some d) : phase.directory = some d := by
  cases phase with
  | searching d' t | reading d' t file | confirming d' t found =>
    cases t <;> first | exact h | cases h
  | _ => first | exact h | cases h

theorem Phase.seen_ending {phase : Phase} {outcome : Outcome}
    (h : (phase.ending outcome).seen = true) : ∃ size, outcome = .stored size := by
  unfold Phase.ending at h
  split at h <;> cases outcome <;> first | exact ⟨_, rfl⟩ | cases h

/-- A call goes on where it is, and has not seen more than before. -/
theorem Steady.goto (h : Steady fs p) {phase : Phase}
    (hdirectory : ∀ d, phase.directory = some d → p.phase.directory = some d)
    (hseen : phase.seen = true → p.phase.seen = true) : Steady fs (p.goto phase) :=
  ⟨fun d hd => h.directory d (hdirectory d hd), fun hs => h.seen (hseen hs)⟩

/-- A call that has lost its directory, or has none, has seen nothing. -/
theorem Steady.lost {phase : Phase} (hdirectory : phase.directory = none)
    (hseen : phase.seen = false) : Steady fs (p.goto phase) where
  directory d hd := by
    rw [show (p.goto phase).phase = phase from rfl, hdirectory] at hd
    cases hd
  seen hs := by
    rw [show (p.goto phase).phase = phase from rfl, hseen] at hs
    cases hs

/-- A call has found its directory, and has not seen the artifact in it. -/
theorem Steady.found {phase : Phase} {d : Directory}
    (hd : fs.resolve (shardOf p.digits) = some d) (hdirectory : phase.directory = some d)
    (hseen : phase.seen = false) : Steady fs (p.goto phase) where
  directory d' hd' := by
    rw [show (p.goto phase).phase = phase from rfl, hdirectory] at hd'
    exact Option.some.inj hd' ▸ hd
  seen hs := by
    rw [show (p.goto phase).phase = phase from rfl, hseen] at hs
    cases hs

theorem Steady.advance (h : Steady fs p) :
    Steady (advance sha256 fs p).1 (p.goto (advance sha256 fs p).2) := by
  cases hphase : p.phase with
  | opening =>
    simp only [ArtifactStore.advance, hphase]
    repeat' split
    · exact .found (by assumption) rfl rfl
    · exact .found (by assumption) rfl rfl
    all_goals exact .lost rfl rfl
  | searching d t =>
    have hd : fs.resolve (shardOf p.digits) = some d := h.directory d (by rw [hphase]; rfl)
    simp only [ArtifactStore.advance, hphase]
    repeat' split
    · rename_i file _ _ hentry
      exact ⟨fun d' hd' => Option.some.inj hd' ▸ hd, fun _ =>
        ⟨d, hd, Option.isSome_iff_exists.mpr ⟨_, hentry⟩⟩⟩
    · exact .found hd rfl rfl
    · exact .found hd rfl rfl
    · exact .lost rfl rfl
  | reading d t file =>
    simp only [ArtifactStore.advance, hphase]
    split
    · exact h.goto (by rw [hphase]; exact fun _ hd => hd) (by rw [hphase]; exact fun hs => hs)
    · refine h.goto (fun d' hd => ?_) fun _ => by rw [hphase]; rfl
      rw [hphase]
      exact Phase.directory_ending hd
  | confirming d t found =>
    simp only [ArtifactStore.advance, hphase]
    refine h.goto (fun d' hd => ?_) fun _ => by rw [hphase]; rfl
    rw [hphase]
    exact Phase.directory_ending hd
  | linking d t =>
    have hd : fs.resolve (shardOf p.digits) = some d := h.directory d (by rw [hphase]; rfl)
    simp only [ArtifactStore.advance, hphase]
    split
    · refine ⟨fun d' hd' => Option.some.inj hd' ▸ hd, fun _ => ⟨d, hd, ?_⟩⟩
      exact Option.isSome_iff_exists.mpr ⟨_, FileSystem.setEntry_self⟩
    · exact .found hd rfl rfl
  | installed d t =>
    have hd : fs.resolve (shardOf p.digits) = some d := h.directory d (by rw [hphase]; rfl)
    simp only [ArtifactStore.advance, hphase, if_pos hd]
    exact h.goto (by rw [hphase]; exact fun _ hd => hd) fun _ => by rw [hphase]; rfl
  | cleaning d t outcome =>
    simp only [ArtifactStore.advance, hphase]
    refine ⟨fun _ hd => (by cases hd), fun hs => ?_⟩
    have hseen : p.phase.seen = true := by
      rw [hphase]
      cases outcome <;> first | rfl | cases hs
    obtain ⟨d', hd, hentry⟩ := h.seen hseen
    refine ⟨d', hd, (isSome_unlink d (.temporary t.token) hentry).resolve_right ?_⟩
    exact fun hsame => nameOf_ne_temporary hsame.2
  | _ =>
    have hd : ∀ d, p.phase.directory = some d → fs.resolve (shardOf p.digits) = some d :=
      h.directory
    rw [hphase] at hd
    simp only [ArtifactStore.advance, hphase]
    repeat' split
    all_goals
      refine ⟨fun d' hd' => ?_, fun hs => ?_⟩
      · first
        | exact hd d' hd'
        | cases hd'
      · first
        | cases hs
        | exact h.seen (by rw [hphase]; exact hs)

theorem Steady.act (h : Steady fs p) (hact : Act sha256 fs others p fs' p') : Steady fs' p' := by
  cases hact with
  | advance hlive => exact h.advance
  | makeDirectory hlive hphase hcall hmissing hshard hempty =>
    refine ⟨fun d hd => ?_, nofun⟩
    obtain rfl := Option.some.inj hd
    exact Function.update_self _ _ _
  | create hlive hphase hfree hunused =>
    refine ⟨fun d hd => h.directory d ?_, nofun⟩
    rw [hphase]
    exact hd
  | write hlive hphase hcall hwritten =>
    refine ⟨h.directory, fun hs => ?_⟩
    rw [hphase] at hs
    cases hs
  | fail hlive hgoing hunfinished =>
    refine ⟨fun d hd => h.directory d (Phase.directory_ending hd), fun hs => ?_⟩
    obtain ⟨size, hsize⟩ := Phase.seen_ending hs
    cases hsize
  | stop => exact ⟨h.directory, h.seen⟩

theorem Phase.lookup_ending {phase : Phase} {outcome : Outcome} (h : phase.lookup = true)
    (houtcome : outcome = .failed ∨ ∃ bytes, outcome = .payload bytes)
    (hgoing : ∀ outcome, phase ≠ .finished outcome) : (phase.ending outcome).lookup = true := by
  cases phase with
  | opening => rcases houtcome with rfl | ⟨bytes, rfl⟩ <;> rfl
  | searching d t | reading d t file | confirming d t found =>
    cases t with
    | none => rcases houtcome with rfl | ⟨bytes, rfl⟩ <;> rfl
    | some t => cases h
  | finished o => exact absurd rfl (hgoing o)
  | _ => cases h

/-- A `get` whose artifact is there finds it. -/
theorem lookup_of_act (hpresent : Present fs p.digits) (hown : Own sha256 fs p)
    (hsteady : Steady fs p) {address : String} (hcall : p.call = .get address)
    (h : p.phase.lookup = true) (hact : Act sha256 fs others p fs' p') :
    p'.phase.lookup = true := by
  obtain ⟨d₀, hd₀, hentry⟩ := hpresent
  obtain ⟨file₀, hfile₀⟩ := Option.isSome_iff_exists.mp hentry
  cases hact with
  | advance hlive =>
    cases hphase : p.phase with
    | opening =>
      simp only [advance, hphase, hd₀, hcall]
      rfl
    | searching d t =>
      have hd := hsteady.directory d (by rw [hphase]; rfl)
      obtain rfl := Option.some.inj (hd₀.symm.trans hd)
      rw [hphase] at h
      cases t with
      | none =>
        simp only [advance, hphase, hfile₀]
        rfl
      | some t => cases h
    | reading d t file =>
      simp only [advance, hphase, if_pos (hown.reading hlive d t file hphase)]
      rw [hphase] at h
      cases t with
      | none => rfl
      | some t => cases h
    | confirming d t found =>
      have hd := hsteady.directory d (by rw [hphase]; rfl)
      simp only [advance, hphase, if_pos hd, hcall]
      rw [hphase] at h
      exact Phase.lookup_ending h (.inr ⟨found, rfl⟩) fun _ hended => by cases hended
    | finished outcome =>
      simp only [advance, hphase]
      rwa [hphase] at h
    | _ =>
      rw [hphase] at h
      cases h
  | makeDirectory hlive hphase hput =>
    rw [hcall] at hput
    cases hput
  | create hlive hphase =>
    rw [hphase] at h
    cases h
  | write => exact h
  | fail hlive hgoing hunfinished => exact Phase.lookup_ending h (.inl rfl) hunfinished
  | stop => exact h

end Calls

section Kept
variable {ι : Type*} [DecidableEq ι] {sha256 : Bytes → Hex} {digits : Hex}
  {s₀ s s' : Interleaved FileSystem Process ι}

/-- What holds in a quiet run of the calls that started in it. -/
structure QuietSince (sha256 : Bytes → Hex) (digits : Hex)
    (s₀ s : Interleaved FileSystem Process ι) : Prop where
  asserts : Processes.Asserts (Sound sha256) (Own sha256) Apart s
  retracted : Retracted s
  present : Present s₀.shared digits → Present s.shared digits
  steady : ∀ i p, s₀.processes i = none → s.processes i = some p → p.digits = digits →
    Steady s.shared p
  lookup : Present s₀.shared digits → ∀ i p address, s₀.processes i = none →
    s.processes i = some p → p.digits = digits → p.call = .get address → p.phase.lookup = true

theorem QuietSince.step (h : QuietSince sha256 digits s₀ s) (hquiet : Quiet sha256 digits s s') :
    QuietSince sha256 digits s₀ s' := by
  have hasserts := (outline sha256).step h.asserts hquiet.1
  have hothers : ∀ q, q.digits = digits → Steady s.shared q → Steady s'.shared q := by
    rintro q rfl hq
    exact ⟨fun d hd => resolve_of_quiet hquiet (hq.directory d hd), fun hs =>
      (hq.seen hs).quiet h.retracted h.asserts hquiet⟩
  refine ⟨hasserts, h.retracted.step h.asserts hquiet.1,
    fun hp => (h.present hp).quiet h.retracted h.asserts hquiet,
    fun j q hnew hq hdigits => ?_, fun hpresent j q address hnew hq hdigits hcall => ?_⟩
  · have hcarry : s.processes j = some q → Steady s'.shared q :=
      fun hq' => hothers q hdigits (h.steady j q hnew hq' hdigits)
    cases hquiet.1 with
    | start i p hfree hstart =>
      obtain ⟨-, rfl⟩ | ⟨-, hq'⟩ := Processes.at_update hq
      · refine ⟨?_, ?_⟩ <;> rw [hstart.2.1] <;> exact nofun
      · exact hcarry hq'
    | @act i p p' fs' hat hact =>
      obtain ⟨rfl, rfl⟩ | ⟨-, hq'⟩ := Processes.at_update hq
      · exact (h.steady j p hnew hat (hact.same.1.symm.trans hdigits)).act hact
      · exact hcarry hq'
    | surroundings => exact hcarry hq
  · cases hquiet.1 with
    | start i p hfree hstart =>
      obtain ⟨-, rfl⟩ | ⟨-, hq'⟩ := Processes.at_update hq
      · rw [hstart.2.1]
        rfl
      · exact h.lookup hpresent j q address hnew hq' hdigits hcall
    | @act i p p' fs' hat hact =>
      obtain ⟨rfl, rfl⟩ | ⟨-, hq'⟩ := Processes.at_update hq
      · have hsame := hact.same.1.symm.trans hdigits
        have hget := hact.same.2.symm.trans hcall
        exact lookup_of_act (hsame ▸ h.present hpresent) (h.asserts.own j p hat)
          (h.steady j p hnew hat hsame) hget
          (h.lookup hpresent j p address hnew hat hsame hget) hact
      · exact h.lookup hpresent j q address hnew hq' hdigits hcall
    | surroundings => exact h.lookup hpresent j q address hnew hq hdigits hcall

theorem retracted_of_reachable (hs : ((store sha256).system ι).Reachable s) : Retracted s := by
  refine hs.induction (fun s hinit i p d hp => ?_) fun s s' hs h hstep =>
    h.step ((outline sha256).asserts_of_reachable hs) hstep
  rw [hinit.2] at hp
  cases hp

/-- **A stored artifact is there until it is deleted**: take a run from any state in which no
`delete` removes the final name of an address and its path is not detached. When a `put` of the
address that started in the run has stored it, the artifact is present; and when it was present
at the start, every `get` that started in the run returns content of the address, unless the
operating system fails. -/
theorem kept_until_deleted (hs₀ : ((store sha256).system ι).Reachable s₀)
    (hrun : Relation.ReflTransGen (Quiet sha256 digits) s₀ s) {i : ι} {p : Process}
    {outcome : Outcome} (hnew : s₀.processes i = none) (hp : s.processes i = some p)
    (hdigits : p.digits = digits) (hended : p.phase = .finished outcome) :
    (∀ size, outcome = .stored size → Present s.shared digits) ∧
    (Present s₀.shared digits → ∀ address, p.call = .get address →
      outcome = .failed ∨ ∃ bytes, outcome = .payload bytes ∧ sha256 bytes = digits) := by
  have hquiet : QuietSince sha256 digits s₀ s := by
    clear hp hdigits hended
    induction hrun with
    | refl =>
      exact ⟨(outline sha256).asserts_of_reachable hs₀, retracted_of_reachable hs₀, id,
        fun i p hnone hsome => absurd (hnone.symm.trans hsome) nofun,
        fun _ i p _ hnone hsome => absurd (hnone.symm.trans hsome) nofun⟩
    | tail _ hstep ih => exact ih.step hstep
  refine ⟨fun size hsize => ?_, fun hpresent address hcall => ?_⟩
  · have hseen := (hquiet.steady i p hnew hp hdigits).seen (by rw [hended, hsize]; rfl)
    rwa [hdigits] at hseen
  · have hlookup := hquiet.lookup hpresent i p address hnew hp hdigits hcall
    have honest := (hquiet.asserts.own i p hp).honest outcome (by rw [hended]; rfl)
    rw [hended] at hlookup
    cases outcome with
    | failed => exact .inl rfl
    | payload bytes => exact .inr ⟨bytes, rfl, (honest.2 bytes rfl).trans hdigits⟩
    | _ => cases hlookup

end Kept

namespace StoreExample

def shard : Hex := ['4', 'b']

def name : Hex := "f5122f344554c53bde2ebb8cd2b7e3d1600ad631c385a5d7cce23c7785459a".toList

def sha256 (_ : Bytes) : Hex := shard ++ name

def directory : Directory := ⟨shard, 0⟩

/-- One `put` of one byte. -/
def put (phase : Phase) : Process := ⟨.put [1], shard ++ name, phase, false⟩

def before : Interleaved FileSystem Process ℕ := ⟨.empty, fun _ => none⟩

/-- The store with this call alone. -/
def alone (fs : FileSystem) (p : Process) : Interleaved FileSystem Process ℕ :=
  ⟨fs, Function.update (fun _ => none) 0 (some p)⟩

def made : FileSystem := FileSystem.empty.setPath shard (some directory)
def opened : FileSystem := (made.link directory (.temporary 7) 3).write 3 []
def filled : FileSystem := opened.write 3 [1]
def linked : FileSystem := filled.link directory (.artifact name) 3
def cleaned : FileSystem := linked.unlink directory (.temporary 7)

theorem at_alone {fs : FileSystem} {p q : Process} {j : ℕ}
    (h : (alone fs p).processes j = some q) : j = 0 ∧ q = p := by
  have hat : Function.update (fun _ => none) 0 (some p) j = some q := h
  obtain hsame | ⟨-, hnone⟩ := Processes.at_update hat
  · exact hsame
  · cases hnone

theorem others_alone {fs : FileSystem} {p : Process} :
    Processes.others (alone fs p).processes 0 = ∅ :=
  Set.eq_empty_iff_forall_notMem.mpr fun _ ⟨_, hne, hb⟩ => hne (at_alone hb).1

theorem quiet_alone {fs : FileSystem} {p : Process} (fs' : FileSystem) (p' : Process)
    (hact : Act sha256 fs ∅ p fs' p') (hphase : ∀ d, p.phase ≠ .unlinking d) :
    Quiet sha256 (shard ++ name) (alone fs p) (alone fs' p') := by
  have hstep : ((store sha256).system ℕ).step (alone fs p) (alone fs' p') := by
    have hmoved := Processes.Step.act (P := store sha256) (s := alone fs p) 0
      (show (alone fs p).processes 0 = some p from rfl)
      (others_alone.symm ▸ hact)
    rwa [alone, Function.update_idem] at hmoved
  refine ⟨hstep, ?_⟩
  rintro (⟨hsome, hnone⟩ | ⟨j, q, d, hq, -, hunlinking, -⟩)
  · obtain ⟨d, hd⟩ := Option.isSome_iff_exists.mp hsome
    exact absurd (hnone.symm.trans (hact.path hd)) nofun
  · rw [(at_alone hq).2] at hunlinking
    exact hphase d hunlinking

theorem quiet_start : Quiet sha256 (shard ++ name) before (alone .empty (put .opening)) := by
  refine ⟨Processes.Step.start 0 _ rfl ⟨rfl, rfl, rfl⟩, ?_⟩
  rintro (⟨hsome, -⟩ | ⟨j, q, d, hq, -⟩)
  · cases hsome
  · cases hq

theorem quiet_put :
    Relation.ReflTransGen (Quiet sha256 (shard ++ name)) before
      (alone cleaned (put (.finished (.stored 1)))) := by
  refine .head quiet_start (.head
    (quiet_alone made (put (.searching directory none)) ?_ nofun) ?_)
  · exact .makeDirectory rfl rfl rfl rfl rfl fun _ => rfl
  refine .head (quiet_alone made (put (.creating directory)) ?_ nofun) ?_
  · exact .advance rfl
  refine .head (quiet_alone opened (put (.writing directory ⟨7, 3⟩)) ?_ nofun) ?_
  · refine .create (d := directory) (t := ⟨7, 3⟩) rfl rfl rfl
      ⟨fun _ _ hentry => ?_, fun _ hq => absurd hq (Set.notMem_empty _)⟩
    cases show (none : Option Inode) = some 3 from hentry
  refine .head (quiet_alone filled (put (.linking directory ⟨7, 3⟩)) ?_ nofun) ?_
  · exact .advance rfl
  refine .head (quiet_alone linked (put (.installed directory ⟨7, 3⟩)) ?_ nofun) ?_
  · exact .advance rfl
  refine .head (quiet_alone linked (put (.cleaning directory ⟨7, 3⟩ (.stored 1))) ?_ nofun) ?_
  · exact .advance rfl
  refine .single (quiet_alone cleaned _ ?_ nofun)
  exact .advance rfl

theorem reachable_before : ((store sha256).system ℕ).Reachable before :=
  .of_init ⟨rfl, fun _ => rfl⟩

theorem reachable_put :
    ((store sha256).system ℕ).Reachable (alone cleaned (put (.finished (.stored 1)))) :=
  ⟨before, ⟨rfl, fun _ => rfl⟩, quiet_put.lift id fun _ _ h => h.1⟩

end StoreExample

open StoreExample in
theorem kept_until_deleted_put :
    Present (alone cleaned (put (.finished (.stored 1)))).shared (shard ++ name) :=
  (kept_until_deleted reachable_before quiet_put (i := 0) rfl rfl rfl rfl).1 1 rfl

open StoreExample in
theorem artifacts_sound_put :
    sha256 ((alone cleaned (put (.finished (.stored 1)))).shared.contents 3) = shard ++ name :=
  (artifacts_sound reachable_put).1 directory name 3 rfl

end ControlPlane.ArtifactStore
