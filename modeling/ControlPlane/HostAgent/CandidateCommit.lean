import ControlPlane.Configuration.Boundaries
import ControlPlane.Lib.System
import ControlPlane.Lib.Transaction

/-!
# Committing a candidate

A task's workspace has one branch that starts at a frozen base; a commit replaces the
candidate on it by a new child of the base. The manifest names the candidate and is written
before the branch moves, so that a first commit can be interrupted anywhere. A later one
starts from a head that the manifest no longer names as soon as it is written.

Git is a parameter: how trees differ, what staging makes of them, and what an ancestor is.
Every command may fail, and two of them may fail after they took effect.

## Main definitions

* `checkCommit`, `checkPush`: what a commit and a push ask of the head and the manifest.
* `Workspace.act`: one event; a commit goes through its phases one event at a time.
* `Workspace.Window`: a commit on another head than the base, between the manifest and the
  branch.

## Main results

* `commits_owned`: the head is the base or the named candidate except inside that window;
  a call that ends there leaves a workspace that refuses every commit and push for good.
-/
namespace ControlPlane.HostAgent

/-! ### The workspace -/

structure CommitIdentity where
  authorName : String
  authorEmail : String
  committerName : String
  committerEmail : String
  deriving DecidableEq

structure CommitObject (Tree : Type) where
  tree : Tree
  parents : List String
  identity : CommitIdentity

/-- What Git computes. -/
structure Git (Tree : Type) where
  /-- The names of the paths two trees differ in. -/
  diff : Tree → Tree → List String
  /-- The tree with the paths taken from another one. -/
  stage : Tree → Tree → List String → Tree
  isAncestor : (String → Option (CommitObject Tree)) → String → String → Bool
  isAncestor_self : ∀ commits sha, (commits sha).isSome → isAncestor commits sha sha = true
  isAncestor_parent : ∀ commits sha commit base, commits sha = some commit →
    commit.parents = [base] → (commits base).isSome → isAncestor commits base sha = true

/-- The part of the manifest that commits read and write. -/
structure WorkspaceOwnership where
  baseSha : String
  candidateHeadSha : Option String := none
  deriving DecidableEq

/-- How far a commit has come. -/
inductive CommitPhase where
  /-- The commit object exists. -/
  | created
  /-- The manifest names it. -/
  | recorded
  /-- The index was read from it. -/
  | staged
  /-- The branch points to it. -/
  | updated
  /-- A command before that has failed. -/
  | handling
  /-- The index is the old one again, the manifest is not. -/
  | restoring
  /-- The commit is not what it should be. -/
  | reverting
  /-- The branch points to the old head again. -/
  | reverted
  /-- So does the index, the manifest does not. -/
  | rewriting
  deriving DecidableEq, Repr

/-- A commit that is being made, with the manifest it started from. -/
structure CommitCall where
  expectedHeadSha : String
  ownership : WorkspaceOwnership
  candidateHeadSha : String
  changedPaths : List String
  phase : CommitPhase := .created

structure Workspace (Tree : Type) where
  ownership : WorkspaceOwnership
  head : String
  index : Tree
  worktree : Tree
  commits : String → Option (CommitObject Tree)
  call : Option CommitCall := none

/-- What a commit and a push are bound to. -/
structure CommitContext (Tree : Type) where
  git : Git Tree
  unicode : Unicode
  configuration : Configuration.RepositoryConfiguration
  identity : CommitIdentity

section Operations
variable {Tree : Type} (ctx : CommitContext Tree)

/-- The tree of a commit. -/
def Workspace.treeOf (w : Workspace Tree) (sha : String) : Tree :=
  ((w.commits sha).map CommitObject.tree).getD w.index

structure BoundaryState where
  headSha : String
  clean : Bool
  parentShas : List String

/-- The head as it is observed at every boundary. -/
def boundaryState (w : Workspace Tree) : Except WorkspaceLifecycleError BoundaryState := do
  let commit ← Except.orThrow (w.commits w.head) ⟨"WORKSPACE_UNAVAILABLE"⟩
  Except.require (ctx.git.isAncestor w.commits w.ownership.baseSha w.head = true)
    ⟨"BASE_NOT_ANCESTOR"⟩
  Except.require (w.head = w.ownership.baseSha ∨ commit.identity = ctx.identity)
    ⟨"COMMIT_IDENTITY_MISMATCH"⟩
  return { headSha := w.head
           clean := (ctx.git.diff commit.tree w.index).isEmpty &&
             (ctx.git.diff w.index w.worktree).isEmpty
           parentShas := commit.parents }

/-- The paths that differ between the files and the index, or the index and the head. -/
def changedPaths (w : Workspace Tree) : List String :=
  ((ctx.git.diff w.index w.worktree ++ ctx.git.diff (w.treeOf w.head) w.index).insertionSort
    (· ≤ ·)).eraseDups

/-- What a commit asks before it does anything. -/
def checkCommit (w : Workspace Tree) (expectedHeadSha : String) :
    Except WorkspaceLifecycleError (List String) := do
  let before ← boundaryState ctx w
  Except.require (before.headSha = expectedHeadSha) ⟨"HEAD_MISMATCH"⟩
  Except.require (expectedHeadSha = w.ownership.baseSha ∨
    w.ownership.candidateHeadSha = some expectedHeadSha) ⟨"CANDIDATE_PARENT_NOT_FROZEN_BASE"⟩
  let changed := changedPaths ctx w
  Except.require (changed ≠ []) ⟨"NOTHING_TO_COMMIT"⟩
  assertPathsAllowed ctx.unicode changed ctx.configuration
  return changed

/-- What a push asks before it does anything; `history` are the paths of the candidate. -/
def checkPush (w : Workspace Tree) (expectedHeadSha : String) (history : List String) :
    Except WorkspaceLifecycleError Unit := do
  let state ← boundaryState ctx w
  Except.require (state.headSha = expectedHeadSha) ⟨"HEAD_MISMATCH"⟩
  Except.require (expectedHeadSha ≠ w.ownership.baseSha) ⟨"CANDIDATE_COMMIT_REQUIRED"⟩
  Except.require (w.ownership.candidateHeadSha = some expectedHeadSha)
    ⟨"CANDIDATE_COMMIT_NOT_HOST_OWNED"⟩
  Except.require (state.parentShas = [w.ownership.baseSha]) ⟨"CANDIDATE_COMMIT_INVALID"⟩
  Except.require (state.clean = true) ⟨"WORKSPACE_NOT_CLEAN"⟩
  assertPathsAllowed ctx.unicode history ctx.configuration

/-- The checks and the isolated commit: an object without a branch, with the base as its
parent. Git names it by its content. -/
def beginCommit (w : Workspace Tree) (expectedHeadSha sha : String) :
    Except WorkspaceLifecycleError (Workspace Tree) := do
  let changed ← checkCommit ctx w expectedHeadSha
  let commit : CommitObject Tree :=
    { tree := ctx.git.stage (w.treeOf expectedHeadSha) w.worktree changed
      parents := [w.ownership.baseSha], identity := ctx.identity }
  let staged := ctx.git.diff (w.treeOf expectedHeadSha) commit.tree
  Except.require (staged ≠ []) ⟨"NOTHING_TO_COMMIT"⟩
  assertPathsAllowed ctx.unicode staged ctx.configuration
  return { w with
    commits := Function.update w.commits sha (some commit)
    call := some { expectedHeadSha, ownership := w.ownership, candidateHeadSha := sha
                   changedPaths := changed } }

/-! ### The phases of a commit -/

def CommitCall.candidate (call : CommitCall) : WorkspaceOwnership :=
  { call.ownership with candidateHeadSha := some call.candidateHeadSha }

/-- Nothing has changed since the paths were read. -/
def unchanged (w : Workspace Tree) (call : CommitCall) : Bool :=
  (assertPathsAllowed ctx.unicode (changedPaths ctx w) ctx.configuration).isOk &&
    changedPaths ctx w = call.changedPaths

/-- The commit is what it should be. -/
def committed (w : Workspace Tree) (call : CommitCall) : Bool :=
  match boundaryState ctx w with
  | .error _ => false
  | .ok after => after.clean && after.headSha ≠ call.expectedHeadSha &&
      after.parentShas = [call.ownership.baseSha]

/-- What the next command does to the files, the branch and the manifest. -/
def Workspace.effect (w : Workspace Tree) (call : CommitCall) : Workspace Tree :=
  match call.phase with
  | .created => if unchanged ctx w call then { w with ownership := call.candidate } else w
  | .recorded => { w with index := w.treeOf call.candidateHeadSha }
  | .staged => if w.head = call.expectedHeadSha then { w with head := call.candidateHeadSha } else w
  | .updated => w
  | .handling =>
    if w.head = call.expectedHeadSha then { w with index := w.treeOf call.expectedHeadSha } else w
  | .reverting =>
    if w.head = call.candidateHeadSha then { w with head := call.expectedHeadSha } else w
  | .reverted => { w with index := w.treeOf call.expectedHeadSha }
  | .restoring | .rewriting => { w with ownership := call.ownership }

/-- The phase after a command that succeeded; none when the call ends. -/
def Workspace.next (w : Workspace Tree) (call : CommitCall) : Option CommitPhase :=
  match call.phase with
  | .created => if unchanged ctx w call then some .recorded else none
  | .recorded => some .staged
  | .staged => some (if w.head = call.expectedHeadSha then .updated else .handling)
  | .updated =>
    if !committed ctx w call ∧ w.head = call.candidateHeadSha then some .reverting else none
  | .handling => if w.head = call.expectedHeadSha then some .restoring else none
  | .reverting => if w.head = call.candidateHeadSha then some .reverted else none
  | .reverted => some .rewriting
  | .restoring | .rewriting => none

/-- The phase after a command that failed. -/
def CommitPhase.onFailure : CommitPhase → Option CommitPhase
  | recorded | staged => some handling
  | _ => none

/-- The call in another phase. -/
def CommitCall.into (call : CommitCall) (phase : Option CommitPhase) : Option CommitCall :=
  phase.map fun phase => { call with phase }

inductive CommitEvent (Tree : Type) where
  /-- Whatever else runs in the workspace changes its files. -/
  | edit (worktree : Tree)
  | begin (expectedHeadSha sha : String)
  /-- The next command succeeds. -/
  | advance
  /-- It fails after it took effect, as a command does that times out. Where a failure ends
  the call that is a success and a crash. -/
  | lose
  /-- It fails. -/
  | fail
  | crash

/-- One event; what is not possible changes nothing. -/
def Workspace.act (w : Workspace Tree) (event : CommitEvent Tree) : Workspace Tree :=
  match event, w.call with
  | .edit worktree, _ => { w with worktree }
  | .begin expectedHeadSha sha, none => ((beginCommit ctx w expectedHeadSha sha).toOption).getD w
  | .begin _ _, some _ => w
  | .crash, _ => { w with call := none }
  | .advance, some call => { w.effect ctx call with call := call.into (w.next ctx call) }
  | .lose, some call =>
    match call.phase.onFailure with
    | some phase => { w.effect ctx call with call := call.into (some phase) }
    | none => w
  | .fail, some call => { w with call := call.into call.phase.onFailure }
  | _, none => w

/-! ### What a workspace promises -/

/-- The head is the base or the candidate the manifest names. -/
def Workspace.Owned (w : Workspace Tree) : Prop :=
  w.head = w.ownership.baseSha ∨ w.ownership.candidateHeadSha = some w.head

/-- Whoever knows the head can commit what is changed and push what is not. -/
structure Workspace.Accepts (w : Workspace Tree) : Prop where
  commit : changedPaths ctx w ≠ [] →
    (assertPathsAllowed ctx.unicode (changedPaths ctx w) ctx.configuration).isOk →
    (checkCommit ctx w w.head).isOk
  push : ∀ state, boundaryState ctx w = .ok state → state.clean = true →
    w.head ≠ w.ownership.baseSha → ∀ history,
    (assertPathsAllowed ctx.unicode history ctx.configuration).isOk →
    (checkPush ctx w w.head history).isOk
  boundary : (boundaryState ctx w).isOk

/-- No commit and no push is let through, whatever head it expects. -/
def Workspace.Refuses (w : Workspace Tree) : Prop :=
  w.call = none ∧ ∀ expectedHeadSha, (checkCommit ctx w expectedHeadSha).isOk = false ∧
    ∀ history, (checkPush ctx w expectedHeadSha history).isOk = false

/-- The manifest names the new candidate while the branch points to the old head. -/
def CommitPhase.betweenStores : CommitPhase → Bool
  | recorded | staged | handling | restoring | reverted | rewriting => true
  | created | updated | reverting => false

/-- A commit on another head than the base is between the manifest and the branch. -/
def Workspace.Window (w : Workspace Tree) : Prop :=
  ∃ call, w.call = some call ∧ call.phase.betweenStores = true ∧ w.head = call.expectedHeadSha ∧
    call.expectedHeadSha ≠ w.ownership.baseSha ∧ call.candidateHeadSha ≠ call.expectedHeadSha

/-! ### Runs -/

/-- An event that ends the call where it stands. -/
def Interrupts (w : Workspace Tree) (event : CommitEvent Tree) : Prop :=
  event = .crash ∨ (event = .fail ∧ ∃ call, w.call = some call ∧ call.phase.onFailure = none)

/-- Git names objects by their content, so a name that is taken has the same object. -/
def Addresses (w : Workspace Tree) (event : CommitEvent Tree) : Prop :=
  ∀ expectedHeadSha sha, event = .begin expectedHeadSha sha →
    ∀ w', beginCommit ctx w expectedHeadSha sha = .ok w' →
      w.commits sha = none ∨ w.commits sha = w'.commits sha

/-- The runs of one workspace from its creation, with the events that a condition lets pass. -/
def commitSystem (allows : Workspace Tree → CommitEvent Tree → Prop) :
    TransitionSystem (Workspace Tree) where
  init w := w.head = w.ownership.baseSha ∧ w.ownership.candidateHeadSha = none ∧ w.call = none ∧
    (w.commits w.ownership.baseSha).isSome
  step w w' := ∃ event, Addresses ctx w event ∧ allows w event ∧ w' = w.act ctx event

/-- No commit ends inside the window. -/
def Uninterrupted (w : Workspace Tree) (event : CommitEvent Tree) : Prop :=
  Interrupts w event → ¬ w.Window

/-- A commit that passes its checks starts from the base. -/
def FromBase (w : Workspace Tree) (event : CommitEvent Tree) : Prop :=
  ∀ expectedHeadSha sha, event = .begin expectedHeadSha sha →
    (checkCommit ctx w expectedHeadSha).isOk → expectedHeadSha = w.ownership.baseSha

end Operations

/-! ### The invariant -/

section Invariant
variable {Tree : Type} {ctx : CommitContext Tree} {w : Workspace Tree}
  {allows : Workspace Tree → CommitEvent Tree → Prop}

/-- A commit made here: a child of the base under the configured identity. -/
def Candidate (ctx : CommitContext Tree) (w : Workspace Tree) (sha : String) : Prop :=
  ∃ commit, w.commits sha = some commit ∧ commit.parents = [w.ownership.baseSha] ∧
    commit.identity = ctx.identity

/-- Where the head and the manifest are in each phase. -/
def CommitCall.Stands (call : CommitCall) (w : Workspace Tree) : Prop :=
  match call.phase with
  | .created => w.ownership = call.ownership ∧ w.head = call.expectedHeadSha
  | .recorded | .staged | .restoring | .reverted | .rewriting =>
    w.ownership = call.candidate ∧ w.head = call.expectedHeadSha
  | .updated | .reverting => w.ownership = call.candidate ∧ w.head = call.candidateHeadSha
  | .handling => w.ownership = call.candidate ∧
    (w.head = call.expectedHeadSha ∨ w.head = call.candidateHeadSha)

/-- A commit that was let through. -/
structure CommitCall.Sound (ctx : CommitContext Tree) (call : CommitCall) (w : Workspace Tree) :
    Prop where
  base : call.ownership.baseSha = w.ownership.baseSha
  expected : call.expectedHeadSha = w.ownership.baseSha ∨
    call.ownership.candidateHeadSha = some call.expectedHeadSha
  parent : call.expectedHeadSha = w.ownership.baseSha ∨ Candidate ctx w call.expectedHeadSha
  candidate : Candidate ctx w call.candidateHeadSha
  stands : call.Stands w

structure Workspace.Sound (ctx : CommitContext Tree) (w : Workspace Tree) : Prop where
  base : (w.commits w.ownership.baseSha).isSome
  head : w.head = w.ownership.baseSha ∨ Candidate ctx w w.head
  idle : w.call = none → w.Owned
  call : ∀ call, w.call = some call → call.Sound ctx w

/-- The head is owned except in the window. -/
theorem Workspace.Sound.owned_iff (h : w.Sound ctx) : w.Owned ↔ ¬ w.Window := by
  cases hcall : w.call with
  | none =>
    refine iff_of_true (h.idle hcall) ?_
    rintro ⟨call, hsome, -⟩
    rw [hcall] at hsome
    cases hsome
  | some call =>
    obtain ⟨hbase, hexpected, -, -, hstands⟩ := h.call call hcall
    have hwindow : w.Window ↔ call.phase.betweenStores = true ∧ w.head = call.expectedHeadSha ∧
        call.expectedHeadSha ≠ w.ownership.baseSha ∧
        call.candidateHeadSha ≠ call.expectedHeadSha := by
      constructor
      · rintro ⟨call', hsome, hrest⟩
        rw [hcall, Option.some.injEq] at hsome
        rwa [hsome]
      · exact fun hrest => ⟨call, hcall, hrest⟩
    rw [hwindow]
    unfold CommitCall.Stands at hstands
    unfold Workspace.Owned
    cases hphase : call.phase <;>
      simp only [hphase, CommitCall.candidate] at hstands <;>
      obtain ⟨hownership, hhead⟩ := hstands <;>
      simp only [CommitPhase.betweenStores, hownership] at * <;> grind

/-! ### Steps -/

theorem boundaryState_ok {state : BoundaryState} (h : boundaryState ctx w = .ok state) :
    state.headSha = w.head ∧ ∃ commit, w.commits w.head = some commit ∧
      state.parentShas = commit.parents := by
  simp only [boundaryState, Except.bind_eq_ok, Except.orThrow_eq_ok, Except.require_eq_ok,
    Except.pure_eq_ok] at h
  obtain ⟨commit, hcommit, _, -, _, -, rfl⟩ := h
  exact ⟨rfl, commit, hcommit, rfl⟩

theorem checkCommit_ok {expectedHeadSha : String} {changed : List String}
    (h : checkCommit ctx w expectedHeadSha = .ok changed) :
    w.head = expectedHeadSha ∧ (expectedHeadSha = w.ownership.baseSha ∨
      w.ownership.candidateHeadSha = some expectedHeadSha) := by
  simp only [checkCommit, Except.bind_eq_ok, Except.require_eq_ok] at h
  obtain ⟨before, hbefore, _, hhead, _, hexpected, -⟩ := h
  exact ⟨(boundaryState_ok hbefore).1 ▸ hhead, hexpected⟩

theorem beginCommit_ok {expectedHeadSha sha : String} {w' : Workspace Tree}
    (h : beginCommit ctx w expectedHeadSha sha = .ok w') :
    w.head = expectedHeadSha ∧ (expectedHeadSha = w.ownership.baseSha ∨
      w.ownership.candidateHeadSha = some expectedHeadSha) ∧
    ∃ commit changed, commit.parents = [w.ownership.baseSha] ∧ commit.identity = ctx.identity ∧
      w' = { w with
        commits := Function.update w.commits sha (some commit)
        call := some { expectedHeadSha, ownership := w.ownership, candidateHeadSha := sha
                       changedPaths := changed } } := by
  simp only [beginCommit, Except.bind_eq_ok, Except.require_eq_ok, Except.pure_eq_ok] at h
  obtain ⟨changed, hcheck, _, -, _, -, rfl⟩ := h
  obtain ⟨hhead, hexpected⟩ := checkCommit_ok hcheck
  exact ⟨hhead, hexpected, _, changed, rfl, rfl, rfl⟩

theorem checkCommit_of_beginCommit {expectedHeadSha sha : String} {w' : Workspace Tree}
    (h : beginCommit ctx w expectedHeadSha sha = .ok w') :
    (checkCommit ctx w expectedHeadSha).isOk := by
  simp only [beginCommit, Except.bind_eq_ok] at h
  obtain ⟨changed, hcheck, -⟩ := h
  rw [hcheck]
  rfl

/-- What changes neither the objects nor the base keeps what is a candidate. -/
theorem candidate_congr {w' : Workspace Tree} (hcommits : w'.commits = w.commits)
    (hbase : w'.ownership.baseSha = w.ownership.baseSha) (sha : String) :
    Candidate ctx w' sha ↔ Candidate ctx w sha := by
  rw [Candidate, Candidate, hcommits, hbase]

theorem Workspace.Sound.ended (h : w.Sound ctx) (howned : w.Owned) :
    Workspace.Sound ctx { w with call := none } where
  base := h.base
  head := h.head
  idle _ := howned
  call _ hcall := nomatch hcall

/-- A commit that begins starts from an owned head. -/
theorem Workspace.Sound.begin (h : w.Sound ctx) {expectedHeadSha sha : String}
    {w' : Workspace Tree} (hbegin : beginCommit ctx w expectedHeadSha sha = .ok w')
    (haddress : w.commits sha = none ∨ w.commits sha = w'.commits sha) : w'.Sound ctx := by
  obtain ⟨hhead, hexpected, commit, changed, hparents, hidentity, rfl⟩ := beginCommit_ok hbegin
  -- Objects that were there are there still.
  have hkept {sha' : String} {object : CommitObject Tree} (hobject : w.commits sha' = some object) :
      Function.update w.commits sha (some commit) sha' = some object := by
    by_cases heq : sha' = sha
    · subst heq
      obtain hnone | hsame := haddress
      · rw [hnone] at hobject
        cases hobject
      · change w.commits sha' = Function.update w.commits sha' (some commit) sha' at hsame
        rw [← hsame]
        exact hobject
    · rw [Function.update_of_ne heq]
      exact hobject
  have hcandidate {sha' : String} (hold : Candidate ctx w sha') : Candidate ctx
      { w with
        commits := Function.update w.commits sha (some commit)
        call := some { expectedHeadSha, ownership := w.ownership, candidateHeadSha := sha
                       changedPaths := changed } } sha' := by
    obtain ⟨object, hobject, hrest⟩ := hold
    exact ⟨object, hkept hobject, hrest⟩
  obtain ⟨base, hbase⟩ := Option.isSome_iff_exists.mp h.base
  refine ⟨Option.isSome_iff_exists.mpr ⟨base, hkept hbase⟩, h.head.imp_right hcandidate, ?_, ?_⟩
  · exact fun hcall => nomatch hcall
  · intro call hcall
    obtain rfl := Option.some.inj hcall
    refine ⟨rfl, hexpected, ?_, ⟨commit, Function.update_self .., hparents, hidentity⟩, rfl, hhead⟩
    rw [← hhead]
    exact h.head.imp_right hcandidate

/-- A command that succeeds leads to where the next phase stands. -/
theorem CommitCall.Stands.advance {call : CommitCall} (h : call.Stands w) {phase : CommitPhase}
    (hnext : w.next ctx call = some phase) :
    CommitCall.Stands { call with phase } (w.effect ctx call) := by
  unfold CommitCall.Stands at h
  unfold Workspace.next at hnext
  unfold Workspace.effect
  cases hphase : call.phase <;> simp only [hphase] at h hnext ⊢ <;>
    (try split at hnext) <;> simp only [Option.some.injEq, reduceCtorEq] at hnext <;>
    subst hnext <;> simp_all [CommitCall.Stands, CommitCall.candidate]

/-- A call that ends by itself leaves an owned head. -/
theorem CommitCall.Sound.ends {call : CommitCall} (h : call.Sound ctx w)
    (hnext : w.next ctx call = none) : (w.effect ctx call).Owned := by
  obtain ⟨hbase, hexpected, -, -, hstands⟩ := h
  unfold CommitCall.Stands at hstands
  unfold Workspace.next at hnext
  unfold Workspace.effect Workspace.Owned
  cases hphase : call.phase <;> simp only [hphase] at hstands hnext ⊢ <;>
    (try split at hnext) <;> simp_all [CommitCall.candidate]

variable (ctx) in
/-- A command that is lost, or that fails where that is handled, leaves the workspace where the
handler expects it. -/
theorem CommitCall.Stands.handled {call : CommitCall} (h : call.Stands w) {phase : CommitPhase}
    (hphase : call.phase.onFailure = some phase) :
    CommitCall.Stands { call with phase } w ∧
      CommitCall.Stands { call with phase } (w.effect ctx call) := by
  unfold CommitCall.Stands at h
  unfold Workspace.effect
  cases hcase : call.phase <;> simp only [hcase, CommitPhase.onFailure, reduceCtorEq,
    Option.some.injEq] at h hphase ⊢ <;> subst hphase <;>
    simp_all [CommitCall.Stands, CommitCall.candidate]

/-- What a command leaves alone, and where it can put the head. -/
structure CommitCall.Moves (call : CommitCall) (w w' : Workspace Tree) : Prop where
  commits : w'.commits = w.commits
  base : w'.ownership.baseSha = w.ownership.baseSha
  head : w'.head = w.head ∨ w'.head = call.expectedHeadSha ∨ w'.head = call.candidateHeadSha

theorem CommitCall.Sound.effect {call : CommitCall} (h : call.Sound ctx w) :
    call.Moves w (w.effect ctx call) := by
  have hbase := h.base
  unfold Workspace.effect
  constructor <;> cases call.phase <;> dsimp only <;> (try split) <;>
    first | rfl | exact hbase | simp

/-- A call that goes on, or ends with an owned head, keeps the workspace sound. -/
theorem Workspace.Sound.into (h : w.Sound ctx) {call : CommitCall} (hcall : w.call = some call)
    {w' : Workspace Tree} (hmoves : call.Moves w w') {phase : Option CommitPhase}
    (hsome : ∀ next, phase = some next → CommitCall.Stands { call with phase := next } w')
    (hnone : phase = none → w'.Owned) :
    Workspace.Sound ctx { w' with call := call.into phase } := by
  have hsound := h.call call hcall
  have hkept (sha : String) : Candidate ctx { w' with call := call.into phase } sha ↔
      Candidate ctx w sha := candidate_congr hmoves.commits hmoves.base sha
  refine ⟨?_, ?_, ?_, ?_⟩
  · show (w'.commits w'.ownership.baseSha).isSome
    rw [hmoves.commits, hmoves.base]
    exact h.base
  · rw [hkept]
    show w'.head = w'.ownership.baseSha ∨ Candidate ctx w w'.head
    rw [hmoves.base]
    obtain hhead | hhead | hhead := hmoves.head <;> rw [hhead]
    · exact h.head
    · exact hsound.parent
    · exact Or.inr hsound.candidate
  · intro hended
    exact hnone (by simpa [CommitCall.into] using hended)
  · intro call' hcall'
    simp only [CommitCall.into, Option.map_eq_some_iff] at hcall'
    obtain ⟨next, hnext, rfl⟩ := hcall'
    exact {
      base := hsound.base.trans hmoves.base.symm
      expected := hsound.expected.imp_left fun heq => heq.trans hmoves.base.symm
      parent := (hsound.parent.imp_left fun heq => heq.trans hmoves.base.symm).imp_right
        (hkept call.expectedHeadSha).mpr
      candidate := (hkept call.candidateHeadSha).mpr hsound.candidate
      stands := hsome next hnext }

/-- Every event keeps the workspace sound, unless it ends a commit in the window. -/
theorem Workspace.Sound.act (h : w.Sound ctx) {event : CommitEvent Tree}
    (haddress : Addresses ctx w event) (hpasses : Uninterrupted w event) :
    (w.act ctx event).Sound ctx := by
  cases hcall : w.call with
  | none =>
    cases event with
    | edit worktree =>
      simp only [Workspace.act]
      exact ⟨h.base, h.head, h.idle, fun call hsome => nomatch hcall.symm.trans hsome⟩
    | begin expectedHeadSha sha =>
      simp only [Workspace.act, hcall]
      cases hbegin : beginCommit ctx w expectedHeadSha sha with
      | error _ => exact h
      | ok w' => exact h.begin hbegin (haddress _ _ rfl w' hbegin)
    | crash =>
      simp only [Workspace.act]
      exact h.ended (h.idle hcall)
    | advance | lose | fail =>
      simp only [Workspace.act, hcall]
      exact h
  | some call =>
    have hsound := h.call call hcall
    cases event with
    | edit worktree =>
      simp only [Workspace.act]
      refine ⟨h.base, h.head, h.idle, fun call' hsome => ?_⟩
      have hsound' := h.call call' hsome
      exact ⟨hsound'.base, hsound'.expected, hsound'.parent, hsound'.candidate, hsound'.stands⟩
    | begin expectedHeadSha sha =>
      simp only [Workspace.act, hcall]
      exact h
    | crash =>
      simp only [Workspace.act]
      exact h.ended (h.owned_iff.mpr (hpasses (Or.inl rfl)))
    | advance =>
      simp only [Workspace.act, hcall]
      exact h.into hcall hsound.effect (fun _ => hsound.stands.advance) hsound.ends
    | lose =>
      simp only [Workspace.act, hcall]
      cases hphase : call.phase.onFailure with
      | none => exact h
      | some phase =>
        refine h.into hcall hsound.effect (fun next hnext => ?_) (fun hnone => nomatch hnone)
        obtain rfl := Option.some.inj hnext
        exact (hsound.stands.handled ctx hphase).2
    | fail =>
      simp only [Workspace.act, hcall]
      refine h.into hcall ⟨rfl, rfl, Or.inl rfl⟩
        (fun _ hphase => (hsound.stands.handled ctx hphase).1) (fun hphase => ?_)
      exact h.owned_iff.mpr (hpasses (Or.inr ⟨rfl, call, hcall, hphase⟩))

theorem sound_of_init (hinit : (commitSystem ctx allows).init w) : w.Sound ctx := by
  obtain ⟨hhead, -, hcall, hbase⟩ := hinit
  refine ⟨hbase, Or.inl hhead, fun _ => Or.inl hhead, fun call hsome => ?_⟩
  rw [hcall] at hsome
  cases hsome

theorem sound_of_uninterrupted (h : (commitSystem ctx Uninterrupted).Reachable w) :
    w.Sound ctx :=
  h.invariant (fun _ => sound_of_init) fun _ _ hsound ⟨_, haddress, hpasses, hact⟩ =>
    hact ▸ hsound.act haddress hpasses

/-! ### Commits from the base -/

/-- The commit that is being made started from the base. -/
def Workspace.First (w : Workspace Tree) : Prop :=
  ∀ call, w.call = some call → call.expectedHeadSha = w.ownership.baseSha

theorem Workspace.First.not_window (h : w.First) : ¬ w.Window := by
  rintro ⟨call, hcall, -, -, hlater, -⟩
  exact hlater (h call hcall)

theorem Workspace.First.into (h : w.First) {call : CommitCall} (hcall : w.call = some call)
    {w' : Workspace Tree} (hmoves : call.Moves w w') (phase : Option CommitPhase) :
    Workspace.First { w' with call := call.into phase } := by
  intro call' hcall'
  simp only [CommitCall.into, Option.map_eq_some_iff] at hcall'
  obtain ⟨_, -, rfl⟩ := hcall'
  exact (h call hcall).trans hmoves.base.symm

theorem Workspace.First.act (h : w.First) (hsound : w.Sound ctx) {event : CommitEvent Tree}
    (hbase : FromBase ctx w event) : (w.act ctx event).First := by
  cases hcall : w.call with
  | none =>
    cases event with
    | edit worktree => exact h
    | begin expectedHeadSha sha =>
      simp only [Workspace.act, hcall]
      cases hbegin : beginCommit ctx w expectedHeadSha sha with
      | error _ => exact h
      | ok w' =>
        have hfirst := hbase expectedHeadSha sha rfl (checkCommit_of_beginCommit hbegin)
        obtain ⟨-, -, commit, changed, -, -, rfl⟩ := beginCommit_ok hbegin
        rintro call hsome
        obtain rfl := Option.some.inj hsome
        exact hfirst
    | crash => exact fun call hsome => nomatch hsome
    | advance | lose | fail =>
      simp only [Workspace.act, hcall]
      exact h
  | some call =>
    have heffect := (hsound.call call hcall).effect
    cases event with
    | edit worktree => exact h
    | begin expectedHeadSha sha =>
      simp only [Workspace.act, hcall]
      exact h
    | crash => exact fun call hsome => nomatch hsome
    | advance =>
      simp only [Workspace.act, hcall]
      exact h.into hcall heffect _
    | lose =>
      simp only [Workspace.act, hcall]
      cases hphase : call.phase.onFailure with
      | none => exact h
      | some phase => exact h.into hcall heffect _
    | fail =>
      simp only [Workspace.act, hcall]
      exact h.into hcall ⟨rfl, rfl, Or.inl rfl⟩ _

theorem first_of_fromBase (h : (commitSystem ctx (FromBase ctx)).Reachable w) :
    w.Sound ctx ∧ w.First := by
  refine h.invariant (P := fun w => w.Sound ctx ∧ w.First) ?_ ?_
  · refine fun w hinit => ⟨sound_of_init hinit, fun call hsome => ?_⟩
    rw [hinit.2.2.1] at hsome
    cases hsome
  · rintro w _ ⟨hsound, hfirst⟩ ⟨event, haddress, hbase, rfl⟩
    exact ⟨hsound.act haddress fun _ => hfirst.not_window, hfirst.act hsound hbase⟩

/-! ### What is let through -/

theorem boundaryState_of_commit {commit : CommitObject Tree}
    (hcommit : w.commits w.head = some commit)
    (hancestor : ctx.git.isAncestor w.commits w.ownership.baseSha w.head = true)
    (hidentity : w.head = w.ownership.baseSha ∨ commit.identity = ctx.identity) :
    ∃ state, boundaryState ctx w = .ok state ∧ state.headSha = w.head ∧
      state.parentShas = commit.parents := by
  simp only [boundaryState, hcommit, Except.bind_eq_ok, Except.orThrow_eq_ok,
    Except.require_eq_ok, Except.pure_eq_ok]
  exact ⟨_, ⟨commit, rfl, (), hancestor, (), hidentity, rfl⟩, rfl, rfl⟩

/-- A head that is the base or a candidate of it passes the boundary. -/
theorem Workspace.Sound.boundary (h : w.Sound ctx) : ∃ state, boundaryState ctx w = .ok state ∧
    state.headSha = w.head ∧
    (w.head ≠ w.ownership.baseSha → state.parentShas = [w.ownership.baseSha]) := by
  obtain hhead | ⟨commit, hcommit, hparents, hidentity⟩ := h.head
  · obtain ⟨commit, hcommit⟩ := Option.isSome_iff_exists.mp h.base
    rw [← hhead] at hcommit
    have hancestor : ctx.git.isAncestor w.commits w.ownership.baseSha w.head = true := by
      rw [hhead]
      exact ctx.git.isAncestor_self _ _ h.base
    obtain ⟨state, hstate, hheadSha, -⟩ := boundaryState_of_commit hcommit hancestor (Or.inl hhead)
    exact ⟨state, hstate, hheadSha, fun hne => absurd hhead hne⟩
  · have hancestor := ctx.git.isAncestor_parent _ _ commit _ hcommit hparents h.base
    obtain ⟨state, hstate, hheadSha, hstateParents⟩ :=
      boundaryState_of_commit hcommit hancestor (Or.inr hidentity)
    exact ⟨state, hstate, hheadSha, fun _ => hstateParents.trans hparents⟩

/-- A sound workspace without a commit lets the right head through. -/
theorem Workspace.Sound.accepts (h : w.Sound ctx) (hidle : w.call = none) : w.Accepts ctx := by
  obtain ⟨state, hstate, hheadSha, hparents⟩ := h.boundary
  have howned := h.idle hidle
  refine ⟨fun hchanged hallowed => ?_, fun state' hstate' hclean hlater history hallowed => ?_, ?_⟩
  · obtain ⟨_, hassert⟩ := Except.exists_of_isOk hallowed
    have hcheck : checkCommit ctx w w.head = .ok (changedPaths ctx w) := by
      simp only [checkCommit, hstate, Except.bind_eq_ok, Except.require_eq_ok, Except.pure_eq_ok]
      exact ⟨state, rfl, (), hheadSha, (), howned, (), hchanged, (), hassert, trivial⟩
    rw [hcheck]
    rfl
  · obtain rfl : state = state' := Except.ok.inj (hstate.symm.trans hstate')
    obtain ⟨_, hassert⟩ := Except.exists_of_isOk hallowed
    have hcheck : checkPush ctx w w.head history = .ok () := by
      simp only [checkPush, hstate, Except.bind_eq_ok, Except.require_eq_ok]
      exact ⟨state, rfl, (), hheadSha, (), hlater, (), howned.resolve_left hlater, (),
        hparents hlater, (), hclean, hassert⟩
    rw [hcheck]
    rfl
  · rw [hstate]
    rfl

/-! ### What is refused -/

/-- No commit is being made, and the manifest names neither the base nor the head. -/
structure Workspace.Stuck (w : Workspace Tree) : Prop where
  idle : w.call = none
  disowned : ¬ w.Owned

theorem checkPush_ok {expectedHeadSha : String} {history : List String}
    (h : checkPush ctx w expectedHeadSha history = .ok ()) :
    w.ownership.candidateHeadSha = some w.head := by
  simp only [checkPush, Except.bind_eq_ok, Except.require_eq_ok] at h
  obtain ⟨state, hstate, _, hhead, _, -, _, hcandidate, -⟩ := h
  rw [hcandidate, ← hhead, (boundaryState_ok hstate).1]

variable (ctx) in
theorem Workspace.Stuck.refuses (h : w.Stuck) : w.Refuses ctx := by
  refine ⟨h.idle, fun expectedHeadSha => ⟨?_, fun history => ?_⟩⟩
  · cases hcheck : checkCommit ctx w expectedHeadSha with
    | error _ => rfl
    | ok changed =>
      obtain ⟨rfl, hexpected⟩ := checkCommit_ok hcheck
      exact absurd hexpected h.disowned
  · cases hcheck : checkPush ctx w expectedHeadSha history with
    | error _ => rfl
    | ok _ => exact absurd (Or.inr (checkPush_ok hcheck)) h.disowned

/-- Nothing that can happen changes that. -/
theorem Workspace.Stuck.act (h : w.Stuck) (event : CommitEvent Tree) :
    (w.act ctx event).Stuck := by
  have hidle := h.idle
  cases event with
  | edit worktree => exact ⟨hidle, h.disowned⟩
  | begin expectedHeadSha sha =>
    simp only [Workspace.act, hidle]
    cases hbegin : beginCommit ctx w expectedHeadSha sha with
    | error _ => exact h
    | ok w' =>
      have hrefused := ((h.refuses ctx).2 expectedHeadSha).1
      rw [checkCommit_of_beginCommit hbegin] at hrefused
      cases hrefused
  | crash => exact ⟨rfl, h.disowned⟩
  | advance | lose | fail =>
    simp only [Workspace.act, hidle]
    exact h

/-- A commit that ends in the window leaves a stuck workspace. -/
theorem stuck_of_interrupts (h : w.Sound ctx) (hwindow : w.Window) {event : CommitEvent Tree}
    (hends : Interrupts w event) : (w.act ctx event).Stuck := by
  have hdisowned : ¬ w.Owned := fun howned => h.owned_iff.mp howned hwindow
  obtain rfl | ⟨rfl, call, hcall, hphase⟩ := hends
  · exact ⟨rfl, hdisowned⟩
  · simp only [Workspace.act, hcall, hphase]
    exact ⟨rfl, hdisowned⟩

theorem Workspace.Stuck.forever (h : w.Stuck) {w' : Workspace Tree}
    (hrun : Relation.ReflTransGen (fun w w' => ∃ event, w' = Workspace.act ctx w event) w w') :
    w'.Stuck := by
  induction hrun with
  | refl => exact h
  | tail _ hact ih =>
    obtain ⟨event, rfl⟩ := hact
    exact ih.act event

/-- A workspace whose commits all start from the base has, at every point and after every crash,
the base or the named candidate as its head, and lets through what is right for it. Where a
later commit starts from the candidate before it, the same is true exactly outside the window;
a commit that ends inside it leaves a workspace that no later event makes usable again. -/
theorem commits_owned (ctx : CommitContext Tree) :
    (∀ w, (commitSystem ctx (FromBase ctx)).Reachable w →
      w.Owned ∧ (w.call = none → w.Accepts ctx)) ∧
    (∀ w, (commitSystem ctx Uninterrupted).Reachable w →
      (w.Owned ↔ ¬ w.Window) ∧ (w.call = none → w.Accepts ctx)) ∧
    (∀ w, (commitSystem ctx Uninterrupted).Reachable w → w.Window → ∀ event, Interrupts w event →
      ∀ w', Relation.ReflTransGen (fun w w' => ∃ event, w' = Workspace.act ctx w event)
        (w.act ctx event) w' → ¬ w'.Owned ∧ w'.Refuses ctx) := by
  refine ⟨fun w h => ?_, fun w h => ?_, fun w h hwindow event hends w' hrun => ?_⟩
  · obtain ⟨hsound, hfirst⟩ := first_of_fromBase h
    exact ⟨hsound.owned_iff.mpr hfirst.not_window, hsound.accepts⟩
  · have hsound := sound_of_uninterrupted h
    exact ⟨hsound.owned_iff, hsound.accepts⟩
  · have hstuck := (stuck_of_interrupts (sound_of_uninterrupted h) hwindow hends).forever hrun
    exact ⟨hstuck.disowned, hstuck.refuses ctx⟩

/-! ### The second commit -/

/-- Nothing has the name of an object that is made. -/
def CommitEvent.fresh (w : Workspace Tree) : CommitEvent Tree → Bool
  | .begin _ sha => (w.commits sha).isNone
  | _ => true

def CommitEvent.fromBase (w : Workspace Tree) : CommitEvent Tree → Bool
  | .begin expectedHeadSha _ => expectedHeadSha = w.ownership.baseSha
  | .crash | .fail => false
  | _ => true

/-- The workspace after some events, with what is asked of each. -/
def Workspace.run (ctx : CommitContext Tree) (ok : Workspace Tree → CommitEvent Tree → Bool) :
    Workspace Tree → List (CommitEvent Tree) → Option (Workspace Tree)
  | w, [] => some w
  | w, event :: rest =>
    if event.fresh w && ok w event then (w.act ctx event).run ctx ok rest else none

theorem reachable_of_run {ok : Workspace Tree → CommitEvent Tree → Bool}
    (hok : ∀ w event, ok w event = true → allows w event)
    {w w' : Workspace Tree} (h : (commitSystem ctx allows).Reachable w)
    {events : List (CommitEvent Tree)} (hrun : w.run ctx ok events = some w') :
    (commitSystem ctx allows).Reachable w' := by
  induction events generalizing w with
  | nil => exact Option.some.inj hrun ▸ h
  | cons event rest ih =>
    simp only [Workspace.run] at hrun
    split at hrun
    case isTrue hpasses =>
      simp only [Bool.and_eq_true] at hpasses
      refine ih (h.tail ⟨event, ?_, hok w event hpasses.2, rfl⟩) hrun
      rintro expectedHeadSha sha rfl _ -
      exact Or.inl (by simpa [CommitEvent.fresh] using hpasses.1)
    case isFalse => cases hrun

end Invariant

namespace CommitExample

/-- A tree with one file, which is its text. -/
def git : Git String where
  diff before after := if before = after then [] else ["Sources/App.swift"]
  stage before after paths := if paths = [] then before else after
  isAncestor commits base sha := (commits sha).isSome && (base = sha ||
    ((commits sha).map CommitObject.parents).getD [] = [base])
  isAncestor_self commits sha h := by simp [h]
  isAncestor_parent commits sha commit base h hparents _ := by simp [h, hparents]

def ctx : CommitContext String where
  git := git
  unicode := .ascii
  configuration := BoundaryExample.configuration
  identity := ⟨"agent", "agent@localhost", "agent", "agent@localhost"⟩

def created : Workspace String where
  ownership := { baseSha := "base" }
  head := "base"
  index := "first"
  worktree := "first"
  commits sha := if sha = "base" then some ⟨"first", [], ctx.identity⟩ else none

theorem created_reachable {allows : Workspace String → CommitEvent String → Prop} :
    (commitSystem ctx allows).Reachable created :=
  .of_init ⟨rfl, rfl, rfl, rfl⟩

/-- A commit on the base, from its checks to its end. -/
def firstCommit : List (CommitEvent String) :=
  [.edit "second", .begin "base" "c1", .advance, .advance, .advance, .advance]

/-- A commit that replaces it, up to the manifest. -/
def secondCommit : List (CommitEvent String) := [.edit "third", .begin "c1" "c2", .advance]

/-- No event ends a call where it stands. -/
def calm (_ : Workspace String) : CommitEvent String → Bool
  | .crash | .fail => false
  | _ => true

theorem uninterrupted_of_calm (w : Workspace String) (event : CommitEvent String)
    (h : calm w event = true) : Uninterrupted w event := by
  rintro (rfl | ⟨rfl, -⟩) <;> cases h

theorem fromBase_of_ok (w : Workspace String) (event : CommitEvent String)
    (h : event.fromBase w = true) : FromBase ctx w event := by
  rintro expectedHeadSha sha rfl -
  simpa [CommitEvent.fromBase] using h

/-- What is left of a workspace besides its objects. -/
def summary (w : Workspace String) :
    WorkspaceOwnership × String × Option (String × String × CommitPhase) :=
  (w.ownership, w.head, w.call.map fun call =>
    (call.expectedHeadSha, call.candidateHeadSha, call.phase))

theorem firstCommit_ends :
    (created.run ctx (fun w event => event.fromBase w) firstCommit).map summary =
      some (⟨"base", some "c1"⟩, "c1", none) := by
  decide +kernel

theorem secondCommit_stops :
    (created.run ctx calm (firstCommit ++ secondCommit)).map summary =
      some (⟨"base", some "c2"⟩, "c1", some ("c1", "c2", .recorded)) := by
  decide +kernel

theorem window_of_summary {w : Workspace String}
    (h : summary w = (⟨"base", some "c2"⟩, "c1", some ("c1", "c2", .recorded))) : w.Window := by
  simp only [summary, Prod.mk.injEq, Option.map_eq_some_iff] at h
  obtain ⟨hownership, hhead, call, hcall, hexpected, hcandidate, hphase⟩ := h
  refine ⟨call, hcall, ?_, hhead.trans hexpected.symm, ?_, ?_⟩
  · rw [hphase]
    rfl
  · rw [hexpected, hownership]
    decide
  · rw [hexpected, hcandidate]
    decide

end CommitExample

open CommitExample in
/-- The first commit is owned and accepted; a second one that crashes between the manifest and the
branch leaves a workspace that refuses everything from there on. -/
theorem commits_owned_second :
    (∃ w, summary w = (⟨"base", some "c1"⟩, "c1", none) ∧ w.Owned ∧ w.Accepts ctx) ∧
    ∃ w, summary w = (⟨"base", some "c2"⟩, "c1", some ("c1", "c2", .recorded)) ∧
      ∀ w', Relation.ReflTransGen (fun w w' => ∃ event, w' = Workspace.act ctx w event)
        (w.act ctx .crash) w' → ¬ w'.Owned ∧ w'.Refuses ctx := by
  obtain ⟨w, hrun, hw⟩ := Option.map_eq_some_iff.mp firstCommit_ends
  obtain ⟨w', hrun', hw'⟩ := Option.map_eq_some_iff.mp secondCommit_stops
  have hidle : w.call = none := by simpa [summary] using congrArg (·.2.2) hw
  have hfirst := (commits_owned ctx).1 w (reachable_of_run fromBase_of_ok created_reachable hrun)
  exact ⟨⟨w, hw, hfirst.1, hfirst.2 hidle⟩, w', hw', (commits_owned ctx).2.2 w'
    (reachable_of_run uninterrupted_of_calm created_reachable hrun') (window_of_summary hw') .crash
    (Or.inl rfl)⟩

open CommitExample in
/-- A run that ends with a head that is neither the base nor the candidate, and with nothing
that is ever let through again. -/
theorem not_commits_owned :
    ∃ w, (commitSystem ctx fun _ _ => True).Reachable w ∧ ¬ w.Owned ∧ w.call = none ∧
      ∀ w', Relation.ReflTransGen (fun w w' => ∃ event, w' = Workspace.act ctx w event) w w' →
        ¬ w'.Owned ∧ w'.Refuses ctx := by
  obtain ⟨w, hrun, hw⟩ := Option.map_eq_some_iff.mp secondCommit_stops
  have hsound : w.Sound ctx :=
    sound_of_uninterrupted (reachable_of_run uninterrupted_of_calm created_reachable hrun)
  have hstuck : (w.act ctx .crash).Stuck :=
    stuck_of_interrupts hsound (window_of_summary hw) (Or.inl rfl)
  refine ⟨w.act ctx .crash, ?_, hstuck.disowned, hstuck.idle, fun w' hrun' =>
    ⟨(hstuck.forever hrun').disowned, (hstuck.forever hrun').refuses ctx⟩⟩
  refine (reachable_of_run (fun _ _ _ => trivial) created_reachable hrun).tail
    ⟨.crash, ?_, trivial, rfl⟩
  rintro _ _ ⟨⟩

end ControlPlane.HostAgent
