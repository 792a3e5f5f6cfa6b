import ControlPlane.Lib.Interleaving
import Mathlib.Data.Nat.Notation

/-!
# The artifact store

Payloads are stored as files under the digits of their digests. A payload is written under a
temporary name first and then linked to its final name, so that the final name never leads to
a part of it. Every call is cut into its calls of the file system, and any number of calls
take them in turn.

## Main definitions

* `FileSystem`: the shard directories, their entries and the files.
* `advance`: the next call of the file system that a call of the store makes.
* `Act`: its steps with what the operating system chooses, errors and crashes.
-/
namespace ControlPlane.ArtifactStore

/-! ### Files and directories -/

abbrev Bytes := List UInt8

/-- The hexadecimal digits of a digest. -/
abbrev Hex := List Char

abbrev Inode := ℕ

/-- A shard directory, made under the digits it is named after. -/
structure Directory where
  shard : Hex
  number : ℕ
  deriving DecidableEq

/-- Names in a shard directory. -/
inductive Name where
  | artifact (digits : Hex)
  | temporary (token : ℕ)
  deriving DecidableEq

/-- What the path of a shard leads to, what the names in a directory are links to, and what
the files contain. A directory that its path does not lead to any more keeps its entries. -/
structure FileSystem where
  resolve : Hex → Option Directory
  entries : Directory → Name → Option Inode
  contents : Inode → Bytes

namespace FileSystem

def empty : FileSystem := ⟨fun _ => none, fun _ _ => none, fun _ => []⟩

def setEntry (fs : FileSystem) (d : Directory) (name : Name) (file : Option Inode) : FileSystem :=
  { fs with entries := fun d' name' =>
      if d' = d ∧ name' = name then file else fs.entries d' name' }

def link (fs : FileSystem) (d : Directory) (name : Name) (file : Inode) : FileSystem :=
  fs.setEntry d name (some file)

def unlink (fs : FileSystem) (d : Directory) (name : Name) : FileSystem := fs.setEntry d name none

def write (fs : FileSystem) (file : Inode) (bytes : Bytes) : FileSystem :=
  { fs with contents := Function.update fs.contents file bytes }

def setPath (fs : FileSystem) (shard : Hex) (d : Option Directory) : FileSystem :=
  { fs with resolve := Function.update fs.resolve shard d }

section Fields
variable {fs : FileSystem} {d : Directory} {name : Name} {file : Option Inode} {shard : Hex}

@[simp] theorem setEntry_resolve : (fs.setEntry d name file).resolve = fs.resolve := rfl
@[simp] theorem setEntry_contents : (fs.setEntry d name file).contents = fs.contents := rfl
@[simp] theorem write_resolve (i : Inode) (bytes : Bytes) :
    (fs.write i bytes).resolve = fs.resolve := rfl
@[simp] theorem write_entries (i : Inode) (bytes : Bytes) :
    (fs.write i bytes).entries = fs.entries := rfl
@[simp] theorem setPath_entries (target : Option Directory) :
    (fs.setPath shard target).entries = fs.entries := rfl
@[simp] theorem setPath_contents (target : Option Directory) :
    (fs.setPath shard target).contents = fs.contents := rfl

theorem setEntry_entries (d' : Directory) (name' : Name) :
    (fs.setEntry d name file).entries d' name' =
      if d' = d ∧ name' = name then file else fs.entries d' name' := rfl

theorem setEntry_self : (fs.setEntry d name file).entries d name = file := by
  simp [setEntry_entries]

theorem setEntry_of_ne {d' : Directory} {name' : Name} (h : ¬ (d' = d ∧ name' = name)) :
    (fs.setEntry d name file).entries d' name' = fs.entries d' name' := if_neg h

theorem write_contents_of_ne {i j : Inode} (bytes : Bytes) (h : j ≠ i) :
    (fs.write i bytes).contents j = fs.contents j := Function.update_of_ne h _ _

theorem write_contents_self (i : Inode) (bytes : Bytes) : (fs.write i bytes).contents i = bytes :=
  Function.update_self _ _ _

end Fields

end FileSystem

/-! ### Addresses -/

def hexDigits : List Char := "0123456789abcdef".toList

/-- The digits of a canonical address. -/
def validateAddress (address : String) : Option Hex :=
  let digits := address.toList.drop 7
  if "sha256:".toList.isPrefixOf address.toList ∧ digits.length = 64 ∧
      digits.all hexDigits.contains then some digits
  else none

/-- The digits that name the shard, and those that name the artifact in it. -/
def shardOf (digits : Hex) : Hex := digits.take 2
def nameOf (digits : Hex) : Name := .artifact (digits.drop 2)

/-! ### The calls of the store -/

inductive Call where
  | put (payload : Bytes)
  | get (address : String)
  | delete (address : String)
  deriving DecidableEq

/-- The digits a call is about; a call with an invalid address raises at once. -/
def Call.digits? (sha256 : Bytes → Hex) : Call → Option Hex
  | put payload => some (sha256 payload)
  | get address | delete address => validateAddress address

/-- How a call ends. -/
inductive Outcome where
  | stored (size : ℕ)
  | payload (bytes : Bytes)
  | deleted (existed : Bool)
  | notFound
  | corrupted
  /-- The directory was detached, or the artifact changed, during the operation. -/
  | detached
  | changed
  /-- An error of the operating system. -/
  | failed
  deriving DecidableEq

/-- A temporary file of a call: its name and its file. -/
structure Temporary where
  token : ℕ
  file : Inode
  deriving DecidableEq

/-- Where a call stands between two calls of the file system. -/
inductive Phase where
  /-- Before the shard directory is opened. -/
  | opening
  /-- `_read_verified`, from the first look of a `put` or `get` on or after a failed link. -/
  | searching (d : Directory) (temporary : Option Temporary)
  | reading (d : Directory) (temporary : Option Temporary) (file : Inode)
  | confirming (d : Directory) (temporary : Option Temporary) (found : Bytes)
  | creating (d : Directory)
  | writing (d : Directory) (temporary : Temporary)
  | linking (d : Directory) (temporary : Temporary)
  | installed (d : Directory) (temporary : Temporary)
  /-- `_unlink_if_same_artifact`. -/
  | retracting (d : Directory) (temporary : Temporary)
  | removing (d : Directory) (temporary : Temporary)
  | cleaning (d : Directory) (temporary : Temporary) (outcome : Outcome)
  /-- A `delete`, whose descriptor is closed before the second look. -/
  | targeting (d : Directory)
  | checking (d : Directory) (file : Inode)
  | approving (d : Directory)
  | unlinking (d : Directory)
  | finished (outcome : Outcome)
  deriving DecidableEq

namespace Phase

def directory : Phase → Option Directory
  | opening | finished _ => none
  | searching d _ | reading d _ _ | confirming d _ _ | creating d | writing d _ | linking d _
  | installed d _ | retracting d _ | removing d _ | cleaning d _ _ | targeting d | checking d _
  | approving d | unlinking d => some d

def temporary : Phase → Option (Directory × Temporary)
  | searching d temporary | reading d temporary _ | confirming d temporary _ =>
    temporary.map (d, ·)
  | writing d t | linking d t | installed d t | retracting d t | removing d t | cleaning d t _ =>
    some (d, t)
  | _ => none

/-- The file behind an open descriptor. -/
def opened : Phase → Option Inode
  | reading _ _ file => some file
  | writing _ t => some t.file
  | _ => none

/-- A call ends; with a temporary file it removes that first. -/
def ending (phase : Phase) (outcome : Outcome) : Phase :=
  match phase.temporary with
  | some (d, t) => cleaning d t outcome
  | none => finished outcome

end Phase

/-- A call under way; a call that is stopped has crashed. -/
structure Process where
  call : Call
  digits : Hex
  phase : Phase
  stopped : Bool

def Process.goto (p : Process) (phase : Phase) : Process := { p with phase }

/-- What a call that has read its artifact ends with. -/
def Call.read (call : Call) (found : Bytes) : Outcome :=
  match call with
  | put _ => .stored found.length
  | _ => .payload found

/-- The number of bytes a call stores. -/
def Call.size : Call → ℕ
  | put payload => payload.length
  | _ => 0

section Calls
variable (sha256 : Bytes → Hex)

/-- The next call of the file system, where nothing is left to the operating system. -/
def advance (fs : FileSystem) (p : Process) : FileSystem × Phase :=
  match p.phase with
  | .opening =>
    match fs.resolve (shardOf p.digits), p.call with
    | some d, .delete _ => (fs, .targeting d)
    | some d, _ => (fs, .searching d none)
    -- A `put` makes the directory, see `Act.makeDirectory`.
    | none, .put _ => (fs, .opening)
    | none, .get _ => (fs, .finished .notFound)
    | none, .delete _ => (fs, .finished (.deleted false))
  | .searching d temporary =>
    match fs.entries d (nameOf p.digits), temporary, p.call with
    | some file, _, _ => (fs, .reading d temporary file)
    | none, some t, _ => (fs, .linking d t)
    | none, none, .put _ => (fs, .creating d)
    | none, none, _ => (fs, .finished .notFound)
  | .reading d temporary file =>
    if sha256 (fs.contents file) = p.digits then
      (fs, .confirming d temporary (fs.contents file))
    else (fs, p.phase.ending .corrupted)
  | .confirming d _ found =>
    (fs, p.phase.ending
      (if fs.resolve (shardOf p.digits) = some d then p.call.read found else .detached))
  -- The file is made by `Act.create`.
  | .creating d => (fs, .creating d)
  | .writing d t =>
    match p.call with
    | .put payload => (fs.write t.file payload, .linking d t)
    | _ => (fs, .writing d t)
  | .linking d t =>
    match fs.entries d (nameOf p.digits) with
    | none => (fs.link d (nameOf p.digits) t.file, .installed d t)
    | some _ => (fs, .searching d (some t))
  | .installed d t =>
    if fs.resolve (shardOf p.digits) = some d then
      (fs, .cleaning d t (.stored p.call.size))
    else (fs, .retracting d t)
  | .retracting d t =>
    -- Its own name leads to the same file at both looks.
    match fs.entries d (.temporary t.token), fs.entries d (nameOf p.digits) with
    | some own, some file =>
      if own = file then (fs, .removing d t) else (fs, .cleaning d t .detached)
    | _, _ => (fs, .cleaning d t .detached)
  | .removing d t =>
    match fs.entries d (nameOf p.digits) with
    | some _ => (fs.unlink d (nameOf p.digits), .cleaning d t .detached)
    | none => (fs, .cleaning d t .failed)
  | .cleaning d t outcome => (fs.unlink d (.temporary t.token), .finished outcome)
  | .targeting d =>
    match fs.entries d (nameOf p.digits) with
    | none => (fs, .finished (.deleted false))
    | some file => (fs, .checking d file)
  | .checking d file =>
    match fs.entries d (nameOf p.digits) with
    | none => (fs, .finished (.deleted false))
    | some current => if current = file then (fs, .approving d) else (fs, .finished .changed)
  | .approving d =>
    if fs.resolve (shardOf p.digits) = some d then (fs, .unlinking d)
    else (fs, .finished .detached)
  | .unlinking d =>
    match fs.entries d (nameOf p.digits) with
    | some _ => (fs.unlink d (nameOf p.digits), .finished (.deleted true))
    | none => (fs, .finished .failed)
  | .finished outcome => (fs, .finished outcome)

/-- A file that has no name and no open descriptor; its number may have been used before. -/
def Unused (fs : FileSystem) (others : Set Process) (file : Inode) : Prop :=
  (∀ d name, fs.entries d name ≠ some file) ∧
    ∀ q ∈ others, q.stopped = false → q.phase.opened ≠ some file

/-- The steps of a call. -/
inductive Act (fs : FileSystem) (others : Set Process) (p : Process) :
    FileSystem → Process → Prop
  | advance (hlive : p.stopped = false) :
      Act fs others p (advance sha256 fs p).1 (p.goto (advance sha256 fs p).2)
  | makeDirectory {payload : Bytes} {d : Directory} (hlive : p.stopped = false)
      (hphase : p.phase = .opening) (hcall : p.call = .put payload)
      (hmissing : fs.resolve (shardOf p.digits) = none) (hshard : d.shard = shardOf p.digits)
      (hempty : ∀ name, fs.entries d name = none) :
      Act fs others p (fs.setPath (shardOf p.digits) (some d)) (p.goto (.searching d none))
  | create {d : Directory} {t : Temporary} (hlive : p.stopped = false)
      (hphase : p.phase = .creating d) (hfree : fs.entries d (.temporary t.token) = none)
      (hunused : Unused fs others t.file) :
      Act fs others p ((fs.link d (.temporary t.token) t.file).write t.file [])
        (p.goto (.writing d t))
  | write {d : Directory} {t : Temporary} {payload written : Bytes} (hlive : p.stopped = false)
      (hphase : p.phase = .writing d t) (hcall : p.call = .put payload)
      (hwritten : written <+: payload) : Act fs others p (fs.write t.file written) p
  | fail (hlive : p.stopped = false)
      (hgoing : ∀ d t outcome, p.phase ≠ .cleaning d t outcome)
      (hunfinished : ∀ outcome, p.phase ≠ .finished outcome) :
      Act fs others p fs (p.goto (p.phase.ending .failed))
  -- A crash, or an error while the temporary name is removed.
  | stop : Act fs others p fs { p with stopped := true }

/-- The calls of the store on one file system; the path of a shard may be detached. -/
def store : Processes FileSystem Process where
  init fs := fs = .empty
  start p := p.call.digits? sha256 = some p.digits ∧ p.phase = .opening ∧ p.stopped = false
  act := Act sha256
  surroundings fs fs' := ∃ shard, fs' = fs.setPath shard none

end Calls

end ControlPlane.ArtifactStore
