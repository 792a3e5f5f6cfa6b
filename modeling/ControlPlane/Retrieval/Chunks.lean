import Mathlib.Data.List.Basic
import Mathlib.Data.List.Range
import Mathlib.Tactic.Linarith

/-!
# Chunks of a source text

The retrieval index cuts a verified text into overlapping spans, and the verifier computes the
span of an ordinal again, by a closed formula.

## Main definitions

* `chunks`: the loop that cuts a text.
* `Chunk.spanVerified`: the offsets that the verifier expects.

## Main results

* `chunks_eq_map`: the spans of the loop are those of the formula.
* `chunks_cut`: the ordinals, the spans, their overlap, and that they cover the text.
-/
namespace ControlPlane.Retrieval

/-! ### The loop -/

def retrievalChunkCharacters : ℕ := 1000

def retrievalChunkOverlap : ℕ := 100

/-- The characters from an offset up to another. -/
def slice (text : List Char) (start stop : ℕ) : List Char := (text.drop start).take (stop - start)

structure Chunk where
  ordinal : ℕ
  startOffset : ℕ
  endOffset : ℕ
  text : List Char
  deriving DecidableEq

/-- The rounds of the loop from an offset on. -/
def chunksFrom (text : List Char) (start ordinal : ℕ) : List Chunk :=
  if start < text.length then
    let stop := min text.length (start + retrievalChunkCharacters)
    let value := slice text start stop
    let found := if value = [] then [] else [⟨ordinal, start, stop, value⟩]
    if stop = text.length then found
    else found ++ chunksFrom text (stop - retrievalChunkOverlap)
      (if value = [] then ordinal else ordinal + 1)
  else []
termination_by text.length - start
decreasing_by
  rename_i hstart hstop
  simp only [stop, retrievalChunkCharacters] at hstop
  simp only [retrievalChunkCharacters, retrievalChunkOverlap]
  omega

def chunks (text : List Char) : List Chunk :=
  if text = [] then [] else chunksFrom text 0 1

/-! ### The verifier -/

def expectedStart (ordinal : ℕ) : ℕ :=
  (ordinal - 1) * (retrievalChunkCharacters - retrievalChunkOverlap)

def expectedEnd (sourceText : List Char) (ordinal : ℕ) : ℕ :=
  min sourceText.length (expectedStart ordinal + retrievalChunkCharacters)

/-- The checks on the span of a chunk, when its payload is read and against the source. -/
def Chunk.spanVerified (c : Chunk) (sourceText : List Char) : Bool :=
  1 ≤ c.ordinal && c.startOffset + 1 ≤ c.endOffset && !c.text.isEmpty &&
    c.endOffset - c.startOffset = c.text.length &&
    c.startOffset = expectedStart c.ordinal && c.endOffset = expectedEnd sourceText c.ordinal &&
    c.text = slice sourceText (expectedStart c.ordinal) (expectedEnd sourceText c.ordinal)

/-- The chunk that the verifier expects under an ordinal. -/
def expectedChunk (sourceText : List Char) (ordinal : ℕ) : Chunk where
  ordinal := ordinal
  startOffset := expectedStart ordinal
  endOffset := expectedEnd sourceText ordinal
  text := slice sourceText (expectedStart ordinal) (expectedEnd sourceText ordinal)

/-! ### The loop keeps to the formula -/

section Loop
variable {text : List Char} {start stop : ℕ}

theorem length_slice (h : stop ≤ text.length) : (slice text start stop).length = stop - start := by
  rw [slice, List.length_take, List.length_drop]
  omega

theorem slice_ne_nil (hstart : start < stop) (hstop : stop ≤ text.length) :
    slice text start stop ≠ [] := by
  intro hnil
  have hlength : (slice text start stop).length = stop - start := length_slice hstop
  rw [hnil, List.length_nil] at hlength
  omega

theorem expectedStart_succ (k : ℕ) : expectedStart (k + 1) = 900 * k := by
  simp only [expectedStart, retrievalChunkCharacters, retrievalChunkOverlap]
  omega

theorem expectedEnd_succ (k : ℕ) :
    expectedEnd text (k + 1) = min text.length (900 * k + 1000) := by
  rw [expectedEnd, expectedStart_succ]
  rfl

/-- One round: a chunk, and the rest unless the text ends in it. -/
theorem chunksFrom_round {k : ℕ} (hstart : 900 * k < text.length) :
    chunksFrom text (900 * k) (k + 1) = expectedChunk text (k + 1) ::
      if text.length ≤ 900 * k + 1000 then []
      else chunksFrom text (900 * (k + 1)) (k + 2) := by
  have hchunk : expectedChunk text (k + 1) =
      ⟨k + 1, 900 * k, min text.length (900 * k + 1000),
        slice text (900 * k) (min text.length (900 * k + 1000))⟩ := by
    rw [expectedChunk, expectedStart_succ, expectedEnd_succ]
  have hvalue : slice text (900 * k) (min text.length (900 * k + retrievalChunkCharacters)) ≠ [] := by
    refine slice_ne_nil ?_ (Nat.min_le_left _ _)
    simp only [retrievalChunkCharacters]
    omega
  rw [chunksFrom, if_pos hstart]
  simp only [if_neg hvalue, hchunk]
  by_cases hlast : text.length ≤ 900 * k + 1000
  · have hstop : min text.length (900 * k + retrievalChunkCharacters) = text.length :=
      Nat.min_eq_left hlast
    rw [if_pos hlast, if_pos hstop]
    rfl
  · have hstop : min text.length (900 * k + retrievalChunkCharacters) = 900 * k + 1000 := by
      simp only [retrievalChunkCharacters]
      omega
    have hnext : 900 * k + 1000 - retrievalChunkOverlap = 900 * (k + 1) := by
      simp only [retrievalChunkOverlap]
      omega
    rw [if_neg hlast, if_neg (by omega), hstop, hnext, Nat.min_eq_right (by omega)]
    rfl

/-- The rounds from one on: `n` chunks, of which the last and no other reaches the end. -/
theorem chunksFrom_spec (n : ℕ) : ∀ k, text.length ≤ 900 * (k + n) + 1000 →
    900 * k < text.length →
    ∃ m, chunksFrom text (900 * k) (k + 1) =
        (List.range' (k + 1) (m + 1)).map (expectedChunk text) ∧
      text.length ≤ 900 * (k + m) + 1000 ∧ (0 < m → 900 * (k + m) + 100 < text.length) := by
  induction n with
  | zero =>
    intro k hbound hstart
    refine ⟨0, ?_, hbound, fun h => absurd h (Nat.lt_irrefl 0)⟩
    have hlast : text.length ≤ 900 * k + 1000 := hbound
    rw [chunksFrom_round hstart, if_pos hlast]
    rfl
  | succ n ih =>
    intro k hbound hstart
    rw [chunksFrom_round hstart]
    by_cases hlast : text.length ≤ 900 * k + 1000
    · refine ⟨0, ?_, hlast, fun h => absurd h (Nat.lt_irrefl 0)⟩
      rw [if_pos hlast]
      rfl
    · have hnext : 900 * (k + 1) < text.length := by omega
      obtain ⟨m, hrest, hends, hinner⟩ := ih (k + 1) (by omega) hnext
      refine ⟨m + 1, ?_, by omega, fun _ => ?_⟩
      · rw [if_neg hlast, hrest, List.range'_succ]
        rfl
      · rcases Nat.eq_zero_or_pos m with rfl | hpos
        · omega
        · have := hinner hpos
          omega

end Loop

/-- How many chunks a text has. -/
structure ChunkCount (text : List Char) (n : ℕ) : Prop where
  /-- The last chunk reaches the end. -/
  reaches : text.length ≤ 900 * (n - 1) + 1000
  /-- No other does. -/
  needed : 1 < n → 900 * (n - 1) + 100 < text.length
  empty : n = 0 ↔ text = []

theorem chunks_eq_map (text : List Char) :
    ∃ n, ChunkCount text n ∧ chunks text = (List.range' 1 n).map (expectedChunk text) := by
  rw [chunks]
  by_cases hempty : text = []
  · subst hempty
    exact ⟨0, ⟨Nat.zero_le _, fun h => absurd h (by decide), by simp⟩, by simp⟩
  · have hpos := List.length_pos_of_ne_nil hempty
    obtain ⟨m, hchunks, hreaches, hneeded⟩ :=
      @chunksFrom_spec text text.length 0 (by omega) (by omega)
    refine ⟨m + 1, ⟨?_, fun h => ?_, by simp [hempty]⟩, ?_⟩
    · simpa using hreaches
    · simpa using hneeded (by omega)
    · rw [if_neg hempty]
      simpa using hchunks

/-! ### What the cut gives -/

/-- A text is cut into chunks: numbered from one, each a slice at its place, each overlapping
the next by the overlap, none inside another, and together the whole text. -/
structure Cut (text : List Char) (chunks : List Chunk) : Prop where
  ordinals : chunks.map Chunk.ordinal = List.range' 1 chunks.length
  start : ∀ c ∈ chunks, c.startOffset =
    (c.ordinal - 1) * (retrievalChunkCharacters - retrievalChunkOverlap)
  stop : ∀ c ∈ chunks, c.endOffset =
    min (c.startOffset + retrievalChunkCharacters) text.length
  slices : ∀ c ∈ chunks, c.text = slice text c.startOffset c.endOffset
  overlap : ∀ c ∈ chunks, ∀ d ∈ chunks, d.ordinal = c.ordinal + 1 →
    d.startOffset + retrievalChunkOverlap = c.endOffset
  covered : ∀ i < text.length, ∃ c ∈ chunks, c.startOffset ≤ i ∧ i < c.endOffset ∧
    c.text[i - c.startOffset]? = text[i]?
  apart : chunks.Pairwise fun c d =>
    c.startOffset < d.startOffset ∧ c.endOffset < d.endOffset
  verified : ∀ c ∈ chunks, c.spanVerified text = true

section Expected
variable {text : List Char} {n k : ℕ}

/-- The span of a chunk that the text has, and that it does not end in another. -/
theorem ChunkCount.span (h : ChunkCount text n) (hk : k < n) :
    900 * k < text.length ∧ (k + 1 < n → 900 * k + 1000 < text.length) := by
  have hne : text ≠ [] := fun hnil => absurd (h.empty.mpr hnil) (by omega)
  have hpos := List.length_pos_of_ne_nil hne
  rcases Nat.lt_or_ge 1 n with hmany | hone
  · have := h.needed hmany
    exact ⟨by omega, fun _ => by omega⟩
  · exact ⟨by omega, fun _ => by omega⟩

theorem expectedChunk_verified (hk : 900 * k < text.length) :
    (expectedChunk text (k + 1)).spanVerified text = true := by
  have hlength : (slice text (900 * k) (min text.length (900 * k + 1000))).length =
      min text.length (900 * k + 1000) - 900 * k := length_slice (Nat.min_le_left _ _)
  have hne : slice text (900 * k) (min text.length (900 * k + 1000)) ≠ [] :=
    slice_ne_nil (by omega) (Nat.min_le_left _ _)
  simp only [Chunk.spanVerified, expectedChunk, expectedStart_succ, expectedEnd_succ,
    Bool.and_eq_true, decide_eq_true_eq, Bool.not_eq_true', List.isEmpty_eq_false_iff, hlength]
  exact ⟨⟨⟨⟨⟨⟨by omega, by omega⟩, hne⟩, trivial⟩, trivial⟩, trivial⟩, trivial⟩

theorem slice_getElem? {start stop i : ℕ} (hstart : start ≤ i) (hstop : i < stop) :
    (slice text start stop)[i - start]? = text[i]? := by
  rw [slice, List.getElem?_take_of_lt (by omega), List.getElem?_drop]
  congr 1
  omega

/-- The chunk that holds a character: the last that starts before it, unless it is past the
last one. -/
theorem ChunkCount.holds (h : ChunkCount text n) {i : ℕ} (hi : i < text.length) :
    ∃ k < n, 900 * k ≤ i ∧ i < min text.length (900 * k + 1000) := by
  have hne : n ≠ 0 := fun hzero => by
    rw [h.empty.mp hzero] at hi
    exact absurd hi (Nat.not_lt_zero i)
  have hreaches := h.reaches
  refine ⟨min (i / 900) (n - 1), by omega, by omega, ?_⟩
  have hdiv := Nat.div_add_mod i 900
  have hmod := Nat.mod_lt i (show 0 < 900 by decide)
  rcases Nat.le_total (i / 900) (n - 1) with hle | hge
  · rw [Nat.min_eq_left hle]
    omega
  · rw [Nat.min_eq_right hge]
    omega

end Expected

/-- The chunks of every text. -/
theorem chunks_cut (text : List Char) : Cut text (chunks text) := by
  obtain ⟨n, hcount, hchunks⟩ := chunks_eq_map text
  have hmem : ∀ c ∈ chunks text, ∃ k < n, c = expectedChunk text (k + 1) := by
    intro c hc
    rw [hchunks, List.mem_map] at hc
    obtain ⟨ordinal, hordinal, rfl⟩ := hc
    obtain ⟨hlow, hhigh⟩ := List.mem_range'_1.mp hordinal
    refine ⟨ordinal - 1, by omega, ?_⟩
    rw [Nat.sub_add_cancel hlow]
  have hfound : ∀ k < n, expectedChunk text (k + 1) ∈ chunks text := by
    intro k hk
    rw [hchunks, List.mem_map]
    exact ⟨k + 1, List.mem_range'_1.mpr ⟨by omega, by omega⟩, rfl⟩
  have hlength : (chunks text).length = n := by
    rw [hchunks, List.length_map, List.length_range']
  constructor
  · rw [hlength, hchunks, List.map_map]
    exact List.map_id _
  · intro c hc
    obtain ⟨k, -, rfl⟩ := hmem c hc
    rfl
  · intro c hc
    obtain ⟨k, -, rfl⟩ := hmem c hc
    exact Nat.min_comm _ _
  · intro c hc
    obtain ⟨k, -, rfl⟩ := hmem c hc
    rfl
  · intro c hc d hd hnext
    obtain ⟨k, hk, rfl⟩ := hmem c hc
    obtain ⟨l, hl, rfl⟩ := hmem d hd
    obtain rfl : l = k + 1 := by simpa [expectedChunk] using hnext
    have hinner := (hcount.span hk).2 hl
    simp only [expectedChunk, expectedStart_succ, expectedEnd_succ, retrievalChunkOverlap]
    omega
  · intro i hi
    obtain ⟨k, hk, hlow, hhigh⟩ := hcount.holds hi
    refine ⟨expectedChunk text (k + 1), hfound k hk, ?_⟩
    simp only [expectedChunk, expectedStart_succ, expectedEnd_succ]
    exact ⟨hlow, hhigh, slice_getElem? hlow hhigh⟩
  · rw [hchunks, List.pairwise_map]
    refine (List.pairwise_lt_range' (s := 1) (n := n)).imp_of_mem ?_
    intro a b ha hb hlt
    obtain ⟨hlow, hhigh⟩ := List.mem_range'_1.mp ha
    obtain ⟨-, hhigh'⟩ := List.mem_range'_1.mp hb
    obtain ⟨k, rfl⟩ := Nat.exists_eq_add_of_le' hlow
    obtain ⟨l, rfl⟩ := Nat.exists_eq_add_of_lt hlt
    have hinner := (hcount.span (k := k) (by omega)).2 (by omega)
    simp only [expectedChunk, expectedStart_succ, expectedEnd_succ]
    omega
  · intro c hc
    obtain ⟨k, hk, rfl⟩ := hmem c hc
    exact expectedChunk_verified (hcount.span hk).1

/-- A text that ends between the end of its first chunk and the next start plus the overlap. -/
example : ((chunks (List.replicate 1001 'a')).map fun c => (c.ordinal, c.startOffset, c.endOffset)) =
    [(1, 0, 1000), (2, 900, 1001)] := by
  obtain ⟨n, hcount, hchunks⟩ := chunks_eq_map (List.replicate 1001 'a')
  obtain rfl : n = 2 := by
    have hreaches := hcount.reaches
    have hneeded := hcount.needed
    rw [List.length_replicate] at hreaches hneeded
    omega
  rw [hchunks, List.map_map]
  decide +kernel

end ControlPlane.Retrieval
