import ControlPlane.Evidence.Transparency

/-!
# Redaction, text by text

A value within the limits of redaction, whose keys differ and are not sensitive, is redacted by
rewriting its texts. What redaction does with each text can then be found out by itself.

## Main definitions

* `strings`, `WellKeyed`, `counted`
* `rewritten`

## Main results

* `redactEvidenceContent_of_rewritten`
-/
namespace ControlPlane

open Regex

/-! ### Texts and keys -/

mutual

/-- The texts in a value, keys aside. -/
def strings : Json → List String
  | .str s => [s]
  | .arr items => stringsOfItems items
  | .obj fields => stringsOfFields fields
  | _ => []

def stringsOfItems : List Json → List String
  | [] => []
  | item :: rest => strings item ++ stringsOfItems rest

def stringsOfFields : List (String × Json) → List String
  | [] => []
  | (_, child) :: rest => strings child ++ stringsOfFields rest

end

section Keys
variable (u : Unicode)

mutual

/-- The keys of every object in a value differ, and none is sensitive. -/
def WellKeyed : Json → Prop
  | .arr items => WellKeyedItems items
  | .obj fields => (fields.map Prod.fst).Nodup ∧ WellKeyedFields fields
  | _ => True

def WellKeyedItems : List Json → Prop
  | [] => True
  | item :: rest => WellKeyed item ∧ WellKeyedItems rest

def WellKeyedFields : List (String × Json) → Prop
  | [] => True
  | (key, child) :: rest => sensitiveKey u key = false ∧ WellKeyed child ∧ WellKeyedFields rest

end

end Keys

/-! ### Values within the limits of redaction -/

/-- The count of values after one more is entered, within the limits. -/
def entered (depth n : ℕ) : Option ℕ :=
  if maxEvidenceDepth < depth ∨ maxEvidenceNodes < n + 1 then none else some (n + 1)

mutual

/-- The count of values after a value is walked through, within the limits. -/
def counted (depth : ℕ) : Json → ℕ → Option ℕ
  | .arr items, n => (entered depth n).bind (countedItems (depth + 1) items)
  | .obj fields, n => (entered depth n).bind (countedFields (depth + 1) fields)
  | _, n => entered depth n

def countedItems (depth : ℕ) : List Json → ℕ → Option ℕ
  | [], n => some n
  | item :: rest, n => (counted depth item n).bind (countedItems depth rest)

def countedFields (depth : ℕ) : List (String × Json) → ℕ → Option ℕ
  | [], n => some n
  | (_, child) :: rest, n => (counted depth child n).bind (countedFields depth rest)

end

mutual

/-- A value with its texts rewritten. -/
def rewritten (f : String → String) : Json → Json
  | .str s => .str (f s)
  | .arr items => .arr (rewrittenItems f items)
  | .obj fields => .obj (rewrittenFields f fields)
  | other => other

def rewrittenItems (f : String → String) : List Json → List Json
  | [] => []
  | item :: rest => rewritten f item :: rewrittenItems f rest

def rewrittenFields (f : String → String) : List (String × Json) → List (String × Json)
  | [] => []
  | (key, child) :: rest => (key, rewritten f child) :: rewrittenFields f rest

end

section Limits
variable {u : Unicode}

theorem enter_of_entered {depth n : ℕ} {t : Tally} (h : entered depth t.nodes = some n) :
    t.enter depth = .ok { t with nodes := n } := by
  unfold entered at h
  split at h
  · cases h
  · rename_i hbounds
    rw [not_or] at hbounds
    cases h
    rw [Tally.enter, if_neg hbounds.1, if_neg hbounds.2]

mutual

/-- A value within the limits, whose keys differ and are not sensitive, is redacted. -/
theorem redactJsonValue_of_counted {depth : ℕ} : ∀ {j : Json} {t : Tally} {n : ℕ},
    WellKeyed u j → counted depth j t.nodes = some n →
      ∃ counts, redactJsonValue u depth j t = .ok (redacted u j, ⟨n, counts⟩)
  | .null, t, _, _, h | .bool _, t, _, _, h | .int _, t, _, _, h | .float _, t, _, _, h => by
    simp only [counted] at h
    exact ⟨t.counts, by rw [redactJsonValue, enter_of_entered h]; rfl⟩
  | .str s, t, n, _, h => by
    simp only [counted] at h
    have htext := redactText_fst s t.counts (u := u)
    obtain ⟨text, counts, hredacted⟩ : ∃ text counts, redactText u s t.counts = (text, counts) :=
      ⟨_, _, rfl⟩
    rw [hredacted] at htext
    refine ⟨counts, ?_⟩
    simp only [redactJsonValue, enter_of_entered h, Except.ok_bind, hredacted, redacted, ← htext]
    rfl
  | .arr items, t, n, hkeyed, h => by
    simp only [counted, Option.bind_eq_some_iff] at h
    obtain ⟨m, hm, h⟩ := h
    simp only [WellKeyed] at hkeyed
    obtain ⟨counts, hitems⟩ := redactItems_of_counted (t := ⟨m, t.counts⟩) hkeyed h
    refine ⟨counts, ?_⟩
    simp only [redactJsonValue, enter_of_entered hm, redacted, Except.ok_bind, hitems]
    rfl
  | .obj fields, t, n, hkeyed, h => by
    simp only [counted, Option.bind_eq_some_iff] at h
    obtain ⟨m, hm, h⟩ := h
    simp only [WellKeyed] at hkeyed
    obtain ⟨counts, hfields⟩ := redactFields_of_counted (t := ⟨m, t.counts⟩) hkeyed.1
      (fun _ _ => List.not_mem_nil) hkeyed.2 h
    refine ⟨counts, ?_⟩
    simp only [redactJsonValue, enter_of_entered hm, redacted, Except.ok_bind, hfields]
    rfl

theorem redactItems_of_counted {depth : ℕ} : ∀ {items : List Json} {t : Tally} {n : ℕ},
    WellKeyedItems u items → countedItems depth items t.nodes = some n →
      ∃ counts, redactItems u depth items t = .ok (redactedItems u items, ⟨n, counts⟩)
  | [], t, n, _, h => by
    rw [countedItems, Option.some.injEq] at h
    exact ⟨t.counts, by rw [redactItems, redactedItems, ← h]⟩
  | item :: rest, t, n, hkeyed, h => by
    rw [countedItems, Option.bind_eq_some_iff] at h
    obtain ⟨m, hm, h⟩ := h
    rw [WellKeyedItems] at hkeyed
    obtain ⟨counts, hitem⟩ := redactJsonValue_of_counted hkeyed.1 hm
    obtain ⟨counts', hrest⟩ := redactItems_of_counted (t := ⟨m, counts⟩) hkeyed.2 h
    refine ⟨counts', ?_⟩
    rw [redactItems, hitem, redactedItems]
    simp only [Except.ok_bind, hrest]
    rfl

theorem redactFields_of_counted {depth : ℕ} : ∀ {fields : List (String × Json)}
    {taken : List String} {t : Tally} {n : ℕ}, (fields.map Prod.fst).Nodup →
      (∀ key ∈ fields.map Prod.fst, key ∉ taken) → WellKeyedFields u fields →
        countedFields depth fields t.nodes = some n →
          ∃ counts, redactFields u depth taken fields t =
            .ok (redactedFields u fields, ⟨n, counts⟩)
  | [], taken, t, n, _, _, _, h => by
    rw [countedFields, Option.some.injEq] at h
    exact ⟨t.counts, by rw [redactFields, redactedFields, ← h]⟩
  | (key, child) :: rest, taken, t, n, hnodup, hfresh, hkeyed, h => by
    rw [countedFields, Option.bind_eq_some_iff] at h
    obtain ⟨m, hm, h⟩ := h
    rw [WellKeyedFields] at hkeyed
    rw [List.map_cons, List.nodup_cons] at hnodup
    have hkey : taken.contains key = false := by
      simpa using hfresh key (by simp)
    have hlater : ∀ k ∈ rest.map Prod.fst, k ∉ key :: taken := by
      intro k hk hmem
      obtain rfl | hmem := List.mem_cons.mp hmem
      · exact hnodup.1 hk
      · exact hfresh k (List.mem_cons_of_mem _ hk) hmem
    obtain ⟨counts, hchild⟩ := redactJsonValue_of_counted hkeyed.2.1 hm
    obtain ⟨counts', hrest⟩ :=
      redactFields_of_counted (t := ⟨m, counts⟩) hnodup.2 hlater hkeyed.2.2 h
    refine ⟨counts', ?_⟩
    rw [redactFields, redactedFields, hkey, hkeyed.1]
    simp only [Bool.false_eq_true, if_false, pure_bind, Except.ok_bind, hchild, hrest]
    rfl

end

mutual

/-- Redaction rewrites the texts of a value whose keys are not sensitive. -/
theorem redacted_eq_rewritten {f : String → String} : ∀ {j : Json}, WellKeyed u j →
    (∀ s ∈ strings j, redactedText u s = f s) → redacted u j = rewritten f j
  | .null, _, _ | .bool _, _, _ | .int _, _, _ | .float _, _, _ => by simp [redacted, rewritten]
  | .str s, _, h => by
    rw [redacted, rewritten, h s (by simp [strings])]
  | .arr items, hkeyed, h => by
    rw [WellKeyed] at hkeyed
    rw [redacted, rewritten, redactedItems_eq_rewritten hkeyed (by simpa [strings] using h)]
  | .obj fields, hkeyed, h => by
    rw [WellKeyed] at hkeyed
    rw [redacted, rewritten, redactedFields_eq_rewritten hkeyed.2 (by simpa [strings] using h)]

theorem redactedItems_eq_rewritten {f : String → String} : ∀ {items : List Json},
    WellKeyedItems u items → (∀ s ∈ stringsOfItems items, redactedText u s = f s) →
      redactedItems u items = rewrittenItems f items
  | [], _, _ => by rw [redactedItems, rewrittenItems]
  | item :: rest, hkeyed, h => by
    rw [WellKeyedItems] at hkeyed
    rw [stringsOfItems, List.forall_mem_append] at h
    rw [redactedItems, rewrittenItems, redacted_eq_rewritten hkeyed.1 h.1,
      redactedItems_eq_rewritten hkeyed.2 h.2]

theorem redactedFields_eq_rewritten {f : String → String} : ∀ {fields : List (String × Json)},
    WellKeyedFields u fields → (∀ s ∈ stringsOfFields fields, redactedText u s = f s) →
      redactedFields u fields = rewrittenFields f fields
  | [], _, _ => by rw [redactedFields, rewrittenFields]
  | (key, child) :: rest, hkeyed, h => by
    rw [WellKeyedFields] at hkeyed
    rw [stringsOfFields, List.forall_mem_append] at h
    rw [redactedFields, rewrittenFields, hkeyed.1, redacted_eq_rewritten hkeyed.2.1 h.1,
      redactedFields_eq_rewritten hkeyed.2.2 h.2]
    rfl

end

end Limits

/-! ### The content of a capture -/

theorem utf8ByteSize_ofList (cs : List Char) :
    (String.ofList cs).utf8ByteSize = (cs.flatMap String.utf8EncodeChar).length := by
  simp [String.utf8ByteSize, List.utf8Encode]

/-- Redaction accepts a value within the limits when what it leaves of the texts is known and is
not too long. -/
theorem redactEvidenceContent_of_rewritten {rt : Runtime} {payload : Json} {f : String → String}
    {n : ℕ} (hkeyed : WellKeyed rt.unicode payload) (hcounted : counted 0 payload 0 = some n)
    (htexts : ∀ s ∈ strings payload, redactedText rt.unicode s = f s)
    (hsize : ((Json.encode rt.floatRepr (rewritten f payload)).flatMap
      String.utf8EncodeChar).length ≤ maxEvidenceBytes) :
    ∃ prepared, redactEvidenceContent rt payload .json = .ok prepared := by
  obtain ⟨counts, hredacted⟩ := redactJsonValue_of_counted (t := {}) hkeyed hcounted
  rw [redacted_eq_rewritten hkeyed htexts] at hredacted
  have hbytes : ¬ maxEvidenceBytes < (rt.dumps (rewritten f payload)).utf8ByteSize := by
    rw [Runtime.dumps, utf8ByteSize_ofList, not_lt]
    exact hsize
  simp only [redactEvidenceContent, hredacted, Except.ok_bind, sealContent]
  exact ⟨_, if_neg hbytes⟩

end ControlPlane
