import ControlPlane.Lib.Table
import Mathlib.Data.List.DropRight
import Mathlib.Data.List.Chain
import Mathlib.Data.List.Sublists

/-!
# Append-only histories

Questions asked of a list of events that only grows at its end: what came after the last
event of a kind, what came up to it, and whether some kinds of events occur in an order.

## Main definitions

* `since p es`: the events after the last one that satisfies `p`.
* `upTo p es`: the events up to and including that one.
* `InOrder ps es`: events that satisfy the given properties one after another occur.
-/
namespace History
variable {α : Type*}

/-- The events after the last one that satisfies `p`; all of them when none does. -/
def since (p : α → Bool) (es : List α) : List α := es.rtakeWhile fun e => !p e

/-- The events up to and including the last one that satisfies `p`. -/
def upTo (p : α → Bool) (es : List α) : List α := es.rdropWhile fun e => !p e

section Since
variable {p : α → Bool} {es : List α} {e : α}

@[simp] theorem since_nil : since p ([] : List α) = [] := List.rtakeWhile_nil _

@[simp] theorem since_concat_of_pos (h : p e = true) : since p (es ++ [e]) = [] := by
  simp [since, h]

@[simp] theorem since_concat_of_neg (h : p e = false) : since p (es ++ [e]) = since p es ++ [e] := by
  simp [since, h]

@[simp] theorem upTo_concat_of_pos (h : p e = true) : upTo p (es ++ [e]) = es ++ [e] := by
  simp [upTo, h]

@[simp] theorem upTo_concat_of_neg (h : p e = false) : upTo p (es ++ [e]) = upTo p es := by
  simp [upTo, h]

/-- Nothing that satisfies `p` comes after the last event that does. -/
theorem not_of_mem_since (h : e ∈ since p es) : p e = false := by
  simpa using List.mem_rtakeWhile_imp h

theorem mem_of_mem_since (h : e ∈ since p es) : e ∈ es :=
  (List.rtakeWhile_suffix _ es).subset h

theorem upTo_append_since (p : α → Bool) (es : List α) : upTo p es ++ since p es = es := by
  induction es using List.reverseRecOn with
  | nil => simp [upTo, since]
  | append_singleton es e ih =>
    cases h : p e with
    | true => simp [h]
    | false => rw [upTo_concat_of_neg h, since_concat_of_neg h, ← List.append_assoc, ih]

/-- The events after the last one of a kind, seen through a view in which that one shows. -/
theorem since_filterMap {β : Type*} {f : α → Option β} {q : β → Bool}
    (h : ∀ e, p e = (f e).any q) (es : List α) :
    since q (es.filterMap f) = (since p es).filterMap f := by
  induction es using List.reverseRecOn with
  | nil => rfl
  | append_singleton es e ih =>
    have he := h e
    rw [List.filterMap_append]
    cases hf : f e with
    | none =>
      rw [hf] at he
      have hsingle : [e].filterMap f = [] := by simp [hf]
      rw [since_concat_of_neg he, List.filterMap_append, hsingle, List.append_nil,
        List.append_nil, ih]
    | some b =>
      rw [hf] at he
      have hsingle : [e].filterMap f = [b] := by simp [hf]
      cases hq : q b with
      | true =>
        rw [hsingle, since_concat_of_pos hq, since_concat_of_pos (he.trans hq)]
        rfl
      | false =>
        rw [hsingle, since_concat_of_neg hq, since_concat_of_neg (he.trans hq),
          List.filterMap_append, ih, hsingle]

end Since

/-- Events that satisfy the properties occur in this order, not necessarily next to each
other. -/
def InOrder (ps : List (α → Prop)) (es : List α) : Prop :=
  ∃ sub, sub.Sublist es ∧ List.Forall₂ (fun p e => p e) ps sub

section InOrder
variable {ps : List (α → Prop)} {p : α → Prop} {es : List α} {e : α}

theorem InOrder.concat (h : InOrder ps es) (e : α) : InOrder ps (es ++ [e]) := by
  obtain ⟨sub, hsub, hall⟩ := h
  exact ⟨sub, hsub.trans (List.sublist_append_left es [e]), hall⟩

/-- One property more, satisfied by an event appended. -/
theorem InOrder.snoc (h : InOrder ps es) (he : p e) : InOrder (ps ++ [p]) (es ++ [e]) := by
  obtain ⟨sub, hsub, hall⟩ := h
  exact ⟨sub ++ [e], hsub.append (List.Sublist.refl _), List.rel_append hall (.cons he .nil)⟩

theorem InOrder.singleton (he : p e) : InOrder [p] (es ++ [e]) :=
  ⟨[e], List.sublist_append_right es [e], .cons he .nil⟩

end InOrder

/-! ### Ordered events -/

/-- Events in strictly increasing rank. -/
def Increasing (rank : α → ℕ) (es : List α) : Prop := es.Pairwise fun a b => rank a < rank b

theorem Increasing.filter {rank : α → ℕ} {es : List α} (h : Increasing rank es) (p : α → Bool) :
    Increasing rank (es.filter p) := List.Pairwise.filter p h

theorem Increasing.concat {rank : α → ℕ} {es : List α} {e : α} (h : Increasing rank es)
    (he : ∀ a ∈ es, rank a < rank e) : Increasing rank (es ++ [e]) := by
  refine List.pairwise_append.mpr ⟨h, List.pairwise_singleton _ _, fun a ha b hb => ?_⟩
  rw [List.mem_singleton.mp hb]
  exact he a ha

/-- In increasing order the rank determines the event. -/
theorem Increasing.eq_of_rank_eq {rank : α → ℕ} {es : List α} (h : Increasing rank es) {a b : α}
    (ha : a ∈ es) (hb : b ∈ es) (hab : rank a = rank b) : a = b := by
  induction es with
  | nil => simp at ha
  | cons e es ih =>
    obtain ⟨hlt, hes⟩ := List.pairwise_cons.mp h
    rcases List.mem_cons.mp ha with hae | hmem
    · rcases List.mem_cons.mp hb with hbe | hmem
      · exact hae.trans hbe.symm
      · exact absurd hab (hae ▸ hlt b hmem).ne
    · rcases List.mem_cons.mp hb with hbe | hmem'
      · exact absurd hab (hbe ▸ hlt a hmem).ne'
      · exact ih hes hmem hmem'

/-- In increasing order the row with the greatest rank is the last one. -/
theorem Increasing.latestBy_eq_getLast? {rank : α → ℕ} {es : List α}
    (h : Increasing rank es) : latestBy rank es = es.getLast? := by
  induction es using List.reverseRecOn with
  | nil => rfl
  | append_singleton es e _ =>
    obtain ⟨-, -, hlt⟩ := List.pairwise_append.mp h
    rw [latestBy_append_singleton fun a ha => (hlt a ha e (List.mem_singleton_self e)).le]
    simp

/-- Consecutive events are linked: each starts where the one before it ended. -/
def Linked {σ : Type*} (source target : α → σ) (es : List α) : Prop :=
  es.IsChain fun a b => target a = source b

theorem Linked.concat {σ : Type*} {source target : α → σ} {es : List α} {e : α}
    (h : Linked source target es) (he : ∀ a ∈ es.getLast?, target a = source e) :
    Linked source target (es ++ [e]) := by
  refine List.isChain_append.mpr ⟨h, List.isChain_singleton e, fun a ha b hb => ?_⟩
  obtain rfl : e = b := by simpa using hb
  exact he a ha

end History
