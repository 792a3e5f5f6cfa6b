import Mathlib.Data.List.Sort
import Mathlib.Order.Lattice

/-!
# Listings read page by page

A listing is a list whose entries have increasing ranks: the rows of an ordered query. A page is
the next entries of it, at most as many as the limit, and names the entry the next page starts
after when there are more. Whoever follows these names from the first page on reads the listing.
-/
namespace Pages

/-! ### Ordered queries -/

section Listing
variable {α κ : Type*} [LinearOrder κ] (rank : α → κ)

/-- The entries of a listing have increasing ranks. -/
def Listing (l : List α) : Prop := l.Pairwise fun a b => rank a < rank b

/-- Rows in the order of their ranks. -/
def orderBy (rows : List α) : List α := rows.insertionSort fun a b => rank a ≤ rank b

variable {rank} {l rows : List α} {a : α}

theorem mem_orderBy : a ∈ orderBy rank rows ↔ a ∈ rows := List.mem_insertionSort _

theorem perm_orderBy (rows : List α) : (orderBy rank rows).Perm rows :=
  List.perm_insertionSort _ rows

/-- Rows with distinct ranks are a listing once they are ordered. -/
theorem listing_orderBy (h : (rows.map rank).Nodup) : Listing rank (orderBy rank rows) := by
  have : IsTrans α fun a b => rank a ≤ rank b := ⟨fun _ _ _ => le_trans⟩
  have : Std.Total fun a b : α => rank a ≤ rank b := ⟨fun _ _ => le_total _ _⟩
  have hle : (orderBy rank rows).Pairwise fun a b => rank a ≤ rank b :=
    List.pairwise_insertionSort _ rows
  have hnodup : ((orderBy rank rows).map rank).Nodup :=
    ((perm_orderBy rows).map rank).nodup_iff.mpr h
  have hne : (orderBy rank rows).Pairwise fun a b => rank a ≠ rank b := List.pairwise_map.mp hnodup
  exact (hle.and hne).imp fun h => lt_of_le_of_ne h.1 h.2

/-- Two listings of the same entries are one. -/
theorem Listing.eq_of_perm {l' : List α} (h : Listing rank l) (h' : Listing rank l')
    (hperm : l.Perm l') : l = l' :=
  hperm.eq_of_pairwise (fun _ _ _ _ hab hba => absurd (hab.trans hba) (lt_irrefl _)) h h'

/-- Choosing rows and ordering them commute. -/
theorem orderBy_filter (h : (rows.map rank).Nodup) (p : α → Bool) :
    orderBy rank (rows.filter p) = (orderBy rank rows).filter p := by
  have hnodup : ((rows.filter p).map rank).Nodup :=
    List.Nodup.sublist (List.filter_sublist.map rank) h
  exact (listing_orderBy hnodup).eq_of_perm ((listing_orderBy h).filter p)
    ((perm_orderBy _).trans ((perm_orderBy rows).filter p).symm)

/-- What comes after an entry of a listing is what follows it. -/
theorem Listing.filter_lt {done rest : List α} (h : Listing rank (done ++ rest))
    (hlast : done.getLast? = some a) : (done ++ rest).filter (rank a < rank ·) = rest := by
  obtain ⟨init, rfl⟩ := List.getLast?_eq_some_iff.mp hlast
  obtain ⟨hinit, -, hafter⟩ := List.pairwise_append.mp h
  have hbefore := (List.pairwise_append.mp hinit).2.2
  rw [List.filter_append]
  have hnone : (init ++ [a]).filter (rank a < rank ·) = [] := by
    rw [List.filter_eq_nil_iff]
    intro b hb
    rw [decide_eq_true_eq, not_lt]
    rcases List.mem_append.mp hb with hb | hb
    · exact (hbefore b hb a (List.mem_singleton_self a)).le
    · rw [List.mem_singleton.mp hb]
  have hall : rest.filter (rank a < rank ·) = rest := by
    rw [List.filter_eq_self]
    intro b hb
    exact decide_eq_true (hafter a (List.mem_append_right _ (List.mem_singleton_self a)) b hb)
  rw [hnone, hall, List.nil_append]

end Listing

/-! ### What entries show -/

section Related
variable {α β : Type*} {R : α → β → Prop} {as : List α} {bs : List β}

theorem exists_of_mem_left (h : List.Forall₂ R as bs) {a : α} (ha : a ∈ as) :
    ∃ b ∈ bs, R a b := by
  induction h with
  | nil => cases ha
  | @cons c b as bs hcb _ ih =>
    rcases List.mem_cons.mp ha with rfl | ha
    · exact ⟨b, List.mem_cons_self, hcb⟩
    · obtain ⟨b', hb', hr⟩ := ih ha
      exact ⟨b', List.mem_cons_of_mem b hb', hr⟩

theorem exists_of_mem_right (h : List.Forall₂ R as bs) {b : β} (hb : b ∈ bs) :
    ∃ a ∈ as, R a b :=
  exists_of_mem_left (List.Forall₂.flip h) hb

/-- What is shown of a list is ordered as the list is. -/
theorem pairwise_of_forall₂ {S : α → α → Prop} {T : β → β → Prop} (h : List.Forall₂ R as bs)
    (hst : ∀ a a' b b', R a b → R a' b' → S a a' → T b b') (hs : as.Pairwise S) :
    bs.Pairwise T := by
  induction h with
  | nil => exact List.Pairwise.nil
  | @cons a b as bs hab hrest ih =>
    obtain ⟨hhead, htail⟩ := List.pairwise_cons.mp hs
    refine List.pairwise_cons.mpr ⟨?_, ih htail⟩
    intro b' hb'
    obtain ⟨a', ha', hr⟩ := exists_of_mem_right hrest hb'
    exact hst a a' b b' hab hr (hhead a' ha')

/-- A traversal that finds a value for every item finds a list. -/
theorem mapM_eq_some {f : α → Option β} :
    as.mapM f = some bs ↔ List.Forall₂ (fun a b => f a = some b) as bs := by
  induction as generalizing bs with
  | nil => simp [eq_comm]
  | cons a as ih =>
    simp only [List.mapM_cons, Option.bind_eq_bind, Option.bind_eq_some_iff, Option.pure_def,
      Option.some.injEq, List.forall₂_cons_left_iff, ih]
    grind

/-- Traversals of two lists to one result match them item by item. -/
theorem map_eq_of_mapM {γ : Type*} {f : α → Option β} {g : α → γ} {as' : List α}
    (h : as.mapM f = some bs) (h' : as'.mapM f = some bs)
    (hinj : ∀ a ∈ as, ∀ a' ∈ as', ∀ b, f a = some b → f a' = some b → g a = g a') :
    as.map g = as'.map g := by
  rw [mapM_eq_some] at h h'
  induction h generalizing as' with
  | nil =>
    rw [List.forall₂_nil_right_iff.mp h']
  | cons hab _ ih =>
    obtain ⟨a', rest', ha', hrest', rfl⟩ := List.forall₂_cons_right_iff.mp h'
    rw [List.map_cons, List.map_cons, hinj _ List.mem_cons_self _ List.mem_cons_self _ hab ha',
      ih hrest' fun a ha a' ha' => hinj a (List.mem_cons_of_mem _ ha) a'
        (List.mem_cons_of_mem _ ha')]

theorem exists_mapM {f : α → Option β} (h : ∀ a ∈ as, ∃ b, f a = some b) :
    ∃ bs, as.mapM f = some bs := by
  induction as with
  | nil => exact ⟨[], rfl⟩
  | cons a as ih =>
    obtain ⟨b, hb⟩ := h a List.mem_cons_self
    obtain ⟨bs, hbs⟩ := ih fun a' ha' => h a' (List.mem_cons_of_mem a ha')
    exact ⟨b :: bs, mapM_eq_some.mpr (.cons hb (mapM_eq_some.mp hbs))⟩

theorem exists_of_mem_mapM {f : α → Option β} (h : as.mapM f = some bs) :
    ∀ b ∈ bs, ∃ a ∈ as, f a = some b := fun _ hb => exists_of_mem_right (mapM_eq_some.mp h) hb

end Related

/-! ### Following the cursors -/

/-- One page, and the cursor of the next. -/
structure Page (β γ : Type*) where
  items : List β
  next : Option γ

section Follow
variable {ε : Type} {β γ : Type}

/-- Read pages until no cursor is left: the items read, or none when the calls run out. The view
is told the number of the call. -/
def follow (view : ℕ → Option γ → Except ε (Page β γ)) :
    ℕ → ℕ → Option γ → Except ε (Option (List β))
  | 0, _, _ => .ok none
  | fuel + 1, n, after =>
    match view n after with
    | .error e => .error e
    | .ok page =>
      match page.next with
      | none => .ok (some page.items)
      | some cursor =>
        match follow view fuel (n + 1) (some cursor) with
        | .error e => .error e
        | .ok rest => .ok (rest.map (page.items ++ ·))

variable {α : Type*}

/-- The cursor of the page after the one that starts a list of entries. -/
def nextOf (name : α → γ) (limit : ℕ) (rest : List α) : Option γ :=
  if limit < rest.length then (rest.take limit).getLast?.map name else none

/-- Pages that each start where the one before ended list every entry, once and in order. -/
theorem follow_eq {view : ℕ → Option γ → Except ε (Page β γ)} {entries : List α} {name : α → γ}
    {shows : α → β → Prop} {limit : ℕ} (hlimit : 0 < limit)
    (hview : ∀ n done rest, entries = done ++ rest →
      ∃ items, List.Forall₂ shows (rest.take limit) items ∧
        view n (done.getLast?.map name) = .ok ⟨items, nextOf name limit rest⟩) :
    ∀ (fuel n : ℕ) (done rest : List α), entries = done ++ rest → rest.length < fuel →
      ∃ items, List.Forall₂ shows rest items ∧
        follow view fuel n (done.getLast?.map name) = .ok (some items) := by
  intro fuel
  induction fuel with
  | zero =>
    intro n done rest _ hfuel
    omega
  | succ fuel ih =>
    intro n done rest hentries hfuel
    obtain ⟨items, hitems, hpage⟩ := hview n done rest hentries
    by_cases hmore : limit < rest.length
    · have hne : rest.take limit ≠ [] := by
        intro hnil
        have := congrArg List.length hnil
        rw [List.length_take, List.length_nil] at this
        omega
      have hsplit : entries = (done ++ rest.take limit) ++ rest.drop limit := by
        rw [List.append_assoc, List.take_append_drop, hentries]
      have hlast : (done ++ rest.take limit).getLast? = (rest.take limit).getLast? := by
        rw [List.getLast?_append, List.getLast?_eq_some_getLast hne, Option.some_or]
      obtain ⟨later, hlater, hrest⟩ :=
        ih (n + 1) (done ++ rest.take limit) (rest.drop limit) hsplit (by
          rw [List.length_drop]
          omega)
      rw [hlast, List.getLast?_eq_some_getLast hne, Option.map_some] at hrest
      refine ⟨items ++ later, ?_, ?_⟩
      · rw [← List.take_append_drop limit rest]
        exact List.rel_append hitems hlater
      · simp only [follow, hpage, nextOf, if_pos hmore, List.getLast?_eq_some_getLast hne,
          Option.map_some, hrest]
    · rw [List.take_of_length_le (not_lt.mp hmore)] at hitems
      refine ⟨items, hitems, ?_⟩
      simp only [follow, hpage, nextOf, if_neg hmore]

end Follow

end Pages
