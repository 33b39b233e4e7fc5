import Mathlib.Data.List.Sort
import Meza.Lib.Table

/-! # Keyset paging

    Rows that are kept in ascending order of a key are handed out in pages.
    A page starts after a cursor, the key of the last row of the page before;
    no cursor means the beginning. A client that follows the cursors until
    there is none has seen every row once, in order, if each page holds the
    next rows and says so when there are more. -/

namespace Paging
open List

variable {ρ κ : Type*} [LinearOrder κ] (key : ρ → κ)

/-- The rows are in strictly ascending key order. -/
def Ascending (rows : List ρ) : Prop := rows.Pairwise (fun a b => key a < key b)

instance decidableAscending (rows : List ρ) : Decidable (Ascending key rows) :=
  inferInstanceAs (Decidable (rows.Pairwise fun a b => key a < key b))

/-- `ORDER BY key ASC`. -/
def orderBy (rows : List ρ) : List ρ := rows.insertionSort (fun a b => key a ≤ key b)

/-- The rows after the cursor. -/
def after (cursor : Option κ) (rows : List ρ) : List ρ :=
  rows.filter (fun r => ∀ c ∈ cursor, c < key r)

/-- A client: it fetches page after page, at most `fuel` of them, and gives up
    with `none` if there still is a next cursor. -/
def follow (fetch : Option κ → List ρ × Option κ) : Nat → Option κ → Option (List ρ)
  | 0, _ => none
  | fuel + 1, cursor =>
    match fetch cursor with
    | (page, none) => some page
    | (page, some next) => (follow fetch fuel (some next)).map (page ++ ·)

variable {key}

@[simp] theorem after_none (rows : List ρ) : after key none rows = rows := by
  simp [after]

theorem after_some (c : κ) (rows : List ρ) :
    after key (some c) rows = rows.filter (fun r => c < key r) := by
  simp [after]

variable {rows xs ys : List ρ} {limit : Nat} {fetch : Option κ → List ρ × Option κ} {r : ρ}

theorem Ascending.after (h : Ascending key rows) (cursor : Option κ) :
    Ascending key (after key cursor rows) :=
  h.sublist filter_sublist

theorem Ascending.filter (h : Ascending key rows) (p : ρ → Bool) : Ascending key (rows.filter p) :=
  h.sublist filter_sublist

theorem after_filter (cursor : Option κ) (p : ρ → Bool) (rows : List ρ) :
    after key cursor (rows.filter p) = (after key cursor rows).filter p := by
  unfold after
  rw [filter_filter, filter_filter]
  congr 1
  funext r
  rw [Bool.and_comm]

theorem mem_orderBy : r ∈ orderBy key rows ↔ r ∈ rows :=
  mem_insertionSort _

/-- Rows with distinct keys are put in strictly ascending order. -/
theorem ascending_orderBy (h : Table.UniqueOn key rows) : Ascending key (orderBy key rows) := by
  have hle : (orderBy key rows).Pairwise (fun a b => key a ≤ key b) :=
    pairwise_insertionSort _ rows
  have hne : (orderBy key rows).Pairwise (fun a b => key a ≠ key b) := by
    have hperm := perm_insertionSort (fun a b => key a ≤ key b) rows
    exact pairwise_map.mp ((hperm.map key).nodup_iff.mpr h)
  exact (hle.and hne).imp (fun hab => lt_of_le_of_ne hab.1 hab.2)

theorem Ascending.unique (h : Ascending key rows) : Table.UniqueOn key rows :=
  pairwise_map.mpr (h.imp (fun hab => ne_of_lt hab))

/-- The descending order of rows with distinct keys is the ascending one in
    reverse. -/
theorem insertionSort_descending (h : Table.UniqueOn key rows) :
    rows.insertionSort (fun a b => key b ≤ key a) = (orderBy key rows).reverse := by
  have hperm : (rows.insertionSort (fun a b => key b ≤ key a)).Perm (orderBy key rows).reverse :=
    (perm_insertionSort _ rows).trans ((perm_insertionSort _ rows).symm.trans (reverse_perm _).symm)
  have hdown : (orderBy key rows).reverse.Pairwise (fun a b => key b ≤ key a) := by
    rw [pairwise_reverse]
    exact (ascending_orderBy h).imp le_of_lt
  apply hperm.eq_of_pairwise _ (pairwise_insertionSort _ rows) hdown
  intro a b ha hb hba hab
  rw [mem_insertionSort] at ha
  rw [mem_reverse, mem_orderBy] at hb
  exact Table.eq_of_key h ha hb (le_antisymm hab hba)

theorem Ascending.sublist {rows' : List ρ} (h : Ascending key rows) (hsub : Sublist rows' rows)
    : Ascending key rows' :=
  Pairwise.sublist hsub h

theorem Ascending.nodup (h : Ascending key rows) : rows.Nodup :=
  h.unique.of_map _

/-- What lies up to a bound stands before what lies beyond it. -/
theorem Ascending.append (hxs : Ascending key xs) (hys : Ascending key ys)
    (h : ∀ x ∈ xs, ∀ y ∈ ys, key x < key y) : Ascending key (xs ++ ys) :=
  pairwise_append.mpr ⟨hxs, hys, h⟩

/-- A page that is not full holds all rows. -/
theorem take_eq_of_short (h : (rows.take limit).length < limit) : rows.take limit = rows := by
  rw [length_take] at h
  exact take_of_length_le (by omega)

/-- A row is on the page or among those the page cuts off. -/
theorem mem_take_or_drop (h : r ∈ rows) (limit : Nat) :
    r ∈ rows.take limit ∨ r ∈ rows.drop limit := by
  rw [← take_append_drop limit rows] at h
  exact mem_append.mp h

theorem after_map {σ : Type*} {key' : σ → κ} {f : ρ → σ} (hf : ∀ r, key' (f r) = key r)
    (cursor : Option κ) (rows : List ρ) :
    after key' cursor (rows.map f) = (after key cursor rows).map f := by
  unfold after
  rw [filter_map]
  congr 1
  apply filter_congr
  intro r _
  simp [hf]

theorem Ascending.map {σ : Type*} {key' : σ → κ} {f : ρ → σ} (hf : ∀ r, key' (f r) = key r)
    (h : Ascending key rows) : Ascending key' (rows.map f) := by
  unfold Ascending
  rw [pairwise_map]
  exact h.imp (fun hab => by rwa [hf, hf])

/-- Cutting an ascending list at one of its rows. -/
theorem after_key_of_append (h : Ascending key (xs ++ r :: ys)) :
    after key (some (key r)) (xs ++ r :: ys) = ys := by
  obtain ⟨-, hys, hcross⟩ := pairwise_append.mp h
  rw [pairwise_cons] at hys
  have hxs : xs.filter (fun a => key r < key a) = [] := by
    rw [filter_eq_nil_iff]
    intro a ha
    have hlt : key a < key r := hcross a ha r (by simp)
    simpa using le_of_lt hlt
  have hkeep : ys.filter (fun a => key r < key a) = ys := by
    rw [filter_eq_self]
    intro a ha
    simpa using hys.1 a ha
  rw [after_some, filter_append, hxs, nil_append, filter_cons]
  simp [hkeep]

/-- The rows after the last row of a page are those the page left over. -/
theorem after_last {cursor : Option κ} (hrows : Ascending key rows)
    (h : after key cursor rows = xs ++ r :: ys) : after key (some (key r)) rows = ys := by
  have hcut : after key (some (key r)) (after key cursor rows) = ys := by
    rw [h]
    exact after_key_of_append (h ▸ hrows.after cursor)
  have hmem : r ∈ after key cursor rows := by simp [h]
  have hpast : ∀ c ∈ cursor, c < key r := by
    simpa using (mem_filter.mp hmem).2
  -- whatever lies after `r` lies after the cursor too
  rw [← hcut]
  unfold after
  rw [filter_filter]
  apply filter_congr
  intro a _
  have himp : key r < key a → ∀ c ∈ cursor, c < key a :=
    fun hlt c hc => lt_trans (hpast c hc) hlt
  by_cases hlt : key r < key a
  · simpa [hlt] using himp hlt
  · simp [hlt]

variable (key) in
/-- What a page server must do: the next `limit` rows, with a cursor iff there
    are more. -/
structure Serves (fetch : Option κ → List ρ × Option κ) (limit : Nat) (rows : List ρ) :
    Prop where
  last : ∀ cursor, (after key cursor rows).length ≤ limit →
    fetch cursor = (after key cursor rows, none)
  more : ∀ cursor xs r ys, after key cursor rows = xs ++ r :: ys → xs.length + 1 = limit →
    ys ≠ [] → fetch cursor = (xs ++ [r], some (key r))

/-- Splitting a list that is longer than a page at the last row of the page. -/
theorem exists_page (hlimit : 0 < limit) {rest : List ρ} (h : limit < rest.length) :
    ∃ xs r ys, rest = xs ++ r :: ys ∧ xs.length + 1 = limit ∧ ys ≠ [] := by
  have hlt : limit - 1 < rest.length := by omega
  refine ⟨rest.take (limit - 1), rest.get ⟨limit - 1, hlt⟩, rest.drop limit, ?_, ?_, ?_⟩
  · have hdrop : rest.drop (limit - 1) = rest.get ⟨limit - 1, hlt⟩ :: rest.drop limit := by
      have := drop_eq_getElem_cons hlt
      rw [Nat.sub_add_cancel hlimit] at this
      exact this
    rw [← hdrop, take_append_drop]
  · rw [length_take]
    omega
  · intro hnil
    have := congrArg length hnil
    simp at this
    omega

/-- **Completeness.** Following the cursors of such a server ends, with the
    rows after the first cursor. -/
theorem follow_complete (hrows : Ascending key rows) (hlimit : 0 < limit)
    (h : Serves key fetch limit rows) (fuel : Nat) (cursor : Option κ)
    (hfuel : (after key cursor rows).length < fuel) :
    follow fetch fuel cursor = some (after key cursor rows) := by
  -- the fuel bounds what is still to come, and every page takes at least one row
  induction fuel generalizing cursor with
  | zero => omega
  | succ fuel ih =>
    unfold follow
    by_cases hlast : (after key cursor rows).length ≤ limit
    · rw [h.last cursor hlast]
    · have hmore : limit < (after key cursor rows).length := by omega
      obtain ⟨xs, r, ys, hsplit, hlen, hne⟩ := exists_page hlimit hmore
      have hrest := after_last hrows hsplit
      have hlength := congrArg length hsplit
      rw [h.more cursor xs r ys hsplit hlen hne]
      simp only [length_append, length_cons] at hlength
      show (follow fetch fuel (some (key r))).map ((xs ++ [r]) ++ ·) = _
      rw [ih (some (key r)) (by rw [hrest]; omega), hrest, hsplit]
      simp

omit [LinearOrder κ] in
/-- A server that always offers a next cursor is followed forever. -/
theorem follow_endless (h : ∀ cursor, (fetch cursor).2 ≠ none) (fuel : Nat) (cursor : Option κ) :
    follow fetch fuel cursor = none := by
  induction fuel generalizing cursor with
  | zero => rfl
  | succ fuel ih =>
    unfold follow
    have hnext := h cursor
    rcases hpage : fetch cursor with ⟨page, _ | next⟩
    · rw [hpage] at hnext
      exact absurd rfl hnext
    · simp [ih]

omit [LinearOrder κ] in
/-- A first page without a cursor is all a client gets. -/
theorem follow_stop {cursor : Option κ} {page : List ρ} (h : fetch cursor = (page, none))
    (fuel : Nat) : follow fetch (fuel + 1) cursor = some page := by
  unfold follow
  rw [h]

end Paging
