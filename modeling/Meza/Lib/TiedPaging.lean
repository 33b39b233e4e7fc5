import Mathlib.Data.List.Sort

/-! # Pages by a key that rows share

    Rows in descending order of a key are handed out in pages. Some rows of a page
    are dropped after it has been cut, and the next page starts below the key of the
    last row that was handed out: other rows with the same key that the page had no
    place for are passed over.

    A client that follows the pages to the end gets every row that is not dropped
    exactly if no page ends between two of them with the same key. -/

namespace TiedPaging
open List

variable {ρ κ : Type*} [LinearOrder κ] (key : ρ → κ) (keep : ρ → Bool) (limit : Nat)

/-- The order of the rows, those with the same key as they come. -/
def descending (rows : List ρ) : List ρ := rows.insertionSort fun a b => key b ≤ key a

/-- The rows of a page that are handed out. -/
def handedOut (rows : List ρ) : List ρ := (rows.take limit).filter keep

/-- The rows the next page is taken from. -/
def left (rows : List ρ) : List ρ :=
  match (handedOut keep limit rows).getLast? with
  | some last => (rows.drop limit).filter fun r => key r < key last
  | none => rows.drop limit

/-- What a client gets with so many requests at most, if it comes to the end. -/
def follow : Nat → List ρ → Option (List ρ)
  | 0, _ => none
  | fuel + 1, rows =>
    if limit < rows.length then
      (follow fuel (left key keep limit rows)).map (handedOut keep limit rows ++ ·)
    else some (rows.filter keep)

/-- No page ends between two rows with the same key that are to be handed out. -/
inductive Seamless : List ρ → Prop where
  | last {rows : List ρ} (short : rows.length ≤ limit) : Seamless rows
  | page {rows : List ρ} (long : limit < rows.length)
      (apart : ∀ last ∈ (handedOut keep limit rows).getLast?, ∀ r ∈ rows.drop limit,
        keep r = true → key r ≠ key last)
      (rest : Seamless (left key keep limit rows)) : Seamless rows

variable {key keep limit}

/-! ## Section 1: The order of the rows -/

variable {rows : List ρ}

theorem mem_descending {r : ρ} : r ∈ descending key rows ↔ r ∈ rows :=
  mem_insertionSort _

theorem pairwise_descending (rows : List ρ) :
    (descending key rows).Pairwise fun a b => key b ≤ key a := by
  exact pairwise_insertionSort _ rows

theorem filter_orderedInsert {p : ρ → Bool} (a : ρ) (h : rows.Pairwise fun a b => key b ≤ key a) :
    (rows.orderedInsert (fun a b => key b ≤ key a) a).filter p =
      if p a then (rows.filter p).orderedInsert (fun a b => key b ≤ key a) a
      else rows.filter p := by
  induction rows with
  | nil =>
    by_cases hp : p a = true
    · simp [hp]
    · simp [hp]
  | cons b rows ih =>
    obtain ⟨hb, hrows⟩ := pairwise_cons.mp h
    by_cases hab : key b ≤ key a
    · rw [orderedInsert_cons_of_le _ rows hab]
      by_cases hp : p a = true
      · rw [filter_cons_of_pos hp, if_pos hp]
        -- what is left of the rows is below `a` as well
        have hbelow : ∀ c ∈ (b :: rows).filter p, key c ≤ key a := by
          intro c hc
          rcases mem_cons.mp (mem_filter.mp hc).1 with rfl | hc
          · exact hab
          · exact le_trans (hb c hc) hab
        rcases hfilter : (b :: rows).filter p with _ | ⟨c, rest⟩
        · rfl
        · have hc : key c ≤ key a := hbelow c (hfilter ▸ mem_cons_self)
          rw [orderedInsert_cons_of_le _ rest hc]
      · rw [filter_cons_of_neg hp, if_neg hp]
    · rw [orderedInsert_of_not_le _ rows hab]
      by_cases hpb : p b = true
      · rw [filter_cons_of_pos hpb, ih hrows, filter_cons_of_pos hpb]
        split
        · exact (orderedInsert_of_not_le (fun a b => key b ≤ key a) _ hab).symm
        · rfl
      · rw [filter_cons_of_neg hpb, ih hrows, filter_cons_of_neg hpb]

/-- Rows that go leave the others in their order. -/
theorem filter_descending (p : ρ → Bool) (rows : List ρ) :
    (descending key rows).filter p = descending key (rows.filter p) := by
  induction rows with
  | nil => rfl
  | cons a rows ih =>
    show ((descending key rows).orderedInsert _ a).filter p = _
    rw [filter_orderedInsert a (pairwise_descending rows), ih]
    by_cases hp : p a = true
    · rw [if_pos hp, filter_cons_of_pos hp]
      rfl
    · rw [if_neg hp, filter_cons_of_neg hp]

/-! ## Section 2: Following the pages -/

variable (key keep limit) in
theorem left_sublist (rows : List ρ) : (left key keep limit rows).Sublist (rows.drop limit) := by
  unfold left
  split
  · exact filter_sublist
  · exact .refl _

theorem pairwise_left (h : rows.Pairwise fun a b => key b ≤ key a) :
    (left key keep limit rows).Pairwise fun a b => key b ≤ key a :=
  (h.sublist (drop_sublist limit rows)).sublist (left_sublist key keep limit rows)

variable (key keep) in
theorem length_left_lt (hlimit : 0 < limit) (h : limit < rows.length) :
    (left key keep limit rows).length < rows.length := by
  have hle := (left_sublist key keep limit rows).length_le
  rw [length_drop] at hle
  omega

variable (key keep) in
/-- The client comes to the end. -/
theorem follow_ends (hlimit : 0 < limit) (fuel : Nat) (rows : List ρ) (h : rows.length < fuel) :
    ∃ got, follow key keep limit fuel rows = some got := by
  induction fuel generalizing rows with
  | zero => omega
  | succ fuel ih =>
    unfold follow
    split
    · next hlong =>
      have hshorter := length_left_lt key keep hlimit hlong
      obtain ⟨got, hgot⟩ := ih (left key keep limit rows) (by omega)
      rw [hgot]
      exact ⟨_, rfl⟩
    · exact ⟨_, rfl⟩

variable (keep limit) in
theorem filter_split (rows : List ρ) :
    rows.filter keep = handedOut keep limit rows ++ (rows.drop limit).filter keep := by
  unfold handedOut
  rw [← filter_append, take_append_drop]

/-- It gets nothing twice. -/
theorem follow_sublist {fuel : Nat} {got : List ρ} (h : follow key keep limit fuel rows = some got)
    : got.Sublist (rows.filter keep) := by
  induction fuel generalizing rows got with
  | zero => cases h
  | succ fuel ih =>
    unfold follow at h
    split at h
    · obtain ⟨rest, hrest, rfl⟩ := Option.map_eq_some_iff.mp h
      have hsub : rest.Sublist ((rows.drop limit).filter keep) :=
        (ih hrest).trans ((left_sublist key keep limit rows).filter keep)
      rw [filter_split keep limit rows]
      exact hsub.append_left _
    · cases h
      exact .refl _

variable (keep limit) in
/-- A page passes nothing over that is to be handed out. -/
theorem filter_left_iff (h : rows.Pairwise fun a b => key b ≤ key a) :
    (left key keep limit rows).filter keep = (rows.drop limit).filter keep ↔
      ∀ last ∈ (handedOut keep limit rows).getLast?, ∀ r ∈ rows.drop limit,
        keep r = true → key r ≠ key last := by
  unfold left
  rcases hlast : (handedOut keep limit rows).getLast? with _ | last
  · exact iff_of_true rfl (fun _ h => nomatch h)
  · have hpage : last ∈ rows.take limit :=
      (mem_filter.mp (mem_of_getLast? hlast)).1
    have hbelow : ∀ r ∈ rows.drop limit, key r ≤ key last := by
      intro r hr
      rw [← take_append_drop limit rows] at h
      exact (pairwise_append.mp h).2.2 last hpage r hr
    rw [filter_filter]
    constructor
    · rintro heq last' hlast' r hr hkeep hkey
      cases hlast'
      have hmem : r ∈ (rows.drop limit).filter keep := mem_filter.mpr ⟨hr, hkeep⟩
      rw [← heq] at hmem
      have hboth := (mem_filter.mp hmem).2
      rw [Bool.and_eq_true] at hboth
      have hlt : key r < key last := of_decide_eq_true hboth.2
      exact absurd hkey (ne_of_lt hlt)
    · intro hapart
      refine filter_congr ?_
      intro r hr
      rcases hkeep : keep r with _ | _
      · rfl
      · have hlt : key r < key last :=
          lt_of_le_of_ne (hbelow r hr) (hapart last rfl r hr hkeep)
        rw [decide_eq_true hlt]
        rfl

/-- It gets all that is not dropped if and only if no page ends between two rows with the
    same key. -/
theorem follow_all_iff {fuel : Nat} {got : List ρ} (hrows : rows.Pairwise fun a b => key b ≤ key a)
    (h : follow key keep limit fuel rows = some got) :
    got = rows.filter keep ↔ Seamless key keep limit rows := by
  induction fuel generalizing rows got with
  | zero => cases h
  | succ fuel ih =>
    unfold follow at h
    split at h
    · next hlong =>
      obtain ⟨rest, hrest, rfl⟩ := Option.map_eq_some_iff.mp h
      have hih := ih (pairwise_left hrows) hrest
      have hpage := filter_left_iff keep limit hrows
      rw [filter_split keep limit rows, append_right_inj]
      constructor
      · intro heq
        -- the rest is at most what is left, and that is at most what comes after the page
        have hsub := follow_sublist hrest
        have hall := (left_sublist key keep limit rows).filter keep
        have hleft : rest = (left key keep limit rows).filter keep := by
          refine hsub.eq_of_length_le ?_
          rw [heq]
          exact hall.length_le
        exact .page hlong (hpage.mp (hleft.symm.trans heq)) (hih.mp hleft)
      · intro hseamless
        cases hseamless with
        | last hshort => omega
        | page _ hapart hnext => exact (hih.mpr hnext).trans (hpage.mpr hapart)
    · next hshort =>
      cases h
      exact iff_of_true rfl (.last (Nat.le_of_not_lt hshort))

end TiedPaging
