import Mathlib.Data.List.Sort

/-! # Shelves

    Rows that are kept in lists, one list for each shelf. A row is added once
    under its key, and a list is arranged anew whenever a row is added or
    replaced. For every operation: which shelf it is about, and when it
    changes nothing there. -/

namespace Shelves
open List Function

variable {ρ κ : Type*} [DecidableEq κ]

/-- How rows are shelved; arranging a list loses no row and adds none. -/
structure Shelving (ρ κ : Type*) where
  shelf : ρ → κ
  key : ρ → κ
  arrange : List ρ → List ρ
  perm : ∀ rows, (arrange rows).Perm rows

/-- The rows in the order of their ranks; rows of the same rank stay in their order. -/
def Shelving.byRank (shelf key : ρ → κ) (rank : ρ → Int) : Shelving ρ κ where
  shelf := shelf
  key := key
  arrange rows := rows.insertionSort fun a b => rank a ≤ rank b
  perm rows := perm_insertionSort _ rows

/-- The rows as they come. -/
def Shelving.inOrder (shelf key : ρ → κ) : Shelving ρ κ where
  shelf := shelf
  key := key
  arrange rows := rows
  perm rows := .refl rows

/-- The first row with the key of `r` is replaced. -/
def replaceFirst (key : ρ → κ) (r : ρ) : List ρ → List ρ
  | [] => []
  | x :: rows => if key x = key r then r :: rows else x :: replaceFirst key r rows

/-- The first row with a key. -/
def first (key : ρ → κ) (k : κ) (rows : List ρ) : Option ρ := rows.find? fun x => key x = k

section Operations

variable (S : Shelving ρ κ) (shelves : κ → Option (List ρ))

/-- What is on a shelf, or nothing. -/
def rows (k : κ) : List ρ := (shelves k).getD []

def add (r : ρ) : κ → Option (List ρ) :=
  if ∃ x ∈ rows shelves (S.shelf r), S.key x = S.key r then shelves
  else update shelves (S.shelf r) (some (S.arrange (rows shelves (S.shelf r) ++ [r])))

/-- A row that is not there is not added. -/
def update (r : ρ) : κ → Option (List ρ) :=
  if ∃ x ∈ rows shelves (S.shelf r), S.key x = S.key r then
    Function.update shelves (S.shelf r)
      (some (S.arrange (replaceFirst S.key r (rows shelves (S.shelf r)))))
  else shelves

/-- The first row with the key goes. -/
def remove (k key : κ) : κ → Option (List ρ) :=
  Function.update shelves k ((shelves k).map fun l => l.eraseP fun x => S.key x = key)

/-- Every row with the key goes. -/
def removeAll (k key : κ) : κ → Option (List ρ) :=
  Function.update shelves k ((shelves k).map fun l => l.filter fun x => S.key x ≠ key)

/-- Every row of the shelf is changed. -/
def modify (k : κ) (f : ρ → ρ) : κ → Option (List ρ) :=
  Function.update shelves k ((shelves k).map fun l => l.map f)

end Operations

/-! ## What stays as it is -/

section Frame

variable {S : Shelving ρ κ} {shelves : κ → Option (List ρ)} {r : ρ} {k k' key : κ}

theorem add_of_ne (h : k ≠ S.shelf r) : add S shelves r k = shelves k := by
  unfold add
  split
  · rfl
  · exact update_of_ne h _ _

theorem update_of_ne (h : k ≠ S.shelf r) : update S shelves r k = shelves k := by
  unfold update
  split
  · exact Function.update_of_ne h _ _
  · rfl

omit [DecidableEq κ] in
theorem mem_rows {x : ρ} : x ∈ rows shelves k ↔ ∃ l, shelves k = some l ∧ x ∈ l := by
  unfold rows
  cases shelves k with
  | none => simp
  | some l => simp

/-- A row is new unless its key is there. -/
theorem add_self_iff :
    add S shelves r (S.shelf r) = shelves (S.shelf r) ↔
      ∃ x ∈ rows shelves (S.shelf r), S.key x = S.key r := by
  unfold add
  split
  · next h => exact iff_of_true rfl h
  · next h =>
    refine iff_of_false (fun heq => ?_) h
    rw [update_self] at heq
    -- the list has become longer
    have hlength := (S.perm (rows shelves (S.shelf r) ++ [r])).length_eq
    have hrows : rows shelves (S.shelf r) = S.arrange (rows shelves (S.shelf r) ++ [r]) := by
      show (shelves (S.shelf r)).getD [] = _
      rw [← heq]
      rfl
    have hsame := congrArg length hrows
    rw [hlength, length_append, length_singleton] at hsame
    omega

variable {l : List ρ}

theorem first_eq_none {key : ρ → κ} : first key k l = none ↔ ∀ x ∈ l, key x ≠ k := by
  simp [first]

theorem replaceFirst_of_first {key : ρ → κ} (h : first key (key r) l = some r) :
    replaceFirst key r l = l := by
  induction l with
  | nil => rfl
  | cons x l ih =>
    by_cases hx : key x = key r
    · have hfirst : x = r := by
        simpa [first, hx] using h
      subst hfirst
      simp [replaceFirst]
    · have hrest : first key (key r) l = some r := by
        simpa [first, hx] using h
      rw [replaceFirst, if_neg hx, ih hrest]

/-- The list is the same up to the order only if the row is what was there. -/
theorem first_of_perm {key : ρ → κ} {x : ρ} (hx : first key (key r) l = some x)
    (h : (replaceFirst key r l).Perm l) : x = r := by
  induction l with
  | nil => cases hx
  | cons y l ih =>
    by_cases hy : key y = key r
    · have hfirst : y = x := by simpa [first, hy] using hx
      subst hfirst
      rw [replaceFirst, if_pos hy] at h
      -- the rest is the same
      have hcount : [r].Perm [y] := by
        have happend : ([r] ++ l).Perm ([y] ++ l) := h
        exact (perm_append_right_iff l).mp happend
      have heq : [r] = [y] := perm_singleton.mp hcount
      cases heq
      rfl
    · have hrest : first key (key r) l = some x := by simpa [first, hy] using hx
      rw [replaceFirst, if_neg hy] at h
      exact ih hrest h.cons_inv

theorem replaceFirst_of_none {key : ρ → κ} (h : first key (key r) l = none) :
    replaceFirst key r l = l := by
  induction l with
  | nil => rfl
  | cons x l ih =>
    obtain ⟨hx, hrest⟩ := forall_mem_cons.mp (first_eq_none.mp h)
    rw [replaceFirst, if_neg hx, ih (first_eq_none.mpr hrest)]

theorem replaceFirst_eq_self_iff {key : ρ → κ} :
    replaceFirst key r l = l ↔ ∀ x, first key (key r) l = some x → x = r := by
  constructor
  · intro h x hx
    exact first_of_perm hx (.of_eq h)
  · intro h
    rcases hfirst : first key (key r) l with _ | x
    · exact replaceFirst_of_none hfirst
    · obtain rfl := h x hfirst
      exact replaceFirst_of_first hfirst

/-- The row is what its shelf has under its key, in order. -/
def Shelving.Has (S : Shelving ρ κ) (shelves : κ → Option (List ρ)) (r : ρ) : Prop :=
  ∀ x, first S.key (S.key r) (rows shelves (S.shelf r)) = some x →
    x = r ∧ S.arrange (rows shelves (S.shelf r)) = rows shelves (S.shelf r)

/-- A replaced row changes nothing only if it is what was there, in a list in order. -/
theorem update_self_iff :
    update S shelves r (S.shelf r) = shelves (S.shelf r) ↔ S.Has shelves r := by
  unfold update Shelving.Has
  split
  · next h =>
    obtain ⟨y, hy, hkey⟩ := h
    obtain ⟨l, hl, hyl⟩ := mem_rows.mp hy
    have hrows : rows shelves (S.shelf r) = l := by simp [rows, hl]
    rw [Function.update_self, hl, hrows]
    constructor
    · intro heq x hx
      have harranged : S.arrange (replaceFirst S.key r l) = l := Option.some.inj heq
      have hperm : (replaceFirst S.key r l).Perm l := by
        have harr := S.perm (replaceFirst S.key r l)
        rw [harranged] at harr
        exact harr.symm
      have hxr : x = r := first_of_perm hx hperm
      subst hxr
      rw [replaceFirst_of_first hx] at harranged
      exact ⟨rfl, harranged⟩
    · intro hall
      rcases hfirst : first S.key (S.key r) l with _ | x
      · exact absurd hkey (first_eq_none.mp hfirst y hyl)
      · obtain ⟨rfl, harr⟩ := hall x hfirst
        rw [replaceFirst_of_first hfirst, harr]
  · next h =>
    refine iff_of_true rfl fun x hx => ?_
    have hmem : x ∈ rows shelves (S.shelf r) := mem_of_find?_eq_some hx
    have hkey : S.key x = S.key r := by simpa using find?_some hx
    exact absurd ⟨x, hmem, hkey⟩ h

theorem update_map_self_iff {f : List ρ → List ρ} :
    Function.update shelves k ((shelves k).map f) k = shelves k ↔
      ∀ l, shelves k = some l → f l = l := by
  cases shelves k with
  | none => simp
  | some l => simp

theorem remove_self_iff :
    remove S shelves k key k = shelves k ↔ ∀ x ∈ rows shelves k, S.key x ≠ key := by
  unfold remove
  rw [update_map_self_iff]
  constructor
  · intro h x hx hkey
    obtain ⟨l, hl, hxl⟩ := mem_rows.mp hx
    have hlength := length_eraseP_of_mem hxl (p := fun y => decide (S.key y = key))
      (decide_eq_true hkey)
    rw [h l hl] at hlength
    have hpos : 0 < l.length := length_pos_of_mem hxl
    omega
  · intro h l hl
    refine eraseP_of_forall_not fun x hx => ?_
    have hne := h x (mem_rows.mpr ⟨l, hl, hx⟩)
    simp [hne]

theorem removeAll_self_iff :
    removeAll S shelves k key k = shelves k ↔ ∀ x ∈ rows shelves k, S.key x ≠ key := by
  unfold removeAll
  rw [update_map_self_iff]
  constructor
  · intro h x hx hkey
    obtain ⟨l, hl, hxl⟩ := mem_rows.mp hx
    have hkept : x ∈ l.filter fun y => S.key y ≠ key := (h l hl).symm ▸ hxl
    exact of_decide_eq_true (mem_filter.mp hkept).2 hkey
  · intro h l hl
    refine filter_eq_self.mpr fun x hx => ?_
    exact decide_eq_true (h x (mem_rows.mpr ⟨l, hl, hx⟩))

theorem modify_self_iff {f : ρ → ρ} :
    modify shelves k f k = shelves k ↔ ∀ x ∈ rows shelves k, f x = x := by
  have hmap : ∀ l : List ρ, l.map f = l ↔ ∀ x ∈ l, f x = x := by
    intro l
    have hinj : l.map f = l.map id ↔ ∀ x ∈ l, f x = id x := map_inj_left
    rw [map_id] at hinj
    exact hinj
  unfold modify
  rw [update_map_self_iff]
  constructor
  · intro h x hx
    obtain ⟨l, hl, hxl⟩ := mem_rows.mp hx
    exact (hmap l).mp (h l hl) x hxl
  · intro h l hl
    exact (hmap l).mpr fun x hx => h x (mem_rows.mpr ⟨l, hl, hx⟩)

end Frame

end Shelves
