import Mathlib.Data.List.AList
import Meza.Lib.Retention

/-! # Bounded maps

    A map that is cut back to `n` entries after every insertion: its keys are
    sorted and those in front are dropped. The sort is a parameter, which may
    put only some lists in order.

    Where it sorts, the keys that remain are the greatest of all that were ever
    inserted (Section 3). Where there are never more than `n` keys it does not
    matter (Section 4). -/

namespace BoundedMap
open List AList Retention

abbrev Map (κ β : Type*) := AList (fun _ : κ => β)

variable {κ β : Type*} [LinearOrder κ]

/-! ## Section 1: Insertions -/

section Operations

variable (sort : List κ → List κ) (n : Nat)

/-- Drop the first keys beyond the bound. -/
def prune (m : Map κ β) : Map κ β :=
  if n < m.keys.length then
    let keys := sort m.keys
    (keys.take (keys.length - n)).foldl (fun m k => m.erase k) m
  else m

def put (m : Map κ β) (k : κ) (b : β) : Map κ β := prune sort n (m.insert k b)

def putAll (m : Map κ β) (entries : List (κ × β)) : Map κ β :=
  entries.foldl (fun m e => put sort n m e.1 e.2) m

end Operations

/-- The same insertions into a map without a bound. -/
def writeAll (m : Map κ β) (entries : List (κ × β)) : Map κ β :=
  entries.foldl (fun m e => m.insert e.1 e.2) m

variable {sort : List κ → List κ} {n : Nat}

theorem putAll_append (m : Map κ β) (entries entries' : List (κ × β)) :
    putAll sort n m (entries ++ entries') = putAll sort n (putAll sort n m entries) entries' :=
  foldl_append

theorem writeAll_append (m : Map κ β) (entries entries' : List (κ × β)) :
    writeAll m (entries ++ entries') = writeAll (writeAll m entries) entries' :=
  foldl_append

/-! ## Section 2: What is found is what was written -/

theorem lookup_foldl_erase (keys : List κ) (m : Map κ β) (k : κ) :
    (keys.foldl (fun m w => m.erase w) m).lookup k = if k ∈ keys then none else m.lookup k := by
  induction keys generalizing m with
  | nil => simp
  | cons w keys ih =>
    rw [foldl_cons, ih]
    by_cases hk : k ∈ keys
    · simp [hk]
    · by_cases hw : k = w
      · subst hw
        simp [lookup_erase]
      · simp [hk, hw, lookup_erase_ne hw]

theorem lookup_prune (m : Map κ β) (k : κ) :
    (prune sort n m).lookup k =
      if n < m.keys.length ∧ k ∈ (sort m.keys).take ((sort m.keys).length - n) then none
      else m.lookup k := by
  unfold prune
  by_cases hmany : n < m.keys.length
  · simp only [hmany, if_true, true_and, lookup_foldl_erase]
  · simp only [hmany, if_false, false_and]

variable {entries : List (κ × β)} {m : Map κ β} {b : β} {k : κ}

theorem mem_prune :
    k ∈ prune sort n m ↔
      k ∈ m ∧ ¬ (n < m.keys.length ∧ k ∈ (sort m.keys).take ((sort m.keys).length - n)) := by
  rw [← lookup_isSome, ← lookup_isSome, lookup_prune]
  split
  · rename_i hdropped
    simp [hdropped]
  · rename_i hkept
    simp [hkept]

/-- Pruning drops entries and changes none. -/
theorem lookup_prune_of_some (h : (prune sort n m).lookup k = some b) : m.lookup k = some b := by
  rw [lookup_prune] at h
  split at h
  · cases h
  · exact h

theorem lookup_insert_mono {m' : Map κ β} (h : ∀ k b, m.lookup k = some b → m'.lookup k = some b)
    (w : κ) (c : β) (k : κ) (b : β) (hk : (m.insert w c).lookup k = some b) :
    (m'.insert w c).lookup k = some b := by
  by_cases hw : k = w
  · subst hw
    rw [lookup_insert] at hk ⊢
    exact hk
  · rw [lookup_insert_ne hw] at hk ⊢
    exact h k b hk

/-- What is found has been written last. -/
theorem lookup_putAll_of_some (h : (putAll sort n m entries).lookup k = some b) :
    (writeAll m entries).lookup k = some b := by
  induction entries using reverseRecOn generalizing k b with
  | nil => exact h
  | append_singleton entries e ih =>
    rw [putAll_append] at h
    rw [writeAll_append]
    have hwritten : ((putAll sort n m entries).insert e.1 e.2).lookup k = some b :=
      lookup_prune_of_some h
    exact lookup_insert_mono (fun k b hk => ih hk) e.1 e.2 k b hwritten

theorem mem_writeAll : k ∈ writeAll m entries ↔ k ∈ m ∨ k ∈ entries.map Prod.fst := by
  induction entries generalizing m with
  | nil => simp [writeAll]
  | cons e entries ih =>
    show k ∈ writeAll (m.insert e.1 e.2) entries ↔ _
    rw [ih, mem_insert, map_cons, mem_cons]
    tauto

/-- The last of some entries with the key. -/
def lastOf (entries : List (κ × β)) (k : κ) : Option β :=
  (entries.reverse.find? fun e => e.1 = k).map (·.2)

theorem lookup_writeAll (entries : List (κ × β)) (m : Map κ β) (k : κ) :
    (writeAll m entries).lookup k = (lastOf entries k).or (m.lookup k) := by
  induction entries using reverseRecOn with
  | nil => rfl
  | append_singleton entries e ih =>
    rw [writeAll_append]
    show ((writeAll m entries).insert e.1 e.2).lookup k = _
    unfold lastOf at ih ⊢
    by_cases hk : e.1 = k
    · subst hk
      simp [lookup_insert]
    · rw [lookup_insert_ne (Ne.symm hk), ih]
      simp [hk]

/-- The keys that are left were there or were inserted. -/
theorem mem_writeAll_of_mem (h : k ∈ putAll sort n m entries) : k ∈ writeAll m entries := by
  obtain ⟨b, hb⟩ := Option.isSome_iff_exists.mp (lookup_isSome.mpr h)
  exact lookup_isSome.mp (Option.isSome_of_mem (lookup_putAll_of_some hb))

/-! ## Section 3: Where the sort sorts -/

/-- All keys of a map, and those that are inserted. -/
def allKeys (m : Map κ β) (entries : List (κ × β)) : Finset κ :=
  m.keys.toFinset ∪ (entries.map Prod.fst).toFinset

theorem mem_allKeys : k ∈ allKeys m entries ↔ k ∈ m ∨ k ∈ entries.map Prod.fst := by
  simp [allKeys, AList.mem_keys]

/-- Lists of these keys are put in increasing order. -/
def SortsOn (sort : List κ → List κ) (keys : Finset κ) : Prop :=
  ∀ l : List κ, (∀ k ∈ l, k ∈ keys) → (sort l).Perm l ∧ (sort l).Pairwise (· ≤ ·)

theorem sortsOn_insertionSort (keys : Finset κ) : SortsOn (insertionSort (· ≤ ·)) keys := by
  intro l _
  exact ⟨perm_insertionSort _ l, pairwise_insertionSort _ l⟩

theorem mem_prune_of_sorted (hperm : (sort m.keys).Perm m.keys)
    (hsorted : (sort m.keys).Pairwise (· ≤ ·)) :
    k ∈ prune sort n m ↔ k ∈ m ∧ Retention.above m.keys.toFinset k < n := by
  have heq : sort m.keys = m.keys.insertionSort (· ≤ ·) :=
    (hperm.trans (perm_insertionSort _ _).symm).eq_of_pairwise
      (fun _ _ _ _ hab hba => le_antisymm hab hba) hsorted (pairwise_insertionSort _ _)
  rw [mem_prune, hperm.length_eq, heq, mem_take_insertionSort m.keys_nodup, AList.mem_keys]
  constructor
  · rintro ⟨hk, hkept⟩
    refine ⟨hk, ?_⟩
    have hbelow := above_lt_card (mem_toFinset.mpr (mem_keys.mp hk))
    rw [toFinset_card_of_nodup m.keys_nodup] at hbelow
    by_contra hmany
    exact hkept ⟨by omega, mem_keys.mp hk, by omega⟩
  · rintro ⟨hk, hfew⟩
    exact ⟨hk, fun h => by omega⟩

theorem keys_insert (m : Map κ β) (k : κ) (b : β) :
    (m.insert k b).keys.toFinset = insert k m.keys.toFinset := by
  ext w
  simp only [List.mem_toFinset, Finset.mem_insert, ← AList.mem_keys, AList.mem_insert]

theorem keys_put {keys : Finset κ} (hsort : SortsOn sort keys) (hm : ∀ w ∈ m, w ∈ keys)
    (hk : k ∈ keys) :
    (put sort n m k b).keys.toFinset = Retention.greatest n (insert k m.keys.toFinset) := by
  have hall : ∀ w ∈ (m.insert k b).keys, w ∈ keys := by
    intro w hw
    rcases (AList.mem_insert m).mp (AList.mem_keys.mpr hw) with rfl | hw
    · exact hk
    · exact hm w hw
  obtain ⟨hperm, hsorted⟩ := hsort _ hall
  ext w
  rw [List.mem_toFinset, ← AList.mem_keys, put, mem_prune_of_sorted hperm hsorted, keys_insert,
    Retention.mem_greatest, ← keys_insert m k b, List.mem_toFinset, AList.mem_keys]

/-- Whatever was dropped on the way, the greatest of all keys are left. -/
theorem keys_putAll (hne : entries ≠ []) (hsort : SortsOn sort (allKeys m entries)) :
    (putAll sort n m entries).keys.toFinset = greatest n (allKeys m entries) := by
  have hrun : ∀ es, es <+: entries → es ≠ [] →
      (putAll sort n m es).keys.toFinset = greatest n (allKeys m es) := by
    intro es hpre hes
    induction es using reverseRecOn with
    | nil => exact absurd rfl hes
    | append_singleton es e ih =>
      have hall : ∀ w ∈ putAll sort n m es, w ∈ allKeys m entries := by
        intro w hw
        refine mem_allKeys.mpr ?_
        rcases mem_writeAll.mp (mem_writeAll_of_mem hw) with hold | hnew
        · exact Or.inl hold
        · exact Or.inr (map_subset _ ((prefix_append es [e]).trans hpre).subset hnew)
      have he : e.1 ∈ allKeys m entries := by
        refine mem_allKeys.mpr (Or.inr (mem_map_of_mem (hpre.subset ?_)))
        exact mem_append_right _ mem_cons_self
      have hlast : (putAll sort n m (es ++ [e])).keys.toFinset =
          greatest n (insert e.1 (putAll sort n m es).keys.toFinset) := by
        rw [putAll_append]
        exact keys_put hsort hall he
      have hunion : allKeys m (es ++ [e]) = insert e.1 (allKeys m es) := by
        ext w
        simp only [mem_allKeys, Finset.mem_insert, map_append, map_cons, map_nil,
          mem_append, mem_singleton]
        tauto
      rw [hlast, hunion]
      by_cases hnil : es = []
      · subst hnil
        simp [putAll, allKeys]
      · rw [ih ((prefix_append es [e]).trans hpre) hnil, greatest_insert_greatest]
  exact hrun entries (prefix_refl _) hne

theorem mem_putAll_of_sorts (hne : entries ≠ []) (hsort : SortsOn sort (allKeys m entries)) :
    k ∈ putAll sort n m entries ↔
      k ∈ allKeys m entries ∧ Retention.above (allKeys m entries) k < n := by
  rw [← Retention.mem_greatest, ← keys_putAll hne hsort, List.mem_toFinset, AList.mem_keys]

/-! ## Section 4: Where it need not -/

/-- A map with room for all keys is not cut back. -/
theorem putAll_eq_writeAll (hroom : (allKeys m entries).card ≤ n) :
    putAll sort n m entries = writeAll m entries := by
  induction entries generalizing m with
  | nil => rfl
  | cons e entries ih =>
    have hkeys : allKeys (m.insert e.1 e.2) entries = allKeys m (e :: entries) := by
      ext w
      simp only [mem_allKeys, mem_insert, map_cons, mem_cons]
      tauto
    have hfew : ¬ n < (m.insert e.1 e.2).keys.length := by
      have hsub : (m.insert e.1 e.2).keys.toFinset ⊆ allKeys (m.insert e.1 e.2) entries :=
        Finset.subset_union_left
      have hcard := Finset.card_le_card hsub
      rw [toFinset_card_of_nodup (m.insert e.1 e.2).keys_nodup, hkeys] at hcard
      omega
    have hput : put sort n m e.1 e.2 = m.insert e.1 e.2 := if_neg hfew
    show putAll sort n (put sort n m e.1 e.2) entries = writeAll (m.insert e.1 e.2) entries
    rw [hput]
    exact ih (by rw [hkeys]; exact hroom)

/-- A key that is always sorted last stays. -/
theorem mem_putAll_of_last {a : κ} (hn : 0 < n)
    (hlast : ∀ l : List κ, l.Nodup → a ∈ l → ∃ front, sort l = front ++ [a] ∧ a ∉ front)
    (h : a ∈ m ∨ a ∈ entries.map Prod.fst) : a ∈ putAll sort n m entries := by
  induction entries generalizing m with
  | nil => simpa [putAll] using h
  | cons e entries ih =>
    refine ih ?_
    rw [map_cons, mem_cons, ← or_assoc] at h
    refine h.imp_left ?_
    intro hin
    have hmem : a ∈ m.insert e.1 e.2 := (mem_insert m).mpr hin.symm
    obtain ⟨front, hsort, hfront⟩ :=
      hlast _ (m.insert e.1 e.2).keys_nodup (mem_keys.mp hmem)
    refine mem_prune.mpr ⟨hmem, ?_⟩
    rintro ⟨-, hdropped⟩
    rw [hsort, length_append, length_singleton] at hdropped
    have htake : (front ++ [a]).take (front.length + 1 - n) = front.take (front.length + 1 - n) :=
      take_append_of_le_length (by omega)
    rw [htake] at hdropped
    exact hfront (mem_of_mem_take hdropped)

end BoundedMap
