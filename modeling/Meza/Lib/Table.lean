import Mathlib.Data.List.Nodup

/-! # Tables

    A relational table as a list of rows. Rows are found by a key, changed
    and deleted by a condition, and a uniqueness constraint says that no two
    rows share a key. -/

namespace Table
open List

variable {ρ κ : Type*} [DecidableEq κ]

/-- No two rows of the table have the same key. -/
def UniqueOn (key : ρ → κ) (rows : List ρ) : Prop := (rows.map key).Nodup

instance (key : ρ → κ) (rows : List ρ) : Decidable (UniqueOn key rows) :=
  inferInstanceAs (Decidable (Nodup _))

/-- The first row with the given key. -/
def lookup (key : ρ → κ) (k : κ) (rows : List ρ) : Option ρ :=
  rows.find? (fun r => key r = k)

/-- Some row has the given key. -/
def exists? (key : ρ → κ) (k : κ) (rows : List ρ) : Bool :=
  rows.any (fun r => key r = k)

/-- `UPDATE … SET f WHERE p`. -/
def updateWhere (p : ρ → Bool) (f : ρ → ρ) (rows : List ρ) : List ρ :=
  rows.map (fun r => if p r then f r else r)

/-- `DELETE … WHERE p`. -/
def deleteWhere (p : ρ → Bool) (rows : List ρ) : List ρ :=
  rows.filter (fun r => !p r)

/-- `INSERT … ON CONFLICT (key) DO NOTHING`. -/
def insertNew (key : ρ → κ) (r : ρ) (rows : List ρ) : List ρ :=
  if exists? key (key r) rows then rows else rows ++ [r]

/-- `INSERT … ON CONFLICT (key) DO UPDATE SET f`. -/
def upsert (key : ρ → κ) (f : ρ → ρ) (r : ρ) (rows : List ρ) : List ρ :=
  if exists? key (key r) rows then updateWhere (fun r' => key r' = key r) f rows
  else rows ++ [r]

/-! ## Lookup -/

variable {rows : List ρ} {k : κ} {a r : ρ} {p q : ρ → Bool} {key : ρ → κ} {f : ρ → ρ}

theorem mem_of_lookup (h : lookup key k rows = some r) : r ∈ rows ∧ key r = k := by
  exact ⟨mem_of_find?_eq_some h, by simpa using find?_some h⟩

theorem lookup_eq_none : lookup key k rows = none ↔ ∀ r ∈ rows, key r ≠ k := by
  unfold lookup
  simp

omit [DecidableEq κ] in
theorem eq_of_key (hu : UniqueOn key rows) {b : ρ} (ha : a ∈ rows) (hb : b ∈ rows)
    (h : key a = key b) : a = b :=
  inj_on_of_nodup_map hu ha hb h

omit [DecidableEq κ] in
theorem unique_snoc (h : UniqueOn key rows) (hnew : ∀ r ∈ rows, key r ≠ key a) :
    UniqueOn key (rows ++ [a]) := by
  unfold UniqueOn at h ⊢
  rw [map_append, map_singleton, ← concat_eq_append]
  refine h.concat ?_
  intro hmem
  obtain ⟨r, hr, heq⟩ := mem_map.mp hmem
  exact hnew r hr heq

theorem lookup_of_mem (hu : UniqueOn key rows) (hr : r ∈ rows) :
    lookup key (key r) rows = some r := by
  cases h : lookup key (key r) rows with
  | none => exact absurd rfl (lookup_eq_none.mp h r hr)
  | some a =>
    obtain ⟨ha, hkey⟩ := mem_of_lookup h
    rw [eq_of_key hu ha hr hkey]

theorem lookup_perm {rows' : List ρ} (hu : UniqueOn key rows) (h : rows'.Perm rows) (k : κ) :
    lookup key k rows' = lookup key k rows := by
  have hu' : UniqueOn key rows' := (h.map key).nodup_iff.mpr hu
  rcases hfound : lookup key k rows with _ | r
  · refine lookup_eq_none.mpr ?_
    intro r hr
    exact lookup_eq_none.mp hfound r (h.mem_iff.mp hr)
  · obtain ⟨hr, rfl⟩ := mem_of_lookup hfound
    exact lookup_of_mem hu' (h.mem_iff.mpr hr)

theorem filter_key (hu : UniqueOn key rows) (k : κ) :
    rows.filter (fun r => key r = k) = (lookup key k rows).toList := by
  unfold lookup
  induction rows with
  | nil => rfl
  | cons r rows ih =>
    obtain ⟨hfresh, hu⟩ := nodup_cons.mp hu
    by_cases hkey : key r = k
    · have hnone : rows.filter (fun a => key a = k) = [] := by
        rw [filter_eq_nil_iff]
        intro a ha hak
        exact hfresh (mem_map.mpr ⟨a, ha, (of_decide_eq_true hak).trans hkey.symm⟩)
      simp [hkey, hnone]
    · simp [hkey, ih hu]

theorem exists?_eq_true : exists? key k rows = true ↔ ∃ r ∈ rows, key r = k := by
  simp [exists?]

theorem lookup_insertNew (key : ρ → κ) (a : ρ) (rows : List ρ) (k : κ) :
    lookup key k (insertNew key a rows) =
      if k = key a then some ((lookup key k rows).getD a) else lookup key k rows := by
  unfold insertNew
  by_cases hk : k = key a
  · rw [if_pos hk, ← hk]
    cases hlook : lookup key k rows with
    | some r =>
      have hex : exists? key k rows = true := by
        obtain ⟨hr, hkey⟩ := mem_of_lookup hlook
        exact exists?_eq_true.mpr ⟨r, hr, hkey⟩
      rw [if_pos hex, hlook]
      rfl
    | none =>
      have hex : ¬ exists? key k rows = true := by
        intro h
        obtain ⟨r, hr, hkey⟩ := exists?_eq_true.mp h
        exact lookup_eq_none.mp hlook r hr hkey
      rw [if_neg hex]
      unfold lookup at hlook ⊢
      rw [find?_append, hlook]
      simp [hk]
  · rw [if_neg hk]
    split
    · rfl
    · unfold lookup
      have hne : ¬ key a = k := fun h => hk h.symm
      simp [find?_append, hne]

theorem lookup_updateWhere (hf : ∀ r, key (f r) = key r) (p : ρ → Bool) (rows : List ρ) (k : κ) :
    lookup key k (updateWhere p f rows) =
      (lookup key k rows).map (fun r => if p r then f r else r) := by
  unfold lookup updateWhere
  rw [find?_map]
  congr 2
  funext r
  by_cases hp : p r = true
  · simp [hp, hf]
  · simp [hp]

omit [DecidableEq κ] in
theorem map_key_updateWhere (hf : ∀ r, key (f r) = key r) (p : ρ → Bool) (rows : List ρ) :
    (updateWhere p f rows).map key = rows.map key := by
  unfold updateWhere
  rw [map_map]
  refine map_congr_left ?_
  intro r _
  show key (if p r then f r else r) = key r
  split
  · exact hf r
  · rfl

theorem unique_replace (h : UniqueOn key rows) (a : ρ) :
    UniqueOn key (updateWhere (fun r => key r = key a) (fun _ => a) rows) := by
  have hkeys : (updateWhere (fun r => key r = key a) (fun _ => a) rows).map key = rows.map key := by
    unfold updateWhere
    rw [map_map]
    refine map_congr_left ?_
    intro r _
    show key (if decide (key r = key a) = true then a else r) = key r
    by_cases hkey : key r = key a
    · simp [hkey]
    · simp [hkey]
  unfold UniqueOn
  rw [hkeys]
  exact h

theorem unique_upsert_row (h : UniqueOn key rows) (a : ρ) :
    UniqueOn key (upsert key (fun _ => a) a rows) := by
  unfold upsert
  split
  · exact unique_replace h a
  · rename_i hnew
    refine unique_snoc h ?_
    intro r hr heq
    exact hnew (any_eq_true.mpr ⟨r, hr, decide_eq_true heq⟩)

theorem lookup_deleteWhere (hp : ∀ r, key r = k → p r = false) (rows : List ρ) :
    lookup key k (deleteWhere p rows) = lookup key k rows := by
  unfold lookup deleteWhere
  rw [find?_filter]
  congr 1
  funext r
  by_cases hr : key r = k
  · simp [hr, hp r hr]
  · simp [hr]

/-! ## Rows after a change -/

theorem mem_updateWhere : r ∈ updateWhere p f rows ↔ ∃ a ∈ rows, (if p a then f a else a) = r := by
  simp [updateWhere]

theorem mem_deleteWhere : r ∈ deleteWhere p rows ↔ r ∈ rows ∧ p r = false := by
  simp [deleteWhere]

theorem insertNew_of_exists (h : exists? key (key a) rows = true) :
    insertNew key a rows = rows := by
  unfold insertNew
  rw [if_pos h]

theorem insertNew_of_new (h : exists? key (key a) rows = false) :
    insertNew key a rows = rows ++ [a] := by
  unfold insertNew
  rw [h]
  rfl

theorem mem_insertNew :
    r ∈ insertNew key a rows ↔ r ∈ rows ∨ (r = a ∧ exists? key (key a) rows = false) := by
  unfold insertNew
  by_cases h : exists? key (key a) rows = true
  · simp [h]
  · rw [Bool.not_eq_true] at h
    simp [h]

theorem mem_upsert (h : r ∈ upsert key f a rows) :
    r ∈ rows ∨ r = a ∨ ∃ b ∈ rows, key b = key a ∧ r = f b := by
  unfold upsert at h
  split at h
  · obtain ⟨b, hb, hr⟩ := mem_updateWhere.mp h
    by_cases hkey : key b = key a
    · exact .inr (.inr ⟨b, hb, hkey, by simpa [hkey] using hr.symm⟩)
    · exact .inl (by simpa [hkey, ← hr] using hb)
  · rcases mem_append.mp h with h | h
    · exact .inl h
    · exact .inr (.inl (mem_singleton.mp h))

theorem mem_upsert_of_ne (hr : r ∈ rows) (hne : key r ≠ key a) : r ∈ upsert key f a rows := by
  unfold upsert
  split
  · exact mem_updateWhere.mpr ⟨r, hr, by simp [hne]⟩
  · exact mem_append_left _ hr

omit [DecidableEq κ] in
theorem notMem_of_append (h : UniqueOn key (rows ++ [a])) : key a ∉ rows.map key := by
  intro hmem
  unfold UniqueOn at h
  rw [map_append] at h
  exact (nodup_append.mp h).2.2 _ hmem _ mem_cons_self rfl

omit [DecidableEq κ] in
theorem ne_of_append {new : List ρ} (h : UniqueOn key (rows ++ new)) (hk : k ∈ rows.map key)
    (hr : r ∈ new) : key r ≠ k := by
  unfold UniqueOn at h
  rw [map_append, nodup_append] at h
  intro heq
  exact h.2.2 k hk (key r) (mem_map_of_mem hr) heq.symm

theorem unique_insertNew (h : UniqueOn key rows) (a : ρ) : UniqueOn key (insertNew key a rows) := by
  unfold insertNew
  split
  · exact h
  · rename_i hnew
    refine unique_snoc h ?_
    intro r hr heq
    exact hnew (exists?_eq_true.mpr ⟨r, hr, heq⟩)

omit [DecidableEq κ] in
theorem unique_deleteWhere (h : UniqueOn key rows) (p : ρ → Bool) :
    UniqueOn key (deleteWhere p rows) :=
  .sublist (filter_sublist.map _) h

omit [DecidableEq κ] in
/-- A join that keeps the key of each row it keeps stays unique. -/
theorem unique_join {σ : Type*} {f : ρ → Option σ} {key' : σ → κ}
    (hf : ∀ a b, f a = some b → key' b = key a) (h : UniqueOn key rows) :
    UniqueOn key' (rows.filterMap f) := by
  refine .sublist ?_ h
  clear h
  induction rows with
  | nil => simp
  | cons a rows ih =>
    rw [filterMap_cons, map_cons]
    cases hfa : f a with
    | none => exact .cons _ ih
    | some b =>
      rw [map_cons, hf a b hfa]
      exact .cons_cons _ ih

omit [DecidableEq κ] in
theorem unique_of_filter {κ' : Type*} {part : ρ → κ'} {f : κ' → κ}
    (hkey : ∀ r, p r = true → key r = f (part r)) (h : UniqueOn key rows) :
    UniqueOn part (rows.filter p) := by
  have hkeys : ((rows.filter p).map key).Nodup :=
    .sublist (filter_sublist.map _) h
  have hmap : (rows.filter p).map key = ((rows.filter p).map part).map f := by
    rw [map_map]
    apply map_congr_left
    intro r hr
    exact hkey r (mem_filter.mp hr).2
  rw [hmap] at hkeys
  exact hkeys.of_map _

/-! ## Tables as maps -/

theorem lookup_upsert {key : ρ → κ} {f : ρ → ρ} (hf : ∀ r, key (f r) = key r) (a : ρ)
    (rows : List ρ) (k : κ) :
    lookup key k (upsert key f a rows) =
      if k = key a then some (((lookup key k rows).map f).getD a) else lookup key k rows := by
  unfold upsert
  by_cases hex : exists? key (key a) rows = true
  · rw [if_pos hex, lookup_updateWhere hf]
    cases hlook : lookup key k rows with
    | none =>
      obtain ⟨r, hr, hkey⟩ := exists?_eq_true.mp hex
      have hk : k ≠ key a := fun h => lookup_eq_none.mp hlook r hr (hkey.trans h.symm)
      rw [if_neg hk]
      rfl
    | some r =>
      obtain ⟨-, rfl⟩ := mem_of_lookup hlook
      by_cases hk : key r = key a
      · simp [hk]
      · simp [hk]
  · rw [if_neg hex]
    unfold lookup
    rw [find?_append]
    by_cases hk : k = key a
    · have hnone : rows.find? (fun r => key r = k) = none := by
        rw [find?_eq_none]
        intro r hr hkey
        exact hex (exists?_eq_true.mpr ⟨r, hr, (of_decide_eq_true hkey).trans hk⟩)
      rw [hnone]
      simp [hk]
    · have hne : ¬ key a = k := fun h => hk h.symm
      simp [hk, hne]

theorem lookup_deleteWhere_key (key : ρ → κ) (q : κ → Bool) (rows : List ρ) (k : κ) :
    lookup key k (deleteWhere (fun r => q (key r)) rows) =
      if q k = true then none else lookup key k rows := by
  by_cases hq : q k = true
  · rw [if_pos hq, lookup_eq_none]
    intro r hr hkey
    have hkept := (mem_deleteWhere.mp hr).2
    rw [hkey, hq] at hkept
    cases hkept
  · rw [if_neg hq]
    refine lookup_deleteWhere ?_ rows
    intro r hr
    rw [hr]
    exact Bool.eq_false_iff.mpr hq

theorem lookup_deleteWhere_of_unique (hu : UniqueOn key rows) (p : ρ → Bool) (k : κ) :
    lookup key k (deleteWhere p rows) = (lookup key k rows).filter fun r => !p r := by
  cases hrow : lookup key k rows with
  | none =>
    refine lookup_eq_none.mpr ?_
    intro r hr
    exact lookup_eq_none.mp hrow r (mem_deleteWhere.mp hr).1
  | some r =>
    obtain ⟨hr, rfl⟩ := mem_of_lookup hrow
    cases hp : p r with
    | false =>
      have hkept := lookup_of_mem (unique_deleteWhere hu p) (mem_deleteWhere.mpr ⟨hr, hp⟩)
      rw [hkept, Option.filter_some, hp]
      rfl
    | true =>
      have hgone : lookup key (key r) (deleteWhere p rows) = none := by
        refine lookup_eq_none.mpr ?_
        intro a ha hkey
        obtain ⟨hmem, hnot⟩ := mem_deleteWhere.mp ha
        rw [eq_of_key hu hmem hr hkey, hp] at hnot
        cases hnot
      rw [hgone, Option.filter_some, hp]
      rfl

/-- Keys stay unique under an upsert, and so does any other column that keeps its
    values if the new row brings a new one. -/
theorem unique_upsert {κ' : Type*} {col : ρ → κ'} (hu : UniqueOn col rows)
    (hf : ∀ r, col (f r) = col r) (hnew : exists? key (key a) rows = false → col a ∉ rows.map col) :
    UniqueOn col (upsert key f a rows) := by
  unfold upsert
  by_cases hex : exists? key (key a) rows = true
  · rw [if_pos hex]
    unfold UniqueOn
    rwa [map_key_updateWhere hf]
  · rw [if_neg hex]
    refine unique_snoc hu ?_
    intro r hr heq
    exact hnew (Bool.eq_false_iff.mpr hex) (heq ▸ mem_map_of_mem hr)

/-! ## Rows a change leaves alone -/

section Agree

omit [DecidableEq κ]

/-- The rows outside `P` are the same, in the same order. -/
def AgreeOutside (P : ρ → Prop) (rows rows' : List ρ) : Prop :=
  ∀ p : ρ → Bool, (∀ r, P r → p r = false) → rows'.filter p = rows.filter p

variable {P : ρ → Prop} {rows' rows'' : List ρ}

theorem AgreeOutside.refl (P : ρ → Prop) (rows : List ρ) : AgreeOutside P rows rows :=
  fun _ _ => rfl

theorem AgreeOutside.trans (h : AgreeOutside P rows rows') (h' : AgreeOutside P rows' rows'') :
    AgreeOutside P rows rows'' :=
  fun p hp => (h' p hp).trans (h p hp)

theorem AgreeOutside.mem_iff [DecidableEq ρ] (h : AgreeOutside P rows rows') (hr : ¬ P r) :
    r ∈ rows' ↔ r ∈ rows := by
  have heq := h (fun a => a = r) fun a ha => decide_eq_false fun hsame => hr (hsame ▸ ha)
  have hmem : ∀ rows : List ρ, r ∈ rows.filter (fun a => a = r) ↔ r ∈ rows := by
    intro rows
    simp
  rw [← hmem rows', heq, hmem rows]

theorem agreeOutside_map (hf : ∀ r ∈ rows, f r = r ∨ (P r ∧ P (f r))) :
    AgreeOutside P rows (rows.map f) := by
  intro p hp
  induction rows with
  | nil => rfl
  | cons r rows ih =>
    obtain ⟨hr, hrows⟩ := forall_mem_cons.mp hf
    rw [map_cons, filter_cons, filter_cons, ih hrows]
    rcases hr with hr | ⟨hr, hfr⟩
    · rw [hr]
    · rw [hp (f r) hfr, hp r hr]
      rfl

theorem agreeOutside_updateWhere (hq : ∀ r ∈ rows, q r = true → P r)
    (hf : ∀ r ∈ rows, q r = true → P (f r)) : AgreeOutside P rows (updateWhere q f rows) := by
  refine agreeOutside_map ?_
  intro r hr
  by_cases hcond : q r = true
  · rw [if_pos hcond]
    exact .inr ⟨hq r hr hcond, hf r hr hcond⟩
  · rw [if_neg hcond]
    exact .inl rfl

theorem agreeOutside_deleteWhere (hq : ∀ r ∈ rows, q r = true → P r) :
    AgreeOutside P rows (deleteWhere q rows) := by
  intro p hp
  unfold deleteWhere
  rw [filter_filter]
  refine filter_congr ?_
  intro r hr
  rcases hqr : q r with _ | _
  · simp
  · simp [hp r (hq r hr hqr)]

theorem agreeOutside_append {new : List ρ} (hnew : ∀ r ∈ new, P r) :
    AgreeOutside P rows (rows ++ new) := by
  intro p hp
  have hnone : new.filter p = [] := by
    rw [filter_eq_nil_iff]
    intro r hr
    rw [hp r (hnew r hr)]
    exact Bool.false_ne_true
  rw [filter_append, hnone, append_nil]

end Agree

theorem agreeOutside_insertNew {P : ρ → Prop} (ha : exists? key (key a) rows = false → P a) :
    AgreeOutside P rows (insertNew key a rows) := by
  unfold insertNew
  split
  · exact .refl _ rows
  · rename_i hnew
    refine agreeOutside_append ?_
    intro r hr
    rw [mem_singleton.mp hr]
    exact ha (Bool.eq_false_iff.mpr hnew)

theorem agreeOutside_upsert {P : ρ → Prop} (ha : P a) (hP : ∀ r, key r = key a → P r ∧ P (f r)) :
    AgreeOutside P rows (upsert key f a rows) := by
  unfold upsert
  split
  · refine agreeOutside_updateWhere ?_ ?_
    · intro r _ hr
      exact (hP r (of_decide_eq_true hr)).1
    · intro r _ hr
      exact (hP r (of_decide_eq_true hr)).2
  · refine agreeOutside_append ?_
    intro r hr
    rw [mem_singleton.mp hr]
    exact ha

/-! ## Rows changed in place -/

section InPlace

variable {R : ρ → ρ → Prop} {rows' rows'' : List ρ}

omit [DecidableEq κ] in
/-- An update relates every row to the one it becomes. -/
theorem forall₂_updateWhere (hrefl : ∀ r, R r r) (hf : ∀ r ∈ rows, q r = true → R r (f r)) :
    Forall₂ R rows (updateWhere q f rows) := by
  unfold updateWhere
  rw [forall₂_map_right_iff, forall₂_same]
  intro r hr
  by_cases hq : q r = true
  · rw [if_pos hq]
    exact hf r hr hq
  · rw [if_neg hq]
    exact hrefl r

omit [DecidableEq κ] in
theorem forall₂_trans (htrans : ∀ a b c, R a b → R b c → R a c) (h : Forall₂ R rows rows')
    (h' : Forall₂ R rows' rows'') : Forall₂ R rows rows'' := by
  induction h generalizing rows'' with
  | nil => exact h'
  | cons hab _ ih =>
    rcases h' with _ | ⟨hbc, htail⟩
    exact .cons (htrans _ _ _ hab hbc) (ih htail)

omit [DecidableEq κ] in
theorem exists_of_forall₂ (h : Forall₂ R rows rows') {r' : ρ} (hr' : r' ∈ rows') :
    ∃ r ∈ rows, R r r' := by
  induction h with
  | nil => cases hr'
  | cons hab _ ih =>
    rcases mem_cons.mp hr' with rfl | hmem
    · exact ⟨_, mem_cons_self, hab⟩
    · obtain ⟨r, hr, hR⟩ := ih hmem
      exact ⟨r, mem_cons_of_mem _ hr, hR⟩

theorem lookup_forall₂ (hkey : ∀ a b, R a b → key b = key a) (h : Forall₂ R rows rows')
    (k : κ) :
    (lookup key k rows = none ∧ lookup key k rows' = none) ∨
      ∃ a b, lookup key k rows = some a ∧ lookup key k rows' = some b ∧ R a b := by
  unfold lookup
  induction h with
  | nil => exact .inl ⟨rfl, rfl⟩
  | cons hab _ ih =>
    rename_i a b rows rows' _
    rw [find?_cons, find?_cons, hkey a b hab]
    by_cases hk : key a = k
    · simp only [hk, decide_true]
      exact .inr ⟨a, b, rfl, rfl, hab⟩
    · simp only [hk, decide_false]
      exact ih

end InPlace

/-! ## Rows in order -/

/-- In rows ordered by `pos` a smaller row has a smaller index. -/
theorem idxOf_lt_of_sorted {pos : ρ → Nat} (hu : UniqueOn key rows)
    (hsorted : rows.Pairwise fun a b => pos a ≤ pos b) {b : ρ} (ha : a ∈ rows) (hb : b ∈ rows)
    (hlt : pos a < pos b) : (rows.map key).idxOf (key a) < (rows.map key).idxOf (key b) := by
  induction rows with
  | nil => cases ha
  | cons r rows ih =>
    obtain ⟨hfresh, hu⟩ := nodup_cons.mp hu
    obtain ⟨hfirst, hsorted⟩ := pairwise_cons.mp hsorted
    have hne : ∀ c ∈ rows, key r ≠ key c := by
      intro c hc heq
      exact hfresh (heq ▸ mem_map_of_mem hc)
    rw [map_cons]
    rcases mem_cons.mp hb with rfl | hb
    · rcases mem_cons.mp ha with rfl | ha
      · exact absurd hlt (Nat.lt_irrefl _)
      · exact absurd hlt (Nat.not_lt.mpr (hfirst a ha))
    · rw [idxOf_cons_ne _ (hne b hb)]
      rcases mem_cons.mp ha with rfl | ha
      · rw [idxOf_cons_self]
        exact Nat.succ_pos _
      · rw [idxOf_cons_ne _ (hne a ha)]
        exact Nat.succ_lt_succ (ih hu hsorted ha hb)

end Table
