import Meza.Client.TilingTree

/-! # The edits of the tree, from left to right

    What an edit of `tree.ts` does to the list of panes, where a path leads, and which
    ratios an edit sets. -/

namespace Meza.Client.Tiling
open List

/-! ## Section 1: Paths -/

/-- Where the path leads. -/
def subtree : TreePath → TilingNode → Option TilingNode
  | [], node => some node
  | .first :: path, .split _ _ first _ => subtree path first
  | .second :: path, .split _ _ _ second => subtree path second
  | _ :: _, .pane _ => none

/-- The ratio of the split that the path leads to, if it leads to one. -/
def ratioAt (path : TreePath) (root : TilingNode) : Option Number :=
  (subtree path root).bind fun node =>
    match node with
    | .pane _ => none
    | .split _ ratio _ _ => some ratio

/-- `NaN` is in no bounds. -/
def InBounds (ratio : Number) : Prop := ∃ x ∈ ratio, minRatio ≤ x ∧ x ≤ maxRatio

/-- A new pane on the requested side of the target. -/
def beside (before : Bool) (newPaneId targetId : PaneId) : List PaneId :=
  if before then [newPaneId, targetId] else [targetId, newPaneId]

/-- The laws of the edits. The ids of a tree stand on two sides, `l` and `r`, of a target. -/
structure Lawful (root : TilingNode) (path : TreePath) (newRatio : Number) : Prop where
  split : ∀ targetId l r, allPaneIds root = l ++ targetId :: r → ∀ direction newPaneId before,
    allPaneIds (splitPane targetId direction newPaneId before root) =
      l ++ beside before newPaneId targetId ++ r
  remove : ∀ targetId l r, allPaneIds root = l ++ targetId :: r →
    ((removePane targetId root).map allPaneIds).getD [] = l ++ r
  move : ∀ sourceId ∈ allPaneIds root, ∀ targetId ∈ allPaneIds root, sourceId ≠ targetId →
    ∀ position, ∃ root', movePane root sourceId targetId position = some root' ∧
      (allPaneIds root').Perm (allPaneIds root) ∧
      beside position.before sourceId targetId <:+: allPaneIds root' ∧
      (allPaneIds root').filter (· ≠ sourceId) = (allPaneIds root).filter (· ≠ sourceId)
  find : ∀ id path, findPane id root = some path ↔ subtree path root = some (.pane id)
  found : ∀ id ∈ allPaneIds root, (findPane id root).isSome
  ids : allPaneIds (updateRatio newRatio path root) = allPaneIds root
  others : ∀ path' ≠ path, ratioAt path' (updateRatio newRatio path root) = ratioAt path' root
  ratio : ∀ r ∈ ratioAt path (updateRatio newRatio path root), InBounds r

/-! ## Section 2: Splitting, removing and moving -/

variable {root : TilingNode} {targetId : PaneId} {l r : List PaneId}

theorem allPaneIds_splitPane_flatMap (targetId : PaneId) (direction : SplitDirection)
    (newPaneId : PaneId) (before : Bool) (root : TilingNode) :
    allPaneIds (splitPane targetId direction newPaneId before root) = (allPaneIds root).flatMap
      fun id => if id = targetId then beside before newPaneId targetId else [id] := by
  induction root with
  | pane id =>
    by_cases hid : id = targetId
    · cases before <;> simp [splitPane, allPaneIds, beside, hid]
    · simp [splitPane, allPaneIds, hid]
  | split dir ratio first second ihFirst ihSecond =>
    rw [splitPane, allPaneIds, allPaneIds, flatMap_append, ihFirst, ihSecond]

theorem flatMap_of_notMem {new : List PaneId} (h : targetId ∉ l) :
    (l.flatMap fun id => if id = targetId then new else [id]) = l := by
  induction l with
  | nil => rfl
  | cons id l ih =>
    rw [mem_cons, not_or] at h
    rw [flatMap_cons, if_neg (Ne.symm h.1), ih h.2]
    rfl

theorem allPaneIds_splitPane_append (hd : (l ++ targetId :: r).Nodup)
    (h : allPaneIds root = l ++ targetId :: r) (direction : SplitDirection) (newPaneId : PaneId)
    (before : Bool) :
    allPaneIds (splitPane targetId direction newPaneId before root) =
      l ++ beside before newPaneId targetId ++ r := by
  have hout := nodup_middle.mp hd
  rw [nodup_cons, mem_append, not_or] at hout
  rw [allPaneIds_splitPane_flatMap, h, flatMap_append, flatMap_cons,
    flatMap_of_notMem hout.1.1, flatMap_of_notMem hout.1.2, if_pos rfl, append_assoc]

theorem filter_of_notMem (h : targetId ∉ l) : l.filter (· ≠ targetId) = l := by
  refine filter_eq_self.mpr fun id hid => ?_
  have hne : id ≠ targetId := fun heq => h (heq ▸ hid)
  simpa using hne

theorem filter_append_cons (hd : (l ++ targetId :: r).Nodup) :
    (l ++ targetId :: r).filter (· ≠ targetId) = l ++ r := by
  have hout := nodup_middle.mp hd
  rw [nodup_cons, mem_append, not_or] at hout
  rw [filter_append, filter_cons_of_neg (by simp), filter_of_notMem hout.1.1,
    filter_of_notMem hout.1.2]

theorem move_lawful (hd : (allPaneIds root).Nodup) {sourceId : PaneId}
    (hs : sourceId ∈ allPaneIds root) (ht : targetId ∈ allPaneIds root) (hne : sourceId ≠ targetId)
    (position : DropPosition) :
    ∃ root', movePane root sourceId targetId position = some root' ∧
      (allPaneIds root').Perm (allPaneIds root) ∧
      beside position.before sourceId targetId <:+: allPaneIds root' ∧
      (allPaneIds root').filter (· ≠ sourceId) = (allPaneIds root).filter (· ≠ sourceId) := by
  rcases hrest : removePane sourceId root with _ | rest
  · exact absurd (removePane_eq_none.mp hrest targetId ht) hne.symm
  · have hids := removePane_eq_some hrest
    have hmem : targetId ∈ allPaneIds rest := by
      rw [hids]
      simpa using ⟨ht, hne.symm⟩
    obtain ⟨l, r, hsides⟩ := append_of_mem hmem
    have hdrest : (l ++ targetId :: r).Nodup := by
      rw [← hsides, hids]
      exact hd.filter _
    have hsource : sourceId ∉ l ++ targetId :: r := by
      rw [← hsides, hids]
      simp
    have hsplit := allPaneIds_splitPane_append hdrest hsides position.direction sourceId
      position.before
    have hperm : (l ++ beside position.before sourceId targetId ++ r).Perm
        (sourceId :: (l ++ targetId :: r)) := by
      have hbeside : (beside position.before sourceId targetId).Perm [sourceId, targetId] := by
        cases position <;> first | exact .refl _ | exact .swap _ _ _
      refine ((hbeside.append_left l).append_right r).trans ?_
      rw [append_assoc]
      exact perm_middle
    refine ⟨_, by rw [movePane, hrest, Option.map_some], ?_, ⟨l, r, hsplit.symm⟩, ?_⟩
    · obtain ⟨a, b, hroot⟩ := append_of_mem hs
      rw [hroot, filter_append_cons (hroot ▸ hd)] at hids
      rw [hsplit, hroot]
      rw [← hsides, hids] at hperm
      exact hperm.trans perm_middle.symm
    · rw [mem_append, mem_cons, not_or, not_or] at hsource
      have hbeside : (beside position.before sourceId targetId).filter (· ≠ sourceId) =
          [targetId] := by
        cases position <;> simp [beside, DropPosition.before, hne.symm]
      rw [hsplit, ← hids, hsides, filter_append, filter_append, hbeside,
        filter_of_notMem hsource.1, filter_of_notMem hsource.2.2, append_assoc]
      rfl

/-! ## Section 3: Finding a pane -/

theorem mem_allPaneIds_of_subtree {path : TreePath} {id : PaneId}
    (h : subtree path root = some (.pane id)) : id ∈ allPaneIds root := by
  induction path generalizing root with
  | nil =>
    rw [Option.some.inj h]
    exact mem_singleton.mpr rfl
  | cons side path ih =>
    cases root with
    | pane _ => cases side <;> cases h
    | split _ _ first second =>
      cases side with
      | first => exact mem_append_left _ (ih h)
      | second => exact mem_append_right _ (ih h)

theorem findPane_isSome (id : PaneId) (root : TilingNode) :
    (findPane id root).isSome ↔ id ∈ allPaneIds root := by
  induction root with
  | pane paneId =>
    by_cases hid : paneId = id
    · simp [findPane, allPaneIds, hid]
    · simp [findPane, allPaneIds, hid, Ne.symm hid]
  | split dir ratio first second ihFirst ihSecond =>
    rw [allPaneIds, mem_append, ← ihFirst, ← ihSecond, findPane]
    rcases findPane id first with _ | path
    · simp
    · simp

theorem findPane_eq_some (hd : (allPaneIds root).Nodup) {id : PaneId} {path : TreePath} :
    findPane id root = some path ↔ subtree path root = some (.pane id) := by
  induction root generalizing path with
  | pane paneId =>
    cases path with
    | nil =>
      by_cases hid : paneId = id
      · simp [findPane, subtree, hid]
      · simp [findPane, subtree, hid]
    | cons side path =>
      by_cases hid : paneId = id
      · cases side <;> simp [findPane, subtree, hid]
      · cases side <;> simp [findPane, subtree, hid]
  | split dir ratio first second ihFirst ihSecond =>
    obtain ⟨hdfirst, hdsecond, hdisjoint⟩ := nodup_append.mp hd
    have hsome := findPane_isSome id first
    rw [findPane]
    rcases hfirst : findPane id first with _ | inFirst
    · cases path with
      | nil => simp [subtree]
      | cons side path =>
        cases side with
        | first =>
          rw [subtree, ← ihFirst hdfirst, hfirst]
          simp
        | second => simp [subtree, ihSecond hdsecond]
    · have hmem : id ∈ allPaneIds first := hsome.mp (by rw [hfirst]; rfl)
      cases path with
      | nil => simp [subtree]
      | cons side path =>
        cases side with
        | first =>
          rw [subtree, ← ihFirst hdfirst, hfirst]
          simp
        | second =>
          refine iff_of_false (by simp) fun h => ?_
          exact hdisjoint id hmem id (mem_allPaneIds_of_subtree h) rfl

/-! ## Section 4: Ratios -/

theorem ratioAt_updateRatio (newRatio : Number) (path : TreePath) (root : TilingNode) :
    ratioAt path (updateRatio newRatio path root) =
      (ratioAt path root).map fun _ => clampRatio newRatio := by
  induction path generalizing root with
  | nil => cases root <;> rfl
  | cons side path ih =>
    cases root with
    | pane id => cases side <;> rfl
    | split dir ratio first second =>
      cases side with
      | first => exact ih first
      | second => exact ih second

theorem ratioAt_updateRatio_of_ne (newRatio : Number) {path path' : TreePath} (h : path' ≠ path)
    (root : TilingNode) : ratioAt path' (updateRatio newRatio path root) = ratioAt path' root := by
  induction path generalizing path' root with
  | nil =>
    cases root with
    | pane id => rfl
    | split dir ratio first second =>
      cases path' with
      | nil => exact absurd rfl h
      | cons side' path' => cases side' <;> rfl
  | cons side path ih =>
    cases root with
    | pane id => cases side <;> rfl
    | split dir ratio first second =>
      cases path' with
      | nil => cases side <;> rfl
      | cons side' path' =>
        cases side <;> cases side' <;>
          first | rfl | exact ih (fun heq => h (congrArg _ heq)) _

theorem inBounds_clampRatio (ratio : Number) : InBounds (clampRatio ratio) ↔ ratio ≠ none := by
  cases ratio with
  | none => simp [InBounds, clampRatio]
  | some x =>
    have hle : minRatio ≤ maxRatio := by decide +kernel
    refine iff_of_true ⟨_, rfl, le_max_left _ _, ?_⟩ (by simp)
    exact max_le hle (min_le_left _ _)

/-- The laws hold of all edits but one: a ratio that is set to `NaN` is `NaN`. -/
theorem lawful_iff (hd : (allPaneIds root).Nodup) (path : TreePath) (newRatio : Number) :
    Lawful root path newRatio ↔ (newRatio = none → ratioAt path root = none) := by
  have hset : (∀ r ∈ ratioAt path (updateRatio newRatio path root), InBounds r) ↔
      (newRatio = none → ratioAt path root = none) := by
    rw [ratioAt_updateRatio]
    rcases ratioAt path root with _ | ratio
    · simp
    · simp [inBounds_clampRatio]
  rw [← hset]
  exact ⟨fun h => h.ratio, fun hratio => {
    split := fun targetId l r h direction newPaneId before =>
      allPaneIds_splitPane_append (h ▸ hd) h direction newPaneId before
    remove := fun targetId l r h => by
      rw [allPaneIds_removePane, h, filter_append_cons (h ▸ hd)]
    move := fun sourceId hs targetId ht hne position => move_lawful hd hs ht hne position
    find := fun id path => findPane_eq_some hd
    found := fun id hid => (findPane_isSome id root).mpr hid
    ids := allPaneIds_updateRatio newRatio path root
    others := fun path' hne => ratioAt_updateRatio_of_ne newRatio hne root
    ratio := hratio }⟩

/-- Two panes side by side. -/
def pair : TilingNode := .split .horizontal evenRatio (.pane "left") (.pane "right")

theorem lawful_pair : Lawful pair [] (some (ordered 2)) :=
  (lawful_iff (by decide) [] _).mpr (by simp)

theorem not_lawful_nan :
    ¬ ∀ root, (allPaneIds root).Nodup → ∀ path newRatio, Lawful root path newRatio := by
  intro h
  obtain ⟨x, hx, -⟩ := (h pair (by decide) [] none).ratio none rfl
  cases hx

end Meza.Client.Tiling
