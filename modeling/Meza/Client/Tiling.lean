import Mathlib.Data.List.GetD
import Mathlib.Data.List.Sort
import Meza.Client.TilingTree
import Meza.Lib.Dict
import Meza.Lib.Run

/-! # The tiling store

    The store of the layout, `tiling.ts`: the tree of panes, what each pane shows,
    and which pane has the focus. The three are updated one by one.

    Whether simple mode is on is read from the session, and new ids come from
    `nanoid`; both are arguments of the actions that use them. -/

namespace Meza.Client.Tiling
open List Dict Run

/-! ## Section 1: The state -/

inductive PaneContent where
  | channel (channelId : String)
  | dm (conversationId : String)
  | voice (channelId : String)
  | screenShare (channelId participantIdentity : String) (participantName : Option String)
  | settings (section? : Option String)
  | profile (userId : String) (editing : Option Bool)
  | search (query channelId : Option String)
  | serverSettings (serverId : String)
  | channelSettings (serverId channelId : String)
  | categorySettings (serverId channelGroupId : String)
  | serverOnboarding (serverId : String)
  | getStarted
  | createServer
  | messageRequests
  | friends (tab : Option String)
  | dmsHome
  | empty
  deriving DecidableEq, Repr

def maxPanes : Nat := 8

structure TilingState where
  root : TilingNode
  focusedPaneId : PaneId
  panes : List (PaneId × PaneContent)
  overlayContent : Option PaneContent := none
  deriving DecidableEq, Repr

def initial : TilingState where
  root := .pane "initial"
  focusedPaneId := "initial"
  panes := [("initial", .empty)]

/-! ## Section 2: Actions -/

/-- An integer index, such as `"10"`, below `2 ^ 32 - 1`. -/
def arrayIndex (key : String) : Option Nat :=
  key.toNat?.filter fun n => toString n = key ∧ n < 4294967295

/-- `Object.keys`: integer indices come first, in their order. -/
def objectKeys {α : Type} (o : List (String × α)) : List String :=
  let keys := o.map Prod.fst
  let indices := keys.filter fun key => (arrayIndex key).isSome
  (indices.insertionSort fun a b => (arrayIndex a).getD 0 ≤ (arrayIndex b).getD 0) ++
    keys.filter fun key => (arrayIndex key).isNone

inductive Action where
  | focusPane (id : PaneId)
  | splitFocused (simpleMode : Bool) (direction : SplitDirection) (content : Option PaneContent)
      (before : Bool) (newId : PaneId)
  | closeFocused
  | closePane (id : PaneId)
  | closePanesMatching (predicate : PaneContent → Bool)
  | updateRatio (path : TreePath) (ratio : Number)
  | setPaneContent (id : PaneId) (content : PaneContent)
  | resetLayout (newId : PaneId)
  | cycleFocus
  | setOverlay (content : PaneContent)
  | closeOverlay
  | swapPanes (sourceId targetId : PaneId)
  | movePane (sourceId targetId : PaneId) (position : DropPosition)
  | splitAtPane (simpleMode : Bool) (targetId : PaneId) (content : PaneContent)
      (position : DropPosition) (newId : PaneId)

namespace TilingState

def setContent (s : TilingState) (id : PaneId) (content : PaneContent) : TilingState :=
  { s with panes := Dict.set s.panes id content }

/-- A new pane beside another one, with its content and the focus. -/
def addPane (s : TilingState) (targetId : PaneId) (direction : SplitDirection) (before : Bool)
    (newId : PaneId) (content : PaneContent) : TilingState :=
  { s with
    root := splitPane targetId direction newId before s.root
    panes := Dict.set s.panes newId content
    focusedPaneId := newId }

def splitFocused (s : TilingState) (simpleMode : Bool) (direction : SplitDirection)
    (content : Option PaneContent) (before : Bool) (newId : PaneId) : TilingState :=
  if simpleMode then
    match content with
    | none => s
    | some content => s.setContent s.focusedPaneId content
  else if maxPanes ≤ paneCount s.root then s
  else s.addPane s.focusedPaneId direction before newId (content.getD .empty)

/-- The last pane is emptied; another one is removed, and the first that remains
    takes over the focus. -/
def closePane (s : TilingState) (id : PaneId) : TilingState :=
  if (allPaneIds s.root).length ≤ 1 then s.setContent id .empty
  else
    match removePane id s.root with
    | none => s
    | some newRoot =>
      { s with
        panes := Dict.delete s.panes id
        root := newRoot
        focusedPaneId :=
          if s.focusedPaneId = id then (allPaneIds newRoot).headD s.focusedPaneId
          else s.focusedPaneId }

def matching (s : TilingState) (predicate : PaneContent → Bool) : List PaneId :=
  (objectKeys s.panes).filter fun id => (Dict.get s.panes id).any predicate

/-- The panes are closed one after the other. -/
def closePanesMatching (s : TilingState) (predicate : PaneContent → Bool) : TilingState :=
  (s.matching predicate).foldl closePane s

def resetLayout (s : TilingState) (newId : PaneId) : TilingState :=
  { s with
    root := .pane newId
    panes := [(newId, (Dict.get s.panes s.focusedPaneId).getD .empty)]
    focusedPaneId := newId }

/-- An id that is not there has the index -1. -/
def cycleFocus (s : TilingState) : TilingState :=
  let ids := allPaneIds s.root
  let nextIndex :=
    match ids.idxOf? s.focusedPaneId with
    | none => 0
    | some i => (i + 1) % ids.length
  { s with focusedPaneId := ids.getD nextIndex s.focusedPaneId }

def swapPanes (s : TilingState) (sourceId targetId : PaneId) : TilingState :=
  match Dict.get s.panes sourceId, Dict.get s.panes targetId with
  | some sourceContent, some targetContent =>
    { s with
      panes := Dict.set (Dict.set s.panes sourceId targetContent) targetId sourceContent
      focusedPaneId := targetId }
  | _, _ => s

def movePane (s : TilingState) (sourceId targetId : PaneId) (position : DropPosition) :
    TilingState :=
  match Tiling.movePane s.root sourceId targetId position with
  | none => s
  | some newRoot => { s with root := newRoot, focusedPaneId := sourceId }

def splitAtPane (s : TilingState) (simpleMode : Bool) (targetId : PaneId) (content : PaneContent)
    (position : DropPosition) (newId : PaneId) : TilingState :=
  if simpleMode then s.setContent targetId content
  else if maxPanes ≤ paneCount s.root then
    { s.setContent targetId content with focusedPaneId := targetId }
  else s.addPane targetId position.direction position.before newId content

end TilingState

def step (s : TilingState) : Action → TilingState
  | .focusPane id => { s with focusedPaneId := id }
  | .splitFocused simpleMode direction content before newId =>
    s.splitFocused simpleMode direction content before newId
  | .closeFocused => s.closePane s.focusedPaneId
  | .closePane id => s.closePane id
  | .closePanesMatching predicate => s.closePanesMatching predicate
  | .updateRatio path ratio => { s with root := updateRatio ratio path s.root }
  | .setPaneContent id content => { s.setContent id content with overlayContent := none }
  | .resetLayout newId => s.resetLayout newId
  | .cycleFocus => s.cycleFocus
  | .setOverlay content => { s with overlayContent := some content }
  | .closeOverlay => { s with overlayContent := none }
  | .swapPanes sourceId targetId => s.swapPanes sourceId targetId
  | .movePane sourceId targetId position => s.movePane sourceId targetId position
  | .splitAtPane simpleMode targetId content position newId =>
    s.splitAtPane simpleMode targetId content position newId

/-! ## Section 3: The invariant -/

/-- The tree, the contents and the focus are about the same panes, of which there are
    at least one and not too many. -/
structure Tiled (s : TilingState) : Prop where
  distinct : (allPaneIds s.root).Nodup
  unique : Table.UniqueOn Prod.fst s.panes
  keys : ∀ id, (Dict.get s.panes id).isSome = true ↔ id ∈ allPaneIds s.root
  focused : s.focusedPaneId ∈ allPaneIds s.root
  some : 1 ≤ paneCount s.root
  few : paneCount s.root ≤ maxPanes

/-- The ids that an action is given are panes of the layout, and new ids are unused. -/
def Action.Valid (s : TilingState) : Action → Prop
  | .focusPane id | .closePane id | .setPaneContent id _ => id ∈ allPaneIds s.root
  | .swapPanes sourceId targetId | .movePane sourceId targetId _ =>
    sourceId ∈ allPaneIds s.root ∧ targetId ∈ allPaneIds s.root
  | .splitFocused _ _ _ _ newId | .resetLayout newId => newId ∉ allPaneIds s.root
  | .splitAtPane _ targetId _ _ newId =>
    targetId ∈ allPaneIds s.root ∧ newId ∉ allPaneIds s.root
  | _ => True

instance (s : TilingState) (a : Action) : Decidable (a.Valid s) := by
  unfold Action.Valid
  split <;> infer_instance

/-- No pane is moved to itself, unless it is the only one. -/
def Action.Separates (s : TilingState) : Action → Prop
  | .movePane sourceId targetId _ => sourceId ≠ targetId ∨ paneCount s.root = 1
  | _ => True

/-! ## Section 4: Steps -/

theorem objectKeys_perm {α : Type} (o : List (String × α)) :
    (objectKeys o).Perm (o.map Prod.fst) := by
  unfold objectKeys
  refine ((perm_insertionSort _ _).append_right _).trans ?_
  have hsplit := filter_append_perm (fun key => (arrayIndex key).isSome) (o.map Prod.fst)
  simpa [Option.not_isSome] using hsplit

section Steps

variable {s : TilingState} {id : PaneId}

theorem Tiled.focus (h : Tiled s) (hid : id ∈ allPaneIds s.root) :
    Tiled { s with focusedPaneId := id } :=
  { h with focused := hid }

theorem Tiled.setContent (h : Tiled s) (hid : id ∈ allPaneIds s.root) (content : PaneContent) :
    Tiled (s.setContent id content) where
  distinct := h.distinct
  unique := Dict.unique_set h.unique
  keys := by
    intro k
    unfold TilingState.setContent
    rw [get_set]
    by_cases hk : k = id
    · simp [hk, hid]
    · rw [if_neg hk]
      exact h.keys k
  focused := h.focused
  some := h.some
  few := h.few

theorem splitPane_perm {root : TilingNode} {targetId : PaneId} (hd : (allPaneIds root).Nodup)
    (htarget : targetId ∈ allPaneIds root) (direction : SplitDirection) (newId : PaneId)
    (before : Bool) : (allPaneIds (splitPane targetId direction newId before root)).Perm
      (newId :: allPaneIds root) := by
  have hperm := allPaneIds_splitPane root targetId direction newId before
  rw [count_eq_one_of_mem hd htarget] at hperm
  exact hperm

theorem Tiled.addPane (h : Tiled s) {targetId newId : PaneId}
    (htarget : targetId ∈ allPaneIds s.root) (hnew : newId ∉ allPaneIds s.root)
    (hfew : paneCount s.root < maxPanes) (direction : SplitDirection) (before : Bool)
    (content : PaneContent) : Tiled (s.addPane targetId direction before newId content) := by
  have hperm := splitPane_perm h.distinct htarget direction newId before
  have hcount : paneCount (splitPane targetId direction newId before s.root) =
      paneCount s.root + 1 := by
    rw [paneCount_eq_length, paneCount_eq_length, hperm.length_eq, length_cons]
  refine ⟨?_, Dict.unique_set h.unique, ?_, ?_, paneCount_pos _, ?_⟩
  · exact hperm.nodup_iff.mpr (List.nodup_cons.mpr ⟨hnew, h.distinct⟩)
  · intro k
    unfold TilingState.addPane
    rw [get_set, hperm.mem_iff, mem_cons]
    by_cases hk : k = newId
    · simp [hk]
    · rw [if_neg hk, or_iff_right hk]
      exact h.keys k
  · exact hperm.mem_iff.mpr mem_cons_self
  · show paneCount (splitPane targetId direction newId before s.root) ≤ maxPanes
    omega

theorem Tiled.closePane (h : Tiled s) (hid : id ∈ allPaneIds s.root) :
    Tiled (s.closePane id) ∧
      ∀ k ∈ allPaneIds s.root, k ≠ id → k ∈ allPaneIds (s.closePane id).root := by
  unfold TilingState.closePane
  by_cases hlast : (allPaneIds s.root).length ≤ 1
  · rw [if_pos hlast]
    exact ⟨h.setContent hid .empty, fun k hk _ => hk⟩
  · rw [if_neg hlast]
    rcases hremove : removePane id s.root with _ | newRoot
    · exact ⟨h, fun k hk _ => hk⟩
    · have hids := removePane_eq_some hremove
      have hcount : paneCount newRoot ≤ paneCount s.root := by
        rw [paneCount_eq_length, paneCount_eq_length, hids]
        exact length_filter_le _ _
      refine ⟨⟨?_, unique_delete h.unique, ?_, ?_, paneCount_pos _, ?_⟩, ?_⟩
      · rw [hids]
        exact h.distinct.filter _
      · intro k
        rw [get_delete, hids, mem_filter, decide_eq_true_eq]
        by_cases hk : k = id
        · simp [hk]
        · rw [if_neg hk, h.keys k]
          exact (and_iff_left hk).symm
      · dsimp only
        by_cases hfocus : s.focusedPaneId = id
        · rw [if_pos hfocus]
          rcases hrest : allPaneIds newRoot with _ | ⟨first, rest⟩
          · exact absurd hrest (allPaneIds_ne_nil newRoot)
          · exact mem_cons_self
        · rw [if_neg hfocus, hids]
          exact mem_filter.mpr ⟨h.focused, decide_eq_true hfocus⟩
      · exact hcount.trans h.few
      · intro k hk hne
        rw [hids]
        exact mem_filter.mpr ⟨hk, decide_eq_true hne⟩

theorem Tiled.closeAll (h : Tiled s) {ids : List PaneId} (hd : ids.Nodup)
    (hids : ∀ k ∈ ids, k ∈ allPaneIds s.root) : Tiled (ids.foldl TilingState.closePane s) := by
  induction ids generalizing s with
  | nil => exact h
  | cons k ids ih =>
    obtain ⟨hnot, hrest⟩ := List.nodup_cons.mp hd
    obtain ⟨hclosed, hothers⟩ := h.closePane (hids k mem_cons_self)
    apply ih hclosed hrest
    intro x hx
    have hne : x ≠ k := by
      rintro rfl
      exact hnot hx
    exact hothers x (hids x (mem_cons_of_mem _ hx)) hne

theorem Tiled.closePanesMatching (h : Tiled s) (predicate : PaneContent → Bool) :
    Tiled (s.closePanesMatching predicate) := by
  apply h.closeAll
  · apply Nodup.filter
    exact (objectKeys_perm s.panes).nodup_iff.mpr h.unique
  · intro k hk
    obtain ⟨-, hcontent⟩ := mem_filter.mp hk
    obtain ⟨content, hget, -⟩ := (Option.any_eq_true _ _).mp hcontent
    rw [← h.keys k, hget]
    rfl

theorem tiled_resetLayout (s : TilingState) (newId : PaneId) : Tiled (s.resetLayout newId) where
  distinct := nodup_singleton newId
  unique := nodup_singleton newId
  keys := by
    intro k
    unfold TilingState.resetLayout
    by_cases hk : k = newId
    · simp [Dict.get, Table.lookup, allPaneIds, hk]
    · simp [Dict.get, Table.lookup, allPaneIds, hk, Ne.symm hk]
  focused := mem_singleton_self newId
  some := Nat.le_refl 1
  few := Nat.le_of_ble_eq_true rfl

theorem Tiled.cycleFocus (h : Tiled s) : Tiled s.cycleFocus := by
  have hpos : 0 < (allPaneIds s.root).length :=
    List.length_pos_iff.mpr (allPaneIds_ne_nil s.root)
  apply h.focus
  split
  · rw [getD_eq_getElem _ _ hpos]
    exact getElem_mem _
  · rw [getD_eq_getElem _ _ (Nat.mod_lt _ hpos)]
    exact getElem_mem _

theorem Tiled.swapPanes (h : Tiled s) {sourceId targetId : PaneId}
    (hsource : sourceId ∈ allPaneIds s.root) (htarget : targetId ∈ allPaneIds s.root) :
    Tiled (s.swapPanes sourceId targetId) := by
  unfold TilingState.swapPanes
  split
  · next sourceContent targetContent _ _ =>
    exact ((h.setContent hsource targetContent).setContent htarget sourceContent).focus htarget
  · exact h

theorem Tiled.movePane (h : Tiled s) {sourceId targetId : PaneId} (position : DropPosition)
    (hsource : sourceId ∈ allPaneIds s.root) (htarget : targetId ∈ allPaneIds s.root)
    (hne : sourceId ≠ targetId) : Tiled (s.movePane sourceId targetId position) := by
  unfold TilingState.movePane Tiling.movePane
  rcases hremove : removePane sourceId s.root with _ | rest
  · exact h
  · have hids := removePane_eq_some hremove
    have hrest : targetId ∈ allPaneIds rest := by
      rw [hids]
      exact mem_filter.mpr ⟨htarget, decide_eq_true hne.symm⟩
    have hdistinct : (allPaneIds rest).Nodup := by
      rw [hids]
      exact h.distinct.filter _
    -- the source comes back beside the target
    have hback : (sourceId :: (allPaneIds s.root).filter (· ≠ sourceId)).Perm
        (allPaneIds s.root) := by
      have herase : (allPaneIds s.root).erase sourceId =
          (allPaneIds s.root).filter (· ≠ sourceId) := by
        rw [h.distinct.erase_eq_filter]
        apply filter_congr
        intro k _
        by_cases hk : k = sourceId
        · simp [hk]
        · simp [hk]
      rw [← herase]
      exact (perm_cons_erase hsource).symm
    have hsplit := splitPane_perm hdistinct hrest position.direction sourceId position.before
    rw [hids] at hsplit
    have hperm := hsplit.trans hback
    have hcount : paneCount (splitPane targetId position.direction sourceId position.before rest) =
        paneCount s.root := by
      rw [paneCount_eq_length, paneCount_eq_length, hperm.length_eq]
    refine ⟨hperm.nodup_iff.mpr h.distinct, h.unique, ?_, hperm.mem_iff.mpr hsource,
      paneCount_pos _, hcount.trans_le h.few⟩
    intro k
    exact (h.keys k).trans hperm.mem_iff.symm

/-- A pane that is moved to itself is removed, and keeps the focus. -/
theorem focused_movePane_self (hd : (allPaneIds s.root).Nodup) (hid : id ∈ allPaneIds s.root)
    (hmany : paneCount s.root ≠ 1) (position : DropPosition) :
    (s.movePane id id position).focusedPaneId ∉ allPaneIds (s.movePane id id position).root := by
  unfold TilingState.movePane Tiling.movePane
  rcases hremove : removePane id s.root with _ | rest
  · exfalso
    apply hmany
    have hall := removePane_eq_none.mp hremove
    rw [paneCount_eq_length]
    have hle : (allPaneIds s.root).length ≤ 1 := by
      rw [eq_replicate_of_mem hall] at hd ⊢
      simpa using hd
    have hpos := length_pos_of_mem hid
    omega
  · have hids := removePane_eq_some hremove
    have hnone : id ∉ allPaneIds rest := by
      rw [hids]
      simp
    have hperm := allPaneIds_splitPane rest id position.direction id position.before
    rw [count_eq_zero_of_not_mem hnone] at hperm
    intro hmem
    exact hnone (hperm.mem_iff.mp hmem)

/-- A valid action keeps the invariant if and only if it moves no pane to itself. -/
theorem tiled_step_iff (h : Tiled s) {a : Action} (hvalid : a.Valid s) :
    Tiled (step s a) ↔ a.Separates s := by
  cases a with
  | movePane sourceId targetId position =>
    obtain ⟨hsource, htarget⟩ := hvalid
    by_cases hne : sourceId = targetId
    · subst hne
      constructor
      · intro hstep
        right
        by_contra hmany
        -- the pane is taken out, and the target is then looked for in vain
        exact focused_movePane_self h.distinct hsource hmany position hstep.focused
      · intro hseparates
        -- a lone pane cannot be taken out, and nothing moves
        have hone := hseparates.resolve_left fun hself => hself rfl
        have hlast : removePane sourceId s.root = none := by
          rw [removePane_eq_none]
          rw [paneCount_eq_length, length_eq_one_iff] at hone
          obtain ⟨only, honly⟩ := hone
          intro k hk
          rw [honly] at hk hsource
          rw [List.mem_singleton.mp hk, List.mem_singleton.mp hsource]
        have hsame : step s (.movePane sourceId sourceId position) = s := by
          simp [step, TilingState.movePane, Tiling.movePane, hlast]
        rw [hsame]
        exact h
    · exact iff_of_true (h.movePane position hsource htarget hne) (Or.inl hne)
  | focusPane id => exact iff_of_true (h.focus hvalid) trivial
  | splitFocused simpleMode direction content before newId =>
    refine iff_of_true ?_ trivial
    unfold step TilingState.splitFocused
    dsimp only
    split
    · split
      · exact h
      · exact h.setContent h.focused _
    · split
      · exact h
      · next hfew => exact h.addPane h.focused hvalid (Nat.lt_of_not_le hfew) _ _ _
  | closeFocused => exact iff_of_true (h.closePane h.focused).1 trivial
  | closePane id => exact iff_of_true (h.closePane hvalid).1 trivial
  | closePanesMatching predicate => exact iff_of_true (h.closePanesMatching predicate) trivial
  | updateRatio path ratio =>
    have hids := allPaneIds_updateRatio ratio path s.root
    have hcount : paneCount (updateRatio ratio path s.root) = paneCount s.root := by
      rw [paneCount_eq_length, paneCount_eq_length, hids]
    refine iff_of_true ⟨?_, h.unique, ?_, ?_, paneCount_pos _, hcount.trans_le h.few⟩ trivial
    · exact hids ▸ h.distinct
    · intro k
      exact (h.keys k).trans (by rw [← hids]; rfl)
    · exact hids ▸ h.focused
  | setPaneContent id content =>
    have hset := h.setContent hvalid content
    exact iff_of_true ⟨hset.distinct, hset.unique, hset.keys, hset.focused, hset.some, hset.few⟩
      trivial
  | resetLayout newId => exact iff_of_true (tiled_resetLayout s newId) trivial
  | cycleFocus => exact iff_of_true h.cycleFocus trivial
  | setOverlay content | closeOverlay =>
    exact iff_of_true ⟨h.distinct, h.unique, h.keys, h.focused, h.some, h.few⟩ trivial
  | swapPanes sourceId targetId => exact iff_of_true (h.swapPanes hvalid.1 hvalid.2) trivial
  | splitAtPane simpleMode targetId content position newId =>
    refine iff_of_true ?_ trivial
    unfold step TilingState.splitAtPane
    dsimp only
    split
    · exact h.setContent hvalid.1 content
    · split
      · exact (h.setContent hvalid.1 content).focus hvalid.1
      · next hfew => exact h.addPane hvalid.1 hvalid.2 (Nat.lt_of_not_le hfew) _ _ _

end Steps

/-! ## Section 5: Runs -/

theorem tiled_initial : Tiled initial where
  distinct := nodup_singleton "initial"
  unique := nodup_singleton "initial"
  keys := by
    intro k
    by_cases hk : k = "initial"
    · simp [initial, Dict.get, Table.lookup, allPaneIds, hk]
    · simp [initial, Dict.get, Table.lookup, allPaneIds, hk, Ne.symm hk]
  focused := mem_singleton_self "initial"
  some := Nat.le_refl 1
  few := Nat.le_of_ble_eq_true rfl

/-- **The layout stays in one piece.** Along a run of valid actions the tree, the contents and
    the focus agree in every state, if and only if no pane is ever moved to itself. -/
theorem tiled_along_iff (actions : List Action)
    (hvalid : Guarded step (fun s a => a.Valid s) initial actions) :
    (∀ pre, pre <+: actions → Tiled (exec step initial pre)) ↔
      Guarded step (fun s a => a.Separates s) initial actions :=
  along_iff_of_guarded (I := Tiled) (J := fun _ => True) (fun _ _ _ _ => trivial)
    (fun _ _ _ h hok => tiled_step_iff h hok) trivial tiled_initial hvalid

/-- A second pane is moved above the first one, which is closed. -/
theorem tiled_along_split :
    (∀ pre, pre <+: [.splitFocused false .horizontal none false "side",
        .movePane "side" "initial" .top, .closePane "initial"] →
      Tiled (exec step initial pre)) ↔
      Guarded step (fun s a => a.Separates s) initial
        [.splitFocused false .horizontal none false "side", .movePane "side" "initial" .top,
          .closePane "initial"] :=
  tiled_along_iff _ (by decide)

/-- A pane is dropped on itself: its content and the focus remain, and it is gone. -/
theorem not_tiled_movePane_self :
    ¬ ∀ actions, Guarded step (fun s a => a.Valid s) initial actions →
      ∀ pre, pre <+: actions → Tiled (exec step initial pre) := by
  intro hall
  have htiled := hall [.splitFocused false .horizontal none false "side",
    .movePane "side" "side" .left] (by decide) _ prefix_rfl
  exact absurd htiled.focused (by decide)

/-! ## Section 6: Taking back -/

variable {content : PaneContent} {position : DropPosition}

theorem removePane_splitPane {root : TilingNode} {newId : PaneId} (h : newId ∉ allPaneIds root)
    (targetId : PaneId) (direction : SplitDirection) (before : Bool) :
    removePane newId (splitPane targetId direction newId before root) = some root := by
  induction root with
  | pane k =>
    have hne : k ≠ newId := fun hk => h (mem_singleton.mpr hk.symm)
    unfold splitPane
    by_cases htarget : k = targetId
    · rw [if_pos htarget]
      cases before with
      | true | false => simp [removePane, hne]
    · rw [if_neg htarget]
      exact if_neg hne
  | split dir ratio first second ihFirst ihSecond =>
    rw [allPaneIds, mem_append, not_or] at h
    rw [splitPane, removePane, ihFirst h.1, ihSecond h.2]

theorem Tiled.closePane_addPane (h : Tiled s) {targetId newId : PaneId}
    (htarget : targetId ∈ allPaneIds s.root) (hnew : newId ∉ allPaneIds s.root)
    (direction : SplitDirection) (before : Bool) (content : PaneContent) :
    (s.addPane targetId direction before newId content).closePane newId =
      { s with focusedPaneId := (allPaneIds s.root).headD newId } := by
  -- there are two panes, so the new one is not merely emptied
  have hmany : ¬ (allPaneIds (splitPane targetId direction newId before s.root)).length ≤ 1 := by
    have hpos := length_pos_iff.mpr (allPaneIds_ne_nil s.root)
    have hone := count_pos_iff.mpr htarget
    rw [(allPaneIds_splitPane s.root targetId direction newId before).length_eq, length_append,
      length_replicate]
    omega
  have hpanes : Dict.delete (Dict.set s.panes newId content) newId = s.panes := by
    refine delete_set_of_new fun x hx hkey => hnew ((h.keys newId).mp ?_)
    unfold Dict.get
    rw [← hkey, Table.lookup_of_mem h.unique hx]
    rfl
  unfold TilingState.closePane TilingState.addPane
  rw [if_neg hmany]
  dsimp only
  rw [removePane_splitPane hnew, hpanes]
  simp

/-- **A split is taken back** by closing the new pane: the tree and all contents are as they were
    before. Only the focus goes to the first pane. -/
theorem splits_undone (actions : List Action)
    (hvalid : Guarded step (fun s a => a.Valid s ∧ a.Separates s) initial actions)
    {targetId newId : PaneId} (hfew : paneCount (exec step initial actions).root < maxPanes)
    (htarget : targetId ∈ allPaneIds (exec step initial actions).root)
    (hnew : newId ∉ allPaneIds (exec step initial actions).root) (split : Action)
    (hsplit : split ∈ [.splitAtPane false targetId content position newId,
      .splitFocused false position.direction (some content) position.before newId]) :
    exec step initial (actions ++ [split, .closePane newId]) =
      { exec step initial actions with
        focusedPaneId := (allPaneIds (exec step initial actions).root).headD newId } := by
  have htiled : Tiled (exec step initial actions) :=
    exec_invariant (fun s a h hok => (tiled_step_iff h hok.1).mpr hok.2) tiled_initial hvalid
  rw [exec_append]
  generalize exec step initial actions = s at hfew htarget hnew htiled ⊢
  have hroom : ¬ maxPanes ≤ paneCount s.root := Nat.not_le.mpr hfew
  rcases mem_pair.mp hsplit with rfl | rfl
  · show (s.splitAtPane _ _ _ _ _).closePane newId = _
    unfold TilingState.splitAtPane
    rw [if_neg Bool.false_ne_true, if_neg hroom]
    exact htiled.closePane_addPane htarget hnew _ _ _
  · show (s.splitFocused _ _ _ _ _).closePane newId = _
    unfold TilingState.splitFocused
    rw [if_neg Bool.false_ne_true, if_neg hroom]
    exact htiled.closePane_addPane htiled.focused hnew _ _ _

theorem splits_undone_side : exec step initial
      ([.splitFocused false .horizontal none false "side"] ++
        [.splitAtPane false "side" .dmsHome .top "third", .closePane "third"]) =
      { exec step initial [.splitFocused false .horizontal none false "side"] with
        focusedPaneId := "initial" } :=
  splits_undone [.splitFocused false .horizontal none false "side"] ⟨⟨by decide, trivial⟩, trivial⟩
    (by decide) (by decide) (by decide) _ mem_cons_self

end Meza.Client.Tiling
