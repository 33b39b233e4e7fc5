import Mathlib.Data.List.Perm.Basic
import Mathlib.Data.List.Nodup
import Mathlib.Algebra.Order.Ring.Unbundled.Rat
import Mathlib.Order.WithBot

/-! # The tree of panes

    The client's window is divided by a binary tree: its leaves are panes, its
    inner nodes split the space between two parts. `tree.ts` has the edits of
    the tree. What matters of each is the list of pane ids, from left to right. -/

namespace Meza.Client.Tiling
open List

abbrev PaneId := String

/-! ## Section 1: Trees -/

inductive SplitDirection where
  | horizontal
  | vertical
  deriving DecidableEq, Repr

/-- A child of a split. -/
inductive Side where
  | first
  | second
  deriving DecidableEq, Repr

abbrev TreePath := List Side

/-- What a `number` can be, `NaN` apart; rounding is left out. -/
abbrev Ordered := WithBot (WithTop Rat)

/-- `none` is `NaN`. -/
abbrev Number := Option Ordered

inductive TilingNode where
  | pane (id : PaneId)
  | split (direction : SplitDirection) (ratio : Number) (first second : TilingNode)
  deriving DecidableEq, Repr

/-- Where a pane is dropped, the centre excepted. -/
inductive DropPosition where
  | left
  | right
  | top
  | bottom
  deriving DecidableEq, Repr

def DropPosition.direction : DropPosition → SplitDirection
  | .left | .right => .horizontal
  | .top | .bottom => .vertical

def DropPosition.before : DropPosition → Bool
  | .left | .top => true
  | .right | .bottom => false

/-! ## Section 2: Edits -/

def ordered (x : Rat) : Ordered := ((x : WithTop Rat) : Ordered)

def minRatio : Ordered := ordered (1 / 10)

def maxRatio : Ordered := ordered (9 / 10)

/-- `Math.min` and `Math.max` of `NaN` are `NaN`. -/
def clampRatio (ratio : Number) : Number := ratio.map fun x => max minRatio (min maxRatio x)

def evenRatio : Number := some (ordered (1 / 2))

/-- Replaces a pane by a split of it and a new pane. -/
def splitPane (targetId : PaneId) (direction : SplitDirection) (newPaneId : PaneId)
    (before : Bool) : TilingNode → TilingNode
  | .pane id =>
    if id = targetId then
      if before then .split direction evenRatio (.pane newPaneId) (.pane id)
      else .split direction evenRatio (.pane id) (.pane newPaneId)
    else .pane id
  | .split dir ratio first second =>
    .split dir ratio (splitPane targetId direction newPaneId before first)
      (splitPane targetId direction newPaneId before second)

/-- Removes a pane; its sibling takes the place of their split. -/
def removePane (targetId : PaneId) : TilingNode → Option TilingNode
  | .pane id => if id = targetId then none else some (.pane id)
  | .split dir ratio first second =>
    match removePane targetId first, removePane targetId second with
    | none, secondResult => secondResult
    | firstResult, none => firstResult
    | some first', some second' => some (.split dir ratio first' second')

def updateRatio (newRatio : Number) : TreePath → TilingNode → TilingNode
  | [], .split dir _ first second => .split dir (clampRatio newRatio) first second
  | .first :: rest, .split dir ratio first second =>
    .split dir ratio (updateRatio newRatio rest first) second
  | .second :: rest, .split dir ratio first second =>
    .split dir ratio first (updateRatio newRatio rest second)
  | _, .pane id => .pane id

/-- In-order traversal. -/
def allPaneIds : TilingNode → List PaneId
  | .pane id => [id]
  | .split _ _ first second => allPaneIds first ++ allPaneIds second

def findPane (id : PaneId) : TilingNode → Option TreePath
  | .pane paneId => if paneId = id then some [] else none
  | .split _ _ first second =>
    match findPane id first with
    | some inFirst => some (.first :: inFirst)
    | none => (findPane id second).map (.second :: ·)

def paneCount : TilingNode → Nat
  | .pane _ => 1
  | .split _ _ first second => paneCount first + paneCount second

/-- Removes the source and splits the target; the source keeps its id. -/
def movePane (root : TilingNode) (sourceId targetId : PaneId) (position : DropPosition) :
    Option TilingNode :=
  (removePane sourceId root).map (splitPane targetId position.direction sourceId position.before)

/-! ## Section 3: What an edit does to the ids -/

section Edits

variable (root : TilingNode)

theorem paneCount_eq_length : paneCount root = (allPaneIds root).length := by
  induction root with
  | pane id => rfl
  | split dir ratio first second ihFirst ihSecond =>
    rw [paneCount, allPaneIds, length_append, ihFirst, ihSecond]

theorem allPaneIds_ne_nil : allPaneIds root ≠ [] := by
  induction root with
  | pane id => simp [allPaneIds]
  | split dir ratio first second ihFirst ihSecond => simp [allPaneIds, ihFirst]

theorem paneCount_pos : 1 ≤ paneCount root := by
  rw [paneCount_eq_length]
  exact length_pos_iff.mpr (allPaneIds_ne_nil root)

theorem allPaneIds_splitPane (targetId : PaneId) (direction : SplitDirection)
    (newPaneId : PaneId) (before : Bool) :
    (allPaneIds (splitPane targetId direction newPaneId before root)).Perm
      (replicate ((allPaneIds root).count targetId) newPaneId ++ allPaneIds root) := by
  induction root with
  | pane id =>
    by_cases hid : id = targetId
    · cases before with
      | true => simp [splitPane, allPaneIds, hid]
      | false => simpa [splitPane, allPaneIds, hid] using Perm.swap newPaneId targetId []
    · simp [splitPane, allPaneIds, hid]
  | split dir ratio first second ihFirst ihSecond =>
    rw [splitPane, allPaneIds, allPaneIds, count_append, replicate_add]
    refine (ihFirst.append ihSecond).trans ?_
    rw [append_assoc, append_assoc]
    apply Perm.append_left
    rw [← append_assoc, ← append_assoc]
    exact perm_append_comm.append_right _

theorem allPaneIds_removePane (targetId : PaneId) :
    ((removePane targetId root).map allPaneIds).getD [] =
      (allPaneIds root).filter (· ≠ targetId) := by
  induction root with
  | pane id =>
    by_cases hid : id = targetId
    · simp [removePane, allPaneIds, hid]
    · simp [removePane, allPaneIds, hid]
  | split dir ratio first second ihFirst ihSecond =>
    rw [allPaneIds, filter_append, ← ihFirst, ← ihSecond, removePane]
    rcases removePane targetId first with _ | first'
    · simp
    · rcases removePane targetId second with _ | second'
      · simp
      · simp [allPaneIds]

variable {root}

theorem removePane_eq_some {targetId : PaneId} {root' : TilingNode}
    (h : removePane targetId root = some root') :
    allPaneIds root' = (allPaneIds root).filter (· ≠ targetId) := by
  rw [← allPaneIds_removePane, h]
  rfl

theorem removePane_eq_none {targetId : PaneId} :
    removePane targetId root = none ↔ ∀ id ∈ allPaneIds root, id = targetId := by
  have hids := allPaneIds_removePane root targetId
  rcases h : removePane targetId root with _ | root'
  · rw [h] at hids
    have hnone : (allPaneIds root).filter (· ≠ targetId) = [] := hids.symm
    simpa using hnone
  · rw [h] at hids
    have hsome : (allPaneIds root).filter (· ≠ targetId) ≠ [] := by
      rw [← hids]
      exact allPaneIds_ne_nil root'
    simpa using hsome

theorem allPaneIds_updateRatio (newRatio : Number) (path : TreePath) (root : TilingNode) :
    allPaneIds (updateRatio newRatio path root) = allPaneIds root := by
  induction path generalizing root with
  | nil =>
    cases root with
    | pane id => rfl
    | split dir ratio first second => rfl
  | cons side path ih =>
    cases root with
    | pane id => cases side <;> rfl
    | split dir ratio first second =>
      cases side with
      | first | second => rw [updateRatio, allPaneIds, ih, allPaneIds]

end Edits

end Meza.Client.Tiling
