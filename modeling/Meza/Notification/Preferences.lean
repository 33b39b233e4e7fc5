import Meza.Store.Schema

/-! # Notification levels

    A user chooses how much to be notified of: everywhere, for a server, or for
    a channel. The most specific choice wins. The level of one user and the
    levels of many are found by different queries, whose rows come in any order.

    `precedence` says what a level is without any query; Section 3 has both
    queries find it. -/

namespace Meza.Notification
open List Table

open Store (ID)

/-! ## Section 1: Preferences -/

/-- The values of `scope_type`. -/
inductive ScopeType where
  | global
  | server
  | channel
  deriving DecidableEq, Repr

/-- The values of `level`. -/
inductive Level where
  | all
  | mentionsOnly
  | nothing
  deriving DecidableEq, Repr

/-- A row of `notification_preferences`. -/
structure Preference where
  userID : ID
  scopeType : ScopeType
  scopeID : ID := ""
  level : Level
  deriving DecidableEq, Repr

/-- The disjunction of the `WHERE` clause. -/
def Preference.concerns (serverID channelID : ID) (p : Preference) : Bool :=
  match p.scopeType with
  | .global => p.scopeID = ""
  | .server => p.scopeID = serverID
  | .channel => p.scopeID = channelID

/-! ## Section 2: The effective level -/

/-- The levels found for one user; `none` is the empty string. -/
structure UserPrefs where
  global : Option Level := none
  server : Option Level := none
  channel : Option Level := none
  deriving DecidableEq, Repr

def UserPrefs.scan (up : UserPrefs) (p : Preference) : UserPrefs :=
  match p.scopeType with
  | .channel => { up with channel := some p.level }
  | .server => { up with server := some p.level }
  | .global => { up with global := some p.level }

/-- Resolve: channel > server > global, default "all". -/
def UserPrefs.resolve (up : UserPrefs) : Level :=
  match up.channel, up.server, up.global with
  | some level, _, _ => level
  | none, some level, _ => level
  | none, none, some level => level
  | none, none, none => .all

def getEffectiveLevel (rows : List Preference) (userID serverID channelID : ID) : Level :=
  let found := rows.filter fun p => p.userID = userID ∧ p.concerns serverID channelID
  (found.foldl UserPrefs.scan {}).resolve

/-- One row of the bulk query, collected under its user. -/
def scanUser (byUser : ID → UserPrefs) (p : Preference) : ID → UserPrefs :=
  Function.update byUser p.userID ((byUser p.userID).scan p)

/-- The map of the levels; it is asked for the given users only. -/
def getEffectiveLevelsForUsers (rows : List Preference) (userIDs : List ID)
    (serverID channelID : ID) : ID → Level :=
  let found := rows.filter fun p => p.userID ∈ userIDs ∧ p.concerns serverID channelID
  let byUser := found.foldl scanUser fun _ => {}
  fun uid => (byUser uid).resolve

theorem foldl_scanUser (rows : List Preference) (byUser : ID → UserPrefs) (uid : ID) :
    rows.foldl scanUser byUser uid =
      (rows.filter fun p => p.userID = uid).foldl UserPrefs.scan (byUser uid) := by
  induction rows generalizing byUser with
  | nil => rfl
  | cons p rows ih =>
    rw [foldl_cons, ih, filter_cons]
    by_cases h : p.userID = uid
    · subst h
      simp [scanUser]
    · simp [scanUser, h, Function.update_of_ne (Ne.symm h)]

theorem getEffectiveLevelsForUsers_eq (rows : List Preference) {userIDs : List ID}
    (serverID channelID : ID) {uid : ID} (h : uid ∈ userIDs) :
    getEffectiveLevelsForUsers rows userIDs serverID channelID uid =
      getEffectiveLevel rows uid serverID channelID := by
  unfold getEffectiveLevelsForUsers getEffectiveLevel
  rw [foldl_scanUser, filter_filter]
  congr 2
  apply filter_congr
  intro p _
  by_cases hp : p.userID = uid
  · simp [hp, h]
  · simp [hp]

/-! ## Section 3: Precedence -/

/-- The primary key of the table. -/
def Preference.key (p : Preference) : ID × ScopeType × ID := (p.userID, p.scopeType, p.scopeID)

/-- What a user has chosen for one scope. -/
def chosen (rows : List Preference) (userID : ID) (scopeType : ScopeType) (scopeID : ID) :
    Option Level :=
  (lookup Preference.key (userID, scopeType, scopeID) rows).map Preference.level

/-- The channel's level before the server's, that before the global one, and `all` where
    nothing is chosen. -/
def precedence (rows : List Preference) (userID serverID channelID : ID) : Level :=
  (((chosen rows userID .channel channelID).or (chosen rows userID .server serverID)).or
    (chosen rows userID .global "")).getD .all

/-- The id that a row of the scope has to have. -/
def ScopeType.idIn (serverID channelID : ID) : ScopeType → ID
  | .global => ""
  | .server => serverID
  | .channel => channelID

def UserPrefs.level (up : UserPrefs) : ScopeType → Option Level
  | .global => up.global
  | .server => up.server
  | .channel => up.channel

theorem UserPrefs.level_scan (up : UserPrefs) (p : Preference) (t : ScopeType) :
    (up.scan p).level t = if p.scopeType = t then some p.level else up.level t := by
  unfold UserPrefs.scan
  cases p.scopeType with
  | global | server | channel => cases t <;> rfl

theorem UserPrefs.resolve_eq (up : UserPrefs) :
    up.resolve = (((up.level .channel).or (up.level .server)).or (up.level .global)).getD .all := by
  rcases up with ⟨_ | global, _ | server, _ | channel⟩ <;> rfl

theorem level_foldl_scan (rows : List Preference) (up : UserPrefs) (t : ScopeType) :
    (rows.foldl .scan up).level t =
      ((rows.filter fun p => p.scopeType = t).getLast?.map Preference.level).or (up.level t) := by
  induction rows using reverseRecOn with
  | nil => rfl
  | append_singleton rows p ih =>
    rw [foldl_append, filter_append, foldl_cons, foldl_nil, UserPrefs.level_scan]
    by_cases ht : p.scopeType = t
    · have hlast : [p].filter (fun p => p.scopeType = t) = [p] := by simp [ht]
      rw [if_pos ht, hlast, getLast?_concat]
      rfl
    · have hnone : [p].filter (fun p => p.scopeType = t) = [] := by simp [ht]
      rw [if_neg ht, ih, hnone, append_nil]

theorem filter_concerns (rows : List Preference) (userID serverID channelID : ID) (t : ScopeType) :
    (rows.filter fun p => p.userID = userID ∧ p.concerns serverID channelID).filter
        (fun p => p.scopeType = t) =
      rows.filter fun p => p.key = (userID, t, t.idIn serverID channelID) := by
  rw [filter_filter]
  refine filter_congr ?_
  intro p _
  rw [Bool.eq_iff_iff]
  simp only [Bool.and_eq_true, decide_eq_true_eq, Preference.key, Prod.mk.injEq]
  constructor
  · rintro ⟨rfl, huser, hscope⟩
    refine ⟨huser, rfl, ?_⟩
    unfold Preference.concerns at hscope
    cases htype : p.scopeType with
    | global | server | channel =>
      rw [htype] at hscope
      exact of_decide_eq_true hscope
  · rintro ⟨huser, rfl, hscope⟩
    refine ⟨rfl, huser, ?_⟩
    unfold Preference.concerns
    cases htype : p.scopeType with
    | global | server | channel =>
      rw [htype] at hscope
      exact decide_eq_true hscope

/-- Whatever the order of the rows, the query for one user finds the level of the
    most specific choice. -/
theorem getEffectiveLevel_eq {rows found : List Preference}
    (hunique : UniqueOn Preference.key rows) (horder : found.Perm rows)
    (userID serverID channelID : ID) :
    getEffectiveLevel found userID serverID channelID =
      precedence rows userID serverID channelID := by
  have hfound : UniqueOn Preference.key found := (horder.map _).nodup_iff.mpr hunique
  have hlevel : ∀ t : ScopeType,
      ((found.filter fun p => p.userID = userID ∧ p.concerns serverID channelID).foldl
        UserPrefs.scan {}).level t = chosen rows userID t (t.idIn serverID channelID) := by
    intro t
    rw [level_foldl_scan, filter_concerns, filter_key hfound, lookup_perm hunique horder]
    have hnone : (({} : UserPrefs).level t) = none := by cases t <;> rfl
    rw [hnone, Option.or_none]
    unfold chosen
    cases lookup Preference.key (userID, t, t.idIn serverID channelID) rows with
    | none => rfl
    | some p => rfl
  unfold getEffectiveLevel precedence
  rw [UserPrefs.resolve_eq, hlevel, hlevel, hlevel]
  rfl

/-- **The two queries agree**: whatever the orders of their rows, both find the level of the
    most specific choice. -/
theorem getEffectiveLevels_agree {rows found foundAll : List Preference}
    (hunique : UniqueOn Preference.key rows) (hfound : found.Perm rows)
    (hfoundAll : foundAll.Perm rows) {userIDs : List ID} (serverID channelID : ID) :
    ∀ uid ∈ userIDs,
      getEffectiveLevelsForUsers foundAll userIDs serverID channelID uid =
          getEffectiveLevel found uid serverID channelID ∧
        getEffectiveLevel found uid serverID channelID =
          precedence rows uid serverID channelID := by
  intro uid huid
  have hone := getEffectiveLevel_eq hunique hfound uid serverID channelID
  have hall := getEffectiveLevel_eq hunique hfoundAll uid serverID channelID
  refine ⟨?_, hone⟩
  rw [getEffectiveLevelsForUsers_eq foundAll serverID channelID huid, hone, hall]

/-- Ann has muted the server but not the hall; Bob has chosen nothing. -/
def lodgePreferences : List Preference :=
  [{ userID := "ann", scopeType := .server, scopeID := "lodge", level := .nothing },
    { userID := "ann", scopeType := .channel, scopeID := "hall", level := .mentionsOnly },
    { userID := "cid", scopeType := .global, level := .nothing }]

theorem getEffectiveLevels_agree_lodge :
    getEffectiveLevelsForUsers lodgePreferences.reverse ["bob", "ann"] "lodge" "hall" "ann" =
        getEffectiveLevel lodgePreferences "ann" "lodge" "hall" ∧
      getEffectiveLevel lodgePreferences "ann" "lodge" "hall" =
        precedence lodgePreferences "ann" "lodge" "hall" :=
  getEffectiveLevels_agree (by decide) (.refl _) (reverse_perm _) "lodge" "hall"
    "ann" (by decide)

/-! ## Section 4: What a level lets through -/

def Level.permits (level : Level) (mentioned : Bool) : Bool :=
  match level with
  | .all => true
  | .mentionsOnly => mentioned
  | .nothing => false

theorem Level.permits_mono {level : Level} {mentioned mentioned' : Bool}
    (hle : mentioned = true → mentioned' = true) (h : level.permits mentioned = true) :
    level.permits mentioned' = true := by
  cases level with
  | all => rfl
  | mentionsOnly => exact hle h
  | nothing => simp [Level.permits] at h

end Meza.Notification
