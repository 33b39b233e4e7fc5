import Meza.Store.ChannelPermission

/-! # Listing the viewers of a channel

    `ListMembersWithViewChannel` of the store. It loads roles and overrides
    of the channel in bulk, then goes through the members in batches and
    resolves each one, until the page is full or the members run out. A
    channel without overrides whose `@everyone` sees it takes a fast path.

    Section 4 shows that a page holds the first members after the cursor for
    whom `hasViewChannel` is true. -/

namespace Meza.Store

open Permissions List Table Paging Member ResolveInput

/-! ## Section 1: Model -/

/-- A user ID and their optional signing public key. -/
structure MemberPublicKey where
  userID : ID
  signingPublicKey : Option (List UInt8)
  deriving DecidableEq, Repr

/-- A row of the member query: a member joined with the user's key and roles. -/
structure MemberRow where
  member : Member
  signingPublicKey : Option (List UInt8)
  roleIDs : List ID
  deriving DecidableEq, Repr

def MemberRow.userID (row : MemberRow) : ID := row.member.userID

def MemberRow.publicKey (row : MemberRow) : MemberPublicKey :=
  { userID := row.userID, signingPublicKey := row.signingPublicKey }

/-- All rows of a server, `ORDER BY m.user_id ASC`. -/
def memberRows (t : Tables) (serverID : ID) : List MemberRow :=
  orderBy MemberRow.userID ((t.members.filter (·.serverID = serverID)).filterMap fun m =>
      (lookup User.id m.userID t.users).map fun u =>
        { member := m, signingPublicKey := u.signingPublicKey,
          roleIDs := t.roleIDsOf m.userID serverID })

/-- `WHERE ($2 = '' OR m.user_id > $2)`. -/
def rowsAfter (cursor : ID) (rows : List MemberRow) : List MemberRow :=
  rows.filter fun row => cursor = "" ∨ cursor < row.userID

inductive ScopeKind where
  | group
  | channel
  deriving DecidableEq, Repr

def OverrideScope.kind : OverrideScope → ScopeKind
  | .group _ => .group
  | .channel _ => .channel

structure RoleOverride where
  roleID : ID
  scope : ScopeKind
  override : Override
  deriving DecidableEq, Repr

structure UserOverride where
  scope : ScopeKind
  override : Override
  deriving DecidableEq, Repr

/-- All override rows of the channel and its category. -/
def channelOverrideRows (t : Tables) (channelID : ID) (channelGroupID : Option ID) :
    List PermissionOverride :=
  t.permissionOverrides.filter (·.targets channelID channelGroupID)

def allRoleOverrides (rows : List PermissionOverride) : List RoleOverride :=
  rows.filterMap fun po =>
    match po.subject with
    | .role id => some { roleID := id, scope := po.scope.kind, override := po.override }
    | .user _ => none

/-- `userOverridesMap[userID]`. -/
def userOverrides (rows : List PermissionOverride) (userID : ID) : List UserOverride :=
  rows.filterMap fun po =>
    match po.subject with
    | .role _ => none
    | .user id =>
      if id = userID then some { scope := po.scope.kind, override := po.override } else none

/-- Some override row is about a user: `len(userOverridesMap) > 0`. -/
def hasUserOverrides (rows : List PermissionOverride) : Bool :=
  rows.any fun po => match po.subject with
    | .role _ => false
    | .user _ => true

/-- `rolePermsMap`: the server's roles without `@everyone`. -/
def rolePermsMap (t : Tables) (serverID roleID : ID) : Option Mask :=
  (lookup Role.id roleID
    (t.roles.filter fun r => r.serverID = serverID ∧ r.id ≠ serverID)).map (·.permissions)

/-- The role overrides of one scope that apply to the member. -/
def memberRoleOverrides (ros : List RoleOverride) (memberRoleSet : List ID)
    (scope : ScopeKind) : List Override :=
  (ros.filter fun ro => ro.roleID ∈ memberRoleSet ∧ ro.scope = scope).map (·.override)

/-- The member's user override of one scope; a later row replaces an earlier one. -/
def memberUserOverride (uos : List UserOverride) (scope : ScopeKind) : Option Override :=
  uos.foldl (fun acc uo => if uo.scope = scope then some uo.override else acc) none

/-- The resolver's input, rebuilt from the bulk-loaded data. -/
def bulkInput (t : Tables) (serverID : ID) (rows : List PermissionOverride)
    (row : MemberRow) : ResolveInput :=
  let memberRoleSet := serverID :: row.roleIDs
  { everyonePerms := t.everyonePerms serverID
    rolePerms := row.roleIDs.filterMap (rolePermsMap t serverID)
    isOwner := false
    timedOutUntil := row.member.timedOutUntil.getD 0
    groupRoleOverrides := memberRoleOverrides (allRoleOverrides rows) memberRoleSet .group
    channelRoleOverrides := memberRoleOverrides (allRoleOverrides rows) memberRoleSet .channel
    groupUserOverride := memberUserOverride (userOverrides rows row.userID) .group
    channelUserOverride := memberUserOverride (userOverrides rows row.userID) .channel }

/-- The owner always has ViewChannel, everybody else is resolved. -/
def passes (t : Tables) (nowUnix : Int) (server : Server) (rows : List PermissionOverride)
    (row : MemberRow) : Bool :=
  if row.userID = server.ownerID then true
  else has (resolveEffective (bulkInput t server.id rows row) nowUnix) viewChannel

/-- The variables of the member loop. -/
structure Scan where
  result : List MemberPublicKey
  rowCount : Nat
  currentCursor : ID

/-- The loop over the rows of one batch, left when the page is full. -/
def scanRows (pass : MemberRow → Bool) (limit : Nat) : List MemberRow → Scan → Scan
  | [], scan => scan
  | row :: rows, scan =>
    let scan := { scan with rowCount := scan.rowCount + 1, currentCursor := row.userID }
    if pass row then
      let scan := { scan with result := scan.result ++ [row.publicKey] }
      if limit ≤ scan.result.length then scan else scanRows pass limit rows scan
    else scanRows pass limit rows scan

/-- Fetch 3x limit to reduce round-trips, at most 3000. -/
def fetchSize (limit : Nat) : Nat := if 3000 < limit * 3 then 3000 else limit * 3

/-- `for len(result) < limit`, at most `fuel` batches. -/
def batchLoop (all : List MemberRow) (pass : MemberRow → Bool) (limit : Nat) :
    Nat → List MemberPublicKey → ID → List MemberPublicKey
  | 0, result, _ => result
  | fuel + 1, result, cursor =>
    if result.length < limit then
      let batch := (rowsAfter cursor all).take (fetchSize limit)
      let scan := scanRows pass limit batch
        { result := result, rowCount := 0, currentCursor := cursor }
      -- fewer rows than asked for: no more members exist
      if scan.rowCount < fetchSize limit then scan.result
      else batchLoop all pass limit fuel scan.result scan.currentCursor
    else result

/-- DM channel members with their public keys; no cursor and no limit. -/
def listDMParticipantKeys (t : Tables) (channelID : ID) : List MemberPublicKey :=
  orderBy MemberPublicKey.userID
    ((t.channelMembers.filter (·.channelID = channelID)).filterMap fun cm =>
      (lookup User.id cm.userID t.users).map fun u =>
        { userID := cm.userID, signingPublicKey := u.signingPublicKey })

/-- `if limit <= 0 || limit > max { limit = max }`. -/
def clampTo (max : Nat) (limit : Int) : Nat :=
  if limit ≤ 0 ∨ max < limit then max else limit.toNat

/-- `limit` capped at 1000. -/
def clampLimit (limit : Int) : Nat := clampTo 1000 limit

def listMembersWithViewChannel (t : Tables) (nowUnix : Int) (channelID cursor : ID)
    (limit : Int) : List MemberPublicKey :=
  let limit := clampLimit limit
  match channelServer t channelID with
  | none => listDMParticipantKeys t channelID
  | some (server, channelGroupID) =>
    let rows := channelOverrideRows t channelID channelGroupID
    let all := memberRows t server.id
    -- Fast path: no overrides and @everyone grants ViewChannel.
    if (allRoleOverrides rows).isEmpty ∧ ¬ hasUserOverrides rows ∧
        has (t.everyonePerms server.id) viewChannel then
      ((rowsAfter cursor all).take limit).map (·.publicKey)
    else
      batchLoop all (passes t nowUnix server rows) limit (all.length + 1) [] cursor

/-! ## Section 2: The loops -/

/-- The empty string stands for no cursor. -/
def cursorOption (cursor : ID) : Option ID := if cursor = "" then none else some cursor

theorem rowsAfter_eq (cursor : ID) (rows : List MemberRow) :
    rowsAfter cursor rows = after MemberRow.userID (cursorOption cursor) rows := by
  unfold rowsAfter cursorOption
  by_cases h : cursor = ""
  · simp [h]
  · simp [h, after_some]

/-- A batch adds its passing rows until the page is full; while it is not, all
    rows of the batch were counted and the cursor is the last of them. -/
theorem scanRows_spec (pass : MemberRow → Bool) (limit : Nat) (rows : List MemberRow)
    (scan : Scan) (hroom : scan.result.length < limit) :
    (scanRows pass limit rows scan).result =
        (scan.result ++ (rows.filter pass).map (·.publicKey)).take limit ∧
      ((scanRows pass limit rows scan).result.length < limit →
        (scanRows pass limit rows scan).rowCount = scan.rowCount + rows.length ∧
        (scanRows pass limit rows scan).currentCursor =
          (rows.getLast?.map (·.userID)).getD scan.currentCursor) := by
  induction rows generalizing scan with
  | nil =>
    refine ⟨?_, fun _ => ⟨rfl, rfl⟩⟩
    simp [scanRows, take_of_length_le (Nat.le_of_lt hroom)]
  | cons row rows ih =>
    have hlast : ((row :: rows).getLast?.map (·.userID)).getD scan.currentCursor =
        (rows.getLast?.map (·.userID)).getD row.userID := by
      rw [getLast?_cons]
      cases rows.getLast? <;> rfl
    -- whether the row passes or not, it is counted and moves the cursor
    have hcounted : ∀ out : Scan, (out.rowCount = scan.rowCount + 1 + rows.length ∧
        out.currentCursor = (rows.getLast?.map (·.userID)).getD row.userID) →
        out.rowCount = scan.rowCount + (row :: rows).length ∧
        out.currentCursor = ((row :: rows).getLast?.map (·.userID)).getD scan.currentCursor := by
      intro out hout
      rw [hlast, length_cons]
      exact ⟨by omega, hout.2⟩
    unfold scanRows
    by_cases hpass : pass row = true
    · simp only [hpass, ↓reduceIte, filter_cons_of_pos, map_cons]
      by_cases hfull : limit ≤ (scan.result ++ [row.publicKey]).length
      · -- the page is full: the rest of the batch is not read
        rw [if_pos hfull]
        have hlen : (scan.result ++ [row.publicKey]).length = limit := by
          simp at hfull ⊢
          omega
        refine ⟨?_, fun hlt => absurd hfull (by simpa using hlt)⟩
        have hsplit : scan.result ++ row.publicKey :: (rows.filter pass).map (·.publicKey) =
            (scan.result ++ [row.publicKey]) ++ (rows.filter pass).map (·.publicKey) := by
          simp
        rw [hsplit, take_append_of_le_length (Nat.le_of_eq hlen.symm),
          take_of_length_le (Nat.le_of_eq hlen)]
      · rw [if_neg hfull]
        obtain ⟨hresult, hcount⟩ := ih
          { result := scan.result ++ [row.publicKey], rowCount := scan.rowCount + 1,
            currentCursor := row.userID } (Nat.lt_of_not_le hfull)
        refine ⟨?_, fun hlt => hcounted _ (hcount hlt)⟩
        rw [hresult]
        simp
    · simp only [hpass, Bool.false_eq_true, ↓reduceIte, filter_cons_of_neg, not_false_eq_true]
      obtain ⟨hresult, hcount⟩ := ih
        { result := scan.result, rowCount := scan.rowCount + 1,
          currentCursor := row.userID } hroom
      exact ⟨hresult, fun hlt => hcounted _ (hcount hlt)⟩

variable {channelID : ID} {row : MemberRow} {limit : Nat} {t : Tables}

theorem one_lt_fetchSize (h : 0 < limit) : 1 < fetchSize limit := by
  unfold fetchSize
  split <;> omega

/-- The keys a list of rows contributes to a page. -/
def viewerKeys (pass : MemberRow → Bool) (rows : List MemberRow) : List MemberPublicKey :=
  (rows.filter pass).map (·.publicKey)

theorem viewerKeys_take_drop (pass : MemberRow → Bool) (rows : List MemberRow) (n : Nat) :
    viewerKeys pass rows = viewerKeys pass (rows.take n) ++ viewerKeys pass (rows.drop n) := by
  unfold viewerKeys
  rw [← map_append, ← filter_append, take_append_drop]

/-- After a batch, the page still to be filled is the same with the batch's
    rows taken off. -/
theorem scanRows_batch (pass : MemberRow → Bool) (limit : Nat) (rest : List MemberRow) (n : Nat)
    (scan : Scan) (hroom : scan.result.length < limit) :
    let out := scanRows pass limit (rest.take n) scan
    out.result.length ≤ limit ∧
      (scan.result ++ viewerKeys pass rest).take limit =
        (out.result ++ viewerKeys pass (rest.drop n)).take limit := by
  intro out
  have hresult : out.result = (scan.result ++ viewerKeys pass (rest.take n)).take limit :=
    (scanRows_spec pass limit (rest.take n) scan hroom).1
  rw [viewerKeys_take_drop pass rest n, ← append_assoc, hresult]
  refine ⟨by simp, ?_⟩
  by_cases hfull : limit ≤ (scan.result ++ viewerKeys pass (rest.take n)).length
  · have hlen : ((scan.result ++ viewerKeys pass (rest.take n)).take limit).length = limit := by
      rw [length_take]
      exact Nat.min_eq_left hfull
    rw [take_append_of_le_length hfull,
      take_append_of_le_length (Nat.le_of_eq hlen.symm), take_take, Nat.min_self]
  · rw [take_of_length_le (Nat.le_of_not_le hfull)]

theorem not_lt_empty (s : String) : ¬ s < "" := by
  exact not_lt_nil _

/-- The next batch starts after the last row of this one. A batch has more than
    one row, so the id of its last row is not empty and does not read as no
    cursor. -/
theorem rowsAfter_last {all : List MemberRow} (hall : Paging.Ascending MemberRow.userID all)
    (cursor : ID) {n : Nat} (hpos : 1 < n) (hn : n ≤ (rowsAfter cursor all).length) :
    rowsAfter ((((rowsAfter cursor all).take n).getLast?.map (·.userID)).getD cursor) all =
      (rowsAfter cursor all).drop n := by
  have htake : ((rowsAfter cursor all).take n).length = n := by
    rw [length_take]
    omega
  have hnonempty : (rowsAfter cursor all).take n ≠ [] := by
    intro hnil
    rw [hnil, length_nil] at htake
    omega
  obtain ⟨xs, r, hlast⟩ := (eq_nil_or_concat _).resolve_left hnonempty
  have hdecomp : rowsAfter cursor all = xs ++ r :: (rowsAfter cursor all).drop n := by
    have hjoin := take_append_drop n (rowsAfter cursor all)
    rw [hlast] at hjoin
    simpa using hjoin.symm
  have hasc : Ascending MemberRow.userID (xs ++ r :: (rowsAfter cursor all).drop n) := by
    rw [← hdecomp, rowsAfter_eq]
    exact hall.after _
  have hne : r.userID ≠ "" := by
    -- some row comes before it
    have hlen : xs.length + 1 = n := by
      rw [hlast] at htake
      simpa using htake
    obtain ⟨x, hx⟩ := exists_mem_of_length_pos (show 0 < xs.length by omega)
    have hlt := (pairwise_append.mp hasc).2.2 x hx r mem_cons_self
    intro hempty
    rw [hempty] at hlt
    exact not_lt_empty _ hlt
  have hcursor : ((((rowsAfter cursor all).take n).getLast?.map (·.userID)).getD cursor) =
      r.userID := by
    rw [hlast]
    simp
  rw [hcursor, rowsAfter_eq r.userID, cursorOption, if_neg hne]
  rw [rowsAfter_eq cursor] at hdecomp ⊢
  exact after_last hall hdecomp

theorem batchLoop_full (all : List MemberRow) (pass : MemberRow → Bool) (fuel : Nat)
    (result : List MemberPublicKey) (cursor : ID) (h : limit ≤ result.length) :
    batchLoop all pass limit fuel result cursor = result := by
  cases fuel with
  | zero => rfl
  | succ fuel =>
    unfold batchLoop
    rw [if_neg (by omega)]

theorem batchLoop_eq {all : List MemberRow} (hall : Paging.Ascending MemberRow.userID all)
    (pass : MemberRow → Bool) (hlimit : 0 < limit) (fuel : Nat) (result : List MemberPublicKey)
    (cursor : ID) (hfuel : (rowsAfter cursor all).length < fuel) (hroom : result.length ≤ limit) :
    batchLoop all pass limit fuel result cursor =
      (result ++ viewerKeys pass (rowsAfter cursor all)).take limit := by
  -- the fuel bounds the rows after the cursor, and every batch takes some
  induction fuel generalizing result cursor with
  | zero => omega
  | succ fuel ih =>
    by_cases hmore : result.length < limit
    · have hfetch := one_lt_fetchSize hlimit
      obtain ⟨hlen, hbatch⟩ := scanRows_batch pass limit (rowsAfter cursor all)
        (fetchSize limit) { result := result, rowCount := 0, currentCursor := cursor } hmore
      have hcount := (scanRows_spec pass limit ((rowsAfter cursor all).take (fetchSize limit))
        { result := result, rowCount := 0, currentCursor := cursor } hmore).2
      unfold batchLoop
      rw [if_pos hmore, hbatch]
      dsimp only at hcount ⊢
      generalize scanRows pass limit ((rowsAfter cursor all).take (fetchSize limit))
        { result := result, rowCount := 0, currentCursor := cursor } = scan at hlen hcount ⊢
      by_cases hdone : limit ≤ scan.result.length
      · -- the page is full, whether the loop is entered once more or not
        rw [take_append_of_le_length hdone, take_of_length_le hlen,
          batchLoop_full _ _ _ _ _ hdone, ite_self]
      · obtain ⟨hrows, hcursor⟩ := hcount (by omega)
        rw [length_take] at hrows
        by_cases hshort : (rowsAfter cursor all).length < fetchSize limit
        · -- the batch was the last one
          rw [if_pos (by omega), drop_of_length_le (by omega)]
          simp [viewerKeys, take_of_length_le hlen]
        · have hnext := rowsAfter_last hall cursor hfetch (by omega)
          rw [if_neg (by omega), hcursor, ih scan.result _ _ hlen, hnext]
          rw [hnext, length_drop]
          omega
    · rw [batchLoop_full _ _ _ _ _ (by omega), take_append_of_le_length (by omega),
        take_of_length_le hroom]

/-! ## Section 3: The bulk-loaded input -/

/-- The layers that role and user overrides of a scope belong to. -/
def ScopeKind.roleLayer : ScopeKind → Layer
  | .group => .groupRole
  | .channel => .channelRole

def ScopeKind.userLayer : ScopeKind → Layer
  | .group => .groupUser
  | .channel => .channelUser

theorem filter_map_eq_filterMap {α β : Type*} (p : α → Bool) (f : α → β) (l : List α) :
    (l.filter p).map f = l.filterMap (fun x => if p x then some (f x) else none) := by
  rw [← filterMap_eq_map, filterMap_filter]
  rfl

theorem memberRoleOverrides_eq (rows : List PermissionOverride) (roleIDs : List ID)
    (userID : ID) (scope : ScopeKind) :
    memberRoleOverrides (allRoleOverrides rows) roleIDs scope =
      layerRows scope.roleLayer (rows.filter (·.concerns roleIDs userID)) := by
  unfold memberRoleOverrides allRoleOverrides layerRows
  rw [filter_filter, filter_map_eq_filterMap, filter_map_eq_filterMap,
    filterMap_filterMap]
  congr 1
  funext po
  unfold PermissionOverride.concerns PermissionOverride.layer
  rcases po.subject with r | u <;> rcases po.scope with g | c <;> cases scope <;>
    simp [OverrideScope.kind, ScopeKind.roleLayer, and_comm]

theorem memberUserOverride_eq (rows : List PermissionOverride) (roleIDs : List ID)
    (userID : ID) (scope : ScopeKind) :
    memberUserOverride (userOverrides rows userID) scope =
      (layerRows scope.userLayer (rows.filter (·.concerns roleIDs userID))).getLast? := by
  have hfold : ∀ (uos : List UserOverride) (acc : Option Override),
      uos.foldl (fun acc uo => if uo.scope = scope then some uo.override else acc) acc =
        ((uos.filter (·.scope = scope)).map (·.override)).getLast?.or acc := by
    intro uos
    induction uos with
    | nil => simp
    | cons uo uos ih =>
      intro acc
      rw [foldl_cons, ih]
      by_cases h : uo.scope = scope
      · simp [h, getLast?_cons]
      · simp [h]
  unfold memberUserOverride
  rw [hfold, Option.or_none]
  congr 1
  unfold userOverrides layerRows
  rw [filter_filter, filter_map_eq_filterMap, filter_map_eq_filterMap,
    filterMap_filterMap]
  congr 1
  funext po
  unfold PermissionOverride.concerns PermissionOverride.layer
  rcases po.subject with r | u
  · rcases po.scope with g | c <;> cases scope <;> simp [ScopeKind.userLayer]
  · by_cases hu : u = userID <;> rcases po.scope with g | c <;> cases scope <;>
      simp [hu, OverrideScope.kind, ScopeKind.userLayer]

theorem rolePermsMap_eq_some (hpk : Table.UniqueOn Role.id t.roles) {serverID roleID : ID}
    {p : Mask} :
    rolePermsMap t serverID roleID = some p ↔
      ∃ r ∈ t.roles, r.id = roleID ∧ r.serverID = serverID ∧ r.id ≠ serverID ∧
        r.permissions = p := by
  unfold rolePermsMap
  rw [Option.map_eq_some_iff]
  constructor
  · intro hex
    obtain ⟨r, hr, hp⟩ := hex
    obtain ⟨hmem, hid⟩ := mem_of_lookup hr
    obtain ⟨hrow, hcond⟩ := List.mem_filter.mp hmem
    obtain ⟨hserver, hne⟩ := of_decide_eq_true hcond
    exact ⟨r, hrow, hid, hserver, hne, hp⟩
  · intro hex
    obtain ⟨r, hrow, rfl, hserver, hne, hp⟩ := hex
    refine ⟨r, ?_, hp⟩
    apply lookup_of_mem
    · exact List.Nodup.sublist (List.filter_sublist.map _) hpk
    · exact List.mem_filter.mpr ⟨hrow, by simp [hserver, hne]⟩

/-- Both ways of loading a member's roles grant the same bits: the bulk map
    leaves out `@everyone`, which is counted separately anyway. -/
theorem bulkInput_baseGrants (hpk : Table.UniqueOn Role.id t.roles) (serverID channelID : ID)
    (group : Option ID) (rows : List PermissionOverride)
    (hroles : row.roleIDs = t.roleIDsOf row.userID serverID) (i : Nat) :
    (bulkInput t serverID rows row).baseGrants i =
      (viewInput t serverID channelID group row.member).baseGrants i := by
  show (_ || _) = (_ || _)
  simp only [bulkInput, viewInput, hroles, MemberRow.userID]
  by_cases heveryone : (t.everyonePerms serverID).getLsbD i = true
  · simp [heveryone]
  · rw [Bool.not_eq_true] at heveryone
    rw [heveryone, Bool.false_or, Bool.false_or]
    apply Bool.eq_iff_iff.mpr
    simp only [any_eq_true, mem_filterMap, Tables.rolePerms, mem_map,
      mem_filter, decide_eq_true_eq, rolePermsMap_eq_some hpk]
    constructor
    · rintro ⟨p, ⟨rid, hrid, r, hr, rfl, hserver, -, rfl⟩, hbit⟩
      exact ⟨r.permissions, ⟨r, ⟨hr, hrid, hserver⟩, rfl⟩, hbit⟩
    · rintro ⟨p, ⟨r, ⟨hr, hrid, hserver⟩, rfl⟩, hbit⟩
      -- `@everyone` itself was seen not to grant the bit
      have hne : r.id ≠ serverID := by
        intro heq
        have hperms : t.everyonePerms serverID = r.permissions := by
          unfold Tables.everyonePerms
          rw [← heq, lookup_of_mem hpk hr]
          rfl
        rw [hperms, hbit] at heveryone
        cases heveryone
      exact ⟨r.permissions, ⟨r.id, hrid, r, hr, rfl, hserver, hne, rfl⟩, hbit⟩

theorem bulkInput_resolveEffective (hpk : Table.UniqueOn Role.id t.roles) (serverID channelID : ID)
    (group : Option ID) (hroles : row.roleIDs = t.roleIDsOf row.userID serverID) (nowUnix : Int) :
    resolveEffective (bulkInput t serverID (channelOverrideRows t channelID group) row) nowUnix =
      resolveEffective (viewInput t serverID channelID group row.member) nowUnix := by
  have hbase := bulkInput_baseGrants hpk serverID channelID group
    (channelOverrideRows t channelID group) hroles
  have hrows : ∀ (roleIDs : List ID) (userID : ID),
      (channelOverrideRows t channelID group).filter (·.concerns roleIDs userID) =
        t.permissionOverrides.filter fun po =>
          po.targets channelID group && po.concerns roleIDs userID := by
    intro roleIDs userID
    unfold channelOverrideRows
    rw [filter_filter]
    congr 1
    funext po
    rw [Bool.and_comm]
  have hlayers : (bulkInput t serverID (channelOverrideRows t channelID group) row).layers =
      (viewInput t serverID channelID group row.member).layers := by
    simp only [layers, bulkInput, viewInput, getAllOverrides, collectOverrides_eq,
      hroles, MemberRow.userID, memberRoleOverrides_eq _ _ row.member.userID,
      memberUserOverride_eq _ (serverID :: t.roleIDsOf row.member.userID serverID)
        row.member.userID, hrows, ScopeKind.roleLayer, ScopeKind.userLayer]
  refine resolveEffective_eq_of_grants nowUnix ?_ ?_ hbase ?_
  · rfl
  · rfl
  · intro i
    exact layeredGrants_congr i (hbase i) (by rw [hlayers])

/-! ## Section 4: A page -/

theorem mem_memberRows {serverID : ID} :
    row ∈ memberRows t serverID ↔
      row.member ∈ t.members ∧ row.member.serverID = serverID ∧
      row.roleIDs = t.roleIDsOf row.userID serverID ∧
      ∃ u, lookup User.id row.userID t.users = some u ∧
        row.signingPublicKey = u.signingPublicKey := by
  unfold memberRows
  rw [mem_orderBy, mem_filterMap]
  constructor
  · intro hex
    obtain ⟨m, hm, hrow⟩ := hex
    obtain ⟨hmem, hserver⟩ := List.mem_filter.mp hm
    obtain ⟨u, hu, rfl⟩ := Option.map_eq_some_iff.mp hrow
    exact ⟨hmem, by simpa using hserver, rfl, u, hu, rfl⟩
  · intro hboth
    obtain ⟨hmem, hserver, hroles, u, hu, hkey⟩ := hboth
    refine ⟨row.member, List.mem_filter.mpr ⟨hmem, by simpa using hserver⟩, ?_⟩
    rw [Option.map_eq_some_iff]
    refine ⟨u, hu, ?_⟩
    cases row
    simp_all [MemberRow.userID]

theorem members_userID_unique (hpk : Table.UniqueOn key t.members) (serverID : ID) :
    Table.UniqueOn userID (t.members.filter (·.serverID = serverID)) := by
  refine unique_of_filter (f := (·, serverID)) ?_ hpk
  intro m hm
  have hserver : m.serverID = serverID := of_decide_eq_true hm
  rw [key, hserver]

theorem memberRows_ascending (hpk : Table.UniqueOn key t.members) (serverID : ID) :
    Paging.Ascending MemberRow.userID (memberRows t serverID) := by
  apply ascending_orderBy
  refine unique_join ?_ (members_userID_unique hpk serverID)
  intro m row hrow
  obtain ⟨u, -, rfl⟩ := Option.map_eq_some_iff.mp hrow
  rfl

/-- The bulk check and `hasViewChannel` agree on every listed member. -/
theorem passes_eq (hc : t.Constraints) (nowUnix : Int) {server : Server} {group : Option ID}
    (hch : channelServer t channelID = some (server, group)) (hrow : row ∈ memberRows t server.id) :
    passes t nowUnix server (channelOverrideRows t channelID group) row =
      hasViewChannel t nowUnix row.userID channelID := by
  obtain ⟨hmem, hserver, hroles, -⟩ := mem_memberRows.mp hrow
  have hlookup : lookup key (row.userID, server.id) t.members = some row.member := by
    have hkey : key row.member = (row.userID, server.id) := by
      simp [key, MemberRow.userID, hserver]
    rw [← hkey]
    exact lookup_of_mem hc.servers.membersPK hmem
  unfold passes hasViewChannel
  rw [hch]
  by_cases howner : row.userID = server.ownerID
  · simp [howner]
  · have howner' : server.ownerID ≠ row.userID := fun h => howner h.symm
    simp only [howner, howner', ↓reduceIte, hlookup]
    rw [bulkInput_resolveEffective hc.roles.rolesPK server.id channelID group hroles]

theorem rows_eq_nil_of_fast {rows : List PermissionOverride}
    (hroles : (allRoleOverrides rows).isEmpty = true) (husers : ¬ hasUserOverrides rows = true) :
    rows = [] := by
  cases rows with
  | nil => rfl
  | cons po rows =>
    unfold allRoleOverrides at hroles
    unfold hasUserOverrides at husers
    rcases hsubject : po.subject with r | u
    · simp [hsubject] at hroles
    · simp [hsubject] at husers

/-- On the fast path every member passes the check that is skipped. -/
theorem passes_of_fast (t : Tables) (nowUnix : Int) (server : Server)
    (heveryone : has (t.everyonePerms server.id) viewChannel = true) (row : MemberRow) :
    passes t nowUnix server [] row = true := by
  unfold passes
  split
  · rfl
  · rw [has_viewChannel_resolveEffective _ _ rfl]
    have hbase : ∀ i, (t.everyonePerms server.id).getLsbD i = true →
        (bulkInput t server.id [] row).baseGrants i = true := by
      intro i hi
      unfold baseGrants
      rw [Bool.or_eq_true]
      exact Or.inl hi
    have hlayered : (bulkInput t server.id [] row).layeredGrants viewChannelBit =
        (bulkInput t server.id [] row).baseGrants viewChannelBit := by
      unfold layeredGrants
      rfl
    rw [hlayered, Bool.or_eq_true, Bool.or_eq_true]
    rcases (has_iff _ _).mp heveryone with hadmin | hview
    · exact Or.inl (Or.inl (hbase _ hadmin))
    · rw [viewChannel_eq, BitMask.and_single_ne_zero _ (by decide)] at hview
      exact Or.inr (hbase _ hview)

theorem viewerKeys_congr {pass pass' : MemberRow → Bool} {rows : List MemberRow}
    (h : ∀ row ∈ rows, pass row = pass' row) : viewerKeys pass rows = viewerKeys pass' rows := by
  unfold viewerKeys
  rw [filter_congr h]

theorem clampTo_pos {max : Nat} (hmax : 0 < max) (limit : Int) : 0 < clampTo max limit := by
  unfold clampTo
  split <;> omega

theorem clampTo_le (max : Nat) (limit : Int) : clampTo max limit ≤ max := by
  unfold clampTo
  split <;> omega

/-- **A page of the store**: the first members after the cursor for whom
    `hasViewChannel` is true, on the fast path as well as on the slow one. -/
theorem listMembersWithViewChannel_eq (hc : t.Constraints) (nowUnix : Int) {server : Server}
    {group : Option ID} (hch : channelServer t channelID = some (server, group)) (cursor : ID)
    (limit : Int) :
    listMembersWithViewChannel t nowUnix channelID cursor limit =
      (viewerKeys (fun row => hasViewChannel t nowUnix row.userID channelID)
        (rowsAfter cursor (memberRows t server.id))).take (clampLimit limit) := by
  have hasc := memberRows_ascending hc.servers.membersPK server.id
  have hpass : viewerKeys (passes t nowUnix server (channelOverrideRows t channelID group))
        (rowsAfter cursor (memberRows t server.id)) =
      viewerKeys (fun row => hasViewChannel t nowUnix row.userID channelID)
        (rowsAfter cursor (memberRows t server.id)) := by
    apply viewerKeys_congr
    intro row hrow
    exact passes_eq hc nowUnix hch (List.mem_filter.mp hrow).1
  unfold listMembersWithViewChannel
  rw [hch]
  dsimp only
  split
  · -- the fast path: nobody is checked, and everybody would pass
    rename_i hfast
    obtain ⟨hroles, husers, heveryone⟩ := hfast
    have hnil := rows_eq_nil_of_fast hroles husers
    rw [← hpass, hnil]
    have hall :
        viewerKeys (passes t nowUnix server []) (rowsAfter cursor (memberRows t server.id)) =
        (rowsAfter cursor (memberRows t server.id)).map (·.publicKey) := by
      unfold viewerKeys
      rw [List.filter_eq_self.mpr (fun row _ => passes_of_fast t nowUnix server heveryone row)]
    rw [hall, map_take]
  · have hpos : 0 < clampLimit limit := clampTo_pos (by decide) limit
    have hfuel : (rowsAfter cursor (memberRows t server.id)).length <
        (memberRows t server.id).length + 1 := Nat.lt_succ_of_le (length_filter_le _ _)
    rw [batchLoop_eq hasc _ hpos _ _ _ hfuel (by simp), nil_append, hpass]

/-- The members of a server after the cursor, in ascending order, for whom
    `HasViewChannel` is true. -/
def viewerIDs (t : Tables) (nowUnix : Int) (serverID channelID cursor : ID) : List ID :=
  (orderBy id ((t.members.filter (·.serverID = serverID)).map (·.userID))).filter
    fun userID => (cursor = "" ∨ cursor < userID) ∧ hasViewChannel t nowUnix userID channelID

/-- The rows of a server hold every member once, whatever is joined to them. -/
theorem map_userID_memberRows (hc : t.Constraints) (serverID : ID) :
    (memberRows t serverID).map (·.userID) =
      orderBy id ((t.members.filter (·.serverID = serverID)).map (·.userID)) := by
  have hunique := members_userID_unique hc.servers.membersPK serverID
  have hleft : ((memberRows t serverID).map (·.userID)).SortedLT := by
    rw [sortedLT_iff_pairwise, pairwise_map]
    exact memberRows_ascending hc.servers.membersPK serverID
  have hright : (orderBy id
      ((t.members.filter (·.serverID = serverID)).map (·.userID))).SortedLT := by
    rw [sortedLT_iff_pairwise]
    apply ascending_orderBy
    show (((t.members.filter (·.serverID = serverID)).map (·.userID)).map id).Nodup
    rw [map_id]
    exact hunique
  apply hleft.eq_of_mem_iff hright
  intro userID
  rw [mem_orderBy, mem_map, mem_map]
  constructor
  · intro hex
    obtain ⟨row, hrow, rfl⟩ := hex
    obtain ⟨hmem, hserver, -⟩ := mem_memberRows.mp hrow
    exact ⟨row.member, mem_filter.mpr ⟨hmem, decide_eq_true hserver⟩, rfl⟩
  · intro hex
    obtain ⟨m, hm, rfl⟩ := hex
    obtain ⟨hmem, hserver⟩ := mem_filter.mp hm
    -- the join with `users` loses nobody
    obtain ⟨u, hu, hid⟩ := mem_map.mp (hc.servers.membersUser m hmem)
    have hlookup : lookup User.id m.userID t.users = some u := by
      rw [← hid]
      exact lookup_of_mem hc.servers.usersPK hu
    refine ⟨{ member := m, signingPublicKey := u.signingPublicKey,
              roleIDs := t.roleIDsOf m.userID serverID }, ?_, rfl⟩
    exact mem_memberRows.mpr ⟨hmem, of_decide_eq_true hserver, rfl, u, hlookup, rfl⟩

/-- **A page is the first viewers after the cursor**, on the fast path as well as
    by the loop over batches, which ends. -/
theorem listMembersWithViewChannel_page (db : DB) (nowUnix : Int) (channelID : ID)
    (server : Server) (group : Option ID)
    (hch : channelServer db.tables channelID = some (server, group)) (cursor : ID) (limit : Nat)
    (hlimit : 1 ≤ limit ∧ limit ≤ 1000) :
    (listMembersWithViewChannel db.tables nowUnix channelID cursor limit).map (·.userID) =
        (viewerIDs db.tables nowUnix server.id channelID cursor).take limit ∧
      (∀ mk ∈ listMembersWithViewChannel db.tables nowUnix channelID cursor limit,
        ∃ u ∈ db.tables.users, u.id = mk.userID ∧ u.signingPublicKey = mk.signingPublicKey) ∧
      ∀ fuel > (memberRows db.tables server.id).length,
        batchLoop (memberRows db.tables server.id)
            (passes db.tables nowUnix server (channelOverrideRows db.tables channelID group))
            limit fuel [] cursor =
          listMembersWithViewChannel db.tables nowUnix channelID cursor limit := by
  have hc := db.constraints
  have hclamp : clampLimit limit = limit := by
    unfold clampLimit clampTo
    rw [if_neg (by omega)]
    rfl
  have hpage := listMembersWithViewChannel_eq hc nowUnix hch cursor limit
  rw [hclamp] at hpage
  rw [hpage]
  refine ⟨?_, ?_, ?_⟩
  · -- filtering rows and filtering ids is the same
    unfold viewerIDs viewerKeys rowsAfter
    rw [← map_userID_memberRows hc, filter_map, map_take, filter_filter, map_map]
    congr 2
    apply filter_congr
    intro row _
    simp [Bool.and_comm]
  · intro mk hmk
    obtain ⟨row, hrow, rfl⟩ := List.mem_map.mp (mem_of_mem_take hmk)
    have hrow := (mem_filter.mp (mem_filter.mp hrow).1).1
    obtain ⟨-, -, -, u, hu, hkey⟩ := mem_memberRows.mp hrow
    obtain ⟨hmem, hid⟩ := mem_of_lookup hu
    exact ⟨u, hmem, hid, hkey.symm⟩
  · intro fuel hfuel
    have hasc := memberRows_ascending hc.servers.membersPK server.id
    have hrest : (rowsAfter cursor (memberRows db.tables server.id)).length < fuel :=
      Nat.lt_of_le_of_lt (length_filter_le _ _) hfuel
    rw [batchLoop_eq hasc _ hlimit.1 _ _ _ hrest (by simp), nil_append]
    congr 1
    apply viewerKeys_congr
    intro row hrow
    exact passes_eq hc nowUnix hch (mem_filter.mp hrow).1

/-- A server of three: one member is timed out, and a role override hides the
    channel from another. -/
def quietTables : Tables where
  users := [{ id := "a", signingPublicKey := none }, { id := "b", signingPublicKey := some [1] },
    { id := "c", signingPublicKey := none }]
  servers := [{ id := "srv", ownerID := "a" }]
  members := [{ userID := "a", serverID := "srv" },
    { userID := "b", serverID := "srv", timedOutUntil := some 10 },
    { userID := "c", serverID := "srv" }]
  channels := [{ id := "quiet", serverID := some "srv", name := "quiet" }]
  roles := [{ id := "srv", serverID := "srv", name := "@everyone", permissions := viewChannel,
              position := 0 },
    { id := "new", serverID := "srv", name := "new", permissions := 0, position := 1 }]
  memberRoles := [{ userID := "c", serverID := "srv", roleID := "new" }]
  permissionOverrides := [{ id := "hide", scope := .channel "quiet", subject := .role "new",
                            allow := 0, deny := viewChannel }]

theorem listMembersWithViewChannel_page_quiet :
    (listMembersWithViewChannel quietTables 5 "quiet" "a" 2).map (·.userID) =
      (viewerIDs quietTables 5 "srv" "quiet" "a").take 2 :=
  (listMembersWithViewChannel_page ⟨quietTables, by decide⟩ 5 "quiet"
    { id := "srv", ownerID := "a" } none rfl "a" 2 (by decide)).1

theorem mem_listDMParticipantKeys (hc : t.Constraints) {userID : ID} :
    userID ∈ (listDMParticipantKeys t channelID).map (·.userID) ↔
      isDMParticipant t channelID userID = true := by
  unfold listDMParticipantKeys isDMParticipant isChannelMember
  rw [mem_map, any_eq_true]
  constructor
  · intro hex
    obtain ⟨mk, hmk, rfl⟩ := hex
    rw [mem_orderBy, mem_filterMap] at hmk
    obtain ⟨cm, hcm, hjoin⟩ := hmk
    obtain ⟨u, -, rfl⟩ := Option.map_eq_some_iff.mp hjoin
    obtain ⟨hmem, hchan⟩ := List.mem_filter.mp hcm
    refine ⟨cm, hmem, ?_⟩
    simpa using hchan
  · intro hex
    obtain ⟨cm, hmem, hcond⟩ := hex
    obtain ⟨hchan, rfl⟩ := of_decide_eq_true hcond
    obtain ⟨u, hu, hid⟩ := List.mem_map.mp (hc.channels.membersUser cm hmem)
    have hlookup : lookup User.id cm.userID t.users = some u := by
      rw [← hid]
      exact lookup_of_mem hc.servers.usersPK hu
    refine ⟨{ userID := cm.userID, signingPublicKey := u.signingPublicKey }, ?_, rfl⟩
    rw [mem_orderBy, mem_filterMap]
    refine ⟨cm, List.mem_filter.mpr ⟨hmem, by simpa using hchan⟩, ?_⟩
    rw [hlookup]
    rfl

theorem listDMParticipantKeys_ascending (hc : t.Constraints) (channelID : ID) :
    Paging.Ascending MemberPublicKey.userID (listDMParticipantKeys t channelID) := by
  apply ascending_orderBy
  have hkeys : Table.UniqueOn ChannelMember.userID
      (t.channelMembers.filter (·.channelID = channelID)) := by
    refine unique_of_filter (f := (channelID, ·)) ?_ hc.channels.membersPK
    intro cm hcm
    have hchan : cm.channelID = channelID := of_decide_eq_true hcm
    rw [ChannelMember.key, hchan]
  refine unique_join ?_ hkeys
  intro cm mk hmk
  obtain ⟨u, -, rfl⟩ := Option.map_eq_some_iff.mp hmk
  rfl

end Meza.Store
