import Meza.Keys.Service
import Meza.Store.ViewerListing

/-! # Paging through the viewers of a channel

    A client that wants to wrap a channel key for everybody asks for the
    viewers page by page. The handler asks the store for one member more than
    fits on a page, to see whether there is a next one.

    The store caps what it is asked for at 1000, so on pages of 1000 the
    handler never sees the extra member; and for DM channels the store ignores
    cursor and limit. Section 3 says exactly when the client gets everybody. -/

namespace Meza.Keys

open Store Permissions List Paging MemberPublicKey Table

/-! ## Section 1: Model -/

def maxMembersPerPage : Nat := 1000

namespace Service

structure ListMembersRequest where
  channelID : ID
  cursor : ID := ""
  limit : Int

structure ListMembersResponse where
  members : List MemberPublicKey
  nextCursor : ID
  deriving DecidableEq, Repr

def listMembersWithViewChannel (t : Tables) (nowUnix : Int) (caller : Option ID)
    (req : ListMembersRequest) : Except ConnectError ListMembersResponse := do
  let userID ← requireCaller caller
  rejectIf (req.channelID = "") .invalidArgument "channel_id is required"
  requireViewChannel t nowUnix userID req.channelID
  let limit := clampTo maxMembersPerPage req.limit
  -- Fetch limit+1 to detect if there's a next page.
  let members := Store.listMembersWithViewChannel t nowUnix req.channelID req.cursor (limit + 1)
  if limit < members.length then
    return { members := members.take limit,
             nextCursor := ((members[limit - 1]?).map (·.userID)).getD "" }
  else return { members, nextCursor := "" }

end Service

/-- One call of the client. -/
def fetchPage (t : Tables) (nowUnix : Int) (caller channelID : ID) (limit : Int)
    (cursor : Option ID) : List MemberPublicKey × Option ID :=
  match Service.listMembersWithViewChannel t nowUnix (some caller)
      { channelID, cursor := cursor.getD "", limit } with
  | .ok resp => (resp.members, cursorOption resp.nextCursor)
  | .error _ => ([], none)

/-- Following the cursors ends, with exactly the users who may view the
    channel, each once, in ascending order. -/
def PagingComplete (t : Tables) (nowUnix : Int) (caller channelID : ID) (limit : Int) : Prop :=
  ∃ calls members, follow (fetchPage t nowUnix caller channelID limit) calls none =
      some members ∧
    Ascending userID members ∧
    ∀ userID, userID ∈ members.map (·.userID) ↔ hasViewChannel t nowUnix userID channelID = true

/-- The number of users who may view the channel. -/
def viewerCount (t : Tables) (nowUnix : Int) (channelID : ID) : Nat :=
  (t.users.filter fun u => hasViewChannel t nowUnix u.id channelID).length

/-! ## Section 2: The viewers as one list -/

/-- All viewers in ascending order. -/
def viewers (t : Tables) (nowUnix : Int) (channelID : ID) : List MemberPublicKey :=
  match channelServer t channelID with
  | none => listDMParticipantKeys t channelID
  | some (server, _) =>
    viewerKeys (fun row => hasViewChannel t nowUnix row.userID channelID) (memberRows t server.id)

variable {t : Tables} {channelID : ID} {nowUnix : Int}

theorem viewers_ascending (hc : t.Constraints) (nowUnix : Int) (channelID : ID) :
    Ascending userID (viewers t nowUnix channelID) := by
  unfold viewers
  split
  · exact listDMParticipantKeys_ascending hc channelID
  · rename_i server _ _
    have hrows := memberRows_ascending hc.servers.membersPK server.id
    have hkey : ∀ row : MemberRow, row.publicKey.userID = row.userID := fun _ => rfl
    exact (hrows.filter _).map hkey

/-- The owner of every server is one of its members. -/
def OwnersAreMembers (t : Tables) : Prop :=
  ∀ s ∈ t.servers, (s.ownerID, s.id) ∈ t.members.map Member.key

theorem exists_memberRow (hc : t.Constraints) {userID serverID : ID}
    (h : (userID, serverID) ∈ t.members.map Member.key) :
    ∃ row ∈ memberRows t serverID, row.userID = userID := by
  obtain ⟨m, hm, hkey⟩ := mem_map.mp h
  obtain ⟨rfl, rfl⟩ := Prod.mk.inj hkey
  obtain ⟨u, hu, hid⟩ := mem_map.mp (hc.servers.membersUser m hm)
  refine ⟨{ member := m, signingPublicKey := u.signingPublicKey,
            roleIDs := t.roleIDsOf m.userID m.serverID }, ?_, rfl⟩
  refine mem_memberRows.mpr ⟨hm, rfl, rfl, u, ?_, rfl⟩
  show lookup User.id m.userID t.users = some u
  rw [← hid]
  exact lookup_of_mem hc.servers.usersPK hu

theorem channelServer_mem {server : Server} {group : Option ID}
    (h : channelServer t channelID = some (server, group)) : server ∈ t.servers := by
  obtain ⟨c, -, h⟩ := Option.bind_eq_some_iff.mp h
  obtain ⟨s, hs, heq⟩ := Option.map_eq_some_iff.mp h
  obtain ⟨rfl, -⟩ := Prod.mk.inj heq
  obtain ⟨serverID, -, hlook⟩ := Option.bind_eq_some_iff.mp hs
  exact (mem_of_lookup hlook).1

/-- The list holds exactly the users for whom `hasViewChannel` is true. -/
theorem mem_viewers (hc : t.Constraints) (howners : OwnersAreMembers t) (nowUnix : Int)
    (channelID userID : ID) :
    userID ∈ (viewers t nowUnix channelID).map (·.userID) ↔
      hasViewChannel t nowUnix userID channelID = true := by
  unfold viewers
  cases hch : channelServer t channelID with
  | none =>
    rw [mem_listDMParticipantKeys hc]
    unfold hasViewChannel
    rw [hch]
  | some res =>
    obtain ⟨server, group⟩ := res
    unfold viewerKeys
    rw [map_map, mem_map]
    constructor
    · intro hex
      obtain ⟨row, hrow, rfl⟩ := hex
      exact (mem_filter.mp hrow).2
    · intro hview
      have hmember : (userID, server.id) ∈ t.members.map Member.key := by
        unfold hasViewChannel at hview
        rw [hch] at hview
        dsimp only at hview
        split at hview
        · -- the owner is let through without a look at the members
          rename_i howner
          rw [← howner]
          exact howners server (channelServer_mem hch)
        · split at hview
          · cases hview
          · rename_i m hm
            obtain ⟨hmem, hkey⟩ := mem_of_lookup hm
            exact mem_map.mpr ⟨m, hmem, hkey⟩
      obtain ⟨row, hrow, rfl⟩ := exists_memberRow hc hmember
      exact ⟨row, mem_filter.mpr ⟨hrow, hview⟩, rfl⟩

theorem isChannelMember_user (hc : t.Constraints) {userID : ID}
    (h : isChannelMember t channelID userID = true) : userID ∈ t.users.map (·.id) := by
  obtain ⟨cm, hcm, hcond⟩ := any_eq_true.mp h
  obtain ⟨-, rfl⟩ := of_decide_eq_true hcond
  exact hc.channels.membersUser cm hcm

theorem hasViewChannel_user (hc : t.Constraints) {userID : ID}
    (h : hasViewChannel t nowUnix userID channelID = true) :
    userID ∈ t.users.map (·.id) := by
  unfold hasViewChannel at h
  cases hch : channelServer t channelID with
  | none =>
    rw [hch] at h
    exact isChannelMember_user hc h
  | some res =>
    obtain ⟨server, group⟩ := res
    rw [hch] at h
    dsimp only at h
    split at h
    · rename_i howner
      rw [← howner]
      exact hc.servers.serversOwner server (channelServer_mem hch)
    · split at h
      · cases h
      · rename_i m hm
        obtain ⟨hmem, hkey⟩ := mem_of_lookup hm
        obtain ⟨rfl, -⟩ := Prod.mk.inj hkey
        exact hc.servers.membersUser m hmem

/-- Every list of the viewers without repetition is as long as there are
    viewers. -/
theorem length_eq_viewerCount (hc : t.Constraints) {members : List MemberPublicKey}
    (hasc : Ascending userID members)
    (hmem : ∀ userID, userID ∈ members.map (·.userID) ↔ hasViewChannel t nowUnix userID channelID = true) :
    members.length = viewerCount t nowUnix channelID := by
  -- both lists hold the viewers' ids without repetition
  have hperm : (members.map (·.userID)).Perm
      ((t.users.filter fun u => hasViewChannel t nowUnix u.id channelID).map (·.id)) := by
    rw [perm_ext_iff_of_nodup]
    · intro userID
      rw [hmem, mem_map]
      constructor
      · intro hview
        obtain ⟨u, hu, rfl⟩ := mem_map.mp (hasViewChannel_user hc hview)
        exact ⟨u, mem_filter.mpr ⟨hu, hview⟩, rfl⟩
      · intro hex
        obtain ⟨u, hu, rfl⟩ := hex
        exact (mem_filter.mp hu).2
    · exact hasc.unique
    · exact .sublist (filter_sublist.map _) hc.servers.usersPK
  have hlen := hperm.length_eq
  rwa [length_map, length_map] at hlen

theorem viewers_length (hc : t.Constraints) (howners : OwnersAreMembers t) (nowUnix : Int)
    (channelID : ID) :
    (viewers t nowUnix channelID).length = viewerCount t nowUnix channelID :=
  length_eq_viewerCount hc (viewers_ascending hc nowUnix channelID)
    (mem_viewers hc howners nowUnix channelID)

/-! ## Section 3: One page -/

/-- What the handler makes of the members the store returned. -/
def cutPage (limit : Nat) (members : List MemberPublicKey) : List MemberPublicKey × Option ID :=
  if limit < members.length then
    (members.take limit, cursorOption (((members[limit - 1]?).map (·.userID)).getD ""))
  else (members, none)

theorem cutPage_last {limit : Nat} {members : List MemberPublicKey}
    (h : members.length ≤ limit) : cutPage limit members = (members, none) := by
  unfold cutPage
  rw [if_neg (by omega)]

theorem cutPage_more {limit : Nat} {members xs ys : List MemberPublicKey} {r : MemberPublicKey}
    (h : members = xs ++ r :: ys) (hlen : xs.length + 1 = limit) (hne : ys ≠ [])
    (hid : r.userID ≠ "") : cutPage limit members = (xs ++ [r], some r.userID) := by
  have hpos : 0 < ys.length := length_pos_iff.mpr hne
  unfold cutPage
  rw [if_pos (by rw [h, length_append, length_cons]; omega), h, ← hlen]
  have htake : (xs ++ r :: ys).take (xs.length + 1) = xs ++ [r] := by
    rw [take_length_add_append]
    rfl
  have hget : (xs ++ r :: ys)[xs.length + 1 - 1]? = some r := by simp
  rw [htake, hget]
  show (xs ++ [r], cursorOption r.userID) = (xs ++ [r], some r.userID)
  unfold cursorOption
  rw [if_neg hid]

theorem fetchPage_eq {caller : ID} (hchannel : channelID ≠ "")
    (hview : hasViewChannel t nowUnix caller channelID = true) (limit : Int) (cursor : Option ID) :
    fetchPage t nowUnix caller channelID limit cursor =
      cutPage (clampTo maxMembersPerPage limit)
        (Store.listMembersWithViewChannel t nowUnix channelID (cursor.getD "")
          (clampTo maxMembersPerPage limit + 1)) := by
  unfold fetchPage Service.listMembersWithViewChannel cutPage
  simp only [requireCaller, Service.requireViewChannel, rejectIf, hchannel, hview, bind,
    Except.bind, pure, Except.pure, not_true_eq_false, if_false]
  by_cases hmore : clampTo maxMembersPerPage limit <
      (Store.listMembersWithViewChannel t nowUnix channelID (cursor.getD "")
        (clampTo maxMembersPerPage limit + 1)).length
  · rw [if_pos hmore, if_pos hmore]
  · rw [if_neg hmore, if_neg hmore]
    rfl

theorem viewer_userID_ne (hc : t.Constraints) (hids : ∀ u ∈ t.users, u.id ≠ "")
    (howners : OwnersAreMembers t) {r : MemberPublicKey} (hr : r ∈ viewers t nowUnix channelID) :
    r.userID ≠ "" := by
  have hview := (mem_viewers hc howners nowUnix channelID r.userID).mp (mem_map.mpr ⟨r, hr, rfl⟩)
  obtain ⟨u, hu, hid⟩ := mem_map.mp (hasViewChannel_user hc hview)
  rw [← hid]
  exact hids u hu

/-- In a server channel the store returns the next viewers, capped. -/
theorem store_page (hc : t.Constraints) (nowUnix : Int) {server : Server} {group : Option ID}
    (hch : channelServer t channelID = some (server, group)) (cursor : ID) (limit : Int) :
    Store.listMembersWithViewChannel t nowUnix channelID cursor limit =
      (after userID (cursorOption cursor)
        (viewers t nowUnix channelID)).take (clampLimit limit) := by
  have hkey : ∀ row : MemberRow, row.publicKey.userID = row.userID := fun _ => rfl
  rw [listMembersWithViewChannel_eq hc nowUnix hch]
  unfold viewers
  rw [hch]
  unfold viewerKeys
  rw [after_map hkey, after_filter, rowsAfter_eq]

theorem empty_lt {s : String} (h : s ≠ "") : "" < s := by
  rw [String.lt_iff_toList_lt]
  rcases hs : s.toList with _ | ⟨a, l⟩
  · exact absurd (String.toList_eq_nil_iff.mp hs) h
  · exact nil_lt_cons a l

/-- A cursor and its text say the same about the viewers. -/
theorem after_cursor (hc : t.Constraints) (hids : ∀ u ∈ t.users, u.id ≠ "")
    (howners : OwnersAreMembers t) (nowUnix : Int) (channelID : ID) (cursor : Option ID) :
    after userID (cursorOption (cursor.getD ""))
        (viewers t nowUnix channelID) =
      after userID cursor (viewers t nowUnix channelID) := by
  cases cursor with
  | none => rfl
  | some c =>
    show after _ (if c = "" then none else some c) _ = _
    split
    · rename_i hempty
      -- every id lies after the empty text
      rw [after_none, after_some, hempty]
      symm
      rw [filter_eq_self]
      intro r hr
      exact decide_eq_true (empty_lt (viewer_userID_ne hc hids howners hr))
    · rfl

/-! ## Section 4: When the client gets everybody -/

section Client

variable (hc : t.Constraints) (hids : ∀ u ∈ t.users, u.id ≠ "")
  (howners : OwnersAreMembers t) {nowUnix : Int} {caller channelID : ID}
  (hchannel : channelID ≠ "") (hview : hasViewChannel t nowUnix caller channelID = true)
  {limit : Int}

include hc howners in
theorem pagingComplete_of_follow {calls : Nat}
    (h : follow (fetchPage t nowUnix caller channelID limit) calls none =
      some (viewers t nowUnix channelID)) : PagingComplete t nowUnix caller channelID limit :=
  ⟨calls, viewers t nowUnix channelID, h, viewers_ascending hc nowUnix channelID,
    mem_viewers hc howners nowUnix channelID⟩

include hc hids howners hchannel hview in
/-- On pages of fewer than 1000 the store returns the extra member, and the
    handler serves the viewers page by page. -/
theorem fetchPage_serves {server : Server} {group : Option ID}
    (hch : channelServer t channelID = some (server, group))
    (hsmall : clampTo maxMembersPerPage limit < maxMembersPerPage) :
    Serves userID (fetchPage t nowUnix caller channelID limit)
      (clampTo maxMembersPerPage limit) (viewers t nowUnix channelID) := by
  have hpage : ∀ cursor, fetchPage t nowUnix caller channelID limit cursor =
      cutPage (clampTo maxMembersPerPage limit)
        ((after userID cursor (viewers t nowUnix channelID)).take
          (clampTo maxMembersPerPage limit + 1)) := by
    intro cursor
    have hclamp : clampLimit (clampTo maxMembersPerPage limit + 1) =
        clampTo maxMembersPerPage limit + 1 := by
      unfold maxMembersPerPage at hsmall ⊢
      unfold clampLimit
      generalize clampTo 1000 limit = n at hsmall ⊢
      unfold clampTo
      rw [if_neg (by omega)]
      omega
    rw [fetchPage_eq hchannel hview, store_page hc nowUnix hch, hclamp,
      after_cursor hc hids howners]
  constructor
  · intro cursor hlast
    rw [hpage, take_of_length_le (by omega)]
    exact cutPage_last hlast
  · intro cursor xs r ys hsplit hlen hne
    have hr : r ∈ viewers t nowUnix channelID := by
      have hmem : r ∈ after userID cursor (viewers t nowUnix channelID) := by
        rw [hsplit]
        simp
      exact (mem_filter.mp hmem).1
    -- of what is left the store returns one member more than fits
    have htake : (xs ++ r :: ys).take (clampTo maxMembersPerPage limit + 1) =
        xs ++ r :: ys.take 1 := by
      rw [← hlen, Nat.add_assoc, take_length_add_append]
      rfl
    rw [hpage, hsplit, htake]
    refine cutPage_more rfl hlen ?_ (viewer_userID_ne hc hids howners hr)
    intro hnil
    rcases take_eq_nil_iff.mp hnil with h1 | h1
    · omega
    · exact hne h1

include hc hchannel hview in
/-- On pages of 1000 the store's own cap hides the extra member, so the first
    page carries no cursor. -/
theorem fetchPage_capped {server : Server} {group : Option ID}
    (hch : channelServer t channelID = some (server, group))
    (hfull : clampTo maxMembersPerPage limit = maxMembersPerPage) :
    fetchPage t nowUnix caller channelID limit none =
      ((viewers t nowUnix channelID).take maxMembersPerPage, none) := by
  have hclamp : clampLimit ((maxMembersPerPage : Int) + 1) = maxMembersPerPage := by decide
  rw [fetchPage_eq hchannel hview, store_page hc nowUnix hch, hfull, hclamp]
  show cutPage _ ((after _ none _).take _) = _
  rw [after_none]
  exact cutPage_last (length_take_le _ _)

include hchannel hview in
theorem fetchPage_dm (hch : channelServer t channelID = none) (cursor : Option ID) :
    fetchPage t nowUnix caller channelID limit cursor =
      cutPage (clampTo maxMembersPerPage limit) (viewers t nowUnix channelID) := by
  rw [fetchPage_eq hchannel hview]
  unfold Store.listMembersWithViewChannel viewers
  rw [hch]

include hc hids howners hchannel hview in
theorem fetchPage_dm_endless (hch : channelServer t channelID = none)
    (hmany : clampTo maxMembersPerPage limit < (viewers t nowUnix channelID).length)
    (cursor : Option ID) : (fetchPage t nowUnix caller channelID limit cursor).2 ≠ none := by
  have hpos : 0 < clampTo maxMembersPerPage limit := clampTo_pos (by decide) limit
  obtain ⟨xs, r, ys, hsplit, hlen, hne⟩ := exists_page hpos hmany
  have hr : r ∈ viewers t nowUnix channelID := by
    rw [hsplit]
    simp
  rw [fetchPage_dm hchannel hview hch,
    cutPage_more hsplit hlen hne (viewer_userID_ne hc hids howners hr)]
  exact Option.some_ne_none _

/-- The condition: in a server channel, pages of fewer than 1000 or at most
    1000 viewers; in a DM channel, all participants on one page. -/
def pagesSuffice (t : Tables) (nowUnix : Int) (channelID : ID) (limit : Int) : Prop :=
  if (channelServer t channelID).isSome then
    clampTo maxMembersPerPage limit < maxMembersPerPage ∨
      viewerCount t nowUnix channelID ≤ maxMembersPerPage
  else viewerCount t nowUnix channelID ≤ clampTo maxMembersPerPage limit

include hc hids howners hchannel hview in
/-- **Paging.** A client that follows the cursors gets every viewer once, in
    order, exactly when the pages suffice. -/
theorem pagingComplete_iff :
    PagingComplete t nowUnix caller channelID limit ↔ pagesSuffice t nowUnix channelID limit := by
  have hcount := viewers_length hc howners nowUnix channelID
  have hasc := viewers_ascending hc nowUnix channelID
  have hpos : 0 < clampTo maxMembersPerPage limit := clampTo_pos (by decide) limit
  unfold pagesSuffice
  rcases hch : channelServer t channelID with _ | ⟨server, group⟩
  · -- a DM channel: either one page holds everybody or the cursor never ends
    rw [if_neg (by simp)]
    rw [← hcount]
    constructor
    · intro hex
      obtain ⟨calls, members, hfollow, -, -⟩ := hex
      by_contra hmany
      rw [follow_endless (fetchPage_dm_endless hc hids howners hchannel hview hch
        (by omega))] at hfollow
      cases hfollow
    · intro hfits
      have hpage : fetchPage t nowUnix caller channelID limit none =
          (viewers t nowUnix channelID, none) := by
        rw [fetchPage_dm hchannel hview hch]
        exact cutPage_last hfits
      exact pagingComplete_of_follow hc howners (follow_stop hpage 0)
  · rw [if_pos (by simp)]
    by_cases hsmall : clampTo maxMembersPerPage limit < maxMembersPerPage
    · have hfollow := follow_complete hasc hpos
        (fetchPage_serves hc hids howners hchannel hview hch hsmall) _ none (Nat.lt_succ_self _)
      rw [after_none] at hfollow
      exact iff_of_true (pagingComplete_of_follow hc howners hfollow) (.inl hsmall)
    · have hfull : clampTo maxMembersPerPage limit = maxMembersPerPage := by
        have hle : clampTo maxMembersPerPage limit ≤ maxMembersPerPage := clampTo_le _ _
        omega
      -- the first page carries no cursor, so it is all the client gets
      have hpage := fetchPage_capped hc hchannel hview hch hfull
      constructor
      · intro hex
        obtain ⟨calls, members, hfollow, hmasc, hmmem⟩ := hex
        right
        rcases calls with _ | calls
        · cases hfollow
        · rw [follow_stop hpage] at hfollow
          injection hfollow with hfollow
          have hlen := length_eq_viewerCount hc hmasc hmmem
          rw [← hlen, ← hfollow]
          exact length_take_le _ _
      · intro h
        have hfew : viewerCount t nowUnix channelID ≤ maxMembersPerPage := by omega
        rw [take_of_length_le (by omega)] at hpage
        exact pagingComplete_of_follow hc howners (follow_stop hpage 0)

end Client

/-- A DM channel of two users. -/
def twoParticipants : Tables where
  users := [{ id := "alice", signingPublicKey := none }, { id := "bob", signingPublicKey := none }]
  channels := [{ id := "dm", serverID := none, name := "" }]
  channelMembers := [{ channelID := "dm", userID := "alice" },
                     { channelID := "dm", userID := "bob" }]

theorem pagingComplete_twoParticipants :
    (twoParticipants.Constraints ∧ hasViewChannel twoParticipants 0 "alice" "dm" = true) ∧
      (PagingComplete twoParticipants 0 "alice" "dm" 2 ↔
        pagesSuffice twoParticipants 0 "dm" 2) :=
  ⟨⟨by decide, by decide⟩,
    pagingComplete_iff (by decide) (by decide) (by intro s hs; cases hs) (by decide) (by decide)⟩

/-- One participant at a time, the client asks for the first page forever. -/
theorem paging_twoParticipants_endless : ¬ PagingComplete twoParticipants 0 "alice" "dm" 1 := by
  intro hex
  obtain ⟨calls, members, hfollow, -, -⟩ := hex
  have hsame : ∀ cursor, fetchPage twoParticipants 0 "alice" "dm" 1 cursor =
      ([{ userID := "alice", signingPublicKey := none }], some "alice") := by
    intro cursor
    rw [fetchPage_dm (by decide) (by decide) (by decide)]
    decide
  rw [follow_endless (by intro cursor; rw [hsame]; exact Option.some_ne_none _)] at hfollow
  cases hfollow

end Meza.Keys
