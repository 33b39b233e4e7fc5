import Meza.Lib.Pool
import Meza.Social.Store

/-! # Opening a DM from both sides

    `CreateDMChannel` as any number of calls run it at the same time. It looks
    for the DM without a lock, then inserts one in a transaction; the unique index
    on `dm_pair_key` makes the insert wait for an open transaction with the same
    key and then give back the row that is there. Comparing ids tells who has
    created the DM.

    A statement can fail, and then the transaction is rolled back. -/

namespace Meza.Social.DirectChannels
open ChatStore List Table Run Option Store

open Store (ID StoreError)

/-! ## Section 1: Calls and phases -/

structure Call where
  userID₁ : ID
  userID₂ : ID
  dmStatus : DMStatus := .active
  dmInitiatorID : ID := ""
  deriving DecidableEq, Repr

def Call.pairKey (call : Call) : String := dmPairKey call.userID₁ call.userID₂

/-- The row that the call inserts. -/
def Call.channel (call : Call) (channelID : ID) : Channel :=
  { id := channelID, dmPairKey := call.pairKey, dmStatus := call.dmStatus,
    dmInitiatorID := call.dmInitiatorID }

inductive Phase where
  /-- `SELECT ... WHERE dm_pair_key = $1` -/
  | begun (call : Call)
  /-- `INSERT INTO channels ... ON CONFLICT (dm_pair_key) ... DO UPDATE` -/
  | missing (call : Call)
  /-- The row was there; `Commit` -/
  | existing (call : Call) (ch : Channel)
  /-- The ids are the same; `INSERT INTO channel_members`. `new` tells whether the row was
      inserted. -/
  | inserted (call : Call) (ch : Channel) (new : Bool)
  /-- `Commit` -/
  | joined (call : Call) (ch : Channel) (new : Bool)
  | returned (call : Call) (result : Except StoreError (Channel × Bool))
  deriving DecidableEq

/-- Whether the statement fails, and the id that `models.NewID` draws. -/
structure Outcome where
  failed : Bool := false
  newID : ID := ""

/-! ## Section 2: Steps -/

/-- The key that an open transaction has inserted or locked. -/
def Phase.holds : Phase → Option String
  | .existing call _ | .inserted call _ _ | .joined call _ _ => some call.pairKey
  | _ => none

def refuse (call : Call) (e : StoreError) : Phase := .returned call (.error e)

def Phase.failed : Phase → Phase
  | .begun call => refuse call (.refused "lookup dm channel")
  | .missing call => refuse call (.refused "insert dm channel")
  | .existing call _ => refuse call (.refused "commit tx")
  | .inserted call _ _ => refuse call (.refused "insert dm participants")
  | .joined call _ _ => refuse call (.refused "commit tx")
  | .returned call result => .returned call result

/-- The tables when a call has created a DM. A row that was there gets members only. -/
def created (t : Tables) (call : Call) (ch : Channel) (new : Bool) : Tables :=
  if new then insertDMChannel t ch call.userID₁ call.userID₂
  else { t with
    channelMembers :=
      withParticipants ch.id call.userID₁ call.userID₂ t.channelMembers }

/-- The next statement, or nothing while it has to wait. -/
def nextStatement (db : DB) (others : List Phase) (newID : ID) : Phase → Option (DB × Phase)
  | .begun call =>
    match getDMChannelByPairKey db.tables call.userID₁ call.userID₂ with
    | some ch => some (db, .returned call (.ok (ch, false)))
    | none => some (db, .missing call)
  | .missing call =>
    -- waits for an insert of the same key that has not committed
    if others.any fun q => q.holds = some call.pairKey then none
    else
      match getDMChannelByPairKey db.tables call.userID₁ call.userID₂ with
      | some ch =>
        -- the ids tell whether the row that comes back is the new one
        if ch.id = newID then some (db, .inserted call ch false) else some (db, .existing call ch)
      | none =>
        if newID ∈ db.tables.channels.map (·.id) then
          some (db, refuse call (.refused "insert dm channel"))
        else some (db, .inserted call (call.channel newID) true)
  | .existing call ch => some (db, .returned call (.ok (ch, false)))
  | .inserted call ch new =>
    if call.userID₁ ∈ db.tables.users.map (·.id) ∧ call.userID₂ ∈ db.tables.users.map (·.id) then
      some (db, .joined call ch new)
    else some (db, refuse call (.refused "insert dm participants"))
  | .joined call ch new =>
    some (Pool.write (refuse call (.refused "commit tx")) db
      ((commit (created db.tables call ch new)).map ((), ·))
      fun _ => .returned call (.ok (ch, true)))
  | .returned _ _ => none

def next (db : DB) (others : List Phase) (p : Phase) (outcome : Outcome) : Option (DB × Phase) :=
  match p with
  | .returned _ _ => none
  | p =>
    if outcome.failed then some (db, p.failed)
    else nextStatement db others outcome.newID p

abbrev State : Type := Pool.State DB Phase

abbrev Event : Type := Pool.Event Call Outcome

/-- Any interleaving. -/
abbrev step : State → Event → State := Pool.step .begun next

/-- Nothing has been called yet. -/
def initial (db : DB) : State := { shared := db, calls := [] }

/-! ## Section 3: What a step changes -/

def Phase.call : Phase → Call
  | .begun call | .missing call | .existing call _ | .inserted call _ _ | .joined call _ _
  | .returned call _ => call

inductive Change (db : DB) (others : List Phase) (newID : ID) : Phase → DB → Phase → Prop where
  | fail {p : Phase} (e : StoreError) : Change db others newID p db (refuse p.call e)
  | find {call : Call} {ch : Channel}
      (found : getDMChannelByPairKey db.tables call.userID₁ call.userID₂ = some ch) :
      Change db others newID (.begun call) db (.returned call (.ok (ch, false)))
  | miss {call : Call} : Change db others newID (.begun call) db (.missing call)
  | conflict {call : Call} {ch : Channel}
      (free : ∀ q ∈ others, q.holds ≠ some call.pairKey)
      (found : getDMChannelByPairKey db.tables call.userID₁ call.userID₂ = some ch) :
      Change db others newID (.missing call) db (.existing call ch)
  | mistake {call : Call} {ch : Channel}
      (free : ∀ q ∈ others, q.holds ≠ some call.pairKey)
      (found : getDMChannelByPairKey db.tables call.userID₁ call.userID₂ = some ch)
      (same : ch.id = newID) :
      Change db others newID (.missing call) db (.inserted call ch false)
  | insert {call : Call} (free : ∀ q ∈ others, q.holds ≠ some call.pairKey)
      (none : getDMChannelByPairKey db.tables call.userID₁ call.userID₂ = none) :
      Change db others newID (.missing call) db (.inserted call (call.channel newID) true)
  | keep {call : Call} {ch : Channel} :
      Change db others newID (.existing call ch) db (.returned call (.ok (ch, false)))
  | join {call : Call} {ch : Channel} {new : Bool} :
      Change db others newID (.inserted call ch new) db (.joined call ch new)
  | create {call : Call} {ch : Channel} {new : Bool} {db' : DB}
      (write : commit (created db.tables call ch new) = .ok db') :
      Change db others newID (.joined call ch new) db' (.returned call (.ok (ch, true)))

variable {c : Channel} {db : DB} {a b d u v : ID} {p : Phase}

theorem nextStatement_change {db' : DB} {others : List Phase} {newID : ID} {p' : Phase}
    (h : nextStatement db others newID p = some (db', p')) : Change db others newID p db' p' := by
  cases p with
  | begun call =>
    simp only [nextStatement] at h
    split at h
    · cases h
      exact Change.find ‹_›
    · cases h
      exact Change.miss
  | missing call =>
    simp only [nextStatement] at h
    split at h
    · cases h
    · rename_i hheld
      have hfree : ∀ q ∈ others, q.holds ≠ some call.pairKey := by
        intro q hq hholds
        exact hheld (any_eq_true.mpr ⟨q, hq, decide_eq_true hholds⟩)
      split at h
      · rename_i ch hfound
        split at h
        · rename_i hsame
          cases h
          exact Change.mistake hfree hfound hsame
        · cases h
          exact Change.conflict hfree hfound
      · rename_i hnone
        split at h
        · cases h
          exact Change.fail _
        · cases h
          exact Change.insert hfree hnone
  | existing call ch =>
    cases h
    exact Change.keep
  | inserted call ch new =>
    simp only [nextStatement] at h
    split at h
    · cases h
      exact Change.join
    · cases h
      exact Change.fail _
  | joined call ch new =>
    rcases Pool.write_cases (some.inj h) with ⟨u, hr, rfl⟩ | ⟨rfl, rfl⟩
    · obtain ⟨db₁, hcommit, heq⟩ := map_eq_ok.mp hr
      cases heq
      exact Change.create hcommit
    · exact Change.fail _
  | returned call result => cases h

/-- A call that has returned takes no more steps. -/
theorem next_change {db' : DB} {others : List Phase} {p' : Phase} {outcome : Outcome}
    (h : next db others p outcome = some (db', p')) :
    (∀ call result, p ≠ .returned call result) ∧ Change db others outcome.newID p db' p' := by
  unfold next at h
  split at h
  · cases h
  · rename_i hnot
    refine ⟨fun call result heq => hnot call result heq, ?_⟩
    split at h
    · cases h
      cases p with
      | returned call result => exact (hnot call result rfl).elim
      | begun | missing | existing | inserted | joined => exact Change.fail _
    · exact nextStatement_change h

/-! ## Section 4: One key for one pair -/

/-- Ids of users have no colon. -/
def PlainID (id : ID) : Prop := ':' ∉ id.toList

instance (id : ID) : Decidable (PlainID id) := inferInstanceAs (Decidable (¬ _))

theorem append_colon_inj {c : ID} (ha : PlainID a) (hb : PlainID b)
    (h : a ++ ":" ++ b = c ++ ":" ++ d) : a = c ∧ b = d := by
  have hlist : a.toList ++ ':' :: b.toList = c.toList ++ ':' :: d.toList := by
    have := congrArg String.toList h
    simpa using this
  obtain ⟨hac, -, hbd⟩ := (append_cons_inj_of_notMem ha hb).mp hlist
  exact ⟨String.toList_inj.mp hac, String.toList_inj.mp hbd⟩

theorem dmPairKey_injective {c : ID} (ha : PlainID a) (hb : PlainID b)
    (h : dmPairKey a b = dmPairKey c d) : s(a, b) = s(c, d) := by
  unfold dmPairKey at h
  rw [Sym2.eq_iff]
  split at h
  · split at h
    · obtain ⟨rfl, rfl⟩ := append_colon_inj ha hb h
      exact .inl ⟨rfl, rfl⟩
    · obtain ⟨rfl, rfl⟩ := append_colon_inj ha hb h
      exact .inr ⟨rfl, rfl⟩
  · split at h
    · obtain ⟨rfl, rfl⟩ := append_colon_inj hb ha h
      exact .inr ⟨rfl, rfl⟩
    · obtain ⟨rfl, rfl⟩ := append_colon_inj hb ha h
      exact .inl ⟨rfl, rfl⟩

theorem dmPairKey_of_pair {c : ID} (h : s(a, b) = s(c, d)) : dmPairKey a b = dmPairKey c d := by
  rcases Sym2.eq_iff.mp h with ⟨rfl, rfl⟩ | ⟨rfl, rfl⟩
  · rfl
  · exact dmPairKey_comm a b

/-! ## Section 5: Invariants -/

/-- The participants of the channel are exactly these two. -/
def Participants (t : Tables) (c : Channel) (a b : ID) : Prop :=
  ∀ userID, { channelID := c.id, userID : ChannelMember } ∈ t.channelMembers ↔
    userID = a ∨ userID = b

structure Serves (t : Tables) (c : Channel) (a b : ID) : Prop where
  plain₁ : PlainID a
  plain₂ : PlainID b
  key : c.dmPairKey = dmPairKey a b
  participants : Participants t c a b

/-- Every DM is for two users, who are its participants. -/
def Consistent (t : Tables) : Prop := ∀ c ∈ t.channels, ∃ a b, Serves t c a b

def PlainCall (_ : State) (call : Call) : Prop := PlainID call.userID₁ ∧ PlainID call.userID₂

/-- `models.NewID` draws an id that no channel has. -/
def NewIDs (db : DB) (_ : List Phase) (p : Phase) (outcome : Outcome) : Prop :=
  match p with
  | .missing _ => outcome.newID ∉ db.tables.channels.map (·.id)
  | _ => True

instance (s : State) (call : Call) : Decidable (PlainCall s call) :=
  inferInstanceAs (Decidable (_ ∧ _))

instance (db : DB) (others : List Phase) (outcome : Outcome) :
    ∀ p, Decidable (NewIDs db others p outcome)
  | .missing _ => inferInstanceAs (Decidable (_ ∉ _))
  | .begun _ | .existing _ _ | .inserted _ _ _ | .joined _ _ _ | .returned _ _ => isTrue trivial

/-- The channel that a call has in its hands. -/
def Fits (db : DB) : Phase → Prop
  | .existing call ch | .returned call (.ok (ch, _)) =>
    ch ∈ db.tables.channels ∧ ch.dmPairKey = call.pairKey
  | .inserted call ch new | .joined call ch new =>
    new = true ∧ ch.dmPairKey = call.pairKey ∧ ∀ c ∈ db.tables.channels, c.dmPairKey ≠ call.pairKey
  | _ => True

def Local (db : DB) (p : Phase) : Prop :=
  PlainID p.call.userID₁ ∧ PlainID p.call.userID₂ ∧ Fits db p

/-- The pair for which the call has created the DM. -/
def Phase.created : Phase → Option String
  | .returned call (.ok (_, true)) => some call.pairKey
  | _ => none

/-- Two calls neither hold the same key nor have created the DM of the same pair. -/
def Apart (_ : DB) (p q : Phase) : Prop :=
  (∀ k, p.holds = some k → q.holds ≠ some k) ∧ ∀ k, p.created = some k → q.created ≠ some k

theorem Apart.symm (db : DB) (p q : Phase) (h : Apart db p q) : Apart db q p :=
  ⟨fun k hq hp => h.1 k hp hq, fun k hq hp => h.2 k hp hq⟩

abbrev ChannelsInv : State → Prop := Pool.Inv (fun db => Consistent db.tables) Local Apart

section Steps

variable {db' : DB} {others : List Phase} {newID : ID} {p' : Phase} {ch : Channel} {q : Phase}

theorem lookup_key {call : Call}
    (h : getDMChannelByPairKey db.tables call.userID₁ call.userID₂ = some ch) :
    ch ∈ db.tables.channels ∧ ch.dmPairKey = call.pairKey :=
  mem_of_lookup h

theorem Change.call_eq (h : Change db others newID p db' p') : p'.call = p.call := by
  cases h <;> rfl

theorem Change.writes (h : Change db others newID p db' p') (hfits : Fits db p) :
    db' = db ∨ ∃ call ch, p = .joined call ch true ∧ p' = .returned call (.ok (ch, true)) ∧
      db'.tables = insertDMChannel db.tables ch call.userID₁ call.userID₂ := by
  cases h with
  | fail | find | miss | conflict | mistake | insert | keep | join => exact Or.inl rfl
  | create write =>
    rename_i call ch new
    obtain ⟨rfl, -, -⟩ := hfits
    exact Or.inr ⟨call, ch, rfl, rfl, commit_ok write⟩

theorem Change.fits (h : Change db others newID p db' p') (hfits : Fits db p)
    (hnew : ∀ call, p = .missing call → newID ∉ db.tables.channels.map (·.id)) : Fits db' p' := by
  cases h with
  | fail | miss => trivial
  | find found | conflict free found => exact lookup_key found
  | mistake free found same =>
    exact absurd (mem_map.mpr ⟨_, (lookup_key found).1, same⟩) (hnew _ rfl)
  | insert free none => exact ⟨rfl, rfl, lookup_eq_none.mp none⟩
  | keep | join => exact hfits
  | create write =>
    obtain ⟨rfl, hkey, -⟩ := hfits
    refine ⟨?_, hkey⟩
    rw [commit_ok write]
    exact mem_append_right _ (mem_singleton.mpr rfl)

theorem fits_insert (htables : db'.tables = insertDMChannel db.tables ch a b)
    (hkey : q.holds ≠ some ch.dmPairKey) (hfits : Fits db q) : Fits db' q := by
  have hmem : ∀ c ∈ db.tables.channels, c ∈ db'.tables.channels := by
    intro c hc
    rw [htables]
    exact mem_append_left _ hc
  have hfresh : ∀ k, q.holds = some k → (∀ c ∈ db.tables.channels, c.dmPairKey ≠ k) →
      ∀ c ∈ db'.tables.channels, c.dmPairKey ≠ k := by
    intro k hholds hold c hc hck
    rw [htables] at hc
    rcases mem_append.mp hc with hc | hc
    · exact hold c hc hck
    · rw [mem_singleton.mp hc] at hck
      exact hkey (by rw [hholds, hck])
  cases q with
  | begun | missing => trivial
  | existing call c => exact ⟨hmem c hfits.1, hfits.2⟩
  | inserted | joined => exact ⟨hfits.1, hfits.2.1, hfresh _ rfl hfits.2.2⟩
  | returned call result =>
    rcases result with e | ⟨c, created⟩
    · trivial
    · exact ⟨hmem c hfits.1, hfits.2⟩

theorem participants_insert (hnew : ch.id ∉ db.tables.channels.map (·.id)) :
    Participants (insertDMChannel db.tables ch a b) ch a b := by
  intro userID
  constructor
  · intro hmember
    rcases mem_withParticipants hmember with hold | ⟨-, huser⟩
    · exact absurd (db.constraints.channelMembersChannel _ hold) hnew
    · exact huser
  · intro huser
    show _ ∈ withParticipants _ _ _ _
    -- a row that is not inserted is there already
    have hinserted : ∀ (u : ID) (members : List ChannelMember),
        { channelID := ch.id, userID := u : ChannelMember } ∈
          insertNew ChannelMember.key { channelID := ch.id, userID := u } members := by
      intro u members
      rw [mem_insertNew]
      by_cases hexists : exists? ChannelMember.key (ch.id, u) members = true
      · left
        obtain ⟨⟨channelID, userID⟩, hcm, hkey⟩ := exists?_eq_true.mp hexists
        obtain ⟨rfl, rfl⟩ := Prod.mk.inj hkey
        exact hcm
      · exact .inr ⟨rfl, Bool.eq_false_iff.mpr hexists⟩
    rcases huser with rfl | rfl
    · exact mem_insertNew.mpr (.inl (hinserted _ _))
    · exact hinserted _ _

/-- Members of other channels stay. -/
theorem participants_other (hne : c.id ≠ ch.id) (h : Participants db.tables c u v) :
    Participants (insertDMChannel db.tables ch a b) c u v := by
  intro userID
  rw [← h userID]
  constructor
  · intro hmember
    rcases mem_withParticipants hmember with hold | ⟨hid, -⟩
    · exact hold
    · exact absurd hid hne
  · intro hold
    exact mem_insertNew.mpr (.inl (mem_insertNew.mpr (.inl hold)))

theorem consistent_insert {call : Call} (htables : db'.tables =
      insertDMChannel db.tables ch call.userID₁ call.userID₂)
    (hplain₁ : PlainID call.userID₁) (hplain₂ : PlainID call.userID₂)
    (hkey : ch.dmPairKey = call.pairKey) (h : Consistent db.tables) : Consistent db'.tables := by
  have hnew : ch.id ∉ db.tables.channels.map (·.id) := by
    have hpk := db'.constraints.channelsPK
    rw [htables] at hpk
    exact notMem_of_append hpk
  intro c hc
  rw [htables] at hc ⊢
  rcases mem_append.mp hc with hc | hc
  · obtain ⟨a, b, hserves⟩ := h c hc
    have hne : c.id ≠ ch.id := fun heq => hnew (mem_map.mpr ⟨c, hc, heq⟩)
    exact ⟨a, b, hserves.plain₁, hserves.plain₂, hserves.key,
      participants_other hne hserves.participants⟩
  · rw [mem_singleton.mp hc]
    exact ⟨call.userID₁, call.userID₂, hplain₁, hplain₂, hkey, participants_insert hnew⟩

theorem apart_of_holds (hholds : ∀ k, p.holds = some k → q.holds ≠ some k)
    (hcreated : p.created = none) : Apart db p q := by
  refine ⟨hholds, ?_⟩
  intro k hk
  rw [hcreated] at hk
  cases hk

theorem apart_of_none (hholds : p.holds = none) (hcreated : p.created = none) : Apart db p q := by
  refine apart_of_holds ?_ hcreated
  intro k hk
  rw [hholds] at hk
  cases hk

theorem apart_of_free {call : Call} (hholds : p.holds = some call.pairKey)
    (hcreated : p.created = none) (hfree : q.holds ≠ some call.pairKey) : Apart db p q := by
  refine apart_of_holds ?_ hcreated
  intro k hk
  rw [hholds] at hk
  cases hk
  exact hfree

theorem created_mem {k : String} (hfits : Fits db p) (h : p.created = some k) :
    ∃ c ∈ db.tables.channels, c.dmPairKey = k := by
  cases p with
  | returned call result =>
    rcases result with e | ⟨c, created⟩
    · cases h
    · cases created with
      | false => cases h
      | true =>
        obtain ⟨hc, hkey⟩ := hfits
        exact ⟨c, hc, hkey.trans (some.inj h)⟩
  | begun | missing | existing | inserted | joined => cases h

theorem Change.apart (h : Change db others newID p db' p') (hfits : Fits db p) (hq : q ∈ others)
    (hfitsq : Fits db q) (hapart : Apart db p q) : Apart db' p' q := by
  cases h with
  | fail | find | miss | keep => exact apart_of_none rfl rfl
  | conflict free found | mistake free found same | insert free none =>
    exact apart_of_free rfl rfl (free q hq)
  | join => exact apart_of_holds hapart.1 rfl
  | create write =>
    refine ⟨fun k hk => (some_ne_none k hk.symm).elim, ?_⟩
    intro k hk hcreated
    cases hk
    -- the other call would have put a channel with this key into the table before
    obtain ⟨c, hc, hkey⟩ := created_mem hfitsq hcreated
    exact hfits.2.2 c hc hkey

end Steps

/-! ## Section 6: Runs -/

theorem channelsInv_next : Pool.AllowedKeeps NewIDs next ChannelsInv := by
  intro sh p others outcome sh' p' h hnew hnext
  obtain ⟨-, hchange⟩ := next_change hnext
  obtain ⟨hplain₁, hplain₂, hfits⟩ : Local sh p := h.each p mem_cons_self
  have hfits' : Fits sh' p' := by
    refine hchange.fits hfits ?_
    rintro call rfl
    exact hnew
  have hlocal' : Local sh' p' := by
    unfold Local
    rw [hchange.call_eq]
    exact ⟨hplain₁, hplain₂, hfits'⟩
  rcases hchange.writes hfits with rfl | ⟨call, ch, rfl, rfl, htables⟩
  · refine h.replace h.shared hlocal' ?_ fun _ _ hapart => hapart
    intro q hq hlocal hapart
    exact ⟨hlocal, hchange.apart hfits hq hlocal.2.2 hapart⟩
  · refine h.replace (consistent_insert htables hplain₁ hplain₂ hfits.2.1 h.shared) hlocal' ?_
      fun _ _ hapart => hapart
    intro q hq hlocal hapart
    refine ⟨⟨hlocal.1, hlocal.2.1, fits_insert htables ?_ hlocal.2.2⟩,
      hchange.apart hfits hq hlocal.2.2 hapart⟩
    rw [hfits.2.1]
    exact hapart.1 _ rfl

theorem channelsInv_start (sh : DB) (calls : List Phase) (call : Call)
    (h : ChannelsInv { shared := sh, calls }) (hplain : PlainCall { shared := sh, calls } call) :
    ChannelsInv { shared := sh, calls := .begun call :: calls } :=
  h.cons ⟨hplain.1, hplain.2, trivial⟩ fun _ _ => apart_of_none rfl rfl

/-- Every DM that was not there at the beginning has a call that created it. -/
def Claimed (db₀ : DB) (s : State) : Prop :=
  ∀ c ∈ s.shared.tables.channels, c ∈ db₀.tables.channels ∨
    ∃ p ∈ s.calls, p.created = some c.dmPairKey

theorem claimed_next {db₀ : DB} (sh : DB) (p : Phase) (others : List Phase) (outcome : Outcome)
    (sh' : DB) (p' : Phase) (hfits : Fits sh p)
    (h : Claimed db₀ { shared := sh, calls := p :: others })
    (hnext : next sh others p outcome = some (sh', p')) :
    Claimed db₀ { shared := sh', calls := p' :: others } := by
  obtain ⟨hrunning, hchange⟩ := next_change hnext
  -- the creator has returned, so this step is not its own
  have hold : ∀ c ∈ sh.tables.channels, c ∈ db₀.tables.channels ∨
      ∃ q ∈ p' :: others, q.created = some c.dmPairKey := by
    intro c hc
    rcases h c hc with hinit | ⟨q, hq, hcreated⟩
    · exact Or.inl hinit
    · right
      rcases mem_cons.mp hq with rfl | hq
      · exfalso
        cases q with
        | returned call result => exact hrunning call result rfl
        | begun | missing | existing | inserted | joined => cases hcreated
      · exact ⟨q, mem_cons_of_mem _ hq, hcreated⟩
  rcases hchange.writes hfits with rfl | ⟨call, ch, rfl, rfl, htables⟩
  · exact hold
  · intro c hc
    have hc' : c ∈ (insertDMChannel sh.tables ch call.userID₁ call.userID₂).channels := by
      rw [← htables]
      exact hc
    rcases mem_append.mp hc' with hc' | hc'
    · exact hold c hc'
    · right
      refine ⟨_, mem_cons_self, ?_⟩
      rw [mem_singleton.mp hc', hfits.2.1]
      rfl

theorem channels_exec (hconsistent : Consistent db.tables) {evs : List Event}
    (hrun : Guarded step (Pool.Allows PlainCall NewIDs) (initial db) evs) :
    ChannelsInv (exec step (initial db) evs) ∧ Claimed db (exec step (initial db) evs) := by
  refine Pool.keeps_exec (J := fun s => ChannelsInv s ∧ Claimed db s) ?_ ?_ ?_ ?_ hrun
  · rintro sh l l' hperm ⟨hinv, hclaimed⟩
    refine ⟨Pool.Inv.perm Apart.symm sh l l' hperm hinv, ?_⟩
    intro c hc
    rcases hclaimed c hc with hinit | ⟨p, hp, hcreated⟩
    · exact Or.inl hinit
    · exact Or.inr ⟨p, hperm.mem_iff.mp hp, hcreated⟩
  · rintro sh calls call ⟨hinv, hclaimed⟩ hplain
    refine ⟨channelsInv_start sh calls call hinv hplain, ?_⟩
    intro c hc
    rcases hclaimed c hc with hinit | ⟨p, hp, hcreated⟩
    · exact Or.inl hinit
    · exact Or.inr ⟨p, mem_cons_of_mem _ hp, hcreated⟩
  · rintro sh p others outcome sh' p' ⟨hinv, hclaimed⟩ hnew hnext
    have hfits : Fits sh p := (hinv.each p mem_cons_self).2.2
    exact ⟨channelsInv_next sh p others outcome sh' p' hinv hnew hnext,
      claimed_next sh p others outcome sh' p' hfits hclaimed hnext⟩
  · exact ⟨Pool.Inv.init hconsistent, fun c hc => Or.inl hc⟩

/-! ## Section 7: One DM for a pair -/

/-- The call is about these two users, in either order. -/
def Phase.isFor (a b : ID) (p : Phase) : Prop := s(p.call.userID₁, p.call.userID₂) = s(a, b)

/-- What the call has returned. -/
def Phase.result : Phase → Option (Channel × Bool)
  | .returned _ (.ok r) => some r
  | _ => none

/-- The call has returned `created = true` to one of these two. -/
def Phase.createdFor (a b : ID) (p : Phase) : Bool :=
  s(p.call.userID₁, p.call.userID₂) = s(a, b) ∧ p.result.map (·.2) = some true

structure OneChannel (db₀ : DB) (s : State) (a b : ID) : Prop where
  /-- The two have at most one DM. -/
  unique : ∀ c ∈ s.shared.tables.channels, ∀ c' ∈ s.shared.tables.channels,
    Participants s.shared.tables c a b → Participants s.shared.tables c' a b → c = c'
  /-- All calls return it. -/
  returned : ∀ p ∈ s.calls, ∀ r, p.isFor a b → p.result = some r →
    r.1 ∈ s.shared.tables.channels ∧ Participants s.shared.tables r.1 a b
  /-- If they had none, one of the calls has created it. -/
  created : (∀ c ∈ db₀.tables.channels, ¬ Participants db₀.tables c a b) →
    (∃ p ∈ s.calls, p.isFor a b ∧ p.result ≠ none) → s.calls.countP (Phase.createdFor a b) = 1

section Pairs

theorem Participants.pair {t : Tables} (h : Participants t c a b) (h' : Participants t c u v) :
    s(a, b) = s(u, v) := by
  have hsame : ∀ id, (id = a ∨ id = b) ↔ (id = u ∨ id = v) :=
    fun id => (h id).symm.trans (h' id)
  have ha := (hsame a).mp (.inl rfl)
  have hb := (hsame b).mp (.inr rfl)
  have hu := (hsame u).mpr (.inl rfl)
  have hv := (hsame v).mpr (.inr rfl)
  grind

theorem Participants.swap {t : Tables} (h : Participants t c a b) (hpair : s(a, b) = s(u, v)) :
    Participants t c u v := by
  rcases Sym2.eq_iff.mp hpair with ⟨rfl, rfl⟩ | ⟨rfl, rfl⟩
  · exact h
  · intro id
    rw [h id]
    exact or_comm

theorem Consistent.participants (h : Consistent db.tables) (hc : c ∈ db.tables.channels)
    (hkey : c.dmPairKey = dmPairKey a b) : Participants db.tables c a b := by
  obtain ⟨u, v, hserves⟩ := h c hc
  exact hserves.participants.swap
    (dmPairKey_injective hserves.plain₁ hserves.plain₂ (hserves.key.symm.trans hkey))

theorem Consistent.key (h : Consistent db.tables) (hc : c ∈ db.tables.channels)
    (hparticipants : Participants db.tables c a b) : c.dmPairKey = dmPairKey a b := by
  obtain ⟨u, v, hserves⟩ := h c hc
  rw [hserves.key]
  exact dmPairKey_of_pair (hserves.participants.pair hparticipants)

theorem Fits.of_result {r : Channel × Bool} (h : Fits db p) (hr : p.result = some r) :
    r.1 ∈ db.tables.channels ∧ r.1.dmPairKey = p.call.pairKey := by
  cases p with
  | returned call result =>
    rcases result with e | r'
    · cases hr
    · cases hr
      exact h
  | begun | missing | existing | inserted | joined => cases hr

theorem created_iff {k : String} :
    p.created = some k ↔ p.result.map (·.2) = some true ∧ p.call.pairKey = k := by
  cases p with
  | returned call result =>
    rcases result with e | ⟨ch, created⟩
    · simp [Phase.created, Phase.result]
    · cases created with
      | false => simp [Phase.created, Phase.result]
      | true => simp [Phase.created, Phase.result, Phase.call]
  | begun | missing | existing | inserted | joined => simp [Phase.created, Phase.result]

theorem createdFor_le_one {s : State} (hinv : ChannelsInv s) :
    s.calls.countP (Phase.createdFor a b) ≤ 1 := by
  -- two creators of one key exclude each other
  refine Pool.countP_le_one (hinv.pairs.imp ?_)
  rintro p q hapart ⟨hp, hq⟩
  obtain ⟨hpairp, hp⟩ := of_decide_eq_true hp
  obtain ⟨hpairq, hq⟩ := of_decide_eq_true hq
  refine hapart.2 (dmPairKey a b) ?_ ?_
  · exact created_iff.mpr ⟨hp, dmPairKey_of_pair hpairp⟩
  · exact created_iff.mpr ⟨hq, dmPairKey_of_pair hpairq⟩

end Pairs

/-- However the calls run, the participants of every DM are the two users it is for, and
    every pair has one DM, which all its calls return and one has created. -/
theorem oneChannel_run {db : DB} (hconsistent : Consistent db.tables) {evs : List Event}
    (hrun : Guarded step (Pool.Allows PlainCall NewIDs) (initial db) evs) :
    Consistent (exec step (initial db) evs).shared.tables ∧
      ∀ a b, OneChannel db (exec step (initial db) evs) a b := by
  obtain ⟨hinv, hclaimed⟩ := channels_exec hconsistent hrun
  generalize exec step (initial db) evs = s at hinv hclaimed
  have hafter : Consistent s.shared.tables := hinv.shared
  have hreturned : ∀ a b, ∀ p ∈ s.calls, ∀ r, p.isFor a b → p.result = some r →
      r.1 ∈ s.shared.tables.channels ∧ r.1.dmPairKey = dmPairKey a b := by
    intro a b p hp r hfor hr
    obtain ⟨hmem, hkey⟩ := (hinv.each p hp).2.2.of_result hr
    exact ⟨hmem, hkey.trans (dmPairKey_of_pair hfor)⟩
  refine ⟨hafter, fun a b => ⟨?_, ?_, ?_⟩⟩
  · intro c hc c' hc' hpart hpart'
    refine eq_of_key s.shared.constraints.channelsPairKey hc hc' ?_
    exact (hafter.key hc hpart).trans (hafter.key hc' hpart').symm
  · intro p hp r hfor hr
    obtain ⟨hmem, hkey⟩ := hreturned a b p hp r hfor hr
    exact ⟨hmem, hafter.participants hmem hkey⟩
  · rintro hnone ⟨p, hp, hfor, hresult⟩
    obtain ⟨r, hr⟩ := ne_none_iff_exists'.mp hresult
    obtain ⟨hmem, hkey⟩ := hreturned a b p hp r hfor hr
    refine le_antisymm (createdFor_le_one hinv) ?_
    rcases hclaimed r.1 hmem with hinit | ⟨q, hq, hcreated⟩
    · exact absurd (hconsistent.participants hinit hkey) (hnone r.1 hinit)
    · obtain ⟨hanswer, hqkey⟩ := created_iff.mp hcreated
      obtain ⟨hplain₁, hplain₂, -⟩ := hinv.each q hq
      have hpair : s(q.call.userID₁, q.call.userID₂) = s(a, b) :=
        dmPairKey_injective hplain₁ hplain₂ (hqkey.trans hkey)
      exact countP_pos_iff.mpr ⟨q, hq, decide_eq_true ⟨hpair, hanswer⟩⟩

def twoUsers : DB := ⟨{ users := [{ id := "ann" }, { id := "bob" }] }, by decide +kernel⟩

/-- Neither of the two finds a DM, and Bob's insert has to wait for Ann's. -/
def bothOpen : List Event :=
  [.start { userID₁ := "ann", userID₂ := "bob" }, .start { userID₁ := "bob", userID₂ := "ann" },
    .advance 0 {}, .advance 1 {}, .advance 0 { newID := "d1" }, .advance 1 { newID := "d2" },
    .advance 0 {}, .advance 0 {}, .advance 1 { newID := "d3" }, .advance 1 {}]

theorem oneChannel_run_bothOpen :
    (exec step (initial twoUsers) bothOpen).calls.countP (Phase.createdFor "bob" "ann") =
      1 := by
  have hconsistent : Consistent twoUsers.tables := by
    intro c hc
    cases hc
  have hone := (oneChannel_run hconsistent
    (by decide +kernel : Guarded step (Pool.Allows PlainCall NewIDs) (initial twoUsers)
      bothOpen)).2 "bob" "ann"
  refine hone.created ?_ ?_
  · intro c hc
    cases hc
  · refine ⟨.returned { userID₁ := "bob", userID₂ := "ann" }
      (.ok ({ id := "d1", dmPairKey := "ann:bob" }, false)), ?_, rfl, ?_⟩
    · decide +kernel
    · exact some_ne_none _

end Meza.Social.DirectChannels
