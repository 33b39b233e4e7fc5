import Meza.Chat.Messages

/-! # Who reads what

    Every request of `Messages` checks access in its own way. This module says
    for each of them, in terms of the tables alone, which messages its answer
    holds, and compares that with who may read them: the participants of a DM,
    and the members of a server whose mask has ViewChannel and
    ReadMessageHistory. -/

namespace Meza.Chat

open Store Permissions Action MessageStore List ChatStore Table

/-! ## Section 1: Steps that change nothing but the cache -/

/-- The mask that `resolvePermissions` serves has the permission. -/
def Served (s : ChatState) (userID serverID channelID : ID) (perm : Mask) : Prop :=
  ∃ perms, result (resolvePermissions userID serverID channelID) s = .ok perms ∧
    has perms perm = true

/-- The same tables and the same masks for everybody. -/
structure SameServed (s s' : ChatState) : Prop where
  db : s'.db = s.db
  now : s'.now = s.now
  served : ∀ userID serverID channelID,
    result (resolvePermissions userID serverID channelID) s' =
      result (resolvePermissions userID serverID channelID) s

theorem SameServed.refl (s : ChatState) : SameServed s s := ⟨rfl, rfl, fun _ _ _ => rfl⟩

/-- The mask of a key: from the cache, or else computed. -/
def servedMask (s : ChatState) (key : CacheKey) : Except ConnectError Mask :=
  match s.cache.get s.now key with
  | some cached => .ok cached
  | none => orElse internalError (computePermissions s.db.tables s.now key)

theorem result_eq_servedMask (s : ChatState) (userID serverID channelID : ID) :
    result (resolvePermissions userID serverID channelID) s =
      servedMask s { userID, serverID, channelID } := by
  unfold result resolvePermissions update servedMask
  dsimp only
  rcases s.cache.get s.now { userID, serverID, channelID } with _ | cached
  · rcases computePermissions s.db.tables s.now { userID, serverID, channelID } with e | perms
    · rfl
    · rfl
  · rfl

section Steps

variable {s s' : ChatState} {userID serverID : ID}

theorem resolvePermissions_same {perms : Mask}
    (h : resolvePermissions userID serverID channelID s = .ok perms s') : SameServed s s' := by
  unfold resolvePermissions update at h
  dsimp only at h
  rcases hget : s.cache.get s.now { userID, serverID, channelID } with _ | cached
  · rw [hget] at h
    rcases hcompute : computePermissions s.db.tables s.now { userID, serverID, channelID } with
      e | mask
    · rw [hcompute] at h
      cases h
    · rw [hcompute] at h
      injection h with _ h
      subst h
      refine ⟨rfl, rfl, ?_⟩
      intro userID' serverID' channelID'
      rw [result_eq_servedMask, result_eq_servedMask]
      unfold servedMask
      rw [Cache.get_set]
      split
      · rename_i cached hcached
        split at hcached
        · rename_i hkey
          injection hcached with hcached
          rw [hkey, hget, hcompute, ← hcached]
          rfl
        · rw [hcached]
      · rename_i hnone
        split at hnone
        · cases hnone
        · rw [hnone]
  · rw [hget] at h
    injection h with _ h
    rw [← h]
    exact .refl s

theorem served_iff {perm : Mask} :
    Served s userID serverID channelID perm ↔
      ∃ perms s₁, resolvePermissions userID serverID channelID s = .ok perms s₁ ∧
        has perms perm = true := by
  constructor
  · intro h
    obtain ⟨perms, hperms, hhas⟩ := h
    obtain ⟨s₁, hrun⟩ := result_ok.mp hperms
    exact ⟨perms, s₁, hrun, hhas⟩
  · intro h
    obtain ⟨perms, s₁, hrun, hhas⟩ := h
    exact ⟨perms, result_ok.mpr ⟨s₁, hrun⟩, hhas⟩

theorem SameServed.iff (h : SameServed s s') {perm : Mask} :
    Served s' userID serverID channelID perm ↔ Served s userID serverID channelID perm := by
  unfold Served
  rw [h.served]

theorem Served.and {p q : Mask} (hp : Served s userID serverID channelID p)
    (hq : Served s userID serverID channelID q) :
    ∃ perms s₁, resolvePermissions userID serverID channelID s = .ok perms s₁ ∧
      has perms p = true ∧ has perms q = true := by
  obtain ⟨perms, s₁, hrun, hp⟩ := served_iff.mp hp
  obtain ⟨perms', hperms', hq⟩ := hq
  obtain ⟨s₂, hrun'⟩ := result_ok.mp hperms'
  rw [hrun] at hrun'
  injection hrun' with hperms _
  rw [← hperms] at hq
  exact ⟨perms, s₁, hrun, hp, hq⟩

end Steps

/-! ## Section 2: The gates -/

/-- The check of `getChannelAndCheckMembership`. -/
def Belongs (t : Tables) (c : Channel) (userID : ID) : Prop :=
  if c.type ∈ [3, 4] then isChannelMember t c.id userID = true
  else ∃ serverID ∈ c.serverID, isMember t userID serverID = true

/-- The check of `requireChannelAccess` in a server. -/
def Enters (s : ChatState) (c : Channel) (serverID userID : ID) : Prop :=
  if c.isPrivate then requirePrivateAccess s.db.tables c serverID userID = .ok ()
  else Served s userID serverID c.id viewChannel

/-- What the rules of a server say about a reader. -/
def RulesAnswer (t : Tables) (userID serverID : ID) (acknowledged : Bool) : Prop :=
  ∃ srv, getServer t serverID = .ok srv ∧
    checkRulesAcknowledged t userID serverID srv.rulesRequired = .ok acknowledged

/-- The two checks before the history of a channel. -/
def Admits (s : ChatState) (c : Channel) (userID : ID) (acknowledged : Bool) : Prop :=
  match c.serverID with
  | none => acknowledged = true
  | some serverID => Enters s c serverID userID ∧ Served s userID serverID c.id viewChannel ∧
      Served s userID serverID c.id readMessageHistory ∧
      RulesAnswer s.db.tables userID serverID acknowledged

variable {channelID : ID} {t : Tables}

section Gates

variable {s s' : ChatState} {c : Channel} {userID : ID}

theorem requireChannelAccess_ok :
    (∃ s₁, requireChannelAccess c userID s = .ok () s₁) ↔
      ∀ serverID ∈ c.serverID, Enters s c serverID userID := by
  have hsucceeds : succeeds (requireChannelAccess c userID) s = true ↔
      ∃ s₁, requireChannelAccess c userID s = .ok () s₁ := by
    rw [succeeds_iff]
    exact ⟨fun ⟨_, s₁, h⟩ => ⟨s₁, h⟩, fun ⟨s₁, h⟩ => ⟨(), s₁, h⟩⟩
  rw [← hsucceeds]
  rcases hserver : c.serverID with _ | serverID
  · refine iff_of_true ?_ (fun _ h => nomatch h)
    unfold requireChannelAccess
    rw [hserver]
    rfl
  · rw [succeeds_requireChannelAccess hserver]
    simp only [Option.mem_some, forall_eq']
    rfl

theorem requireChannelAccess_same (h : requireChannelAccess c userID s = .ok () s') :
    SameServed s s' := by
  unfold requireChannelAccess at h
  rcases hserver : c.serverID with _ | serverID
  · rw [hserver] at h
    rw [(pure_ok.mp h).2]
    exact .refl s
  · rw [hserver] at h
    rcases hprivate : c.isPrivate with _ | _
    · rw [hprivate] at h
      obtain ⟨perms, s₁, hrun, h⟩ := bind_ok.mp h
      rw [(reject_ok.mp h).2]
      exact resolvePermissions_same hrun
    · rw [hprivate] at h
      dsimp only at h
      rw [if_pos rfl] at h
      rw [(require_ok.mp h).2]
      exact .refl s

theorem requireHistory_ok {acknowledged : Bool} :
    (∃ s₁, requireHistory c userID s = .ok acknowledged s₁) ↔
      match c.serverID with
      | none => acknowledged = true
      | some serverID => Served s userID serverID c.id viewChannel ∧
          Served s userID serverID c.id readMessageHistory ∧
          RulesAnswer s.db.tables userID serverID acknowledged := by
  unfold requireHistory
  rcases c.serverID with _ | serverID
  · simp only [pure_ok]
    exact ⟨fun ⟨_, h, _⟩ => h, fun h => ⟨s, h, rfl⟩⟩
  · simp only [bind_ok, require_ok, reject_ok]
    constructor
    · intro h
      obtain ⟨s₁, srv, _, ⟨hsrv, rfl⟩, perms, s₂, hrun, _, s₃, ⟨hview, rfl⟩, _, _, ⟨hread, rfl⟩,
        hrules, -⟩ := h
      have hsame := resolvePermissions_same hrun
      rw [hsame.db] at hrules
      exact ⟨served_iff.mpr ⟨perms, _, hrun, by simpa using hview⟩,
        served_iff.mpr ⟨perms, _, hrun, by simpa using hread⟩, srv, orElse_ok.mp hsrv, hrules⟩
    · intro h
      obtain ⟨hview, hread, srv, hsrv, hrules⟩ := h
      obtain ⟨perms, s₁, hrun, hview, hread⟩ := hview.and hread
      have hsame := resolvePermissions_same hrun
      refine ⟨s₁, srv, s, ⟨orElse_ok.mpr hsrv, rfl⟩, perms, s₁, hrun, (), s₁,
        ⟨by simpa using hview, rfl⟩, (), s₁, ⟨by simpa using hread, rfl⟩, ?_, rfl⟩
      rw [hsame.db]
      exact hrules

/-- **The gate before the history**: both checks, as the tables and masks are
    before the request. -/
theorem admits_iff {acknowledged : Bool} :
    (∃ s₁ s₂, requireChannelAccess c userID s = .ok () s₁ ∧
        requireHistory c userID s₁ = .ok acknowledged s₂) ↔
      Admits s c userID acknowledged := by
  have hhistory : ∀ s₁, SameServed s s₁ →
      ((∃ s₂, requireHistory c userID s₁ = .ok acknowledged s₂) ↔
        ∃ s₂, requireHistory c userID s = .ok acknowledged s₂) := by
    intro s₁ hsame
    rw [requireHistory_ok, requireHistory_ok]
    rcases c.serverID with _ | serverID
    · rfl
    · dsimp only
      rw [hsame.iff, hsame.iff, hsame.db]
  have hsplit : (∃ s₁ s₂, requireChannelAccess c userID s = .ok () s₁ ∧
        requireHistory c userID s₁ = .ok acknowledged s₂) ↔
      (∃ s₁, requireChannelAccess c userID s = .ok () s₁) ∧
        ∃ s₂, requireHistory c userID s = .ok acknowledged s₂ := by
    constructor
    · intro h
      obtain ⟨s₁, s₂, haccess, hrun⟩ := h
      exact ⟨⟨s₁, haccess⟩, (hhistory s₁ (requireChannelAccess_same haccess)).mp ⟨s₂, hrun⟩⟩
    · intro h
      obtain ⟨⟨s₁, haccess⟩, hrun⟩ := h
      obtain ⟨s₂, hrun⟩ := (hhistory s₁ (requireChannelAccess_same haccess)).mpr hrun
      exact ⟨s₁, s₂, haccess, hrun⟩
  rw [hsplit, requireChannelAccess_ok, requireHistory_ok]
  unfold Admits
  rcases c.serverID with _ | serverID
  · simp
  · simp

theorem getChannelAndCheckMembership_ok {isMember : Bool} :
    ChatStore.getChannelAndCheckMembership t channelID userID = .ok (c, isMember) ↔
      lookup Channel.id channelID t.channels = some c ∧ (isMember = true ↔ Belongs t c userID) := by
  have hany : ∀ d : Channel, (t.members.any fun m =>
      m.userID = userID ∧ d.serverID = some m.serverID) = true ↔
        ∃ serverID ∈ d.serverID, ChatStore.isMember t userID serverID = true := by
    intro d
    simp only [List.any_eq_true, decide_eq_true_eq, ChatStore.isMember_iff, Option.mem_def]
    constructor
    · intro h
      obtain ⟨m, hm, huser, hserver⟩ := h
      exact ⟨m.serverID, hserver, m, hm, by rw [Member.key, huser]⟩
    · intro h
      obtain ⟨serverID, hserver, m, hm, hkey⟩ := h
      obtain ⟨huser, hid⟩ := Prod.mk.inj hkey
      exact ⟨m, hm, huser, by rw [hserver, hid]⟩
  have hbelongs : ∀ d : Channel, ((if d.type ∈ [3, 4] then
        (pure (d, isChannelMember t d.id userID) : Except StoreError (Channel × Bool))
      else pure (d, t.members.any fun m => m.userID = userID ∧ d.serverID = some m.serverID)) =
        .ok (c, isMember)) ↔ d = c ∧ (isMember = true ↔ Belongs t c userID) := by
    intro d
    unfold Belongs
    by_cases htype : d.type ∈ [3, 4]
    · rw [if_pos htype]
      simp only [pure, Except.pure, Except.ok.injEq, Prod.mk.injEq]
      constructor
      · intro h
        obtain ⟨rfl, rfl⟩ := h
        exact ⟨rfl, by rw [if_pos htype]⟩
      · intro h
        obtain ⟨rfl, h⟩ := h
        rw [if_pos htype] at h
        exact ⟨rfl, (Bool.eq_iff_iff.mpr h).symm⟩
    · rw [if_neg htype]
      simp only [pure, Except.pure, Except.ok.injEq, Prod.mk.injEq]
      constructor
      · intro h
        obtain ⟨rfl, rfl⟩ := h
        exact ⟨rfl, by rw [if_neg htype, hany]⟩
      · intro h
        obtain ⟨rfl, h⟩ := h
        rw [if_neg htype, ← hany] at h
        exact ⟨rfl, (Bool.eq_iff_iff.mpr h).symm⟩
  unfold ChatStore.getChannelAndCheckMembership
  rw [bind_eq_ok]
  simp only [oneRow_ok, hbelongs]
  constructor
  · intro h
    obtain ⟨d, hd, rfl, h⟩ := h
    exact ⟨hd, h⟩
  · intro h
    exact ⟨c, h.1, rfl, h.2⟩

theorem requireBelonging_ok {missing : ConnectError} {code : Code} {message : String} :
    requireBelonging missing code message t channelID userID = .ok c ↔
      lookup Channel.id channelID t.channels = some c ∧ Belongs t c userID := by
  unfold requireBelonging
  rw [bind_eq_ok]
  constructor
  · intro h
    obtain ⟨⟨d, isMember⟩, hfound, h⟩ := h
    obtain ⟨_, hmember, h⟩ := bind_eq_ok.mp h
    injection h with h
    subst h
    obtain ⟨hd, hiff⟩ := getChannelAndCheckMembership_ok.mp (orElse_ok.mp hfound)
    exact ⟨hd, hiff.mp (by simpa using rejectIf_ok.mp hmember)⟩
  · intro h
    refine ⟨(c, true), orElse_ok.mpr (getChannelAndCheckMembership_ok.mpr ⟨h.1, ?_⟩), ?_⟩
    · exact iff_of_true rfl h.2
    · rfl

end Gates

/-! ## Section 3: What the answers hold -/

/-- How often a request was counted in its window. -/
def hits (s : MessagingState) (key : RateKey) : Nat :=
  ((s.rates.find? fun r => r.key = key ∧ s.chat.now < r.expiresAt).map (·.count)).getD 0

/-- The state after one more. -/
def countedHit (s : MessagingState) (key : RateKey) (window : Int) : MessagingState :=
  let live := s.rates.find? fun r => r.key = key ∧ s.chat.now < r.expiresAt
  { s with
    rates := { key, count := hits s key + 1,
               expiresAt := (live.map (·.expiresAt)).getD (s.chat.now + window) } ::
      s.rates.filter (·.key ≠ key) }

/-- What an answer holds; an error holds nothing. -/
def answered {α : Type} (x : Messaging α) (f : α → List Message) (s : MessagingState) :
    List Message :=
  match result x s with
  | .ok a => f a
  | .error _ => []

section Answers

variable {α : Type} {s s' : MessagingState} {userID : ID} {m : Message}

theorem mem_answered {x : Messaging α} {f : α → List Message} :
    m ∈ answered x f s ↔ ∃ a s', x s = .ok a s' ∧ m ∈ f a := by
  unfold answered result
  rcases x s with ⟨a, s'⟩ | ⟨e, s'⟩
  · simp
  · simp

theorem onChat_ok {x : Handler α} {a : α} :
    onChat x s = .ok a s' ↔ ∃ chat, x s.chat = .ok a chat ∧ s' = { s with chat } := by
  unfold onChat
  rcases x s.chat with ⟨b, chat⟩ | ⟨e, chat⟩
  · simp [eq_comm]
  · simp

variable {c : Channel}

section Rules

variable {β : Type} {k : α → Messaging β} {f : β → List Message}

theorem mem_answered_bind {x : Messaging α} :
    m ∈ answered (x >>= k) f s ↔ ∃ a s₁, x s = .ok a s₁ ∧ m ∈ answered (k a) f s₁ := by
  simp only [mem_answered, bind_ok]
  constructor
  · intro h
    obtain ⟨b, s', ⟨a, s₁, hx, hk⟩, hm⟩ := h
    exact ⟨a, s₁, hx, b, s', hk, hm⟩
  · intro h
    obtain ⟨a, s₁, hx, b, s', hk, hm⟩ := h
    exact ⟨b, s', ⟨a, s₁, hx, hk⟩, hm⟩

theorem mem_answered_pure {b : β} : m ∈ answered (pure b) f s ↔ m ∈ f b := by
  rw [mem_answered]
  simp [pure_ok]

theorem mem_answered_check {g : MessagingState → Except ConnectError α} :
    m ∈ answered (check g >>= k) f s ↔ ∃ a, g s = .ok a ∧ m ∈ answered (k a) f s := by
  rw [mem_answered_bind]
  simp only [check_ok]
  constructor
  · intro h
    obtain ⟨a, _, ⟨hg, rfl⟩, hm⟩ := h
    exact ⟨a, hg, hm⟩
  · intro h
    obtain ⟨a, hg, hm⟩ := h
    exact ⟨a, s, ⟨hg, rfl⟩, hm⟩

theorem mem_answered_query {g : MessagingState → α} :
    m ∈ answered (query g >>= k) f s ↔ m ∈ answered (k (g s)) f s := by
  unfold query
  rw [mem_answered_check]
  simp

theorem mem_answered_require {g : Tables → Except ConnectError α} :
    m ∈ answered (onChat (require g) >>= k) f s ↔
      ∃ a, g s.chat.db.tables = .ok a ∧ m ∈ answered (k a) f s := by
  rw [mem_answered_bind]
  simp only [onChat_ok, require_ok]
  constructor
  · intro h
    obtain ⟨a, _, ⟨chat, ⟨hg, rfl⟩, rfl⟩, hm⟩ := h
    exact ⟨a, hg, hm⟩
  · intro h
    obtain ⟨a, hg, hm⟩ := h
    exact ⟨a, s, ⟨s.chat, ⟨hg, rfl⟩, rfl⟩, hm⟩

theorem mem_answered_reject {cond : Prop} [Decidable cond] {code : Code} {message : String}
    {k : Unit → Messaging β} :
    m ∈ answered (onChat (reject cond code message) >>= k) f s ↔
      ¬ cond ∧ m ∈ answered (k ()) f s := by
  unfold reject
  rw [mem_answered_require]
  simp only [rejectIf_ok]
  constructor
  · intro h
    obtain ⟨_, hcond, hm⟩ := h
    exact ⟨hcond, hm⟩
  · intro h
    exact ⟨(), h.1, h.2⟩

theorem mem_answered_authenticate {k : ID → Messaging β} :
    m ∈ answered (onChat (require fun _ => authenticate (some userID)) >>= k) f s ↔
      m ∈ answered (k userID) f s := by
  rw [mem_answered_require]
  simp [authenticate]

theorem mem_answered_onChat {x : Handler α} {P : α → Prop}
    (hk : ∀ a chat, m ∈ answered (k a) f { s with chat } ↔ P a) :
    m ∈ answered (onChat x >>= k) f s ↔ ∃ a, (∃ chat, x s.chat = .ok a chat) ∧ P a := by
  rw [mem_answered_bind]
  simp only [onChat_ok]
  constructor
  · intro h
    obtain ⟨a, _, ⟨chat, hx, rfl⟩, hm⟩ := h
    exact ⟨a, ⟨chat, hx⟩, (hk a chat).mp hm⟩
  · intro h
    obtain ⟨a, ⟨chat, hx⟩, hP⟩ := h
    exact ⟨a, _, ⟨chat, hx, rfl⟩, (hk a chat).mpr hP⟩

theorem mem_answered_gate {body : Messaging β} {b : β} {P : Prop} (hb : f b = [])
    (hbody : ∀ chat, m ∈ answered body f { s with chat } ↔ P) :
    m ∈ answered (onChat (requireChannelAccess c userID) >>= fun _ =>
        onChat (requireHistory c userID) >>= fun acknowledged =>
          if acknowledged then body else pure b) f s ↔
      Admits s.chat c userID true ∧ P := by
  simp only [onChat_ok, mem_answered_bind]
  constructor
  · intro h
    obtain ⟨_, _, ⟨chat₁, haccess, rfl⟩, acknowledged, _, ⟨chat₂, hhistory, rfl⟩, hm⟩ := h
    rcases acknowledged with _ | _
    · rw [if_neg Bool.false_ne_true, mem_answered_pure, hb] at hm
      cases hm
    · rw [if_pos rfl] at hm
      exact ⟨admits_iff.mp ⟨chat₁, chat₂, haccess, hhistory⟩, (hbody chat₂).mp hm⟩
  · intro h
    obtain ⟨hadmits, hP⟩ := h
    obtain ⟨chat₁, chat₂, haccess, hhistory⟩ := admits_iff.mpr hadmits
    refine ⟨(), _, ⟨chat₁, haccess, rfl⟩, true, _, ⟨chat₂, hhistory, rfl⟩, ?_⟩
    exact (hbody chat₂).mpr hP

theorem mem_answered_modify {g : MessagingState → MessagingState} {k : Unit → Messaging β} :
    m ∈ answered (Action.modify g >>= k) f s ↔ m ∈ answered (k ()) f (g s) := by
  rw [mem_answered_bind]
  unfold Action.modify
  simp only [EStateM.Result.ok.injEq]
  exact ⟨fun ⟨_, _, ⟨_, hs⟩, hm⟩ => hs ▸ hm, fun hm => ⟨(), _, ⟨trivial, rfl⟩, hm⟩⟩

theorem mem_answered_update {g : MessagingState → Except ConnectError (β × MessagingState)} :
    m ∈ answered (update g) f s ↔ ∃ b s', g s = .ok (b, s') ∧ m ∈ f b := by
  rw [mem_answered]
  unfold update
  rcases g s with e | ⟨b, s₁⟩
  · simp
  · simp

theorem mem_answered_countHit {key : RateKey} {window : Int} {k : Nat → Messaging β} :
    m ∈ answered (countHit key window >>= k) f s ↔
      m ∈ answered (k (hits s key + 1)) f (countedHit s key window) := by
  rw [mem_answered_bind]
  constructor
  · intro h
    obtain ⟨a, s₁, hrun, hm⟩ := h
    injection hrun with ha hs
    subst ha hs
    exact hm
  · intro h
    exact ⟨_, _, rfl, h⟩

end Rules

theorem mem_getMessages {req : GetMessagesRequest} :
    m ∈ answered (getMessages (some userID) req) (·.messages) s ↔
      req.channelID ≠ "" ∧
        ∃ c, (lookup Channel.id req.channelID s.chat.db.tables.channels = some c ∧
            Belongs s.chat.db.tables c userID) ∧
          Admits s.chat c userID true ∧ cursorCount req ≤ 1 ∧
          m ∈ (MessageStore.getMessages s.archive req.channelID req.toGetMessagesOpts).1 := by
  unfold getMessages requireParticipant
  rw [mem_answered_authenticate, mem_answered_reject, mem_answered_require]
  simp only [requireBelonging_ok]
  refine and_congr_right fun _ => exists_congr fun c => and_congr_right fun _ =>
    mem_answered_gate rfl ?_
  intro chat
  rw [mem_answered_reject, mem_answered_query, mem_answered_pure, Nat.not_lt]

theorem mem_searchMessages {req : SearchMessagesRequest} :
    m ∈ answered (searchMessages (some userID) req) (·.messages) s ↔
      hits s (.search userID) < 5 ∧ req.opts.channelID ≠ "" ∧
        ∃ c, (lookup Channel.id req.opts.channelID s.chat.db.tables.channels = some c ∧
            Belongs s.chat.db.tables c userID) ∧
          Admits s.chat c userID true ∧
          (req.opts.beforeID = "" ∨ validULID req.opts.beforeID = true) ∧
          (req.opts.afterID = "" ∨ validULID req.opts.afterID = true) ∧
          m ∈ (MessageStore.searchMessages s.archive req.opts).1 := by
  unfold searchMessages requireParticipant
  rw [mem_answered_authenticate, mem_answered_countHit, mem_answered_reject, mem_answered_reject,
    mem_answered_require]
  simp only [requireBelonging_ok, Nat.not_lt, Nat.succ_le_iff]
  refine and_congr_right fun _ => and_congr_right fun _ => exists_congr fun c =>
    and_congr_right fun _ => mem_answered_gate rfl ?_
  intro chat
  rw [mem_answered_reject, mem_answered_reject, mem_answered_query, mem_answered_pure]
  simp only [not_and, not_not, ne_eq, or_iff_not_imp_left]
  rfl

theorem requireMembership_ok {serverID : ID} {u : Unit} :
    requireMembership t userID serverID = .ok u ↔
      (serverID ≠ "" → isMember t userID serverID = true) := by
  unfold requireMembership
  rw [rejectIf_ok]
  simp

theorem requireChannel_ok :
    requireChannel t channelID = .ok c ↔ lookup Channel.id channelID t.channels = some c := by
  unfold requireChannel getChannel
  rw [orElse_ok, oneRow_ok]

theorem mem_getMessagesByIDs {req : GetMessagesByIDsRequest} :
    m ∈ answered (getMessagesByIDs (some userID) req) (·.messages) s ↔
      req.channelID ≠ "" ∧ req.messageIDs.length ≤ 50 ∧
        ∃ c, lookup Channel.id req.channelID s.chat.db.tables.channels = some c ∧
          (c.serverID.getD "" ≠ "" →
            ChatStore.isMember s.chat.db.tables userID (c.serverID.getD "") = true) ∧
          Admits s.chat c userID true ∧
          m ∈ MessageStore.getMessagesByIDs s.archive req.channelID req.messageIDs ∧
          m.deleted = false := by
  unfold getMessagesByIDs
  rw [mem_answered_authenticate, mem_answered_reject]
  refine and_congr_right fun _ => ?_
  by_cases hempty : req.messageIDs = []
  · -- nothing is asked for, and nothing would be found
    rw [if_pos hempty, mem_answered_pure]
    refine iff_of_false List.not_mem_nil ?_
    intro h
    obtain ⟨-, c, -, -, -, hm, -⟩ := h
    rw [hempty] at hm
    exact absurd (of_decide_eq_true (List.mem_filter.mp hm).2).2 List.not_mem_nil
  · rw [if_neg hempty, mem_answered_reject, mem_answered_require]
    simp only [mem_answered_require, requireMembership_ok, requireChannel_ok, Nat.not_lt]
    refine and_congr_right fun _ => exists_congr fun c => and_congr_right fun _ => ?_
    rw [exists_const]
    refine and_congr_right fun _ => mem_answered_gate rfl ?_
    intro chat
    rw [mem_answered_query, mem_answered_pure, List.mem_filter, Bool.not_eq_true']

/-- The pins of a channel; there is no check of the history. -/
theorem mem_getPinnedMessages {clock : Int} {parseTime : String → Option Int}
    {req : GetPinnedMessagesRequest} :
    m ∈ answered (getPinnedMessages clock parseTime (some userID) req)
        (fun r => r.pinnedMessages.map (·.message)) s ↔
      req.channelID ≠ "" ∧
        ∃ c, (lookup Channel.id req.channelID s.chat.db.tables.channels = some c ∧
            Belongs s.chat.db.tables c userID) ∧
          (∀ serverID ∈ c.serverID, Enters s.chat c serverID userID) ∧
          ∃ before, pinCursor clock parseTime req.before = .ok before ∧
            ∃ p ∈ (pinPage s.archive req.channelID before
                (pageLimit 50 100 req.limit)).take
                  (pageLimit 50 100 req.limit),
              ∃ info, pinned s.archive p = some info ∧ info.message = m := by
  unfold getPinnedMessages requireParticipant
  rw [mem_answered_authenticate, mem_answered_reject, mem_answered_require]
  simp only [requireBelonging_ok]
  refine and_congr_right fun _ => exists_congr fun c => and_congr_right fun _ => ?_
  rw [← requireChannelAccess_ok, mem_answered_onChat (P := fun _ =>
    ∃ before, pinCursor clock parseTime req.before = .ok before ∧
      ∃ p ∈ (pinPage s.archive req.channelID before
          (pageLimit 50 100 req.limit)).take
            (pageLimit 50 100 req.limit),
        ∃ info, pinned s.archive p = some info ∧ info.message = m)]
  · constructor
    · intro h
      obtain ⟨_, hrun, hP⟩ := h
      exact ⟨hrun, hP⟩
    · intro h
      exact ⟨(), h.1, h.2⟩
  · intro _ chat
    rw [mem_answered_check]
    refine exists_congr fun before => and_congr_right fun _ => ?_
    rw [mem_answered_query, mem_answered_modify, mem_answered_pure, mem_map]
    simp only [mem_filterMap]
    constructor
    · intro h
      obtain ⟨info, ⟨p, hp, hinfo⟩, hm⟩ := h
      exact ⟨p, hp, info, hinfo, hm⟩
    · intro h
      obtain ⟨p, hp, info, hinfo, hm⟩ := h
      exact ⟨info, ⟨p, hp, hinfo⟩, hm⟩

theorem requireLiveMessage_ok {a : Archive} {messageID : ID} :
    requireLiveMessage a channelID messageID = .ok m ↔
      getMessage a channelID messageID = some m ∧ m.deleted = false := by
  unfold requireLiveMessage
  rcases getMessage a channelID messageID with _ | msg
  · simp
  · dsimp only
    rw [map_eq_ok]
    simp only [rejectIf_ok, Option.some.injEq]
    constructor
    · intro h
      obtain ⟨_, hlive, rfl⟩ := h
      exact ⟨rfl, by simpa using hlive⟩
    · intro h
      obtain ⟨rfl, hlive⟩ := h
      exact ⟨(), by simp [hlive], rfl⟩

theorem requirePinRights_ok {chat : ChatState} :
    (∃ chat', requirePinRights c m userID chat = .ok () chat') ↔
      m.authorID = userID ∨
        ∀ serverID ∈ c.serverID, Served chat userID serverID c.id manageMessages := by
  unfold requirePinRights
  by_cases hauthor : m.authorID = userID
  · rw [if_pos hauthor]
    exact iff_of_true ⟨chat, rfl⟩ (.inl hauthor)
  · rw [if_neg hauthor, or_iff_right hauthor]
    rcases c.serverID with _ | serverID
    · exact iff_of_true ⟨chat, rfl⟩ (fun _ h => nomatch h)
    · simp only [Option.mem_some, forall_eq', served_iff, bind_ok, reject_ok]
      constructor
      · intro h
        obtain ⟨chat', perms, chat₁, hrun, hhas, -⟩ := h
        exact ⟨perms, chat₁, hrun, by simpa using hhas⟩
      · intro h
        obtain ⟨perms, chat₁, hrun, hhas⟩ := h
        exact ⟨chat₁, perms, chat₁, hrun, by simpa using hhas, rfl⟩

/-- A message that is pinned; there is no check of access or history. -/
theorem mem_pinMessage {clock : Int} {req : PinMessageRequest} :
    m ∈ answered (pinMessage clock (some userID) req) (fun info => [info.message]) s ↔
      ¬ (req.channelID = "" ∨ req.messageID = "") ∧
        ∃ c, (lookup Channel.id req.channelID s.chat.db.tables.channels = some c ∧
            Belongs s.chat.db.tables c userID) ∧
          (MessageStore.getMessage s.archive req.channelID req.messageID = some m ∧
            m.deleted = false) ∧
          (m.authorID = userID ∨
            ∀ serverID ∈ c.serverID, Served s.chat userID serverID c.id manageMessages) := by
  unfold pinMessage requireParticipant
  rw [mem_answered_authenticate, mem_answered_reject, mem_answered_require]
  simp only [requireBelonging_ok]
  refine and_congr_right fun _ => exists_congr fun c => and_congr_right fun _ => ?_
  rw [mem_answered_check]
  simp only [requireLiveMessage_ok]
  have hpin : ∀ msg : Message, m ∈ answered (do
      onChat (requirePinRights c msg userID)
      Action.modify fun s => { s with
        archive := PinStore.pinMessage s.archive clock req.channelID req.messageID userID }
      return ({ message := msg, pinnedBy := userID, pinnedAt := clock } : PinInfo))
        (fun info => [info.message]) s ↔
      (∃ chat', requirePinRights c msg userID s.chat = .ok () chat') ∧ msg = m := by
    intro msg
    rw [mem_answered_onChat (P := fun _ => msg = m)]
    · constructor
      · intro h
        obtain ⟨_, hrun, hP⟩ := h
        exact ⟨hrun, hP⟩
      · intro h
        exact ⟨(), h.1, h.2⟩
    · intro _ chat
      rw [mem_answered_modify, mem_answered_pure, List.mem_singleton]
      exact eq_comm
  constructor
  · intro h
    obtain ⟨msg, hmsg, hm⟩ := h
    obtain ⟨hrights, rfl⟩ := (hpin msg).mp hm
    exact ⟨hmsg, requirePinRights_ok.mp hrights⟩
  · intro h
    exact ⟨m, h.1, (hpin m).mpr ⟨requirePinRights_ok.mpr h.2, rfl⟩⟩

/-- The messages whose text the snapshot of a report holds. -/
def reported (a : Archive) (r : Report) : List Message :=
  ((getMessage a r.targetChannelID r.targetMessageID).filter fun m =>
    m.deleted = false ∧ m.keyVersion = 0).toList

/-- A report of the message is accepted: it has somebody else as its target, is
    within the limits and the first of its kind. -/
structure Accepts (s : MessagingState) (userID : ID) (m : Message) : Prop where
  target : (reportTarget s m m.authorID).userID ∉ ["", userID, systemUserID]
  global : hits s (.reportGlobal userID) < 20
  pair : hits s (.reportPair userID (reportTarget s m m.authorID).userID) < 5
  known : (reportTarget s m m.authorID).userID ∈ s.chat.db.tables.users.map (·.id)
  reporter : userID ∈ s.chat.db.tables.users.map (·.id)
  first : ¬ ∃ r ∈ s.reports, r.reporterID = userID ∧ r.targetMessageID = m.messageID ∧
    r.isOpen = true

theorem hits_countedHit {key key' : RateKey} {window : Int} (hne : key' ≠ key) :
    hits (countedHit s key window) key' = hits s key' := by
  unfold hits countedHit
  rw [find?_cons]
  have hfirst : ¬ key = key' := fun h => hne h.symm
  simp only [hfirst, false_and, decide_false]
  rw [find?_filter]
  congr 3
  funext r
  by_cases hr : r.key = key'
  · simp [hr, hne]
  · simp [hr]

theorem createReport_ok {report r : Report} {s' : MessagingState} :
    createReport s report = .ok (r, s') ↔
      (report.targetUserID ∈ s.chat.db.tables.users.map (·.id) ∧
        report.reporterID ∈ s.chat.db.tables.users.map (·.id)) ∧
      (¬ ∃ old ∈ s.reports, old.reporterID = report.reporterID ∧
        old.targetMessageID = report.targetMessageID ∧ old.isOpen = true) ∧
      r = report ∧ s' = { s with reports := s.reports ++ [report] } := by
  unfold createReport
  by_cases hknown : report.targetUserID ∉ s.chat.db.tables.users.map (·.id) ∨
      report.reporterID ∉ s.chat.db.tables.users.map (·.id)
  · rw [if_pos hknown]
    refine iff_of_false (fun h => nomatch h) ?_
    intro h
    rcases hknown with hknown | hknown
    · exact hknown h.1.1
    · exact hknown h.1.2
  · rw [if_neg hknown]
    obtain ⟨htarget, hreporter⟩ := not_or.mp hknown
    by_cases hold : ∃ old ∈ s.reports, old.reporterID = report.reporterID ∧
        old.targetMessageID = report.targetMessageID ∧ old.isOpen = true
    · rw [if_pos (by simpa using hold)]
      exact iff_of_false (fun h => nomatch h) (fun h => h.2.1 hold)
    · rw [if_neg (by simpa using hold)]
      simp only [Except.ok.injEq, Prod.mk.injEq]
      constructor
      · intro h
        exact ⟨⟨not_not.mp htarget, not_not.mp hreporter⟩, hold, h.1.symm, h.2.symm⟩
      · intro h
        exact ⟨h.2.2.1.symm, h.2.2.2.symm⟩

theorem mem_reported {a : Archive} {r : Report} :
    m ∈ reported a r ↔
      getMessage a r.targetChannelID r.targetMessageID = some m ∧
        m.deleted = false ∧ m.keyVersion = 0 := by
  unfold reported
  rw [Option.mem_toList, Option.filter_eq_some_iff, decide_eq_true_iff]

variable {validUTF8 : List UInt8 → String}

/-- Who gets through the second half of a report. -/
theorem mem_fileReport {newID : ID} {category : ReportCategory} {reason : Option String}
    {msg : Message}
    (hmsg : getMessage s.archive msg.channelID msg.messageID = some msg) :
    m ∈ answered (fileReport validUTF8 newID userID category reason c msg) (reported s.archive) s ↔
      msg = m ∧ (m.deleted = false ∧ m.keyVersion = 0) ∧ Accepts s userID m := by
  unfold fileReport checkReportRateLimits
  rw [mem_answered_query, mem_answered_reject, mem_answered_reject, mem_answered_reject]
  simp only [bind_assoc]
  rw [mem_answered_countHit, mem_answered_reject, mem_answered_countHit, mem_answered_reject,
    mem_answered_query, mem_answered_update, hits_countedHit (by simp)]
  simp only [createReport_ok, Nat.not_lt, Nat.succ_le_iff]
  -- what the answer holds is the message of the report
  have hsame : ∀ r : Report, r.targetChannelID = msg.channelID → r.targetMessageID = msg.messageID →
      (m ∈ reported s.archive r ↔ msg = m ∧ m.deleted = false ∧ m.keyVersion = 0) := by
    intro r hchannel hmessage
    rw [mem_reported, hchannel, hmessage, hmsg, Option.some.injEq]
  have hauthor : m.deleted = false → (snapshotOf validUTF8 m).authorID = m.authorID := by
    intro hlive
    unfold snapshotOf
    rw [if_neg (by simp [hlive])]
  constructor
  · intro h
    obtain ⟨hempty, hself, hsystem, hglobal, hpair, r, s', ⟨⟨hknown, hreporter⟩, hfirst, rfl, -⟩,
      hm⟩ := h
    obtain ⟨rfl, hlive, hplain⟩ := (hsame _ rfl rfl).mp hm
    rw [hauthor hlive] at hempty hself hsystem hpair hknown
    refine ⟨rfl, ⟨hlive, hplain⟩, ?_, hglobal, hpair, hknown, hreporter, hfirst⟩
    simp [hempty, hself, hsystem]
  · intro h
    obtain ⟨rfl, ⟨hlive, hplain⟩, haccepts⟩ := h
    have htarget := haccepts.target
    simp only [mem_cons, not_mem_nil, or_false, not_or] at htarget
    rw [hauthor hlive]
    exact ⟨htarget.1, htarget.2.1, htarget.2.2, haccepts.global, haccepts.pair, _, _,
      ⟨⟨haccepts.known, haccepts.reporter⟩, haccepts.first, rfl, rfl⟩,
      (hsame _ rfl rfl).mpr ⟨rfl, hlive, hplain⟩⟩

/-- A report, with its snapshot; there is no check of access or history. -/
theorem mem_reportMessage {nfc : String → String} {newID : ID} {req : ReportMessageRequest} :
    m ∈ answered (reportMessage nfc validUTF8 newID (some userID) req) (reported s.archive) s ↔
      req.messageID ≠ "" ∧ req.category ≠ .unspecified ∧
        (∃ reason, sanitizeReason nfc req.reason = .ok reason) ∧
        ∃ channelID, findChannelForMessage s.chat.db.tables s.archive userID req.messageID =
            .ok channelID ∧
          ∃ c, (lookup Channel.id channelID s.chat.db.tables.channels = some c ∧
              Belongs s.chat.db.tables c userID) ∧
            getMessage s.archive channelID req.messageID = some m ∧
            (m.deleted = false ∧ m.keyVersion = 0) ∧ Accepts s userID m := by
  unfold reportMessage requireReportedChannel
  rw [mem_answered_authenticate, mem_answered_reject, mem_answered_require]
  simp only [mem_answered_require, mem_answered_check, requireBelonging_ok]
  have hfound : ∀ (o : Option Message) (msg : Message),
      o.elim (.error { code := .notFound, message := "target message not found" }) .ok =
        (.ok msg : Except ConnectError Message) ↔ o = some msg := by
    intro o msg
    rcases o with _ | a
    · simp
    · simp
  have hcategory : ∀ category, categoryFromProto req.category = .ok category ↔
      req.category ≠ .unspecified ∧ category = req.category := by
    intro category
    unfold categoryFromProto
    by_cases h : req.category = .unspecified
    · simp [h]
    · simp [h, eq_comm]
  simp only [hfound, hcategory]
  refine and_congr_right fun _ => ?_
  constructor
  · intro h
    obtain ⟨category, ⟨hcat, -⟩, reason, hreason, channelID, hchannel, c, hc, msg, hmsg, hm⟩ := h
    obtain ⟨-, hch, hid⟩ := mem_of_getMessage hmsg
    obtain ⟨rfl, hopen, haccepts⟩ := (mem_fileReport (by rw [hch, hid]; exact hmsg)).mp hm
    exact ⟨hcat, ⟨reason, hreason⟩, channelID, hchannel, c, hc, hmsg, hopen, haccepts⟩
  · intro h
    obtain ⟨hcat, ⟨reason, hreason⟩, channelID, hchannel, c, hc, hmsg, hopen, haccepts⟩ := h
    obtain ⟨-, hch, hid⟩ := mem_of_getMessage hmsg
    exact ⟨req.category, ⟨hcat, rfl⟩, reason, hreason, channelID, hchannel, c, hc, m, hmsg,
      (mem_fileReport (by rw [hch, hid]; exact hmsg)).mpr ⟨rfl, hopen, haccepts⟩⟩

end Answers

end Meza.Chat
