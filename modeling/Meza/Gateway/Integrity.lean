import Meza.Gateway.Registry

/-! # Integrity of the indexes

    A socket that has been removed should be gone from every index, and the
    device it belonged to should be reported as gone only when it is. Both
    depend on the order of steps: a refresh that was under way when its socket
    was removed puts the socket back, and a socket that is removed takes the
    entry of its successor with it. -/

namespace Meza.Gateway

open Store GatewayState Function Client List Run Option Index

/-! ## Section 1: One index -/

section Index

variable {index : Index} {c c' : ClientID} {id : ID} {ids old new : List ID}

theorem enroll_iff :
    index.enroll c ids id c' = true ↔ index id c' = true ∨ (c' = c ∧ id ∈ ids) := by
  simp [enroll]

theorem withdraw_iff :
    index.withdraw c ids id c' = true ↔ index id c' = true ∧ ¬ (c' = c ∧ id ∈ ids) := by
  simp only [withdraw, Bool.and_eq_true, Bool.not_eq_true', Bool.and_eq_false_iff,
    decide_eq_false_iff_not, not_and_or]

theorem refresh_of_ne (h : c' ≠ c) : index.refresh c old new id c' = index id c' := by
  simp [refresh, enroll, withdraw, h]

/-- What is indexed after a refresh: what was, unless it is gone, and what is new. -/
theorem refresh_self :
    index.refresh c old new id c = true ↔
      (index id c = true ∧ (id ∈ old → id ∈ new)) ∨ (id ∈ new ∧ id ∉ old) := by
  simp only [refresh, enroll_iff, withdraw_iff, mem_filter, decide_eq_true_eq, true_and,
    not_and, not_not]

/-- Every entry of the index is one of a listed client, under one of its ids. -/
def IndexSound (index : Index) (listed : ClientID → Prop) (ids : ClientID → List ID) : Prop :=
  ∀ id c, index id c = true → listed c ∧ id ∈ ids c

variable {listed listed' : ClientID → Prop} {idsOf idsOf' : ClientID → List ID}

section

variable (h : IndexSound index listed idsOf)
include h

theorem IndexSound.congr
    (hsame : ∀ c, listed c → listed' c ∧ idsOf' c = idsOf c) : IndexSound index listed' idsOf' := by
  intro id c hid
  obtain ⟨hlisted, hmem⟩ := h id c hid
  obtain ⟨hlisted', hids⟩ := hsame c hlisted
  exact ⟨hlisted', by rw [hids]; exact hmem⟩

theorem IndexSound.enroll (hself : listed' c)
    (hids : idsOf' c = idsOf c) (hnew : ¬ listed c)
    (hsame : ∀ c', c' ≠ c → (listed' c' ↔ listed c') ∧ idsOf' c' = idsOf c') :
    IndexSound (index.enroll c (idsOf c)) listed' idsOf' := by
  intro id c' hid
  rcases enroll_iff.mp hid with hold | ⟨rfl, hmem⟩
  · obtain ⟨hlisted, hmem⟩ := h id c' hold
    have hne : c' ≠ c := fun hc => hnew (hc ▸ hlisted)
    obtain ⟨hiff, heq⟩ := hsame c' hne
    exact ⟨hiff.mpr hlisted, by rw [heq]; exact hmem⟩
  · exact ⟨hself, by rw [hids]; exact hmem⟩

/-- All entries of the client are under the ids that are withdrawn. -/
theorem IndexSound.withdraw
    (hsame : ∀ c', c' ≠ c → (listed' c' ↔ listed c') ∧ idsOf' c' = idsOf c') :
    IndexSound (index.withdraw c (idsOf c)) listed' idsOf' := by
  intro id c' hid
  obtain ⟨hold, hnot⟩ := withdraw_iff.mp hid
  obtain ⟨hlisted, hmem⟩ := h id c' hold
  have hne : c' ≠ c := by
    intro hc
    subst hc
    exact hnot ⟨rfl, hmem⟩
  obtain ⟨hiff, heq⟩ := hsame c' hne
  exact ⟨hiff.mpr hlisted, by rw [heq]; exact hmem⟩

/-- A refresh is sound unless it adds entries for a client that is not listed. -/
theorem IndexSound.refresh (hself : listed c ∨ new ⊆ idsOf c) (hids : idsOf' c = new)
    (hlisted : ∀ c', listed' c' ↔ listed c') (hsame : ∀ c', c' ≠ c → idsOf' c' = idsOf c') :
    IndexSound (index.refresh c (idsOf c) new) listed' idsOf' := by
  intro id c' hid
  rw [hlisted]
  by_cases hc : c' = c
  · subst hc
    rw [hids]
    rcases refresh_self.mp hid with ⟨hold, himp⟩ | ⟨hmem, hnot⟩
    · obtain ⟨hreg, hmem⟩ := h id c' hold
      exact ⟨hreg, himp hmem⟩
    · exact ⟨hself.resolve_right fun hsub => hnot (hsub hmem), hmem⟩
  · rw [refresh_of_ne hc] at hid
    rw [hsame c' hc]
    exact h id c' hid

end

end Index

/-! ## Section 2: Every entry belongs to a registered client -/

/-- The map by key. -/
def ClientsSound (g : GatewayState) : Prop :=
  ∀ key c, g.clients key = some c → (g.socket c).Registered ∧ (g.socket c).key = key

/-- The lists by user. -/
def UsersSound (g : GatewayState) : Prop :=
  ∀ userID, ∀ c ∈ g.userClients userID, (g.socket c).Registered ∧ (g.socket c).userID = userID

/-- The sets by channel and those by server. -/
def IndexesSound (g : GatewayState) : Prop :=
  ∀ side, IndexSound (g.index side) (fun c => (g.socket c).Registered)
    fun c => ((g.socket c).listing side).ids

variable {channels servers : Listing} {r : RefreshID}

section Sound

variable {g : GatewayState} {c c' : ClientID} {l : Label}

/-- A socket that is about to be added is in no phase of a registered one. -/
theorem not_registered_of_loaded (h : (g.socket c).phase = .loaded) :
    ¬ (g.socket c).Registered := by
  simp [Registered, h]

theorem addClient_socket_self :
    (g.addClient c).socket c = { g.socket c with phase := .registered } :=
  update_self _ _ _

theorem addClient_socket_of_ne (h : c' ≠ c) : (g.addClient c).socket c' = g.socket c' :=
  update_of_ne h _ _

theorem addClient_registered : ((g.addClient c).socket c).Registered := by
  rw [addClient_socket_self]
  simp [Registered]

theorem removeClient_socket_self :
    (g.removeClient c).socket c = { g.socket c with phase := .removed } :=
  update_self _ _ _

theorem removeClient_socket_of_ne (h : c' ≠ c) : (g.removeClient c).socket c' = g.socket c' :=
  update_of_ne h _ _

section Refresh

theorem refreshClientChannels_socket_self :
    (g.refreshClientChannels c channels servers).socket c = { g.socket c with channels, servers } :=
  update_self _ _ _

theorem refreshClientChannels_socket_of_ne (h : c' ≠ c) :
    (g.refreshClientChannels c channels servers).socket c' = g.socket c' :=
  update_of_ne h _ _

theorem refreshClientChannels_registered :
    ((g.refreshClientChannels c channels servers).socket c').Registered ↔
      (g.socket c').Registered := by
  by_cases hc : c' = c
  · rw [hc, refreshClientChannels_socket_self]
    rfl
  · rw [refreshClientChannels_socket_of_ne hc]

theorem refreshClientChannels_key :
    ((g.refreshClientChannels c channels servers).socket c').userID = (g.socket c').userID ∧
      ((g.refreshClientChannels c channels servers).socket c').key = (g.socket c').key := by
  by_cases hc : c' = c
  · rw [hc, refreshClientChannels_socket_self]
    exact ⟨rfl, rfl⟩
  · rw [refreshClientChannels_socket_of_ne hc]
    exact ⟨rfl, rfl⟩

end Refresh

variable {side : Side}

theorem refreshClientChannels_listing :
    ((g.refreshClientChannels c channels servers).socket c).listing side =
      side.of channels servers := by
  rw [refreshClientChannels_socket_self]
  cases side <;> rfl

theorem addClient_index :
    (g.addClient c).index side = (g.index side).enroll c ((g.socket c).listing side).ids := by
  cases side <;> rfl

theorem removeClient_index :
    (g.removeClient c).index side = (g.index side).withdraw c ((g.socket c).listing side).ids := by
  cases side <;> rfl

theorem refreshClientChannels_index :
    (g.refreshClientChannels c channels servers).index side =
      (g.index side).refresh c ((g.socket c).listing side).ids (side.of channels servers).ids := by
  cases side <;> rfl

theorem setRefresh_index {refresh : Option Refresh} :
    (g.setRefresh r refresh).index side = g.index side := by
  cases side <;> rfl

theorem step_lock (hl : l.locks = true) :
    g.step l = g ∨
      (∃ c, l = .addClient c ∧ (g.socket c).phase = .loaded ∧ g.step l = g.addClient c) ∨
      (∃ c, l = .removeClient c ∧ (g.socket c).phase = .stopped ∧ g.step l = g.removeClient c) ∨
      ∃ r c channels servers, l = .refreshClientChannels r ∧
        g.refreshes r = some (.loaded c channels servers) ∧
        g.step l = (g.refreshClientChannels c channels servers).setRefresh r none := by
  unfold step
  by_cases henabled : g.Enabled l
  · rw [if_pos henabled]
    cases l with
    | addClient c => exact .inr (.inl ⟨c, rfl, henabled, rfl⟩)
    | removeClient c => exact .inr (.inr (.inl ⟨c, rfl, henabled, rfl⟩))
    | refreshClientChannels r =>
      dsimp only [effect]
      split
      · rename_i c channels servers hrefresh
        exact .inr (.inr (.inr ⟨r, c, channels, servers, rfl, hrefresh, rfl⟩))
      · exact .inl rfl
    | _ => cases hl
  · rw [if_neg henabled]
    exact .inl rfl

/-- A key has one client, and a client that goes takes its key along. -/
theorem clientsSound_step (h : ClientsSound g) : ClientsSound (g.step l) := by
  rcases hl : l.locks with _ | _
  · have hindex := step_sameIndexes (g := g) hl
    have hsocket := fun c => (step_moves g l c).sameEntry hl
    intro key c hc
    rw [hindex.clients] at hc
    obtain ⟨hreg, hkey⟩ := h key c hc
    refine ⟨(hsocket c).registered.mpr hreg, ?_⟩
    rw [← hkey]
    unfold Client.key
    rw [(hsocket c).userID hreg, (hsocket c).deviceID hreg]
  · rcases step_lock (g := g) hl with hstep | ⟨c, -, hphase, hstep⟩ | ⟨c, -, hphase, hstep⟩ |
      ⟨r, c, channels, servers, -, -, hstep⟩
    · rw [hstep]
      exact h
    · rw [hstep]
      intro key c' hc'
      by_cases hkey : key = (g.socket c).key
      · subst hkey
        have hsame : c = c' := by
          have : (g.addClient c).clients (g.socket c).key = some c := update_self _ _ _
          exact some.inj (this.symm.trans hc')
        subst hsame
        rw [addClient_socket_self]
        exact ⟨by simp [Registered], rfl⟩
      · have hold : g.clients key = some c' := by
          rw [← hc']
          exact (update_of_ne hkey _ _).symm
        obtain ⟨hreg, hkey'⟩ := h key c' hold
        have hne : c' ≠ c := by
          intro hc
          rw [hc] at hreg
          exact not_registered_of_loaded hphase hreg
        rw [addClient_socket_of_ne hne]
        exact ⟨hreg, hkey'⟩
    · rw [hstep]
      intro key c' hc'
      by_cases hkey : key = (g.socket c).key
      · subst hkey
        have hnone : (g.removeClient c).clients (g.socket c).key = none :=
          update_self _ _ _
        rw [hnone] at hc'
        cases hc'
      · have hold : g.clients key = some c' := by
          rw [← hc']
          exact (update_of_ne hkey _ _).symm
        obtain ⟨hreg, hkey'⟩ := h key c' hold
        have hne : c' ≠ c := fun hc => hkey (by rw [← hkey', hc])
        rw [removeClient_socket_of_ne hne]
        exact ⟨hreg, hkey'⟩
    · rw [hstep]
      intro key c' hc'
      obtain ⟨hreg, hkey⟩ := h key c' hc'
      exact ⟨refreshClientChannels_registered.mpr hreg, refreshClientChannels_key.2.trans hkey⟩

/-- The list of a user loses a client that goes. -/
theorem usersSound_step (h : UsersSound g) : UsersSound (g.step l) := by
  rcases hl : l.locks with _ | _
  · have hindex := step_sameIndexes (g := g) hl
    have hsocket := fun c => (step_moves g l c).sameEntry hl
    intro userID c hc
    rw [hindex.userClients] at hc
    obtain ⟨hreg, huser⟩ := h userID c hc
    exact ⟨(hsocket c).registered.mpr hreg, ((hsocket c).userID hreg).trans huser⟩
  · rcases step_lock (g := g) hl with hstep | ⟨c, -, hphase, hstep⟩ | ⟨c, -, hphase, hstep⟩ |
      ⟨r, c, channels, servers, -, -, hstep⟩
    · rw [hstep]
      exact h
    · rw [hstep]
      -- the new entry is the last of its list
      have hold : ∀ userID, ∀ c' ∈ g.userClients userID,
          ((g.addClient c).socket c').Registered ∧ ((g.addClient c).socket c').userID = userID := by
        intro userID c' hc'
        obtain ⟨hreg, huser⟩ := h userID c' hc'
        have hne : c' ≠ c := by
          intro hc
          rw [hc] at hreg
          exact not_registered_of_loaded hphase hreg
        rw [addClient_socket_of_ne hne]
        exact ⟨hreg, huser⟩
      intro userID c' hc'
      by_cases huser : userID = (g.socket c).userID
      · subst huser
        have hlist : (g.addClient c).userClients (g.socket c).userID =
            g.userClients (g.socket c).userID ++ [c] := update_self _ _ _
        rw [hlist] at hc'
        rcases mem_append.mp hc' with hc' | hc'
        · exact hold _ c' hc'
        · rw [mem_singleton.mp hc', addClient_socket_self]
          exact ⟨by simp [Registered], rfl⟩
      · have hlist : (g.addClient c).userClients userID = g.userClients userID :=
          update_of_ne huser _ _
        rw [hlist] at hc'
        exact hold userID c' hc'
    · rw [hstep]
      intro userID c' hc'
      have hold : c' ∈ g.userClients userID ∧ c' ≠ c := by
        by_cases huser : userID = (g.socket c).userID
        · subst huser
          have hlist : (g.removeClient c).userClients (g.socket c).userID =
              (g.userClients (g.socket c).userID).filter (· ≠ c) := update_self _ _ _
          rw [hlist, mem_filter] at hc'
          exact ⟨hc'.1, of_decide_eq_true hc'.2⟩
        · have hlist : (g.removeClient c).userClients userID = g.userClients userID :=
            update_of_ne huser _ _
          rw [hlist] at hc'
          refine ⟨hc', ?_⟩
          intro hc
          rw [← (h userID c' hc').2, hc] at huser
          exact huser rfl
      rw [removeClient_socket_of_ne hold.2]
      exact h userID c' hold.1
    · rw [hstep]
      intro userID c' hc'
      obtain ⟨hreg, huser⟩ := h userID c' hc'
      exact ⟨refreshClientChannels_registered.mpr hreg, refreshClientChannels_key.1.trans huser⟩

end Sound

/-! ## Section 3: Signals and refreshes come after the registration -/

def Client.Begun (c : Client) : Prop :=
  c.phase ∈ [.running, .unsubscribed, .stopped, .removed]

/-- Something is on its way to the client. -/
def Client.Stirred (c : Client) : Prop :=
  c.userSub = true ∨ c.inbox ≠ [] ∨ c.refreshTimer = true

/-- Only clients that have begun are stirred or refreshed. -/
structure Lifecycle (g : GatewayState) : Prop where
  stirred : ∀ c, (g.socket c).Stirred → (g.socket c).Begun
  refreshes : ∀ r refresh, g.refreshes r = some refresh → (g.socket refresh.client).Begun

section Lifecycle

variable {g : GatewayState} {c : ClientID} {l : Label}

theorem Moves.begun {y : Client} (h : Moves g c l y) (hx : (g.socket c).Begun) : y.Begun := by
  unfold Begun at hx ⊢
  have hnext := h.phase
  rcases hnext with hnext | hnext
  · rw [hnext]
    exact hx
  · simp only [mem_cons, not_mem_nil, or_false] at hx ⊢
    rcases hx with hx | hx | hx | hx
    · simp_all [Phase.next]
    · simp_all [Phase.next]
    · simp_all [Phase.next]
    · simp_all [Phase.next]

/-- What stirs a client that was not stirred is its subscription. -/
theorem Moves.stirred {y : Client} (h : Moves g c l y) (hy : y.Stirred) :
    (g.socket c).Stirred ∨ y.phase = .running := by
  cases h with
  | stays | authenticate | loadChannels | loadServers | refuse | add | disconnect | remove
  | refresh => exact .inl hy
  | subscribe => exact .inr rfl
  | unsubscribe =>
    left
    rcases hy with hy | hy | hy
    · cases hy
    · exact .inr (.inl fun h => hy (by rw [h]; rfl))
    · exact .inr (.inr hy)
  | stopTimer =>
    left
    rcases hy with hy | hy | hy
    · exact .inl hy
    · exact .inr (.inl hy)
    · cases hy
  | receive hsub | receiveForward hsub => exact .inl (.inl hsub)
  | debounce hinbox | forward hinbox => exact .inl (.inr (.inl (by simp [hinbox])))
  | fire htimer => exact .inl (.inr (.inr htimer))

/-- A refresh that runs after a step ran before, for the same client, or its timer
    has just gone off. -/
theorem Advances.client {refresh : Refresh} (h : Advances g r l (some refresh)) :
    (∃ before, g.refreshes r = some before ∧ before.client = refresh.client) ∨
      (g.socket refresh.client).refreshTimer = true := by
  generalize hafter : some refresh = after at h
  cases h with
  | stays => exact .inl ⟨refresh, hafter.symm, rfl⟩
  | start htimer =>
    injection hafter with hafter
    rw [hafter]
    exact .inr htimer
  | channels hstarted =>
    obtain ⟨channels, -, rfl⟩ := map_eq_some_iff.mp hafter.symm
    exact .inl ⟨_, hstarted, rfl⟩
  | servers hchannels =>
    obtain ⟨servers, -, rfl⟩ := map_eq_some_iff.mp hafter.symm
    exact .inl ⟨_, hchannels, rfl⟩
  | lands => cases hafter

theorem lifecycle_step (h : Lifecycle g) : Lifecycle (g.step l) := by
  constructor
  · intro c hstirred
    rcases (step_moves g l c).stirred hstirred with hstirred | hphase
    · exact (step_moves g l c).begun (h.stirred c hstirred)
    · simp [Begun, hphase]
  · intro r refresh hrefresh
    apply (step_moves g l refresh.client).begun
    have hadvances := step_advances g l r
    rw [hrefresh] at hadvances
    rcases hadvances.client with ⟨before, hbefore, hclient⟩ | htimer
    · rw [← hclient]
      exact h.refreshes r before hbefore
    · exact h.stirred refresh.client (.inr (.inr htimer))

end Lifecycle

/-! ## Section 4: Removal is final -/

/-- Nothing that was under way when a client was removed comes too late: no
    refresh brings it new channels or servers, and no message is passed on to
    it. -/
def Punctual (g : GatewayState) : Label → Prop
  | .refreshClientChannels r => ∀ c channels servers,
      g.refreshes r = some (.loaded c channels servers) → (g.socket c).phase = .removed →
      channels.ids ⊆ (g.socket c).channels.ids ∧ servers.ids ⊆ (g.socket c).servers.ids
  | .callback c =>
      (g.socket c).phase = .removed → (g.socket c).inbox.head? ≠ some .forward
  | _ => True

/-- All entries belong to registered clients. -/
structure Integrity (g : GatewayState) : Prop where
  lifecycle : Lifecycle g
  clients : ClientsSound g
  users : UsersSound g
  indexes : IndexesSound g

/-- The client is in no index. -/
structure Unindexed (g : GatewayState) (c : ClientID) : Prop where
  clients : ∀ key, g.clients key ≠ some c
  users : ∀ userID, c ∉ g.userClients userID
  channels : ∀ channelID, g.channelClients channelID c = false
  servers : ∀ serverID, g.serverClients serverID c = false

section Removal

variable {g : GatewayState} {c : ClientID} {l : Label}

theorem registered_or_removed {x : Client} (h : x.Begun) : x.Registered ∨ x.phase = .removed := by
  unfold Begun at h
  unfold Registered
  simp only [mem_cons, not_mem_nil, or_false] at h ⊢
  tauto

/-- A refresh under way is that of a registered client, or brings nothing new. -/
theorem refresh_admissible (hlife : Lifecycle g) (hguard : Punctual g (.refreshClientChannels r))
    (hrefresh : g.refreshes r = some (.loaded c channels servers)) (side : Side) :
    (g.socket c).Registered ∨ (side.of channels servers).ids ⊆ ((g.socket c).listing side).ids := by
  rcases registered_or_removed (hlife.refreshes r _ hrefresh) with hreg | hremoved
  · exact .inl hreg
  · obtain ⟨hchannels, hservers⟩ := hguard c channels servers hrefresh hremoved
    right
    cases side with
    | channels => exact hchannels
    | servers => exact hservers

theorem indexesSound_step (hlife : Lifecycle g) (hguard : Punctual g l) (h : IndexesSound g) :
    IndexesSound (g.step l) := by
  intro side
  rcases hl : l.locks with _ | _
  · rw [(step_sameIndexes (g := g) hl).index]
    refine (h side).congr fun c hreg => ?_
    have hsame := (step_moves g l c).sameEntry hl
    exact ⟨hsame.registered.mpr hreg, by rw [hsame.listing hreg]⟩
  · rcases step_lock (g := g) hl with hstep | ⟨c, -, hphase, hstep⟩ | ⟨c, -, hphase, hstep⟩ |
      ⟨r, c, channels, servers, hlabel, hrefresh, hstep⟩
    · rw [hstep]
      exact h side
    · rw [hstep, addClient_index]
      refine (h side).enroll addClient_registered ?_ (not_registered_of_loaded hphase)
        fun c' hne => ?_
      · rw [addClient_socket_self]
        rfl
      · rw [addClient_socket_of_ne hne]
        exact ⟨.rfl, rfl⟩
    · rw [hstep, removeClient_index]
      refine (h side).withdraw fun c' hne => ?_
      rw [removeClient_socket_of_ne hne]
      exact ⟨.rfl, rfl⟩
    · subst hlabel
      rw [hstep, setRefresh_index, refreshClientChannels_index]
      exact (h side).refresh (refresh_admissible hlife hguard hrefresh side)
        (congrArg Listing.ids refreshClientChannels_listing)
        (fun c' => refreshClientChannels_registered)
        fun c' hne => congrArg (fun x => (x.listing side).ids)
          (refreshClientChannels_socket_of_ne hne)

theorem lifecycle_start (tables : Tables) : Lifecycle (.start tables) := by
  constructor
  · intro c h
    simp [start, Stirred] at h
  · intro r refresh h
    cases h

theorem clientsSound_start (tables : Tables) : ClientsSound (.start tables) := fun _ _ => nofun

theorem integrity_start (tables : Tables) : Integrity (.start tables) where
  lifecycle := lifecycle_start tables
  clients := clientsSound_start tables
  users := fun _ _ => nofun
  indexes := by
    intro side id c h
    cases side <;> cases h

theorem integrity_step (h : Integrity g) (hguard : Punctual g l) : Integrity (g.step l) where
  lifecycle := lifecycle_step h.lifecycle
  clients := clientsSound_step h.clients
  users := usersSound_step h.users
  indexes := indexesSound_step h.lifecycle hguard h.indexes

theorem unindexed_of_removed (h : Integrity g) (hphase : (g.socket c).phase = .removed) :
    Unindexed g c := by
  have hnot : ¬ (g.socket c).Registered := by simp [Registered, hphase]
  constructor
  · exact fun key hkey => hnot (h.clients key c hkey).1
  · exact fun userID hmem => hnot (h.users userID c hmem).1
  · intro channelID
    exact Bool.eq_false_iff.mpr fun hin => hnot (h.indexes .channels channelID c hin).1
  · intro serverID
    exact Bool.eq_false_iff.mpr fun hin => hnot (h.indexes .servers serverID c hin).1

theorem not_sendsTo (h : Unindexed g c) (hphase : (g.socket c).phase = .removed)
    (hguard : Punctual g l) : ¬ g.SendsTo c l := by
  intro hsends
  cases l with
  | deliver delivery =>
    have hrecipient : g.recipients c delivery = true := hsends
    cases delivery with
    | channel channelID => exact Bool.false_ne_true ((h.channels channelID).symm.trans hrecipient)
    | server serverID => exact Bool.false_ne_true ((h.servers serverID).symm.trans hrecipient)
    | user userID => exact h.users userID (of_decide_eq_true hrecipient)
    | sharedServers userID =>
      obtain ⟨c', -, hany⟩ := any_eq_true.mp hrecipient
      obtain ⟨serverID, -, hin⟩ := any_eq_true.mp hany
      exact Bool.false_ne_true ((h.servers serverID).symm.trans hin)
  | callback c' =>
    obtain ⟨rfl, hhead⟩ := hsends
    exact hguard hphase hhead
  | _ => cases hsends

theorem removed_exec (ls : List Label) (h : (g.socket c).phase = .removed) :
    ((exec step g ls).socket c).phase = .removed := by
  induction ls generalizing g with
  | nil => exact h
  | cons l ls ih =>
    apply ih
    have hnext := (step_moves g l c).phase
    rw [h] at hnext
    simpa [Phase.next] using hnext

end Removal

/-- **Removal is final.** Once `removeClient` has completed, the client is in no
    index again and nothing is sent to it, in every run in which nothing under
    way comes too late. -/
theorem removeClient_final (tables : Tables) (pre post : List Label) (c : ClientID)
    (hrun : Guarded step Punctual (.start tables) (pre ++ .removeClient c :: post))
    (hremoves : ((after tables pre).socket c).phase = .stopped) :
    Unindexed (.after tables (pre ++ .removeClient c :: post)) c ∧
      ∀ l, Punctual (.after tables (pre ++ .removeClient c :: post)) l →
        ¬ (after tables (pre ++ .removeClient c :: post)).SendsTo c l := by
  have hintegrity : Integrity (.after tables (pre ++ .removeClient c :: post)) :=
    exec_invariant (fun g l h hguard => integrity_step h hguard) (integrity_start tables) hrun
  have hremoved : ((after tables (pre ++ .removeClient c :: post)).socket c).phase = .removed := by
    unfold GatewayState.after
    rw [exec_append]
    refine removed_exec (g := (after tables pre).step (.removeClient c)) post ?_
    rw [step_of_enabled (l := .removeClient c) hremoves]
    exact congrArg phase removeClient_socket_self
  have hunindexed := unindexed_of_removed hintegrity hremoved
  exact ⟨hunindexed, fun l hguard => not_sendsTo hunindexed hremoved hguard⟩

/-- A server with one member. -/
def officeTables : Tables where
  users := [{ id := "ann", signingPublicKey := none }]
  servers := [{ id := "office", ownerID := "ann" }]
  members := [{ userID := "ann", serverID := "office" }]
  channels := [{ id := "general", serverID := some "office", name := "general" }]

/-- The same server with a new channel. -/
def busyTables : Tables :=
  { officeTables with
    channels := officeTables.channels ++
      [{ id := "news", serverID := some "office", name := "news" }] }

/-- The phone of the member connects. -/
def connect (c : ClientID) : List Label :=
  [.authenticateFirstMessage c "ann" "phone", .loadChannels c .complete, .loadServers c .complete,
    .addClient c, .subscribe c true]

/-- The socket is lost, up to the lock section of `removeClient`. -/
def tearDown (c : ClientID) : List Label := [.disconnect c, .unsubscribe c, .stopTimer c]

/-- The new channel is signalled, and a refresh has read it. -/
def newsRefresh : List Label :=
  [.change busyTables ["ann"], .publish "ann", .callback 0, .fire 0 0,
    .refreshChannels 0 .complete, .refreshServers 0 .complete]

/-- The refresh lands in time, and the news of the removed socket's channel go
    nowhere. -/
theorem removeClient_final_office :
    Unindexed (.after officeTables (connect 0 ++ newsRefresh ++ [.refreshClientChannels 0] ++
        tearDown 0 ++ .removeClient 0 :: [])) 0 ∧
      ¬ (after officeTables (connect 0 ++ newsRefresh ++ [.refreshClientChannels 0] ++
        tearDown 0 ++ .removeClient 0 :: [])).SendsTo 0 (.deliver (.channel "news")) := by
  have hguarded : Guarded step Punctual (.start officeTables)
      (connect 0 ++ newsRefresh ++ [.refreshClientChannels 0] ++ tearDown 0 ++
        .removeClient 0 :: []) := by
    refine ⟨trivial, trivial, trivial, trivial, trivial, trivial, trivial, ?_, trivial, trivial,
      trivial, ?_, trivial, trivial, trivial, trivial, trivial⟩
    · intro hphase
      exact absurd hphase (by decide)
    · intro c channels servers hrefresh hphase
      have hloaded : (after officeTables (connect 0 ++ newsRefresh)).refreshes 0 =
          some (.loaded 0 ⟨["general", "news"], 2⟩ ⟨["office"], 2⟩) := by decide
      have hsame := some.inj (hloaded.symm.trans hrefresh)
      injection hsame with hclient
      subst hclient
      exact absurd hphase (by decide)
  obtain ⟨hunindexed, hsends⟩ := removeClient_final officeTables
    (connect 0 ++ newsRefresh ++ [.refreshClientChannels 0] ++ tearDown 0) [] 0 hguarded (by decide)
  exact ⟨hunindexed, hsends _ trivial⟩

/-- The refresh lands after the removal: the socket is back in the index, and the
    next message to the channel is sent to it. A message that is passed on to
    the socket while it is removed is sent to it as well. -/
theorem late_steps_reach_removed :
    (((after officeTables (connect 0 ++ newsRefresh ++ tearDown 0 ++
          [.removeClient 0, .refreshClientChannels 0])).socket 0).phase = .removed ∧
        ¬ Unindexed (.after officeTables (connect 0 ++ newsRefresh ++ tearDown 0 ++
          [.removeClient 0, .refreshClientChannels 0])) 0 ∧
        (after officeTables (connect 0 ++ newsRefresh ++ tearDown 0 ++
          [.removeClient 0, .refreshClientChannels 0])).SendsTo 0 (.deliver (.channel "news"))) ∧
      ((after officeTables (connect 0 ++ [.publishForward "ann"] ++ tearDown 0 ++
          [.removeClient 0])).socket 0).phase = .removed ∧
      (after officeTables (connect 0 ++ [.publishForward "ann"] ++ tearDown 0 ++
        [.removeClient 0])).SendsTo 0 (.callback 0) := by
  have hback : (after officeTables (connect 0 ++ newsRefresh ++ tearDown 0 ++
      [.removeClient 0, .refreshClientChannels 0])).channelClients "news" 0 = true := by decide
  refine ⟨⟨by decide, ?_, hback⟩, by decide, rfl, by decide⟩
  intro hunindexed
  exact Bool.false_ne_true ((hunindexed.channels "news").symm.trans hback)

/-! ## Section 5: One entry for each device -/

/-- A client is removed when no other registered client has its key. -/
def Alone (g : GatewayState) : Label → Prop
  | .removeClient c => (g.socket c).phase = .stopped →
      ∀ c', c' ≠ c → (g.socket c').Registered → (g.socket c').key ≠ (g.socket c).key
  | _ => True

/-- Every registered client has its key in the map, whoever stands there. -/
def ClientsComplete (g : GatewayState) : Prop :=
  ∀ c, (g.socket c).Registered → g.clients (g.socket c).key ≠ none

section Devices

variable {g : GatewayState} {c : ClientID} {l : Label}

theorem clientsComplete_step (h : ClientsComplete g) (hguard : Alone g l) :
    ClientsComplete (g.step l) := by
  rcases hl : l.locks with _ | _
  · intro c hreg
    have hsame := (step_moves g l c).sameEntry hl
    have hold := hsame.registered.mp hreg
    rw [(step_sameIndexes (g := g) hl).clients]
    unfold key
    rw [hsame.userID hold, hsame.deviceID hold]
    exact h c hold
  · rcases step_lock (g := g) hl with hstep | ⟨c, -, hphase, hstep⟩ | ⟨c, hlabel, hphase, hstep⟩ |
      ⟨r, c, channels, servers, -, -, hstep⟩
    · rw [hstep]
      exact h
    · rw [hstep]
      intro c' hreg
      have hkey : (g.addClient c).clients ((g.addClient c).socket c').key =
          update g.clients (g.socket c).key (some c) ((g.addClient c).socket c').key := rfl
      rw [hkey]
      by_cases hc : c' = c
      · rw [hc, addClient_socket_self]
        show update g.clients (g.socket c).key (some c) (g.socket c).key ≠ none
        rw [update_self]
        exact some_ne_none c
      · rw [addClient_socket_of_ne hc] at hreg ⊢
        by_cases hsame : (g.socket c').key = (g.socket c).key
        · rw [hsame, update_self]
          exact some_ne_none c
        · rw [update_of_ne hsame]
          exact h c' hreg
    · subst hlabel
      rw [hstep]
      intro c' hreg
      have hc : c' ≠ c := by
        intro hc
        rw [hc, removeClient_socket_self] at hreg
        simp [Registered] at hreg
      rw [removeClient_socket_of_ne hc] at hreg ⊢
      have hkey : (g.removeClient c).clients (g.socket c').key = g.clients (g.socket c').key :=
        update_of_ne (hguard hphase c' hc hreg) _ _
      rw [hkey]
      exact h c' hreg
    · rw [hstep]
      intro c' hreg
      have hold := refreshClientChannels_registered.mp hreg
      have hkey : (((g.refreshClientChannels c channels servers).setRefresh r none).socket c').key =
          (g.socket c').key := refreshClientChannels_key.2
      rw [hkey]
      exact h c' hold

theorem disconnected_of_notices {userID deviceID : ID}
    (h : (g.step l).notices = g.notices ++ [.deviceDisconnected userID deviceID]) :
    ∃ c, l = .removeClient c ∧ (g.socket c).phase = .stopped ∧ g.step l = g.removeClient c ∧
      (g.socket c).userID = userID ∧ (g.socket c).deviceID = deviceID := by
  have hnone : g.notices ≠ g.notices ++ [.deviceDisconnected userID deviceID] := by simp
  rcases hl : l.locks with _ | _
  · exact absurd ((step_sameIndexes (g := g) hl).notices.symm.trans h) hnone
  · rcases step_lock (g := g) hl with hstep | ⟨c, -, -, hstep⟩ | ⟨c, hlabel, hphase, hstep⟩ |
      ⟨r, c, channels, servers, -, -, hstep⟩
    · rw [hstep] at h
      exact absurd h hnone
    · rw [hstep] at h
      have hnotice := append_cancel_left (h : g.notices ++ _ = _)
      cases hnotice
    · have hnotices := h
      rw [hstep] at hnotices
      have hnotice := append_cancel_left (hnotices : g.notices ++ _ = _)
      injection hnotice with hnotice
      injection hnotice with huser hdevice
      exact ⟨c, hlabel, hphase, hstep, huser, hdevice⟩
    · rw [hstep] at h
      exact absurd (h : g.notices = _) hnone

end Devices

/-- **Reconnecting is safe** in every run in which a client is removed only when no
    other client of its device is registered: the map has exactly the keys of the
    registered clients, each with a registered client, and a device is reported
    as gone only when none of its clients remains. -/
theorem clients_registered (tables : Tables) (ls : List Label)
    (hrun : Guarded step Alone (.start tables) ls) :
    (∀ key, (after tables ls).clients key ≠ none ↔
      ∃ c, ((after tables ls).socket c).Registered ∧
        ((after tables ls).socket c).key = key) ∧
    (∀ key c, (after tables ls).clients key = some c →
      ((after tables ls).socket c).Registered ∧
        ((after tables ls).socket c).key = key) ∧
    ∀ pre l post userID deviceID, ls = pre ++ l :: post →
      (after tables (pre ++ [l])).notices =
        (after tables pre).notices ++ [.deviceDisconnected userID deviceID] →
      ∀ c, ((after tables (pre ++ [l])).socket c).Registered →
        ¬ (((after tables (pre ++ [l])).socket c).userID = userID ∧
          ((after tables (pre ++ [l])).socket c).deviceID = deviceID) := by
  have hsound : ClientsSound (.after tables ls) :=
    exec_invariant (fun g l h _ => clientsSound_step h) (clientsSound_start tables) hrun
  have hcomplete : ClientsComplete (.after tables ls) :=
    exec_invariant (fun g l h hguard => clientsComplete_step h hguard)
      (fun c hreg => absurd hreg (by simp [start, Registered])) hrun
  refine ⟨?_, hsound, ?_⟩
  · intro key
    constructor
    · intro hkey
      obtain ⟨c, hc⟩ := ne_none_iff_exists'.mp hkey
      exact ⟨c, hsound key c hc⟩
    · intro h
      obtain ⟨c, hreg, hkey⟩ := h
      rw [← hkey]
      exact hcomplete c hreg
  · intro pre l post userID deviceID hls hnotice c' hreg hdevice
    subst hls
    have hguard : Alone (.after tables pre) l := Guarded.meets hrun
    have hone : after tables (pre ++ [l]) = (after tables pre).step l := by
      unfold GatewayState.after
      rw [exec_append]
      rfl
    rw [hone] at hnotice hreg hdevice
    obtain ⟨c, rfl, hphase, hstep, huser, hdev⟩ := disconnected_of_notices hnotice
    rw [hstep] at hreg hdevice
    have hc : c' ≠ c := by
      intro hc
      rw [hc, removeClient_socket_self] at hreg
      simp [Registered] at hreg
    rw [removeClient_socket_of_ne hc] at hreg hdevice
    -- it would have the key of the client that is removed
    refine hguard hphase c' hc hreg ?_
    unfold key
    rw [hdevice.1, hdevice.2, huser, hdev]

/-- The phone reconnects after its old socket is gone. -/
theorem clients_registered_office :
    (after officeTables
        (connect 0 ++ tearDown 0 ++ [.removeClient 0] ++ connect 1)).clients "ann:phone" ≠ none ∧
      ∀ c, ((after officeTables
          (connect 0 ++ tearDown 0 ++ [.removeClient 0])).socket c).Registered →
        ¬ (((after officeTables
            (connect 0 ++ tearDown 0 ++ [.removeClient 0])).socket c).userID = "ann" ∧
          ((after officeTables
            (connect 0 ++ tearDown 0 ++ [.removeClient 0])).socket c).deviceID = "phone") := by
  have hguarded : Guarded step Alone (.start officeTables)
      (connect 0 ++ tearDown 0 ++ [.removeClient 0] ++ connect 1) := by
    refine ⟨trivial, trivial, trivial, trivial, trivial, trivial, trivial, trivial, ?_, trivial,
      trivial, trivial, trivial, trivial, trivial⟩
    intro _ c' hc hreg
    obtain ⟨n, rfl⟩ := Nat.exists_eq_succ_of_ne_zero hc
    have hunused : ((after officeTables (connect 0 ++ tearDown 0)).socket
        (n + 1)).phase = .unused := rfl
    have hnot : ¬ ((after officeTables (connect 0 ++ tearDown 0)).socket
        (n + 1)).Registered := by simp [Registered, hunused]
    exact absurd hreg hnot
  obtain ⟨hkeys, -, hgone⟩ := clients_registered officeTables
    (connect 0 ++ tearDown 0 ++ [.removeClient 0] ++ connect 1) hguarded
  refine ⟨(hkeys "ann:phone").mpr ⟨1, by decide, by decide⟩, ?_⟩
  exact hgone (connect 0 ++ tearDown 0) (.removeClient 0) (connect 1) "ann" "phone" rfl (by decide)

/-- The phone reconnects before its old socket is removed: the new socket loses its
    entry, and the phone is reported as gone. -/
theorem reconnect_loses_entry :
    ((after officeTables
        (connect 0 ++ connect 1 ++ tearDown 0 ++ [.removeClient 0])).socket 1).Registered ∧
      ((after officeTables
        (connect 0 ++ connect 1 ++ tearDown 0 ++ [.removeClient 0])).socket 1).key = "ann:phone" ∧
      (after officeTables
        (connect 0 ++ connect 1 ++ tearDown 0 ++ [.removeClient 0])).clients "ann:phone" = none ∧
      (after officeTables
          (connect 0 ++ connect 1 ++ tearDown 0 ++ [.removeClient 0])).notices =
        (after officeTables (connect 0 ++ connect 1 ++ tearDown 0)).notices ++
          [.deviceDisconnected "ann" "phone"] := by
  exact ⟨by decide, by decide, by decide, by decide⟩

end Meza.Gateway
