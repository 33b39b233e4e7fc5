import Meza.Gateway.Integrity

/-! # Freshness of the indexes

    When somebody joins or leaves, a signal makes the gateway read the lists of
    that user again. Once all signals are handled and all refreshes are over,
    every connected client should be indexed under what the store says.

    A change is on its way to a client as a signal that is due, a message in its
    inbox, a running timer or a refresh that reads late enough. Section 2 says
    which steps lose it: a signal that is published before the subscription, a
    query that fails, and a refresh that lands after a later one. -/

namespace Meza.Gateway

open Store GatewayState ChatStore Client List Outcome Listing

/-! ## Section 1: Versions -/

def SameIDs (l l' : List ID) : Prop := ∀ id, id ∈ l ↔ id ∈ l'

theorem SameIDs.trans {l₁ l₂ l₃ : List ID} (h : SameIDs l₁ l₂) (h' : SameIDs l₂ l₃) :
    SameIDs l₁ l₃ :=
  fun id => (h id).trans (h' id)

/-- The list was read at its version: if nothing has changed since, it is what the
    store has. -/
def Listing.Valid (x : Listing) (version : Nat) (stored : List ID) : Prop :=
  x.version ≤ version ∧ (x.version = version → SameIDs x.ids stored)

/-- The lists of the client take all changes into account. -/
def Client.Current (x : Client) (version : Nat) : Prop :=
  x.channels.version = version ∧ x.servers.version = version

def Refresh.Valid (version : Nat) (channelIDs serverIDs : List ID) : Refresh → Prop
  | .started _ => True
  | .hasChannels _ channels => channels.Valid version channelIDs
  | .loaded _ channels servers =>
      channels.Valid version channelIDs ∧ servers.Valid version serverIDs

/-- What the refresh has read, it has read after the last change. -/
def Refresh.Covers (version : Nat) : Refresh → Prop
  | .started _ => True
  | .hasChannels _ channels => channels.version = version
  | .loaded _ channels servers => channels.version = version ∧ servers.version = version

/-! ## Section 2: Steps that lose no change -/

/-- The socket has read lists and does not hear of changes yet. -/
def Client.Deaf (x : Client) : Prop := x.phase ∈ [.hasChannels, .loaded, .registered]

instance (x : Client) : Decidable x.Deaf := inferInstanceAs (Decidable (_ ∈ _))

/-- The step loses no change. -/
def Lossless (g : GatewayState) : Label → Prop
  -- whoever has other lists after a change is signalled
  | .change tables signalled => ∀ u, u ∉ signalled →
      SameIDs (getUserChannels g.tables u) (getUserChannels tables u) ∧
        SameIDs (listServers g.tables u) (listServers tables u)
  -- no socket misses the last signal after a change that it has not seen
  | .publish u => ∀ c, (g.socket c).userID = u → (g.socket c).Deaf → 1 < g.owed u ∨
      ((g.socket c).channels.version = g.versions u ∧
        ((g.socket c).phase ≠ .hasChannels → (g.socket c).servers.version = g.versions u))
  | .subscribe _ ok => ok = true
  | .loadChannels _ outcome | .loadServers _ outcome => ∀ rows, outcome ≠ .cut rows
  | .refreshChannels r outcome | .refreshServers r outcome => ∀ refresh,
      g.refreshes r = some refresh → (g.socket refresh.client).cancelled = false →
      outcome = .complete
  -- no refresh lands after one that has read later
  | .refreshClientChannels r => ∀ c channels servers,
      g.refreshes r = some (.loaded c channels servers) →
      (g.socket c).channels.version ≤ channels.version ∧
        (g.socket c).servers.version ≤ servers.version
  | _ => True

/-- All changes have reached the client or are on their way, by signals that are
    due or in its inbox, its timer or a refresh. -/
structure Client.Covered (x : Client) (owed version : Nat) (refreshing : Prop) : Prop where
  half : x.phase = .hasChannels → 0 < owed ∨ x.channels.version = version
  full : x.phase ∈ [.loaded, .registered] → 0 < owed ∨ x.Current version
  running : x.phase = .running → x.cancelled = false → x.userSub = true ∧
    (0 < owed ∨ .refresh ∈ x.inbox ∨ x.refreshTimer = true ∨ refreshing ∨ x.Current version)

/-- A refresh of the client will bring it all changes. -/
def Refreshing (g : GatewayState) (c : ClientID) : Prop :=
  ∃ r refresh, g.refreshes r = some refresh ∧ refresh.client = c ∧
    refresh.Covers (g.versions (g.socket c).userID)

def Covered (g : GatewayState) (c : ClientID) : Prop :=
  (g.socket c).Covered (g.owed (g.socket c).userID) (g.versions (g.socket c).userID)
    (Refreshing g c)

/-- What was read is what it claims to be. -/
structure Validity (g : GatewayState) : Prop where
  positive : ∀ u, 0 < g.versions u
  unused : ∀ c, (g.socket c).phase = .unused →
    (g.socket c).channels.version = 0 ∧ (g.socket c).servers.version = 0
  channels : ∀ c, (g.socket c).channels.Valid (g.versions (g.socket c).userID)
    (getUserChannels g.tables (g.socket c).userID)
  servers : ∀ c, (g.socket c).servers.Valid (g.versions (g.socket c).userID)
    (listServers g.tables (g.socket c).userID)
  refreshes : ∀ r refresh, g.refreshes r = some refresh →
    refresh.Valid (g.versions (g.socket refresh.client).userID)
      (getUserChannels g.tables (g.socket refresh.client).userID)
      (listServers g.tables (g.socket refresh.client).userID)

/-! ## Section 3: Validity -/

variable {x y : Client} {version : Nat}

section Validity

variable {g : GatewayState} {c : ClientID} {l : Label}

theorem step_tables (hl : ∀ tables signalled, l ≠ .change tables signalled) :
    (g.step l).tables = g.tables ∧ (g.step l).versions = g.versions := by
  unfold step
  split
  · cases l with
    | change tables signalled => exact absurd rfl (hl tables signalled)
    | loadChannels | loadServers | refreshChannels | refreshServers | refreshClientChannels =>
      dsimp only [effect]
      split <;> exact ⟨rfl, rfl⟩
    | _ => exact ⟨rfl, rfl⟩
  · exact ⟨rfl, rfl⟩

theorem step_owed (hl : ∀ tables signalled, l ≠ .change tables signalled)
    (hl' : ∀ userID, l ≠ .publish userID) : (g.step l).owed = g.owed := by
  unfold step
  split
  · cases l with
    | change tables signalled => exact absurd rfl (hl tables signalled)
    | publish userID => exact absurd rfl (hl' userID)
    | loadChannels | loadServers | refreshChannels | refreshServers | refreshClientChannels =>
      dsimp only [effect]
      split <;> rfl
    | _ => rfl
  · rfl

/-- A query that is not cut short returns what the store has. -/
theorem Outcome.valid {ids : List ID} {outcome : Outcome} {x : Listing}
    (hcut : ∀ rows, outcome ≠ .cut rows)
    (h : (outcome.apply ids).map (fun ids => ({ ids, version } : Listing)) = some x) :
    x.version = version ∧ x.Valid version ids := by
  obtain ⟨ids', hids, rfl⟩ := Option.map_eq_some_iff.mp h
  cases outcome with
  | complete =>
    injection hids with hids
    exact ⟨rfl, le_refl _, fun _ id => by rw [hids]⟩
  | cut rows => exact absurd rfl (hcut rows)
  | failed => cases hids

/-- What was valid stays so, unless the user is signalled, and then it is out of
    date. -/
theorem Listing.Valid.change {x : Listing} {stored stored' : List ID} {signalled : Prop}
    [Decidable signalled] (h : x.Valid version stored)
    (hsame : ¬ signalled → SameIDs stored stored') :
    x.Valid (if signalled then version + 1 else version) stored' := by
  by_cases hsignalled : signalled
  · rw [if_pos hsignalled]
    refine ⟨Nat.le_succ_of_le h.1, fun heq => ?_⟩
    have hle := h.1
    omega
  · rw [if_neg hsignalled]
    exact ⟨h.1, fun heq => (h.2 heq).trans (hsame hsignalled)⟩

theorem Listing.valid_of_zero {x : Listing} {stored : List ID} (hversion : 0 < version)
    (h : x.version = 0) : x.Valid version stored := by
  refine ⟨by omega, fun heq => ?_⟩
  omega

theorem Moves.valid (h : Moves g c l y) (hg : Validity g) (hguard : Lossless g l) :
    y.channels.Valid (g.versions y.userID) (getUserChannels g.tables y.userID) ∧
      y.servers.Valid (g.versions y.userID) (listServers g.tables y.userID) := by
  have hold := And.intro (hg.channels c) (hg.servers c)
  cases h with
  | authenticate hphase =>
    obtain ⟨hchannels, hservers⟩ := hg.unused c hphase
    exact ⟨valid_of_zero (hg.positive _) hchannels, valid_of_zero (hg.positive _) hservers⟩
  | loadChannels _ hquery => exact ⟨(valid hguard hquery).2, hold.2⟩
  | loadServers _ hquery => exact ⟨hold.1, (valid hguard hquery).2⟩
  | refresh hrefresh => exact hg.refreshes _ _ hrefresh
  | _ => exact hold

theorem Advances.valid {r : RefreshID} {refresh : Refresh} (h : Advances g r l (some refresh))
    (hg : Validity g) (hguard : Lossless g l) :
    refresh.Valid (g.versions (g.socket refresh.client).userID)
      (getUserChannels g.tables (g.socket refresh.client).userID)
      (listServers g.tables (g.socket refresh.client).userID) := by
  generalize hafter : some refresh = after at h
  cases h with
  | stays => exact hg.refreshes r refresh hafter.symm
  | start =>
    injection hafter with hafter
    rw [hafter]
    trivial
  | @channels c outcome hstarted =>
    obtain ⟨channels, hquery, rfl⟩ := Option.map_eq_some_iff.mp hafter.symm
    unfold requery at hquery
    split at hquery
    · cases hquery
    · rename_i hlive
      have hcomplete := hguard _ hstarted (Bool.eq_false_iff.mpr hlive)
      rw [hcomplete] at hquery
      exact (valid (by simp) hquery).2
  | @servers c channels outcome hchannels =>
    obtain ⟨servers, hquery, rfl⟩ := Option.map_eq_some_iff.mp hafter.symm
    unfold requery at hquery
    split at hquery
    · cases hquery
    · rename_i hlive
      have hcomplete := hguard _ hchannels (Bool.eq_false_iff.mpr hlive)
      rw [hcomplete] at hquery
      exact ⟨hg.refreshes r _ hchannels, (valid (by simp) hquery).2⟩
  | lands => cases hafter

theorem Moves.userID (h : Moves g c l y) (hphase : (g.socket c).phase ≠ .unused) :
    y.userID = (g.socket c).userID := by
  cases h with
  | authenticate hunused => exact absurd hunused hphase
  | _ => rfl

theorem begun_ne_unused (h : x.Begun) : x.phase ≠ .unused := by
  intro hphase
  simp [Begun, hphase] at h

theorem validity_change {tables : Tables} {signalled : List ID} (hg : Validity g)
    (hguard : Lossless g (.change tables signalled)) :
    Validity (g.step (.change tables signalled)) := by
  rw [step_of_enabled (l := .change tables signalled) trivial]
  constructor
  · intro u
    dsimp only [effect]
    split
    · exact Nat.succ_pos _
    · exact hg.positive u
  · exact hg.unused
  · exact fun c => (hg.channels c).change fun hnot => (hguard _ hnot).1
  · exact fun c => (hg.servers c).change fun hnot => (hguard _ hnot).2
  · intro r refresh hrefresh
    have hvalid := hg.refreshes r refresh hrefresh
    cases refresh with
    | started client => trivial
    | hasChannels client channels => exact .change hvalid fun h => (hguard _ h).1
    | loaded client channels servers =>
      exact ⟨hvalid.1.change fun h => (hguard _ h).1, hvalid.2.change fun h => (hguard _ h).2⟩

theorem validity_step (hlife : Lifecycle g) (hg : Validity g) (hguard : Lossless g l) :
    Validity (g.step l) := by
  by_cases hchange : ∃ tables signalled, l = .change tables signalled
  · obtain ⟨tables, signalled, rfl⟩ := hchange
    exact validity_change hg hguard
  · have hl : ∀ tables signalled, l ≠ .change tables signalled :=
      fun tables signalled h => hchange ⟨tables, signalled, h⟩
    obtain ⟨htables, hversions⟩ := step_tables (g := g) hl
    constructor
    · rw [hversions]
      exact hg.positive
    · intro c hphase
      have hmoves := step_moves g l c
      generalize (g.step l).socket c = y at hmoves hphase ⊢
      cases hmoves with
      | refresh hrefresh =>
        exact absurd hphase (begun_ne_unused (hlife.refreshes _ _ hrefresh))
      | stays | disconnect | receive | receiveForward | debounce | forward | fire =>
        exact hg.unused c hphase
      | _ => cases hphase
    · rw [htables, hversions]
      exact fun c => ((step_moves g l c).valid hg hguard).1
    · rw [htables, hversions]
      exact fun c => ((step_moves g l c).valid hg hguard).2
    · intro r refresh hrefresh
      have hadvances := step_advances g l r
      rw [hrefresh] at hadvances
      have hbegun : (g.socket refresh.client).Begun := by
        rcases hadvances.client with ⟨before, hbefore, hclient⟩ | htimer
        · rw [← hclient]
          exact hlife.refreshes r before hbefore
        · exact hlife.stirred _ (.inr (.inr htimer))
      rw [htables, hversions, (step_moves g l _).userID (begun_ne_unused hbegun)]
      exact hadvances.valid hg hguard

end Validity

/-! ## Section 4: Coverage -/

section Coverage

variable {g : GatewayState} {c : ClientID} {l : Label}

theorem requery_of_live {query : GatewayState → ID → Outcome → Option Listing}
    {outcome : Outcome} (hlive : (g.socket c).cancelled = false) :
    g.requery c query outcome = query g (g.socket c).userID outcome := by
  unfold requery
  rw [hlive, if_neg Bool.false_ne_true]

theorem Advances.covers {r : RefreshID} {refresh : Refresh} {after : Option Refresh}
    (h : Advances g r l after) (hrefresh : g.refreshes r = some refresh)
    (hguard : Lossless g l) (hlive : (g.socket refresh.client).cancelled = false)
    (hcovers : refresh.Covers (g.versions (g.socket refresh.client).userID)) :
    (∃ refresh', after = some refresh' ∧ refresh'.client = refresh.client ∧
        refresh'.Covers (g.versions (g.socket refresh.client).userID)) ∨
      ∃ channels servers, l = .refreshClientChannels r ∧
        refresh = .loaded refresh.client channels servers := by
  cases h with
  | stays => exact .inl ⟨refresh, hrefresh, rfl, hcovers⟩
  | start _ hnone =>
    rw [hnone] at hrefresh
    cases hrefresh
  | @channels c' outcome hstarted =>
    rw [hstarted] at hrefresh
    injection hrefresh with hrefresh
    subst hrefresh
    rw [hguard _ hstarted hlive, requery_of_live (c := c') hlive]
    exact .inl ⟨.hasChannels c'
      { ids := getUserChannels g.tables (g.socket c').userID
        version := g.versions (g.socket c').userID }, rfl, rfl, rfl⟩
  | @servers c' channels outcome hchannels =>
    rw [hchannels] at hrefresh
    injection hrefresh with hrefresh
    subst hrefresh
    rw [hguard _ hchannels hlive, requery_of_live (c := c') hlive]
    exact .inl ⟨.loaded c' channels
      { ids := listServers g.tables (g.socket c').userID
        version := g.versions (g.socket c').userID }, rfl, rfl, hcovers, rfl⟩
  | @lands c' channels servers hloaded =>
    rw [hloaded] at hrefresh
    injection hrefresh with hrefresh
    subst hrefresh
    exact .inr ⟨channels, servers, rfl, rfl⟩

theorem owed_publish (userID u : ID) :
    (g.step (.publish userID)).owed u = g.owed u ∨
      (u = userID ∧ 0 < g.owed u ∧ (g.step (.publish userID)).owed u = g.owed u - 1) := by
  by_cases howed : 0 < g.owed userID
  · rw [step_of_enabled (l := .publish userID) howed]
    by_cases hu : u = userID
    · subst hu
      exact .inr ⟨rfl, howed, Function.update_self _ _ _⟩
    · exact .inl (Function.update_of_ne hu _ _)
  · left
    rw [step_of_not_enabled (l := .publish userID) howed]

/-- A change takes nothing away: what is not due afterwards was not due before, and
    has not changed. -/
theorem covered_change {tables : Tables} {signalled : List ID} (h : Covered g c) :
    Covered (g.step (.change tables signalled)) c := by
  rw [step_of_enabled (l := .change tables signalled) trivial]
  by_cases hsignalled : (g.socket c).userID ∈ signalled
  · have howed : 0 < (g.effect (.change tables signalled)).owed (g.socket c).userID := by
      dsimp only [effect]
      rw [if_pos hsignalled]
      exact Nat.succ_pos _
    exact ⟨fun _ => .inl howed, fun _ => .inl howed,
      fun hphase hlive => ⟨(h.running hphase hlive).1, .inl howed⟩⟩
  · have howed : (g.effect (.change tables signalled)).owed (g.socket c).userID =
        g.owed (g.socket c).userID := by
      dsimp only [effect]
      rw [if_neg hsignalled]
    have hversion : (g.effect (.change tables signalled)).versions (g.socket c).userID =
        g.versions (g.socket c).userID := by
      dsimp only [effect]
      rw [if_neg hsignalled]
    have hsocket : (g.effect (.change tables signalled)).socket c = g.socket c := rfl
    unfold Covered Refreshing
    rw [hsocket, howed, hversion]
    exact h

theorem Client.Covered.mono {owed owed' : Nat} {P Q : Prop} (h : x.Covered owed version P)
    (howed : owed ≤ owed') (hPQ : x.cancelled = false → P → Q ∨ x.Current version) :
    x.Covered owed' version Q := by
  refine ⟨fun hphase => ?_, fun hphase => ?_, fun hphase hlive => ?_⟩
  · exact (h.half hphase).imp_left fun h => Nat.lt_of_lt_of_le h howed
  · exact (h.full hphase).imp_left fun h => Nat.lt_of_lt_of_le h howed
  · obtain ⟨hsub, hcases⟩ := h.running hphase hlive
    refine ⟨hsub, ?_⟩
    rcases hcases with hdue | hinbox | htimer | hP | hcurrent
    · exact .inl (Nat.lt_of_lt_of_le hdue howed)
    · exact .inr (.inl hinbox)
    · exact .inr (.inr (.inl htimer))
    · exact .inr (.inr (.inr (hPQ hlive hP)))
    · exact .inr (.inr (.inr (.inr hcurrent)))

/-- A refresh on the way stays on the way, or lands with this step. -/
theorem refreshing_step (hguard : Lossless g l)
    (hversions : (g.step l).versions = g.versions)
    (huser : ((g.step l).socket c).userID = (g.socket c).userID)
    (hlive : (g.socket c).cancelled = false) (h : Refreshing g c) :
    Refreshing (g.step l) c ∨ ∃ r channels servers, l = .refreshClientChannels r ∧
      g.refreshes r = some (.loaded c channels servers) ∧
      channels.version = g.versions (g.socket c).userID ∧
      servers.version = g.versions (g.socket c).userID := by
  obtain ⟨r, refresh, hrefresh, rfl, hcovers⟩ := h
  rcases (step_advances g l r).covers hrefresh hguard hlive hcovers with
    ⟨refresh', hafter, hclient, hcovers'⟩ | ⟨channels, servers, hl, hloaded⟩
  · left
    refine ⟨r, refresh', hafter, hclient, ?_⟩
    rw [hversions, huser]
    exact hcovers'
  · right
    rw [hloaded] at hrefresh hcovers
    exact ⟨r, channels, servers, hl, hrefresh, hcovers.1, hcovers.2⟩

theorem Client.Covered.of_phase {owed : Nat} {P : Prop}
    (h : x.phase ∉ [.hasChannels, .loaded, .registered, .running]) : x.Covered owed version P := by
  simp only [mem_cons, not_mem_nil, or_false, not_or] at h
  obtain ⟨hhalf, hloaded, hregistered, hrunning⟩ := h
  refine ⟨fun hphase => absurd hphase hhalf, fun hphase => ?_, fun hphase => absurd hphase hrunning⟩
  rcases mem_pair.mp hphase with hphase | hphase
  · exact absurd hphase hloaded
  · exact absurd hphase hregistered

/-- A signal that is due becomes a message; only a socket that has no subscription
    yet may miss it, and then it has seen the change. -/
theorem covered_publish {userID : ID} (hlife : Lifecycle g) (hguard : Lossless g (.publish userID))
    (h : Covered g c) : Covered (g.step (.publish userID)) c := by
  by_cases howed : 0 < g.owed userID
  swap
  · rw [step_of_not_enabled (l := .publish userID) howed]
    exact h
  have hmoves := step_moves g (.publish userID) c
  have hversions : (g.step (.publish userID)).versions = g.versions :=
    (step_tables (by simp)).2
  have hrefreshes : (g.step (.publish userID)).refreshes = g.refreshes := by
    rw [step_of_enabled (l := .publish userID) howed]
    rfl
  unfold Covered Refreshing
  rw [hversions, hrefreshes]
  generalize (g.step (.publish userID)).socket c = y at hmoves ⊢
  cases hmoves with
  | refuse => exact .of_phase (by simp)
  | receive hsub =>
    -- only sockets with a subscription run
    have hbegun := hlife.stirred c (.inl hsub)
    refine ⟨fun hphase => ?_, fun hphase => ?_, fun _ _ => ⟨hsub, .inr (.inl (by simp))⟩⟩
    · simp_all [Begun]
    · rcases mem_pair.mp hphase with hphase | hphase
      · simp_all [Begun]
      · simp_all [Begun]
  | stays hsub =>
    rcases owed_publish (g := g) userID (g.socket c).userID with
      hsame | ⟨hu, -, hless⟩
    · rw [hsame]
      exact h
    · rw [hless]
      have hmissed : (g.socket c).Deaf → 0 < g.owed (g.socket c).userID - 1 ∨
          ((g.socket c).channels.version = g.versions (g.socket c).userID ∧
            ((g.socket c).phase ≠ .hasChannels →
              (g.socket c).servers.version = g.versions (g.socket c).userID)) := by
        intro hdeaf
        rw [hu]
        exact (hguard c hu hdeaf).imp_left fun h => Nat.sub_pos_of_lt h
      refine ⟨fun hphase => ?_, fun hphase => ?_, fun hphase hlive => ?_⟩
      · exact (hmissed (by simp [Deaf, hphase])).imp_right fun h => h.1
      · have hdeaf : (g.socket c).Deaf := mem_cons_of_mem _ hphase
        have hnot : (g.socket c).phase ≠ .hasChannels := by
          intro hhalf
          rw [hhalf] at hphase
          exact absurd hphase (by decide)
        exact (hmissed hdeaf).imp_right fun h => ⟨h.1, h.2 hnot⟩
      · have htrue := (h.running hphase hlive).1
        rw [hsub userID rfl howed hu] at htrue
        cases htrue

theorem Moves.covered (hmoves : Moves g c l y) (hlife : Lifecycle g) (hvalid : Validity g)
    (hguard : Lossless g l) (hl : ∀ userID, l ≠ .publish userID) (h : Covered g c) {Q : Prop}
    (hrefreshing : (g.socket c).cancelled = false → Refreshing g c →
      Q ∨ ∃ r channels servers, l = .refreshClientChannels r ∧
        g.refreshes r = some (.loaded c channels servers) ∧
        channels.version = g.versions (g.socket c).userID ∧
        servers.version = g.versions (g.socket c).userID)
    (hfires : ∀ r, l = .fire c r → (g.socket c).refreshTimer = true → g.refreshes r = none → Q) :
    y.Covered (g.owed y.userID) (g.versions y.userID) Q := by
  -- a refresh can only land with a step of its own
  have hgoes : (∀ r, l ≠ .refreshClientChannels r) → (g.socket c).cancelled = false →
      Refreshing g c → Q ∨ (g.socket c).Current (g.versions (g.socket c).userID) := by
    intro hne hlive hP
    rcases hrefreshing hlive hP with hQ | ⟨r, channels, servers, hl, -⟩
    · exact .inl hQ
    · exact absurd hl (hne r)
  cases hmoves with
  | stays _ hlands =>
    refine h.mono le_rfl fun hlive hP => ?_
    rcases hrefreshing hlive hP with hQ | ⟨r, channels, servers, hl, hrefresh, -⟩
    · exact .inl hQ
    · exact absurd hrefresh (hlands r channels servers hl)
  | authenticate | refuse | unsubscribe | stopTimer | remove =>
    exact .of_phase (by simp)
  | loadChannels _ hquery =>
    exact ⟨fun _ => .inr (Outcome.valid hguard hquery).1, fun hphase => by simp at hphase, nofun⟩
  | loadServers hphase hquery =>
    refine ⟨nofun, fun _ => ?_, nofun⟩
    exact (h.half hphase).imp_right fun hchannels => ⟨hchannels, (Outcome.valid hguard hquery).1⟩
  | add hphase =>
    exact ⟨nofun, fun _ => h.full (by simp [hphase]), nofun⟩
  | subscribe hphase =>
    refine ⟨nofun, fun h => by simp at h, fun _ _ => ⟨hguard, ?_⟩⟩
    exact (h.full (by simp [hphase])).imp_right fun hcurrent => .inr (.inr (.inr hcurrent))
  | disconnect hphase =>
    refine ⟨fun h => ?_, fun h => ?_, fun _ hlive => nomatch hlive⟩
    · exact absurd (hphase.symm.trans h) (by simp)
    · rw [show (g.socket c).phase = _ from hphase] at h
      exact absurd h (by decide)
  | receive => exact absurd rfl (hl _)
  | receiveForward =>
    refine ⟨h.half, h.full, fun hphase hlive => ?_⟩
    have hmono : (g.socket c).Covered (g.owed (g.socket c).userID)
        (g.versions (g.socket c).userID) Q := h.mono le_rfl (hgoes (by simp))
    obtain ⟨hsub, hcases⟩ := hmono.running hphase hlive
    exact ⟨hsub, hcases.imp_right fun hrest => hrest.imp_left fun hinbox =>
      mem_append_left _ hinbox⟩
  | debounce hinbox =>
    refine ⟨h.half, h.full, fun hphase hlive => ?_⟩
    exact ⟨(h.running hphase hlive).1, .inr (.inr (.inl rfl))⟩
  | forward hinbox =>
    refine ⟨h.half, h.full, fun hphase hlive => ?_⟩
    have hmono : (g.socket c).Covered (g.owed (g.socket c).userID)
        (g.versions (g.socket c).userID) Q := h.mono le_rfl (hgoes (by simp))
    obtain ⟨hsub, hcases⟩ := hmono.running hphase hlive
    refine ⟨hsub, hcases.imp_right fun hrest => hrest.imp_left fun hmem => ?_⟩
    rw [hinbox] at hmem
    simpa using hmem
  | fire htimer hnone =>
    refine ⟨h.half, h.full, fun hphase hlive => ?_⟩
    exact ⟨(h.running hphase hlive).1, .inr (.inr (.inr (.inl (hfires _ rfl htimer hnone))))⟩
  | @refresh r channels servers hrefresh =>
    -- the client runs, and the lists it gets are no older than those it has
    have hbegun := hlife.refreshes r _ hrefresh
    obtain ⟨hchannels, hservers⟩ := hguard c channels servers hrefresh
    obtain ⟨hchannelsValid, hserversValid⟩ := hvalid.refreshes r _ hrefresh
    refine ⟨fun hphase => ?_, fun hphase => ?_, fun hphase hlive => ?_⟩
    · simp_all [Begun, Refresh.client]
    · rcases mem_pair.mp hphase with hphase | hphase
      · simp_all [Begun, Refresh.client]
      · simp_all [Begun, Refresh.client]
    · obtain ⟨hsub, hcases⟩ := h.running hphase hlive
      refine ⟨hsub, ?_⟩
      rcases hcases with hdue | hinbox | htimer | hP | hcurrent
      · exact .inl hdue
      · exact .inr (.inl hinbox)
      · exact .inr (.inr (.inl htimer))
      · rcases hrefreshing hlive hP with hQ | ⟨r', channels', servers', hl', hrefresh', hversions⟩
        · exact .inr (.inr (.inr (.inl hQ)))
        · injection hl' with hr
          subst hr
          rw [hrefresh] at hrefresh'
          injection hrefresh' with hrefresh'
          injection hrefresh' with _ hchannels' hservers'
          subst hchannels' hservers'
          exact .inr (.inr (.inr (.inr hversions)))
      · have hle₁ := hchannelsValid.1
        have hle₂ := hserversValid.1
        have heq₁ := hcurrent.1
        have heq₂ := hcurrent.2
        refine .inr (.inr (.inr (.inr ⟨?_, ?_⟩)))
        · show channels.version = g.versions (g.socket c).userID
          exact le_antisymm hle₁ (heq₁ ▸ hchannels)
        · show servers.version = g.versions (g.socket c).userID
          exact le_antisymm hle₂ (heq₂ ▸ hservers)

theorem covered_step (hlife : Lifecycle g) (hvalid : Validity g) (hguard : Lossless g l)
    (h : Covered g c) : Covered (g.step l) c := by
  by_cases hchange : ∃ tables signalled, l = .change tables signalled
  · obtain ⟨tables, signalled, rfl⟩ := hchange
    exact covered_change h
  by_cases hpublish : ∃ userID, l = .publish userID
  · obtain ⟨userID, rfl⟩ := hpublish
    exact covered_publish hlife hguard h
  have hl : ∀ tables signalled, l ≠ .change tables signalled :=
    fun tables signalled h => hchange ⟨tables, signalled, h⟩
  have hl' : ∀ userID, l ≠ .publish userID := fun userID h => hpublish ⟨userID, h⟩
  have hversions := (step_tables (g := g) hl).2
  unfold Covered
  rw [hversions, step_owed hl hl']
  refine (step_moves g l c).covered hlife hvalid hguard hl' h ?_ ?_
  · intro hlive hP
    refine refreshing_step hguard hversions ?_ hlive hP
    obtain ⟨r, refresh, hrefresh, rfl, -⟩ := hP
    exact (step_moves g l _).userID (begun_ne_unused (hlife.refreshes r refresh hrefresh))
  · intro r hfire htimer hnone
    subst hfire
    refine ⟨r, .started c, ?_, rfl, trivial⟩
    rw [step_of_enabled (l := .fire c r) ⟨htimer, hnone⟩]
    exact Function.update_self _ _ _

end Coverage

/-! ## Section 5: The indexes are what the clients say -/

/-- The index has only clients that were added, and has the registered ones under
    exactly their ids. -/
structure IndexFits (index : Index) (entered registered : ClientID → Prop)
    (ids : ClientID → List ID) : Prop where
  within : ∀ id c, index id c = true → entered c
  listed : ∀ c, registered c → ∀ id, index id c = true ↔ id ∈ ids c

section Index

variable {index : Index} {entered entered' registered registered' : ClientID → Prop}
  {idsOf idsOf' : ClientID → List ID} {c : ClientID} {new : List ID}

section

variable (h : IndexFits index entered registered idsOf)
include h

theorem IndexFits.congr (hentered : ∀ c, entered c → entered' c)
    (hsame : ∀ c, registered' c → registered c ∧ idsOf' c = idsOf c) :
    IndexFits index entered' registered' idsOf' := by
  refine ⟨fun id c hid => hentered c (h.within id c hid), fun c hreg id => ?_⟩
  obtain ⟨hold, hids⟩ := hsame c hreg
  rw [hids]
  exact h.listed c hold id

theorem IndexFits.enroll (hnew : ¬ entered c)
    (hentered : ∀ c, entered c → entered' c) (hself : entered' c) (hids : idsOf' c = idsOf c)
    (hsame : ∀ c', c' ≠ c → registered' c' → registered c' ∧ idsOf' c' = idsOf c') :
    IndexFits (index.enroll c (idsOf c)) entered' registered' idsOf' := by
  constructor
  · intro id c' hid
    rcases enroll_iff.mp hid with hold | ⟨rfl, -⟩
    · exact hentered c' (h.within id c' hold)
    · exact hself
  · intro c' hreg id
    rw [enroll_iff]
    by_cases hc : c' = c
    · subst hc
      have hold : ¬ index id c' = true := fun hid => hnew (h.within id c' hid)
      rw [hids, or_iff_right hold]
      simp
    · obtain ⟨hold, heq⟩ := hsame c' hc hreg
      rw [heq, or_iff_left fun h => hc h.1]
      exact h.listed c' hold id

theorem IndexFits.withdraw (hentered : ∀ c, entered c → entered' c) (hself : ¬ registered' c)
    (hsame : ∀ c', c' ≠ c → registered' c' → registered c' ∧ idsOf' c' = idsOf c') :
    IndexFits (index.withdraw c (idsOf c)) entered' registered' idsOf' := by
  constructor
  · intro id c' hid
    exact hentered c' (h.within id c' (withdraw_iff.mp hid).1)
  · intro c' hreg id
    have hc : c' ≠ c := fun hc => hself (hc ▸ hreg)
    obtain ⟨hold, heq⟩ := hsame c' hc hreg
    rw [withdraw_iff, heq, and_iff_left fun h => hc h.1]
    exact h.listed c' hold id

theorem IndexFits.refresh
    (hself : entered c) (hentered : ∀ c, entered c → entered' c) (hids : idsOf' c = new)
    (hreg : ∀ c', registered' c' → registered c') (hsame : ∀ c', c' ≠ c → idsOf' c' = idsOf c') :
    IndexFits (index.refresh c (idsOf c) new) entered' registered' idsOf' := by
  constructor
  · intro id c' hid
    by_cases hc : c' = c
    · rw [hc]
      exact hentered c hself
    · rw [refresh_of_ne hc] at hid
      exact hentered c' (h.within id c' hid)
  · intro c' hreg' id
    by_cases hc : c' = c
    · subst hc
      rw [refresh_self, h.listed c' (hreg c' hreg'), hids]
      tauto
    · rw [refresh_of_ne hc, hsame c' hc]
      exact h.listed c' (hreg c' hreg') id

end

end Index

/-- `addClient` is done. -/
def Client.Entered (x : Client) : Prop := x.Registered ∨ x.phase = .removed

def IndexesFit (g : GatewayState) : Prop :=
  ∀ side, IndexFits (g.index side) (fun c => (g.socket c).Entered)
    (fun c => (g.socket c).Registered) fun c => ((g.socket c).listing side).ids

section Fits

variable {g : GatewayState} {c : ClientID} {l : Label}

theorem Moves.entered (h : Moves g c l y) (hx : (g.socket c).Entered) : y.Entered := by
  unfold Entered Registered at hx ⊢
  have hnext := h.phase
  simp only [mem_cons, not_mem_nil, or_false] at hx ⊢
  rcases hnext with hnext | hnext
  · rw [hnext]
    exact hx
  · rcases hx with (hx | hx | hx | hx) | hx
    · simp_all [Phase.next]
    · simp_all [Phase.next]
    · simp_all [Phase.next]
    · simp_all [Phase.next]
    · simp_all [Phase.next]

theorem not_entered_of_loaded (h : (g.socket c).phase = .loaded) : ¬ (g.socket c).Entered := by
  simp [Entered, Registered, h]

theorem entered_of_begun (h : x.Begun) : x.Entered := registered_or_removed h

theorem indexesFit_step (hlife : Lifecycle g) (h : IndexesFit g) : IndexesFit (g.step l) := by
  intro side
  have hentered := fun c => (step_moves g l c).entered
  rcases hl : l.locks with _ | _
  · rw [(step_sameIndexes (g := g) hl).index]
    refine (h side).congr hentered fun c hreg => ?_
    have hsame := (step_moves g l c).sameEntry hl
    have hold := hsame.registered.mp hreg
    exact ⟨hold, by rw [hsame.listing hold]⟩
  · rcases step_lock (g := g) hl with hstep | ⟨c, -, hphase, hstep⟩ | ⟨c, -, hphase, hstep⟩ |
      ⟨r, c, channels, servers, -, hrefresh, hstep⟩
    · rw [hstep]
      exact h side
    · rw [hstep] at hentered ⊢
      rw [addClient_index]
      refine (h side).enroll (not_entered_of_loaded hphase) hentered
        (.inl addClient_registered) ?_ fun c' hne hreg => ?_
      · rw [addClient_socket_self]
        rfl
      · rw [addClient_socket_of_ne hne] at hreg ⊢
        exact ⟨hreg, rfl⟩
    · rw [hstep] at hentered ⊢
      rw [removeClient_index]
      refine (h side).withdraw hentered ?_ fun c' hne hreg => ?_
      · rw [removeClient_socket_self]
        simp [Registered]
      · rw [removeClient_socket_of_ne hne] at hreg ⊢
        exact ⟨hreg, rfl⟩
    · rw [hstep] at hentered ⊢
      rw [setRefresh_index, refreshClientChannels_index]
      exact (h side).refresh (entered_of_begun (hlife.refreshes r _ hrefresh)) hentered
        (congrArg ids refreshClientChannels_listing)
        (fun c' => refreshClientChannels_registered.mp)
        fun c' hne => congrArg (fun x => (x.listing side).ids)
          (refreshClientChannels_socket_of_ne hne)

end Fits

/-! ## Section 6: No change is lost -/

structure Freshness (g : GatewayState) : Prop where
  lifecycle : Lifecycle g
  validity : Validity g
  covered : ∀ c, Covered g c
  indexes : IndexesFit g

theorem freshness_start (tables : Tables) : Freshness (.start tables) := by
  refine ⟨lifecycle_start tables, ⟨fun _ => Nat.one_pos, fun _ _ => ⟨rfl, rfl⟩, fun c => ?_,
    fun c => ?_, fun _ _ => nofun⟩, fun c => ?_, fun side => ⟨fun id c h => ?_, fun c hreg => ?_⟩⟩
  · exact valid_of_zero Nat.one_pos rfl
  · exact valid_of_zero Nat.one_pos rfl
  · exact .of_phase (by simp [start])
  · cases side <;> cases h
  · simp [start, Registered] at hreg

theorem freshness_step {g : GatewayState} {l : Label} (h : Freshness g) (hguard : Lossless g l) :
    Freshness (g.step l) where
  lifecycle := lifecycle_step h.lifecycle
  validity := validity_step h.lifecycle h.validity hguard
  covered := fun c => covered_step h.lifecycle h.validity hguard (h.covered c)
  indexes := indexesFit_step h.lifecycle h.indexes

/-- All signals for the client are handled, and none of its refreshes is pending or
    running. -/
structure Settled (g : GatewayState) (c : ClientID) : Prop where
  owed : g.owed (g.socket c).userID = 0
  inbox : .refresh ∉ (g.socket c).inbox
  timer : (g.socket c).refreshTimer = false
  refreshes : ∀ r refresh, g.refreshes r = some refresh → refresh.client ≠ c

/-- The lists of the client and its entries are what the store has. -/
structure UpToDate (g : GatewayState) (c : ClientID) : Prop where
  channels : SameIDs (g.socket c).channels.ids (getUserChannels g.tables (g.socket c).userID)
  servers : SameIDs (g.socket c).servers.ids (listServers g.tables (g.socket c).userID)
  channelClients : ∀ id, g.channelClients id c = true ↔
    id ∈ getUserChannels g.tables (g.socket c).userID
  serverClients : ∀ id, g.serverClients id c = true ↔ id ∈ listServers g.tables (g.socket c).userID

/-- A settled client has seen all changes. -/
theorem current_of_settled {g : GatewayState} {c : ClientID} (h : Covered g c)
    (hconnected : (g.socket c).Connected) (hsettled : Settled g c) :
    (g.socket c).Current (g.versions (g.socket c).userID) := by
  obtain ⟨hphase, hlive⟩ := hconnected
  have howed : ¬ 0 < g.owed (g.socket c).userID := by
    rw [hsettled.owed]
    exact lt_irrefl 0
  rcases mem_pair.mp hphase with hphase | hphase
  · exact (h.full (by simp [hphase])).resolve_left howed
  · rcases (h.running hphase hlive).2 with hdue | hinbox | htimer | hrefreshing | hcurrent
    · exact absurd hdue howed
    · exact absurd hinbox hsettled.inbox
    · rw [hsettled.timer] at htimer
      cases htimer
    · obtain ⟨r, refresh, hrefresh, hclient, -⟩ := hrefreshing
      exact absurd hclient (hsettled.refreshes r refresh hrefresh)
    · exact hcurrent

/-- **No refresh is lost.** In every run whose steps lose no change, a connected
    client with nothing pending is indexed under what the store has. -/
theorem settled_upToDate (tables : Tables) (ls : List Label)
    (hrun : Run.Guarded step Lossless (.start tables) ls) (c : ClientID)
    (hconnected : ((after tables ls).socket c).Connected)
    (hsettled : Settled (.after tables ls) c) : UpToDate (.after tables ls) c := by
  have hfresh : Freshness (.after tables ls) :=
    Run.exec_invariant (fun g l h hguard => freshness_step h hguard) (freshness_start tables) hrun
  obtain ⟨hchannels, hservers⟩ := current_of_settled (hfresh.covered c) hconnected hsettled
  have hregistered : ((after tables ls).socket c).Registered := by
    rcases mem_pair.mp hconnected.1 with hphase | hphase
    · simp [Registered, hphase]
    · simp [Registered, hphase]
  have hchannelIDs := (hfresh.validity.channels c).2 hchannels
  have hserverIDs := (hfresh.validity.servers c).2 hservers
  exact ⟨hchannelIDs, hserverIDs,
    fun id => ((hfresh.indexes .channels).listed c hregistered id).trans (hchannelIDs id),
    fun id => ((hfresh.indexes .servers).listed c hregistered id).trans (hserverIDs id)⟩

theorem office_others {u : ID} (hu : u ≠ "ann") :
    getUserChannels officeTables u = getUserChannels busyTables u ∧
      listServers officeTables u = listServers busyTables u := by
  have hne : ¬ "ann" = u := fun h => hu h.symm
  simp [getUserChannels, listServers, officeTables, busyTables, isChannelMember, hne]

/-- The refresh of a connected socket brings it the news. -/
theorem settled_upToDate_office :
    UpToDate (.after officeTables (connect 0 ++ newsRefresh ++ [.refreshClientChannels 0])) 0 := by
  have hguarded : Run.Guarded step Lossless (.start officeTables)
      (connect 0 ++ newsRefresh ++ [.refreshClientChannels 0]) := by
    refine ⟨trivial, ?_, ?_, trivial, rfl, ?_, ?_, trivial, trivial, fun _ _ _ => rfl,
      fun _ _ _ => rfl, ?_, trivial⟩
    · intro rows
      simp
    · intro rows
      simp
    · intro u hu
      obtain ⟨hchannels, hservers⟩ := office_others (u := u) (by simpa using hu)
      exact ⟨fun id => by rw [← hchannels]; rfl, fun id => by rw [← hservers]; rfl⟩
    · -- no socket is between its first query and its subscription
      intro c _ hdeaf
      rcases c with _ | n
      · exact absurd hdeaf (by decide)
      · have hunused : ((after officeTables
            (connect 0 ++ [.change busyTables ["ann"]])).socket (n + 1)).phase = .unused := rfl
        have hnot : ¬ ((after officeTables
            (connect 0 ++ [.change busyTables ["ann"]])).socket (n + 1)).Deaf := by
          simp [Deaf, hunused]
        exact absurd hdeaf hnot
    · intro c channels servers hrefresh
      have hloaded : (after officeTables (connect 0 ++ newsRefresh)).refreshes 0 =
          some (.loaded 0 ⟨["general", "news"], 2⟩ ⟨["office"], 2⟩) := by decide
      have hsame := Option.some.inj (hloaded.symm.trans hrefresh)
      injection hsame with hclient hchannels hservers
      subst hclient hchannels hservers
      exact ⟨by decide, by decide⟩
  refine settled_upToDate officeTables _ hguarded 0 (by decide)
    ⟨by decide, by decide, by decide, ?_⟩
  intro r refresh hrefresh
  rcases r with _ | n
  · have hnone : (after officeTables
        (connect 0 ++ newsRefresh ++ [.refreshClientChannels 0])).refreshes 0 = none := by decide
    exact absurd (hnone.symm.trans hrefresh) nofun
  · have hnone : (after officeTables
        (connect 0 ++ newsRefresh ++ [.refreshClientChannels 0])).refreshes (n + 1) = none := rfl
    exact absurd (hnone.symm.trans hrefresh) nofun

/-- The signal comes after the lists are loaded and before the subscription. -/
def deafRun : List Label :=
  [.authenticateFirstMessage 0 "ann" "phone", .loadChannels 0 .complete, .loadServers 0 .complete,
    .change busyTables ["ann"], .publish "ann", .addClient 0, .subscribe 0 true]

/-- A refresh that has read before the change lands after one that has read later. -/
def overtakenRun : List Label :=
  connect 0 ++ [.change officeTables ["ann"], .publish "ann", .callback 0, .fire 0 1,
    .refreshChannels 1 .complete, .refreshServers 1 .complete] ++ newsRefresh ++
    [.refreshClientChannels 0, .refreshClientChannels 1]

theorem misses_news {ls : List Label}
    (hids : ((after officeTables ls).socket 0).channels.ids = ["general"])
    (hnews : "news" ∈ getUserChannels (after officeTables ls).tables
      ((after officeTables ls).socket 0).userID) :
    ¬ UpToDate (.after officeTables ls) 0 := by
  intro huptodate
  have hmem := (huptodate.channels "news").mpr hnews
  rw [hids] at hmem
  exact absurd hmem (by decide)

/-- In both runs the socket is settled and misses the news. -/
theorem settled_misses_news :
    (((after officeTables deafRun).socket 0).Connected ∧
      Settled (.after officeTables deafRun) 0 ∧ ¬ UpToDate (.after officeTables deafRun) 0) ∧
    ((after officeTables overtakenRun).socket 0).Connected ∧
      Settled (.after officeTables overtakenRun) 0 ∧
      ¬ UpToDate (.after officeTables overtakenRun) 0 := by
  constructor
  · refine ⟨by decide, ⟨by decide, by decide, by decide, ?_⟩, misses_news (by decide) (by decide)⟩
    intro r refresh hrefresh
    exact absurd hrefresh nofun
  · refine ⟨by decide, ⟨by decide, by decide, by decide, ?_⟩, misses_news (by decide) (by decide)⟩
    intro r refresh hrefresh
    rcases r with _ | _ | n
    · exact absurd (hrefresh : none = _) nofun
    · exact absurd (hrefresh : none = _) nofun
    · exact absurd (hrefresh : none = _) nofun

end Meza.Gateway
