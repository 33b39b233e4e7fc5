import Meza.Lib.Run
import Meza.Store.ChatStore

/-! # The gateway

    The gateway keeps a WebSocket for each connected device and routes events to
    sockets by four indexes. Sockets come and go at any time, and the lists of
    channels and servers that a socket is indexed under are read again when a
    signal says that they have changed.

    Every query of the store and every section under a lock is a step of its
    own, so that the steps of different sockets, and those of the refreshes of
    one socket, interleave in any order. -/

namespace Meza.Gateway

open Store Function

/-! ## Section 1: Sockets -/

/-- The address of a `*Client`. -/
abbrev ClientID : Type := Nat

/-- A call of `refreshClientChannels`. -/
abbrev RefreshID : Type := Nat

/-- How far `HandleWebSocket` has come with a socket. -/
inductive Phase where
  | unused
  /-- The first message has been authenticated. -/
  | accepted
  | hasChannels
  /-- Channels and servers are loaded. -/
  | loaded
  /-- `addClient` is done. -/
  | registered
  /-- The subscription has been tried, and the pumps run. -/
  | running
  /-- `removeClient` has unsubscribed. -/
  | unsubscribed
  /-- `removeClient` has stopped the timer. -/
  | stopped
  | removed
  /-- The lists could not be loaded. -/
  | refused
  deriving DecidableEq, Repr

/-- A message of the user's subscription. Without a payload it asks for a
    refresh, else it is passed on to the socket. -/
inductive Signal where
  | refresh
  | forward
  deriving DecidableEq, Repr

/-- A list from the store. The version is not part of the program: it counts the
    changes that the list takes into account. -/
structure Listing where
  ids : List ID := []
  version : Nat := 0
  deriving DecidableEq, Repr

structure Client where
  userID : ID := ""
  deviceID : ID := ""
  phase : Phase := .unused
  channels : Listing := {}
  servers : Listing := {}
  /-- There is a subscription. -/
  userSub : Bool := false
  /-- The shared context is cancelled. -/
  cancelled : Bool := false
  /-- The messages that the subscription has yet to handle. -/
  inbox : List Signal := []
  /-- The timer runs. -/
  refreshTimer : Bool := false
  deriving DecidableEq, Repr

def Client.key (c : Client) : String := c.userID ++ ":" ++ c.deviceID

/-- `addClient` is done and the lock section of `removeClient` is not. -/
def Client.Registered (c : Client) : Prop :=
  c.phase ∈ [.registered, .running, .unsubscribed, .stopped]

instance (c : Client) : Decidable c.Registered := inferInstanceAs (Decidable (_ ∈ _))

/-- The pumps run and nothing has ended them. -/
def Client.Connected (c : Client) : Prop :=
  c.phase ∈ [.registered, .running] ∧ c.cancelled = false

instance (c : Client) : Decidable c.Connected := inferInstanceAs (Decidable (_ ∧ _))

/-- How far a refresh has come. -/
inductive Refresh where
  | started (client : ClientID)
  | hasChannels (client : ClientID) (channels : Listing)
  | loaded (client : ClientID) (channels servers : Listing)
  deriving DecidableEq, Repr

def Refresh.client : Refresh → ClientID
  | .started client | .hasChannels client _ | .loaded client _ _ => client

/-- What is published for the notification service. -/
inductive Notice where
  | deviceConnected (userID deviceID : ID)
  | deviceDisconnected (userID deviceID : ID)
  deriving DecidableEq, Repr

/-- `map[string]map[*Client]struct{}`; a missing key is an empty set. -/
abbrev Index : Type := ID → ClientID → Bool

structure GatewayState where
  /-- The tables behind the chat store. -/
  tables : Tables
  /-- How often a user's lists may have changed; not part of the program. -/
  versions : ID → Nat := fun _ => 1
  /-- The signals that are due to a user after changes. -/
  owed : ID → Nat := fun _ => 0
  socket : ClientID → Client := fun _ => {}
  refreshes : RefreshID → Option Refresh := fun _ => none
  clients : String → Option ClientID := fun _ => none
  userClients : ID → List ClientID := fun _ => []
  channelClients : Index := fun _ _ => false
  serverClients : Index := fun _ _ => false
  notices : List Notice := []

/-- The two kinds of lists that a client is indexed under. -/
inductive Side where
  | channels
  | servers
  deriving DecidableEq, Repr

def Side.of {α : Type} (channels servers : α) : Side → α
  | .channels => channels
  | .servers => servers

def Client.listing (x : Client) (side : Side) : Listing := side.of x.channels x.servers

def GatewayState.index (g : GatewayState) (side : Side) : Index :=
  side.of g.channelClients g.serverClients

/-! ## Section 2: Lock sections -/

/-- Adds the client under every id of the list. -/
def Index.enroll (index : Index) (c : ClientID) (ids : List ID) : Index := fun id c' =>
  index id c' || (c' = c && id ∈ ids)

/-- Deletes the client under every id of the list. -/
def Index.withdraw (index : Index) (c : ClientID) (ids : List ID) : Index := fun id c' =>
  index id c' && !(c' = c && id ∈ ids)

/-- From the old list to the new one: deletes what is gone, then adds what is
    new. -/
def Index.refresh (index : Index) (c : ClientID) (old new : List ID) : Index :=
  (index.withdraw c (old.filter (· ∉ new))).enroll c (new.filter (· ∉ old))

/-- Changes one socket. -/
def GatewayState.update (g : GatewayState) (c : ClientID) (f : Client → Client) : GatewayState :=
  { g with socket := Function.update g.socket c (f (g.socket c)) }

def GatewayState.addClient (g : GatewayState) (c : ClientID) : GatewayState :=
  let client := g.socket c
  { g.update c ({ · with phase := .registered }) with
    clients := Function.update g.clients client.key (some c)
    userClients :=
      Function.update g.userClients client.userID (g.userClients client.userID ++ [c])
    channelClients := g.channelClients.enroll c client.channels.ids
    serverClients := g.serverClients.enroll c client.servers.ids
    notices := g.notices ++ [.deviceConnected client.userID client.deviceID] }

/-- The lists of the client stay as they are. -/
def GatewayState.removeClient (g : GatewayState) (c : ClientID) : GatewayState :=
  let client := g.socket c
  { g.update c ({ · with phase := .removed }) with
    clients := Function.update g.clients client.key none
    userClients := Function.update g.userClients client.userID
      ((g.userClients client.userID).filter (· ≠ c))
    channelClients := g.channelClients.withdraw c client.channels.ids
    serverClients := g.serverClients.withdraw c client.servers.ids
    notices := g.notices ++ [.deviceDisconnected client.userID client.deviceID] }

/-- The lock section of `refreshClientChannels`; it does not ask whether the
    client is still there. -/
def GatewayState.refreshClientChannels (g : GatewayState) (c : ClientID)
    (channels servers : Listing) : GatewayState :=
  let client := g.socket c
  { g.update c ({ · with channels, servers }) with
    channelClients := g.channelClients.refresh c client.channels.ids channels.ids
    serverClients := g.serverClients.refresh c client.servers.ids servers.ids }

/-! ## Section 3: Steps -/

/-- How a query ends. The loops over the rows do not ask why the rows end, so a
    query may be cut short without an error. -/
inductive Outcome where
  | complete
  | cut (rows : Nat)
  | failed
  deriving DecidableEq, Repr

def Outcome.apply (ids : List ID) : Outcome → Option (List ID)
  | .complete => some ids
  | .cut rows => some (ids.take rows)
  | .failed => none

/-- `GetUserChannels` of the chat store. -/
def GatewayState.queryChannels (g : GatewayState) (userID : ID) (outcome : Outcome) :
    Option Listing :=
  (outcome.apply (ChatStore.getUserChannels g.tables userID)).map
    fun ids => { ids, version := g.versions userID }

/-- `ListServers` of the chat store. -/
def GatewayState.queryServers (g : GatewayState) (userID : ID) (outcome : Outcome) :
    Option Listing :=
  (outcome.apply (ChatStore.listServers g.tables userID)).map
    fun ids => { ids, version := g.versions userID }

/-- Whom an event goes to. -/
inductive Delivery where
  | channel (channelID : ID)
  | server (serverID : ID)
  | user (userID : ID)
  /-- Presence and profile: the clients of all servers of the user's clients. -/
  | sharedServers (userID : ID)
  deriving DecidableEq, Repr

def GatewayState.recipients (g : GatewayState) (c : ClientID) : Delivery → Bool
  | .channel channelID => g.channelClients channelID c
  | .server serverID => g.serverClients serverID c
  | .user userID => c ∈ g.userClients userID
  | .sharedServers userID => (g.userClients userID).any fun c' =>
      (g.socket c').servers.ids.any fun serverID => g.serverClients serverID c

inductive Label where
  | authenticateFirstMessage (c : ClientID) (userID deviceID : ID)
  | loadChannels (c : ClientID) (outcome : Outcome)
  | loadServers (c : ClientID) (outcome : Outcome)
  | addClient (c : ClientID)
  | subscribe (c : ClientID) (ok : Bool)
  /-- A pump ends and cancels the context. -/
  | disconnect (c : ClientID)
  | unsubscribe (c : ClientID)
  | stopTimer (c : ClientID)
  | removeClient (c : ClientID)
  /-- The tables change; the users that are to be signalled are named. -/
  | change (tables : Tables) (signalled : List ID)
  | publish (userID : ID)
  | publishForward (userID : ID)
  | callback (c : ClientID)
  | fire (c : ClientID) (r : RefreshID)
  | refreshChannels (r : RefreshID) (outcome : Outcome)
  | refreshServers (r : RefreshID) (outcome : Outcome)
  | refreshClientChannels (r : RefreshID)
  | deliver (delivery : Delivery)

/-- A message reaches the subscriptions that there are. -/
def GatewayState.send (g : GatewayState) (userID : ID) (signal : Signal) : GatewayState :=
  { g with
    socket := fun c =>
      if (g.socket c).userID = userID ∧ (g.socket c).userSub then
        { g.socket c with inbox := (g.socket c).inbox ++ [signal] }
      else g.socket c }

def GatewayState.setRefresh (g : GatewayState) (r : RefreshID) (refresh : Option Refresh) :
    GatewayState :=
  { g with refreshes := Function.update g.refreshes r refresh }

/-- When a step can be taken. -/
def GatewayState.Enabled (g : GatewayState) : Label → Prop
  | .authenticateFirstMessage c _ _ => (g.socket c).phase = .unused
  | .loadChannels c _ => (g.socket c).phase = .accepted
  | .loadServers c _ => (g.socket c).phase = .hasChannels
  | .addClient c => (g.socket c).phase = .loaded
  | .subscribe c _ => (g.socket c).phase = .registered
  | .disconnect c => (g.socket c).phase = .running
  | .unsubscribe c => (g.socket c).phase = .running ∧ (g.socket c).cancelled = true
  | .stopTimer c => (g.socket c).phase = .unsubscribed
  | .removeClient c => (g.socket c).phase = .stopped
  | .publish userID => 0 < g.owed userID
  | .callback c => (g.socket c).inbox ≠ []
  | .fire c r => (g.socket c).refreshTimer = true ∧ g.refreshes r = none
  | .change _ _ | .publishForward _ | .refreshChannels _ _ | .refreshServers _ _
  | .refreshClientChannels _ | .deliver _ => True

instance (g : GatewayState) : (l : Label) → Decidable (g.Enabled l)
  | .authenticateFirstMessage _ _ _ | .loadChannels _ _ | .loadServers _ _ | .addClient _
  | .subscribe _ _ | .disconnect _ | .stopTimer _ | .removeClient _ =>
    inferInstanceAs (Decidable (_ = _))
  | .unsubscribe _ | .fire _ _ => inferInstanceAs (Decidable (_ ∧ _))
  | .publish _ => inferInstanceAs (Decidable (_ < _))
  | .callback _ => inferInstanceAs (Decidable (_ ≠ _))
  | .change _ _ | .publishForward _ | .refreshChannels _ _ | .refreshServers _ _
  | .refreshClientChannels _ | .deliver _ => inferInstanceAs (Decidable True)

/-- A query of a refresh; with a cancelled context it fails. -/
def GatewayState.requery (g : GatewayState) (c : ClientID)
    (query : GatewayState → ID → Outcome → Option Listing) (outcome : Outcome) : Option Listing :=
  if (g.socket c).cancelled then none else query g (g.socket c).userID outcome

/-- What a step does. -/
def GatewayState.effect (g : GatewayState) : Label → GatewayState
  | .authenticateFirstMessage c userID deviceID =>
    g.update c ({ · with userID, deviceID, phase := .accepted })
  | .loadChannels c outcome =>
    match g.queryChannels (g.socket c).userID outcome with
    | some channels => g.update c ({ · with channels, phase := .hasChannels })
    | none => g.update c ({ · with phase := .refused })
  | .loadServers c outcome =>
    match g.queryServers (g.socket c).userID outcome with
    | some servers => g.update c ({ · with servers, phase := .loaded })
    | none => g.update c ({ · with phase := .refused })
  | .addClient c => g.addClient c
  -- without a subscription the socket stays, and hears of no changes
  | .subscribe c ok => g.update c ({ · with userSub := ok, phase := .running })
  | .disconnect c => g.update c ({ · with cancelled := true })
  -- what waits is dropped, but not what is being handled
  | .unsubscribe c => g.update c fun client =>
      { client with userSub := false, inbox := client.inbox.take 1, phase := .unsubscribed }
  | .stopTimer c => g.update c ({ · with refreshTimer := false, phase := .stopped })
  | .removeClient c => g.removeClient c
  | .change tables signalled =>
    { g with
      tables
      versions := fun u => if u ∈ signalled then g.versions u + 1 else g.versions u
      owed := fun u => if u ∈ signalled then g.owed u + 1 else g.owed u }
  | .publish userID =>
    { g.send userID .refresh with owed := Function.update g.owed userID (g.owed userID - 1) }
  | .publishForward userID => g.send userID .forward
  -- `debouncedRefreshClientChannels` starts the timer anew
  | .callback c => g.update c fun client =>
      match client.inbox with
      | .refresh :: inbox => { client with inbox, refreshTimer := true }
      | .forward :: inbox => { client with inbox }
      | [] => client
  | .fire c r => (g.update c ({ · with refreshTimer := false })).setRefresh r (some (.started c))
  | .refreshChannels r outcome =>
    match g.refreshes r with
    | some (.started c) =>
      g.setRefresh r ((g.requery c GatewayState.queryChannels outcome).map (.hasChannels c))
    | _ => g
  | .refreshServers r outcome =>
    match g.refreshes r with
    | some (.hasChannels c channels) =>
      g.setRefresh r ((g.requery c GatewayState.queryServers outcome).map (.loaded c channels))
    | _ => g
  | .refreshClientChannels r =>
    match g.refreshes r with
    | some (.loaded c channels servers) =>
      (g.refreshClientChannels c channels servers).setRefresh r none
    | _ => g
  | .deliver _ => g

/-- A step that cannot be taken does nothing. -/
def GatewayState.step (g : GatewayState) (l : Label) : GatewayState :=
  if g.Enabled l then g.effect l else g

/-- The clients that a step sends to. -/
def GatewayState.SendsTo (g : GatewayState) (c : ClientID) : Label → Prop
  | .deliver delivery => g.recipients c delivery = true
  | .callback c' => c' = c ∧ (g.socket c).inbox.head? = some .forward
  | _ => False

/-- A gateway that has just been started. -/
def GatewayState.start (tables : Tables) : GatewayState := { tables }

/-- The state that a list of steps leads to. -/
def GatewayState.after (tables : Tables) (ls : List Label) : GatewayState :=
  Run.exec .step (.start tables) ls

variable {g : GatewayState} {l : Label}

theorem step_of_enabled (h : g.Enabled l) : g.step l = g.effect l :=
  if_pos h

theorem step_of_not_enabled (h : ¬ g.Enabled l) : g.step l = g :=
  if_neg h

/-! ## Section 4: What a step does to one socket -/

/-- The moves of socket `c`, with what a step of that kind goes by. -/
inductive Moves (g : GatewayState) (c : ClientID) : Label → Client → Prop where
  /-- The step is about something else. -/
  | stays {l : Label} :
      (∀ userID, l = .publish userID → 0 < g.owed userID → (g.socket c).userID = userID →
        (g.socket c).userSub = false) →
      (∀ r channels servers, l = .refreshClientChannels r →
        g.refreshes r ≠ some (.loaded c channels servers)) →
      Moves g c l (g.socket c)
  | authenticate {userID deviceID : ID} : (g.socket c).phase = .unused →
      Moves g c (.authenticateFirstMessage c userID deviceID)
        { g.socket c with userID, deviceID, phase := .accepted }
  | loadChannels {outcome : Outcome} {channels : Listing} : (g.socket c).phase = .accepted →
      g.queryChannels (g.socket c).userID outcome = some channels →
      Moves g c (.loadChannels c outcome) { g.socket c with channels, phase := .hasChannels }
  | loadServers {outcome : Outcome} {servers : Listing} : (g.socket c).phase = .hasChannels →
      g.queryServers (g.socket c).userID outcome = some servers →
      Moves g c (.loadServers c outcome) { g.socket c with servers, phase := .loaded }
  | refuse {l : Label} : (g.socket c).phase ∈ [.accepted, .hasChannels] →
      Moves g c l { g.socket c with phase := .refused }
  | add : (g.socket c).phase = .loaded →
      Moves g c (.addClient c) { g.socket c with phase := .registered }
  | subscribe {ok : Bool} : (g.socket c).phase = .registered →
      Moves g c (.subscribe c ok) { g.socket c with userSub := ok, phase := .running }
  | disconnect : (g.socket c).phase = .running →
      Moves g c (.disconnect c) { g.socket c with cancelled := true }
  | unsubscribe : (g.socket c).phase = .running → (g.socket c).cancelled = true →
      Moves g c (.unsubscribe c)
        { g.socket c with
          userSub := false, inbox := (g.socket c).inbox.take 1, phase := .unsubscribed }
  | stopTimer : (g.socket c).phase = .unsubscribed →
      Moves g c (.stopTimer c) { g.socket c with refreshTimer := false, phase := .stopped }
  | remove : (g.socket c).phase = .stopped →
      Moves g c (.removeClient c) { g.socket c with phase := .removed }
  | receive {userID : ID} : (g.socket c).userSub = true →
      Moves g c (.publish userID)
        { g.socket c with inbox := (g.socket c).inbox ++ [.refresh] }
  | receiveForward {userID : ID} : (g.socket c).userSub = true →
      Moves g c (.publishForward userID)
        { g.socket c with inbox := (g.socket c).inbox ++ [.forward] }
  | debounce {inbox : List Signal} : (g.socket c).inbox = .refresh :: inbox →
      Moves g c (.callback c) { g.socket c with inbox, refreshTimer := true }
  | forward {inbox : List Signal} : (g.socket c).inbox = .forward :: inbox →
      Moves g c (.callback c) { g.socket c with inbox }
  | fire {r : RefreshID} : (g.socket c).refreshTimer = true → g.refreshes r = none →
      Moves g c (.fire c r) { g.socket c with refreshTimer := false }
  | refresh {r : RefreshID} {channels servers : Listing} :
      g.refreshes r = some (.loaded c channels servers) →
      Moves g c (.refreshClientChannels r) { g.socket c with channels, servers }

section Moves

variable {c : ClientID} {f : Client → Client}

theorem update_socket_self : (g.update c f).socket c = f (g.socket c) :=
  update_self _ _ _

theorem update_socket_of_ne {c' : ClientID} (h : c' ≠ c) : (g.update c f).socket c' = g.socket c' :=
  update_of_ne h _ _

theorem Moves.quiet (hl : ∀ userID, l ≠ .publish userID) (hl' : ∀ r, l ≠ .refreshClientChannels r) :
    Moves g c l (g.socket c) :=
  .stays (fun userID h => absurd h (hl userID)) fun r _ _ h => absurd h (hl' r)

theorem Moves.update (hl : ∀ userID, l ≠ .publish userID) (hl' : ∀ r, l ≠ .refreshClientChannels r)
    (h : Moves g c l (f (g.socket c))) (c' : ClientID) :
    Moves g c' l ((g.update c f).socket c') := by
  by_cases hc : c' = c
  · rw [hc, update_socket_self]
    exact h
  · rw [update_socket_of_ne hc]
    exact .quiet hl hl'

/-- **Inversion.** What a step does to a socket is one of its moves. -/
theorem step_moves (g : GatewayState) (l : Label) (c' : ClientID) :
    Moves g c' l ((g.step l).socket c') := by
  unfold GatewayState.step
  by_cases henabled : g.Enabled l
  · rw [if_pos henabled]
    cases l with
    | authenticateFirstMessage c userID deviceID =>
      dsimp only [GatewayState.effect]
      refine .update (by simp) (by simp) ?_ c'
      exact .authenticate henabled
    | loadChannels c outcome =>
      dsimp only [GatewayState.effect]
      split
      · refine .update (by simp) (by simp) ?_ c'
        exact .loadChannels henabled ‹_›
      · have hphase : (g.socket c).phase = .accepted := henabled
        refine .update (by simp) (by simp) ?_ c'
        exact .refuse (by simp [hphase])
    | loadServers c outcome =>
      dsimp only [GatewayState.effect]
      split
      · refine .update (by simp) (by simp) ?_ c'
        exact .loadServers henabled ‹_›
      · have hphase : (g.socket c).phase = .hasChannels := henabled
        refine .update (by simp) (by simp) ?_ c'
        exact .refuse (by simp [hphase])
    | addClient c =>
      dsimp only [GatewayState.effect, GatewayState.addClient]
      refine .update (by simp) (by simp) ?_ c'
      exact .add henabled
    | subscribe c ok =>
      dsimp only [GatewayState.effect]
      refine .update (by simp) (by simp) ?_ c'
      exact .subscribe henabled
    | disconnect c =>
      dsimp only [GatewayState.effect]
      refine .update (by simp) (by simp) ?_ c'
      exact .disconnect henabled
    | unsubscribe c =>
      dsimp only [GatewayState.effect]
      refine .update (by simp) (by simp) ?_ c'
      exact .unsubscribe henabled.1 henabled.2
    | stopTimer c =>
      dsimp only [GatewayState.effect]
      refine .update (by simp) (by simp) ?_ c'
      exact .stopTimer henabled
    | removeClient c =>
      dsimp only [GatewayState.effect, GatewayState.removeClient]
      refine .update (by simp) (by simp) ?_ c'
      exact .remove henabled
    | change | deliver => exact .quiet (by simp) (by simp)
    | publish userID =>
      dsimp only [GatewayState.effect, GatewayState.send]
      split
      · rename_i hsub
        exact .receive hsub.2
      · rename_i hsub
        refine .stays (fun userID' h _ huser => ?_) (by simp)
        injection h with h
        rw [← h] at huser
        exact Bool.eq_false_iff.mpr fun h => hsub ⟨huser, h⟩
    | publishForward userID =>
      dsimp only [GatewayState.effect, GatewayState.send]
      split
      · rename_i hsub
        exact .receiveForward hsub.2
      · exact .quiet (by simp) (by simp)
    | callback c =>
      dsimp only [GatewayState.effect]
      refine .update (by simp) (by simp) ?_ c'
      split
      · exact .debounce ‹_›
      · exact .forward ‹_›
      · exact .quiet (by simp) (by simp)
    | fire c r =>
      dsimp only [GatewayState.effect, GatewayState.setRefresh]
      refine .update (by simp) (by simp) ?_ c'
      exact .fire henabled.1 henabled.2
    | refreshChannels | refreshServers =>
      dsimp only [GatewayState.effect]
      split
      · exact .quiet (by simp) (by simp)
      · exact .quiet (by simp) (by simp)
    | refreshClientChannels r =>
      dsimp only [GatewayState.effect]
      split
      · rename_i c channels servers hrefresh
        dsimp only [GatewayState.setRefresh, GatewayState.refreshClientChannels]
        by_cases hc : c' = c
        · rw [hc, update_socket_self]
          exact .refresh hrefresh
        · rw [update_socket_of_ne hc]
          refine .stays (by simp) fun r' channels' servers' h hsome => ?_
          injection h with h
          rw [← h, hrefresh] at hsome
          injection hsome with hsome
          injection hsome with hclient
          exact hc hclient.symm
      · rename_i hnone
        refine .stays (by simp) fun r' channels servers h => ?_
        injection h with h
        rw [← h]
        exact hnone c' channels servers
  · -- a signal that is not due reaches nobody
    rw [if_neg henabled]
    refine .stays (fun userID h howed => ?_) fun r _ _ h => ?_
    · subst h
      exact absurd howed henabled
    · subst h
      exact absurd trivial henabled

end Moves

/-- How refresh `r` goes on. -/
inductive Advances (g : GatewayState) (r : RefreshID) : Label → Option Refresh → Prop where
  | stays {l : Label} : Advances g r l (g.refreshes r)
  | start {c : ClientID} : (g.socket c).refreshTimer = true → g.refreshes r = none →
      Advances g r (.fire c r) (some (.started c))
  | channels {c : ClientID} {outcome : Outcome} : g.refreshes r = some (.started c) →
      Advances g r (.refreshChannels r outcome)
        ((g.requery c GatewayState.queryChannels outcome).map (.hasChannels c))
  | servers {c : ClientID} {channels : Listing} {outcome : Outcome} :
      g.refreshes r = some (.hasChannels c channels) →
      Advances g r (.refreshServers r outcome)
        ((g.requery c GatewayState.queryServers outcome).map (.loaded c channels))
  | lands {c : ClientID} {channels servers : Listing} :
      g.refreshes r = some (.loaded c channels servers) →
      Advances g r (.refreshClientChannels r) none

section Advances

variable {r r' : RefreshID}

theorem Advances.set {refresh : Option Refresh} (h : Advances g r' l refresh) (r : RefreshID) :
    Advances g r l (update g.refreshes r' refresh r) := by
  by_cases hr : r = r'
  · rw [hr, update_self]
    exact h
  · rw [update_of_ne hr]
    exact .stays

/-- **Inversion** for refreshes. -/
theorem step_advances (g : GatewayState) (l : Label) (r : RefreshID) :
    Advances g r l ((g.step l).refreshes r) := by
  unfold GatewayState.step
  split
  · rename_i henabled
    cases l with
    | loadChannels | loadServers =>
      dsimp only [GatewayState.effect]
      split
      · exact .stays
      · exact .stays
    | fire c r' => exact (Advances.start henabled.1 henabled.2).set r
    | refreshChannels r' outcome =>
      dsimp only [GatewayState.effect]
      split
      · exact (Advances.channels ‹_›).set r
      · exact .stays
    | refreshServers r' outcome =>
      dsimp only [GatewayState.effect]
      split
      · exact (Advances.servers ‹_›).set r
      · exact .stays
    | refreshClientChannels r' =>
      dsimp only [GatewayState.effect]
      split
      · exact (Advances.lands ‹_›).set r
      · exact .stays
    | _ => exact .stays
  · exact .stays

end Advances

/-! ## Section 5: What a step leaves alone -/

/-- The phases that can follow. -/
def Phase.next : Phase → List Phase
  | .unused => [.accepted]
  | .accepted => [.hasChannels, .refused]
  | .hasChannels => [.loaded, .refused]
  | .loaded => [.registered]
  | .registered => [.running]
  | .running => [.unsubscribed]
  | .unsubscribed => [.stopped]
  | .stopped => [.removed]
  | .removed => []
  | .refused => []

/-- The steps under the lock of the gateway. -/
def Label.locks : Label → Bool
  | .addClient _ | .removeClient _ | .refreshClientChannels _ => true
  | _ => false

/-- As far as the indexes are concerned the two are the same. -/
structure SameEntry (x y : Client) : Prop where
  registered : y.Registered ↔ x.Registered
  userID : x.Registered → y.userID = x.userID
  deviceID : x.Registered → y.deviceID = x.deviceID
  channels : x.Registered → y.channels = x.channels
  servers : x.Registered → y.servers = x.servers

/-- The indexes and what has been published are the same. -/
structure SameIndexes (g g' : GatewayState) : Prop where
  clients : g'.clients = g.clients
  userClients : g'.userClients = g.userClients
  channelClients : g'.channelClients = g.channelClients
  serverClients : g'.serverClients = g.serverClients
  notices : g'.notices = g.notices

theorem SameEntry.listing {x y : Client} (h : SameEntry x y) (hreg : x.Registered) {side : Side} :
    y.listing side = x.listing side := by
  unfold Client.listing
  rw [h.channels hreg, h.servers hreg]

theorem SameIndexes.index {g' : GatewayState} (h : SameIndexes g g') {side : Side} :
    g'.index side = g.index side := by
  unfold GatewayState.index
  rw [h.channelClients, h.serverClients]

theorem SameEntry.of_not {x y : Client} (hx : ¬ x.Registered) (hy : ¬ y.Registered) :
    SameEntry x y :=
  ⟨iff_of_false hy hx, fun h => absurd h hx, fun h => absurd h hx, fun h => absurd h hx,
    fun h => absurd h hx⟩

section Frame

variable {c : ClientID} {y : Client}

/-- **The life of a socket.** The phase stays or goes on by one. -/
theorem Moves.phase (h : Moves g c l y) :
    y.phase = (g.socket c).phase ∨ y.phase ∈ (g.socket c).phase.next := by
  cases h with
  | stays | disconnect | receive | receiveForward | debounce | forward | fire | refresh =>
    exact .inl rfl
  | authenticate hphase | loadChannels hphase | loadServers hphase | add hphase
  | subscribe hphase | unsubscribe hphase | stopTimer hphase | remove hphase =>
    exact .inr (by simp [hphase, Phase.next])
  | refuse hphase =>
    right
    simp only [List.mem_cons, List.not_mem_nil, or_false] at hphase
    rcases hphase with hphase | hphase
    · simp [hphase, Phase.next]
    · simp [hphase, Phase.next]

theorem Moves.sameEntry (h : Moves g c l y) (hl : l.locks = false) : SameEntry (g.socket c) y := by
  have hkeep : ∀ {x y : Client}, (y.Registered ↔ x.Registered) → y.userID = x.userID →
      y.deviceID = x.deviceID → y.channels = x.channels → y.servers = x.servers →
      SameEntry x y :=
    fun hreg huser hdevice hch hsrv =>
      ⟨hreg, fun _ => huser, fun _ => hdevice, fun _ => hch, fun _ => hsrv⟩
  cases h with
  | stays | disconnect | receive | receiveForward | debounce | forward | fire =>
    exact hkeep .rfl rfl rfl rfl rfl
  | authenticate hphase | loadChannels hphase | loadServers hphase =>
    exact .of_not (by simp [Client.Registered, hphase]) (by simp [Client.Registered])
  | refuse hphase =>
    refine .of_not ?_ (by simp [Client.Registered])
    simp only [List.mem_cons, List.not_mem_nil, or_false] at hphase
    rcases hphase with hphase | hphase
    · simp [Client.Registered, hphase]
    · simp [Client.Registered, hphase]
  | add | remove | refresh => cases hl
  | subscribe hphase | unsubscribe hphase | stopTimer hphase =>
    exact hkeep (by simp [Client.Registered, hphase]) rfl rfl rfl rfl

/-- **Frame.** A step outside the lock keeps the indexes. -/
theorem step_sameIndexes (hl : l.locks = false) : SameIndexes g (g.step l) := by
  have hsame : ∀ {g' : GatewayState}, g'.clients = g.clients → g'.userClients = g.userClients →
      g'.channelClients = g.channelClients → g'.serverClients = g.serverClients →
      g'.notices = g.notices → SameIndexes g g' :=
    fun h₁ h₂ h₃ h₄ h₅ => ⟨h₁, h₂, h₃, h₄, h₅⟩
  unfold GatewayState.step
  split
  · cases l with
    | addClient | removeClient | refreshClientChannels => cases hl
    | loadChannels | loadServers | refreshChannels | refreshServers =>
      dsimp only [GatewayState.effect]
      split <;> exact hsame rfl rfl rfl rfl rfl
    | _ => exact hsame rfl rfl rfl rfl rfl
  · exact hsame rfl rfl rfl rfl rfl

end Frame

end Meza.Gateway
