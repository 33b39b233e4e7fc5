import Meza.Crypto.Session

/-! # The session key of every tab

    The tabs of a browser profile share localStorage, where `meza-mk` holds the
    master key, wrapped with a session key; the session key is in the
    sessionStorage of each tab. `session.ts` copies it from tab to tab over a
    BroadcastChannel: a new tab asks for it, and a tab that has wrapped the master
    key anew announces the key.

    Only a tab whose bootstrap has finished listens to announcements, and nothing
    orders the announcements of two tabs. -/

namespace Meza.Crypto.TabSync
open List

open Aead (Bytes)
open Session (Blob)

/-! ## Section 1: Tabs and messages -/

abbrev TabID := Nat

inductive SessionSyncMessage where
  | sessionKeyRequest
  | sessionKeyResponse (key : Bytes)
  | sessionKeyUpdate (key : Bytes)
  deriving DecidableEq, Repr

/-- Where the bootstrap of a tab stands. -/
inductive Phase where
  | idle
  /-- `requestSessionKeyFromPeer` waits for a response. -/
  | asking (blob : Blob)
  /-- The blob is decrypted. -/
  | opening (blob : Blob) (sessionKey : Bytes)
  /-- `restoreIdentity`; a master key that was given is stored afterwards. -/
  | restoring (masterKey : Bytes) (given : Bool)
  /-- `storeMasterKey` encrypts the master key. -/
  | wrapping (masterKey : Bytes)
  /-- The session key is in sessionStorage. -/
  | wrapped (sessionKey masterKey : Bytes)
  /-- The blob is in localStorage. -/
  | written (sessionKey : Bytes)
  /-- `loadCachedChannelKeys` -/
  | loading
  /-- The session is ready, and `syncChannel` is open. -/
  | ready
  deriving DecidableEq, Repr

/-- The tab has a channel open on which it is sent messages. -/
def Phase.listens : Phase → Bool
  | .asking _ | .ready => true
  | _ => false

structure Tab where
  phase : Phase := .idle
  /-- `meza-sk` in sessionStorage. -/
  sessionKey : Option Bytes := none
  /-- What has been posted to the tab, with its senders, oldest first. -/
  inbox : List (TabID × SessionSyncMessage) := []
  deriving DecidableEq, Repr

structure State where
  /-- `meza-mk` in localStorage. -/
  masterKeyBlob : Option Blob
  tabs : TabID → Tab

/-- The profile as it is found, with no page loaded. -/
def initial (masterKeyBlob : Option Blob) (sessionKeys : TabID → Option Bytes) : State where
  masterKeyBlob
  tabs t := { sessionKey := sessionKeys t }

def State.setTab (s : State) (t : TabID) (tab : Tab) : State :=
  { s with tabs := Function.update s.tabs t tab }

/-- `postMessage`: to every other tab that listens. -/
def State.postMessage (s : State) (sender : TabID) (m : SessionSyncMessage) : State :=
  { s with
    tabs := fun t =>
      if t ≠ sender ∧ (s.tabs t).phase.listens = true then
        { s.tabs t with inbox := (s.tabs t).inbox ++ [(sender, m)] }
      else s.tabs t }

/-- `loadMasterKey` in a tab that holds a session key. -/
def State.loadMasterKey (s : State) (t : TabID) : Option Bytes :=
  s.masterKeyBlob.bind fun blob => (s.tabs t).sessionKey.bind fun key => blob.decrypt key

/-! ## Section 2: Events -/

inductive Event where
  | bootstrapSession (t : TabID) (masterKey : Option Bytes)
  /-- No response within `SESSION_KEY_REQUEST_TIMEOUT_MS`. -/
  | requestTimeout (t : TabID)
  /-- The oldest message of a sender is delivered. -/
  | deliver (t sender : TabID)
  | opened (t : TabID)
  | restored (t : TabID) (ok : Bool)
  /-- The random session key. -/
  | sealed (t : TabID) (sessionKey : Bytes)
  /-- `ls.setItem` -/
  | write (t : TabID)
  /-- `broadcastSessionKeyUpdate` -/
  | announce (t : TabID)
  | loaded (t : TabID)
  /-- The page is reloaded; `storeMasterKey` is not interrupted. -/
  | reload (t : TabID)

/-- `bootstrapSession`, up to the first wait. -/
def bootstrapSession (s : State) (t : TabID) (masterKey : Option Bytes) : State :=
  let tab := s.tabs t
  match masterKey with
  | some key => s.setTab t { tab with phase := .restoring key true }
  | none =>
    match s.masterKeyBlob with
    | none => s
    | some blob =>
      match tab.sessionKey with
      | some sessionKey => s.setTab t { tab with phase := .opening blob sessionKey }
      | none =>
        (s.setTab t { tab with phase := .asking blob, inbox := [] }).postMessage t
          .sessionKeyRequest

/-- The handlers of the two channels: of `requestSessionKeyFromPeer`, which is closed after a
    response, and of the session key responder. -/
def onMessage (s : State) (t : TabID) (tab : Tab) (m : SessionSyncMessage) : State :=
  match tab.phase, m with
  | .asking blob, .sessionKeyResponse key =>
    s.setTab t { tab with phase := .opening blob key, inbox := [] }
  | .ready, .sessionKeyRequest =>
    match tab.sessionKey with
    | some key => (s.setTab t tab).postMessage t (.sessionKeyResponse key)
    | none => s.setTab t tab
  | .ready, .sessionKeyUpdate key => s.setTab t { tab with sessionKey := some key }
  | _, _ => s.setTab t tab

/-- The oldest message of a sender. -/
def Tab.next (tab : Tab) (sender : TabID) : Option (TabID × SessionSyncMessage) :=
  tab.inbox.find? fun e => e.1 == sender

/-- The tab without a message. -/
def Tab.take (tab : Tab) (e : TabID × SessionSyncMessage) : Tab :=
  { tab with inbox := tab.inbox.erase e }

/-- What has been waited for in `doBootstrap`, in a phase that can go on. -/
def step (s : State) : Event → State
  | .bootstrapSession t masterKey =>
    if (s.tabs t).phase = .idle then bootstrapSession s t masterKey else s
  | .requestTimeout t =>
    match (s.tabs t).phase with
    | .asking _ => s.setTab t { s.tabs t with phase := .idle, inbox := [] }
    | _ => s
  | .deliver t sender =>
    match (s.tabs t).next sender with
    | some e => onMessage s t ((s.tabs t).take e) e.2
    | none => s
  | .opened t =>
    match (s.tabs t).phase with
    | .opening blob sessionKey =>
      match blob.decrypt sessionKey with
      | some masterKey =>
        s.setTab t
          { s.tabs t with phase := .restoring masterKey false, sessionKey := some sessionKey }
      | none => s.setTab t { s.tabs t with phase := .idle }
    | _ => s
  | .restored t ok =>
    match (s.tabs t).phase with
    | .restoring masterKey given =>
      if ok then
        s.setTab t { s.tabs t with phase := if given then .wrapping masterKey else .loading }
      else s.setTab t { s.tabs t with phase := .idle }
    | _ => s
  | .sealed t sessionKey =>
    match (s.tabs t).phase with
    | .wrapping masterKey =>
      s.setTab t
        { s.tabs t with phase := .wrapped sessionKey masterKey, sessionKey := some sessionKey }
    | _ => s
  | .write t =>
    match (s.tabs t).phase with
    | .wrapped sessionKey masterKey =>
      { s.setTab t { s.tabs t with phase := .written sessionKey } with
        masterKeyBlob := some (.wrapped sessionKey masterKey) }
    | _ => s
  | .announce t =>
    match (s.tabs t).phase with
    | .written sessionKey =>
      (s.setTab t { s.tabs t with phase := .loading }).postMessage t (.sessionKeyUpdate sessionKey)
    | _ => s
  | .loaded t =>
    match (s.tabs t).phase with
    | .loading => s.setTab t { s.tabs t with phase := .ready, inbox := [] }
    | _ => s
  | .reload t =>
    match (s.tabs t).phase with
    | .wrapped _ _ | .written _ => s
    | _ => s.setTab t { s.tabs t with phase := .idle, inbox := [] }

/-! ## Section 3: Agreement -/

/-- All messages are delivered, and no call is in progress. -/
def Quiet (s : State) : Prop :=
  ∀ t, (s.tabs t).inbox = [] ∧ ((s.tabs t).phase = .idle ∨ (s.tabs t).phase = .ready)

/-- Once all is quiet, every bootstrapped tab can load the master key again. -/
def Agreed (s : State) : Prop :=
  Quiet s → ∀ t, (s.tabs t).phase = .ready → (s.loadMasterKey t).isSome = true

/-- The key that the blob is wrapped with. -/
def State.wrappedWith (s : State) (key : Bytes) : Prop :=
  ∃ masterKey, s.masterKeyBlob = some (.wrapped key masterKey)

/-- A tab has stored its blob, and has yet to announce the key. -/
def State.announces (s : State) (key : Bytes) : Prop := ∃ u, (s.tabs u).phase = .written key

/-- The tab has the key of the blob, or is going to get it. -/
def State.Covers (s : State) (tab : Tab) : Prop :=
  ∃ key, s.wrappedWith key ∧
    (tab.sessionKey = some key ∨ (∃ u, (u, .sessionKeyUpdate key) ∈ tab.inbox) ∨ s.announces key)

/-- A tab becomes ready with the key of the blob, or while that key has yet to be announced;
    and an announced key that a ready tab takes over is the key of the blob, or else that key
    is still on its way to the tab. -/
def KeyOnItsWay (s : State) : Event → Prop
  | .loaded t =>
    (s.tabs t).phase = .loading → s.Covers { s.tabs t with inbox := [] }
  | .deliver t sender =>
    ∀ e ∈ (s.tabs t).next sender, ∀ key, (s.tabs t).phase = .ready → e.2 = .sessionKeyUpdate key →
      s.Covers { (s.tabs t).take e with sessionKey := some key }
  | _ => True

def AllCovered (s : State) : Prop := ∀ t, (s.tabs t).phase = .ready → s.Covers (s.tabs t)

/-! ## Section 4: What a step does to the other tabs -/

variable {s : State} {tab : Tab} {t : TabID}

@[simp] theorem setTab_self (s : State) (t : TabID) (tab : Tab) : (s.setTab t tab).tabs t = tab := by
  simp [State.setTab]

theorem setTab_of_ne (s : State) {u : TabID} (tab : Tab) (h : u ≠ t) :
    (s.setTab t tab).tabs u = s.tabs u := by
  simp [State.setTab, h]

@[simp] theorem masterKeyBlob_setTab (s : State) (t : TabID) (tab : Tab) :
    (s.setTab t tab).masterKeyBlob = s.masterKeyBlob := rfl

@[simp] theorem phase_postMessage (s : State) (sender t : TabID) (m : SessionSyncMessage) :
    ((s.postMessage sender m).tabs t).phase = (s.tabs t).phase := by
  simp only [State.postMessage]
  split
  · rfl
  · rfl

@[simp] theorem masterKeyBlob_postMessage (s : State) (sender : TabID) (m : SessionSyncMessage) :
    (s.postMessage sender m).masterKeyBlob = s.masterKeyBlob := rfl

theorem covers_postMessage (sender t : TabID) (m : SessionSyncMessage) (h : s.Covers (s.tabs t)) :
    (s.postMessage sender m).Covers ((s.postMessage sender m).tabs t) := by
  obtain ⟨key, hblob, hkey⟩ := h
  refine ⟨key, hblob, ?_⟩
  rcases hkey with hkey | ⟨u, hu⟩ | ⟨u, hu⟩
  · left
    simp only [State.postMessage]
    split
    · exact hkey
    · exact hkey
  · right; left
    refine ⟨u, ?_⟩
    simp only [State.postMessage]
    split
    · exact mem_append_left _ hu
    · exact hu
  · right; right
    exact ⟨u, by rw [phase_postMessage]; exact hu⟩

theorem allCovered_postMessage (sender : TabID) (m : SessionSyncMessage) (h : AllCovered s) :
    AllCovered (s.postMessage sender m) := by
  intro t hready
  rw [phase_postMessage] at hready
  exact covers_postMessage sender t m (h t hready)

/-- A tab changes, and has as much to announce as before. -/
theorem State.Covers.setTab {tab' : Tab} (h : s.Covers tab')
    (hsilent : ∀ key, (s.tabs t).phase = .written key → tab.phase = .written key) :
    (s.setTab t tab).Covers tab' := by
  obtain ⟨key, hblob, hkey⟩ := h
  refine ⟨key, hblob, ?_⟩
  refine hkey.imp_right (.imp_right ?_)
  rintro ⟨u, hu⟩
  refine ⟨u, ?_⟩
  by_cases hut : u = t
  · subst hut
    rw [setTab_self]
    exact hsilent key hu
  · rw [setTab_of_ne s tab hut]
    exact hu

/-- A tab changes, has as much to announce as before, and is covered if it is ready. -/
theorem AllCovered.setTab (h : AllCovered s)
    (hsilent : ∀ key, (s.tabs t).phase = .written key → tab.phase = .written key)
    (htab : tab.phase = .ready → s.Covers tab) : AllCovered (s.setTab t tab) := by
  intro u hready
  by_cases hu : u = t
  · subst hu
    rw [setTab_self] at hready ⊢
    exact (htab hready).setTab hsilent
  · rw [setTab_of_ne s tab hu] at hready ⊢
    exact (h u hready).setTab hsilent

theorem allCovered_write {sessionKey masterKey : Bytes} :
    AllCovered { s.setTab t { s.tabs t with phase := .written sessionKey } with
      masterKeyBlob := some (.wrapped sessionKey masterKey) } := by
  intro u _
  refine ⟨sessionKey, ⟨masterKey, rfl⟩, Or.inr (Or.inr ⟨t, ?_⟩)⟩
  show ((s.setTab t _).tabs t).phase = _
  rw [setTab_self]

theorem allCovered_announce {sessionKey : Bytes} (h : AllCovered s)
    (ht : (s.tabs t).phase = .written sessionKey) :
    AllCovered ((s.setTab t { s.tabs t with phase := .loading }).postMessage t
      (.sessionKeyUpdate sessionKey)) := by
  intro u hready
  rw [phase_postMessage] at hready
  have hu : u ≠ t := by
    rintro rfl
    rw [setTab_self] at hready
    cases hready
  rw [setTab_of_ne s _ hu] at hready
  obtain ⟨key, hblob, hkey⟩ := h u hready
  have htab : ((s.setTab t { s.tabs t with phase := .loading }).postMessage t
      (.sessionKeyUpdate sessionKey)).tabs u =
      { s.tabs u with inbox := (s.tabs u).inbox ++ [(t, .sessionKeyUpdate sessionKey)] } := by
    simp [State.postMessage, hu, setTab_of_ne s _ hu, hready, Phase.listens]
  rw [htab]
  refine ⟨key, hblob, ?_⟩
  rcases hkey with hkey | ⟨v, hv⟩ | ⟨v, hv⟩
  · exact .inl hkey
  · exact .inr (.inl ⟨v, mem_append_left _ hv⟩)
  · by_cases hvt : v = t
    · -- it is this tab that had yet to announce the key
      subst hvt
      rw [ht] at hv
      cases hv
      exact .inr (.inl ⟨v, mem_append_right _ mem_cons_self⟩)
    · refine .inr (.inr ⟨v, ?_⟩)
      rw [phase_postMessage, setTab_of_ne s _ hvt]
      exact hv

/-! ## Section 5: One event -/

theorem covers_take {e : TabID × SessionSyncMessage} (h : s.Covers tab)
    (he : ∀ key, e.2 ≠ .sessionKeyUpdate key) : s.Covers (tab.take e) := by
  obtain ⟨key, hblob, hkey⟩ := h
  refine ⟨key, hblob, ?_⟩
  refine hkey.imp_right (Or.imp_left ?_)
  rintro ⟨u, hu⟩
  refine ⟨u, (mem_erase_of_ne ?_).mpr hu⟩
  rintro rfl
  exact he key rfl

/-- What is delivered: a key that is taken over is the one condition. -/
theorem allCovered_onMessage {e : TabID × SessionSyncMessage} (h : AllCovered s)
    (hupdate : ∀ key, (s.tabs t).phase = .ready → e.2 = .sessionKeyUpdate key →
      s.Covers { (s.tabs t).take e with sessionKey := some key }) :
    AllCovered (onMessage s t ((s.tabs t).take e) e.2) := by
  have hphase : ((s.tabs t).take e).phase = (s.tabs t).phase := rfl
  unfold onMessage
  split
  · -- the response that an asking tab waits for
    rename_i blob key hasking _
    refine h.setTab ?_ ?_
    · intro key' hwritten
      rw [← hphase, hasking] at hwritten
      cases hwritten
    · intro hready
      cases hready
  · rename_i hready hrequest
    have htaken : s.Covers ((s.tabs t).take e) := by
      apply covers_take (h t (hphase ▸ hready))
      intro key he
      rw [hrequest] at he
      cases he
    have hset : AllCovered (s.setTab t ((s.tabs t).take e)) :=
      h.setTab (fun _ hwritten => hwritten) fun _ => htaken
    split
    · exact allCovered_postMessage t _ hset
    · exact hset
  · rename_i key hready hkey
    refine h.setTab (fun _ hwritten => hwritten) fun _ => ?_
    exact hupdate key (hphase ▸ hready) hkey
  · -- a message that the tab does not act on
    rename_i hnone
    refine h.setTab (fun _ hwritten => hwritten) fun hready => ?_
    apply covers_take (h t (hphase ▸ hready))
    intro key hkey
    exact hnone key hready hkey

theorem allCovered_bootstrapSession (masterKey : Option Bytes) (h : AllCovered s)
    (hidle : (s.tabs t).phase = .idle) : AllCovered (bootstrapSession s t masterKey) := by
  have hset : ∀ tab : Tab, tab.phase ≠ .ready → AllCovered (s.setTab t tab) := by
    intro tab htab
    refine h.setTab ?_ fun hready => absurd hready htab
    intro key hwritten
    rw [hidle] at hwritten
    cases hwritten
  cases masterKey with
  | some key => exact hset _ (by simp)
  | none =>
    rcases hblob : s.masterKeyBlob with _ | blob
    · simp only [bootstrapSession, hblob]
      exact h
    · rcases hkey : (s.tabs t).sessionKey with _ | sessionKey
      · simp only [bootstrapSession, hblob, hkey]
        exact allCovered_postMessage t _ (hset _ (by simp))
      · simp only [bootstrapSession, hblob, hkey]
        exact hset _ (by simp)

theorem allCovered_step (s : State) (ev : Event) (h : AllCovered s) (hkey : KeyOnItsWay s ev) :
    AllCovered (step s ev) := by
  -- a tab that is not ready afterwards, and had nothing to announce
  have hset : ∀ (t : TabID) (tab : Tab), (∀ key, (s.tabs t).phase ≠ .written key) →
      tab.phase ≠ .ready → AllCovered (s.setTab t tab) := by
    intro t tab hsilent htab
    exact h.setTab (fun key hwritten => absurd hwritten (hsilent key))
      fun hready => absurd hready htab
  cases ev with
  | bootstrapSession t masterKey =>
    simp only [step]
    split
    · exact allCovered_bootstrapSession masterKey h ‹_›
    · exact h
  | requestTimeout t | sealed t sessionKey =>
    simp only [step]
    split
    · rename_i hphase
      exact hset t _ (by simp [hphase]) (by simp)
    · exact h
  | deliver t sender =>
    simp only [step]
    split
    · rename_i e hnext
      exact allCovered_onMessage h (hkey e hnext)
    · exact h
  | opened t =>
    simp only [step]
    split
    · rename_i hphase
      split
      · exact hset t _ (by simp [hphase]) (by simp)
      · exact hset t _ (by simp [hphase]) (by simp)
    · exact h
  | restored t ok =>
    simp only [step]
    split
    · rename_i masterKey given hphase
      split
      · exact hset t _ (by simp [hphase]) (by cases given <;> simp)
      · exact hset t _ (by simp [hphase]) (by simp)
    · exact h
  | write t =>
    simp only [step]
    split
    · exact allCovered_write
    · exact h
  | announce t =>
    simp only [step]
    split
    · exact allCovered_announce h ‹_›
    · exact h
  | loaded t =>
    simp only [step]
    split
    · rename_i hphase
      have hcovers := hkey hphase
      refine h.setTab ?_ fun _ => hcovers
      intro key hwritten
      rw [hphase] at hwritten
      cases hwritten
    · exact h
  | reload t =>
    simp only [step]
    split
    · exact h
    · exact h
    · rename_i hwritten
      exact hset t _ hwritten (by simp)

/-! ## Section 6: All tabs agree -/

theorem AllCovered.agreed (h : AllCovered s) : Agreed s := by
  intro hquiet t hready
  obtain ⟨key, ⟨masterKey, hblob⟩, hkey⟩ := h t hready
  have hheld : (s.tabs t).sessionKey = some key := by
    rcases hkey with hkey | ⟨u, hu⟩ | ⟨u, hu⟩
    · exact hkey
    · -- nothing is on its way to the tab
      rw [(hquiet t).1] at hu
      cases hu
    · -- and no tab has anything to announce
      rcases (hquiet u).2 with hphase | hphase
      · rw [hu] at hphase
        cases hphase
      · rw [hu] at hphase
        cases hphase
  simp [State.loadMasterKey, hblob, hheld, Blob.decrypt]

/-- If every tab becomes ready, and takes over a key, only with the key of the blob or while
    that key is on its way, then the tabs agree in every state on the way. -/
theorem agreed_of_keyOnItsWay (masterKeyBlob : Option Blob) (sessionKeys : TabID → Option Bytes)
    (evs : List Event) (hrun : Run.Guarded step KeyOnItsWay (initial masterKeyBlob sessionKeys) evs)
    (pre : List Event) (hpre : pre <+: evs) :
    Agreed (Run.exec step (initial masterKeyBlob sessionKeys) pre) := by
  obtain ⟨post, rfl⟩ := hpre
  have hinit : AllCovered (initial masterKeyBlob sessionKeys) := by
    intro t hready
    cases hready
  exact (Run.exec_invariant allCovered_step hinit hrun.left).agreed

/-- A login in one tab, and another tab that asks for its key. -/
def newTab : List Event :=
  [.bootstrapSession 0 (some [1]), .restored 0 true, .sealed 0 [2], .write 0, .announce 0,
   .loaded 0,
   .bootstrapSession 1 none, .deliver 0 1, .deliver 1 0, .opened 1, .restored 1 true, .loaded 1]

theorem agreed_newTab : Agreed (Run.exec step (initial none fun _ => none) newTab) := by
  refine agreed_of_keyOnItsWay none (fun _ => none) newTab ?_ newTab (prefix_refl _)
  refine ⟨trivial, trivial, trivial, trivial, trivial, ?_, trivial, ?_, ?_, trivial, trivial, ?_,
    trivial⟩
  · intro _
    exact ⟨[2], ⟨[1], rfl⟩, Or.inl rfl⟩
  · -- the request
    intro e he key _ hkey
    cases he
    cases hkey
  · -- the response, in a tab that is not ready
    intro e he key hready
    cases hready
  · intro _
    exact ⟨[2], ⟨[1], rfl⟩, Or.inl rfl⟩

/-- A login in each of two tabs; neither listens when the other announces its key. -/
def twoLogins : List Event :=
  [.bootstrapSession 0 (some [1]), .bootstrapSession 1 (some [1]), .restored 0 true,
   .restored 1 true, .sealed 0 [2], .sealed 1 [3], .write 0, .announce 0, .write 1, .announce 1,
   .loaded 0, .loaded 1]

theorem not_agreed_twoLogins : ¬ Agreed (Run.exec step (initial none fun _ => none) twoLogins) := by
  intro hagreed
  have hquiet : Quiet (Run.exec step (initial none fun _ => none) twoLogins) := by
    intro t
    match t with
    | 0 => exact ⟨rfl, .inr rfl⟩
    | 1 => exact ⟨rfl, .inr rfl⟩
    | n + 2 => exact ⟨rfl, .inl rfl⟩
  have hopens := hagreed hquiet 0 rfl
  cases hopens

end Meza.Crypto.TabSync
