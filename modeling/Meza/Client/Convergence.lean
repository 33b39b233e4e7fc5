import Meza.Client.Gateway

/-! # A channel view and the server's messages

    While a page of the latest messages is being fetched, messages are created,
    edited and deleted on the server, and the gateway delivers these events in
    the order of the server. The page may be older or newer than the events
    the client has seen when it arrives.

    Section 1 has the rows of the server, Section 2 the system. Sections 3
    to 5 follow the client before and after the response; what the page has
    already seen and the client has not is a list of events that are still to
    come. -/

namespace Meza.Client

open Store (ID)
open Paging List MessageState GatewayEvent Table

/-! ## Section 1: The rows of the server -/

/-- A row of the channel's partition; deleted messages stay as tombstones. -/
structure Row where
  message : Message
  deleted : Bool := false
  deriving DecidableEq, Repr

/-- An edit or a deletion of the message. -/
def GatewayEvent.Changes : GatewayEvent → ID → Prop
  | .messageCreate _, _ => False
  | .messageUpdate msg, id => msg.id = id
  | .messageDelete _ messageId, id => messageId = id

instance GatewayEvent.decidableChanges : ∀ (ev : GatewayEvent) (id : ID), Decidable (ev.Changes id)
  | .messageCreate _, _ => inferInstanceAs (Decidable False)
  | .messageUpdate msg, id => inferInstanceAs (Decidable (msg.id = id))
  | .messageDelete _ messageId, id => inferInstanceAs (Decidable (messageId = id))

variable {ev : GatewayEvent} {c id : ID} {m msg : Message}

theorem GatewayEvent.Changes.messageId (h : ev.Changes id) : ev.messageId = id := by
  cases ev with
  | messageCreate msg => cases h
  | messageUpdate | messageDelete => exact h

/-- What an edit or a deletion leaves of a message. -/
def GatewayEvent.revise : GatewayEvent → Message → Option Message
  | .messageCreate _, m => some m
  | .messageUpdate msg, m => some (replacedBy msg m)
  | .messageDelete _ messageId, m => if m.id = messageId then none else some m

namespace GatewayEvent

variable {m' : Message}

theorem create_or_changes (ev : GatewayEvent) :
    (∃ msg, ev = .messageCreate msg) ∨ ev.Changes ev.messageId := by
  cases ev with
  | messageCreate msg => exact .inl ⟨msg, rfl⟩
  | messageUpdate | messageDelete => exact .inr rfl

theorem revise_id (h : ev.revise m = some m') : m'.id = m.id := by
  cases ev with
  | messageCreate msg => rw [Option.some.inj h]
  | messageUpdate msg => rw [← Option.some.inj h, replacedBy_id]
  | messageDelete c id =>
    simp only [revise] at h
    split_ifs at h
    rw [Option.some.inj h]

theorem revise_of_unchanged (h : ¬ ev.Changes m.id) : ev.revise m = some m := by
  cases ev with
  | messageCreate msg => rfl
  | messageUpdate msg => exact congrArg some (if_neg fun hid => h hid.symm)
  | messageDelete c id => exact if_neg fun hid => h hid.symm

theorem revise_congr (h : ev.Changes m.id) (hid : m'.id = m.id) : ev.revise m' = ev.revise m := by
  cases ev with
  | messageCreate msg => cases h
  | messageUpdate msg =>
    have hm : m.id = msg.id := h.symm
    simp [revise, replacedBy, hid, hm]
  | messageDelete c id =>
    have hm : m.id = id := h.symm
    simp [revise, hid, hm]

variable {messages : List Message}

theorem pairwise_revise {R : ID → ID → Prop} (h : messages.Pairwise fun a b => R a.id b.id) :
    (messages.filterMap ev.revise).Pairwise fun a b => R a.id b.id := by
  refine h.filterMap _ fun a a' hR b hb b' hb' => ?_
  rw [revise_id hb, revise_id hb']
  exact hR

theorem unique_revise (h : UniqueOn Message.id messages) :
    UniqueOn Message.id (messages.filterMap ev.revise) :=
  pairwise_map.mpr (pairwise_revise (R := (· ≠ ·)) (pairwise_map.mp h))

end GatewayEvent

open GatewayEvent (revise_id revise_of_unchanged revise_congr pairwise_revise unique_revise)

namespace Server

/-- What an operation does to the rows, oldest first. -/
def serve (rows : List Row) : GatewayEvent → List Row
  | .messageCreate msg => rows ++ [{ message := msg }]
  | .messageUpdate msg =>
    rows.map fun r => if r.message.id = msg.id then { r with message := msg } else r
  | .messageDelete _ messageId =>
    rows.map fun r => if r.message.id = messageId then { r with deleted := true } else r

def Live (rows : List Row) (m : Message) : Prop := { message := m, deleted := false } ∈ rows

def Known (rows : List Row) (id : ID) : Prop := ∃ r ∈ rows, r.message.id = id

instance decidableLive (rows : List Row) (m : Message) : Decidable (Live rows m) :=
  inferInstanceAs (Decidable (_ ∈ rows))

/-- Operations the server carries out: ids are handed out in ascending order, and only a
    message that is there is edited or deleted. -/
def Accepts (channelId : ID) (rows : List Row) : GatewayEvent → Prop
  | .messageCreate msg => msg.channelId = channelId ∧ ∀ r ∈ rows, r.message.id < msg.id
  | .messageUpdate msg =>
    msg.channelId = channelId ∧ ∃ r ∈ rows, r.message.id = msg.id ∧ r.deleted = false
  | .messageDelete c messageId =>
    c = channelId ∧ ∃ r ∈ rows, r.message.id = messageId ∧ r.deleted = false

instance decidableAccepts (channelId : ID) (rows : List Row) :
    ∀ ev, Decidable (Accepts channelId rows ev)
  | .messageCreate _ | .messageUpdate _ | .messageDelete _ _ => inferInstanceAs (Decidable (_ ∧ _))

/-- The messages that are not deleted. -/
def current (rows : List Row) : List Message :=
  (rows.filter fun r => !r.deleted).map Row.message

/-- The latest page: the newest rows without the deleted ones. -/
def latestPage (limit : Nat) (rows : List Row) : List Message :=
  current (rows.drop (rows.length - limit))

/-- The rows after a list of operations. -/
def after (rows : List Row) (ops : List GatewayEvent) : List Row := ops.foldl serve rows

/-- Operations carried out one after the other. -/
def Accepted (channelId : ID) : List Row → List GatewayEvent → Prop
  | _, [] => True
  | rows, ev :: ops => Accepts channelId rows ev ∧ Accepted channelId (serve rows ev) ops

def AscendingRows (rows : List Row) : Prop := Ascending (fun r : Row => r.message.id) rows

instance decidableAscendingRows (rows : List Row) : Decidable (AscendingRows rows) :=
  inferInstanceAs (Decidable (Ascending (fun r : Row => r.message.id) rows))

variable {channelId : ID} {rows : List Row}

theorem Live.known (h : Live rows m) : Known rows m.id := ⟨_, h, rfl⟩

theorem live_unique (hrows : AscendingRows rows) {m' : Message} (h : Live rows m)
    (h' : Live rows m') (hid : m.id = m'.id) : m = m' := by
  have hsame := eq_of_key hrows.unique h h' hid
  exact congrArg Row.message hsame

theorem mem_current : m ∈ current rows ↔ Live rows m := by
  unfold current Live
  rw [mem_map]
  constructor
  · rintro ⟨r, hr, rfl⟩
    obtain ⟨hmem, hlive⟩ := mem_filter.mp hr
    have hdeleted : r.deleted = false := by simpa using hlive
    rw [← hdeleted]
    exact hmem
  · intro h
    exact ⟨_, mem_filter.mpr ⟨h, rfl⟩, rfl⟩

theorem ascending_current (h : AscendingRows rows) : Ascending Message.id (current rows) := by
  unfold current Ascending
  rw [pairwise_map]
  exact h.filter _

/-! ### One operation -/

theorem live_create : Live (serve rows (.messageCreate msg)) m ↔ Live rows m ∨ m = msg := by
  unfold Live serve
  simp

theorem live_change (h : ev.Changes id) :
    Live (serve rows ev) m ↔ ∃ x, Live rows x ∧ ev.revise x = some m := by
  cases ev with
  | messageCreate msg => cases h
  | messageUpdate msg =>
    simp only [Live, serve, mem_map, GatewayEvent.revise, replacedBy, Option.some_inj]
    constructor
    · rintro ⟨⟨x, deleted⟩, hr, heq⟩
      split_ifs at heq with hid
      · obtain ⟨hmsg, rfl⟩ := Row.mk.inj heq
        exact ⟨x, hr, (if_pos hid).trans hmsg⟩
      · cases heq
        exact ⟨m, hr, if_neg hid⟩
    · rintro ⟨x, hx, rfl⟩
      refine ⟨_, hx, ?_⟩
      split <;> rfl
  | messageDelete c messageId =>
    simp only [Live, serve, mem_map, GatewayEvent.revise]
    constructor
    · rintro ⟨r, hr, heq⟩
      split_ifs at heq with hid
      · cases heq
      · subst heq
        exact ⟨m, hr, if_neg hid⟩
    · rintro ⟨x, hx, heq⟩
      split_ifs at heq with hid
      cases heq
      exact ⟨_, hx, if_neg hid⟩

theorem live_change_of_ne (h : ev.Changes id) (hne : ¬ ev.Changes m.id) :
    Live (serve rows ev) m ↔ Live rows m := by
  rw [live_change h]
  constructor
  · rintro ⟨x, hx, hrevise⟩
    rw [revise_of_unchanged (revise_id hrevise ▸ hne)] at hrevise
    exact Option.some.inj hrevise ▸ hx
  · exact fun hlive => ⟨m, hlive, revise_of_unchanged hne⟩

theorem known_map {f : Row → Row} (hf : ∀ r, (f r).message.id = r.message.id) :
    Known (rows.map f) id ↔ Known rows id := by
  constructor
  · rintro ⟨r', hr', hid⟩
    obtain ⟨r, hr, rfl⟩ := mem_map.mp hr'
    exact ⟨r, hr, (hf r).symm.trans hid⟩
  · rintro ⟨r, hr, hid⟩
    exact ⟨f r, mem_map_of_mem hr, (hf r).trans hid⟩

theorem known_serve :
    Known (serve rows ev) id ↔ Known rows id ∨ ∃ msg, ev = .messageCreate msg ∧ msg.id = id := by
  cases ev with
  | messageCreate msg =>
    constructor
    · rintro ⟨r, hr, rfl⟩
      rcases mem_append.mp hr with hr | hr
      · exact .inl ⟨r, hr, rfl⟩
      · rw [mem_singleton] at hr
        subst hr
        exact .inr ⟨msg, rfl, rfl⟩
    · rintro (⟨r, hr, hid⟩ | ⟨msg', hmsg, hid⟩)
      · exact ⟨r, mem_append_left _ hr, hid⟩
      · cases hmsg
        exact ⟨_, mem_append_right _ (mem_singleton.mpr rfl), hid⟩
  | messageUpdate msg =>
    simp only [reduceCtorEq, false_and, exists_false, or_false]
    refine known_map fun r => ?_
    split_ifs with hid
    · exact hid.symm
    · rfl
  | messageDelete c id' =>
    simp only [reduceCtorEq, false_and, exists_false, or_false]
    refine known_map fun r => ?_
    split_ifs <;> rfl

theorem ascending_serve (hrows : AscendingRows rows) (hev : Accepts channelId rows ev) :
    AscendingRows (serve rows ev) := by
  cases ev with
  | messageCreate msg =>
    refine (Index.ascending_append_iff hrows (pairwise_singleton _ _)).mpr ?_
    intro r hr r' hr'
    rw [mem_singleton] at hr'
    subst hr'
    exact hev.2 r hr
  | messageUpdate msg =>
    refine hrows.map fun r => ?_
    split_ifs with hid
    · exact hid.symm
    · rfl
  | messageDelete c id =>
    refine hrows.map fun r => ?_
    split_ifs <;> rfl

/-! ### Lists of operations -/

theorem ascending_after (hrows : AscendingRows rows) (hops : Accepted channelId rows ops) :
    AscendingRows (after rows ops) := by
  induction ops generalizing rows with
  | nil => exact hrows
  | cons ev ops ih => exact ih (ascending_serve hrows hops.1) hops.2

theorem known_after (h : Known rows id) : Known (after rows ops) id := by
  induction ops generalizing rows with
  | nil => exact h
  | cons ev ops ih => exact ih (known_serve.mpr (.inl h))

theorem lt_of_created (hops : Accepted channelId rows ops) (hknown : Known (after rows ops) id)
    (hnew : ¬ Known rows id) : ∀ r ∈ rows, r.message.id < id := by
  induction ops generalizing rows with
  | nil => exact absurd hknown hnew
  | cons ev ops ih =>
    intro r hr
    by_cases hev : Known (serve rows ev) id
    · obtain ⟨msg, rfl, rfl⟩ := (known_serve.mp hev).resolve_left hnew
      exact hops.1.2 r hr
    · obtain ⟨r', hr', hid⟩ := known_serve.mpr (.inl ⟨r, hr, rfl⟩ : _ ∨ ∃ msg, ev = _ ∧ _)
      exact hid ▸ ih hops.2 hknown hev r' hr'

/-- Only operations on a message change it. -/
theorem live_after_iff (h : ∀ ev ∈ ops, ev.messageId ≠ m.id) :
    Live (after rows ops) m ↔ Live rows m := by
  induction ops generalizing rows with
  | nil => exact .rfl
  | cons ev ops ih =>
    have hev := h ev mem_cons_self
    refine (ih fun ev' hev' => h ev' (mem_cons_of_mem _ hev')).trans ?_
    rcases ev.create_or_changes with ⟨msg, rfl⟩ | hchange
    · rw [live_create, or_iff_left]
      rintro rfl
      exact hev rfl
    · exact live_change_of_ne hchange fun hid => hev hid.messageId

/-- A message that is neither edited nor deleted stays. -/
theorem live_after_of_unchanged (hlive : Live rows m) (h : ∀ ev ∈ ops, ¬ ev.Changes m.id) :
    Live (after rows ops) m := by
  induction ops generalizing rows with
  | nil => exact hlive
  | cons ev ops ih =>
    have hev := h ev mem_cons_self
    refine ih ?_ fun ev' hev' => h ev' (mem_cons_of_mem _ hev')
    rcases ev.create_or_changes with ⟨msg, rfl⟩ | hchange
    · exact live_create.mpr (.inl hlive)
    · exact (live_change_of_ne hchange hev).mpr hlive

/-- A message that is known and still there was there before, in the same version if it was
    not edited. -/
theorem live_of_after (hops : Accepted channelId rows ops) (hknown : Known rows m.id)
    (hlive : Live (after rows ops) m) :
    ∃ m', Live rows m' ∧ m'.id = m.id ∧ ((∀ ev ∈ ops, ¬ ev.Changes m.id) → m' = m) := by
  induction ops generalizing rows with
  | nil => exact ⟨m, hlive, rfl, fun _ => rfl⟩
  | cons ev ops ih =>
    obtain ⟨m', hlive', hid, hsame⟩ := ih hops.2 (known_serve.mpr (.inl hknown)) hlive
    have htail : (∀ ev' ∈ ev :: ops, ¬ ev'.Changes m.id) → m' = m := fun hnone =>
      hsame fun ev' hev' => hnone ev' (mem_cons_of_mem _ hev')
    rcases ev.create_or_changes with ⟨msg, rfl⟩ | hchange
    · rcases live_create.mp hlive' with hold | rfl
      · exact ⟨m', hold, hid, htail⟩
      · -- a known id is not handed out again
        obtain ⟨r, hr, hrid⟩ := hknown
        have hlt := hops.1.2 r hr
        rw [hrid, hid] at hlt
        exact absurd hlt (lt_irrefl _)
    · obtain ⟨x, hx, hrevise⟩ := (live_change hchange).mp hlive'
      have hxid := revise_id hrevise
      refine ⟨x, hx, hxid.symm.trans hid, fun hnone => ?_⟩
      have hunchanged := hnone _ mem_cons_self
      rw [revise_of_unchanged (by rwa [← hxid, hid])] at hrevise
      exact (Option.some.inj hrevise).trans (htail hnone)

end Server

/-! ## Section 2: The system -/

/-- A page that was read after so many operations. -/
structure Snapshot where
  position : Nat
  page : List Message
  hasMore : Bool
  deriving DecidableEq, Repr

/-- The operations of the server so far, how many of their events the client has seen, the
    page that was read, and the client's store. -/
structure ViewState where
  log : List GatewayEvent := []
  delivered : Nat := 0
  snapshot : Option Snapshot := none
  answered : Bool := false
  store : MessageState

inductive ViewEvent where
  | publish (ev : GatewayEvent)
  | deliver
  | snapshot
  | respond
  deriving DecidableEq

section System

open Server

variable (currentUserId channelId : ID) (limit : Nat) (base : List Row)

/-- The rows after the first `n` operations. -/
def ViewState.rowsAt (s : ViewState) (n : Nat) : List Row := after base (s.log.take n)

/-- The rows of the server. -/
def ViewState.rows (s : ViewState) : List Row := after base s.log

/-- The end of `getMessages`: the page is merged and the other fields are set. -/
def receivePage (store : MessageState) (page : List Message) (hasMore : Bool) : MessageState :=
  ((store.hydrateMessages channelId page).setHasMore channelId hasMore).setLoading channelId false

def ViewState.step (s : ViewState) : ViewEvent → ViewState
  | .publish ev =>
    if Accepts channelId (s.rows base) ev then { s with log := s.log ++ [ev] } else s
  | .deliver =>
    match s.log[s.delivered]? with
    | none => s
    | some ev =>
      { s with store := ev.deliver currentUserId s.store, delivered := s.delivered + 1 }
  | .snapshot =>
    match s.snapshot with
    | some _ => s
    | none =>
      let taken : Snapshot :=
        { position := s.log.length
          page := latestPage limit (s.rows base)
          hasMore := limit ≤ (s.rows base).length }
      { s with snapshot := some taken }
  | .respond =>
    match s.snapshot with
    | none => s
    | some taken =>
      if s.answered then s
      else
        { s with
          store := receivePage channelId s.store taken.page taken.hasMore
          answered := true }

/-- What the client shows of the channel, followed by what it has buffered. -/
def shown (store : MessageState) : List Message :=
  store.messages channelId ++ store.pending channelId

/-- The array has room for a message that is pushed to it, and no edit or deletion is for a
    message in the buffer. -/
def Handles (store : MessageState) : GatewayEvent → Prop
  | .messageCreate msg =>
    store.viewMode channelId = some .historical ∨ (store.lookup channelId msg.id).isSome ∨
      (store.messages channelId).length < maxMessages
  | .messageUpdate msg => ∀ m ∈ store.pending channelId, m.id ≠ msg.id
  | .messageDelete _ messageId => ∀ m ∈ store.pending channelId, m.id ≠ messageId

instance decidableHandles (store : MessageState) : ∀ ev, Decidable (Handles channelId store ev)
  | .messageCreate _ => inferInstanceAs (Decidable (_ ∨ _))
  | .messageUpdate _ => inferInstanceAs (Decidable (∀ _ ∈ store.pending channelId, _))
  | .messageDelete _ _ => inferInstanceAs (Decidable (∀ _ ∈ store.pending channelId, _))

/-- The page has seen every edit and deletion of its messages that the client has. -/
def ViewState.PageFresh (s : ViewState) (taken : Snapshot) : Prop :=
  ∀ ev ∈ (s.log.take s.delivered).drop taken.position, ∀ m ∈ taken.page, ¬ ev.Changes m.id

instance ViewState.decidablePageFresh (s : ViewState) (taken : Snapshot) :
    Decidable (s.PageFresh taken) :=
  inferInstanceAs (Decidable (∀ _ ∈ (s.log.take s.delivered).drop taken.position, _))

def ViewState.Orderly (s : ViewState) : ViewEvent → Prop
  | .deliver => ∀ ev ∈ s.log[s.delivered]?, Handles channelId s.store ev
  | .respond => s.answered = false → ∀ taken ∈ s.snapshot, s.PageFresh taken
  | .publish _ | .snapshot => True

instance ViewState.decidableOrderly (s : ViewState) : ∀ ev, Decidable (s.Orderly channelId ev)
  | .deliver => inferInstanceAs (Decidable (∀ _ ∈ s.log[s.delivered]?, _))
  | .respond => inferInstanceAs (Decidable (_ → _))
  | .publish _ | .snapshot => inferInstanceAs (Decidable True)

end System

/-! ## Section 3: What an event does to what is shown -/

section Deliver

variable {currentUserId channelId : ID} {store : MessageState}

theorem pending_congr {s' s : MessageState}
    (h : s'.pendingMessages channelId = s.pendingMessages channelId) :
    s'.pending channelId = s.pending channelId := by
  simp only [pending, h]

/-- A message in the store is kept, or an echo brings its attachments; any other message is
    buffered or goes to the end of the array. -/
theorem deliver_create_cases (h : store.Coherent channelId) (hchannel : msg.channelId = channelId)
    (hroom : store.viewMode channelId = some .historical ∨
      (store.lookup channelId msg.id).isSome ∨
      (store.messages channelId).length < maxMessages) {store' : MessageState}
    (hstore' : store' = (messageCreate msg).deliver currentUserId store) :
    store'.Coherent channelId ∧ store'.viewMode channelId = store.viewMode channelId ∧
    ((∃ existing existing', store.lookup channelId msg.id = some existing ∧
        (existing' = existing ∨ existing' = { existing with attachments := msg.attachments }) ∧
        store'.messages channelId =
          (store.messages channelId).map (replacedBy existing') ∧
        store'.pending channelId = store.pending channelId) ∨
      (store.lookup channelId msg.id = none ∧ store.viewMode channelId = some .historical ∧
        store'.messages channelId = store.messages channelId ∧
        store'.pending channelId =
          if ∃ m ∈ store.pending channelId, m.id = msg.id then store.pending channelId
          else store.pending channelId ++ [msg]) ∨
      (store.lookup channelId msg.id = none ∧ store.viewMode channelId ≠ some .historical ∧
        store'.messages channelId = store.messages channelId ++ [msg] ∧
        store'.pending channelId = store.pending channelId)) := by
  subst hchannel
  rcases @deliver_messageCreate currentUserId store msg with
    ⟨existing, -, hexisting, heq⟩ | ⟨-, heq⟩
  · rw [heq] at hstore'
    subst hstore'
    refine ⟨h.updateMessage _, by simp, .inl ⟨existing, _, hexisting, .inr rfl,
      messages_updateMessage h _, pending_congr (by simp)⟩⟩
  · rw [heq] at hstore'
    subst hstore'
    rcases hfound : store.lookup msg.channelId msg.id with _ | existing
    · by_cases hmode : store.viewMode msg.channelId = some .historical
      · have hbuffer : store.addMessage msg.channelId msg =
            store.bufferMessage msg.channelId msg := by
          simp [addMessage, hmode, hfound]
        rw [hbuffer]
        unfold bufferMessage
        split_ifs with hthere
        · refine ⟨⟨h.unique, h.exact⟩, rfl, .inr (.inl ⟨rfl, hmode, rfl, ?_⟩)⟩
          simp [pending]
        · refine ⟨⟨h.unique, h.exact⟩, rfl, .inr (.inl ⟨rfl, hmode, rfl, ?_⟩)⟩
          simp [pending]
      · have hpush : store.addMessage msg.channelId msg = store.pushMessage msg.channelId msg := by
          simp [addMessage, hmode, hfound]
        rw [hpush]
        refine ⟨h.pushMessage hfound, rfl, .inr (.inr ⟨rfl, hmode, ?_, rfl⟩)⟩
        -- nothing is cut off at the front
        have hlength : (store.messages msg.channelId).length < maxMessages := by
          simpa [hmode, hfound] using hroom
        have hexcess : (store.messages msg.channelId ++ [msg]).length - maxMessages =
            0 := by
          rw [length_append, length_singleton]
          omega
        rw [messages_pushMessage, hexcess, drop_zero]
    · have hkeep : store.addMessage msg.channelId msg = store := by
        simp [addMessage, hfound]
      rw [hkeep]
      refine ⟨h, rfl, .inl ⟨existing, existing, rfl, .inl rfl, ?_, rfl⟩⟩
      -- the one message with this id is replaced by itself
      refine (map_id' _).symm.trans (map_congr_left fun m hm => ?_)
      unfold replacedBy
      split
      · next hm' =>
        exact h.exact.eq_of_key hm ((h.exact msg.id existing).mp hfound).1 hm'
      · rfl

theorem deliver_change {rows : List Row} (h : store.Coherent channelId) (hchange : ev.Changes id)
    (hev : Server.Accepts channelId rows ev) (hhandles : Handles channelId store ev)
    {store' : MessageState} (hstore' : store' = ev.deliver currentUserId store) :
    store'.Coherent channelId ∧ store'.viewMode channelId = store.viewMode channelId ∧
      store'.pending channelId = store.pending channelId ∧
      store'.messages channelId = (store.messages channelId).filterMap ev.revise ∧
      shown channelId store' = (shown channelId store).filterMap ev.revise := by
  have hbuffer : ∀ m ∈ store.pending channelId, ¬ ev.Changes m.id := by
    cases ev with
    | messageCreate msg => cases hchange
    | messageUpdate | messageDelete => exact fun m hm hid => hhandles m hm hid.symm
  have hkept : (store.pending channelId).filterMap ev.revise = store.pending channelId :=
    (filterMap_congr fun m hm => revise_of_unchanged (hbuffer m hm)).trans filterMap_some
  have hcases : store'.Coherent channelId ∧ store'.viewMode channelId = store.viewMode channelId ∧
      store'.pending channelId = store.pending channelId ∧
      store'.messages channelId = (store.messages channelId).filterMap ev.revise := by
    cases ev with
    | messageCreate msg => cases hchange
    | messageUpdate msg =>
      obtain ⟨rfl, -⟩ := hev
      subst hstore'
      exact ⟨h.updateMessage msg, congrFun (updateMessage_viewMode msg) msg.channelId,
        pending_congr (congrFun (updateMessage_pendingMessages msg) msg.channelId),
        (messages_updateMessage h msg).trans (congrFun filterMap_eq_map _).symm⟩
    | messageDelete c messageId =>
      obtain ⟨rfl, -⟩ := hev
      subst hstore'
      refine ⟨h.removeMessages [messageId], congrFun (removeMessages_viewMode [messageId]) c,
        pending_congr (congrFun (removeMessages_pendingMessages [messageId]) c),
        (messages_removeMessages [messageId]).trans ?_⟩
      rw [← filterMap_eq_filter]
      refine filterMap_congr fun m _ => ?_
      by_cases hid : m.id = messageId <;> simp [GatewayEvent.revise, Option.guard, hid]
  obtain ⟨hcoherent, hmode, hpending, hmessages⟩ := hcases
  refine ⟨hcoherent, hmode, hpending, hmessages, ?_⟩
  unfold shown
  rw [hmessages, hpending, filterMap_append, hkept]

end Deliver

/-! ## Section 4: Before the response -/

section Before

open Server

variable {currentUserId channelId : ID} {base rows : List Row} {store : MessageState}

/-- Every message of the client is one of the server's, in its current version, and none
    that was created since the beginning is missing. -/
structure Before (channelId : ID) (base rows : List Row) (store : MessageState) : Prop where
  indexed : store.Indexed channelId
  current : ∀ m ∈ shown channelId store, Live rows m
  complete : ∀ m, Live rows m → ¬ Known base m.id → ∃ m' ∈ shown channelId store, m'.id = m.id

theorem mem_shown :
    m ∈ shown channelId store ↔ m ∈ store.messages channelId ∨ m ∈ store.pending channelId :=
  mem_append

theorem Before.init (hindexed : store.Indexed channelId)
    (hcurrent : ∀ m ∈ shown channelId store, Live rows m) : Before channelId rows rows store where
  indexed := hindexed
  current := hcurrent
  complete _ hlive hnew := absurd hlive.known hnew

theorem Before.absent (h : Before channelId base rows store) (hnew : ¬ Known rows id) :
    store.lookup channelId id = none ∧ ∀ m ∈ store.pending channelId, m.id ≠ id := by
  constructor
  · rw [h.indexed.exact.eq_none_iff]
    intro m hm hid
    exact hnew (hid ▸ (h.current m (mem_shown.mpr (.inl hm))).known)
  · intro m hm hid
    exact hnew (hid ▸ (h.current m (mem_shown.mpr (.inr hm))).known)

theorem not_known_of_lt (h : ∀ r ∈ rows, r.message.id < id) : ¬ Known rows id := by
  rintro ⟨r, hr, hid⟩
  exact absurd (h r hr) (hid ▸ lt_irrefl _)

theorem Before.create (h : Before channelId base rows store)
    (hev : Accepts channelId rows (.messageCreate msg))
    (hhandles : Handles channelId store (.messageCreate msg)) :
    Before channelId base (serve rows (.messageCreate msg))
      ((messageCreate msg).deliver currentUserId store) := by
  obtain ⟨hchannel, hgreatest⟩ := hev
  obtain ⟨hnone, hbuffer⟩ := h.absent (not_known_of_lt hgreatest)
  set store' := (messageCreate msg).deliver currentUserId store with hstore'
  obtain ⟨hcoherent, -, hcases⟩ :=
    deliver_create_cases h.indexed.coherent hchannel hhandles hstore'
  -- the message is shown at the end of the array or of the buffer
  have hshown : ∀ m, m ∈ shown channelId store' ↔ m ∈ shown channelId store ∨ m = msg := by
    intro m
    rcases hcases with ⟨existing, -, hfound, -⟩ | ⟨-, -, hmessages, hpending⟩ |
      ⟨-, -, hmessages, hpending⟩
    · rw [hnone] at hfound
      cases hfound
    · have hnot : ¬ ∃ m ∈ store.pending channelId, m.id = msg.id := by
        rintro ⟨m, hm, hid⟩
        exact hbuffer m hm hid
      rw [if_neg hnot] at hpending
      rw [mem_shown, mem_shown, hmessages, hpending, mem_append, mem_singleton, or_assoc]
    · rw [mem_shown, mem_shown, hmessages, hpending, mem_append, mem_singleton, or_right_comm]
  constructor
  · refine ⟨?_, hcoherent.exact⟩
    rcases hcases with ⟨existing, -, hfound, -⟩ | ⟨-, -, hmessages, -⟩ | ⟨-, -, hmessages, -⟩
    · rw [hnone] at hfound
      cases hfound
    · rw [hmessages]
      exact h.indexed.ascending
    · rw [hmessages]
      refine (Index.ascending_append_iff h.indexed.ascending (pairwise_singleton _ _)).mpr ?_
      intro m hm m' hm'
      rw [mem_singleton] at hm'
      subst hm'
      exact hgreatest _ (h.current m (mem_shown.mpr (Or.inl hm)))
  · intro m hm
    rw [live_create]
    rcases (hshown m).mp hm with hold | hnew
    · exact Or.inl (h.current m hold)
    · exact Or.inr hnew
  · intro m hlive hnew
    rcases live_create.mp hlive with hold | rfl
    · obtain ⟨m', hm', hid⟩ := h.complete m hold hnew
      exact ⟨m', (hshown m').mpr (Or.inl hm'), hid⟩
    · exact ⟨m, (hshown m).mpr (Or.inr rfl), rfl⟩

theorem Before.change (h : Before channelId base rows store) (hchange : ev.Changes id)
    (hev : Accepts channelId rows ev) (hhandles : Handles channelId store ev) :
    Before channelId base (serve rows ev) (ev.deliver currentUserId store) := by
  set store' := ev.deliver currentUserId store with hstore'
  obtain ⟨hcoherent, -, -, hmessages, hshown⟩ :=
    deliver_change h.indexed.coherent hchange hev hhandles hstore'
  constructor
  · refine ⟨?_, hcoherent.exact⟩
    rw [hmessages]
    exact pairwise_revise (R := (· < ·)) h.indexed.ascending
  · intro m hm
    rw [hshown] at hm
    obtain ⟨x, hx, hrevise⟩ := mem_filterMap.mp hm
    exact (live_change hchange).mpr ⟨x, h.current x hx, hrevise⟩
  · intro m hlive hnew
    -- the message had its id before as well
    obtain ⟨x, hx, hrevise⟩ := (live_change hchange).mp hlive
    have hid := revise_id hrevise
    obtain ⟨m', hm', hid'⟩ := h.complete x hx (hid ▸ hnew)
    rw [hshown]
    by_cases hxid : ev.Changes x.id
    · exact ⟨m, mem_filterMap.mpr ⟨m', hm', (revise_congr hxid hid').trans hrevise⟩, rfl⟩
    · exact ⟨m', mem_filterMap.mpr ⟨m', hm', revise_of_unchanged (hid'.symm ▸ hxid)⟩,
        hid'.trans hid.symm⟩

theorem Before.deliver (h : Before channelId base rows store) (hev : Accepts channelId rows ev)
    (hhandles : Handles channelId store ev) :
    Before channelId base (serve rows ev) (ev.deliver currentUserId store) := by
  rcases ev.create_or_changes with ⟨msg, rfl⟩ | hchange
  · exact h.create hev hhandles
  · exact h.change hchange hev hhandles

end Before

/-! ## Section 5: After the response -/

variable {ops : List GatewayEvent}

section After

open Server

variable {currentUserId channelId first : ID} {rows : List Row} {rest : List GatewayEvent}
  {store : MessageState}

/-- A message with this id is there. -/
def LiveId (rows : List Row) (id : ID) : Prop := ∃ m, Live rows m ∧ m.id = id

/-- The messages from `first` on that are still there are in ascending order. -/
def OrderedFrom (first : ID) (rows : List Row) (messages : List Message) : Prop :=
  messages.Pairwise fun a b =>
    first ≤ a.id → first ≤ b.id → LiveId rows a.id → LiveId rows b.id → a.id < b.id

variable {messages page : List Message} {f : Message → Message}

section

variable (h : OrderedFrom first rows messages)
include h

theorem OrderedFrom.map (hf : ∀ m, (f m).id = m.id) :
    OrderedFrom first rows (messages.map f) := by
  unfold OrderedFrom
  rw [pairwise_map]
  simp only [hf]
  exact h

theorem OrderedFrom.revise (ev : GatewayEvent) :
    OrderedFrom first rows (messages.filterMap ev.revise) :=
  pairwise_revise (R := fun a b =>
    first ≤ a → first ≤ b → LiveId rows a → LiveId rows b → a < b) h

theorem OrderedFrom.mono {rows' : List Row}
    (hlive : ∀ m ∈ messages, first ≤ m.id → LiveId rows' m.id → LiveId rows m.id) :
    OrderedFrom first rows' messages := by
  refine .imp_of_mem ?_ h
  intro a b ha hb hab hfa hfb hla hlb
  exact hab hfa hfb (hlive a ha hfa hla) (hlive b hb hfb hlb)

theorem OrderedFrom.snoc (hmsg : ∀ m ∈ messages, first ≤ m.id → first ≤ msg.id → LiveId rows m.id →
    LiveId rows msg.id → m.id < msg.id) : OrderedFrom first rows (messages ++ [msg]) := by
  unfold OrderedFrom
  rw [pairwise_append]
  refine ⟨h, pairwise_singleton _ _, ?_⟩
  intro m hm m' hm' hfm hfm' hlm hlm'
  rw [mem_singleton] at hm'
  subst hm'
  exact hmsg m hm hfm hfm' hlm hlm'

end

/-- The client has the messages from `first` on. `rows` are those after the events it has
    seen, and `rest` the operations that the page has seen and the client has not: where
    these concern a message, its version may be an older one until they arrive. -/
structure After (channelId first : ID) (rows : List Row) (rest : List GatewayEvent)
    (store : MessageState) : Prop where
  coherent : store.Coherent channelId
  unique : UniqueOn Message.id (shown channelId store)
  buffer : store.viewMode channelId ≠ some .historical → store.pending channelId = []
  has : ∀ m, Live (Server.after rows rest) m → first ≤ m.id →
    ∃ m' ∈ shown channelId store, m'.id = m.id ∧
      ((∀ ev ∈ rest, ¬ ev.Changes m.id) → m' = m) ∧
      ((∃ ev ∈ rest, ev.messageId = m.id) → m' ∈ store.messages channelId)
  only : ∀ m ∈ shown channelId store, first ≤ m.id → (∀ ev ∈ rest, ev.messageId ≠ m.id) →
    Live (Server.after rows rest) m
  ordered : OrderedFrom first (Server.after rows rest) (shown channelId store)

/-! ### What is shown after an event -/

theorem shown_map {store' : MessageState} {e : Message} (hmessages : store'.messages channelId =
    (store.messages channelId).map (replacedBy e))
    (hpending : store'.pending channelId = store.pending channelId)
    (hbuffer : ∀ m ∈ store.pending channelId, m.id ≠ e.id) :
    shown channelId store' = (shown channelId store).map (replacedBy e) := by
  unfold shown
  rw [hmessages, hpending, map_append, map_replacedBy_of_notMem hbuffer]

theorem After.buffer_ne (h : After channelId first rows rest store) {p : Message}
    (hm : m ∈ store.messages channelId) (hp : p ∈ store.pending channelId) : p.id ≠ m.id := by
  have hunique := h.unique
  unfold UniqueOn shown at hunique
  rw [map_append, nodup_append] at hunique
  exact (hunique.2.2 m.id (mem_map_of_mem hm) p.id (mem_map_of_mem hp)).symm

/-- What becomes of the messages that are shown when one is created: it is added unless it is
    there already, and an echo changes nothing but its attachments. -/
structure Received (channelId : ID) (msg : Message) (store store' : MessageState)
    (f : Message → Message) (new : List Message) : Prop where
  coherent : store'.Coherent channelId
  buffer : store'.viewMode channelId ≠ some .historical → store'.pending channelId = []
  id : ∀ m, (f m).id = m.id
  other : ∀ m, m.id ≠ msg.id → f m = m
  same : msg ∈ store.messages channelId → f msg = msg
  kept : ∀ m ∈ store.messages channelId, f m ∈ store'.messages channelId
  shows : shown channelId store' = (shown channelId store).map f ++ new
  isNew : (new = [] ∧ ∃ m ∈ shown channelId store, m.id = msg.id) ∨
    (new = [msg] ∧ ∀ m ∈ shown channelId store, m.id ≠ msg.id)

theorem After.received (h : After channelId first rows rest store)
    (hchannel : msg.channelId = channelId) (hhandles : Handles channelId store (.messageCreate msg))
    {store' : MessageState} (hstore' : store' = (messageCreate msg).deliver currentUserId store) :
    ∃ f new, Received channelId msg store store' f new := by
  obtain ⟨hcoherent, hmode, hcases⟩ :=
    deliver_create_cases h.coherent hchannel hhandles hstore'
  rcases hcases with ⟨existing, existing', hfound, hexisting', hmessages, hpending⟩ |
    ⟨hnone, hhist, hmessages, hpending⟩ | ⟨hnone, hlive, hmessages, hpending⟩
  · -- it is among the messages: the copy with the attachments takes its place
    obtain ⟨hmem, hid⟩ := (h.coherent.exact msg.id existing).mp hfound
    have hid' : existing'.id = existing.id := by
      rcases hexisting' with rfl | rfl <;> rfl
    refine ⟨replacedBy existing', [], hcoherent,
      fun hlive => hpending.trans (h.buffer (hmode ▸ hlive)), replacedBy_id _,
      fun m hm => if_neg (hid'.trans hid ▸ hm), fun hthere => ?_,
      fun m hm => hmessages ▸ mem_map_of_mem hm,
      (shown_map hmessages hpending ?_).trans (append_nil _).symm,
      .inl ⟨rfl, existing, mem_shown.mpr (.inl hmem), hid⟩⟩
    · obtain rfl := h.coherent.exact.eq_of_key hmem hthere hid
      rcases hexisting' with rfl | rfl
      · exact if_pos rfl
      · exact if_pos rfl
    · intro p hp
      rw [hid']
      exact h.buffer_ne hmem hp
  · -- the view is historical: it goes into the buffer
    have hbuffer : store'.viewMode channelId ≠ some .historical → store'.pending channelId = [] :=
      fun hlive => absurd (hmode.trans hhist) hlive
    by_cases hthere : ∃ m ∈ store.pending channelId, m.id = msg.id
    · rw [if_pos hthere] at hpending
      obtain ⟨p, hp, hpid⟩ := hthere
      refine ⟨id, [], hcoherent, hbuffer, fun _ => rfl, fun _ _ => rfl, fun _ => rfl,
        fun m hm => hmessages ▸ hm, ?_, .inl ⟨rfl, p, mem_shown.mpr (.inr hp), hpid⟩⟩
      unfold shown
      rw [hmessages, hpending, map_id, append_nil]
    · rw [if_neg hthere] at hpending
      refine ⟨id, [msg], hcoherent, hbuffer, fun _ => rfl, fun _ _ => rfl, fun _ => rfl,
        fun m hm => hmessages ▸ hm, ?_, .inr ⟨rfl, ?_⟩⟩
      · unfold shown
        rw [hmessages, hpending, map_id, append_assoc]
      · intro m hm hid
        rcases mem_shown.mp hm with hm | hm
        · exact h.coherent.exact.eq_none_iff.mp hnone m hm hid
        · exact hthere ⟨m, hm, hid⟩
  · -- the view is live: it goes to the end, and the buffer is empty
    have hempty := h.buffer hlive
    refine ⟨id, [msg], hcoherent, fun _ => hpending.trans hempty, fun _ => rfl, fun _ _ => rfl,
      fun _ => rfl, fun m hm => ?_, ?_, .inr ⟨rfl, ?_⟩⟩
    · rw [hmessages]
      exact mem_append_left _ hm
    · unfold shown
      rw [hmessages, hpending, hempty, append_nil, append_nil, map_id]
    · intro m hm hid
      rcases mem_shown.mp hm with hm | hm
      · exact h.coherent.exact.eq_none_iff.mp hnone m hm hid
      · rw [hempty] at hm
        cases hm

theorem unique_map (hf : ∀ m, (f m).id = m.id) (h : UniqueOn Message.id messages) :
    UniqueOn Message.id (messages.map f) := by
  have hids : (messages.map f).map Message.id = messages.map Message.id := by
    rw [map_map]
    exact map_congr_left fun m _ => hf m
  unfold UniqueOn at h ⊢
  rw [hids]
  exact h

section Received

variable {store' : MessageState} {new : List Message}

section

variable (h : Received channelId msg store store' f new)
include h

theorem Received.mem
    (hm : m ∈ shown channelId store') : (∃ m₀ ∈ shown channelId store, f m₀ = m) ∨ m = msg := by
  rw [h.shows] at hm
  rcases mem_append.mp hm with hm | hm
  · exact .inl (mem_map.mp hm)
  · rcases h.isNew with ⟨rfl, -⟩ | ⟨rfl, -⟩
    · cases hm
    · exact .inr (mem_singleton.mp hm)

theorem Received.mem_of_mem (hm : m ∈ shown channelId store) : f m ∈ shown channelId store' := by
  rw [h.shows]
  exact mem_append_left _ (mem_map_of_mem hm)

theorem Received.unique (hunique : UniqueOn Message.id (shown channelId store)) :
    UniqueOn Message.id (shown channelId store') := by
  rw [h.shows]
  rcases h.isNew with ⟨rfl, -⟩ | ⟨rfl, hnew⟩
  · rw [append_nil]
    exact unique_map h.id hunique
  · refine unique_snoc (unique_map h.id hunique) (forall_mem_map.mpr fun m hm => ?_)
    rw [h.id]
    exact hnew m hm

/-- The order is kept if the message comes after those from `first` on. -/
theorem Received.ordered (hordered : OrderedFrom first rows (shown channelId store))
    (hlast : (∀ m ∈ shown channelId store, m.id ≠ msg.id) → ∀ m ∈ shown channelId store,
      first ≤ m.id → first ≤ msg.id → LiveId rows msg.id → m.id < msg.id) : OrderedFrom first rows (shown channelId store') := by
  rw [h.shows]
  rcases h.isNew with ⟨rfl, -⟩ | ⟨rfl, hnew⟩
  · rw [append_nil]
    exact hordered.map h.id
  · refine (hordered.map h.id).snoc (forall_mem_map.mpr fun m hm => ?_)
    rw [h.id]
    exact fun hfm hfmsg _ hlive => hlast hnew m hm hfm hfmsg hlive

end

end Received

/-! ### Events that the page has seen -/

/-- The page has the message of a creation it has seen, in the version created if nothing
    follows. -/
theorem After.created (h : After channelId first rows (.messageCreate msg :: rest) store)
    (hrows : AscendingRows rows) (hops : Accepted channelId rows (.messageCreate msg :: rest))
    {m : Message} (hlive : Live (Server.after rows (.messageCreate msg :: rest)) m)
    (hfirst : first ≤ m.id) (hid : m.id = msg.id) :
    ∃ m' ∈ store.messages channelId, m'.id = msg.id ∧
      ((∀ ev ∈ rest, ¬ ev.Changes msg.id) → m' = msg ∧ m = msg) := by
  obtain ⟨m', -, hid', hsame, hmem⟩ := h.has m hlive hfirst
  refine ⟨m', hmem ⟨_, mem_cons_self, hid.symm⟩, hid'.trans hid, fun hnone => ?_⟩
  -- both are the version that was created
  have hmsg : Live (serve rows (.messageCreate msg)) msg := live_create.mpr (Or.inr rfl)
  obtain ⟨m₀, hm₀, hid₀, hsame₀⟩ := live_of_after hops.2 (hid ▸ hmsg.known) hlive
  have hm : m = msg := by
    rw [← hsame₀ (hid ▸ hnone)]
    exact live_unique (ascending_serve hrows hops.1) hm₀ hmsg (hid₀.trans hid)
  refine ⟨?_, hm⟩
  rw [hsame ?_, hm]
  intro ev hev
  rcases mem_cons.mp hev with rfl | hev
  · exact id
  · exact hid ▸ hnone ev hev

theorem After.create_seen (h : After channelId first rows (.messageCreate msg :: rest) store)
    (hrows : AscendingRows rows) (hops : Accepted channelId rows (.messageCreate msg :: rest))
    (hhandles : Handles channelId store (.messageCreate msg)) :
    After channelId first (serve rows (.messageCreate msg)) rest
      ((messageCreate msg).deliver currentUserId store) := by
  set store' := (messageCreate msg).deliver currentUserId store with hstore'
  obtain ⟨f, new, hreceived⟩ := h.received hops.1.1 hhandles hstore'
  have hchanges : ∀ {id}, (∀ ev ∈ rest, ¬ ev.Changes id) →
      ∀ ev ∈ messageCreate msg :: rest, ¬ ev.Changes id := by
    intro id hnone ev hev
    rcases mem_cons.mp hev with rfl | hev
    · exact fun hfalse => hfalse
    · exact hnone ev hev
  have hothers : ∀ {id}, id ≠ msg.id → (∀ ev ∈ rest, ev.messageId ≠ id) →
      ∀ ev ∈ messageCreate msg :: rest, ev.messageId ≠ id := by
    intro id hid hnone ev hev
    rcases mem_cons.mp hev with rfl | hev
    · exact hid.symm
    · exact hnone ev hev
  have hmsg : ∀ {m : Message}, m.id = msg.id → (∀ ev ∈ rest, ev.messageId ≠ m.id) →
      Live (Server.after (serve rows (.messageCreate msg)) rest) msg := by
    intro m hid hnone
    exact (live_after_iff (hid ▸ hnone)).mpr (live_create.mpr (Or.inr rfl))
  -- its echo does not change the version that was created
  have hversion : ∀ {m m' : Message}, m' ∈ shown channelId store → m'.id = msg.id →
      Live (Server.after rows (.messageCreate msg :: rest)) m → first ≤ m.id → m.id = msg.id →
      (∀ ev ∈ rest, ¬ ev.Changes msg.id) → f m' = msg ∧ m = msg := by
    intro m m' hm' hm'id hlive hfirst hid hnone
    obtain ⟨m₁, hm₁, hm₁id, hboth⟩ := h.created hrows hops hlive hfirst hid
    obtain ⟨rfl, hm⟩ := hboth hnone
    obtain rfl := eq_of_key h.unique hm' (mem_shown.mpr (.inl hm₁)) hm'id
    exact ⟨hreceived.same hm₁, hm⟩
  refine ⟨hreceived.coherent, hreceived.unique h.unique, hreceived.buffer, ?_, ?_,
    hreceived.ordered h.ordered ?_⟩
  · intro m hlive hfirst
    obtain ⟨m', hm', hm'id, hsame, hin⟩ := h.has m hlive hfirst
    refine ⟨f m', hreceived.mem_of_mem hm', (hreceived.id m').trans hm'id, fun hnone => ?_, ?_⟩
    · by_cases hm : m.id = msg.id
      · obtain ⟨hf, heq⟩ := hversion hm' (hm'id.trans hm) hlive hfirst hm (hm ▸ hnone)
        rw [hf, heq]
      · rw [hreceived.other m' (hm'id ▸ hm)]
        exact hsame (hchanges hnone)
    · rintro ⟨ev, hev, hevid⟩
      exact hreceived.kept m' (hin ⟨ev, mem_cons_of_mem _ hev, hevid⟩)
  · intro m hm hfirst hnone
    rcases hreceived.mem hm with ⟨m₀, hm₀, rfl⟩ | rfl
    · rw [hreceived.id] at hfirst hnone
      by_cases hid : m₀.id = msg.id
      · have hlive := hmsg hid hnone
        have hrest : ∀ ev ∈ rest, ¬ ev.Changes msg.id :=
          fun ev hev hch => hnone ev hev (hch.messageId.trans hid.symm)
        rw [(hversion hm₀ hid hlive (hid ▸ hfirst) rfl hrest).1]
        exact hlive
      · rw [hreceived.other m₀ hid]
        exact h.only m₀ hm₀ hfirst (hothers hid hnone)
    · exact hmsg rfl hnone
  · -- a message that is still there came with the page
    rintro hnew m - - hfirst ⟨m₁, hm₁, hm₁id⟩
    obtain ⟨m₂, hm₂, hm₂id, -⟩ := h.created hrows hops hm₁ (hm₁id ▸ hfirst) hm₁id
    exact absurd hm₂id (hnew m₂ (mem_shown.mpr (.inl hm₂)))

theorem accepts_live (hev : Accepts channelId rows ev) (hid : ev.Changes id) :
    ∃ x, Live rows x ∧ x.id = id := by
  have hrow : ∀ r : Row, r ∈ rows → r.deleted = false → Live rows r.message := by
    intro r hr hdeleted
    unfold Live
    rw [← hdeleted]
    exact hr
  cases ev with
  | messageCreate msg => cases hid
  | messageUpdate | messageDelete =>
    obtain ⟨-, r, hr, hrid, hdeleted⟩ := hev
    exact ⟨r.message, hrow r hr hdeleted, hrid.trans hid⟩

theorem After.change_seen (h : After channelId first rows (ev :: rest) store)
    (hops : Accepted channelId rows (ev :: rest)) (hchange : ev.Changes id)
    (hhandles : Handles channelId store ev) :
    After channelId first (serve rows ev) rest (ev.deliver currentUserId store) := by
  set store' := ev.deliver currentUserId store with hstore'
  obtain ⟨hcoherent, hmode, hpending, hmessages, hshown⟩ :=
    deliver_change h.coherent hchange hops.1 hhandles hstore'
  refine ⟨hcoherent, hshown ▸ unique_revise h.unique,
    fun hlive => hpending.trans (h.buffer (hmode ▸ hlive)), ?_, ?_, hshown ▸ h.ordered.revise ev⟩
  · intro m hlive hfirst
    obtain ⟨m', hm', hm'id, hsame, hin⟩ := h.has m hlive hfirst
    obtain ⟨x, hrevise, hversion⟩ : ∃ x, ev.revise m' = some x ∧
        ((∀ ev' ∈ rest, ¬ ev'.Changes m.id) → x = m) := by
      by_cases hm : ev.Changes m.id
      · -- the version that the rest of the events start from
        obtain ⟨y, hy, hyid⟩ := accepts_live hops.1 hm
        obtain ⟨m₀, hm₀, hm₀id, hsame₀⟩ :=
          live_of_after hops.2 (known_serve.mpr (.inl (hyid ▸ hy.known))) hlive
        obtain ⟨x, hx, hrevise⟩ := (live_change hm).mp hm₀
        have hxid : x.id = m.id := (revise_id hrevise).symm.trans hm₀id
        exact ⟨m₀, (revise_congr (hxid.symm ▸ hm) (hm'id.trans hxid.symm)).trans hrevise, hsame₀⟩
      · exact ⟨m', revise_of_unchanged (hm'id.symm ▸ hm),
          fun hnone => hsame (forall_mem_cons.mpr ⟨hm, hnone⟩)⟩
    refine ⟨x, hshown ▸ mem_filterMap.mpr ⟨m', hm', hrevise⟩,
      (revise_id hrevise).trans hm'id, hversion, ?_⟩
    rintro ⟨ev', hev', hid'⟩
    rw [hmessages]
    exact mem_filterMap.mpr ⟨m', hin ⟨ev', mem_cons_of_mem _ hev', hid'⟩, hrevise⟩
  · intro m hm hfirst hnone
    rw [hshown] at hm
    obtain ⟨x, hx, hrevise⟩ := mem_filterMap.mp hm
    by_cases hxid : ev.Changes x.id
    · obtain ⟨y, hy, hyid⟩ := accepts_live hops.1 hxid
      exact (live_after_iff hnone).mpr ((live_change hxid).mpr
        ⟨y, hy, (revise_congr hxid hyid).trans hrevise⟩)
    · rw [revise_of_unchanged hxid] at hrevise
      cases hrevise
      refine h.only m hx hfirst (forall_mem_cons.mpr ⟨fun heq => hxid ?_, hnone⟩)
      rw [← heq, hchange.messageId]
      exact hchange

/-! ### Events that are new to the page -/

theorem After.shown_known (h : After channelId first rows [] store) (hm : m ∈ shown channelId store)
    (hfirst : first ≤ m.id) : Live rows m := by
  refine h.only m hm hfirst ?_
  intro ev hev
  cases hev

theorem After.shown_live (h : After channelId first rows [] store) (hlive : Live rows m)
    (hfirst : first ≤ m.id) : m ∈ shown channelId store := by
  obtain ⟨m', hm', -, hsame, -⟩ := h.has m hlive hfirst
  have hm : m' = m := hsame fun ev hev => by cases hev
  exact hm ▸ hm'

/-- Without events to come, what is shown is what the server has. -/
theorem After.of_exact (hcoherent : store.Coherent channelId)
    (hunique : UniqueOn Message.id (shown channelId store))
    (hbuffer : store.viewMode channelId ≠ some .historical → store.pending channelId = [])
    (hhas : ∀ m, Live rows m → first ≤ m.id → m ∈ shown channelId store)
    (honly : ∀ m ∈ shown channelId store, first ≤ m.id → Live rows m)
    (hordered : OrderedFrom first rows (shown channelId store)) :
    After channelId first rows [] store where
  coherent := hcoherent
  unique := hunique
  buffer := hbuffer
  has m hlive hfirst := by
    refine ⟨m, hhas m hlive hfirst, rfl, fun _ => rfl, ?_⟩
    rintro ⟨ev, hev, -⟩
    cases hev
  only m hm hfirst _ := honly m hm hfirst
  ordered := hordered

theorem After.create_new (h : After channelId first rows [] store)
    (hev : Accepts channelId rows (.messageCreate msg))
    (hhandles : Handles channelId store (.messageCreate msg)) :
    After channelId first (serve rows (.messageCreate msg)) []
      ((messageCreate msg).deliver currentUserId store) := by
  obtain ⟨hchannel, hgreatest⟩ := hev
  set store' := (messageCreate msg).deliver currentUserId store with hstore'
  obtain ⟨f, new, hreceived⟩ := h.received hchannel hhandles hstore'
  have hfresh : ∀ {m : Message}, m ∈ shown channelId store → first ≤ m.id → m.id < msg.id :=
    fun hm hfirst => hgreatest _ (h.shown_known hm hfirst)
  -- the messages from `first` on stay as they are
  have hold : ∀ {m : Message}, m ∈ shown channelId store → first ≤ m.id → f m = m :=
    fun hm hfirst => hreceived.other _ (ne_of_lt (hfresh hm hfirst))
  refine .of_exact hreceived.coherent (hreceived.unique h.unique) hreceived.buffer ?_ ?_
    (hreceived.ordered (h.ordered.mono ?_) ?_)
  · intro m hlive hfirst
    rcases live_create.mp hlive with hlive | rfl
    · have hm := h.shown_live hlive hfirst
      exact hold hm hfirst ▸ hreceived.mem_of_mem hm
    · rcases hreceived.isNew with ⟨-, p, hp, hid⟩ | ⟨rfl, -⟩
      · exact absurd (hfresh hp (hid ▸ hfirst)) (hid ▸ lt_irrefl _)
      · rw [hreceived.shows]
        exact mem_append_right _ mem_cons_self
  · intro m hm hfirst
    rcases hreceived.mem hm with ⟨m₀, hm₀, rfl⟩ | rfl
    · rw [hreceived.id] at hfirst
      rw [hold hm₀ hfirst]
      exact live_create.mpr (.inl (h.shown_known hm₀ hfirst))
    · exact live_create.mpr (.inr rfl)
  · intro m hm hfirst _
    exact ⟨m, h.shown_known hm hfirst, rfl⟩
  · exact fun _ m hm hfirst _ _ => hfresh hm hfirst

theorem After.change_new (h : After channelId first rows [] store) (hchange : ev.Changes id)
    (hev : Accepts channelId rows ev) (hhandles : Handles channelId store ev) :
    After channelId first (serve rows ev) [] (ev.deliver currentUserId store) := by
  set store' := ev.deliver currentUserId store with hstore'
  obtain ⟨hcoherent, hmode, hpending, -, hshown⟩ :=
    deliver_change h.coherent hchange hev hhandles hstore'
  refine .of_exact hcoherent (hshown ▸ unique_revise h.unique)
    (fun hlive => hpending.trans (h.buffer (hmode ▸ hlive))) ?_ ?_ ?_
  · intro m hlive hfirst
    obtain ⟨x, hx, hrevise⟩ := (live_change hchange).mp hlive
    rw [hshown]
    exact mem_filterMap.mpr ⟨x, h.shown_live hx (revise_id hrevise ▸ hfirst), hrevise⟩
  · intro m hm hfirst
    rw [hshown] at hm
    obtain ⟨x, hx, hrevise⟩ := mem_filterMap.mp hm
    exact (live_change hchange).mpr ⟨x, h.shown_known hx (revise_id hrevise ▸ hfirst), hrevise⟩
  · rw [hshown]
    refine (h.ordered.mono ?_).revise ev
    intro m hm hfirst _
    exact ⟨m, h.shown_known hm hfirst, rfl⟩

/-! ### The response -/

/-- A page has every message from its first one on. -/
structure PageOf (first : ID) (rows : List Row) (page : List Message) : Prop where
  ascending : Ascending Message.id page
  live : ∀ m ∈ page, Live rows m
  first_le : ∀ m ∈ page, first ≤ m.id
  full : ∀ m, Live rows m → first ≤ m.id → m ∈ page

theorem latestPage_pageOf (hrows : AscendingRows rows) {limit : Nat} {oldest : Message}
    (hfirst : (latestPage limit rows).head? = some oldest) :
    PageOf oldest.id rows (latestPage limit rows) := by
  set n := rows.length - limit
  have hsplit : rows.take n ++ rows.drop n = rows := take_append_drop n rows
  have hasc : AscendingRows (rows.drop n) := Index.Ascending.drop hrows n
  have hpage : Ascending Message.id (latestPage limit rows) := ascending_current hasc
  obtain ⟨rest, hcons⟩ : ∃ rest, latestPage limit rows = oldest :: rest := by
    rcases hl : latestPage limit rows with _ | ⟨m, rest⟩
    · rw [hl] at hfirst
      cases hfirst
    · rw [hl] at hfirst
      cases hfirst
      exact ⟨rest, rfl⟩
  have holdest : Live (rows.drop n) oldest := by
    refine mem_current.mp ?_
    show oldest ∈ latestPage limit rows
    rw [hcons]
    exact mem_cons_self
  refine ⟨hpage, ?_, ?_, ?_⟩
  · intro m hm
    exact mem_of_mem_drop (mem_current.mp hm)
  · intro m hm
    rw [hcons] at hm hpage
    rcases mem_cons.mp hm with rfl | hm
    · exact le_refl _
    · exact le_of_lt ((pairwise_cons.mp hpage).1 m hm)
  · intro m hlive hle
    refine mem_current.mpr ?_
    rw [← hsplit] at hlive
    rcases mem_append.mp hlive with hold | hnew
    · -- the rows before the page have smaller ids
      have hcross := hrows
      rw [← hsplit] at hcross
      have hlt := (pairwise_append.mp hcross).2.2 _ hold _ holdest
      exact absurd hle (not_le_of_gt hlt)
    · exact hnew

theorem mem_kept (hpage : Ascending Message.id page) (hm : m ∈ store.kept channelId page) :
    m ∈ shown channelId store ∧ ∀ f ∈ page, f.id ≠ m.id := by
  have hnewer : ∀ {m}, m ∈ newerThan page (store.messages channelId) →
      m ∈ shown channelId store ∧ ∀ f ∈ page, f.id ≠ m.id := by
    intro m hm
    obtain ⟨hmem, hlt⟩ := mem_newerThan hpage hm
    exact ⟨mem_shown.mpr (.inl hmem), fun f hf => ne_of_lt (hlt f hf)⟩
  unfold kept at hm
  rcases hbuffer : store.pendingMessages channelId with _ | buffered
  · rw [hbuffer] at hm
    exact hnewer hm
  · rw [hbuffer] at hm
    rcases mem_addPending (mem_orderBy.mp hm) with hm | ⟨hm, hout⟩
    · exact hnewer hm
    · refine ⟨mem_shown.mpr (.inr ?_), hout⟩
      simp only [pending, hbuffer, Option.getD_some]
      exact hm

theorem exists_kept (hpage : Ascending Message.id page) (hne : page ≠ [])
    (hm : m ∈ shown channelId store) (hlt : ∀ f ∈ page, f.id < m.id) :
    ∃ t ∈ store.kept channelId page, t.id = m.id := by
  have hout : ∀ f ∈ page, f.id ≠ m.id := fun f hf => ne_of_lt (hlt f hf)
  have hnewer : m ∈ store.messages channelId → m ∈ newerThan page (store.messages channelId) := by
    intro hmem
    refine mem_filter.mpr ⟨hmem, decide_eq_true ?_⟩
    exact ⟨(lastFetchedId_lt_iff hpage hne).mpr hlt, buildByIdIndex_isNone.mpr hout⟩
  unfold kept
  rcases hbuffer : store.pendingMessages channelId with _ | buffered
  · rcases mem_shown.mp hm with hm | hm
    · exact ⟨m, hnewer hm, rfl⟩
    · simp [pending, hbuffer] at hm
  · rcases mem_shown.mp hm with hm | hm
    · exact ⟨m, mem_orderBy.mpr (subset_addPending (hnewer hm)), rfl⟩
    · simp only [pending, hbuffer, Option.getD_some] at hm
      obtain ⟨t, ht, hid⟩ := @exists_addPending _
        (newerThan page (store.messages channelId)) _ _ hm hout
      exact ⟨t, mem_orderBy.mpr ht, hid⟩

theorem shown_receivePage {page : List Message} {hasMore : Bool} :
    shown channelId (receivePage channelId store page hasMore) =
      page ++ store.kept channelId page := by
  have hmessages := store.messages_hydrateMessages channelId page
  have hpending := store.pending_hydrateMessages channelId page
  refine .trans ?_ (append_nil _)
  exact congr (congrArg _ hmessages) hpending

theorem unique_receivePage (hindexed : store.Indexed channelId)
    (hpage : Ascending Message.id page) :
    UniqueOn Message.id (page ++ store.kept channelId page) := by
  unfold UniqueOn
  rw [map_append, nodup_append]
  refine ⟨hpage.unique, (ascending_kept hindexed page).unique, ?_⟩
  intro id hid id' hid'
  obtain ⟨f, hf, rfl⟩ := mem_map.mp hid
  obtain ⟨m, hm, rfl⟩ := mem_map.mp hid'
  exact (mem_kept hpage hm).2 f hf

/-- The order after the response: what is kept and still there is newer than the page. -/
theorem ordered_receivePage {rows' : List Row}
    (hindexed : store.Indexed channelId) (hpage : Ascending Message.id page)
    (hnewer : ∀ m ∈ store.kept channelId page, first ≤ m.id → LiveId rows' m.id →
    ∀ f ∈ page, f.id < m.id) : OrderedFrom first rows' (page ++ store.kept channelId page) := by
  unfold OrderedFrom
  rw [pairwise_append]
  refine ⟨hpage.imp fun hlt _ _ _ _ => hlt,
    (ascending_kept hindexed page).imp fun hlt _ _ _ _ => hlt, ?_⟩
  intro f hf m hm _ hfirst _ hlive
  exact hnewer m hm hfirst hlive f hf

section Respond

variable {base : List Row} {hasMore : Bool}

theorem coherent_receivePage (hindexed : store.Indexed channelId)
    (hpage : Ascending Message.id page) :
    (receivePage channelId store page hasMore).Coherent channelId := by
  have hhydrated := coherent_hydrateMessages (unique_receivePage hindexed hpage)
  exact ⟨hhydrated.unique, hhydrated.exact⟩

/-- The page is at least as new as the events that were delivered. -/
theorem Before.respond_newer (h : Before channelId base rows store)
    (hpage : PageOf first (Server.after rows rest) page) :
    After channelId first rows rest (receivePage channelId store page hasMore) := by
  have hshown := @shown_receivePage channelId store page hasMore
  constructor
  · exact coherent_receivePage h.indexed hpage.ascending
  · rw [hshown]
    exact unique_receivePage h.indexed hpage.ascending
  · intro _
    exact store.pending_hydrateMessages channelId page
  · intro m hlive hfirst
    have hm := hpage.full m hlive hfirst
    refine ⟨m, hshown ▸ mem_append_left _ hm, rfl, fun _ => rfl, fun _ => ?_⟩
    have hmessages : (receivePage channelId store page hasMore).messages channelId = _ :=
      store.messages_hydrateMessages channelId page
    rw [hmessages]
    exact mem_append_left _ hm
  · intro m hm hfirst hnone
    rw [hshown] at hm
    rcases mem_append.mp hm with hm | hm
    · exact hpage.live m hm
    · exact (live_after_iff hnone).mpr (h.current m (mem_kept hpage.ascending hm).1)
  · rw [hshown]
    refine ordered_receivePage h.indexed hpage.ascending ?_
    -- what is still there from `first` on is in the page
    rintro m hm hfirst ⟨x, hx, hxid⟩ f -
    have hin := hpage.full x hx (hxid ▸ hfirst)
    exact absurd hxid ((mem_kept hpage.ascending hm).2 x hin)

/-- Events that the page has not seen were delivered before it. -/
theorem Before.respond_older (h : Before channelId base (Server.after rows ops) store)
    (hrows : AscendingRows rows) (hops : Accepted channelId rows ops)
    (hbase : ∀ id, Known base id → Known rows id) (hpage : PageOf first rows page) (hne : page ≠ [])
    (hfresh : ∀ ev ∈ ops, ∀ m ∈ page, ¬ ev.Changes m.id) :
    After channelId first (Server.after rows ops) []
      (receivePage channelId store page hasMore) := by
  have hshown := @shown_receivePage channelId store page hasMore
  have hafter := ascending_after hrows hops
  have hlive : ∀ f ∈ page, Live (Server.after rows ops) f := fun f hf =>
    live_after_of_unchanged (hpage.live f hf) fun ev hev => hfresh ev hev f hf
  -- a message outside the page was created after it was read
  have hcreated : ∀ {m : Message}, Live (Server.after rows ops) m → first ≤ m.id →
      (∀ f ∈ page, f.id ≠ m.id) → ¬ Known rows m.id := by
    intro m hm hfirst hout hknown
    obtain ⟨m₀, hm₀, hm₀id, -⟩ := live_of_after hops hknown hm
    exact hout m₀ (hpage.full m₀ hm₀ (hm₀id ▸ hfirst)) hm₀id
  have hnewer : ∀ {m : Message}, Live (Server.after rows ops) m → first ≤ m.id →
      (∀ f ∈ page, f.id ≠ m.id) → ∀ f ∈ page, f.id < m.id := by
    intro m hm hfirst hout f hf
    exact lt_of_created hops hm.known (hcreated hm hfirst hout) _ (hpage.live f hf)
  refine After.of_exact (coherent_receivePage h.indexed hpage.ascending)
    (hshown ▸ unique_receivePage h.indexed hpage.ascending)
    (fun _ => store.pending_hydrateMessages channelId page) ?_ ?_ ?_
  · intro m hm hfirst
    rw [hshown, mem_append]
    by_cases hin : ∃ f ∈ page, f.id = m.id
    · obtain ⟨f, hf, hfid⟩ := hin
      exact Or.inl (live_unique hafter (hlive f hf) hm hfid ▸ hf)
    · push Not at hin
      obtain ⟨m', hm', hm'id⟩ :=
        h.complete m hm fun hknown => hcreated hm hfirst hin (hbase _ hknown)
      obtain ⟨t, ht, htid⟩ := exists_kept hpage.ascending hne hm' (hm'id ▸ hnewer hm hfirst hin)
      have htlive := h.current t (mem_kept hpage.ascending ht).1
      exact Or.inr (live_unique hafter htlive hm (htid.trans hm'id) ▸ ht)
  · intro m hm _
    rw [hshown] at hm
    rcases mem_append.mp hm with hm | hm
    · exact hlive m hm
    · exact h.current m (mem_kept hpage.ascending hm).1
  · rw [hshown]
    refine ordered_receivePage h.indexed hpage.ascending ?_
    intro m hm hfirst _
    obtain ⟨hold, hout⟩ := mem_kept hpage.ascending hm
    exact hnewer (h.current m hold) hfirst hout

end Respond

/-- With no events to come, the client shows the server's messages from `first` on. -/
theorem After.shown_eq (h : After channelId first rows [] store) (hrows : AscendingRows rows) :
    (shown channelId store).filter (fun m => first ≤ m.id) =
      (current rows).filter (fun m => first ≤ m.id) := by
  have hasc : Ascending Message.id ((shown channelId store).filter fun m => first ≤ m.id) := by
    refine Pairwise.imp_of_mem ?_ (h.ordered.sublist filter_sublist)
    intro a b ha hb hab
    obtain ⟨ha, hfa⟩ := mem_filter.mp ha
    obtain ⟨hb, hfb⟩ := mem_filter.mp hb
    rw [decide_eq_true_iff] at hfa hfb
    exact hab hfa hfb ⟨a, h.shown_known ha hfa, rfl⟩ ⟨b, h.shown_known hb hfb, rfl⟩
  have hasc' := (ascending_current hrows).filter fun m => decide (first ≤ m.id)
  refine Pairwise.eq_of_mem_iff hasc hasc' ?_
  intro m
  rw [mem_filter, mem_filter, mem_current, decide_eq_true_iff]
  constructor
  · rintro ⟨hm, hfirst⟩
    exact ⟨h.shown_known hm hfirst, hfirst⟩
  · rintro ⟨hm, hfirst⟩
    exact ⟨h.shown_live hm hfirst, hfirst⟩

end After

/-! ## Section 6: Runs -/

section Runs

open Server

variable {currentUserId channelId : ID} {limit : Nat} {base : List Row} {s : ViewState}

theorem accepted_append {rows : List Row} {ops' : List GatewayEvent} :
    Accepted channelId rows (ops ++ ops') ↔
      Accepted channelId rows ops ∧ Accepted channelId (Server.after rows ops) ops' := by
  induction ops generalizing rows with
  | nil => exact iff_and_self.mpr fun _ => trivial
  | cons ev ops ih =>
    have hih := @ih (serve rows ev)
    exact (and_congr_right fun _ => hih).trans (and_assoc).symm

theorem rowsAt_between {n k : Nat} (h : n ≤ k) (haccepted : Accepted channelId base s.log) :
    Server.after (s.rowsAt base n) ((s.log.take k).drop n) = s.rowsAt base k ∧
      Accepted channelId base (s.log.take n) ∧
      Accepted channelId (s.rowsAt base n) ((s.log.take k).drop n) := by
  have hsplit : s.log.take n ++ (s.log.take k).drop n = s.log.take k := by
    have htake : (s.log.take k).take n = s.log.take n := by
      rw [take_take, Nat.min_eq_left h]
    rw [← htake]
    exact take_append_drop n _
  have hk : Accepted channelId base (s.log.take k) := by
    rw [← take_append_drop k s.log] at haccepted
    exact (accepted_append.mp haccepted).1
  rw [← hsplit] at hk
  refine ⟨?_, (accepted_append.mp hk).1, (accepted_append.mp hk).2⟩
  have happend : Server.after base (s.log.take n ++ (s.log.take k).drop n) =
      Server.after (s.rowsAt base n) ((s.log.take k).drop n) := foldl_append
  rw [← happend, hsplit]
  rfl

/-- What holds along a run. -/
structure ViewState.Inv (channelId : ID) (limit : Nat) (base : List Row) (s : ViewState) :
    Prop where
  accepted : Accepted channelId base s.log
  delivered : s.delivered ≤ s.log.length
  before : s.answered = false → Before channelId base (s.rowsAt base s.delivered) s.store
  taken : ∀ t, s.snapshot = some t →
    t.position ≤ s.log.length ∧ t.page = latestPage limit (s.rowsAt base t.position)
  answered : s.answered = true → s.snapshot ≠ none
  after : s.answered = true → ∀ t, s.snapshot = some t → ∀ oldest, t.page.head? = some oldest →
    After channelId oldest.id (s.rowsAt base s.delivered)
      ((s.log.take t.position).drop s.delivered) s.store

theorem ViewState.Inv.publish (h : s.Inv channelId limit base)
    (hev : Accepts channelId (s.rows base) ev) :
    ViewState.Inv channelId limit base { s with log := s.log ++ [ev] } := by
  -- the first operations stay the same
  have htake : ∀ {n}, n ≤ s.log.length → (s.log ++ [ev]).take n = s.log.take n :=
    fun hn => take_append_of_le_length hn
  have hrows : ∀ {n}, n ≤ s.log.length →
      ViewState.rowsAt base { s with log := s.log ++ [ev] } n = s.rowsAt base n := by
    intro n hn
    unfold ViewState.rowsAt
    rw [htake hn]
  constructor
  · exact accepted_append.mpr ⟨h.accepted, hev, trivial⟩
  · exact Nat.le_trans h.delivered (by simp)
  · intro hanswered
    rw [hrows h.delivered]
    exact h.before hanswered
  · intro t ht
    obtain ⟨hposition, hpage⟩ := h.taken t ht
    rw [hrows hposition]
    exact ⟨Nat.le_trans hposition (by simp), hpage⟩
  · exact h.answered
  · intro hanswered t ht oldest holdest
    rw [hrows h.delivered]
    rw [show ({ s with log := s.log ++ [ev] } : ViewState).log = s.log ++ [ev] from rfl,
      htake (h.taken t ht).1]
    exact h.after hanswered t ht oldest holdest

/-- An event after the response: one that the page has seen, or a new one. -/
theorem After.deliver {first : ID} {rows : List Row} {rest : List GatewayEvent}
    {store : MessageState} (h : After channelId first rows rest store) (hrows : AscendingRows rows)
    (hev : Accepts channelId rows ev)
    (hrest : rest = [] ∨ ∃ rest', rest = ev :: rest' ∧ Accepted channelId rows rest)
    (hhandles : Handles channelId store ev) :
    After channelId first (serve rows ev) rest.tail (ev.deliver currentUserId store) := by
  rcases ev.create_or_changes with ⟨msg, rfl⟩ | hchange <;>
    rcases hrest with rfl | ⟨rest', rfl, hops⟩
  · exact h.create_new hev hhandles
  · exact h.create_seen hrows hops hhandles
  · exact h.change_new hchange hev hhandles
  · exact h.change_seen hops hchange hhandles

theorem ViewState.Inv.ascending (h : s.Inv channelId limit base) (hbase : AscendingRows base)
    (n : Nat) : AscendingRows (s.rowsAt base n) :=
  ascending_after hbase (rowsAt_between (le_refl n) h.accepted).2.1

theorem ViewState.Inv.deliver (h : s.Inv channelId limit base) (hbase : AscendingRows base)
    (hev : s.log[s.delivered]? = some ev) (hhandles : Handles channelId s.store ev) :
    ViewState.Inv channelId limit base
      { s with store := ev.deliver currentUserId s.store, delivered := s.delivered + 1 } := by
  obtain ⟨hlt, hget⟩ := List.getElem?_eq_some_iff.mp hev
  have hnext : (s.log.take (s.delivered + 1)).drop s.delivered = [ev] := by
    rw [take_add_one, hev, drop_append_of_le_length (by simp; omega)]
    simp
  obtain ⟨hserve, -, hone⟩ := rowsAt_between (Nat.le_succ s.delivered) h.accepted
  rw [hnext] at hserve hone
  have haccepts := hone.1
  have hserve' : s.rowsAt base (s.delivered + 1) = serve (s.rowsAt base s.delivered) ev :=
    hserve.symm
  constructor
  · exact h.accepted
  · exact hlt
  · intro hanswered
    exact hserve' ▸ (h.before hanswered).deliver haccepts hhandles
  · exact h.taken
  · exact h.answered
  · intro hanswered t ht oldest holdest
    have hold := h.after hanswered t ht oldest holdest
    have htail : (s.log.take t.position).drop (s.delivered + 1) =
        ((s.log.take t.position).drop s.delivered).tail := by
      rw [tail_drop]
    refine hserve' ▸ htail ▸ hold.deliver (h.ascending hbase _) haccepts ?_ hhandles
    -- the snapshot has seen the event, or was taken before it
    rcases Nat.lt_or_ge s.delivered t.position with hseen | hnew
    · right
      refine ⟨(s.log.take t.position).drop (s.delivered + 1), ?_,
        (rowsAt_between (Nat.le_of_lt hseen) h.accepted).2.2⟩
      have hlength : s.delivered < (s.log.take t.position).length := by
        rw [length_take]
        omega
      rw [drop_eq_getElem_cons hlength, getElem_take, hget]
    · left
      refine drop_eq_nil_of_le ?_
      rw [length_take]
      omega

theorem ViewState.Inv.respond (h : s.Inv channelId limit base) (hbase : AscendingRows base)
    {t : Snapshot} (ht : s.snapshot = some t) (hanswered : s.answered = false)
    (hfresh : s.PageFresh t) :
    ViewState.Inv channelId limit base
      { s with store := receivePage channelId s.store t.page t.hasMore, answered := true } := by
  have hbefore := h.before hanswered
  obtain ⟨hposition, hpage⟩ := h.taken t ht
  constructor
  · exact h.accepted
  · exact h.delivered
  · intro hfalse
    cases hfalse
  · exact h.taken
  · intro _
    show s.snapshot ≠ none
    rw [ht]
    exact Option.some_ne_none t
  · intro _ t' ht' oldest holdest
    have htt' : t' = t := by
      have hsame : s.snapshot = some t' := ht'
      rw [ht] at hsame
      exact (Option.some.inj hsame).symm
    subst htt'
    have hof : PageOf oldest.id (s.rowsAt base t'.position) t'.page := by
      rw [hpage] at holdest ⊢
      exact latestPage_pageOf (h.ascending hbase _) holdest
    have hne : t'.page ≠ [] := by
      intro hnil
      rw [hnil] at holdest
      cases holdest
    -- the page is newer than what was delivered, or older
    rcases Nat.le_total s.delivered t'.position with hle | hle
    · obtain ⟨hrows, -, -⟩ := rowsAt_between hle h.accepted
      rw [← hrows] at hof
      exact hbefore.respond_newer hof
    · obtain ⟨hrows, -, hops⟩ := rowsAt_between hle h.accepted
      have hnil : (s.log.take t'.position).drop s.delivered = [] := by
        refine drop_eq_nil_of_le ?_
        rw [length_take]
        omega
      show After channelId oldest.id (s.rowsAt base s.delivered)
        ((s.log.take t'.position).drop s.delivered) _
      rw [hnil, ← hrows]
      rw [← hrows] at hbefore
      exact hbefore.respond_older (h.ascending hbase _) hops (fun id hid => known_after hid) hof hne
        hfresh

theorem ViewState.Inv.step (hbase : AscendingRows base) (s : ViewState) (ev : ViewEvent)
    (h : s.Inv channelId limit base) (hev : s.Orderly channelId ev) :
    (s.step currentUserId channelId limit base ev).Inv channelId limit base := by
  cases ev with
  | publish ev =>
    simp only [ViewState.step]
    split
    · next haccepts => exact h.publish haccepts
    · exact h
  | deliver =>
    simp only [ViewState.step]
    split
    · exact h
    · next ev hget => exact h.deliver hbase hget (hev ev hget)
  | snapshot =>
    simp only [ViewState.step]
    split
    · exact h
    · next hnone =>
      refine ⟨h.accepted, h.delivered, h.before, ?_, fun _ => Option.some_ne_none _, ?_⟩
      · intro t ht
        cases ht
        refine ⟨le_refl _, ?_⟩
        show _ = latestPage limit (Server.after base (s.log.take s.log.length))
        rw [take_length]
        rfl
      · intro hanswered
        exact absurd hnone (h.answered hanswered)
  | respond =>
    simp only [ViewState.step]
    split
    · exact h
    · next t ht =>
      split
      · exact h
      · next hanswered =>
        have hfalse : s.answered = false := by simpa using hanswered
        exact h.respond hbase ht hfalse (hev hfalse t ht)

theorem ViewState.Inv.init {store : MessageState} (hindexed : store.Indexed channelId)
    (hcurrent : ∀ m ∈ shown channelId store, Live base m) :
    ViewState.Inv channelId limit base { store } where
  accepted := trivial
  delivered := le_refl _
  before _ := Before.init hindexed hcurrent
  taken _ ht := by cases ht
  answered hfalse := by cases hfalse
  after hfalse := by cases hfalse

end Runs

/-- Where the pages have seen what the client has, once the response and all events are
    delivered the client has, from the oldest fetched message on, exactly the messages of the
    server: in the array, and in historical mode those that arrived since in the buffer. -/
theorem view_converges (currentUserId channelId : ID) (limit : Nat) {base : List Row}
    (hbase : Server.AscendingRows base) {store : MessageState}
    (hindexed : store.Indexed channelId)
    (hcurrent : ∀ m ∈ shown channelId store, Server.Live base m) {evs : List ViewEvent}
    (hguard : Run.Guarded (ViewState.step currentUserId channelId limit base)
      (ViewState.Orderly channelId) { store } evs) {s : ViewState}
    (hs : s = Run.exec (ViewState.step currentUserId channelId limit base) { store } evs)
    (hanswered : s.answered = true) (hdelivered : s.delivered = s.log.length)
    {t : Snapshot} (ht : s.snapshot = some t) {oldest : Message}
    (holdest : t.page.head? = some oldest) :
    (shown channelId s.store).filter (fun m => oldest.id ≤ m.id) =
        (Server.current (s.rows base)).filter (fun m => oldest.id ≤ m.id) ∧
      Ascending Message.id ((shown channelId s.store).filter fun m => oldest.id ≤ m.id) ∧
      (s.store.viewMode channelId ≠ some .historical → s.store.pending channelId = []) := by
  have hinv : s.Inv channelId limit base := by
    rw [hs]
    exact Run.exec_invariant (ViewState.Inv.step hbase)
      (ViewState.Inv.init hindexed hcurrent) hguard
  have hafter := hinv.after hanswered t ht oldest holdest
  have hnil : (s.log.take t.position).drop s.delivered = [] := by
    refine drop_eq_nil_of_le ?_
    rw [length_take, hdelivered]
    exact Nat.min_le_right _ _
  have hrows : s.rowsAt base s.delivered = s.rows base := by
    unfold ViewState.rowsAt ViewState.rows
    rw [hdelivered, take_length]
  rw [hnil, hrows] at hafter
  have hascending : Server.AscendingRows (s.rows base) := hrows ▸ hinv.ascending hbase s.delivered
  have heq := hafter.shown_eq hascending
  refine ⟨heq, ?_, hafter.buffer⟩
  rw [heq]
  exact (Server.ascending_current hascending).filter _

/-- A message created while the page is on its way and edited after it has arrived. -/
theorem view_converges_meanwhile :
    let base : List Row := [{ message := { id := "01", channelId := "general" } }]
    let evs : List ViewEvent := [.snapshot,
      .publish (.messageCreate { id := "02", channelId := "general" }), .deliver, .respond,
      .publish (.messageUpdate { id := "02", channelId := "general", authorId := "ann" }), .deliver]
    let s := Run.exec (ViewState.step "bob" "general" 50 base) { store := {} } evs
    (shown "general" s.store).filter (fun m => "01" ≤ m.id) =
      (Server.current (s.rows base)).filter (fun m => "01" ≤ m.id) := by
  intro base evs s
  have hconverges := @view_converges "bob" "general" 50 base (by decide) {}
    (indexed_init _) (by decide) evs (by decide +kernel) s rfl (by decide +kernel)
    (by decide +kernel)
    { position := 0, page := [{ id := "01", channelId := "general" }], hasMore := false }
    (by decide +kernel) { id := "01", channelId := "general" } rfl
  exact hconverges.1

/-- While old messages are shown, a new one is buffered and not among the messages. -/
theorem not_view_converges_historical :
    ¬ ∀ (currentUserId channelId : ID) (limit : Nat) (base : List Row),
      Server.AscendingRows base → ∀ store : MessageState, store.Indexed channelId →
      (∀ m ∈ shown channelId store, Server.Live base m) → ∀ (evs : List ViewEvent) (s : ViewState),
      s = Run.exec (.step currentUserId channelId limit base) { store } evs →
      s.answered = true → s.delivered = s.log.length → ∀ t : Snapshot, s.snapshot = some t →
      ∀ oldest : Message, t.page.head? = some oldest →
      (s.store.messages channelId).filter (fun m => oldest.id ≤ m.id) =
        (Server.current (s.rows base)).filter (fun m => oldest.id ≤ m.id) := by
  intro h
  have hmessages := h "bob" "general" 50 [{ message := { id := "01", channelId := "general" } }]
    (by decide) (({} : MessageState).setViewMode "general" .historical)
    ((indexed_init _).congr rfl rfl) (by decide)
    [.snapshot, .respond, .publish (.messageCreate { id := "02", channelId := "general" }),
      .deliver] _ rfl (by decide +kernel) (by decide +kernel)
    { position := 0, page := [{ id := "01", channelId := "general" }], hasMore := false }
    (by decide +kernel) { id := "01", channelId := "general" } rfl
  exact absurd hmessages (by decide +kernel)

end Meza.Client
