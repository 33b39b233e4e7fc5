import Meza.Client.Gateway

/-! # Decryption into the store

    Messages arrive encrypted, and three paths of the client decrypt them: the
    gateway as they arrive, the channel view after it has fetched a page, and
    the channel view again when keys come in. Each path awaits the plain text,
    reads the message from the store again and writes it there later, one
    message at a time or a batch of them at once.

    What the decrypted messages must not do is to undo an edit. The events
    alone, without any decryption, say which version of a message is the
    latest. Section 3 relates the two stores, and Section 5 follows whole runs
    of events and decryptions. -/

namespace Meza.Client
open List MessageState Option GatewayEvent Run Index Function

open Store (ID)

/-! ## Section 1: Decrypting a message -/

structure AttachmentMeta where
  fn : String
  ct : String
  deriving DecidableEq, Repr

structure ParsedMessageContent where
  text : String
  attachmentMeta : Option (Record AttachmentMeta) := none

/-- `new TextEncoder().encode(text)`. -/
def encodeText (text : String) : List UInt8 := text.toUTF8.toList

/-- File names and types are taken from the encrypted payload where it has them. -/
def enrichAttachments (parsed : ParsedMessageContent) (attachments : List Attachment) :
    List Attachment :=
  match parsed.attachmentMeta with
  | none => attachments
  | some found => attachments.map fun att =>
    match found att.id with
    | none => att
    | some info =>
      { att with
        filename := if info.fn ≠ "" then info.fn else att.filename
        contentType := if info.ct ≠ "" then info.ct else att.contentType }

/-- The stored message with its content in plain text. -/
def decrypted (stored : Message) (parsed : ParsedMessageContent) : Message :=
  { stored with
    encryptedContent := encodeText parsed.text
    keyVersion := 0
    attachments := enrichAttachments parsed stored.attachments }

section Calls

-- `decryptMessage` and `parseMessageContent`, where keys and signature allow it
variable (plaintext : ID → Nat → List UInt8 → Option ParsedMessageContent)

/-- What follows the decryption: `ok` says whether it had the keys and found the
    signature valid. -/
def decryptMessageInPlace (s : MessageState) (channelId : ID) (msg : Message) (ok : Bool) :
    Option Message :=
  match plaintext channelId msg.keyVersion msg.encryptedContent with
  | none => none
  | some parsed =>
    if ok then
      match s.lookup channelId msg.id with
      | none => none
      | some stored => if stored.keyVersion = 0 then none else some (decrypted stored parsed)
    else none

/-- One message of a call: its decryption is awaited, or has ended with or without a
    message to write. -/
inductive Task where
  | waiting (msg : Message)
  | settled (msg : Message) (result : Option Message)
  deriving DecidableEq

def Task.result : Task → Option Message
  | .waiting _ => none
  | .settled _ result => result

/-- The message whose decryption has left a result to write. -/
def Task.decrypted : Task → Option Message
  | .settled msg (some _) => some msg
  | .settled _ none => none
  | .waiting _ => none

def Task.isSettled : Task → Bool
  | .waiting _ => false
  | .settled _ _ => true

/-- A call of `decryptAndUpdateMessage`, or of `decryptAndUpdateMessages` for a batch. -/
structure Call where
  channelId : ID
  batch : Bool
  tasks : List Task
  written : Bool := false
  deriving DecidableEq

def Call.results (call : Call) : List Message := call.tasks.filterMap Task.result

/-- The write at the end of a call, when all its decryptions have settled. -/
def Call.write (call : Call) (s : MessageState) : MessageState :=
  if call.batch then
    if call.results = [] then s else s.bulkUpdateMessages call.channelId call.results
  else
    match call.results with
    | [] => s
    | result :: _ => s.updateMessage call.channelId result

/-! ## Section 2: Events and decryptions -/

/-- The store, what the events alone would have left in it, for which messages the latest
    version has been decrypted, and the calls. -/
structure DecryptState where
  store : MessageState
  delivered : MessageState
  opened : ID → ID → Bool := fun _ _ => false
  calls : List Call := []

inductive DecryptEvent where
  | deliver (ev : GatewayEvent)
  | decryptAndUpdateMessage (channelId : ID) (msg : Message)
  | decryptAndUpdateMessages (channelId : ID) (msgs : List Message) (pubKeys : List ID)
  | settle (i j : Nat) (ok : Bool)
  | write (i : Nat)

/-- The content of a message, encrypted or not. -/
def Message.version (m : Message) : List UInt8 × Nat := (m.encryptedContent, m.keyVersion)

/-- The event brings a new version of the message, or takes it away. -/
def Supersedes (s : MessageState) (ev : GatewayEvent) (channelId messageId : ID) : Prop :=
  ev.channelId = channelId ∧ ev.messageId = messageId ∧
    match ev with
    | .messageCreate _ => s.lookup channelId messageId = none
    | .messageUpdate _ | .messageDelete _ _ => True

instance decidableSupersedes (s : MessageState) (channelId messageId : ID) :
    ∀ ev, Decidable (Supersedes s ev channelId messageId)
  | .messageCreate _ | .messageUpdate _ | .messageDelete _ _ => inferInstanceAs (Decidable (_ ∧ _))

/-- The message as it was last delivered is the one whose decryption was started. -/
def IsLatest (delivered : MessageState) (channelId : ID) (msg : Message) : Prop :=
  ∀ latest ∈ delivered.lookup channelId msg.id, latest.version = msg.version

instance decidableIsLatest (delivered : MessageState) (channelId : ID) (msg : Message) :
    Decidable (IsLatest delivered channelId msg) :=
  inferInstanceAs (Decidable (∀ _ ∈ delivered.lookup channelId msg.id, _))

/-- The decryption succeeds, and it is one of the latest version. -/
def opens (s : DecryptState) (channelId : ID) (msg : Message) (ok : Bool) : Bool :=
  ok && (plaintext channelId msg.keyVersion msg.encryptedContent).isSome &&
    decide (msg.keyVersion ≠ 0 ∧ IsLatest s.delivered channelId msg)

def settleTask (s : DecryptState) (i j : Nat) (call : Call) (msg : Message) (ok : Bool) :
    DecryptState :=
  { s with
    opened := fun c id => s.opened c id ||
      (decide (c = call.channelId ∧ id = msg.id) && opens plaintext s call.channelId msg ok)
    calls := s.calls.set i { call with tasks := call.tasks.set j (.settled msg
      (decryptMessageInPlace plaintext s.store call.channelId msg ok)) } }

variable (currentUserId : ID)

def DecryptState.step (s : DecryptState) : DecryptEvent → DecryptState
  | .deliver ev =>
    { s with
      store := ev.deliver currentUserId s.store
      delivered := ev.deliver currentUserId s.delivered
      opened := fun c id => s.opened c id && !decide (Supersedes s.delivered ev c id) }
  | .decryptAndUpdateMessage channelId msg =>
    { s with calls := s.calls ++
        [{ channelId := channelId, batch := false, tasks := [.waiting msg] }] }
  | .decryptAndUpdateMessages channelId msgs pubKeys =>
    { s with calls := s.calls ++
        [{ channelId := channelId, batch := true,
           tasks := (msgs.filter fun msg => msg.authorId ∈ pubKeys).map .waiting }] }
  | .settle i j ok =>
    match s.calls[i]? with
    | none => s
    | some call =>
      match call.tasks[j]? with
      | some (.waiting msg) => settleTask plaintext s i j call msg ok
      | _ => s
  | .write i =>
    match s.calls[i]? with
    | none => s
    | some call =>
      if call.tasks.all Task.isSettled ∧ call.written = false then
        { s with
          store := call.write s.store
          calls := s.calls.set i { call with written := true } }
      else s

/-- When a call writes, the messages it has decrypted are the latest versions. -/
def DecryptState.WritesLatest (s : DecryptState) : DecryptEvent → Prop
  | .write i =>
    ∀ call ∈ s.calls[i]?, call.tasks.all Task.isSettled ∧ call.written = false →
      ∀ task ∈ call.tasks, ∀ msg ∈ task.decrypted, IsLatest s.delivered call.channelId msg
  | _ => True

instance DecryptState.decidableWritesLatest (s : DecryptState) :
    ∀ ev, Decidable (s.WritesLatest ev)
  | .write i => inferInstanceAs (Decidable (∀ _ ∈ s.calls[i]?, _))
  | .deliver _ | .decryptAndUpdateMessage _ _ | .decryptAndUpdateMessages _ _ _
  | .settle _ _ _ => inferInstanceAs (Decidable True)

/-! ## Section 3: The store beside what the events leave -/

/-- `m` is the latest version in plain text. -/
def Reads (channelId : ID) (m latest : Message) : Prop :=
  ∃ parsed, plaintext channelId latest.keyVersion latest.encryptedContent = some parsed ∧
    m.version = (encodeText parsed.text, 0)

/-- `m` is the latest version, decrypted or not. -/
def Shows (channelId : ID) (m latest : Message) : Prop :=
  m.version = latest.version ∨ Reads plaintext channelId m latest

/-- Message by message, the store shows what the events leave. -/
structure Mirrors (channelId : ID) (s d : MessageState) : Prop where
  viewMode : s.viewMode channelId = d.viewMode channelId
  pending : s.pendingMessages channelId = d.pendingMessages channelId
  ids : (s.messages channelId).map Message.id = (d.messages channelId).map Message.id
  found : ∀ id, Rel (Shows plaintext channelId) (s.lookup channelId id) (d.lookup channelId id)
  coherent : s.Coherent channelId
  coherent_d : d.Coherent channelId

variable {plaintext} {currentUserId} {s d : MessageState} {channelId : ID}

theorem Shows.refl (m : Message) : Shows plaintext channelId m m := .inl rfl

variable {ok : Bool} {call : Call} {latest m m' msg r : Message} {i j : Nat}

/-- Attachments are not part of a version. -/
theorem Reads.congr {latest' : Message} (h : Reads plaintext channelId m latest)
    (hm : m'.version = m.version) (hlatest : latest'.version = latest.version) :
    Reads plaintext channelId m' latest' := by
  obtain ⟨parsed, hparsed, htext⟩ := h
  obtain ⟨hcontent, hkey⟩ := Prod.mk.inj hlatest
  refine ⟨parsed, ?_, hm.trans htext⟩
  rw [hcontent, hkey]
  exact hparsed

theorem Shows.congr {latest' : Message} (h : Shows plaintext channelId m latest)
    (hm : m'.version = m.version) (hlatest : latest'.version = latest.version) :
    Shows plaintext channelId m' latest' := by
  rcases h with hsame | hreads
  · exact .inl (hm.trans (hsame.trans hlatest.symm))
  · exact .inr (hreads.congr hm hlatest)

theorem Mirrors.refl (h : s.Coherent channelId) : Mirrors plaintext channelId s s where
  viewMode := rfl
  pending := rfl
  ids := rfl
  found := by
    intro id
    rcases s.lookup channelId id with _ | m
    · exact Rel.none
    · exact Rel.some (Shows.refl m)
  coherent := h
  coherent_d := h

section

variable (h : Mirrors plaintext channelId s d)
include h

theorem Mirrors.isSome (id : ID) :
    (s.lookup channelId id).isSome = (d.lookup channelId id).isSome := by
  have hrel := h.found id
  generalize s.lookup channelId id = found at hrel
  generalize d.lookup channelId id = found' at hrel
  cases hrel with
  | some h => rfl
  | none => rfl

theorem Mirrors.map {s' d' : MessageState}
    {f g : Message → Message} (hf : ∀ m, (f m).id = m.id) (hg : ∀ m, (g m).id = m.id)
    (hs : s'.messages channelId = (s.messages channelId).map f)
    (hslookup : ∀ id, s'.lookup channelId id = (s.lookup channelId id).map f)
    (hd : d'.messages channelId = (d.messages channelId).map g)
    (hdlookup : ∀ id, d'.lookup channelId id = (d.lookup channelId id).map g)
    (hmode : s'.viewMode channelId = s.viewMode channelId ∧
      d'.viewMode channelId = d.viewMode channelId)
    (hpending : s'.pendingMessages channelId = s.pendingMessages channelId ∧
      d'.pendingMessages channelId = d.pendingMessages channelId)
    (hshows : ∀ id m latest, s.lookup channelId id = some m → d.lookup channelId id = some latest →
      Shows plaintext channelId m latest → Shows plaintext channelId (f m) (g latest)) :
    Mirrors plaintext channelId s' d' where
  viewMode := by rw [hmode.1, hmode.2, h.viewMode]
  pending := by rw [hpending.1, hpending.2, h.pending]
  ids := by
    have hids : ∀ (l : List Message) (f : Message → Message), (∀ m, (f m).id = m.id) →
        (l.map f).map Message.id = l.map Message.id := by
      intro l f hf
      rw [List.map_map]
      exact map_congr_left fun m _ => hf m
    rw [hs, hd, hids _ _ hf, hids _ _ hg, h.ids]
  found := by
    intro id
    have hrel := h.found id
    rw [hslookup id, hdlookup id]
    rcases hm : s.lookup channelId id with _ | m
    · rcases hl : d.lookup channelId id with _ | latest
      · exact Rel.none
      · rw [hm, hl] at hrel
        cases hrel
    · rcases hl : d.lookup channelId id with _ | latest
      · rw [hm, hl] at hrel
        cases hrel
      · rw [hm, hl] at hrel
        cases hrel with
        | some hshow => exact Rel.some (hshows id m latest hm hl hshow)
  coherent := h.coherent.map hf hs hslookup
  coherent_d := h.coherent_d.map hg hd hdlookup

theorem Mirrors.updateMessage (hid : m'.id = m.id)
    (hshows : Shows plaintext channelId m m') :
    Mirrors plaintext channelId (s.updateMessage channelId m) (d.updateMessage channelId m') := by
  refine h.map (replacedBy_id m) (replacedBy_id m')
    (messages_updateMessage h.coherent m)
    (lookup_updateMessage h.coherent m)
    (messages_updateMessage h.coherent_d m')
    (lookup_updateMessage h.coherent_d m') (by simp) (by simp) ?_
  intro id found latest hfound hlatest hold
  have hid₁ := ((h.coherent.exact id found).mp hfound).2
  have hid₂ := ((h.coherent_d.exact id latest).mp hlatest).2
  unfold replacedBy
  by_cases hk : id = m.id
  · rw [if_pos (hid₁.trans hk), if_pos (hid₂.trans (hk.trans hid.symm))]
    exact hshows
  · rw [if_neg (hid₁ ▸ hk), if_neg (hid₂ ▸ hid ▸ hk)]
    exact hold

theorem Mirrors.removeMessages (ids : List ID) :
    Mirrors plaintext channelId (s.removeMessages channelId ids)
      (d.removeMessages channelId ids) where
  viewMode := by simp [h.viewMode]
  pending := by simp [h.pending]
  ids := by
    have hfilter : ∀ l : List Message, (l.filter fun m => m.id ∉ ids).map Message.id =
        (l.map Message.id).filter fun id => id ∉ ids := by
      intro l
      rw [List.filter_map]
      rfl
    rw [messages_removeMessages, messages_removeMessages, hfilter, hfilter, h.ids]
  found := by
    intro id
    rw [lookup_removeMessages h.coherent,
      lookup_removeMessages h.coherent_d, erase_apply, erase_apply]
    split
    · exact Rel.none
    · exact h.found id
  coherent := h.coherent.removeMessages ids
  coherent_d := h.coherent_d.removeMessages ids

theorem Mirrors.pushMessage
    (hnew : s.lookup channelId m.id = none) (hnew' : d.lookup channelId m.id = none) :
    Mirrors plaintext channelId (s.pushMessage channelId m) (d.pushMessage channelId m) := by
  have hlength : (s.messages channelId).length = (d.messages channelId).length := by
    have hids := congrArg length h.ids
    simpa using hids
  have hcut : (s.messages channelId ++ [m]).length = (d.messages channelId ++ [m]).length := by
    simp [hlength]
  constructor
  · exact h.viewMode
  · exact h.pending
  · rw [messages_pushMessage, messages_pushMessage, hcut,
      map_append, map_append, map_drop, map_drop, h.ids]
  · intro id
    rw [lookup_pushMessage, lookup_pushMessage, hcut, map_take, map_take, h.ids]
    by_cases hid : id = m.id
    · rw [hid, update_self, update_self]
      exact Rel.some (Shows.refl m)
    · rw [update_of_ne hid, update_of_ne hid, erase_apply,
        erase_apply]
      split
      · exact Rel.none
      · exact h.found id
  · exact h.coherent.pushMessage hnew
  · exact h.coherent_d.pushMessage hnew'

theorem Mirrors.bufferMessage (m : Message) :
    Mirrors plaintext channelId (s.bufferMessage channelId m) (d.bufferMessage channelId m) := by
  have hpending : s.pending channelId = d.pending channelId := by
    simp only [MessageState.pending, h.pending]
  unfold MessageState.bufferMessage
  rw [hpending]
  split
  · exact { h with pending := by simp, coherent := ⟨h.coherent.1, h.coherent.2⟩,
                   coherent_d := ⟨h.coherent_d.1, h.coherent_d.2⟩ }
  · exact { h with pending := by simp, coherent := ⟨h.coherent.1, h.coherent.2⟩,
                   coherent_d := ⟨h.coherent_d.1, h.coherent_d.2⟩ }

theorem Mirrors.addMessage (m : Message) :
    Mirrors plaintext channelId (s.addMessage channelId m) (d.addMessage channelId m) := by
  unfold MessageState.addMessage
  rw [h.viewMode, h.isSome m.id]
  split_ifs with hmode hthere hthere
  · exact h
  · exact h.bufferMessage m
  · exact h
  · have hnew' : d.lookup channelId m.id = none := by simpa using hthere
    have hnew : s.lookup channelId m.id = none := by
      have hsome := h.isSome m.id
      rw [hnew'] at hsome
      simpa using hsome
    exact h.pushMessage hnew hnew'

theorem Mirrors.congr {s' d' : MessageState}
    (hs : s'.SameAt s channelId) (hd : d'.SameAt d channelId) :
    Mirrors plaintext channelId s' d' where
  viewMode := by rw [hs.viewMode, hd.viewMode, h.viewMode]
  pending := by rw [hs.pending, hd.pending, h.pending]
  ids := by rw [hs.messages, hd.messages, h.ids]
  found := by
    intro id
    rw [hs.lookup, hd.lookup]
    exact h.found id
  coherent := ⟨hs.messages ▸ h.coherent.unique, hs.messages ▸ hs.lookup ▸ h.coherent.exact⟩
  coherent_d := ⟨hd.messages ▸ h.coherent_d.unique, hd.messages ▸ hd.lookup ▸ h.coherent_d.exact⟩

end

theorem Mirrors.deliver (h : ∀ c, Mirrors plaintext c s d) (ev : GatewayEvent) (c : ID) :
    Mirrors plaintext c (ev.deliver currentUserId s) (ev.deliver currentUserId d) := by
  by_cases hc : c = ev.channelId
  · subst hc
    have hown := h ev.channelId
    cases ev with
    | messageCreate msg =>
      have hfound : Rel (Shows plaintext msg.channelId) (s.lookup msg.channelId msg.id)
        (d.lookup msg.channelId msg.id) := hown.found msg.id
      rcases @deliver_messageCreate currentUserId s msg with
        ⟨existing, hmine, hexisting, heq⟩ | ⟨habsent, heq⟩
      · rcases @deliver_messageCreate currentUserId d msg with
          ⟨latest, -, hlatest, heq'⟩ | ⟨habsent', heq'⟩
        · rw [heq, heq']
          rw [hexisting, hlatest] at hfound
          have hid := ((hown.coherent.exact msg.id existing).mp hexisting).2
          have hid' := ((hown.coherent_d.exact msg.id latest).mp hlatest).2
          cases hfound with
          | some hshows => exact hown.updateMessage (hid'.trans hid.symm) (hshows.congr rfl rfl)
        · rw [hexisting, habsent' hmine] at hfound
          cases hfound
      · rcases @deliver_messageCreate currentUserId d msg with
          ⟨latest, hmine, hlatest, heq'⟩ | ⟨habsent', heq'⟩
        · rw [habsent hmine, hlatest] at hfound
          cases hfound
        · rw [heq, heq']
          exact hown.addMessage msg
    | messageUpdate msg => exact hown.updateMessage rfl (Shows.refl msg)
    | messageDelete c id => exact hown.removeMessages [id]
  · exact (h c).congr (ev.deliver_other s hc) (ev.deliver_other d hc)

/-! ## Section 4: What an event keeps and what a call writes -/

/-- A version stays in the store until an event supersedes it. -/
theorem lookup_deliver_version (h : s.Coherent channelId) {ev : GatewayEvent} {id : ID}
    (hev : ¬ Supersedes s ev channelId id)
    (hm' : (ev.deliver currentUserId s).lookup channelId id = some m') :
    ∃ m, s.lookup channelId id = some m ∧ m'.version = m.version := by
  by_cases hc : channelId = ev.channelId
  · subst hc
    -- an update of another message keeps this one, and one of this message its version
    have hupdate : ∀ u : Message, (u.id = id → ∃ m, s.lookup ev.channelId id = some m ∧
        u.version = m.version) → (s.updateMessage ev.channelId u).lookup ev.channelId id = some m' →
        ∃ m, s.lookup ev.channelId id = some m ∧ m'.version = m.version := by
      intro u hu hfound
      rw [lookup_updateMessage h, map_eq_some_iff] at hfound
      obtain ⟨m, hm, rfl⟩ := hfound
      have hid := ((h.exact id m).mp hm).2
      unfold replacedBy
      split
      · next hsame => exact hu (hsame.symm.trans hid)
      · exact ⟨m, hm, rfl⟩
    cases ev with
    | messageCreate msg =>
      rcases @deliver_messageCreate currentUserId s msg with
        ⟨existing, -, hexisting, heq⟩ | ⟨-, heq⟩
      · rw [heq] at hm'
        refine hupdate _ ?_ hm'
        intro hid
        have hid' := ((h.exact msg.id existing).mp hexisting).2
        exact ⟨existing, (hid'.symm.trans hid) ▸ hexisting, rfl⟩
      · rw [heq] at hm'
        unfold addMessage bufferMessage at hm'
        split_ifs at hm' with hmode hthere hbuffered hthere
        · exact ⟨m', hm', rfl⟩
        · exact ⟨m', hm', rfl⟩
        · exact ⟨m', hm', rfl⟩
        · exact ⟨m', hm', rfl⟩
        · have hnew : s.lookup msg.channelId msg.id = none := by simpa using hthere
          have hid : id ≠ msg.id := by
            rintro rfl
            exact hev ⟨rfl, rfl, hnew⟩
          rw [show (messageCreate msg).channelId = msg.channelId from rfl,
            lookup_pushMessage, update_of_ne hid, erase_apply] at hm'
          split_ifs at hm'
          exact ⟨m', hm', rfl⟩
    | messageUpdate msg =>
      exact hupdate msg (fun hid => absurd ⟨rfl, hid, trivial⟩ hev) hm'
    | messageDelete c messageId =>
      have hcoherent : s.Coherent c := h
      have hremoved : (s.removeMessages c [messageId]).lookup c id = some m' := hm'
      rw [lookup_removeMessages hcoherent, erase_apply] at hremoved
      split_ifs at hremoved
      exact ⟨m', hremoved, rfl⟩
  · rw [(ev.deliver_other s hc).lookup] at hm'
    exact ⟨m', hm', rfl⟩

theorem Call.write_spec (call : Call) (hsingle : call.batch = false → call.results.length ≤ 1)
    (h : s.Coherent call.channelId) :
    ∃ f : Message → Message, (∀ m, (f m).id = m.id) ∧
      (call.write s).messages call.channelId = (s.messages call.channelId).map f ∧
      (∀ id, (call.write s).lookup call.channelId id = (s.lookup call.channelId id).map f) ∧
      (∀ m, f m = m ∨ f m ∈ call.results) ∧
      ∀ m, ∀ r ∈ call.results, r.id = m.id → f m ∈ call.results := by
  by_cases hnone : call.results = []
  · have hkeep : call.write s = s := by simp [Call.write, hnone]
    refine ⟨fun m => m, fun _ => rfl, ?_, ?_, fun _ => .inl rfl, ?_⟩
    · rw [hkeep, List.map_id']
    · intro id
      rw [hkeep, Option.map_id']
    · intro m r hr
      rw [hnone] at hr
      cases hr
  · by_cases hbatch : call.batch = true
    · have heq : call.write s = s.bulkUpdateMessages call.channelId call.results := by
        simp [Call.write, hbatch, hnone]
      have hmem : ∀ {m r}, lastUpdate call.results m = some r → r ∈ call.results :=
        fun hr => mem_reverse.mp (mem_of_find?_eq_some hr)
      refine ⟨updatedBy call.results, updatedBy_id _, ?_, ?_, ?_, ?_⟩
      · rw [heq, messages_bulkUpdateMessages]
      · intro id
        rw [heq, lookup_bulkUpdateMessages h]
      · intro m
        unfold updatedBy
        rcases hr : lastUpdate call.results m.id with _ | r
        · exact .inl rfl
        · exact .inr (hmem hr)
      · intro m r hr hid
        unfold updatedBy
        rcases hlast : lastUpdate call.results m.id with _ | r'
        · have hnot := find?_eq_none.mp hlast r (mem_reverse.mpr hr)
          simp [hid] at hnot
        · exact hmem hlast
    · rw [Bool.not_eq_true] at hbatch
      obtain ⟨r, hr⟩ : ∃ r, call.results = [r] := by
        have hlength := hsingle hbatch
        have hpos := length_pos_iff.mpr hnone
        exact length_eq_one_iff.mp (by omega)
      have heq : call.write s = s.updateMessage call.channelId r := by
        simp [Call.write, hbatch, hr]
      rw [heq, hr]
      refine ⟨replacedBy r, replacedBy_id r,
        messages_updateMessage h r, lookup_updateMessage h r, ?_, ?_⟩
      · intro m
        unfold replacedBy
        split
        · exact .inr mem_cons_self
        · exact .inl rfl
      · intro m r' hr' hid
        rw [mem_singleton] at hr'
        subst hr'
        rw [replacedBy, if_pos hid.symm]
        exact mem_cons_self

theorem Call.write_frame (call : Call) (s : MessageState) :
    (call.write s).viewMode = s.viewMode ∧ (call.write s).pendingMessages = s.pendingMessages ∧
      ∀ c, c ≠ call.channelId → (call.write s).SameAt s c := by
  unfold Call.write
  split
  · split
    · exact ⟨rfl, rfl, fun c _ => ⟨rfl, rfl, rfl, rfl⟩⟩
    · exact ⟨by simp, by simp,
        fun c hc => Action.run_other s (.bulkUpdateMessages call.channelId call.results) hc⟩
  · split
    · exact ⟨rfl, rfl, fun c _ => ⟨rfl, rfl, rfl, rfl⟩⟩
    · next r _ _ =>
      exact ⟨by simp, by simp, fun c hc => Action.run_other s (.updateMessage call.channelId r) hc⟩

/-! ## Section 5: Runs -/

theorem Call.mem_results : r ∈ call.results ↔ ∃ msg, .settled msg (some r) ∈ call.tasks := by
  unfold Call.results
  rw [mem_filterMap]
  constructor
  · rintro ⟨task, htask, hresult⟩
    cases task with
    | waiting msg => cases hresult
    | settled msg result =>
      have hsome : result = some r := hresult
      exact ⟨msg, hsome ▸ htask⟩
  · rintro ⟨msg, hmem⟩
    exact ⟨_, hmem, rfl⟩

variable (plaintext) in
/-- What a call has decrypted is right, and only a call whose decryptions have all settled
    has written. -/
structure Call.Sound (call : Call) : Prop where
  single : call.batch = false → call.tasks.length = 1
  decrypt : ∀ msg r, .settled msg (some r) ∈ call.tasks →
    r.id = msg.id ∧ Reads plaintext call.channelId r msg
  written : call.written = true → call.tasks.all Task.isSettled = true

/-- A call that is still to write has a result for the message. -/
def DecryptState.ToWrite (s : DecryptState) (c id : ID) : Prop :=
  ∃ call ∈ s.calls, call.written = false ∧ call.channelId = c ∧ ∃ r ∈ call.results, r.id = id

variable (plaintext) in
structure DecryptState.Inv (s : DecryptState) : Prop where
  mirrors : ∀ c, Mirrors plaintext c s.store s.delivered
  sound : ∀ call ∈ s.calls, call.Sound plaintext
  opened : ∀ c id, s.opened c id = true → ∀ latest, s.delivered.lookup c id = some latest →
    (∃ m, s.store.lookup c id = some m ∧ Reads plaintext c m latest) ∨ s.ToWrite c id

theorem DecryptState.Inv.init (hs : ∀ c, s.Coherent c) :
    DecryptState.Inv plaintext { store := s, delivered := s } where
  mirrors c := Mirrors.refl (hs c)
  sound call hcall := by cases hcall
  opened c id hopened := by cases hopened

variable {t : DecryptState}

theorem Mirrors.supersedes_iff (h : ∀ c, Mirrors plaintext c s d) (ev : GatewayEvent) (c id : ID) :
    Supersedes s ev c id ↔ Supersedes d ev c id := by
  have hnone : s.lookup c id = none ↔ d.lookup c id = none := by
    rw [← not_isSome_iff_eq_none, ← not_isSome_iff_eq_none, (h c).isSome id]
  cases ev with
  | messageCreate msg => simp only [Supersedes, hnone]
  | messageUpdate | messageDelete => exact Iff.rfl

theorem DecryptState.Inv.deliver (h : t.Inv plaintext) (ev : GatewayEvent) :
    (t.step plaintext currentUserId (.deliver ev)).Inv plaintext where
  mirrors c := Mirrors.deliver h.mirrors ev c
  sound := h.sound
  opened c id hopened latest' hlatest' := by
    have hkept : t.opened c id = true ∧ ¬ Supersedes t.delivered ev c id := by
      simpa [DecryptState.step] using hopened
    obtain ⟨hold, hev⟩ := hkept
    have hmirrors := h.mirrors c
    obtain ⟨latest, hlatest, hversion⟩ :=
      lookup_deliver_version hmirrors.coherent_d hev hlatest'
    rcases h.opened c id hold latest hlatest with ⟨m, hm, hreads⟩ | htowrite
    · left
      -- the store finds the message after the event, in the version it had before
      have hrel : Rel (Shows plaintext c) ((ev.deliver currentUserId t.store).lookup c id)
        (some latest') := hlatest' ▸ (Mirrors.deliver h.mirrors ev c).found id
      rcases hm' : (ev.deliver currentUserId t.store).lookup c id with _ | m'
      · rw [hm'] at hrel
        cases hrel
      · obtain ⟨m₀, hm₀, hversion₀⟩ := lookup_deliver_version hmirrors.coherent
          (fun hs => hev ((Mirrors.supersedes_iff h.mirrors ev c id).mp hs)) hm'
        rw [hm] at hm₀
        cases hm₀
        exact ⟨m', hm', hreads.congr hversion₀ hversion⟩
    · exact Or.inr htowrite

theorem Call.Sound.started {channelId : ID} {batch : Bool} {msgs : List Message}
    (hsingle : batch = false → msgs.length = 1) :
    Call.Sound plaintext { channelId := channelId, batch, tasks := msgs.map .waiting } where
  single hbatch := by simpa using hsingle hbatch
  decrypt msg r hmem := by simp at hmem
  written hwritten := by cases hwritten

theorem DecryptState.Inv.start (h : t.Inv plaintext) (hcall : call.Sound plaintext) :
    DecryptState.Inv plaintext { t with calls := t.calls ++ [call] } where
  mirrors := h.mirrors
  sound call' hcall' := by
    rcases mem_append.mp hcall' with hold | hnew
    · exact h.sound call' hold
    · rw [mem_singleton] at hnew
      exact hnew ▸ hcall
  opened c id hopened latest hlatest := by
    rcases h.opened c id hopened latest hlatest with hreads | ⟨call', hmem, hrest⟩
    · exact Or.inl hreads
    · exact Or.inr ⟨call', mem_append_left _ hmem, hrest⟩

/-- What the re-read of the store gives: the message with the content decrypted. -/
theorem decryptMessageInPlace_eq_some
    (h : decryptMessageInPlace plaintext s channelId msg ok = some r) :
    ok = true ∧ ∃ parsed stored,
      plaintext channelId msg.keyVersion msg.encryptedContent = some parsed ∧
      s.lookup channelId msg.id = some stored ∧ stored.keyVersion ≠ 0 ∧
      r = decrypted stored parsed := by
  unfold decryptMessageInPlace at h
  split at h
  · cases h
  · next parsed hparsed =>
    split_ifs at h with hok
    split at h
    · cases h
    · next stored hstored =>
      split_ifs at h with hkey
      exact ⟨hok, parsed, stored, hparsed, hstored, hkey, (some.inj h).symm⟩

theorem decryptMessageInPlace_reads (hs : s.Coherent channelId)
    (h : decryptMessageInPlace plaintext s channelId msg ok = some r) :
    r.id = msg.id ∧ Reads plaintext channelId r msg := by
  obtain ⟨-, parsed, stored, hparsed, hstored, -, rfl⟩ := decryptMessageInPlace_eq_some h
  exact ⟨((hs.exact msg.id stored).mp hstored).2, parsed, hparsed, rfl⟩

theorem mem_set_of_ne {α : Type} {l : List α} {a b x : α} (ha : a ∈ l) (hb : l[j]? = some b)
    (hne : a ≠ b) : a ∈ l.set j x := by
  obtain ⟨k, hk⟩ := mem_iff_getElem?.mp ha
  have hjk : j ≠ k := by
    rintro rfl
    exact hne (some.inj (hk.symm.trans hb))
  refine mem_iff_getElem?.mpr ⟨k, ?_⟩
  rw [getElem?_set_ne hjk]
  exact hk

theorem Call.Sound.unwritten (h : call.Sound plaintext)
    (htask : call.tasks[j]? = some (.waiting msg)) : call.written = false := by
  by_contra hwritten
  rw [Bool.not_eq_false] at hwritten
  have hsettled := all_eq_true.mp (h.written hwritten) _ (mem_of_getElem? htask)
  cases hsettled

theorem Call.Sound.settle (h : call.Sound plaintext) (htask : call.tasks[j]? = some (.waiting msg))
    {result : Option Message}
    (hresult : ∀ r, result = some r → r.id = msg.id ∧ Reads plaintext call.channelId r msg) :
    Call.Sound plaintext { call with tasks := call.tasks.set j (.settled msg result) } where
  single hbatch := by
    rw [length_set]
    exact h.single hbatch
  decrypt msg' r hmem := by
    rcases mem_or_eq_of_mem_set hmem with hold | hnew
    · exact h.decrypt msg' r hold
    · cases hnew
      exact hresult r rfl
  written hwritten := by
    rw [h.unwritten htask] at hwritten
    cases hwritten

theorem Call.results_settle {result : Option Message} (htask : call.tasks[j]? = some (.waiting msg))
    (hr : r ∈ call.results ∨ result = some r) :
    r ∈ Call.results { call with tasks := call.tasks.set j (.settled msg result) } := by
  rw [Call.mem_results]
  rcases hr with hr | rfl
  · obtain ⟨msg', hmem⟩ := Call.mem_results.mp hr
    refine ⟨msg', mem_set_of_ne hmem htask ?_⟩
    intro heq
    cases heq
  · obtain ⟨hj, -⟩ := List.getElem?_eq_some_iff.mp htask
    exact ⟨msg, mem_set hj _⟩

theorem DecryptState.ToWrite.settle (hcall : t.calls[i]? = some call)
    (htask : call.tasks[j]? = some (.waiting msg)) {c id : ID} (h : t.ToWrite c id) :
    (settleTask plaintext t i j call msg ok).ToWrite c id := by
  obtain ⟨call₀, hmem, hunwritten, hchannel, r, hr, hid⟩ := h
  by_cases hsame : call₀ = call
  · subst hsame
    obtain ⟨hi, -⟩ := List.getElem?_eq_some_iff.mp hcall
    exact ⟨_, mem_set hi _, hunwritten, hchannel, r, Call.results_settle htask (.inl hr), hid⟩
  · exact ⟨call₀, mem_set_of_ne hmem hcall hsame, hunwritten, hchannel, r, hr, hid⟩

theorem DecryptState.Inv.settle (h : t.Inv plaintext) (hcall : t.calls[i]? = some call)
    (htask : call.tasks[j]? = some (.waiting msg)) (ok : Bool) :
    (settleTask plaintext t i j call msg ok).Inv plaintext where
  mirrors := h.mirrors
  sound call' hcall' := by
    have hold := h.sound call (mem_of_getElem? hcall)
    rcases mem_or_eq_of_mem_set hcall' with hmem | rfl
    · exact h.sound call' hmem
    · refine hold.settle htask ?_
      intro r hr
      exact decryptMessageInPlace_reads (h.mirrors call.channelId).coherent hr
  opened c id hopened latest hlatest := by
    have hcases : t.opened c id = true ∨ (c = call.channelId ∧ id = msg.id) ∧
        opens plaintext t call.channelId msg ok = true := by
      simpa [settleTask] using hopened
    rcases hcases with hold | ⟨⟨rfl, rfl⟩, hopens⟩
    · rcases h.opened c id hold latest hlatest with hreads | htowrite
      · exact Or.inl hreads
      · exact Or.inr (htowrite.settle hcall htask)
    · have hopens' : (ok = true ∧ (plaintext call.channelId msg.keyVersion
          msg.encryptedContent).isSome = true) ∧ msg.keyVersion ≠ 0 ∧
          IsLatest t.delivered call.channelId msg := by
        simpa [opens] using hopens
      obtain ⟨⟨hok, hsome⟩, hkey, hislatest⟩ := hopens'
      have hversion : latest.version = msg.version := hislatest latest hlatest
      have hrel := (h.mirrors call.channelId).found msg.id
      have hlatest₀ : t.delivered.lookup call.channelId msg.id = some latest := hlatest
      rw [hlatest₀] at hrel
      rcases hstored : t.store.lookup call.channelId msg.id with _ | stored
      · rw [hstored] at hrel
        cases hrel
      · rw [hstored] at hrel
        cases hrel with
        | some hshows =>
          by_cases hplain : stored.keyVersion = 0
          · -- another path was first, and it has decrypted the same version
            left
            refine ⟨stored, hstored, ?_⟩
            rcases hshows with hsame | hreads
            · have hzero : msg.keyVersion = 0 := by
                have hkeys := congrArg Prod.snd (hsame.trans hversion)
                exact hkeys.symm.trans hplain
              exact absurd hzero hkey
            · exact hreads
          · right
            obtain ⟨parsed, hparsed⟩ := isSome_iff_exists.mp hsome
            obtain ⟨hi, -⟩ := List.getElem?_eq_some_iff.mp hcall
            have hresult : decryptMessageInPlace plaintext t.store call.channelId msg ok =
                some (decrypted stored parsed) := by
              simp [decryptMessageInPlace, hparsed, hok, hstored, hplain]
            have hid := (((h.mirrors call.channelId).coherent.exact msg.id stored).mp hstored).2
            exact ⟨_, mem_set hi _,
              (h.sound call (mem_of_getElem? hcall)).unwritten htask, rfl, _,
              Call.results_settle htask (Or.inr hresult), hid⟩

theorem Call.results_read (hsound : call.Sound plaintext)
    (hlatest : ∀ task ∈ call.tasks, ∀ msg ∈ task.decrypted, IsLatest d call.channelId msg)
    (hr : r ∈ call.results) (hfound : d.lookup call.channelId r.id = some latest) :
    Reads plaintext call.channelId r latest := by
  obtain ⟨msg, hmem⟩ := Call.mem_results.mp hr
  obtain ⟨hid, hreads⟩ := hsound.decrypt msg r hmem
  rw [hid] at hfound
  exact hreads.congr rfl (hlatest _ hmem msg rfl latest hfound)

theorem DecryptState.Inv.write (h : t.Inv plaintext) (hcall : t.calls[i]? = some call)
    (hsettled : call.tasks.all Task.isSettled = true)
    (hlatest : ∀ task ∈ call.tasks, ∀ msg ∈ task.decrypted,
      IsLatest t.delivered call.channelId msg) :
    DecryptState.Inv plaintext { t with
      store := call.write t.store
      calls := t.calls.set i { call with written := true } } := by
  have hsound := h.sound call (mem_of_getElem? hcall)
  have hsingle : call.batch = false → call.results.length ≤ 1 := by
    intro hbatch
    have hlength : call.results.length ≤ call.tasks.length := length_filterMap_le _ _
    rw [hsound.single hbatch] at hlength
    exact hlength
  obtain ⟨f, hid, hmessages, hlookup, hf, hwritten⟩ :=
    call.write_spec hsingle (h.mirrors call.channelId).coherent
  obtain ⟨hmode, hpending, hother⟩ := call.write_frame t.store
  -- a message that was replaced is the latest version in plain text
  have hreads : ∀ id m latest, t.store.lookup call.channelId id = some m →
      t.delivered.lookup call.channelId id = some latest → f m ∈ call.results →
      Reads plaintext call.channelId (f m) latest := by
    intro id m latest hm hfound hresult
    have hkey := (((h.mirrors call.channelId).coherent.exact id m).mp hm).2
    refine Call.results_read hsound hlatest hresult ?_
    rw [hid m, hkey]
    exact hfound
  constructor
  · intro c
    by_cases hc : c = call.channelId
    · subst hc
      refine (h.mirrors call.channelId).map hid (fun _ => rfl) hmessages hlookup
        (map_id' _).symm (fun _ => map_id'.symm) ⟨by rw [hmode], rfl⟩
        ⟨by rw [hpending], rfl⟩ ?_
      intro id m latest hm hfound hshows
      rcases hf m with hsame | hresult
      · rw [hsame]
        exact hshows
      · exact Or.inr (hreads id m latest hm hfound hresult)
    · exact (h.mirrors c).congr (hother c hc) ⟨rfl, rfl, rfl, rfl⟩
  · intro call' hcall'
    rcases mem_or_eq_of_mem_set hcall' with hmem | rfl
    · exact h.sound call' hmem
    · exact ⟨hsound.single, hsound.decrypt, fun _ => hsettled⟩
  · intro c id hopened latest hfound
    by_cases hc : c = call.channelId
    · subst hc
      rcases h.opened call.channelId id hopened latest hfound with
        ⟨m, hm, hreads₀⟩ | ⟨call₀, hmem, hunwritten, hchannel, r, hr, hrid⟩
      · left
        refine ⟨f m, by simp [hlookup, hm], ?_⟩
        rcases hf m with hsame | hresult
        · rw [hsame]
          exact hreads₀
        · exact hreads id m latest hm hfound hresult
      · by_cases hsame : call₀ = call
        · subst hsame
          left
          have hrel := (h.mirrors call₀.channelId).found id
          have hfound₀ : t.delivered.lookup call₀.channelId id = some latest := hfound
          rw [hfound₀] at hrel
          rcases hm : t.store.lookup call₀.channelId id with _ | m
          · rw [hm] at hrel
            cases hrel
          · have hkey := (((h.mirrors call₀.channelId).coherent.exact id m).mp hm).2
            refine ⟨f m, by simp [hlookup, hm], ?_⟩
            exact hreads id m latest hm hfound (hwritten m r hr (hrid.trans hkey.symm))
        · right
          exact ⟨call₀, mem_set_of_ne hmem hcall hsame, hunwritten, hchannel, r, hr, hrid⟩
    · rcases h.opened c id hopened latest hfound with
        ⟨m, hm, hreads₀⟩ | ⟨call₀, hmem, hunwritten, hchannel, r, hr, hrid⟩
      · left
        refine ⟨m, ?_, hreads₀⟩
        rw [(hother c hc).lookup]
        exact hm
      · right
        refine ⟨call₀, mem_set_of_ne hmem hcall ?_, hunwritten, hchannel, r, hr, hrid⟩
        rintro rfl
        exact hc hchannel.symm

theorem DecryptState.Inv.step (t : DecryptState) (ev : DecryptEvent) (h : t.Inv plaintext)
    (hwrites : t.WritesLatest ev) : (t.step plaintext currentUserId ev).Inv plaintext := by
  cases ev with
  | deliver ev => exact h.deliver ev
  | decryptAndUpdateMessage c msg =>
    have hsound : Call.Sound plaintext
        { channelId := c, batch := false, tasks := [msg].map .waiting } :=
      Call.Sound.started fun _ => rfl
    exact h.start hsound
  | decryptAndUpdateMessages c msgs pubKeys =>
    exact h.start (Call.Sound.started fun hbatch => absurd hbatch (by decide))
  | settle i j ok =>
    simp only [DecryptState.step]
    split
    · exact h
    · next call hcall =>
      split
      · next msg htask => exact h.settle hcall htask ok
      · exact h
  | write i =>
    simp only [DecryptState.step]
    split
    · exact h
    · next call hcall =>
      split
      · next hready => exact h.write hcall hready.1 (hwrites call hcall hready)
      · exact h

/-- Every call has written. -/
def DecryptState.Finished (t : DecryptState) : Prop := ∀ call ∈ t.calls, call.written = true

instance DecryptState.decidableFinished (t : DecryptState) : Decidable t.Finished :=
  inferInstanceAs (Decidable (∀ _ ∈ t.calls, _))

variable (plaintext) in
/-- The store holds nothing if the message was taken away, and else its latest version: in
    plain text if a decryption of that version has succeeded. -/
def DecryptState.HoldsLatest (t : DecryptState) (c id : ID) : Prop :=
  match t.delivered.lookup c id with
  | none => t.store.lookup c id = none
  | some latest => ∃ m, t.store.lookup c id = some m ∧ m.id = id ∧
      if t.opened c id then Reads plaintext c m latest else Shows plaintext c m latest

theorem DecryptState.Inv.holdsLatest (h : t.Inv plaintext) (hdone : t.Finished) (c id : ID) :
    t.HoldsLatest plaintext c id := by
  have hrel := (h.mirrors c).found id
  unfold HoldsLatest
  rcases hlatest : t.delivered.lookup c id with _ | latest
  · rcases hm : t.store.lookup c id with _ | m
    · rfl
    · rw [hm, hlatest] at hrel
      cases hrel
  · rcases hm : t.store.lookup c id with _ | m
    · rw [hm, hlatest] at hrel
      cases hrel
    · rw [hm, hlatest] at hrel
      refine ⟨m, rfl, (((h.mirrors c).coherent.exact id m).mp hm).2, ?_⟩
      split
      · next hopened =>
        rcases h.opened c id hopened latest hlatest with
          ⟨m', hm', hreads⟩ | ⟨call, hcall, hunwritten, -⟩
        · rw [hm] at hm'
          cases hm'
          exact hreads
        · rw [hdone call hcall] at hunwritten
          cases hunwritten
      · cases hrel with
        | some hshows => exact hshows

end Calls

/-- In a run in which every call writes latest versions only, once all calls have finished
    the store holds the latest version of every message. -/
theorem latest_held (plaintext : ID → Nat → List UInt8 → Option ParsedMessageContent)
    (currentUserId : ID) {s : MessageState} (hs : ∀ c, s.Coherent c) {evs : List DecryptEvent}
    (hguard : Guarded (DecryptState.step plaintext currentUserId) DecryptState.WritesLatest
      { store := s, delivered := s } evs)
    (hdone : (exec (DecryptState.step plaintext currentUserId)
      { store := s, delivered := s } evs).Finished) (c id : ID) :
    (exec (DecryptState.step plaintext currentUserId)
      { store := s, delivered := s } evs).HoldsLatest plaintext c id := by
  have hinv := exec_invariant (fun t ev h hev => DecryptState.Inv.step t ev h hev)
    (DecryptState.Inv.init hs) hguard
  exact hinv.holdsLatest hdone c id

/-- A message and its edit, and their plain texts. -/
def firstVersion : Message :=
  { id := "01", channelId := "general", authorId := "ann", encryptedContent := [1], keyVersion := 1 }

def secondVersion : Message := { firstVersion with encryptedContent := [2] }

def plaintexts (_ : ID) (_ : Nat) (data : List UInt8) : Option ParsedMessageContent :=
  some { text := if data = [1] then "hi" else "hello" }

/-- The edit arrives after the first version was decrypted. -/
def editLater : List DecryptEvent :=
  [.deliver (.messageCreate firstVersion), .decryptAndUpdateMessage "general" firstVersion,
    .settle 0 0 true, .write 0, .deliver (.messageUpdate secondVersion),
    .decryptAndUpdateMessages "general" [secondVersion] ["ann"], .settle 1 0 true, .write 1]

theorem latest_held_editLater :
    (exec (DecryptState.step plaintexts "bob")
      { store := {}, delivered := {} } editLater).HoldsLatest plaintexts "general" "01" :=
  latest_held plaintexts "bob" (fun c => (indexed_init c).coherent)
    (by decide +kernel) (by decide +kernel) "general" "01"

/-- The edit arrives while the first version is being decrypted. -/
def editMeanwhile : List DecryptEvent :=
  [.deliver (.messageCreate firstVersion), .decryptAndUpdateMessage "general" firstVersion,
    .deliver (.messageUpdate secondVersion), .decryptAndUpdateMessage "general" secondVersion,
    .settle 0 0 true, .write 0, .settle 1 0 true, .write 1]

/-- The first version is decrypted over the edit, and the edit finds nothing to decrypt. -/
theorem not_latest_held_editMeanwhile :
    ¬ ∀ (plaintext : ID → Nat → List UInt8 → Option ParsedMessageContent) (currentUserId : ID)
      (s : MessageState), (∀ c, s.Coherent c) → ∀ evs : List DecryptEvent,
      (exec (DecryptState.step plaintext currentUserId)
        { store := s, delivered := s } evs).Finished → ∀ c id,
      (exec (DecryptState.step plaintext currentUserId)
        { store := s, delivered := s } evs).HoldsLatest plaintext c id := by
  intro h
  have hheld := h plaintexts "bob" {} (fun c => (indexed_init c).coherent)
    editMeanwhile (by decide +kernel) "general" "01"
  unfold DecryptState.HoldsLatest at hheld
  obtain ⟨m, hm, -, parsed, hparsed, htext⟩ := hheld
  cases hm
  cases hparsed
  exact absurd htext (by decide +kernel)

end Meza.Client
