import Meza.Crypto.ContextBinding
import Meza.Crypto.MessageContent
import Meza.Rpc

/-! # A message as its reader sees it

    A client decrypts a message once. It takes the content apart, names the
    attachments, and puts the plain text into the field in which the content
    arrived. Whoever shows or indexes the message reads that field with the
    parser for content again, which tells content from plain text by its first
    byte.

    So a text is read back if it survives being taken for content, and a name
    if it is not empty. -/

namespace Meza.Client.MessageText

open Aead (Bytes)
open Crypto Utf16 List
open Crypto.MessageContent
open Json (Value property)
open Store (ID)
open Utf16 (Text)

/-! ## Section 1: Decrypting into the store -/

/-- File names and types come out of JSON unchecked. -/
structure Attachment where
  id : Text
  filename : Value
  contentType : Value

/-- A key version of 0 means that the content is plain text. -/
structure Message where
  id : ID
  authorId : ID
  encryptedContent : Bytes := []
  keyVersion : Nat := 0
  attachments : List Attachment := []
  /-- in seconds -/
  createdAt : Option Int := none
  mentionedUserIds : List ID := []
  mentionEveryone : Bool := false

/-- What rounds to zero is at most half of the least positive number, `2 ^ -1074`. -/
def isZero (n : Json.Number) : Bool :=
  n.digits = 0 || (n.exponent < 0 && n.digits * 2 ^ 1075 ≤ 10 ^ n.exponent.natAbs)

def truthy : Value → Bool
  | .null => false
  | .bool b => b
  | .num n => !isZero n
  | .str t => t ≠ []
  | .arr _ => true
  | .obj _ => true

/-- `v[name]`, where it is no property of a prototype. -/
def member (v : Value) (name : Text) : Option Value :=
  match v with
  | .obj members => property members name
  | .arr items => (arrayIndex name).bind fun i => items[i]?
  | _ => none

/-- `found || fallback`. -/
def orElse (found : Option Value) (fallback : Value) : Value :=
  match found with
  | some v => if truthy v then v else fallback
  | none => fallback

def enrichAttachment (attachmentMeta : Value) (att : Attachment) : Attachment :=
  match member attachmentMeta att.id with
  | none => att
  | some found =>
    if truthy found then
      { att with
        filename := orElse (member found (text "fn")) att.filename
        contentType := orElse (member found (text "ct")) att.contentType }
    else att

/-- Enrich attachments with metadata from the encrypted JSON payload. -/
def enrichAttachments (attachmentMeta : Option Value) (attachments : List Attachment) :
    List Attachment :=
  match attachmentMeta with
  | none => attachments
  | some found =>
    if truthy found && 0 < attachments.length then attachments.map (enrichAttachment found)
    else attachments

inductive Failure where
  | decryption (message : String)
  | content (e : ParseError)
  deriving DecidableEq, Repr

section Decryption

-- the conversion to a string of what is none
variable (toText : Value → Except ParseError Text)

/-- `new TextEncoder().encode(text)`. -/
def encodeText : Option Value → Except ParseError Bytes
  | none => .ok []
  | some (.str t) => .ok (Utf8.encode (toScalars t))
  | some v => (toText v).map fun t => Utf8.encode (toScalars t)

/-- `stored` is the message as the store has it after the decryption. -/
def decryptMessageInPlace (S : Suite) (server : EnvelopeServer) (channelId : ID) (msg : Message)
    (senderPublicKey : Bytes) (r : CryptoState) (stored : Option Message) :
    Except Failure (Option Message) := do
  let plaintext ← (Action.result (decryptMessage S server channelId msg.keyVersion
    msg.encryptedContent senderPublicKey) r).mapError .decryption
  let parsed ← (parseMessageContent plaintext).mapError .content
  match stored with
  | none => return none
  | some stored =>
    if stored.keyVersion = 0 then return none
    else
      let textBytes ← (encodeText toText parsed.text).mapError .content
      return some { stored with
        encryptedContent := textBytes
        keyVersion := 0
        attachments := enrichAttachments parsed.attachmentMeta stored.attachments }

end Decryption

/-! ## Section 2: The search index -/

structure IndexableMessage where
  id : ID
  channelId : ID
  authorId : ID
  content : Value
  /-- in milliseconds -/
  createdAt : Int
  hasAttachment : Bool
  hasMention : Bool

def toIndexable (now : Int) (channelId : ID) (msg : Message) :
    Except ParseError (Option IndexableMessage) :=
  if msg.encryptedContent = [] then .ok none
  else if 0 < msg.keyVersion then .ok none
  else do
    let parsed ← parseMessageContent msg.encryptedContent
    match parsed.text with
    | none => return none
    | some content =>
      if truthy content then
        return some {
          id := msg.id
          channelId
          authorId := msg.authorId
          content
          createdAt := msg.createdAt.elim now (· * 1000)
          hasAttachment := 0 < msg.attachments.length
          hasMention := 0 < msg.mentionedUserIds.length || msg.mentionEveryone }
      else return none

/-! ## Section 3: Reading what was typed -/

/-- The index has the text; where there is nothing to index, the text is empty. -/
def IndexedAs (now : Int) (channelId : ID) (msg : Message) (t : Text) : Prop :=
  ∃ found, toIndexable now channelId msg = .ok found ∧
    (found.map (·.content)).getD (.str []) = .str t

/-- With the name and the type the sender gave. -/
def asGiven (attachments : AttachmentMap) (att : Attachment) : Attachment :=
  match attachments.lookup att.id with
  | none => att
  | some info => { att with filename := .str info.filename, contentType := .str info.contentType }

/-- `shown` is what decryption has made of `stored`. -/
structure ReadAsTyped (now : Int) (channelId : ID) (typed : List Char) (attachments : AttachmentMap)
    (stored shown : Message) : Prop where
  rendered : safeParseMessageText shown.encryptedContent = some (.str (encode typed))
  indexed : IndexedAs now channelId shown (encode typed)
  attachments : shown.attachments = stored.attachments.map (asGiven attachments)

/-- A name or a type that the sender gave as the empty string was empty before. -/
def Named (attachments : AttachmentMap) (att : Attachment) : Prop :=
  ∀ info ∈ attachments.lookup att.id,
    (info.filename = [] → att.filename = .str []) ∧
    (info.contentType = [] → att.contentType = .str [])

/-- The text starts neither with the version byte of content nor with a byte order mark. -/
structure Ordinary (typed : List Char) (attachments : AttachmentMap) (stored : Message) : Prop where
  version : typed.head? ≠ some '\x01'
  mark : typed.head? ≠ some Utf8.bom
  attachments : ∀ att ∈ stored.attachments, Named attachments att

/-! ## Section 4: What is put into the store -/

theorem decryptMessage_content {S : Suite} (hS : S.IdealSignatures)
    {server server' : EnvelopeServer} {draw : Draw} {channelId channelId' : ID} {version : Nat}
    {content plaintext sender : Bytes} {m : EncryptedMessage} {identity : IdentityKeypair}
    {s s' r : CryptoState} (hidentity : s.identity = some identity) (hkeypair : S.IsKeypair identity)
    (hencrypt : encryptMessage S server draw channelId content s = .ok m s') (hlater : Later s' r)
    (h : Action.result (decryptMessage S server' channelId' version m.data sender) r =
      .ok plaintext) :
    plaintext = content := by
  obtain ⟨identity', key, aad, hidentity', -, -, hdata, hsealed⟩ := encryptMessage_ok hencrypt
  rw [hidentity] at hidentity'
  cases hidentity'
  obtain ⟨aesKey, -, -, hmem⟩ := hsealed.mem hlater
  obtain ⟨r', hrun⟩ := Action.result_ok.mp h
  obtain ⟨aesKey', aad', payload, -, hopen, -, rfl⟩ := decryptMessage_ok hrun
  rw [hdata] at hopen
  obtain ⟨-, -, -, rfl⟩ := hlater.ideal.eq_of_decrypt hmem hopen
  exact drop_left' (hS.length content identity.secretKey hkeypair.secretLength)

/-- The stored message with its text and its attachments. -/
def opened (typed : List Char) (attachments : AttachmentMap) (stored : Message) : Message :=
  { stored with
    encryptedContent := Utf8.encode typed
    keyVersion := 0
    attachments := enrichAttachments (builtMeta attachments) stored.attachments }

theorem mapError_eq_ok {ε ε' α : Type} {f : ε → ε'} {x : Except ε α} {a : α} :
    x.mapError f = .ok a ↔ x = .ok a := by
  cases x with
  | error | ok => simp [Except.mapError]

section Built

variable {S : Suite} {server : EnvelopeServer} {channelId : ID} {stored shown : Message}
  {sender : Bytes} {r : CryptoState} {toText : Value → Except ParseError Text} {typed : List Char}

theorem decryptMessageInPlace_of (hproto : text "__proto__" ∉ attachments)
    (hcontent : Action.result (decryptMessage S server channelId msg.keyVersion
      msg.encryptedContent sender) r = .ok (buildMessageContent (encode typed) attachments))
    (hencrypted : stored.keyVersion ≠ 0) :
    decryptMessageInPlace toText S server channelId msg sender r (some stored) =
      .ok (some (opened typed attachments stored)) := by
  have hbytes : encodeText toText (some (.str (encode typed))) = .ok (Utf8.encode typed) := by
    rw [encodeText, toScalars_encode]
  refine bind_eq_ok.mpr ⟨_, mapError_eq_ok.mpr hcontent, ?_⟩
  refine bind_eq_ok.mpr ⟨_, mapError_eq_ok.mpr (parse_build _ hproto), ?_⟩
  dsimp only
  rw [if_neg hencrypted]
  exact bind_eq_ok.mpr ⟨_, mapError_eq_ok.mpr hbytes, rfl⟩

theorem decryptMessageInPlace_built (hproto : text "__proto__" ∉ attachments)
    (hcontent : ∀ plaintext, Action.result (decryptMessage S server channelId msg.keyVersion
      msg.encryptedContent sender) r = .ok plaintext →
        plaintext = buildMessageContent (encode typed) attachments)
    (h : decryptMessageInPlace toText S server channelId msg sender r (some stored) =
      .ok (some shown)) :
    shown = opened typed attachments stored := by
  obtain ⟨plaintext, hdecrypt, hparsing⟩ := bind_eq_ok.mp h
  have hopened := mapError_eq_ok.mp hdecrypt
  cases hcontent plaintext hopened
  by_cases hplain : stored.keyVersion = 0
  · obtain ⟨parsed, -, hwriting⟩ := bind_eq_ok.mp hparsing
    dsimp only at hwriting
    rw [if_pos hplain] at hwriting
    cases hwriting
  · rw [decryptMessageInPlace_of hproto hopened hplain] at h
    cases h
    rfl

end Built

/-! ## Section 5: Names and types -/

theorem orElse_str (t : Text) (fallback : Value) :
    orElse (some (.str t)) fallback = if t = [] then fallback else .str t := by
  cases t with
  | nil => rfl
  | cons u us => rfl

theorem enrichAttachments_eq_map {found : Value} (h : truthy found = true)
    (attachments : List Attachment) :
    enrichAttachments (some found) attachments = attachments.map (enrichAttachment found) := by
  unfold enrichAttachments
  dsimp only
  rw [h, Bool.true_and]
  cases attachments with
  | nil => rfl
  | cons att atts => rfl

/-- What the metadata of a sender makes of an attachment. -/
def enriched (attachments : AttachmentMap) (att : Attachment) : Attachment :=
  match attachments.lookup att.id with
  | none => att
  | some info =>
    { att with
      filename := if info.filename = [] then att.filename else .str info.filename
      contentType := if info.contentType = [] then att.contentType else .str info.contentType }

variable {attachments : AttachmentMap} {msg : Message}

theorem enrichAttachments_built (hproto : text "__proto__" ∉ attachments) (atts : List Attachment) :
    enrichAttachments (builtMeta attachments) atts = atts.map (enriched attachments) := by
  unfold builtMeta
  split
  · rename_i hentries
    have hid : ∀ att, enriched attachments att = att := by
      intro att
      have hnone : attachments.lookup att.id = none := by
        rw [AList.lookup_eq_none, AList.mem_keys, AList.keys, hentries]
        exact not_mem_nil
      rw [enriched, hnone]
    rw [map_congr_left fun att _ => hid att, map_id']
    rfl
  · rw [enrichAttachments_eq_map rfl]
    refine map_congr_left ?_
    intro att _
    unfold enrichAttachment enriched
    rw [member, property_builtMeta hproto]
    cases attachments.lookup att.id with
    | none => rfl
    | some info =>
      obtain ⟨members, hvalue, -, hfn, hct⟩ := property_value (attachmentMeta info)
      rw [Option.map_some, hvalue]
      have htruthy : truthy (.obj members) = true := rfl
      dsimp only
      rw [if_pos htruthy, member, member, hfn, hct, orElse_str, orElse_str]
      rfl

theorem enriched_eq_iff (attachments : AttachmentMap) (att : Attachment) :
    enriched attachments att = asGiven attachments att ↔ Named attachments att := by
  have hfield (t : Text) (v : Value) : (if t = [] then v else .str t) = .str t ↔
      (t = [] → v = .str []) := by
    by_cases ht : t = []
    · subst ht
      simp
    · simp [ht]
  unfold enriched asGiven Named
  cases attachments.lookup att.id with
  | none => simp
  | some info =>
    simp only [Option.mem_some_iff, forall_eq', Attachment.mk.injEq, true_and]
    rw [hfield, hfield]

/-! ## Section 6: The text -/

variable {now : Int} {channelId : ID} {typed : List Char} {shown : Message}

theorem encode_ne_version {c : Char} (hc : c ≠ '\x01') (cs : List Char) :
    ∃ b bs, Utf8.encode (c :: cs) = b :: bs ∧ b ≠ formatV1 := by
  obtain ⟨b, bs, hbytes, hsmall, hlarge⟩ := Utf8.encodeChar_head c
  refine ⟨b, bs ++ Utf8.encode cs, ?_, ?_⟩
  · rw [Utf8.encode, flatMap_cons, hbytes]
    rfl
  · rintro rfl
    have hone : formatV1.toNat = 1 := rfl
    have hnat : c.toNat = 1 := by omega
    exact hc (Char.toNat_inj.mp hnat)

/-- Plain text without the version byte in front is taken for plain text. -/
theorem parse_typed (hversion : typed.head? ≠ some '\x01') :
    parseMessageContent (Utf8.encode typed) =
      .ok { text := some (decodeText (Utf8.encode typed)) } := by
  cases typed with
  | nil => rfl
  | cons c cs =>
    have hc : c ≠ '\x01' := by
      rintro rfl
      exact hversion rfl
    obtain ⟨b, bs, hbytes, hb⟩ := encode_ne_version hc cs
    rw [hbytes]
    exact parse_legacy hb bs

theorem decodeText_typed (hmark : typed.head? ≠ some Utf8.bom) :
    decodeText (Utf8.encode typed) = .str (encode typed) := by
  rw [decodeText, Utf8.decodeText_encode, if_neg hmark]

/-- The byte order mark is lost. -/
theorem decodeText_bom (cs : List Char) :
    decodeText (Utf8.encode (Utf8.bom :: cs)) ≠ .str (encode (Utf8.bom :: cs)) := by
  rw [decodeText, Utf8.decodeText_encode, head?_cons, if_pos rfl]
  intro heq
  have hlength := congrArg length (Value.str.inj heq)
  rw [length_encode_cons, tail_cons] at hlength
  have hpos := encodeChar_length_pos Utf8.bom
  omega

theorem toIndexable_error (hne : msg.encryptedContent ≠ []) (hkey : msg.keyVersion = 0)
    {e : ParseError} (h : parseMessageContent msg.encryptedContent = .error e) :
    toIndexable now channelId msg = .error e := by
  unfold toIndexable
  rw [if_neg hne, if_neg (by omega), h]
  rfl

theorem toIndexable_ok (hne : msg.encryptedContent ≠ []) (hkey : msg.keyVersion = 0)
    {parsed : MessageContent.ParsedMessageContent} (h : parseMessageContent msg.encryptedContent = .ok parsed) :
    ∃ found, toIndexable now channelId msg = .ok found ∧
      found.map (·.content) = parsed.text.filter truthy := by
  obtain ⟨content, found⟩ := parsed
  unfold toIndexable
  rw [if_neg hne, if_neg (by omega), h]
  cases content with
  | none => exact ⟨none, rfl, rfl⟩
  | some content =>
    by_cases htruthy : truthy content = true
    · exact ⟨_, if_pos htruthy, (Option.filter_some_pos htruthy).symm⟩
    · exact ⟨none, if_neg htruthy, (Option.filter_some_eq_none.mpr htruthy).symm⟩

theorem indexedAs_iff (hne : msg.encryptedContent ≠ []) (hkey : msg.keyVersion = 0) {t : Text} :
    IndexedAs now channelId msg t ↔
      ∃ parsed, parseMessageContent msg.encryptedContent = .ok parsed ∧
        (parsed.text.filter truthy).getD (.str []) = .str t := by
  unfold IndexedAs
  cases hparse : parseMessageContent msg.encryptedContent with
  | error e =>
    rw [toIndexable_error hne hkey hparse]
    constructor
    · rintro ⟨found, hfound, -⟩
      cases hfound
    · rintro ⟨parsed, hparsed, -⟩
      cases hparsed
  | ok parsed =>
    obtain ⟨found, hindexable, hcontent⟩ := toIndexable_ok hne hkey hparse
    rw [hindexable]
    constructor
    · rintro ⟨found', hfound, htext⟩
      cases hfound
      rw [hcontent] at htext
      exact ⟨parsed, rfl, htext⟩
    · rintro ⟨parsed', hparsed, htext⟩
      cases hparsed
      rw [← hcontent] at htext
      exact ⟨found, rfl, htext⟩

/-- Plain text with the version byte in front is taken for content. What it then holds
    is shorter than the text. -/
theorem not_indexedAs_version {cs : List Char}
    (hcontent : shown.encryptedContent = Utf8.encode ('\x01' :: cs)) (hkey : shown.keyVersion = 0) :
    ¬ IndexedAs now channelId shown (encode ('\x01' :: cs)) := by
  have hbytes : Utf8.encode ('\x01' :: cs) = formatV1 :: Utf8.encode cs := rfl
  have hlength := length_encode_cons '\x01' cs
  have hpos := encodeChar_length_pos '\x01'
  have hempty : Value.str [] ≠ .str (encode ('\x01' :: cs)) := by
    intro heq
    rw [← Value.str.inj heq, length_nil] at hlength
    omega
  rw [indexedAs_iff (by rw [hcontent]; exact cons_ne_nil _ _) hkey, hcontent, hbytes]
  rintro ⟨parsed, hparsed, htext⟩
  cases hparse : Json.parse (Utf8.decodeText (Utf8.encode cs)) with
  | none =>
    rw [parse_syntaxError hparse] at hparsed
    cases hparsed
  | some json =>
    by_cases hnull : json = .null
    · subst hnull
      rw [parse_null hparse] at hparsed
      cases hparsed
    · by_cases hobj : ∃ members, json = .obj members
      · obtain ⟨members, rfl⟩ := hobj
        rw [parse_object hparse] at hparsed
        cases hparsed
        cases hfilter : (property members (text "t")).filter truthy with
        | none =>
          rw [hfilter] at htext
          exact hempty htext
        | some v =>
          rw [hfilter] at htext
          cases htext
          have hproperty := (Option.filter_eq_some_iff.mp hfilter).1
          have hless := Json.property_length hparse hproperty
          have hmono : (encode (Utf8.decodeText (Utf8.encode cs))).length ≤ (encode cs).length := by
            refine length_encode_mono ?_
            rw [Utf8.decodeText_encode]
            split
            · exact tail_suffix cs
            · exact suffix_refl cs
          omega
      · rw [parse_other hparse hnull fun members heq => hobj ⟨members, heq⟩] at hparsed
        cases hparsed
        exact hempty htext

theorem rendered_iff (hversion : typed.head? ≠ some '\x01') :
    safeParseMessageText (Utf8.encode typed) = some (.str (encode typed)) ↔
      typed.head? ≠ some Utf8.bom := by
  rw [safeParse_of_ok (parse_typed hversion), Option.some.injEq]
  constructor
  · intro h hmark
    obtain ⟨cs, rfl⟩ := head?_eq_some_iff.mp hmark
    exact decodeText_bom cs h
  · exact decodeText_typed

theorem indexedAs_typed (hversion : typed.head? ≠ some '\x01')
    (hmark : typed.head? ≠ some Utf8.bom) (hcontent : shown.encryptedContent = Utf8.encode typed)
    (hkey : shown.keyVersion = 0) : IndexedAs now channelId shown (encode typed) := by
  by_cases hempty : shown.encryptedContent = []
  · refine ⟨none, if_pos hempty, ?_⟩
    have htyped : typed = [] := by
      rw [← Utf8.decode_encode typed, ← hcontent, hempty]
      rfl
    rw [htyped]
    rfl
  · rw [indexedAs_iff hempty hkey, hcontent]
    refine ⟨_, parse_typed hversion, ?_⟩
    rw [decodeText_typed hmark]
    cases encode typed with
    | nil => rfl
    | cons u us => rfl

/-! ## Section 7: The message as a whole -/

theorem readAsTyped_opened_iff (hproto : text "__proto__" ∉ attachments) (stored : Message) :
    ReadAsTyped now channelId typed attachments stored (opened typed attachments stored) ↔
      Ordinary typed attachments stored := by
  have hattachments : (opened typed attachments stored).attachments =
      stored.attachments.map (asGiven attachments) ↔
        ∀ att ∈ stored.attachments, Named attachments att := by
    show enrichAttachments (builtMeta attachments) stored.attachments = _ ↔ _
    rw [enrichAttachments_built hproto, map_inj_left]
    exact forall₂_congr fun att _ => enriched_eq_iff attachments att
  constructor
  · intro h
    have hversion : typed.head? ≠ some '\x01' := by
      intro hhead
      obtain ⟨cs, rfl⟩ := head?_eq_some_iff.mp hhead
      exact not_indexedAs_version rfl rfl h.indexed
    exact {
      version := hversion
      mark := (rendered_iff hversion).mp h.rendered
      attachments := hattachments.mp h.attachments }
  · intro h
    exact {
      rendered := (rendered_iff h.version).mpr h.mark
      indexed := indexedAs_typed h.version h.mark rfl rfl
      attachments := hattachments.mpr h.attachments }

/-- A message that was built and encrypted, and decrypted into the store, is read as it was
    typed if it is an ordinary one. -/
theorem readAsTyped_iff {S : Suite} (hS : S.IdealSignatures) {server server' : EnvelopeServer}
    {draw : Draw} {typed : List Char} {attachments : AttachmentMap}
    (hproto : text "__proto__" ∉ attachments) {identity : IdentityKeypair} {m : EncryptedMessage}
    {s s' r : CryptoState} (hidentity : s.identity = some identity) (hkeypair : S.IsKeypair identity)
    (hencrypt : encryptMessage S server draw channelId
      (buildMessageContent (encode typed) attachments) s = .ok m s')
    (hlater : Later s' r) {msg stored shown : Message} (hdata : msg.encryptedContent = m.data)
    {sender : Bytes} {toText : Value → Except ParseError Text}
    (hshown : decryptMessageInPlace toText S server' channelId msg sender r (some stored) =
      .ok (some shown)) :
    ReadAsTyped now channelId typed attachments stored shown ↔
      Ordinary typed attachments stored := by
  have hcontent : ∀ plaintext, Action.result (decryptMessage S server' channelId msg.keyVersion
      msg.encryptedContent sender) r = .ok plaintext →
        plaintext = buildMessageContent (encode typed) attachments := by
    intro plaintext hdecrypt
    rw [hdata] at hdecrypt
    exact decryptMessage_content hS hidentity hkeypair hencrypt hlater hdecrypt
  rw [decryptMessageInPlace_built hproto hcontent hshown]
  exact readAsTyped_opened_iff hproto stored

/-! A message that Ann sends, and a client that has the channel's key. -/

def annsDraw (content : Bytes) : Draw where
  nonce := replicate 12 5
  ciphertext := replicate (content.length + 80) 5
  nonceLength := shortDraw.nonceLength

def annsMessage (content : Bytes) : EncryptedMessage :=
  ⟨1, (annsDraw content).nonce ++ (annsDraw content).ciphertext⟩

/-- Ann's client afterwards. -/
def annsClientAfter (content : Bytes) : CryptoState :=
  Action.after (encryptMessage plainSuite noEnvelopes (annsDraw content) generalID content)
    annsClient

def bobsClient (content : Bytes) : CryptoState where
  channelKeyCache := fun _ => .singleton 1 (keyOf 1)
  sealed := (annsClientAfter content).sealed

/-- The message as it came from the server. -/
def arrived (content : Bytes) (attachments : List Attachment) : Message where
  id := "01"
  authorId := "ann"
  encryptedContent := (annsMessage content).data
  keyVersion := 1
  attachments

theorem encrypt_annsMessage (content : Bytes) :
    encryptMessage plainSuite noEnvelopes (annsDraw content) generalID content annsClient =
      .ok (annsMessage content) (annsClientAfter content) := rfl

theorem later_bobsClient (content : Bytes) :
    Later (annsClientAfter content) (bobsClient content) where
  record := Subset.refl _
  ideal := by
    obtain ⟨identity, key, aad, hidentity, -, -, -, aesKey, -, -, hsealed⟩ :=
      encryptMessage_ok (encrypt_annsMessage content)
    cases hidentity
    have hsign := plainSuite_idealSignatures.length content annsKeys.secretKey rfl
    constructor
    · intro e he
      cases mem_singleton.mp he
      simp only [annsDraw, length_replicate, length_append, hsign, Aead.tagLength]
      omega
    · exact pairwise_singleton _ _

/-- Bob's client puts her message into its store. -/
theorem decryptMessageInPlace_arrived {typed : List Char} (hproto : text "__proto__" ∉ attachments)
    (atts : List Attachment) (toText : Value → Except ParseError Text) {content : Bytes}
    (hcontent : content = buildMessageContent (encode typed) attachments) :
    decryptMessageInPlace toText plainSuite noEnvelopes generalID (arrived content atts)
      annsKeys.publicKey (bobsClient content) (some (arrived content atts)) =
        .ok (some (opened typed attachments (arrived content atts))) := by
  have hbound := messagesBound plainSuite_idealSignatures noEnvelopes (annsDraw content) generalID
    content (annsMessage content) annsKeys annsClient _ (bobsClient content) rfl ⟨rfl, rfl⟩
    (encrypt_annsMessage content) (later_bobsClient content)
  have hread := hbound.1 noEnvelopes ⟨keyOf 1, rfl, rfl, distinguishes_empty _,
    distinguishes_empty _⟩
  refine decryptMessageInPlace_of hproto ?_ Nat.one_ne_zero
  rw [← hcontent]
  exact hread

/-- A photo that has no name yet. -/
def photo : Attachment := ⟨text "p1", .str [], .str []⟩

def photoInfo : AttachmentMap :=
  .singleton (text "p1") ⟨[1], text "a.png", text "image/png"⟩

/-- What Ann typed, with a photo. -/
def annsContent (typed : String) : Bytes := buildMessageContent (text typed) photoInfo

theorem photo_named : ∀ att ∈ [photo], Named photoInfo att := by
  intro att hatt info _
  cases mem_singleton.mp hatt
  exact ⟨fun _ => rfl, fun _ => rfl⟩

theorem proto_photoInfo : text "__proto__" ∉ photoInfo := by
  rw [← AList.lookup_eq_none]
  rfl

/-- Ann types "hi". -/
theorem readAsTyped_hi :
    ReadAsTyped 0 generalID "hi".toList photoInfo (arrived (annsContent "hi") [photo])
      (opened "hi".toList photoInfo (arrived (annsContent "hi") [photo])) := by
  refine (readAsTyped_iff plainSuite_idealSignatures proto_photoInfo rfl ⟨rfl, rfl⟩
    (encrypt_annsMessage (annsContent "hi")) (later_bobsClient _) rfl
    (decryptMessageInPlace_arrived proto_photoInfo [photo] (fun _ => .error .typeError) rfl)).mpr ?_
  exact {
    version := by decide
    mark := by decide
    attachments := photo_named }

/-- She types "hi" after a control character: it is shown, and not indexed. -/
theorem readAsTyped_fails_control :
    encryptMessage plainSuite noEnvelopes (annsDraw (annsContent "\x01hi")) generalID
      (annsContent "\x01hi") annsClient =
        .ok (annsMessage (annsContent "\x01hi")) (annsClientAfter (annsContent "\x01hi")) ∧
    decryptMessageInPlace (fun _ => .error .typeError) plainSuite noEnvelopes generalID
      (arrived (annsContent "\x01hi") [photo]) annsKeys.publicKey (bobsClient (annsContent "\x01hi"))
      (some (arrived (annsContent "\x01hi") [photo])) =
        .ok (some (opened "\x01hi".toList photoInfo (arrived (annsContent "\x01hi") [photo]))) ∧
    toIndexable 0 generalID (opened "\x01hi".toList photoInfo
      (arrived (annsContent "\x01hi") [photo])) = .error .syntaxError ∧
    ¬ ReadAsTyped 0 generalID "\x01hi".toList photoInfo (arrived (annsContent "\x01hi") [photo])
      (opened "\x01hi".toList photoInfo (arrived (annsContent "\x01hi") [photo])) := by
  have hthrows : toIndexable 0 generalID (opened "\x01hi".toList photoInfo
      (arrived (annsContent "\x01hi") [photo])) = .error .syntaxError := rfl
  refine ⟨encrypt_annsMessage _, decryptMessageInPlace_arrived proto_photoInfo [photo] _ rfl,
    hthrows, ?_⟩
  intro h
  obtain ⟨found, hfound, -⟩ := h.indexed
  cases hfound

end Meza.Client.MessageText
