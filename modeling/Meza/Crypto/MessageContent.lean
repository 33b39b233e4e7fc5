import Mathlib.Data.List.AList
import Meza.Lib.Json

/-! # The content of a message

    `messages.ts` puts the text of a message, and what is known of its
    attachments, into a JSON object with a version byte in front. Content
    without that byte is read as plain text.

    The reader takes the JSON for what a sender would have written. JSON of
    any other shape, which another member is free to send, becomes a text that
    is no string and metadata that is none. -/

namespace Meza.Crypto.MessageContent
open List Json

open Utf16 (Text)
open Json (Value property)

/-! ## Section 1: Building -/

def text (s : String) : Text := Utf16.encode s.toList

/-- What the sender says about one attachment. -/
structure AttachmentInput where
  microThumb : List UInt8
  filename : Text
  contentType : Text
  deriving DecidableEq, Repr

/-- A `Map` by attachment id. -/
abbrev AttachmentMap := AList (fun _ : Text => AttachmentInput)

/-- `AttachmentMeta`. -/
structure AttachmentMeta where
  mt : Text
  fn : Text
  ct : Text
  deriving DecidableEq, Repr

def base64Char (n : Nat) : Char :=
  if n < 26 then .ofNat (65 + n)
  else if n < 52 then .ofNat (71 + n)
  else if n < 62 then .ofNat (n - 4)
  else if n = 62 then '+' else '/'

def uint8ToBase64 : List UInt8 → List Char
  | [] => []
  | [a] =>
    let n := a.toNat * 16
    [base64Char (n / 64), base64Char (n % 64), '=', '=']
  | [a, b] =>
    let n := (a.toNat * 256 + b.toNat) * 4
    [base64Char (n / 4096), base64Char (n / 64 % 64), base64Char (n % 64), '=']
  | a :: b :: c :: bytes =>
    let n := (a.toNat * 256 + b.toNat) * 256 + c.toNat
    base64Char (n / 262144) :: base64Char (n / 4096 % 64) :: base64Char (n / 64 % 64) ::
      base64Char (n % 64) :: uint8ToBase64 bytes

def attachmentMeta (info : AttachmentInput) : AttachmentMeta where
  mt := Utf16.encode (uint8ToBase64 info.microThumb)
  fn := info.filename
  ct := info.contentType

/-- The members of an object literal of strings, each with its text and its value. -/
def stringMember (name value : Text) : Text × List Char × Value :=
  (name, printString value, .str value)

def AttachmentMeta.members (m : AttachmentMeta) : List (Text × List Char × Value) :=
  [stringMember (text "mt") m.mt, stringMember (text "fn") m.fn, stringMember (text "ct") m.ct]

/-- A member whose value is an object of other members. -/
def objectMember (name : Text) (members : List (Text × List Char × Value)) :
    Text × List Char × Value :=
  (name, printObject (members.map fun m => (m.1, m.2.1)), .obj (members.map fun m => (m.1, m.2.2)))

/-- A canonical number below `2 ^ 32 - 1`. -/
def arrayIndex (name : Text) : Option Nat :=
  let digits := name.map (·.toNat)
  let value := digits.foldl (fun n d => 10 * n + (d - 48)) 0
  if digits.isEmpty || (digits.head? = some 48 && digits.length ≠ 1) then none
  else if digits.all (fun d => 48 ≤ d && d ≤ 57) && value < 4294967295 then some value
  else none

/-- The order in which an object lists its properties: array indices first, in numeric order. -/
def ownOrder {α : Type} (members : List (Text × α)) : List (Text × α) :=
  (members.filter fun m => (arrayIndex m.1).isSome).mergeSort
      (fun m m' => (arrayIndex m.1).getD 0 ≤ (arrayIndex m'.1).getD 0) ++
    members.filter fun m => (arrayIndex m.1).isNone

/-- The record `a`. An assignment to `__proto__` makes no property. -/
def attachmentMembers (attachments : AttachmentMap) : List (Text × List Char × Value) :=
  ownOrder ((attachments.entries.filter fun e => e.1 ≠ text "__proto__").map fun e =>
    objectMember e.1 (attachmentMeta e.2).members)

/-- The object before it is printed. -/
def contentMembers (t : Text) (attachments : AttachmentMap) : List (Text × List Char × Value) :=
  if attachments.entries = [] then [stringMember (text "t") t]
  else
    [stringMember (text "t") t,
      objectMember (text "a") (attachmentMembers attachments)]

def formatV1 : UInt8 := 0x01

/-- An absent map is one without entries. -/
def buildMessageContent (t : Text) (attachments : AttachmentMap) : List UInt8 :=
  formatV1 :: Utf8.encode (printObject ((contentMembers t attachments).map fun m => (m.1, m.2.1)))

/-! ## Section 2: Parsing -/

inductive ParseError where
  | syntaxError
  | typeError
  deriving DecidableEq, Repr

/-- Both may be undefined, and of any type. -/
structure ParsedMessageContent where
  text : Option Value
  attachmentMeta : Option Value := none

/-- `json.name`, for a name that no prototype has. -/
def get (json : Value) (name : Text) : Except ParseError (Option Value) :=
  match json with
  | .null => .error .typeError
  | .obj members => .ok (property members name)
  | _ => .ok none

/-- `new TextDecoder().decode(bytes)`. -/
def decodeText (bytes : List UInt8) : Value := .str (Utf16.encode (Utf8.decodeText bytes))

def parseMessageContent (content : List UInt8) : Except ParseError ParsedMessageContent :=
  match content with
  | [] => .ok { text := some (.str []) }
  | b :: rest =>
    if b = formatV1 then
      match parse (Utf8.decodeText rest) with
      | none => .error .syntaxError
      | some json => do
        let t ← get json (text "t")
        let a ← get json (text "a")
        return { text := t, attachmentMeta := a }
    -- Legacy: raw UTF-8 text
    else .ok { text := some (decodeText content) }

def safeParseMessageText (content : List UInt8) : Option Value :=
  match parseMessageContent content with
  | .ok parsed => parsed.text
  | .error _ => some (decodeText content)

/-! ## Section 3: Well-typed content -/

/-- A record whose three fields are strings. -/
def IsAttachmentMeta (v : Value) : Prop :=
  ∃ members, v = .obj members ∧
    ∀ name ∈ [text "mt", text "fn", text "ct"], ∃ t, property members name = some (.str t)

def IsMetaRecord (v : Value) : Prop :=
  ∃ members, v = .obj members ∧ ∀ id r, property members id = some r → IsAttachmentMeta r

structure ParsedMessageContent.WellTyped (parsed : ParsedMessageContent) : Prop where
  text : ∃ t, parsed.text = some (.str t)
  attachmentMeta : ∀ v ∈ parsed.attachmentMeta, IsMetaRecord v

/-- The content is rejected or well typed, and its text is a string in any case. -/
structure RejectedOrTyped (content : List UInt8) : Prop where
  parsed : ∀ parsed, parseMessageContent content = .ok parsed → parsed.WellTyped
  safe : ∃ t, safeParseMessageText content = some (.str t)

/-- If the version byte is there and JSON follows, then `null` or an object that has a string
    `t`, and no `a` or a record of records. -/
def HasShape (content : List UInt8) : Prop :=
  ∀ rest json, content = formatV1 :: rest → parse (Utf8.decodeText rest) = some json →
    json ≠ .null → ∃ members, json = .obj members ∧
      (∃ t, property members (text "t") = some (.str t)) ∧
      ∀ a, property members (text "a") = some a → IsMetaRecord a

/-! ## Section 4: What the parser makes of JSON -/

theorem parse_legacy {b : UInt8} (hb : b ≠ formatV1) (rest : List UInt8) :
    parseMessageContent (b :: rest) = .ok { text := some (decodeText (b :: rest)) } := if_neg hb

variable {attachments : AttachmentMap} {content rest : List UInt8}

theorem parse_syntaxError (h : parse (Utf8.decodeText rest) = none) :
    parseMessageContent (formatV1 :: rest) = .error .syntaxError := by
  unfold parseMessageContent
  dsimp only
  rw [if_pos rfl, h]

theorem parse_object {members : List (Text × Value)}
    (h : parse (Utf8.decodeText rest) = some (.obj members)) :
    parseMessageContent (formatV1 :: rest) =
      .ok {
        text := property members (text "t")
        attachmentMeta := property members (text "a") } := by
  unfold parseMessageContent
  dsimp only
  rw [if_pos rfl, h]
  rfl

theorem parse_null (h : parse (Utf8.decodeText rest) = some .null) :
    parseMessageContent (formatV1 :: rest) = .error .typeError := by
  unfold parseMessageContent
  dsimp only
  rw [if_pos rfl, h]
  rfl

theorem parse_other {json : Value} (h : parse (Utf8.decodeText rest) = some json)
    (hnull : json ≠ .null) (hobj : ∀ members, json ≠ .obj members) :
    parseMessageContent (formatV1 :: rest) = .ok { text := none } := by
  unfold parseMessageContent
  dsimp only
  rw [if_pos rfl, h]
  cases json with
  | null => exact absurd rfl hnull
  | obj members => exact absurd rfl (hobj members)
  | bool b => rfl
  | num n => rfl
  | str t => rfl
  | arr items => rfl

theorem safeParse_of_ok {parsed : ParsedMessageContent}
    (h : parseMessageContent content = .ok parsed) :
    safeParseMessageText content = parsed.text := by
  unfold safeParseMessageText
  rw [h]

theorem safeParse_of_error {e : ParseError} (h : parseMessageContent content = .error e) :
    safeParseMessageText content = some (decodeText content) := by
  unfold safeParseMessageText
  rw [h]

theorem rejectedOrTyped_of_error {e : ParseError} (h : parseMessageContent content = .error e) :
    RejectedOrTyped content where
  parsed := by
    intro parsed hparsed
    rw [h] at hparsed
    cases hparsed
  safe := ⟨_, safeParse_of_error h⟩

theorem rejectedOrTyped_of_ok {parsed : ParsedMessageContent}
    (h : parseMessageContent content = .ok parsed) (htyped : parsed.WellTyped) :
    RejectedOrTyped content where
  parsed := by
    intro parsed' hparsed
    rw [h] at hparsed
    cases hparsed
    exact htyped
  safe := by
    rw [safeParse_of_ok h]
    exact htyped.text

theorem wellTyped_text (t : Text) :
    ({ text := some (.str t) } : ParsedMessageContent).WellTyped where
  text := ⟨t, rfl⟩
  attachmentMeta := by
    intro v hv
    cases hv

theorem rejectedOrTyped_iff (content : List UInt8) :
    RejectedOrTyped content ↔ HasShape content := by
  constructor
  · intro h rest json hcontent hparse hnull
    subst hcontent
    by_cases hobj : ∃ members, json = .obj members
    · obtain ⟨members, rfl⟩ := hobj
      have htyped := h.parsed _ (parse_object hparse)
      exact ⟨members, rfl, htyped.text, htyped.attachmentMeta⟩
    · have hother := parse_other hparse hnull fun members heq => hobj ⟨members, heq⟩
      obtain ⟨t, ht⟩ := (h.parsed _ hother).text
      cases ht
  · intro h
    cases content with
    | nil => exact rejectedOrTyped_of_ok rfl (wellTyped_text [])
    | cons b rest =>
      by_cases hb : b = formatV1
      · subst hb
        cases hparse : parse (Utf8.decodeText rest) with
        | none => exact rejectedOrTyped_of_error (parse_syntaxError hparse)
        | some json =>
          by_cases hnull : json = .null
          · subst hnull
            exact rejectedOrTyped_of_error (parse_null hparse)
          · obtain ⟨members, rfl, htext, hmeta⟩ := h rest json rfl hparse hnull
            exact rejectedOrTyped_of_ok (parse_object hparse) ⟨htext, hmeta⟩
      · exact rejectedOrTyped_of_ok (parse_legacy hb rest) (wellTyped_text _)

/-- Content that is the number 5: its text is undefined. -/
theorem rejectedOrTyped_fails_five :
    safeParseMessageText [formatV1, 0x35] = none ∧ ¬ RejectedOrTyped [formatV1, 0x35] := by
  have hundefined : safeParseMessageText [formatV1, 0x35] = none := rfl
  refine ⟨hundefined, ?_⟩
  intro h
  obtain ⟨t, ht⟩ := h.safe
  cases ht

/-! ## Section 5: What was built -/

/-- The property `a` of content that was built. -/
def builtMeta (attachments : AttachmentMap) : Option Value :=
  if attachments.entries = [] then none
  else some (.obj ((attachmentMembers attachments).map fun m => (m.1, m.2.2)))

/-- The record of one attachment. -/
def AttachmentMeta.value (m : AttachmentMeta) : Value :=
  .obj (m.members.map fun m => (m.1, m.2.2))

theorem ownOrder_perm {α : Type} (members : List (Text × α)) : (ownOrder members).Perm members := by
  have hsorted := mergeSort_perm (members.filter fun m => (arrayIndex m.1).isSome)
    (fun m m' => (arrayIndex m.1).getD 0 ≤ (arrayIndex m'.1).getD 0)
  have hsplit := filter_append_perm (fun m => (arrayIndex m.1).isSome) members
  have hnone : members.filter (fun m => (arrayIndex m.1).isNone) =
      members.filter (fun m => !(arrayIndex m.1).isSome) := by
    refine filter_congr ?_
    intro m _
    cases arrayIndex m.1 with
    | none => rfl
    | some n => rfl
  unfold ownOrder
  rw [hnone]
  exact (hsorted.append_right _).trans hsplit

theorem attachmentMembers_perm (hproto : text "__proto__" ∉ attachments) :
    (attachmentMembers attachments).Perm
      (attachments.entries.map fun e => objectMember e.1 (attachmentMeta e.2).members) := by
  have hall : attachments.entries.filter (fun e => e.1 ≠ text "__proto__") =
      attachments.entries := by
    rw [filter_eq_self]
    intro e he
    rw [decide_eq_true_eq]
    rintro hid
    exact hproto (hid ▸ mem_map_of_mem he)
  unfold attachmentMembers
  rw [hall]
  exact ownOrder_perm _

theorem prints_stringMember (name value : Text) :
    Prints (stringMember name value).2.1 (stringMember name value).2.2 :=
  prints_string value

theorem prints_attachmentMeta (id : Text) (m : AttachmentMeta) :
    Prints (objectMember id m.members).2.1 (objectMember id m.members).2.2 := by
  refine prints_object (cons_ne_nil _ _) ?_
  intro member hmember
  simp only [AttachmentMeta.members, mem_cons, not_mem_nil, or_false] at hmember
  rcases hmember with rfl | rfl | rfl
  · exact prints_stringMember _ _
  · exact prints_stringMember _ _
  · exact prints_stringMember _ _

theorem prints_attachmentMembers (hproto : text "__proto__" ∉ attachments) :
    ∀ m ∈ attachmentMembers attachments, Prints m.2.1 m.2.2 := by
  intro m hm
  obtain ⟨e, -, rfl⟩ := mem_map.mp ((attachmentMembers_perm hproto).mem_iff.mp hm)
  exact prints_attachmentMeta e.1 (attachmentMeta e.2)

theorem prints_contentMembers (t : Text) (hproto : text "__proto__" ∉ attachments) :
    ∀ m ∈ contentMembers t attachments, Prints m.2.1 m.2.2 := by
  intro m hm
  unfold contentMembers at hm
  split at hm
  · cases mem_singleton.mp hm
    exact prints_stringMember _ _
  · rename_i hentries
    rcases mem_cons.mp hm with rfl | hm
    · exact prints_stringMember _ _
    · cases mem_singleton.mp hm
      refine prints_object ?_ (prints_attachmentMembers hproto)
      intro hnil
      have hperm := attachmentMembers_perm hproto
      rw [hnil] at hperm
      exact hentries (map_eq_nil_iff.mp hperm.nil_eq.symm)

theorem property_t (t : Text) (attachments : AttachmentMap) :
    property ((contentMembers t attachments).map fun m => (m.1, m.2.2)) (text "t") =
      some (.str t) := by
  unfold contentMembers
  split
  · refine property_of_mem ?_ mem_cons_self
    exact nodup_singleton _
  · refine property_of_mem ?_ mem_cons_self
    show [text "t", text "a"].Nodup
    decide

theorem property_a (t : Text) (attachments : AttachmentMap) :
    property ((contentMembers t attachments).map fun m => (m.1, m.2.2)) (text "a") =
      builtMeta attachments := by
  unfold contentMembers builtMeta
  split
  · refine property_eq_none ?_
    show text "a" ∉ [text "t"]
    decide
  · refine property_of_mem ?_ (mem_cons_of_mem _ mem_cons_self)
    show [text "t", text "a"].Nodup
    decide

/-- What was built is read as it was given. -/
theorem parse_build (t : Text) (hproto : text "__proto__" ∉ attachments) :
    parseMessageContent (buildMessageContent t attachments) =
      .ok { text := some (.str t), attachmentMeta := builtMeta attachments } := by
  have hne : contentMembers t attachments ≠ [] := by
    unfold contentMembers
    split <;> exact cons_ne_nil _ _
  have hprinted := parse_of_prints (prints_object hne (prints_contentMembers t hproto))
  -- the text begins with a brace, so there is no byte order mark to drop
  have hdecode := Utf8.decodeText_encode
    (printObject ((contentMembers t attachments).map fun m => (m.1, m.2.1)))
  rw [if_neg (by rw [printObject, head?_cons]; decide)] at hdecode
  rw [← hdecode] at hprinted
  have hparse := parse_object hprinted
  rw [property_t, property_a] at hparse
  exact hparse

/-- The record of one attachment, among those that were built. -/
theorem property_builtMeta (hproto : text "__proto__" ∉ attachments) (id : Text) :
    property ((attachmentMembers attachments).map fun m => (m.1, m.2.2)) id =
      (attachments.lookup id).map fun info => (attachmentMeta info).value := by
  have hperm := (attachmentMembers_perm hproto).map fun m => (m.1, m.2.2)
  have hnames : (((attachmentMembers attachments).map fun m => (m.1, m.2.2)).map (·.1)).Perm
      attachments.keys := by
    refine (hperm.map (·.1)).trans (.of_eq ?_)
    rw [map_map, map_map]
    rfl
  have hnodup := hnames.nodup_iff.mpr attachments.keys_nodup
  cases hlookup : attachments.lookup id with
  | none =>
    refine property_eq_none ?_
    rw [hnames.mem_iff]
    exact AList.lookup_eq_none.mp hlookup
  | some info =>
    refine property_of_mem hnodup (hperm.mem_iff.mpr ?_)
    have hmem := AList.mem_lookup_iff.mp hlookup
    rw [map_map]
    exact mem_map_of_mem hmem

/-- Each field of the record is one of its properties. -/
theorem property_value (m : AttachmentMeta) :
    ∃ members, m.value = .obj members ∧ property members (text "mt") = some (.str m.mt) ∧
      property members (text "fn") = some (.str m.fn) ∧
      property members (text "ct") = some (.str m.ct) := by
  have hnodup : ((m.members.map fun m => (m.1, m.2.2)).map (·.1)).Nodup := by
    show [text "mt", text "fn", text "ct"].Nodup
    decide
  refine ⟨_, rfl, property_of_mem hnodup ?_, property_of_mem hnodup ?_, property_of_mem hnodup ?_⟩
  · exact mem_cons_self
  · exact mem_cons_of_mem _ mem_cons_self
  · exact mem_cons_of_mem _ (mem_cons_of_mem _ mem_cons_self)

end Meza.Crypto.MessageContent
