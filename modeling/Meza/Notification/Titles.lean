import Mathlib.Data.List.Chain
import Meza.Lib.Unicode
import Meza.Notification.Push

/-! # The title of a notification

    A display name or the name of a channel goes into the title of a push. Whoever chose
    the name must not be able to forge the rest of the notification with it. The names
    are strings of bytes, and a loop over one yields its runes, `U+FFFD` for each byte
    that is not part of a character. -/

namespace Meza.Notification
open List Utf8

/-! ## Section 1: Strings of bytes -/

/-- `utf8.DecodeRuneInString`: the character that the bytes begin with. -/
def decodeRune (bs : List UInt8) : Option Char :=
  [1, 2, 3, 4].findSome? fun width =>
    (decode (bs.take width)).find? fun c => String.utf8EncodeChar c = bs.take width

/-- `skip` bytes belong to the rune before. -/
def runesFrom : Nat → List UInt8 → List Char
  | _, [] => []
  | skip + 1, _ :: bs => runesFrom skip bs
  | 0, b :: bs =>
    match decodeRune (b :: bs) with
    | some c => c :: runesFrom ((String.utf8EncodeChar c).length - 1) bs
    | none => Unicode.replacement :: runesFrom 0 bs

/-- `for _, r := range s`. -/
def runes (s : List UInt8) : List Char := runesFrom 0 s

/-- `sanitizeNotificationTitle` of any string. -/
def sanitizeBytes (s : List UInt8) : List UInt8 :=
  encode (sanitizeNotificationTitle (.ofList (runes s))).toList

/-! ## Section 2: The promise -/

/-- The characters with the property `Bidi_Control`. -/
def BidiControl (c : Char) : Prop :=
  c.val = 0x061C ∨ c.val = 0x200E ∨ c.val = 0x200F ∨ (0x202A ≤ c.val ∧ c.val ≤ 0x202E) ∨
    (0x2066 ≤ c.val ∧ c.val ≤ 0x2069)

def arabicLetterMark : Char := '\u061C'

/-- No whitespace in front, at the end, or beside other whitespace. -/
structure Tidy (cs : List Char) : Prop where
  front : ∀ c ∈ cs.head?, isSpace c = false
  back : ∀ c ∈ cs.getLast?, isSpace c = false
  inner : cs.IsChain fun a b => isSpace a = true → isSpace b = false

/-- What is promised of the title made of a string. -/
structure Sanitized (s : List UInt8) : Prop where
  control : ∀ c ∈ runes (sanitizeBytes s), isControl c = false
  bidi : ∀ c ∈ runes (sanitizeBytes s), ¬ BidiControl c
  tidy : Tidy (runes (sanitizeBytes s))
  again : sanitizeBytes (sanitizeBytes s) = sanitizeBytes s

/-! ## Section 3: Runes -/

variable {c : Char} {cs : List Char} {bs : List UInt8}

theorem prefix_of_decodeRune (h : decodeRune bs = some c) : String.utf8EncodeChar c <+: bs := by
  obtain ⟨width, -, hfind⟩ := exists_of_findSome?_eq_some h
  have henc := find?_some hfind
  rw [of_decide_eq_true henc]
  exact take_prefix width bs

/-- No character begins another. -/
theorem decodeRune_encodeChar (c : Char) (bs : List UInt8) :
    decodeRune (String.utf8EncodeChar c ++ bs) = some c := by
  have hwidth : (String.utf8EncodeChar c).length ∈ [1, 2, 3, 4] := by
    unfold String.utf8EncodeChar
    dsimp only
    split_ifs <;> simp
  have hsome : (decodeRune (String.utf8EncodeChar c ++ bs)).isSome := by
    refine findSome?_isSome_iff.mpr ⟨_, hwidth, ?_⟩
    have hdecode : decode (String.utf8EncodeChar c) = [c] := by
      have hrun := run_encodeChar c []
      rwa [append_nil] at hrun
    rw [take_left, hdecode]
    simp
  obtain ⟨c', hc'⟩ := Option.isSome_iff_exists.mp hsome
  obtain ⟨rest, hrest⟩ := prefix_of_decodeRune hc'
  have hruns := congrArg ({} : Decoder).run hrest
  rw [run_encodeChar, run_encodeChar] at hruns
  rw [hc', (cons.inj hruns).1]

theorem runesFrom_length (xs bs : List UInt8) : runesFrom xs.length (xs ++ bs) = runesFrom 0 bs := by
  induction xs with
  | nil => rfl
  | cons x xs ih => exact ih

theorem runes_encode (cs : List Char) : runes (encode cs) = cs := by
  induction cs with
  | nil => rfl
  | cons c cs ih =>
    obtain ⟨b, bs, hbytes, -⟩ := encodeChar_head c
    have hdecode := decodeRune_encodeChar c (encode cs)
    show runesFrom 0 (String.utf8EncodeChar c ++ encode cs) = c :: cs
    rw [hbytes, cons_append] at hdecode ⊢
    rw [runesFrom, hdecode]
    dsimp only
    rw [hbytes, length_cons, Nat.add_sub_cancel, runesFrom_length]
    exact congrArg (c :: ·) ih

/-! ## Section 4: Words -/

/-- A word has a character, and no space. -/
def Word (word : List Char) : Prop := word ≠ [] ∧ ∀ c ∈ word, isSpace c = false

def joined (words : List (List Char)) : List Char := [' '].intercalate words

variable {words : List (List Char)}

theorem joined_cons (word : List Char) (h : words ≠ []) :
    joined (word :: words) = word ++ ' ' :: joined words := by
  obtain ⟨next, rest, rfl⟩ := exists_cons_of_ne_nil h
  rw [joined, intercalate_cons_cons, append_assoc]
  rfl

theorem mem_splitOnP : (∃ word ∈ cs.splitOnP isSpace, c ∈ word) ↔ c ∈ cs ∧ isSpace c = false := by
  induction cs with
  | nil => simp
  | cons d cs ih =>
    rw [splitOnP_cons_eq_if_modifyHead]
    by_cases hd : isSpace d = true
    · rw [if_pos hd]
      simp only [mem_cons, exists_eq_or_imp, not_mem_nil, false_or, ih]
      constructor
      · exact fun h => ⟨.inr h.1, h.2⟩
      · rintro ⟨rfl | hc, hspace⟩
        · rw [hd] at hspace
          cases hspace
        · exact ⟨hc, hspace⟩
    · obtain ⟨word, rest, hsplit⟩ := exists_cons_of_ne_nil (splitOnP_ne_nil isSpace cs)
      rw [if_neg hd, hsplit, modifyHead_cons]
      rw [hsplit] at ih
      simp only [mem_cons, exists_eq_or_imp] at ih ⊢
      rw [or_assoc, ih]
      constructor
      · rintro (rfl | h)
        · exact ⟨.inl rfl, Bool.eq_false_of_not_eq_true hd⟩
        · exact ⟨.inr h.1, h.2⟩
      · rintro ⟨rfl | hc, hspace⟩
        · exact .inl rfl
        · exact .inr ⟨hc, hspace⟩

theorem word_of_mem_fields {word : List Char} (h : word ∈ fields cs) : Word word := by
  obtain ⟨hmem, hne⟩ := mem_filter.mp h
  exact ⟨of_decide_eq_true hne, fun c hc => (mem_splitOnP.mp ⟨word, hmem, hc⟩).2⟩

theorem mem_fields : (∃ word ∈ fields cs, c ∈ word) ↔ c ∈ cs ∧ isSpace c = false := by
  rw [← mem_splitOnP]
  refine exists_congr fun word => ?_
  unfold fields
  rw [mem_filter]
  constructor
  · exact fun h => ⟨h.1.1, h.2⟩
  · exact fun h => ⟨⟨h.1, decide_eq_true (ne_nil_of_mem h.2)⟩, h.2⟩

theorem fields_joined (h : ∀ word ∈ words, Word word) : fields (joined words) = words := by
  induction words with
  | nil => rfl
  | cons word words ih =>
    obtain ⟨⟨hne, hword⟩, hwords⟩ := forall_mem_cons.mp h
    by_cases hnil : words = []
    · subst hnil
      rw [joined, intercalate_singleton, fields, splitOnP_eq_singleton hword]
      simp [hne]
    · have hrest := ih hwords
      unfold fields at hrest ⊢
      rw [joined_cons word hnil, splitOnP_append_cons_of_forall_mem hword ' ' (by decide),
        filter_cons_of_pos (by simpa using hne), hrest]

theorem mem_joined (h : c ∈ joined words) : c = ' ' ∨ ∃ word ∈ words, c ∈ word := by
  induction words with
  | nil => cases h
  | cons word words ih =>
    by_cases hnil : words = []
    · subst hnil
      rw [joined, intercalate_singleton] at h
      exact .inr ⟨word, mem_singleton.mpr rfl, h⟩
    · rw [joined_cons word hnil, mem_append, mem_cons] at h
      rcases h with h | rfl | h
      · exact .inr ⟨word, mem_cons_self, h⟩
      · exact .inl rfl
      · exact (ih h).imp_right fun ⟨w, hw, hc⟩ => ⟨w, mem_cons_of_mem _ hw, hc⟩

theorem mem_joined_of_mem {word : List Char} (hword : word ∈ words) (hc : c ∈ word) :
    c ∈ joined words := by
  induction words with
  | nil => cases hword
  | cons first words ih =>
    by_cases hnil : words = []
    · subst hnil
      rw [mem_singleton.mp hword] at hc
      rwa [joined, intercalate_singleton]
    · rw [joined_cons first hnil, mem_append, mem_cons]
      rcases mem_cons.mp hword with rfl | hword
      · exact .inl hc
      · exact .inr (.inr (ih hword))

theorem tidy_word {word : List Char} (h : Word word) : Tidy word where
  front := fun c hc => h.2 c (mem_of_mem_head? hc)
  back := fun c hc => h.2 c (mem_of_getLast? hc)
  inner := Pairwise.isChain (pairwise_of_forall_mem_list fun a ha b _ hspace => by
      rw [h.2 a ha] at hspace
      cases hspace)

theorem tidy_joined (h : ∀ word ∈ words, Word word) : Tidy (joined words) := by
  induction words with
  | nil => exact ⟨by simp [joined], by simp [joined], by simp [joined]⟩
  | cons word words ih =>
    obtain ⟨hword, hwords⟩ := forall_mem_cons.mp h
    by_cases hnil : words = []
    · subst hnil
      rw [joined, intercalate_singleton]
      exact tidy_word hword
    · have hrest := ih hwords
      have hne : joined words ≠ [] := by
        obtain ⟨first, rest, rfl⟩ := exists_cons_of_ne_nil hnil
        obtain ⟨hfirst, -⟩ := hwords first mem_cons_self
        obtain ⟨d, hd⟩ := exists_mem_of_ne_nil first hfirst
        exact ne_nil_of_mem (mem_joined_of_mem mem_cons_self hd)
      rw [joined_cons word hnil]
      refine ⟨?_, ?_, isChain_append.mpr ⟨(tidy_word hword).inner, ?_, ?_⟩⟩
      · rw [head?_append_of_ne_nil _ hword.1]
        exact (tidy_word hword).front
      · rw [append_cons, getLast?_append_of_ne_nil _ hne]
        exact hrest.back
      · exact isChain_cons.mpr ⟨fun d hd _ => hrest.front d hd, hrest.inner⟩
      · intro a ha b _ hspace
        rw [(tidy_word hword).back a ha] at hspace
        cases hspace

/-! ## Section 5: Titles -/

/-- The runes that are kept, a space in place of each control character. -/
def kept (cs : List Char) : List Char :=
  (cs.filter (! isDropped ·)).map fun c => if isControl c then ' ' else c

theorem toList_sanitize (cs : List Char) :
    (sanitizeNotificationTitle (.ofList cs)).toList = joined (fields (kept cs)) := by
  simp [sanitizeNotificationTitle, joined, kept]

theorem mem_kept (hspace : isSpace c = false) :
    c ∈ kept cs ↔ c ∈ cs ∧ isDropped c = false ∧ isControl c = false := by
  unfold kept
  rw [mem_map]
  constructor
  · rintro ⟨d, hd, hc⟩
    obtain ⟨hmem, hdropped⟩ := mem_filter.mp hd
    split at hc
    · subst hc
      exact absurd hspace (by decide)
    · rename_i hcontrol
      subst hc
      exact ⟨hmem, by simpa using hdropped, by simpa using hcontrol⟩
  · rintro ⟨hmem, hdropped, hcontrol⟩
    exact ⟨c, mem_filter.mpr ⟨hmem, by simpa using hdropped⟩, by simp [hcontrol]⟩

theorem mem_title (h : c ∈ joined (fields (kept cs))) :
    c = ' ' ∨ (isSpace c = false ∧ c ∈ cs ∧ isDropped c = false ∧ isControl c = false) := by
  refine (mem_joined h).imp_right fun hword => ?_
  obtain ⟨hmem, hspace⟩ := mem_fields.mp hword
  exact ⟨hspace, (mem_kept hspace).mp hmem⟩

theorem bidiControl_of_kept (hdropped : isDropped c = false) (hbidi : BidiControl c) :
    c = arabicLetterMark := by
  have hval : c.val = 0x061C := by
    simp only [isDropped, mem_cons, not_mem_nil, or_false, decide_eq_false_iff_not,
      not_or] at hdropped
    rcases hbidi with h | h | h | h | h
    · exact h
    · exact absurd h hdropped.2.2.1
    · exact absurd h hdropped.2.2.2.1
    · exact absurd h hdropped.1
    · exact absurd h hdropped.2.1
  exact Char.ext hval

theorem kept_title (cs : List Char) :
    kept (joined (fields (kept cs))) = joined (fields (kept cs)) := by
  have hall : ∀ c ∈ joined (fields (kept cs)), isDropped c = false ∧ isControl c = false := by
    intro c hc
    rcases mem_title hc with rfl | ⟨-, -, h⟩
    · decide
    · exact h
  unfold kept
  rw [filter_eq_self.mpr fun c hc => by simp [(hall c hc).1]]
  exact (map_congr_left fun c hc => by simp [(hall c hc).2]).trans (map_id _)

theorem runes_sanitizeBytes (s : List UInt8) :
    runes (sanitizeBytes s) = joined (fields (kept (runes s))) := by
  rw [sanitizeBytes, runes_encode, toList_sanitize]

/-- The Arabic letter mark stays in the title. -/
theorem not_sanitized {s : List UInt8} (hmem : arabicLetterMark ∈ runes s) : ¬ Sanitized s := by
  intro h
  refine h.bidi arabicLetterMark ?_ (.inl rfl)
  rw [runes_sanitizeBytes]
  obtain ⟨word, hword, hc⟩ := mem_fields.mpr
    ⟨(mem_kept (by decide)).mpr ⟨hmem, by decide, by decide⟩, by decide⟩
  exact mem_joined_of_mem hword hc

/-- The promise is kept of every string without the Arabic letter mark, the one bidirectional
    control that is missing from the list. -/
theorem sanitized_iff (s : List UInt8) : Sanitized s ↔ arabicLetterMark ∉ runes s := by
  constructor
  · exact fun h hmem => not_sanitized hmem h
  · intro h
    have htitle : ∀ c ∈ runes (sanitizeBytes s), isControl c = false ∧ ¬ BidiControl c := by
      intro c hc
      rw [runes_sanitizeBytes] at hc
      rcases mem_title hc with rfl | ⟨-, hmem, hdropped, hcontrol⟩
      · exact ⟨by decide, by unfold BidiControl; decide⟩
      · refine ⟨hcontrol, fun hbidi => h ?_⟩
        rwa [bidiControl_of_kept hdropped hbidi] at hmem
    refine ⟨fun c hc => (htitle c hc).1, fun c hc => (htitle c hc).2, ?_, ?_⟩
    · rw [runes_sanitizeBytes]
      exact tidy_joined fun word hword => word_of_mem_fields hword
    · have hagain : sanitizeBytes (sanitizeBytes s) =
          encode (joined (fields (kept (runes (sanitizeBytes s))))) := by
        rw [sanitizeBytes, toList_sanitize]
      rw [hagain, runes_sanitizeBytes, kept_title,
        fields_joined fun word hword => word_of_mem_fields hword, sanitizeBytes, toList_sanitize]

theorem not_sanitized_letterMark : ¬ ∀ s, Sanitized s := fun h =>
  not_sanitized (s := encode [arabicLetterMark]) (by rw [runes_encode]; simp) (h _)

end Meza.Notification
