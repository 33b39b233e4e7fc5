import Mathlib.Data.List.Nodup
import Meza.Lib.Unicode

/-! # JSON

    A parser of JSON texts, and the printing of strings and objects. The text
    is well formed; the strings in it are lists of code units, since an escape
    can name half of a surrogate pair.

    A string in an object is shorter than the object's text (Section 4). The
    parser has fuel, of which there is always enough (Section 5), and what is
    printed is parsed again (Section 6). -/

namespace Json
open List Option Utf16

open Utf16 (Text CodePoint)

/-! ## Section 1: Values -/

/-- The number `± digits · 10 ^ exponent`. -/
structure Number where
  negative : Bool
  digits : Nat
  exponent : Int
  deriving DecidableEq, Repr

/-- Members are listed as they are written. -/
inductive Value where
  | null
  | bool (b : Bool)
  | num (n : Number)
  | str (t : Text)
  | arr (items : List Value)
  | obj (members : List (Text × Value))

/-- The property of an object: its last member of that name. -/
def property (members : List (Text × Value)) (name : Text) : Option Value :=
  (members.reverse.find? fun m => m.1 = name).map (·.2)

variable {members : List (Text × Value)}

theorem property_of_mem (hnodup : (members.map (·.1)).Nodup) {name : Text} {v : Value}
    (h : (name, v) ∈ members) : property members name = some v := by
  cases hfind : members.reverse.find? fun m => m.1 = name with
  | none =>
    have hother := find?_eq_none.mp hfind (name, v) (mem_reverse.mpr h)
    simp at hother
  | some m =>
    have hmem := mem_reverse.mp (mem_of_find?_eq_some hfind)
    have hname := find?_some hfind
    rw [decide_eq_true_eq] at hname
    have heq : m = (name, v) := inj_on_of_nodup_map hnodup hmem h hname
    rw [property, hfind, heq]
    rfl

theorem property_eq_none {name : Text} (h : name ∉ members.map (·.1)) :
    property members name = none := by
  have hfind : members.reverse.find? (fun m => m.1 = name) = none := by
    rw [find?_eq_none]
    intro m hm
    rw [decide_eq_true_eq]
    intro hname
    exact h (mem_map.mpr ⟨m, mem_reverse.mp hm, hname⟩)
  rw [property, hfind]
  rfl

/-! ## Section 2: Parsing -/

def isSpace (c : Char) : Bool := c = ' ' || c = '\t' || c = '\n' || c = '\r'

def skipSpace (cs : List Char) : List Char := cs.dropWhile isSpace

def hexVal (c : Char) : Option Nat :=
  if '0' ≤ c ∧ c ≤ '9' then some (c.toNat - 48)
  else if 'a' ≤ c ∧ c ≤ 'f' then some (c.toNat - 87)
  else if 'A' ≤ c ∧ c ≤ 'F' then some (c.toNat - 55)
  else none

def hexUnit (a b c d : Char) : Option UInt16 := do
  let a ← hexVal a
  let b ← hexVal b
  let c ← hexVal c
  let d ← hexVal d
  return .ofNat (4096 * a + 256 * b + 16 * c + d)

/-- The character after a backslash. -/
def unescape (c : Char) : Option UInt16 :=
  if c = '"' then some 0x22
  else if c = '\\' then some 0x5C
  else if c = '/' then some 0x2F
  else if c = 'b' then some 0x08
  else if c = 'f' then some 0x0C
  else if c = 'n' then some 0x0A
  else if c = 'r' then some 0x0D
  else if c = 't' then some 0x09
  else none

/-- The rest of a string has more in front. -/
def prepend (us : Text) (r : Text × List Char) : Text × List Char := (us ++ r.1, r.2)

/-- A string after its opening quote. -/
def parseString : List Char → Option (Text × List Char)
  | [] => none
  | c :: cs =>
    if c = '"' then some ([], cs)
    else if c = '\\' then
      match cs with
      | [] => none
      | e :: cs =>
        if e = 'u' then
          match cs with
          | h₁ :: h₂ :: h₃ :: h₄ :: cs =>
            (hexUnit h₁ h₂ h₃ h₄).bind fun u => (parseString cs).map (prepend [u])
          | _ => none
        else (unescape e).bind fun u => (parseString cs).map (prepend [u])
    else if c.toNat < 0x20 then none
    else (parseString cs).map (prepend (encodeChar c))

def digitsVal (digits : List Char) : Nat :=
  digits.foldl (fun n c => 10 * n + (c.toNat - 48)) 0

/-- The digits after a point, if there is one. -/
def parseFraction : List Char → Option (List Char × List Char)
  | [] => some ([], [])
  | c :: cs =>
    if c = '.' then
      let digits := cs.takeWhile Char.isDigit
      if digits = [] then none else some (digits, cs.dropWhile Char.isDigit)
    else some ([], c :: cs)

def parseExponent : List Char → Option (Int × List Char)
  | [] => some (0, [])
  | c :: cs =>
    if c = 'e' ∨ c = 'E' then
      let negative := cs.head? = some '-'
      let cs := if cs.head? = some '-' ∨ cs.head? = some '+' then cs.tail else cs
      let digits := cs.takeWhile Char.isDigit
      if digits = [] then none
      else
        some (if negative then -(digitsVal digits : Int) else digitsVal digits,
          cs.dropWhile Char.isDigit)
    else some (0, c :: cs)

/-- A number has no leading zeros. -/
def parseNumber (cs : List Char) : Option (Number × List Char) :=
  let negative := cs.head? = some '-'
  let cs := if negative then cs.tail else cs
  let whole := cs.takeWhile Char.isDigit
  if whole = [] ∨ (whole.head? = some '0' ∧ whole.length ≠ 1) then none
  else
    (parseFraction (cs.dropWhile Char.isDigit)).bind fun fraction =>
      (parseExponent fraction.2).map fun exponent =>
        ({ negative
           digits := digitsVal (whole ++ fraction.1)
           exponent := exponent.1 - fraction.1.length }, exponent.2)

def parseLiteral (word : List Char) (v : Value) (cs : List Char) : Option (Value × List Char) :=
  if word.isPrefixOf cs then some (v, cs.drop word.length) else none

/-- A value that begins with this character, and is neither an array nor an object. -/
def parseScalar (c : Char) (cs : List Char) : Option (Value × List Char) :=
  if c = '"' then (parseString cs).map fun r => (.str r.1, r.2)
  else if c = 't' then parseLiteral ['t', 'r', 'u', 'e'] (.bool true) (c :: cs)
  else if c = 'f' then parseLiteral ['f', 'a', 'l', 's', 'e'] (.bool false) (c :: cs)
  else if c = 'n' then parseLiteral ['n', 'u', 'l', 'l'] .null (c :: cs)
  else (parseNumber (c :: cs)).map fun r => (.num r.1, r.2)

/-- The name of a member and the colon after it. -/
def parseName (cs : List Char) : Option (Text × List Char) :=
  match skipSpace cs with
  | [] => none
  | c :: cs =>
    if c = '"' then
      (parseString cs).bind fun r =>
        match skipSpace r.2 with
        | [] => none
        | d :: cs => if d = ':' then some (r.1, cs) else none
    else none

mutual

def parseValue : Nat → List Char → Option (Value × List Char)
  | 0, _ => none
  | n + 1, cs =>
    match skipSpace cs with
    | [] => none
    | c :: cs =>
      if c = '{' then
        match skipSpace cs with
        | [] => none
        | d :: cs =>
          if d = '}' then some (.obj [], cs)
          else (parseMembers n (d :: cs)).map fun r => (.obj r.1, r.2)
      else if c = '[' then
        match skipSpace cs with
        | [] => none
        | d :: cs =>
          if d = ']' then some (.arr [], cs)
          else (parseItems n (d :: cs)).map fun r => (.arr r.1, r.2)
      else parseScalar c cs

/-- One item or more. -/
def parseItems : Nat → List Char → Option (List Value × List Char)
  | 0, _ => none
  | n + 1, cs =>
    (parseValue n cs).bind fun r =>
      match skipSpace r.2 with
      | [] => none
      | c :: cs =>
        if c = ']' then some ([r.1], cs)
        else if c = ',' then (parseItems n cs).map fun r' => (r.1 :: r'.1, r'.2)
        else none

/-- One member or more. -/
def parseMembers : Nat → List Char → Option (List (Text × Value) × List Char)
  | 0, _ => none
  | n + 1, cs =>
    (parseName cs).bind fun name =>
      (parseValue n name.2).bind fun r =>
        match skipSpace r.2 with
        | [] => none
        | c :: cs =>
          if c = '}' then some ([(name.1, r.1)], cs)
          else if c = ',' then (parseMembers n cs).map fun r' => ((name.1, r.1) :: r'.1, r'.2)
          else none

end

def enough (cs : List Char) : Nat := 2 * cs.length + 1

/-- `JSON.parse`. -/
def parse (cs : List Char) : Option Value :=
  (parseValue (enough cs) cs).bind fun r => if skipSpace r.2 = [] then some r.1 else none

/-! ## Section 3: Printing -/

def unicodeEscape (u : UInt16) : List Char :=
  ['\\', 'u', Nat.digitChar (u.toNat / 4096), Nat.digitChar (u.toNat / 256 % 16),
    Nat.digitChar (u.toNat / 16 % 16), Nat.digitChar (u.toNat % 16)]

def escapeChar (c : Char) : List Char :=
  if c = '"' then ['\\', '"']
  else if c = '\\' then ['\\', '\\']
  else if c = '\x08' then ['\\', 'b']
  else if c = '\x0c' then ['\\', 'f']
  else if c = '\n' then ['\\', 'n']
  else if c = '\r' then ['\\', 'r']
  else if c = '\t' then ['\\', 't']
  else if c.toNat < 0x20 then unicodeEscape (.ofNat c.toNat)
  else [c]

def escape : CodePoint → List Char
  | .scalar c => escapeChar c
  | .lone u => unicodeEscape u

def printString (t : Text) : List Char :=
  '"' :: ((Utf16.codePoints t).flatMap escape ++ ['"'])

/-- Members with their values printed. -/
def printMembers : List (Text × List Char) → List Char
  | [] => []
  | [m] => printString m.1 ++ ':' :: m.2
  | m :: ms => printString m.1 ++ ':' :: (m.2 ++ ',' :: printMembers ms)

def printObject (members : List (Text × List Char)) : List Char :=
  '{' :: (printMembers members ++ ['}'])

/-! ## Section 4: What is read -/

def units (cs : List Char) : Nat := (encode cs).length

/-- What is left after a value with a string of `k` code units. -/
structure Reads (cs : List Char) (k : Nat) (rest : List Char) : Prop where
  suffix : rest <:+ cs
  longer : k + units rest < units cs

theorem units_cons (c : Char) (cs : List Char) :
    units (c :: cs) = (encodeChar c).length + units cs := length_encode_cons c cs

variable {cs cs' rest : List Char}

theorem Reads.of_suffix {k : Nat} (h : Reads cs' k rest) (hs : cs' <:+ cs) : Reads cs k rest where
  suffix := h.suffix.trans hs
  longer := Nat.lt_of_lt_of_le h.longer (length_encode_mono hs)

theorem Reads.to_suffix {k : Nat} (h : Reads cs k cs') (hs : rest <:+ cs') : Reads cs k rest where
  suffix := hs.trans h.suffix
  longer := by
    have hlonger := h.longer
    have hmono : units rest ≤ units cs' := length_encode_mono hs
    omega

theorem Reads.nothing {k : Nat} (h : Reads cs k rest) : Reads cs 0 rest where
  suffix := h.suffix
  longer := by
    have hlonger := h.longer
    omega

theorem Reads.shorter {k : Nat} (h : Reads cs k rest) : rest.length < cs.length := by
  refine lt_of_le_of_ne h.suffix.length_le ?_
  intro heq
  have hlonger := h.longer
  rw [h.suffix.eq_of_length heq] at hlonger
  omega

theorem reads_tail (c : Char) (cs : List Char) : Reads (c :: cs) 0 cs where
  suffix := suffix_cons c cs
  longer := by
    have hpos := encodeChar_length_pos c
    rw [units_cons]
    omega

theorem Reads.of_shorter (hs : rest <:+ cs) (hshorter : rest.length < cs.length) :
    Reads cs 0 rest := by
  cases cs with
  | nil => cases hshorter
  | cons c cs =>
    rcases suffix_cons_iff.mp hs with rfl | htail
    · exact absurd hshorter (lt_irrefl _)
    · exact (reads_tail c cs).to_suffix htail

theorem skipSpace_suffix (cs : List Char) : skipSpace cs <:+ cs := dropWhile_suffix _

theorem reads_skipSpace {c : Char} (h : skipSpace cs = c :: rest) : Reads cs 0 rest :=
  (reads_tail c rest).of_suffix (h ▸ skipSpace_suffix cs)

theorem reads_parseString {r : Text × List Char} (h : parseString cs = some r) :
    Reads cs r.1.length r.2 := by
  fun_induction parseString cs generalizing r with
  | case1 | case3 | case5 | case7 => cases h
  | case2 cs =>
    cases h
    exact reads_tail _ cs
  | case4 h₁ h₂ h₃ h₄ cs _ ih =>
    obtain ⟨u, -, hrest⟩ := bind_eq_some_iff.mp h
    obtain ⟨r', hr', rfl⟩ := map_eq_some_iff.mp hrest
    have hread := ih hr'
    have hlonger := hread.longer
    have hpos := encodeChar_length_pos 'u'
    refine ⟨hread.suffix.trans ⟨['\\', 'u', h₁, h₂, h₃, h₄], rfl⟩, ?_⟩
    simp only [units_cons, prepend, length_append, length_singleton]
    omega
  | case6 e cs _ _ ih =>
    obtain ⟨u, -, hrest⟩ := bind_eq_some_iff.mp h
    obtain ⟨r', hr', rfl⟩ := map_eq_some_iff.mp hrest
    have hread := ih hr'
    have hlonger := hread.longer
    have hpos := encodeChar_length_pos e
    refine ⟨hread.suffix.trans ⟨['\\', e], rfl⟩, ?_⟩
    simp only [units_cons, prepend, length_append, length_singleton]
    omega
  | case8 c cs _ _ _ ih =>
    obtain ⟨r', hr', rfl⟩ := map_eq_some_iff.mp h
    have hread := ih hr'
    have hlonger := hread.longer
    refine ⟨hread.suffix.trans (suffix_cons c cs), ?_⟩
    simp only [units_cons, prepend, length_append]
    omega

theorem parseFraction_suffix {r : List Char × List Char} (h : parseFraction cs = some r) :
    r.2 <:+ cs := by
  cases cs with
  | nil =>
    cases h
    exact suffix_refl _
  | cons c cs =>
    unfold parseFraction at h
    dsimp only at h
    split at h
    · split at h
      · cases h
      · cases h
        exact (dropWhile_suffix _).trans (suffix_cons c cs)
    · cases h
      exact suffix_refl _

theorem parseExponent_suffix {r : Int × List Char} (h : parseExponent cs = some r) :
    r.2 <:+ cs := by
  cases cs with
  | nil =>
    cases h
    exact suffix_refl _
  | cons c cs =>
    have hsign : (if cs.head? = some '-' ∨ cs.head? = some '+' then cs.tail else cs) <:+ cs := by
      split
      · exact tail_suffix cs
      · exact suffix_refl cs
    unfold parseExponent at h
    dsimp only at h
    generalize (if cs.head? = some '-' ∨ cs.head? = some '+' then cs.tail else cs) = digits
      at h hsign
    split at h
    · split at h
      · cases h
      · cases h
        exact ((dropWhile_suffix _).trans hsign).trans (suffix_cons c cs)
    · cases h
      exact suffix_refl _

/-- Digits that are there are read. -/
theorem reads_dropWhile {p : Char → Bool} (h : cs.takeWhile p ≠ []) :
    Reads cs 0 (cs.dropWhile p) := by
  refine .of_shorter (dropWhile_suffix p) ?_
  have hsum := congrArg length (takeWhile_append_dropWhile (p := p) (l := cs))
  have hpos := length_pos_iff.mpr h
  rw [length_append] at hsum
  omega

theorem reads_parseNumber {r : Number × List Char} (h : parseNumber cs = some r) :
    Reads cs 0 r.2 := by
  have hsign : (if cs.head? = some '-' then cs.tail else cs) <:+ cs := by
    split
    · exact tail_suffix cs
    · exact suffix_refl cs
  unfold parseNumber at h
  generalize hunsigned : (if cs.head? = some '-' then cs.tail else cs) = digits at hsign
  simp only [hunsigned] at h
  split at h
  · cases h
  · rename_i hdigits
    obtain ⟨fraction, hfraction, hrest⟩ := bind_eq_some_iff.mp h
    obtain ⟨exponent, hexponent, rfl⟩ := map_eq_some_iff.mp hrest
    have hread := reads_dropWhile fun hnil => hdigits (.inl hnil)
    exact (hread.to_suffix ((parseExponent_suffix hexponent).trans
      (parseFraction_suffix hfraction))).of_suffix hsign

/-- The length of a value that is a string. -/
def stringUnits : Value → Nat
  | .str t => t.length
  | _ => 0

/-- The strings in an object are shorter than the text `cs`. -/
def Fits (cs : List Char) : Value → Prop
  | .obj members => ∀ m ∈ members, stringUnits m.2 < units cs
  | _ => True

theorem Fits.mono {v : Value} (h : Fits cs' v) (hs : cs' <:+ cs) : Fits cs v := by
  cases v with
  | obj members =>
    intro m hm
    exact Nat.lt_of_lt_of_le (h m hm) (length_encode_mono hs)
  | _ => trivial

/-- What is left after a value. -/
structure ReadsValue (cs : List Char) (r : Value × List Char) : Prop where
  reads : Reads cs (stringUnits r.1) r.2
  fits : Fits cs r.1

theorem ReadsValue.of_suffix {r : Value × List Char} (h : ReadsValue cs' r) (hs : cs' <:+ cs) :
    ReadsValue cs r where
  reads := h.reads.of_suffix hs
  fits := h.fits.mono hs

theorem reads_parseLiteral {word : List Char} {v : Value} {r : Value × List Char}
    (h : parseLiteral word v cs = some r) (hword : word ≠ []) (hv : stringUnits v = 0)
    (hfits : Fits cs v) : ReadsValue cs r := by
  unfold parseLiteral at h
  split at h
  · rename_i hprefix
    cases h
    have hle := (List.isPrefixOf_iff_prefix.mp hprefix).length_le
    have hpos := length_pos_iff.mpr hword
    refine ⟨?_, hfits⟩
    rw [hv]
    refine .of_shorter (drop_suffix _ _) ?_
    rw [length_drop]
    omega
  · cases h

theorem reads_parseScalar {c : Char} {r : Value × List Char} (h : parseScalar c cs = some r) :
    ReadsValue (c :: cs) r := by
  unfold parseScalar at h
  split at h
  · obtain ⟨r', hr', rfl⟩ := map_eq_some_iff.mp h
    exact ⟨(reads_parseString hr').of_suffix (suffix_cons c cs), trivial⟩
  · split at h
    · exact reads_parseLiteral h (cons_ne_nil _ _) rfl trivial
    · split at h
      · exact reads_parseLiteral h (cons_ne_nil _ _) rfl trivial
      · split at h
        · exact reads_parseLiteral h (cons_ne_nil _ _) rfl trivial
        · obtain ⟨r', hr', rfl⟩ := map_eq_some_iff.mp h
          exact ⟨reads_parseNumber hr', trivial⟩

theorem reads_parseName {r : Text × List Char} (h : parseName cs = some r) : Reads cs 0 r.2 := by
  unfold parseName at h
  split at h
  · cases h
  · rename_i c cs' hspace
    split at h
    · obtain ⟨name, hname, hrest⟩ := bind_eq_some_iff.mp h
      split at hrest
      · cases hrest
      · rename_i d cs'' hcolon
        split at hrest
        · cases hrest
          have hread := (reads_parseString hname).of_suffix (reads_skipSpace hspace).suffix
          exact hread.nothing.to_suffix (reads_skipSpace hcolon).suffix
        · cases hrest
    · cases h

/-- Every parser reads something, and strings in objects are shorter than the objects. -/
theorem reads_parse (n : Nat) :
    (∀ cs r, parseValue n cs = some r → ReadsValue cs r) ∧
      (∀ cs r, parseItems n cs = some r → Reads cs 0 r.2) ∧
      ∀ cs r, parseMembers n cs = some r → ReadsValue cs (.obj r.1, r.2) := by
  induction n with
  | zero =>
    refine ⟨?_, ?_, ?_⟩
    · intro cs r h
      simp [parseValue] at h
    · intro cs r h
      simp [parseItems] at h
    · intro cs r h
      simp [parseMembers] at h
  | succ n ih =>
    obtain ⟨ihValue, ihItems, ihMembers⟩ := ih
    refine ⟨?_, ?_, ?_⟩
    · intro cs r h
      unfold parseValue at h
      split at h
      · cases h
      · rename_i c cs₁ hfirst
        have hcs := skipSpace_suffix cs
        rw [hfirst] at hcs
        -- what stands in brackets
        have hinner : ∀ {d cs₂}, skipSpace cs₁ = d :: cs₂ → Reads cs 0 (d :: cs₂) :=
          fun hsecond => (reads_skipSpace hfirst).to_suffix (hsecond ▸ skipSpace_suffix cs₁)
        split at h
        · split at h
          · cases h
          · rename_i d cs₂ hsecond
            split at h
            · cases h
              exact ⟨(hinner hsecond).to_suffix (suffix_cons d cs₂), forall_mem_nil _⟩
            · obtain ⟨r', hr', rfl⟩ := map_eq_some_iff.mp h
              exact (ihMembers _ _ hr').of_suffix (hinner hsecond).suffix
        · split at h
          · split at h
            · cases h
            · rename_i d cs₂ hsecond
              split at h
              · cases h
                exact ⟨(hinner hsecond).to_suffix (suffix_cons d cs₂), trivial⟩
              · obtain ⟨r', hr', rfl⟩ := map_eq_some_iff.mp h
                exact ⟨(hinner hsecond).to_suffix (ihItems _ _ hr').suffix, trivial⟩
          · exact (reads_parseScalar h).of_suffix hcs
    · intro cs r h
      obtain ⟨v, hv, hrest⟩ := bind_eq_some_iff.mp h
      split at hrest
      · cases hrest
      · rename_i c cs₁ hnext
        have hread := (ihValue _ _ hv).reads.nothing.to_suffix (reads_skipSpace hnext).suffix
        split at hrest
        · cases hrest
          exact hread
        · split at hrest
          · obtain ⟨r', hr', rfl⟩ := map_eq_some_iff.mp hrest
            exact hread.to_suffix (ihItems _ _ hr').suffix
          · cases hrest
    · intro cs r h
      obtain ⟨name, hname, hvalue⟩ := bind_eq_some_iff.mp h
      obtain ⟨v, hv, hrest⟩ := bind_eq_some_iff.mp hvalue
      have hfirst := (ihValue _ _ hv).reads.of_suffix (reads_parseName hname).suffix
      have hless : stringUnits v.1 < units cs := by
        have hlonger := hfirst.longer
        omega
      split at hrest
      · cases hrest
      · rename_i c cs₁ hnext
        have hread := hfirst.nothing.to_suffix (reads_skipSpace hnext).suffix
        split at hrest
        · cases hrest
          exact ⟨hread, forall_mem_singleton.mpr hless⟩
        · split at hrest
          · obtain ⟨r', hr', rfl⟩ := map_eq_some_iff.mp hrest
            have hmore := ihMembers _ _ hr'
            exact ⟨hread.to_suffix hmore.reads.suffix,
              forall_mem_cons.mpr ⟨hless, hmore.fits.mono hread.suffix⟩⟩
          · cases hrest

/-- A string in an object is shorter than the object's text. -/
theorem property_length {members : List (Text × Value)} {name t : Text}
    (h : parse cs = some (.obj members)) (hproperty : property members name = some (.str t)) :
    t.length < (encode cs).length := by
  obtain ⟨m, hfind, hm⟩ := map_eq_some_iff.mp hproperty
  have hmem : m ∈ members := mem_reverse.mp (mem_of_find?_eq_some hfind)
  obtain ⟨⟨v, rest⟩, hv, hend⟩ := bind_eq_some_iff.mp h
  split at hend
  · cases hend
    have hless := ((reads_parse _).1 _ _ hv).fits m hmem
    rw [hm] at hless
    exact hless
  · cases hend

/-! ## Section 5: The fuel is enough -/

theorem length_of_skipSpace {c : Char} (h : skipSpace cs = c :: rest) :
    (c :: rest).length ≤ cs.length := by
  rw [← h]
  exact (skipSpace_suffix cs).length_le

/-- More fuel than enough makes no difference. -/
theorem parse_fuel (n : Nat) :
    ∀ m, (∀ cs, enough cs ≤ n → enough cs ≤ m → parseValue n cs = parseValue m cs) ∧
      (∀ cs, enough cs < n → enough cs < m → parseItems n cs = parseItems m cs) ∧
      ∀ cs, enough cs < n → enough cs < m → parseMembers n cs = parseMembers m cs := by
  unfold enough
  induction n with
  | zero =>
    intro m
    exact ⟨fun cs h => absurd h (by omega), fun cs h => absurd h (by omega),
      fun cs h => absurd h (by omega)⟩
  | succ n ih =>
    intro m
    cases m with
    | zero =>
      exact ⟨fun cs _ h => absurd h (by omega), fun cs _ h => absurd h (by omega),
        fun cs _ h => absurd h (by omega)⟩
    | succ m =>
      obtain ⟨ihValue, ihItems, ihMembers⟩ := ih m
      refine ⟨?_, ?_, ?_⟩
      · intro cs hn hm
        rw [parseValue, parseValue]
        cases hfirst : skipSpace cs with
        | nil => rfl
        | cons c cs₁ =>
          have hlen := length_of_skipSpace hfirst
          dsimp only
          cases hsecond : skipSpace cs₁ with
          | nil => rfl
          | cons d cs₂ =>
            -- inside the brackets two steps of fuel are saved
            have hinner := length_of_skipSpace hsecond
            simp only [length_cons] at hlen hinner
            dsimp only
            rw [ihMembers (d :: cs₂) (by simp only [length_cons]; omega)
                (by simp only [length_cons]; omega),
              ihItems (d :: cs₂) (by simp only [length_cons]; omega)
                (by simp only [length_cons]; omega)]
      · intro cs hn hm
        rw [parseItems, parseItems, ihValue cs (by omega) (by omega)]
        refine bind_congr ?_
        intro r hr
        cases hnext : skipSpace r.2 with
        | nil => rfl
        | cons c cs₁ =>
          have hread := ((reads_parse m).1 cs r hr).reads.to_suffix (reads_skipSpace hnext).suffix
          have hshorter := hread.shorter
          dsimp only
          rw [ihItems cs₁ (by omega) (by omega)]
      · intro cs hn hm
        refine bind_congr ?_
        intro name hname
        have hnamed := (reads_parseName hname).shorter
        rw [ihValue name.2 (by omega) (by omega)]
        refine bind_congr ?_
        intro r hr
        cases hnext : skipSpace r.2 with
        | nil => rfl
        | cons c cs₁ =>
          have hread := ((reads_parse m).1 name.2 r hr).reads.to_suffix
            (reads_skipSpace hnext).suffix
          have hshorter := hread.shorter
          dsimp only
          rw [ihMembers cs₁ (by omega) (by omega)]

theorem parseValue_of_enough {n : Nat} (h : enough cs ≤ n) :
    parseValue n cs = parseValue (enough cs) cs := (parse_fuel n _).1 cs h le_rfl

/-! ## Section 6: What is printed is parsed -/

theorem hexVal_digitChar : ∀ n < 16, hexVal (Nat.digitChar n) = some n := by decide

theorem hexUnit_digits (u : UInt16) :
    hexUnit (Nat.digitChar (u.toNat / 4096)) (Nat.digitChar (u.toNat / 256 % 16))
      (Nat.digitChar (u.toNat / 16 % 16)) (Nat.digitChar (u.toNat % 16)) = some u := by
  have hbound : u.toNat < 65536 := u.toNat_lt
  have hsum : 4096 * (u.toNat / 4096) + 256 * (u.toNat / 256 % 16) + 16 * (u.toNat / 16 % 16) +
      u.toNat % 16 = u.toNat := by omega
  unfold hexUnit
  rw [hexVal_digitChar _ (by omega), hexVal_digitChar _ (by omega), hexVal_digitChar _ (by omega),
    hexVal_digitChar _ (by omega)]
  show some (UInt16.ofNat (4096 * (u.toNat / 4096) + 256 * (u.toNat / 256 % 16) +
    16 * (u.toNat / 16 % 16) + u.toNat % 16)) = some u
  rw [hsum, UInt16.ofNat_toNat]

theorem parseString_quote (cs : List Char) : parseString ('"' :: cs) = some ([], cs) := by
  rw [parseString.eq_def]
  exact if_pos rfl

theorem parseString_plain {c : Char} (hquote : c ≠ '"') (hback : c ≠ '\\')
    (hplain : ¬ c.toNat < 0x20) (cs : List Char) :
    parseString (c :: cs) = (parseString cs).map (prepend (encodeChar c)) := by
  rw [parseString.eq_def]
  dsimp only
  rw [if_neg hquote, if_neg hback, if_neg hplain]

theorem parseString_unicodeEscape (u : UInt16) (cs : List Char) :
    parseString (unicodeEscape u ++ cs) = (parseString cs).map (prepend [u]) := by
  unfold unicodeEscape
  simp only [cons_append, nil_append]
  rw [parseString.eq_def]
  dsimp only
  rw [if_neg (by decide), if_pos rfl, if_pos rfl, hexUnit_digits]
  rfl

theorem parseString_backslash {e : Char} {u : UInt16} (hu : e ≠ 'u') (he : unescape e = some u)
    (cs : List Char) : parseString ('\\' :: e :: cs) = (parseString cs).map (prepend [u]) := by
  rw [parseString.eq_def]
  dsimp only
  rw [if_neg (by decide), if_pos rfl, if_neg hu, he]
  rfl

theorem parseString_escapeChar (c : Char) (cs : List Char) :
    parseString (escapeChar c ++ cs) = (parseString cs).map (prepend (encodeChar c)) := by
  unfold escapeChar
  by_cases hquote : c = '"'
  · subst hquote
    exact parseString_backslash (by decide) rfl cs
  by_cases hback : c = '\\'
  · subst hback
    exact parseString_backslash (by decide) rfl cs
  by_cases hb : c = '\x08'
  · subst hb
    exact parseString_backslash (by decide) rfl cs
  by_cases hf : c = '\x0c'
  · subst hf
    exact parseString_backslash (by decide) rfl cs
  by_cases hn : c = '\n'
  · subst hn
    exact parseString_backslash (by decide) rfl cs
  by_cases hr : c = '\r'
  · subst hr
    exact parseString_backslash (by decide) rfl cs
  by_cases ht : c = '\t'
  · subst ht
    exact parseString_backslash (by decide) rfl cs
  rw [if_neg hquote, if_neg hback, if_neg hb, if_neg hf, if_neg hn, if_neg hr, if_neg ht]
  by_cases hcontrol : c.toNat < 0x20
  · rw [if_pos hcontrol, parseString_unicodeEscape, Utf16.encodeChar_small (by omega)]
  · rw [if_neg hcontrol, List.singleton_append, parseString_plain hquote hback hcontrol]

theorem parseString_escape (p : CodePoint) (cs : List Char) :
    parseString (escape p ++ cs) = (parseString cs).map (prepend p.units) := by
  cases p with
  | scalar c => exact parseString_escapeChar c cs
  | lone u => exact parseString_unicodeEscape u cs

theorem parseString_flatMap (ps : List CodePoint) (cs : List Char) :
    parseString (ps.flatMap escape ++ '"' :: cs) = some (ps.flatMap CodePoint.units, cs) := by
  induction ps with
  | nil =>
    exact parseString_quote cs
  | cons p ps ih =>
    rw [flatMap_cons, append_assoc, parseString_escape, ih, flatMap_cons]
    rfl

/-- The text is read as the value, whatever follows. -/
def Prints (s : List Char) (v : Value) : Prop :=
  ∀ n rest, enough s ≤ n → parseValue n (s ++ rest) = some (v, rest)

theorem skipSpace_cons {c : Char} (h : isSpace c = false) (cs : List Char) :
    skipSpace (c :: cs) = c :: cs := by
  unfold skipSpace
  rw [dropWhile_cons, h]
  rfl

theorem parse_of_prints {s : List Char} {v : Value} (h : Prints s v) : parse s = some v := by
  have hvalue := h (enough s) [] le_rfl
  rw [append_nil] at hvalue
  unfold parse
  rw [hvalue]
  rfl

theorem printString_append (t : Text) (rest : List Char) :
    printString t ++ rest = '"' :: ((Utf16.codePoints t).flatMap escape ++ '"' :: rest) := by
  simp [printString]

theorem prints_string (t : Text) : Prints (printString t) (.str t) := by
  intro n rest hn
  unfold enough printString at hn
  obtain ⟨n, rfl⟩ : ∃ k, n = k + 1 := ⟨n - 1, by simp only [length_cons] at hn; omega⟩
  rw [printString_append, parseValue, skipSpace_cons (by decide)]
  dsimp only
  rw [if_neg (by decide), if_neg (by decide), parseScalar, if_pos rfl, parseString_flatMap,
    units_codePoints]
  rfl

theorem parseName_print (t : Text) (rest : List Char) :
    parseName (printString t ++ ':' :: rest) = some (t, rest) := by
  unfold parseName
  rw [printString_append, skipSpace_cons (by decide)]
  dsimp only
  rw [if_pos rfl, parseString_flatMap, units_codePoints, bind_some]
  rw [skipSpace_cons (by decide)]
  dsimp only
  rw [if_pos rfl]

theorem parseMembers_print {ms : List (Text × List Char × Value)} (hne : ms ≠ [])
    (h : ∀ m ∈ ms, Prints m.2.1 m.2.2) (n : Nat) (rest : List Char)
    (hn : enough (printMembers (ms.map fun m => (m.1, m.2.1))) < n) :
    parseMembers n (printMembers (ms.map fun m => (m.1, m.2.1)) ++ '}' :: rest) =
      some (ms.map fun m => (m.1, m.2.2), rest) := by
  induction ms generalizing n with
  | nil => exact absurd rfl hne
  | cons m ms ih =>
    obtain ⟨n, rfl⟩ : ∃ k, n = k + 1 := ⟨n - 1, by omega⟩
    have hm := h m mem_cons_self
    cases ms with
    | nil =>
      simp only [map_cons, map_nil, printMembers, append_assoc, cons_append]
        at hn ⊢
      unfold enough at hn
      simp only [length_append, length_cons] at hn
      rw [parseMembers, parseName_print, bind_some, hm n _ (by unfold enough; omega), bind_some]
      rw [skipSpace_cons (by decide)]
      dsimp only
      rw [if_pos rfl]
    | cons m' ms =>
      have hrest := ih (cons_ne_nil _ _) fun a ha => h a (mem_cons_of_mem _ ha)
      simp only [map_cons, printMembers, append_assoc, cons_append] at hn hrest ⊢
      unfold enough at hn hrest
      simp only [length_append, length_cons] at hn
      rw [parseMembers, parseName_print, bind_some, hm n _ (by unfold enough; omega), bind_some]
      rw [skipSpace_cons (by decide)]
      dsimp only
      rw [if_neg (by decide), if_pos rfl, hrest n (by omega)]
      rfl

/-- An object of members that are read back. -/
theorem prints_object {ms : List (Text × List Char × Value)} (hne : ms ≠ [])
    (h : ∀ m ∈ ms, Prints m.2.1 m.2.2) :
    Prints (printObject (ms.map fun m => (m.1, m.2.1))) (.obj (ms.map fun m => (m.1, m.2.2))) := by
  intro n rest hn
  unfold enough printObject at hn
  simp only [length_cons, length_append, length_nil] at hn
  obtain ⟨n, rfl⟩ : ∃ k, n = k + 1 := ⟨n - 1, by omega⟩
  have hmembers := parseMembers_print hne h n rest (by unfold enough; omega)
  have hquote : ∃ cs, printMembers (ms.map fun m => (m.1, m.2.1)) ++ '}' :: rest = '"' :: cs := by
    cases ms with
    | nil => exact absurd rfl hne
    | cons m ms =>
      cases ms with
      | nil | cons => exact ⟨_, rfl⟩
  obtain ⟨cs, hcs⟩ := hquote
  rw [hcs] at hmembers
  unfold printObject
  rw [cons_append, append_assoc, singleton_append, hcs, parseValue, skipSpace_cons (by decide)]
  dsimp only
  rw [if_pos rfl, skipSpace_cons (by decide)]
  dsimp only
  rw [if_neg (by decide), hmembers]
  rfl

end Json
