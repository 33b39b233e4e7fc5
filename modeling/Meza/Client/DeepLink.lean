import Mathlib.Data.List.DropRight
import Meza.Crypto.MessageContent
import Meza.Lib.Base64

/-! # Invite links

    `deep-link.ts` reads a link `meza://i/host/code#secret`, or an older one that
    has the secret in its query, and writes such links. The secret is the base64url of
    `base64url.ts`. -/

namespace Meza.Client.DeepLink
open List Base64 Crypto.MessageContent

open Option (bind_eq_some_iff or_eq_some_iff some_inj)
open Utf16 (Text)

/-! ## Section 1: Base64url -/

def unit (c : Char) : UInt16 := .ofNat c.toNat

def alphabet : Text := text "ABCDEFGHIJKLMNOPQRSTUVWXYZabcdefghijklmnopqrstuvwxyz0123456789+/"

def digit (n : Nat) : UInt16 := alphabet.getD n 0

def value (u : UInt16) : Option Nat := alphabet.idxOf? u

def padding (length : Nat) : Text := replicate ((4 - length % 4) % 4) (unit '=')

/-- `btoa` of the string with the bytes as its units. -/
def btoa (bytes : List UInt8) : Text :=
  (digits bytes).map digit ++ padding (digits bytes).length

def isWhitespace (u : UInt16) : Bool := [9, 10, 12, 13, 32].contains u

/-- At most two `=` are dropped, where the length allows for them. -/
def unpadded (data : Text) : Text :=
  if data.length % 4 = 0 then
    data.take (data.length - min 2 (data.length - (data.rdropWhile (· = unit '=')).length))
  else data

/-- `atob`, with the units of its result as bytes; it throws where this is `none`. -/
def atob (data : Text) : Option (List UInt8) :=
  let data := unpadded (data.filter (!isWhitespace ·))
  if data.length % 4 = 1 then none else (data.mapM value).map bytes

def replaceAll (a b : Char) (t : Text) : Text := t.map fun u => if u = unit a then unit b else u

def bytesToBase64Url (bytes : List UInt8) : Text :=
  (replaceAll '/' '_' (replaceAll '+' '-' (btoa bytes))).rdropWhile (· = unit '=')

def base64UrlToBytes (b64url : Text) : Option (List UInt8) :=
  let b64 := replaceAll '_' '/' (replaceAll '-' '+' b64url)
  atob (b64 ++ padding b64.length)

/-! ## Section 2: Query strings -/

def hex (b : UInt8) : Option UInt8 :=
  if 0x30 ≤ b ∧ b ≤ 0x39 then some (b - 0x30)
  else if 0x41 ≤ b ∧ b ≤ 0x46 then some (b - 0x37)
  else if 0x61 ≤ b ∧ b ≤ 0x66 then some (b - 0x57)
  else none

def percentDecode : List UInt8 → List UInt8
  | [] => []
  | b :: bs =>
    match b, bs with
    | 0x25, h :: l :: rest =>
      match hex h, hex l with
      | some high, some low => (high * 16 + low) :: percentDecode rest
      | _, _ => 0x25 :: percentDecode (h :: l :: rest)
    | b, bs => b :: percentDecode bs

/-- A name or a value: `+` is a space. -/
def formDecode (bytes : List UInt8) : List Char :=
  Utf8.decode (percentDecode (bytes.map fun b => if b = 0x2B then 0x20 else b))

/-- `new URLSearchParams(query).get(name)`, for a query without a `?`. -/
def searchParam (query : Text) (name : String) : Option Text :=
  let sequences := ((Utf8.encode (Utf16.toScalars query)).splitOn 0x26).filter (· ≠ [])
  let named := sequences.find? fun bytes =>
    formDecode (bytes.takeWhile (· ≠ 0x3D)) = name.toList
  named.map fun bytes => Utf16.encode (formDecode (bytes.dropWhile (· ≠ 0x3D)).tail)

/-! ## Section 3: Links -/

structure DeepLinkInvite where
  host : Text
  code : Text
  secret : Option Text := none
  deriving DecidableEq

def isAlphanumeric (u : UInt16) : Bool :=
  (unit 'a' ≤ u && u ≤ unit 'z') || (unit 'A' ≤ u && u ≤ unit 'Z') ||
    (unit '0' ≤ u && u ≤ unit '9')

/-- `/^[a-z0-9]([a-z0-9.-]*[a-z0-9])?$/i`. -/
def isHost (host : Text) : Bool :=
  host.head?.any isAlphanumeric && host.getLast?.any isAlphanumeric &&
    host.all fun u => isAlphanumeric u || u = unit '.' || u = unit '-'

/-- `/^[a-z0-9]{8}$/i`. -/
def isCode (code : Text) : Bool := code.length = 8 && code.all isAlphanumeric

def scheme : Text := text "meza://i/"

/-- `t || undefined`. -/
def nonEmpty (t : Option Text) : Option Text := t.filter (· ≠ [])

def parseDeepLink (url : Text) : Option DeepLinkInvite :=
  if scheme.isPrefixOf url then
    let parts := (url.drop scheme.length).splitOn (unit '?')
    let beforeQuery := parts.headD []
    let queryPart := parts[1]?
    let pieces := beforeQuery.splitOn (unit '#')
    let pathPart := pieces.headD []
    let fragmentPart := pieces[1]?
    match pathPart.splitOn (unit '/') with
    | host :: code :: _ =>
      if isHost host ∧ isCode code then
        let secret := (nonEmpty fragmentPart).or
          ((nonEmpty queryPart).bind fun query => nonEmpty (searchParam query "s"))
        some { host, code, secret }
      else none
    | _ => none
  else none

def buildDeepLinkUrl (invite : DeepLinkInvite) : Text :=
  scheme ++ invite.host ++ unit '/' :: invite.code ++
    (match nonEmpty invite.secret with
    | some secret => unit '#' :: secret
    | none => [])

/-- A link keeps the bytes of its secret. -/
def KeepsSecrets : Prop :=
  ∀ host code bytes, isHost host = true → isCode code = true → bytes ≠ [] → ∃ secret,
    parseDeepLink (buildDeepLinkUrl { host, code, secret := some (bytesToBase64Url bytes) }) =
        some { host, code, secret := some secret } ∧
      base64UrlToBytes secret = some bytes

/-- What a link is read as is what it is written from. -/
def Stable (invite : DeepLinkInvite) : Prop :=
  parseDeepLink (buildDeepLinkUrl invite) = some invite

/-! ## Section 4: The bytes of a secret -/

variable {bytes : List UInt8} {ds : List Nat}

/-- What can be checked for each digit. -/
theorem of_digits {f : Nat → UInt16} {P : UInt16 → Prop} (h : ∀ n < 64, P (f n)) :
    ∀ u ∈ (digits bytes).map f, P u :=
  forall_mem_map.mpr fun n hn => h n (digits_lt bytes n hn)

theorem mapM_value (h : ∀ n ∈ ds, n < 64) : (ds.map digit).mapM value = some ds := by
  have hvalue : ∀ n < 64, value (digit n) = some n := by decide +kernel
  induction ds with
  | nil => rfl
  | cons n ds ih =>
    obtain ⟨hn, hds⟩ := forall_mem_cons.mp h
    rw [map_cons, mapM_cons, hvalue n hn, ih hds]
    rfl

theorem rdropWhile_padding {t : Text} (h : ∀ u ∈ t, u ≠ unit '=') (length : Nat) :
    (t ++ padding length).rdropWhile (· = unit '=') = t := by
  unfold padding
  induction (4 - length % 4) % 4 with
  | zero =>
    rw [replicate_zero, append_nil, rdropWhile_eq_self_iff]
    exact fun hne hlast => h _ (getLast_mem hne) (of_decide_eq_true hlast)
  | succ k ih => rw [replicate_succ', ← append_assoc, rdropWhile_concat_pos _ _ _ (by simp), ih]

theorem atob_btoa : atob (btoa bytes) = some bytes := by
  have hplain : (btoa bytes).filter (!isWhitespace ·) = btoa bytes := by
    rw [filter_eq_self, btoa, forall_mem_append]
    refine ⟨of_digits (by decide +kernel), fun u hu => ?_⟩
    rw [eq_of_mem_replicate hu]
    rfl
  have hmod := length_digits bytes
  have hlength : (btoa bytes).length =
      (digits bytes).length + (4 - (digits bytes).length % 4) % 4 := by
    rw [btoa, length_append, length_map, padding, length_replicate]
  have hdigits : unpadded (btoa bytes) = (digits bytes).map digit := by
    unfold unpadded
    rw [if_pos (by omega), btoa, rdropWhile_padding (of_digits (by decide +kernel)), ← btoa,
      hlength, length_map]
    have htake : (digits bytes).length + (4 - (digits bytes).length % 4) % 4 -
        min 2 ((digits bytes).length + (4 - (digits bytes).length % 4) % 4 -
          (digits bytes).length) = ((digits bytes).map digit).length := by
      rw [length_map]
      omega
    rw [htake, btoa, take_left]
  unfold atob
  simp only [hplain, hdigits, length_map]
  rw [if_neg hmod, mapM_value (digits_lt bytes)]
  exact congrArg some (bytes_digits bytes)

theorem replaceAll_append (a b : Char) (t t' : Text) :
    replaceAll a b (t ++ t') = replaceAll a b t ++ replaceAll a b t' := map_append

theorem bytesToBase64Url_eq : bytesToBase64Url bytes =
    replaceAll '/' '_' (replaceAll '+' '-' ((digits bytes).map digit)) := by
  have hpadding (length : Nat) :
      replaceAll '/' '_' (replaceAll '+' '-' (padding length)) = padding length := by
    simp only [replaceAll, padding, map_replicate]
    rfl
  rw [bytesToBase64Url, btoa, replaceAll_append, replaceAll_append, hpadding]
  refine rdropWhile_padding ?_ _
  simp only [replaceAll, map_map]
  exact of_digits (by decide +kernel)

theorem base64UrlToBytes_bytesToBase64Url (bytes : List UInt8) :
    base64UrlToBytes (bytesToBase64Url bytes) = some bytes := by
  have hback : replaceAll '_' '/' (replaceAll '-' '+' (bytesToBase64Url bytes)) =
      (digits bytes).map digit := by
    rw [bytesToBase64Url_eq]
    have hdigit : ∀ n < 64, ((fun u => if u = unit '_' then unit '/' else u) ∘
        (fun u => if u = unit '-' then unit '+' else u) ∘
          (fun u => if u = unit '/' then unit '_' else u) ∘
            (fun u => if u = unit '+' then unit '-' else u) ∘ digit) n = digit n := by
      decide +kernel
    simp only [replaceAll, map_map]
    exact map_congr_left fun n hn => hdigit n (digits_lt bytes n hn)
  unfold base64UrlToBytes
  simp only [hback, length_map]
  exact atob_btoa

/-! ## Section 5: Reading a link that was written -/

theorem nonEmpty_ne (t : Option Text) : nonEmpty t ≠ some [] := by
  cases t <;> simp [nonEmpty, Option.filter]

theorem nonEmpty_eq_self {t : Option Text} : nonEmpty t = t ↔ t ≠ some [] := by
  cases t <;> simp [nonEmpty, Option.filter]

theorem unit_notMem_host {host : Text} {u : UInt16} (h : isHost host = true)
    (hu : isAlphanumeric u = false ∧ u ≠ unit '.' ∧ u ≠ unit '-') : u ∉ host := by
  intro hmem
  simp only [isHost, Bool.and_eq_true, all_eq_true] at h
  simpa [hu] using h.2 u hmem

theorem unit_notMem_code {code : Text} {u : UInt16} (h : isCode code = true)
    (hu : isAlphanumeric u = false) : u ∉ code := by
  intro hmem
  simp only [isCode, Bool.and_eq_true, all_eq_true] at h
  simpa [hu] using h.2 u hmem

/-- A link is read as it is written, if nothing of its secret is a delimiter. -/
theorem stable {host code : Text} {secret : Option Text} (hhost : isHost host = true)
    (hcode : isCode code = true) (hsecret : nonEmpty secret = secret)
    (hplain : ∀ s ∈ secret, unit '?' ∉ s ∧ unit '#' ∉ s) : Stable { host, code, secret } := by
  have hpath : ∀ u, isAlphanumeric u = false ∧ u ≠ unit '.' ∧ u ≠ unit '-' →
      u ≠ unit '/' → u ∉ host ++ unit '/' :: code := by
    intro u hu hslash hmem
    rcases mem_append.mp hmem with hmem | hmem
    · exact unit_notMem_host hhost hu hmem
    · exact (mem_cons.mp hmem).elim hslash (unit_notMem_code hcode hu.1)
  have hquery := hpath (unit '?') (by decide) (by decide)
  have hhash := hpath (unit '#') (by decide) (by decide)
  have hsegments : (host ++ unit '/' :: code).splitOn (unit '/') = [host, code] := by
    rw [splitOn_append_cons_self_of_not_mem (unit_notMem_host hhost (by decide)),
      splitOn_eq_singleton (unit_notMem_code hcode (by decide))]
  unfold Stable buildDeepLinkUrl parseDeepLink
  rw [hsecret, append_assoc, append_assoc, if_pos <| isPrefixOf_iff_prefix.mpr (prefix_append _ _),
    drop_left, ← append_assoc]
  cases secret with
  | none =>
    simp only [append_nil, splitOn_eq_singleton hquery, headD_cons, splitOn_eq_singleton hhash,
      hsegments, hhost, hcode]
    rfl
  | some s =>
    have hs := hplain s rfl
    have hwhole : unit '?' ∉ (host ++ unit '/' :: code) ++ unit '#' :: s := by
      intro hmem
      rcases mem_append.mp hmem with hmem | hmem
      · exact hquery hmem
      · exact (mem_cons.mp hmem).elim (by decide) hs.1
    simp only [splitOn_eq_singleton hwhole, headD_cons,
      splitOn_append_cons_self_of_not_mem hhash, splitOn_eq_singleton hs.2, hsegments, hhost,
      hcode]
    simp [hsecret]

/-- What is read is well formed. -/
theorem parseDeepLink_some {url : Text} {invite : DeepLinkInvite}
    (h : parseDeepLink url = some invite) : isHost invite.host = true ∧
      isCode invite.code = true ∧ nonEmpty invite.secret = invite.secret := by
  simp only [parseDeepLink] at h
  split at h
  · split at h
    · split at h
      · rename_i hvalid
        cases h
        refine ⟨hvalid.1, hvalid.2, nonEmpty_eq_self.mpr fun h => ?_⟩
        rcases or_eq_some_iff.mp h with h | ⟨-, h⟩
        · exact nonEmpty_ne _ h
        · obtain ⟨query, -, h⟩ := bind_eq_some_iff.mp h
          exact nonEmpty_ne _ h
      · cases h
    · cases h
  · cases h

/-- A link that is written and read keeps the bytes of its secret, and what a link is read as is
    read again from what is written, if nothing of its secret is a delimiter. -/
theorem links_roundTrip : KeepsSecrets ∧ ∀ url invite, parseDeepLink url = some invite →
    (∀ secret ∈ invite.secret, unit '?' ∉ secret ∧ unit '#' ∉ secret) → Stable invite := by
  constructor
  · intro host code bytes hhost hcode hne
    have hback := base64UrlToBytes_bytesToBase64Url bytes
    refine ⟨_, stable hhost hcode ?_ ?_, hback⟩
    · -- only no bytes have the empty secret
      refine nonEmpty_eq_self.mpr fun hnil => hne ?_
      rw [some_inj.mp hnil] at hback
      exact (some_inj.mp hback).symm
    · rintro secret ⟨⟩
      rw [bytesToBase64Url_eq]
      simp only [replaceAll, map_map]
      exact ⟨fun h => of_digits (P := (· ≠ unit '?')) (by decide +kernel) _ h rfl,
        fun h => of_digits (P := (· ≠ unit '#')) (by decide +kernel) _ h rfl⟩
  · intro url invite h hplain
    obtain ⟨hhost, hcode, hsecret⟩ := parseDeepLink_some h
    exact stable hhost hcode hsecret hplain

theorem links_roundTrip_legacy : Stable ⟨text "h", text "abcdefgh", some (text "aQ")⟩ :=
  links_roundTrip.2 (text "meza://i/h/abcdefgh?s=aQ") _ (by decide +kernel) (by decide +kernel)

/-- The secret `a#b` of an older link is read as `a` from the link that is written from it. -/
theorem not_links_roundTrip : ¬ (KeepsSecrets ∧
    ∀ url invite, parseDeepLink url = some invite → Stable invite) := by
  rintro ⟨-, h⟩
  have hstable := h (text "meza://i/h/abcdefgh?s=a#b")
    { host := text "h", code := text "abcdefgh", secret := some (text "a#b") } (by decide +kernel)
  unfold Stable at hstable
  exact absurd hstable (by decide +kernel)

end Meza.Client.DeepLink
