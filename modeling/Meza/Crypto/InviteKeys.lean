import Mathlib.Algebra.Order.Ring.Rat
import Meza.Lib.Aead
import Meza.Lib.BoundedMap
import Meza.Store.Schema

/-! # Keys that come with an invite

    Whoever makes an invite can add the keys of the server's channels to it,
    encrypted under a secret in the link. Who joins decrypts them into the own
    cache of channel keys, as they are: the channels are not compared with the
    server's, a label becomes whatever number it denotes, a key that is cached
    is replaced, and what no longer fits is pruned. -/

namespace Meza.Crypto.InviteKeys
open BoundedMap List Option

open Aead (Bytes)
open Store (ID)

/-! ## Section 1: The cache -/

/-- The numbers of the language that compare: fractions and the infinite ones. -/
abbrev Ordered := WithBot (WithTop ℚ)

/-- Versions are numbers. NaN is put below all others, which the code does not rely on. -/
abbrev Number := WithBot Ordered

def nan : Number := ⊥

def Number.ofNat (n : ℕ) : Number := (((n : ℚ) : WithTop ℚ) : Ordered)

def IsPositiveInteger (v : Number) : Prop := ∃ n : ℕ, 0 < n ∧ v = .ofNat n

theorem not_isPositiveInteger_nan : ¬ IsPositiveInteger nan := by
  rintro ⟨n, -, h⟩
  exact WithBot.bot_ne_coe h

/-- `[…].sort((a, b) => a - b)`: an order is promised where all differences are numbers. -/
structure NumericSort where
  sort : List Number → List Number
  perm : ∀ l, (sort l).Perm l
  sorted : ∀ l, (∀ v ∈ l, v ≠ nan) → (sort l).Pairwise (· ≤ ·)

abbrev VersionMap := Map Number Bytes

abbrev KeyCache := ID → VersionMap

def maxVersionsPerChannel : Nat := 3

def setCachedKey (order : NumericSort) (cache : KeyCache) (channelID : ID) (version : Number)
    (key : Bytes) : KeyCache :=
  Function.update cache channelID
    (put order.sort maxVersionsPerChannel (cache channelID) version key)

def getLatestKeyVersion (cache : KeyCache) (channelID : ID) : Option Number :=
  if (cache channelID).keys.isEmpty then none
  else some ((cache channelID).keys.foldl max (.ofNat 0))

/-! ## Section 2: The import -/

/-- `Object.entries` of the bundle, with those of its records. -/
abbrev Bundle := List (ID × List (String × String))

section Import

-- `Number(label)`, and `base64ToBytes`, which throws where a string is not base64
variable (number : String → Number) (base64ToBytes : String → Option Bytes)

/-- The inner loop, and whether it ends without an exception. -/
def importVersions (order : NumericSort) (cache : KeyCache) (channelID : ID) :
    List (String × String) → KeyCache × Bool
  | [] => (cache, true)
  | (version, keyB64) :: versions =>
    match base64ToBytes keyB64 with
    | none => (cache, false)
    | some key =>
      importVersions order (setCachedKey order cache channelID (number version) key) channelID
        versions

/-- What was set before an exception stays. -/
def importChannelKeys (order : NumericSort) (cache : KeyCache) : Bundle → KeyCache × Bool
  | [] => (cache, true)
  | (channelID, versions) :: keys =>
    match importVersions number base64ToBytes order cache channelID versions with
    | (cache', false) => (cache', false)
    | (cache', true) => importChannelKeys order cache' keys

/-- The bundle is there if the invite has one and it can be decrypted and parsed. An
    exception is caught. -/
def joinServer (order : NumericSort) (cache : KeyCache) (bundle : Option Bundle) : KeyCache :=
  match bundle with
  | none => cache
  | some keys => (importChannelKeys number base64ToBytes order cache keys).1

/-! ## Section 3: What joining must leave alone -/

/-- What is cached stays, what is new belongs to the channels of the server. -/
structure Keeps (cache cache' : KeyCache) (channels : List ID) : Prop where
  kept : ∀ channelID version key, (cache channelID).lookup version = some key →
    (cache' channelID).lookup version = some key
  added : ∀ channelID version, version ∈ cache' channelID → version ∉ cache channelID →
    channelID ∈ channels ∧ IsPositiveInteger version
  latest : ∀ channelID, channelID ∉ channels →
    getLatestKeyVersion cache' channelID = getLatestKeyVersion cache channelID

/-- However the engine sorts versions that do not compare. -/
def Safe (cache : KeyCache) (bundle : Option Bundle) (channels : List ID) : Prop :=
  ∀ order : NumericSort, Keeps cache (joinServer number base64ToBytes order cache bundle) channels

/-- The entries of one channel, up to the first of the bundle whose key is not base64. -/
def decodeEntries : List (ID × String × String) → List (ID × Number × Bytes)
  | [] => []
  | (channelID, version, keyB64) :: entries =>
    match base64ToBytes keyB64 with
    | none => []
    | some key => (channelID, number version, key) :: decodeEntries entries

def entries (bundle : Bundle) : List (ID × String × String) :=
  bundle.flatMap fun e => e.2.map fun v => (e.1, v.1, v.2)

def ofChannel (es : List (ID × Number × Bytes)) (channelID : ID) : List (Number × Bytes) :=
  (es.filter fun e => e.1 = channelID).map (·.2)

def entriesFor (bundle : Bundle) (channelID : ID) : List (Number × Bytes) :=
  ofChannel (decodeEntries number base64ToBytes (entries bundle)) channelID

end Import

/-- How many versions, cached or imported, are greater. -/
def newer (m : VersionMap) (es : List (Number × Bytes)) (version : Number) : Nat :=
  Retention.above (allKeys m es) version

/-- What the entries of a channel may be: a cached version has fewer than three newer ones, and
    the last entry for it has the same key; another version is not NaN, and a positive integer
    of a channel of the server unless three versions are newer. -/
structure HarmlessFor (m : VersionMap) (es : List (Number × Bytes)) (mine : Prop) : Prop where
  cached : ∀ version key, m.lookup version = some key →
    newer m es version < maxVersionsPerChannel ∧ ∀ key' ∈ lastOf es version, key' = key
  others : ∀ version ∈ es.map Prod.fst, version ∉ m →
    version = nan ∨ newer m es version < maxVersionsPerChannel → mine ∧ IsPositiveInteger version

def Harmless (number : String → Number) (base64ToBytes : String → Option Bytes)
    (cache : KeyCache) (bundle : Option Bundle) (channels : List ID) : Prop :=
  ∀ keys ∈ bundle, ∀ channelID, entriesFor number base64ToBytes keys channelID ≠ [] →
    HarmlessFor (cache channelID) (entriesFor number base64ToBytes keys channelID)
      (channelID ∈ channels)

/-! ## Section 4: The loops, channel by channel -/

section Loops

variable {number : String → Number} {base64ToBytes : String → Option Bytes} {order : NumericSort}

/-- Some insertions one after the other. -/
def setAll (order : NumericSort) (cache : KeyCache) (es : List (ID × Number × Bytes)) : KeyCache :=
  es.foldl (fun cache e => setCachedKey order cache e.1 e.2.1 e.2.2) cache

theorem importVersions_eq (cache : KeyCache) (channelID : ID) (versions : List (String × String))
    (rest : List (ID × String × String)) :
    setAll order cache (decodeEntries number base64ToBytes
        (versions.map (fun v => (channelID, v.1, v.2)) ++ rest)) =
      match importVersions number base64ToBytes order cache channelID versions with
      | (cache', false) => cache'
      | (cache', true) => setAll order cache' (decodeEntries number base64ToBytes rest) := by
  induction versions generalizing cache with
  | nil => rfl
  | cons v versions ih =>
    rw [map_cons, cons_append, decodeEntries, importVersions]
    cases base64ToBytes v.2 with
    | none => rfl
    | some key => exact ih (setCachedKey order cache channelID (number v.1) key)

theorem importChannelKeys_eq (cache : KeyCache) (keys : Bundle) :
    (importChannelKeys number base64ToBytes order cache keys).1 =
      setAll order cache (decodeEntries number base64ToBytes (entries keys)) := by
  induction keys generalizing cache with
  | nil => rfl
  | cons e keys ih =>
    have hsplit : entries (e :: keys) =
        e.2.map (fun v => (e.1, v.1, v.2)) ++ entries keys := flatMap_cons
    rw [hsplit, importVersions_eq, importChannelKeys]
    cases hinner : importVersions number base64ToBytes order cache e.1 e.2 with
    | mk cache' ended =>
      cases ended with
      | false => rfl
      | true => exact ih cache'

/-- A channel's versions are those of its own entries. -/
theorem setAll_channel (cache : KeyCache) (es : List (ID × Number × Bytes)) (channelID : ID) :
    setAll order cache es channelID =
      putAll order.sort maxVersionsPerChannel (cache channelID) (ofChannel es channelID) := by
  induction es generalizing cache with
  | nil => rfl
  | cons e es ih =>
    show setAll order (setCachedKey order cache e.1 e.2.1 e.2.2) es channelID = _
    rw [ih]
    by_cases he : e.1 = channelID
    · subst he
      have hfilter : ofChannel (e :: es) e.1 = e.2 :: ofChannel es e.1 := by simp [ofChannel]
      rw [hfilter]
      unfold setCachedKey
      rw [Function.update_self]
      rfl
    · have hfilter : ofChannel (e :: es) channelID = ofChannel es channelID := by
        simp [ofChannel, he]
      rw [hfilter]
      unfold setCachedKey
      rw [Function.update_of_ne (Ne.symm he)]

theorem joinServer_channel (cache : KeyCache) (keys : Bundle) (channelID : ID) :
    joinServer number base64ToBytes order cache (some keys) channelID =
      putAll order.sort maxVersionsPerChannel (cache channelID)
        (entriesFor number base64ToBytes keys channelID) := by
  show (importChannelKeys number base64ToBytes order cache keys).1 channelID = _
  rw [importChannelKeys_eq, setAll_channel]
  rfl

end Loops

/-! ## Section 5: One channel -/

section Channel

variable {m : VersionMap} {es : List (Number × Bytes)} {mine : Prop}

/-- The engine's order puts versions that compare in order. -/
theorem sortsOn_of_numbers (order : NumericSort) {keys : Finset Number} (h : nan ∉ keys) :
    SortsOn order.sort keys := by
  intro l hl
  refine ⟨order.perm l, order.sorted l ?_⟩
  rintro v hv rfl
  exact h (hl nan hv)

theorem mem_putAll_of_harmless (order : NumericSort) (hne : es ≠ []) (h : HarmlessFor m es mine)
    (version : Number) :
    (version ∈ m → version ∈ putAll order.sort maxVersionsPerChannel m es) ∧
      (version ∈ putAll order.sort maxVersionsPerChannel m es → version ∉ m →
        mine ∧ IsPositiveInteger version) := by
  have hfew (hm : version ∈ m) : newer m es version < maxVersionsPerChannel := by
    obtain ⟨key, hkey⟩ := isSome_iff_exists.mp (AList.lookup_isSome.mpr hm)
    exact (h.cached version key hkey).1
  have hnamed (hin : version ∈ allKeys m es) (hm : version ∉ m) :
      version ∈ es.map Prod.fst := (mem_allKeys.mp hin).resolve_left hm
  by_cases hnan : nan ∈ allKeys m es
  · -- NaN is cached and has all other versions above it: there are three at most
    have hcached : nan ∈ m := by
      rcases mem_allKeys.mp hnan with hm | hes
      · exact hm
      · by_contra hm
        exact not_isPositiveInteger_nan (h.others nan hes hm (Or.inl rfl)).2
    obtain ⟨key, hkey⟩ := isSome_iff_exists.mp (AList.lookup_isSome.mpr hcached)
    have hrest : (allKeys m es).filter (nan < ·) = (allKeys m es).erase nan := by
      ext w
      rw [Finset.mem_filter, Finset.mem_erase, and_comm]
      exact and_congr_left fun _ => bot_lt_iff_ne_bot
    have hroom : (allKeys m es).card ≤ maxVersionsPerChannel := by
      have habove := (h.cached nan key hkey).1
      unfold newer Retention.above at habove
      rw [hrest, Finset.card_erase_of_mem hnan] at habove
      omega
    rw [putAll_eq_writeAll hroom, mem_writeAll]
    refine ⟨Or.inl, ?_⟩
    intro hin hm
    refine h.others version (hin.resolve_left hm) hm (Or.inr ?_)
    exact (Retention.above_lt_card (mem_allKeys.mpr hin)).trans_le hroom
  · rw [mem_putAll_of_sorts hne (sortsOn_of_numbers order hnan)]
    constructor
    · intro hm
      exact ⟨mem_allKeys.mpr (Or.inl hm), hfew hm⟩
    · rintro ⟨hin, habove⟩ hm
      exact h.others version (hnamed hin hm) hm (Or.inr habove)

theorem lookup_putAll_of_harmless (order : NumericSort) (hne : es ≠ []) (h : HarmlessFor m es mine)
    {version : Number} {key : Bytes} (hkey : m.lookup version = some key) :
    (putAll order.sort maxVersionsPerChannel m es).lookup version = some key := by
  have hin := (mem_putAll_of_harmless order hne h version).1 (AList.lookup_isSome.mp
    (isSome_of_mem hkey))
  obtain ⟨key', hkey'⟩ := isSome_iff_exists.mp (AList.lookup_isSome.mpr hin)
  have hwritten := lookup_putAll_of_some hkey'
  rw [lookup_writeAll, hkey] at hwritten
  cases hlast : lastOf es version with
  | none =>
    rw [hlast] at hwritten
    rw [hkey']
    exact hwritten.symm
  | some last =>
    rw [hlast] at hwritten
    rw [hkey', ← hwritten]
    exact congrArg some ((h.cached version key hkey).2 last hlast)

/-! ### Two ways to sort NaN -/

/-- An order that puts NaN first. -/
def nanFirst : NumericSort where
  sort := insertionSort (· ≤ ·)
  perm := perm_insertionSort _
  sorted l _ := pairwise_insertionSort _ l

theorem sortsOn_nanFirst (keys : Finset Number) : SortsOn nanFirst.sort keys :=
  sortsOn_insertionSort keys

def sortNanLast (l : List Number) : List Number :=
  (l.filter (· ≠ nan)).insertionSort (· ≤ ·) ++ l.filter (· = nan)

theorem perm_sortNanLast (l : List Number) : (sortNanLast l).Perm l := by
  have hsort := (perm_insertionSort (· ≤ ·) (l.filter (· ≠ nan))).append_right (l.filter (· = nan))
  refine hsort.trans ?_
  have hsplit := filter_append_perm (fun v => decide (v ≠ nan)) l
  simpa using hsplit

theorem sorted_sortNanLast (l : List Number) (h : ∀ v ∈ l, v ≠ nan) :
    (sortNanLast l).Pairwise (· ≤ ·) := by
  have hnone : l.filter (· = nan) = [] := by
    rw [filter_eq_nil_iff]
    intro v hv heq
    exact h v hv (of_decide_eq_true heq)
  unfold sortNanLast
  rw [hnone, append_nil]
  exact pairwise_insertionSort _ _

def nanLast : NumericSort := ⟨sortNanLast, perm_sortNanLast, sorted_sortNanLast⟩

theorem sortNanLast_last (l : List Number) (hnodup : l.Nodup) (h : nan ∈ l) :
    ∃ front, sortNanLast l = front ++ [nan] ∧ nan ∉ front := by
  refine ⟨(l.filter (· ≠ nan)).insertionSort (· ≤ ·), ?_, ?_⟩
  · unfold sortNanLast
    congr 1
    rw [filter_eq, count_eq_one_of_mem hnodup h]
    rfl
  · rw [mem_insertionSort, mem_filter]
    rintro ⟨-, hne⟩
    exact of_decide_eq_true hne rfl

theorem harmlessFor_of_keeps (hne : es ≠ []) (hfirst : ∀ version key, m.lookup version = some key →
    (putAll nanFirst.sort maxVersionsPerChannel m es).lookup version = some key)
    (hadded : ∀ order : NumericSort, ∀ version,
    version ∈ putAll order.sort maxVersionsPerChannel m es → version ∉ m →
    mine ∧ IsPositiveInteger version) : HarmlessFor m es mine where
  cached := by
    intro version key hkey
    have hkept := hfirst version key hkey
    have hin := AList.lookup_isSome.mp (isSome_of_mem hkept)
    rw [mem_putAll_of_sorts hne (sortsOn_nanFirst _)] at hin
    refine ⟨hin.2, ?_⟩
    intro key' hlast
    have hwritten := lookup_putAll_of_some hkept
    rw [lookup_writeAll, mem_def.mp hlast] at hwritten
    exact some.inj hwritten
  others := by
    intro version hes hm hleft
    rcases hleft with rfl | habove
    · refine hadded nanLast nan ?_ hm
      exact mem_putAll_of_last (by decide) sortNanLast_last (Or.inr hes)
    · refine hadded nanFirst version ?_ hm
      rw [mem_putAll_of_sorts hne (sortsOn_nanFirst _)]
      exact ⟨mem_allKeys.mpr (Or.inr hes), habove⟩

end Channel

/-! ## Section 6: When joining is safe -/

theorem getLatestKeyVersion_congr {cache cache' : KeyCache} {channelID : ID}
    (h : ∀ version, version ∈ cache' channelID ↔ version ∈ cache channelID) :
    getLatestKeyVersion cache' channelID = getLatestKeyVersion cache channelID := by
  have hperm : (cache' channelID).keys.Perm (cache channelID).keys :=
    (perm_ext_iff_of_nodup (cache' channelID).keys_nodup (cache channelID).keys_nodup).mpr h
  unfold getLatestKeyVersion
  rw [hperm.isEmpty_eq, hperm.foldl_eq]

theorem safe_iff (number : String → Number) (base64ToBytes : String → Option Bytes)
    (cache : KeyCache) (bundle : Option Bundle) (channels : List ID) :
    Safe number base64ToBytes cache bundle channels ↔
      Harmless number base64ToBytes cache bundle channels := by
  cases bundle with
  | none =>
    refine iff_of_true ?_ ?_
    · intro order
      exact ⟨fun _ _ _ h => h, fun _ _ h hnot => absurd h hnot, fun _ _ => rfl⟩
    · intro keys hkeys
      cases hkeys
  | some keys =>
    constructor
    · intro h keys' hkeys' channelID hne
      cases hkeys'
      refine harmlessFor_of_keeps hne ?_ ?_
      · intro version key hkey
        have hkept := (h nanFirst).kept channelID version key hkey
        rwa [joinServer_channel] at hkept
      · intro order version hin hm
        refine (h order).added channelID version ?_ hm
        rwa [joinServer_channel]
    · intro h order
      have hchannel := @joinServer_channel number base64ToBytes order cache keys
      have hsame {channelID : ID} (hnil : entriesFor number base64ToBytes keys channelID = []) :
          joinServer number base64ToBytes order cache (some keys) channelID = cache channelID := by
        rw [hchannel, hnil]
        rfl
      have hkept : ∀ channelID version key, (cache channelID).lookup version = some key →
          (joinServer number base64ToBytes order cache (some keys) channelID).lookup version =
            some key := by
        intro channelID version key hkey
        by_cases hnil : entriesFor number base64ToBytes keys channelID = []
        · rw [hsame hnil]
          exact hkey
        · rw [hchannel]
          exact lookup_putAll_of_harmless order hnil (h keys rfl channelID hnil) hkey
      have hadded : ∀ channelID version,
          version ∈ joinServer number base64ToBytes order cache (some keys) channelID →
          version ∉ cache channelID → channelID ∈ channels ∧ IsPositiveInteger version := by
        intro channelID version hin hnot
        by_cases hnil : entriesFor number base64ToBytes keys channelID = []
        · rw [hsame hnil] at hin
          exact absurd hin hnot
        · rw [hchannel] at hin
          exact (mem_putAll_of_harmless order hnil (h keys rfl channelID hnil) version).2 hin hnot
      refine ⟨hkept, hadded, ?_⟩
      intro channelID hforeign
      refine getLatestKeyVersion_congr ?_
      intro version
      constructor
      · intro hin
        by_contra hnot
        exact hforeign (hadded channelID version hin hnot).1
      · intro hin
        obtain ⟨key, hkey⟩ := isSome_iff_exists.mp (AList.lookup_isSome.mpr hin)
        exact AList.lookup_isSome.mp (isSome_of_mem (hkept channelID version key hkey))

/-! ### An invite to another server's channel -/

def someNumber (label : String) : Number :=
  if label = "1" then .ofNat 1 else if label = "9" then .ofNat 9 else nan

def someBase64 (keyB64 : String) : Option Bytes :=
  if keyB64 = "BwcH" then some [7, 7, 7] else none

/-- One key of a channel of another server. -/
def loungeOnly : KeyCache := fun channelID =>
  if channelID = "lounge" then (∅ : VersionMap).insert (.ofNat 1) [5, 5, 5] else ∅

/-- The invite is to a server with the one channel `hall`. -/
def loungeKeys : Bundle := [("lounge", [("1", "BwcH"), ("9", "BwcH")])]

/-- The cached key is replaced, and the latest version is the inviter's. -/
theorem safe_fails_lounge :
    (loungeOnly "lounge").lookup (.ofNat 1) = some [5, 5, 5] ∧
      (joinServer someNumber someBase64 nanFirst loungeOnly (some loungeKeys) "lounge").lookup
        (.ofNat 1) = some [7, 7, 7] ∧
      getLatestKeyVersion (joinServer someNumber someBase64 nanFirst loungeOnly (some loungeKeys))
        "lounge" = some (.ofNat 9) ∧
      ¬ Safe someNumber someBase64 loungeOnly (some loungeKeys) ["hall"] := by
  have hbefore : (loungeOnly "lounge").lookup (.ofNat 1) = some [5, 5, 5] := by decide
  have hafter : (joinServer someNumber someBase64 nanFirst loungeOnly (some loungeKeys)
      "lounge").lookup (.ofNat 1) = some [7, 7, 7] := by decide
  refine ⟨hbefore, hafter, by decide, ?_⟩
  intro h
  have hkept := (h nanFirst).kept "lounge" (.ofNat 1) [5, 5, 5] hbefore
  revert hkept
  decide

end Meza.Crypto.InviteKeys
