import Meza.Crypto.Primitives
import Meza.Lib.Dict
import Meza.Lib.Run

/-! # The AES key cache

    `primitives.ts` imports a raw key once for each usage and keeps the
    `CryptoKey`. The key of the cache is made of the first sixteen bytes of the raw
    key, and a raw key has thirty-two. -/

namespace Meza.Crypto.AesKeys
open List Dict

open Aead (Bytes)

/-! ## Section 1: The cache -/

inductive Usage where
  | encrypt
  | decrypt
  deriving DecidableEq

def Usage.name : Usage → List Char
  | .encrypt => ['e', 'n', 'c', 'r', 'y', 'p', 't']
  | .decrypt => ['d', 'e', 'c', 'r', 'y', 'p', 't']

/-- What `importKey` gives, with what it was imported from. -/
structure CryptoKey where
  rawKey : Bytes
  usage : Usage
  deriving DecidableEq

/-- `toString(16).padStart(2, '0')` of a byte. -/
def hexByte (b : UInt8) : List Char :=
  [Nat.digitChar (b.toNat / 16), Nat.digitChar (b.toNat % 16)]

def channelKeyCacheKey (rawKey : Bytes) (usage : Usage) : List Char :=
  (rawKey.take 16).flatMap hexByte ++ ':' :: usage.name

/-- The cache, the calls that wait for `importKey`, and which key was returned for which
    raw key. -/
structure State where
  aesKeyCache : List (List Char × CryptoKey)
  importing : List (Bytes × Usage)
  returned : List (Bytes × CryptoKey)

def initial : State := ⟨[], [], []⟩

def getAesKey (s : State) (rawKey : Bytes) (usage : Usage) : State :=
  match get s.aesKeyCache (channelKeyCacheKey rawKey usage) with
  | some cached => { s with returned := (rawKey, cached) :: s.returned }
  | none => { s with importing := (rawKey, usage) :: s.importing }

inductive Event where
  | getAesKey (rawKey : Bytes) (usage : Usage)
  /-- A waiting call has its key. -/
  | imported (rawKey : Bytes) (usage : Usage)
  | refused (rawKey : Bytes) (usage : Usage)
  | clearAesKeyCache

def step (s : State) : Event → State
  | .getAesKey rawKey usage => getAesKey s rawKey usage
  | .imported rawKey usage =>
    if (rawKey, usage) ∈ s.importing then
      { aesKeyCache := set s.aesKeyCache (channelKeyCacheKey rawKey usage) ⟨rawKey, usage⟩
        importing := s.importing.erase (rawKey, usage)
        returned := (rawKey, ⟨rawKey, usage⟩) :: s.returned }
    else s
  | .refused rawKey usage => { s with importing := s.importing.erase (rawKey, usage) }
  | .clearAesKeyCache => { s with aesKeyCache := [] }

/-- Every key that was returned is of the raw key it was asked for. -/
def Transparent (s : State) : Prop := ∀ x ∈ s.returned, x.2.rawKey = x.1

/-- The cache holds no key, for the usage asked for, of another raw key that begins with the
    same sixteen bytes. -/
def Apart (s : State) : Event → Prop
  | .getAesKey rawKey usage => ∀ x ∈ s.aesKeyCache,
      x.2.usage = usage → x.2.rawKey.take 16 = rawKey.take 16 → x.2.rawKey = rawKey
  | _ => True

/-! ## Section 2: Cache keys -/

theorem flatMap_hexByte_injective {xs ys : Bytes} (h : xs.flatMap hexByte = ys.flatMap hexByte) :
    xs = ys :=
  toHex_injective (congrArg String.ofList h)

theorem channelKeyCacheKey_inj {rawKey rawKey' : Bytes} {usage usage' : Usage} :
    channelKeyCacheKey rawKey usage = channelKeyCacheKey rawKey' usage' ↔
      rawKey.take 16 = rawKey'.take 16 ∧ usage = usage' := by
  constructor
  · intro h
    have hlength : (':' :: usage.name).length = (':' :: usage'.name).length := by
      cases usage <;> cases usage' <;> rfl
    obtain ⟨hbytes, hname⟩ := append_inj' h hlength
    refine ⟨flatMap_hexByte_injective hbytes, ?_⟩
    cases usage <;> cases usage' <;> first | rfl | exact absurd hname (by decide)
  · rintro ⟨htake, rfl⟩
    rw [channelKeyCacheKey, htake, channelKeyCacheKey]

/-! ## Section 3: Runs -/

/-- Every key that was returned is of a raw key that begins as the one it was asked for. -/
def Alike (s : State) : Prop := ∀ x ∈ s.returned, x.2.rawKey.take 16 = x.1.take 16

/-- Every entry stands under the cache key of its own raw key. -/
structure Inv (s : State) : Prop where
  unique : Table.UniqueOn Prod.fst s.aesKeyCache
  keyed : ∀ x ∈ s.aesKeyCache, x.1 = channelKeyCacheKey x.2.rawKey x.2.usage
  alike : Alike s

variable {s : State}

theorem inv_step (s : State) (ev : Event) (h : Inv s) : Inv (step s ev) := by
  cases ev with
  | getAesKey rawKey usage =>
    simp only [step, getAesKey]
    split
    · rename_i cached hget
      have hkey := h.keyed _ (mem_of_get hget)
      exact ⟨h.unique, h.keyed,
        forall_mem_cons.mpr ⟨(channelKeyCacheKey_inj.mp hkey).1.symm, h.alike⟩⟩
    · exact ⟨h.unique, h.keyed, h.alike⟩
  | imported rawKey usage =>
    simp only [step]
    split
    · refine ⟨unique_set h.unique, fun x hx => ?_, forall_mem_cons.mpr ⟨rfl, h.alike⟩⟩
      rcases mem_set hx with rfl | hx
      · rfl
      · exact h.keyed x hx
    · exact h
  | refused rawKey usage => exact ⟨h.unique, h.keyed, h.alike⟩
  | clearAesKeyCache => exact ⟨nodup_nil, by simp [step], h.alike⟩

theorem inv_initial : Inv initial := ⟨nodup_nil, by simp [initial], by simp [Alike, initial]⟩

theorem transparent_cons {x : Bytes × CryptoKey} (h : Transparent s) :
    Transparent { s with returned := x :: s.returned } ↔ x.2.rawKey = x.1 :=
  forall_mem_cons.trans (and_iff_left h)

theorem transparent_step (s : State) (ev : Event) (hinv : Inv s) (h : Transparent s) :
    Transparent (step s ev) ↔ Apart s ev := by
  cases ev with
  | getAesKey rawKey usage =>
    simp only [step, getAesKey]
    split
    · rename_i cached hget
      have hmem := mem_of_get hget
      rw [transparent_cons h]
      constructor
      · intro hright x hx husage htake
        have hkey : x.1 = channelKeyCacheKey rawKey usage :=
          (hinv.keyed x hx).trans (channelKeyCacheKey_inj.mpr ⟨htake, husage⟩)
        rw [Table.eq_of_key hinv.unique hx hmem hkey]
        exact hright
      · intro hapart
        obtain ⟨htake, husage⟩ := channelKeyCacheKey_inj.mp (hinv.keyed _ hmem)
        exact hapart _ hmem husage.symm htake.symm
    · rename_i hget
      refine iff_of_true h fun x hx husage htake => ?_
      have hkey : x.1 = channelKeyCacheKey rawKey usage :=
        (hinv.keyed x hx).trans (channelKeyCacheKey_inj.mpr ⟨htake, husage⟩)
      exact absurd hkey (Table.lookup_eq_none.mp (Option.map_eq_none_iff.mp hget) x hx)
  | imported rawKey usage =>
    simp only [step]
    split
    · exact iff_of_true (forall_mem_cons.mpr ⟨rfl, h⟩) trivial
    · exact iff_of_true h trivial
  | refused rawKey usage => exact iff_of_true h trivial
  | clearAesKeyCache => exact iff_of_true h trivial

/-- A run returns keys that begin as asked for, and the right keys all along exactly when each
    call finds the cache without a key of another raw key that begins alike. -/
theorem keys_along_iff (evs : List Event) :
    Alike (Run.exec step initial evs) ∧
      ((∀ pre, pre <+: evs → Transparent (Run.exec step initial pre)) ↔
        Run.Guarded step Apart initial evs) :=
  ⟨(Run.exec_kept inv_step inv_initial evs).alike,
    Run.along_iff_of_kept inv_step transparent_step inv_initial (by simp [Transparent, initial])⟩

/-- Two raw keys of thirty-two bytes that begin alike. -/
def alike (last : UInt8) : Bytes := .replicate 31 7 ++ [last]

theorem not_transparent_alike : ¬ ∀ evs, Transparent (Run.exec step initial evs) := by
  intro h
  have hkey := h [.getAesKey (alike 1) .encrypt, .imported (alike 1) .encrypt,
    .getAesKey (alike 2) .encrypt] (alike 2, ⟨alike 1, .encrypt⟩) (by decide)
  exact absurd hkey (by decide)

end Meza.Crypto.AesKeys
