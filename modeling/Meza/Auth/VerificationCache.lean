import Mathlib.Algebra.Order.Ring.Int
import Meza.Lib.Dict
import Meza.Lib.Run

/-! # The cache of verified tokens

    The interceptor checks the signature of a token once, and keeps the claims in a
    `VerificationCache` until the token expires. The parser of tokens belongs to a
    library: `verified` gives the claims of a token whose form and signature are good,
    and the library's checks of the clock, made without leeway, are `ValidAt`. -/

namespace Meza.Auth.TokenCache
open Option List Function

abbrev Time := Int

/-! ## Section 1: Tokens -/

/-- The claims that are read, an absent text being empty. -/
structure MapClaims where
  purpose : String
  sub : String
  deviceID : String
  typ : String
  iss : String
  isFederated : Bool
  exp : Option Time
  nbf : Option Time
  deriving DecidableEq

structure Claims where
  userID : String
  deviceID : String
  isRefresh : Bool
  isFederated : Bool
  issuer : String
  expiresAt : Option Time
  deriving DecidableEq

/-- The library accepts a token before its expiry and from its start on. -/
def MapClaims.ValidAt (m : MapClaims) (now : Time) : Prop :=
  (∀ e ∈ m.exp, now < e) ∧ ∀ n ∈ m.nbf, n ≤ now

instance (m : MapClaims) (now : Time) : Decidable (m.ValidAt now) :=
  inferInstanceAs (Decidable (_ ∧ _))

/-- A token with a purpose is no access token. -/
def extractClaims (m : MapClaims) : Option Claims :=
  if m.purpose ≠ "" then none
  else if m.sub = "" then none
  else some
    { userID := m.sub
      deviceID := m.deviceID
      isRefresh := m.typ = "refresh"
      isFederated := m.isFederated
      issuer := m.iss
      expiresAt := m.exp }

variable (verified : String → Option MapClaims)

def validateTokenEd25519 (now : Time) (token : String) : Option Claims :=
  (verified token).bind fun m => if m.ValidAt now then extractClaims m else none

/-! ## Section 2: The cache -/

structure CachedClaims where
  claims : Claims
  expiresAt : Time

variable {Hash : Type} [DecidableEq Hash]

abbrev Cache (Hash : Type) := List (Hash × CachedClaims)

def verificationCacheMaxSize : Nat := 50000

/-- Deletes those of the keys whose entries have expired. -/
def evict (cache : Cache Hash) (keys : List Hash) (now : Time) : Cache Hash :=
  cache.filter fun x => ¬ (x.1 ∈ keys ∧ x.2.expiresAt < now)

/-- The entry the loop comes upon in a full cache, if any, is `victim`. -/
def put (cache : Cache Hash) (hash : Hash) (claims : Claims) (expiresAt now : Time)
    (victim : Option Hash) : Cache Hash :=
  let cache :=
    if verificationCacheMaxSize ≤ cache.length then evict cache victim.toList now else cache
  if verificationCacheMaxSize ≤ cache.length then cache
  else Dict.set cache hash ⟨claims, expiresAt⟩

/-- The cache, the requests past a miss, and what was answered for which token, and when. -/
structure State (Hash : Type) where
  cache : Cache Hash
  validating : List String
  answers : List (String × Time × Option Claims)

def initial : State Hash := ⟨[], [], []⟩

/-- Requests for tokens and rounds of the cleanup. A request reads the clock when it looks in
    the cache, when it validates the token, and when it stores the claims. -/
inductive Event (Hash : Type) where
  | get (token : String) (now : Time)
  | validate (token : String) (now putAt : Time) (victim : Option Hash)
  | cleanup (expired : List Hash) (now : Time)

variable (tokenHash : String → Hash)

def get (cache : Cache Hash) (token : String) (now : Time) : Option Claims :=
  match Dict.get cache (tokenHash token) with
  | some entry => if entry.expiresAt < now then none else some entry.claims
  | none => none

/-- `validateWithConfig` from the miss on. -/
def store (cache : Cache Hash) (token : String) (result : Option Claims) (now : Time)
    (victim : Option Hash) : Cache Hash :=
  match result with
  | some claims =>
    match claims.expiresAt with
    | some expiresAt => put cache (tokenHash token) claims expiresAt now victim
    | none => cache
  | none => cache

def step (s : State Hash) : Event Hash → State Hash
  | .get token now =>
    match get tokenHash s.cache token now with
    | some claims => { s with answers := (token, now, some claims) :: s.answers }
    | none => { s with validating := token :: s.validating }
  | .validate token now putAt victim =>
    if token ∈ s.validating then
      let result := validateTokenEd25519 verified now token
      { cache := store tokenHash s.cache token result putAt victim
        validating := s.validating.erase token
        answers := (token, now, result) :: s.answers }
    else s
  | .cleanup expired now => { s with cache := evict s.cache expired now }

/-- Every answer is the one that the validation would have given, and the cache is within its
    bound. -/
structure Transparent (s : State Hash) : Prop where
  answers : ∀ x ∈ s.answers, x.2.2 = validateTokenEd25519 verified x.2.1 x.1
  bounded : s.cache.length ≤ verificationCacheMaxSize

/-- No cached token is asked for at the very instant of its expiry, or before its start. -/
def OffTheEdges (s : State Hash) : Event Hash → Prop
  | .get token now => (Dict.get s.cache (tokenHash token)).isSome →
      ∀ m ∈ verified token, ∀ e ∈ m.exp, now ≤ e → now ≠ e ∧ ∀ n ∈ m.nbf, n ≤ now
  | _ => True

instance (s : State Hash) : ∀ ev, Decidable (OffTheEdges verified tokenHash s ev)
  | .get _ _ => inferInstanceAs (Decidable (_ → _))
  | .validate _ _ _ _ => inferInstanceAs (Decidable True)
  | .cleanup _ _ => inferInstanceAs (Decidable True)

/-! ## Section 3: What the cache holds -/

/-- Every entry has the claims and the expiry of a verified token. -/
structure Inv (s : State Hash) : Prop where
  keyed : ∀ x ∈ s.cache, ∃ token, ∃ m ∈ verified token, x.1 = tokenHash token ∧
    m.exp = some x.2.expiresAt ∧ extractClaims m = some x.2.claims
  bounded : s.cache.length ≤ verificationCacheMaxSize

variable {verified tokenHash} {s : State Hash} {cache : Cache Hash} {token : String}

theorem expiresAt_extractClaims {m : MapClaims} {claims : Claims}
    (h : extractClaims m = some claims) : claims.expiresAt = m.exp := by
  unfold extractClaims at h
  split at h
  · cases h
  · split at h
    · cases h
    · rw [← some.inj h]

theorem mem_put {x : Hash × CachedClaims} {hash : Hash} {claims : Claims} {expiresAt now : Time}
    {victim : Option Hash} (h : x ∈ put cache hash claims expiresAt now victim) :
    x = (hash, ⟨claims, expiresAt⟩) ∨ x ∈ cache := by
  have hevict : ∀ y, y ∈ (if verificationCacheMaxSize ≤ cache.length then
      evict cache victim.toList now else cache) → y ∈ cache := by
    intro y hy
    split at hy
    · exact (mem_filter.mp hy).1
    · exact hy
  unfold put at h
  dsimp only at h
  generalize (if verificationCacheMaxSize ≤ cache.length then _ else cache) = kept at h hevict
  split at h
  · exact .inr (hevict x h)
  · exact (Dict.mem_set h).imp_right (hevict x)

theorem length_put (hash : Hash) (claims : Claims) (expiresAt now : Time) (victim : Option Hash)
    (h : cache.length ≤ verificationCacheMaxSize) :
    (put cache hash claims expiresAt now victim).length ≤ verificationCacheMaxSize := by
  have hevict : (if verificationCacheMaxSize ≤ cache.length then
      evict cache victim.toList now else cache).length ≤ verificationCacheMaxSize := by
    split
    · exact (length_filter_le _ _).trans h
    · exact h
  unfold put
  dsimp only
  generalize (if verificationCacheMaxSize ≤ cache.length then _ else cache) = kept at hevict ⊢
  split
  · exact hevict
  · rename_i hroom
    have hset := Dict.length_set_le kept hash ⟨claims, expiresAt⟩
    omega

theorem inv_store (h : Inv verified tokenHash s) (now putAt : Time) (victim : Option Hash)
    (validating : List String) (answers : List (String × Time × Option Claims)) :
    Inv verified tokenHash ⟨store tokenHash s.cache token
      (validateTokenEd25519 verified now token) putAt victim, validating, answers⟩ := by
  unfold store
  split
  · rename_i claims hresult
    split
    · rename_i expiresAt hexp
      obtain ⟨m, hm, hclaims⟩ := bind_eq_some_iff.mp hresult
      split at hclaims
      · have hexpiry := (expiresAt_extractClaims hclaims).symm.trans hexp
        refine ⟨fun x hx => ?_, length_put _ _ _ _ _ h.bounded⟩
        rcases mem_put hx with rfl | hx
        · exact ⟨token, m, hm, rfl, hexpiry, hclaims⟩
        · exact h.keyed x hx
      · cases hclaims
    · exact ⟨h.keyed, h.bounded⟩
  · exact ⟨h.keyed, h.bounded⟩

theorem inv_step (s : State Hash) (ev : Event Hash) (h : Inv verified tokenHash s) :
    Inv verified tokenHash (step verified tokenHash s ev) := by
  cases ev with
  | get token now =>
    simp only [step]
    split
    · exact ⟨h.keyed, h.bounded⟩
    · exact ⟨h.keyed, h.bounded⟩
  | validate token now putAt victim =>
    simp only [step]
    split
    · exact inv_store h now putAt victim _ _
    · exact h
  | cleanup expired now =>
    exact ⟨fun x hx => h.keyed x (mem_filter.mp hx).1, (length_filter_le _ _).trans h.bounded⟩

/-! ## Section 4: Runs -/

/-- A hit is right when the library would still, and already, accept the token. -/
theorem get_right (hhash : Injective tokenHash) (h : Inv verified tokenHash s)
    {now : Time} {claims : Claims} (hget : get tokenHash s.cache token now = some claims) :
    some claims = validateTokenEd25519 verified now token ↔
      OffTheEdges verified tokenHash s (.get token now) := by
  unfold get at hget
  split at hget
  · rename_i entry hentry
    split at hget
    · cases hget
    · rename_i hfresh
      obtain ⟨token', m, hm, hkey, hexp, hclaims⟩ := h.keyed _ (Dict.mem_of_get hentry)
      obtain rfl : token = token' := hhash hkey
      have hvalid : validateTokenEd25519 verified now token =
          if m.ValidAt now then some claims else none := by
        rw [validateTokenEd25519, mem_def.mp hm, bind_some, hclaims, hget]
      have hcached : (Dict.get s.cache (tokenHash token)).isSome := by rw [hentry]; rfl
      have hiff : some claims = validateTokenEd25519 verified now token ↔ m.ValidAt now := by
        rw [hvalid]
        by_cases hm' : m.ValidAt now
        · simp [hm']
        · simp [hm']
      rw [hiff]
      constructor
      · intro hat _ m' hm' e he hle
        rw [mem_unique hm' hm] at he ⊢
        exact ⟨(hat.1 e he).ne, hat.2⟩
      · intro hoff
        have hoff := hoff hcached m hm entry.expiresAt hexp (not_lt.mp hfresh)
        refine ⟨fun e he => ?_, hoff.2⟩
        rw [← some.inj (hexp.symm.trans he)]
        exact lt_of_le_of_ne (not_lt.mp hfresh) hoff.1
  · cases hget

theorem transparent_step (hhash : Injective tokenHash) (s : State Hash) (ev : Event Hash)
    (hinv : Inv verified tokenHash s) (h : Transparent verified s) :
    Transparent verified (step verified tokenHash s ev) ↔ OffTheEdges verified tokenHash s ev := by
  have hbounded := (inv_step s ev hinv).bounded
  cases ev with
  | get token now =>
    simp only [step] at hbounded ⊢
    rcases hget : get tokenHash s.cache token now with _ | claims
    · refine iff_of_true ⟨h.answers, h.bounded⟩ fun hcached m hm e he hle => ?_
      obtain ⟨entry, hentry⟩ := isSome_iff_exists.mp hcached
      obtain ⟨token', m', hm', hkey, hexp, -⟩ := hinv.keyed _ (Dict.mem_of_get hentry)
      obtain rfl : token = token' := hhash hkey
      rw [mem_unique hm hm', hexp] at he
      have hfresh : ¬ entry.expiresAt < now := by
        rw [some.inj he]
        exact not_lt.mpr hle
      simp [get, hentry, hfresh] at hget
    · rw [← get_right hhash hinv hget]
      constructor
      · intro hright
        exact hright.answers _ mem_cons_self
      · intro hright
        exact ⟨forall_mem_cons.mpr ⟨hright, h.answers⟩, h.bounded⟩
  | validate token now putAt victim =>
    refine iff_of_true ⟨?_, hbounded⟩ trivial
    simp only [step]
    split
    · exact forall_mem_cons.mpr ⟨rfl, h.answers⟩
    · exact h.answers
  | cleanup expired now => exact iff_of_true ⟨h.answers, hbounded⟩ trivial

/-- A run answers as the validation does, all along, exactly when no request comes at the edges
    of its token's time while the token is cached. -/
theorem transparent_along_iff (hhash : Injective tokenHash) (evs : List (Event Hash)) :
    (∀ pre, pre <+: evs → Transparent verified (Run.exec (step verified tokenHash) initial pre)) ↔
      Run.Guarded (step verified tokenHash) (OffTheEdges verified tokenHash) initial evs :=
  Run.along_iff_of_kept inv_step (transparent_step hhash)
    ⟨by simp [initial], Nat.zero_le _⟩ ⟨by simp [initial], Nat.zero_le _⟩

/-- One token, of a user `ann`, that expires at 100. -/
def issued (token : String) : Option MapClaims :=
  if token = "t" then some ⟨"", "ann", "phone", "access", "meza", false, some 100, none⟩ else none

theorem transparent_before_expiry :
    (step issued id (Run.exec (step issued id) initial [.get "t" 0, .validate "t" 0 0 none])
      (.get "t" 99)).answers.length = 2 ∧
    ∀ pre, pre <+: [Event.get "t" 0, .validate "t" 0 0 none, .get "t" 99] →
      Transparent issued (Run.exec (step issued id) initial pre) :=
  ⟨by decide, (transparent_along_iff injective_id _).mpr (by decide)⟩

theorem not_transparent_at_expiry :
    ¬ ∀ evs : List (Event String), Transparent issued (Run.exec (step issued id) initial evs) := by
  intro h
  have hanswer := (h [.get "t" 0, .validate "t" 0 0 none, .get "t" 100]).answers
    ("t", 100, some ⟨"ann", "phone", false, false, "meza", some 100⟩) (by decide)
  exact absurd hanswer (by decide)

end Meza.Auth.TokenCache
