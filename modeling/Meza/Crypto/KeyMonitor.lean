import Meza.Lib.Pool
import Meza.Lib.Aead
import Meza.Store.Schema

/-! # Key changes

    `key-monitor.ts`: the public key of a user is compared with the one that was
    stored when he was first seen. `cachePublicKey` reads the record and writes
    it in two transactions, and any number of calls run at once.

    Two calls that both find no record are both first sightings; the one that
    writes last wins, and neither reports that there were two keys. -/

namespace Meza.Crypto.KeyMonitor
open List Function

open Aead (Bytes)
open Store (ID)

/-! ## Section 1: Records and comparison -/

structure CachedKeyRecord where
  userId : ID
  publicKey : Bytes
  firstSeenAt : Int
  deriving DecidableEq, Repr

inductive KeyCacheResult where
  | firstSeen
  | unchanged
  | changed
  deriving DecidableEq, Repr

/-- Constant-time-ish comparison. -/
def keysEqual (a b : Bytes) : Bool :=
  if a.length ≠ b.length then false
  else (a.zip b).foldl (fun diff p => diff ||| (p.1 ^^^ p.2)) 0 = 0

theorem foldl_diff_eq_zero (l : List (UInt8 × UInt8)) (diff : UInt8) :
    l.foldl (fun diff p => diff ||| (p.1 ^^^ p.2)) diff = 0 ↔ diff = 0 ∧ ∀ p ∈ l, p.1 = p.2 := by
  induction l generalizing diff with
  | nil => simp
  | cons p l ih =>
    rw [foldl_cons, ih]
    simp [and_assoc]

theorem keysEqual_iff {a b : Bytes} : keysEqual a b = true ↔ a = b := by
  unfold keysEqual
  by_cases hlength : a.length = b.length
  · rw [if_neg (not_not.mpr hlength), decide_eq_true_iff, foldl_diff_eq_zero]
    constructor
    · rintro ⟨-, hall⟩
      refine ext_getElem hlength fun i hi hi' => ?_
      have hmem : (a[i], b[i]) ∈ a.zip b := by
        rw [mem_iff_getElem]
        exact ⟨i, by simp [hi, hi'], by simp⟩
      exact hall _ hmem
    · rintro rfl
      refine ⟨rfl, fun p hp => ?_⟩
      obtain ⟨i, hi, rfl⟩ := mem_iff_getElem.mp hp
      simp
  · rw [if_pos hlength]
    simp only [Bool.false_eq_true, false_iff]
    intro heq
    exact hlength (congrArg length heq)

/-! ## Section 2: Calls -/

/-- The object store of the records, and what the callback was called for. -/
structure Storage where
  cachedKeys : ID → Option CachedKeyRecord
  /-- A callback is registered. -/
  listening : Bool := true
  notified : List ID := []

def Storage.storeCachedKey (st : Storage) (record : CachedKeyRecord) : Storage :=
  { st with cachedKeys := update st.cachedKeys record.userId (some record) }

/-- `onKeyChangedCallback?.(userId)`. -/
def Storage.notify (st : Storage) (userId : ID) : Storage :=
  if st.listening then { st with notified := st.notified ++ [userId] } else st

structure Call where
  userId : ID
  publicKey : Bytes

inductive Phase where
  | begun (userId : ID) (publicKey : Bytes)
  /-- The read has found no record. -/
  | unseen (userId : ID) (publicKey : Bytes)
  /-- The read has found another key. -/
  | differs (userId : ID) (publicKey : Bytes) (firstSeenAt : Int)
  | returned (userId : ID) (publicKey : Bytes) (result : KeyCacheResult)
  | rejected
  deriving DecidableEq, Repr

def Phase.begin (call : Call) : Phase := .begun call.userId call.publicKey

structure Outcome where
  /-- The transaction fails. -/
  failed : Bool := false
  now : Int := 0

/-- One transaction of `cachePublicKey`, and what is done with its result. -/
def next (st : Storage) (_ : List Phase) (p : Phase) (o : Outcome) : Option (Storage × Phase) :=
  match p with
  | .begun userId publicKey =>
    if o.failed then some (st, .rejected)
    else match st.cachedKeys userId with
    | none => some (st, .unseen userId publicKey)
    | some cached =>
      if keysEqual cached.publicKey publicKey then
        some (st, .returned userId publicKey .unchanged)
      else some (st, .differs userId publicKey cached.firstSeenAt)
  | .unseen userId publicKey =>
    if o.failed then some (st, .rejected)
    else some (st.storeCachedKey { userId, publicKey, firstSeenAt := o.now },
      .returned userId publicKey .firstSeen)
  | .differs userId publicKey firstSeenAt =>
    if o.failed then some (st, .rejected)
    else some ((st.storeCachedKey { userId, publicKey, firstSeenAt }).notify userId,
      .returned userId publicKey .changed)
  | .returned _ _ _ | .rejected => none

abbrev State := Pool.State Storage Phase
abbrev Event := Pool.Event Call Outcome

def step : State → Event → State := Pool.step .begin next

/-- No call has been made; there may be records from before. -/
def initial (st : Storage) : State := { shared := st, calls := [] }

/-! ## Section 3: Detection -/

/-- A call has reported that the user's key has changed. -/
def Reported (userId : ID) (calls : List Phase) : Prop :=
  ∃ publicKey, .returned userId publicKey .changed ∈ calls

/-- If calls with two different keys have completed, a call has reported a change. -/
def Detected (s : State) : Prop :=
  ∀ userId k k' r r', .returned userId k r ∈ s.calls → .returned userId k' r' ∈ s.calls →
    k ≠ k' → Reported userId s.calls

/-- A first sighting is stored only where no other key is, unless a change of the user's key
    has been reported. -/
def advances (st : Storage) (others : List Phase) (p : Phase) (o : Outcome) : Prop :=
  match p with
  | .unseen userId publicKey => o.failed = false →
      (∀ cached ∈ st.cachedKeys userId, cached.publicKey = publicKey) ∨ Reported userId others
  | .begun _ _ | .differs _ _ _ | .returned _ _ _ | .rejected => True

def FirstAlone : State → Event → Prop := Pool.Allows (fun _ _ => True) advances

/-! ## Section 4: What a step does -/

inductive Change (st : Storage) (o : Outcome) : Phase → Storage → Phase → Prop where
  | reject {p : Phase} (fails : o.failed = true) : Change st o p st .rejected
  | unseen {userId : ID} {publicKey : Bytes} (absent : st.cachedKeys userId = none) :
      Change st o (.begun userId publicKey) st (.unseen userId publicKey)
  | unchanged {userId : ID} {cached : CachedKeyRecord} (found : st.cachedKeys userId = some cached) :
      Change st o (.begun userId cached.publicKey) st (.returned userId cached.publicKey .unchanged)
  | differs {userId : ID} {publicKey : Bytes} (firstSeenAt : Int) :
      Change st o (.begun userId publicKey) st (.differs userId publicKey firstSeenAt)
  | firstSeen {record : CachedKeyRecord} (succeeds : o.failed = false) :
      Change st o (.unseen record.userId record.publicKey) (st.storeCachedKey record)
        (.returned record.userId record.publicKey .firstSeen)
  | changed {record : CachedKeyRecord} :
      Change st o (.differs record.userId record.publicKey record.firstSeenAt)
        ((st.storeCachedKey record).notify record.userId)
        (.returned record.userId record.publicKey .changed)

variable {userId : ID} {calls others : List Phase} {o : Outcome} {p p' : Phase} {st st' : Storage}

theorem next_change (h : next st others p o = some (st', p')) : Change st o p st' p' := by
  cases p with
  | begun userId publicKey =>
    simp only [next] at h
    split at h
    · cases h
      exact .reject ‹_›
    · split at h
      · cases h
        exact .unseen ‹_›
      · split at h
        · rename_i cached hfound hequal
          cases h
          rw [keysEqual_iff] at hequal
          subst hequal
          exact .unchanged hfound
        · cases h
          exact .differs _
  | unseen userId publicKey =>
    simp only [next] at h
    split at h
    · cases h
      exact .reject ‹_›
    · cases h
      exact @Change.firstSeen st o ⟨userId, publicKey, o.now⟩ (Bool.eq_false_iff.mpr ‹_›)
  | differs userId publicKey firstSeenAt =>
    simp only [next] at h
    split at h
    · cases h
      exact .reject ‹_›
    · cases h
      exact @Change.changed st o ⟨userId, publicKey, firstSeenAt⟩
  | returned | rejected => cases h

@[simp] theorem cachedKeys_storeCachedKey (st : Storage) (record : CachedKeyRecord) :
    (st.storeCachedKey record).cachedKeys = update st.cachedKeys record.userId (some record) := rfl

@[simp] theorem cachedKeys_notify (st : Storage) (userId : ID) :
    (st.notify userId).cachedKeys = st.cachedKeys := by
  unfold Storage.notify
  split
  · rfl
  · rfl

/-! ## Section 5: Where a stored key comes from -/

/-- The call has found no record of the user, or has completed. -/
def Phase.sees (userId : ID) : Phase → Prop
  | .unseen u _ | .returned u _ _ => u = userId
  | .begun _ _ | .differs _ _ _ | .rejected => False

/-- A stored key is that of a completed call, or was there before any call that matters. -/
structure Traced (st : Storage) (calls : List Phase) (userId : ID) : Prop where
  absent : st.cachedKeys userId = none → ∀ k r, .returned userId k r ∉ calls
  stored : ∀ cached, st.cachedKeys userId = some cached →
    (∃ r, .returned userId cached.publicKey r ∈ calls) ∨ ∀ q ∈ calls, ¬ q.sees userId

def AllTraced (s : State) : Prop := ∀ userId, Traced s.shared s.calls userId

theorem allTraced_perm : Pool.OrderFree AllTraced := by
  intro st l l' hperm h userId
  refine ⟨fun habsent k r hmem => (h userId).absent habsent k r (hperm.mem_iff.mpr hmem), ?_⟩
  intro cached hcached
  rcases (h userId).stored cached hcached with ⟨r, hr⟩ | hnone
  · exact .inl ⟨r, hperm.mem_iff.mp hr⟩
  · exact .inr fun q hq => hnone q (hperm.mem_iff.mpr hq)

theorem Traced.drop (h : Traced st (p :: others) userId) (hp : ∀ k r, p ≠ .returned userId k r) :
    Traced st others userId := by
  constructor
  · intro habsent k r hmem
    exact h.absent habsent k r (mem_cons_of_mem _ hmem)
  · intro cached hcached
    refine (h.stored cached hcached).imp ?_ fun hnone q hq => hnone q (mem_cons_of_mem _ hq)
    rintro ⟨r, hr⟩
    exact ⟨r, (mem_cons.mp hr).resolve_left fun heq => hp _ r heq.symm⟩

theorem Traced.push (h : Traced st calls userId) (hp : ∀ k r, p ≠ .returned userId k r)
    (hsees : p.sees userId → st.cachedKeys userId = none) : Traced st (p :: calls) userId := by
  constructor
  · intro habsent k r hmem
    rcases mem_cons.mp hmem with heq | hmem
    · exact hp k r heq.symm
    · exact h.absent habsent k r hmem
  · intro cached hcached
    refine (h.stored cached hcached).imp ?_ fun hnone q hq => ?_
    · rintro ⟨r, hr⟩
      exact ⟨r, mem_cons_of_mem _ hr⟩
    · rcases mem_cons.mp hq with rfl | hq
      · intro hq'
        rw [hsees hq'] at hcached
        cases hcached
      · exact hnone q hq

theorem Traced.quiet (h : Traced st (p :: others) userId)
    (hp : ∀ k r, p ≠ .returned userId k r) (hp' : ∀ k r, p' ≠ .returned userId k r)
    (hsees : p'.sees userId → st.cachedKeys userId = none) : Traced st (p' :: others) userId :=
  (h.drop hp).push hp' hsees

theorem Traced.completed {cached : CachedKeyRecord} {r : KeyCacheResult}
    (hcached : st.cachedKeys userId = some cached)
    (hmem : .returned userId cached.publicKey r ∈ calls) : Traced st calls userId := by
  constructor
  · intro habsent
    rw [hcached] at habsent
    cases habsent
  · intro cached' hcached'
    rw [hcached] at hcached'
    cases hcached'
    exact .inl ⟨r, hmem⟩

theorem Traced.other (h : Traced st (p :: others) userId)
    (hsame : st'.cachedKeys userId = st.cachedKeys userId) (hp : ∀ k r, p ≠ .returned userId k r)
    (hp' : ¬ p'.sees userId) : Traced st' (p' :: others) userId := by
  have hquiet : Traced st (p' :: others) userId := by
    refine h.quiet hp ?_ fun hsees => absurd hsees hp'
    rintro k r rfl
    exact hp' rfl
  constructor
  · rw [hsame]
    exact hquiet.absent
  · rw [hsame]
    exact hquiet.stored

theorem allTraced_next (h : AllTraced { shared := st, calls := p :: others })
    (hnext : next st others p o = some (st', p')) :
    AllTraced { shared := st', calls := p' :: others } := by
  have hactive : ∀ u k r, p ≠ .returned u k r := by
    rintro u k r rfl
    cases hnext
  intro userId
  show Traced st' (p' :: others) userId
  have huser : Traced st (p :: others) userId := h userId
  cases next_change hnext with
  | reject | differs => exact huser.other rfl (hactive userId) (fun hsees => hsees)
  | unseen habsent =>
    refine huser.quiet (hactive userId) (fun k r heq => by cases heq) ?_
    rintro rfl
    exact habsent
  | @unchanged u cached hfound =>
    by_cases hu : u = userId
    · subst hu
      exact Traced.completed hfound mem_cons_self
    · exact huser.other rfl (hactive userId) hu
  | @firstSeen record hsucceeds =>
    by_cases hu : record.userId = userId
    · subst hu
      have hstored : (st.storeCachedKey record).cachedKeys record.userId = some record := by simp
      exact Traced.completed hstored mem_cons_self
    · refine huser.other ?_ (hactive userId) hu
      simp [update_of_ne (Ne.symm hu)]
  | @changed record =>
    by_cases hu : record.userId = userId
    · subst hu
      have hstored : ((st.storeCachedKey record).notify record.userId).cachedKeys record.userId =
          some record := by simp
      exact Traced.completed hstored mem_cons_self
    · refine huser.other ?_ (hactive userId) hu
      simp [update_of_ne (Ne.symm hu)]

/-! ## Section 6: One step -/

theorem Reported.mono {calls' : List Phase} (h : Reported userId calls)
    (hsub : ∀ k r, .returned userId k r ∈ calls → .returned userId k r ∈ calls') :
    Reported userId calls' := by
  obtain ⟨k, hk⟩ := h
  exact ⟨k, hsub k _ hk⟩

theorem detected_perm : Pool.OrderFree Detected := by
  intro st l l' hperm h userId k k' r r' hk hk' hne
  have hreported := h userId k k' r r' (hperm.mem_iff.mpr hk) (hperm.mem_iff.mpr hk') hne
  exact hreported.mono fun _ _ hmem => hperm.mem_iff.mp hmem

section Step

theorem Detected.quiet (h : Detected { shared := st, calls := p :: others })
    (hp : ∀ u k r, p ≠ .returned u k r) (hp' : ∀ u k r, p' ≠ .returned u k r) :
    Detected { shared := st', calls := p' :: others } := by
  have hback : ∀ {u k r}, .returned u k r ∈ p' :: others → .returned u k r ∈ others := by
    intro u k r hmem
    exact (mem_cons.mp hmem).resolve_left fun heq => hp' u k r heq.symm
  intro u k k' r r' hk hk' hne
  have hreported := h u k k' r r' (mem_cons_of_mem _ (hback hk)) (mem_cons_of_mem _ (hback hk')) hne
  refine hreported.mono fun k r hmem => mem_cons_of_mem _ ?_
  exact (mem_cons.mp hmem).resolve_left fun heq => hp u k r heq.symm

theorem Detected.completes {k : Bytes} {r : KeyCacheResult}
    (h : Detected { shared := st, calls := p :: others }) (hp : ∀ u k r, p ≠ .returned u k r)
    (hkey : Reported userId (.returned userId k r :: others) ∨
      ∀ k' r', .returned userId k' r' ∈ others → k' = k) :
    Detected { shared := st', calls := .returned userId k r :: others } := by
  intro u k₁ k₂ r₁ r₂ h₁ h₂ hne
  by_cases hu : u = userId
  · subst hu
    rcases hkey with hreported | hsame
    · exact hreported
    · have hall : ∀ {k' r'}, .returned u k' r' ∈ (.returned u k r :: others : List Phase) →
          k' = k := by
        intro k' r' hmem
        rcases mem_cons.mp hmem with heq | hmem
        · cases heq
          rfl
        · exact hsame k' r' hmem
      exact absurd ((hall h₁).trans (hall h₂).symm) hne
  · have hback : ∀ {k' r'}, .returned u k' r' ∈ (.returned userId k r :: others : List Phase) →
        .returned u k' r' ∈ others := by
      intro k' r' hmem
      rcases mem_cons.mp hmem with heq | hmem
      · cases heq
        exact absurd rfl hu
      · exact hmem
    have hreported := h u k₁ k₂ r₁ r₂ (mem_cons_of_mem _ (hback h₁))
      (mem_cons_of_mem _ (hback h₂)) hne
    refine hreported.mono fun k' r' hmem => mem_cons_of_mem _ ?_
    exact (mem_cons.mp hmem).resolve_left fun heq => hp u k' r' heq.symm

theorem agree_stored {cached : CachedKeyRecord}
    (htraced : AllTraced { shared := st, calls := p :: others })
    (h : Detected { shared := st, calls := p :: others }) (hp : ∀ u k r, p ≠ .returned u k r)
    (hcached : st.cachedKeys userId = some cached) :
    Reported userId others ∨ ∀ k r, .returned userId k r ∈ others → k = cached.publicKey := by
  rcases (htraced userId).stored cached hcached with ⟨r₀, h₀⟩ | hnone
  · by_cases hreported : Reported userId others
    · exact .inl hreported
    · right
      intro k r hmem
      by_contra hne
      refine hreported ((h userId k cached.publicKey r r₀ (mem_cons_of_mem _ hmem) h₀
        hne).mono fun k r hmem => ?_)
      exact (mem_cons.mp hmem).resolve_left fun heq => hp userId k r heq.symm
  · right
    intro k r hmem
    exact absurd rfl (hnone _ (mem_cons_of_mem _ hmem))

theorem detected_firstSeen {record : CachedKeyRecord} (htraced : AllTraced
    { shared := st, calls := .unseen record.userId record.publicKey :: others })
    (h : Detected { shared := st, calls := .unseen record.userId record.publicKey :: others }) :
    Detected { shared := st', calls :=
        .returned record.userId record.publicKey .firstSeen :: others } ↔
      (∀ cached ∈ st.cachedKeys record.userId, cached.publicKey = record.publicKey) ∨
        Reported record.userId others := by
  have hactive : ∀ u k r, Phase.unseen record.userId record.publicKey ≠ .returned u k r := by
    intro u k r heq
    cases heq
  constructor
  · intro hafter
    by_cases hreported : Reported record.userId others
    · exact Or.inr hreported
    · left
      intro cached hcached
      by_contra hne
      rcases (htraced record.userId).stored cached hcached with ⟨r₀, h₀⟩ | hnone
      · -- the key that is overwritten is that of a completed call
        have hmem : .returned record.userId cached.publicKey r₀ ∈ others :=
          (mem_cons.mp h₀).resolve_left fun heq => hactive _ _ _ heq.symm
        refine hreported ?_
        obtain ⟨k, hk⟩ := hafter record.userId _ _ _ _ (mem_cons_of_mem _ hmem) mem_cons_self hne
        refine ⟨k, (mem_cons.mp hk).resolve_left fun heq => ?_⟩
        cases heq
      · exact hnone _ mem_cons_self rfl
  · rintro (hsame | hreported)
    · refine h.completes hactive ?_
      rcases hcached : st.cachedKeys record.userId with _ | cached
      · right
        intro k r hmem
        exact absurd (mem_cons_of_mem _ hmem) ((htraced record.userId).absent hcached k r)
      · rcases agree_stored htraced h hactive hcached with hreported | hall
        · exact Or.inl (hreported.mono fun _ _ hmem => mem_cons_of_mem _ hmem)
        · right
          intro k r hmem
          rw [hall k r hmem]
          exact hsame cached hcached
    · exact h.completes hactive (Or.inl (hreported.mono fun _ _ hmem => mem_cons_of_mem _ hmem))

end Step

theorem advances_of_waiting (h : next st others p o = none) : advances st others p o := by
  cases p with
  | unseen userId publicKey =>
    simp only [next] at h
    split at h
    · cases h
    · cases h
  | begun | differs | returned | rejected => trivial

theorem detected_next (htraced : AllTraced { shared := st, calls := p :: others })
    (h : Detected { shared := st, calls := p :: others })
    (hnext : next st others p o = some (st', p')) :
    Detected { shared := st', calls := p' :: others } ↔ advances st others p o := by
  have hactive : ∀ u k r, p ≠ .returned u k r := by
    rintro u k r rfl
    cases hnext
  cases next_change hnext with
  | reject fails =>
    refine iff_of_true (h.quiet hactive fun u k r heq => by cases heq) ?_
    cases p with
    | unseen userId publicKey =>
      intro hsucceeds
      rw [fails] at hsucceeds
      cases hsucceeds
    | begun | differs | returned | rejected => trivial
  | unseen | differs => exact iff_of_true (h.quiet hactive fun u k r heq => by cases heq) trivial
  | unchanged hfound =>
    refine iff_of_true (h.completes hactive ?_) trivial
    refine (agree_stored htraced h hactive hfound).imp ?_ fun hall => hall
    intro hreported
    exact hreported.mono fun _ _ hmem => mem_cons_of_mem _ hmem
  | firstSeen hsucceeds =>
    rw [detected_firstSeen htraced h]
    exact ⟨fun hstored _ => hstored, fun hstored => hstored hsucceeds⟩
  | changed => exact iff_of_true (h.completes hactive (.inl ⟨_, mem_cons_self⟩)) trivial

/-! ## Section 7: Runs -/

theorem allTraced_step (s : State) (ev : Event) (h : AllTraced s) : AllTraced (step s ev) := by
  refine Pool.keeps_event allTraced_perm ?_ (fun st p others o st' p' hs => allTraced_next hs)
    s ev h
  intro st calls call hs userId
  exact (hs userId).push (fun k r heq => by cases heq) (fun hsees => hsees.elim)

theorem detected_step (s : State) (ev : Event) (htraced : AllTraced s) (h : Detected s) :
    Detected (step s ev) ↔ FirstAlone s ev := by
  refine Pool.event_iff allTraced_perm detected_perm ?_
    (fun _ _ _ _ hwaits => advances_of_waiting hwaits)
    (fun st p others o st' p' htraced hs => detected_next htraced hs) s ev htraced h
  intro st calls call hs userId k k' r r' hk hk' hne
  have hback : ∀ {k r}, .returned userId k r ∈ Phase.begin call :: calls →
      .returned userId k r ∈ calls := by
    intro k r hmem
    exact (mem_cons.mp hmem).resolve_left fun heq => by cases heq
  exact (hs userId k k' r r' (hback hk) (hback hk') hne).mono
    fun _ _ hmem => mem_cons_of_mem _ hmem

/-- **A change of the key is reported exactly** in the runs in which no first sighting
    overwrites another key. -/
theorem detected_along_iff (st : Storage) (evs : List Event) :
    (∀ pre, pre <+: evs → Detected (Run.exec step (initial st) pre)) ↔
      Run.Guarded step FirstAlone (initial st) evs := by
  refine Run.along_iff_of_kept (fun s ev h => allTraced_step s ev h)
    (fun s ev htraced h => detected_step s ev htraced h) ?_ ?_
  · intro userId
    exact ⟨fun _ k r hmem => (not_mem_nil hmem).elim,
      fun _ _ => Or.inr fun q hq => (not_mem_nil hq).elim⟩
  · intro userId k k' r r' hk
    exact (not_mem_nil hk).elim

/-- Two calls with different keys read, and then both write. -/
def twoSightings : List Event :=
  [.start ⟨"bob", [1]⟩, .start ⟨"bob", [2]⟩, .advance 0 {}, .advance 1 {}, .advance 0 {},
    .advance 1 {}]

/-- Both are first sightings, and the second key is the one that stays. -/
theorem not_detected_twoSightings :
    ¬ ∀ (st : Storage) (evs : List Event), Detected (Run.exec step (initial st) evs) := by
  intro h
  have hreported := h { cachedKeys := fun _ => none } twoSightings "bob" [1] [2] .firstSeen
    .firstSeen (by decide) (by decide) (by decide)
  obtain ⟨k, hk⟩ := hreported
  have hcalls : (Run.exec step (initial { cachedKeys := fun _ => none }) twoSightings).calls =
      [.returned "bob" [1] .firstSeen, .returned "bob" [2] .firstSeen] := by decide
  rw [hcalls] at hk
  simp at hk

end Meza.Crypto.KeyMonitor
