import Meza.Crypto.KeyAvailability
import Meza.Lib.Run
import Mathlib.Data.List.TakeWhile

/-! # What an envelope is bound to

    A client of one user, among honest clients that wrap channel keys, against
    a server that answers a fetch with any envelopes that were wrapped for the
    user, under any channel and any version label.

    The associated data of a wrapping names the channel and the recipient, and
    an envelope from another channel does not unwrap. The version is not in
    it: the cache takes the label of the server. -/

namespace Meza.Crypto

open Aead (Bytes)
open Store List Action Aead Run
open Keys (VersionedEnvelope)

/-! ## Section 1: The system -/

/-- A key that an honest client wrapped, and what for. -/
structure Wrap where
  channelID : ID
  version : Nat
  recipient : Bytes
  key : Bytes
  envelope : Bytes
  deriving DecidableEq, Repr

/-- A key put into the cache, and the envelope it came from. -/
structure Put where
  channelID : ID
  version : Nat
  key : Bytes
  envelope : Bytes
  deriving DecidableEq, Repr

/-- The client, what honest clients have wrapped, and what the client has cached. -/
structure World where
  client : CryptoState
  wraps : List Wrap := []
  puts : List Put := []

/-- A channel key as `generateChannelKey` makes it. -/
structure ChannelKey where
  bytes : Bytes
  length : bytes.length = 32

inductive Event where
  /-- an honest client wraps a key, to store the envelope under a version -/
  | wrap (draw : WrapDraw) (channelID : ID) (version : Nat) (key : ChannelKey) (recipient : Bytes)
  /-- something else is encrypted -/
  | other (entry : Entry)
  /-- the client fetches the keys of a channel -/
  | fetch (channelID : ID) (reply : List VersionedEnvelope)

/-- The insertions of `doFetchAndCache`, in order, up to an envelope that does not unwrap. -/
def insertions (S : Suite) (sealed : List Entry) (channelID : ID)
    (identity : IdentityKeypair) : List VersionedEnvelope → List Put
  | [] => []
  | e :: es =>
    match unwrapEnvelope S sealed channelID identity e.envelope with
    | .ok key => ⟨channelID, e.keyVersion, key, e.envelope⟩ ::
        insertions S sealed channelID identity es
    | .error _ => []

def World.step (S : Suite) (identity : IdentityKeypair) (w : World) : Event → World
  | .wrap draw channelID version key recipient =>
    match wrapKeyForMember S draw channelID key.bytes recipient w.client with
    | .ok envelope client =>
      { w with
        client := client
        wraps := ⟨channelID, version, recipient, key.bytes, envelope⟩ :: w.wraps }
    | .error _ client => { w with client := client }
  | .other entry => { w with client.sealed := entry :: w.client.sealed }
  | .fetch channelID reply =>
    { w with
      client := after (doFetchAndCache S (fun _ => .ok reply) channelID) w.client
      puts := w.puts ++ insertions S w.client.sealed channelID identity reply }

/-! ## Section 2: Assumptions, the property and the condition -/

/-- The server has only what was wrapped for this user. -/
def Served (identity : IdentityKeypair) (w : World) : Event → Prop
  | .fetch _ reply => ∀ e ∈ reply, ∃ x ∈ w.wraps,
      x.envelope = e.envelope ∧ x.recipient = identity.publicKey
  | .wrap _ _ _ _ _ => True
  | .other _ => True

instance decidableServed (identity : IdentityKeypair) (w : World) :
    ∀ ev : Event, Decidable (Served identity w ev)
  | .fetch _ reply => inferInstanceAs (Decidable (∀ _ ∈ reply, _))
  | .wrap _ _ _ _ _ | .other _ => inferInstanceAs (Decidable True)

/-- Besides, the cipher stays ideal. -/
def Assumed (S : Suite) (identity : IdentityKeypair) (w : World) (ev : Event) : Prop :=
  Ideal (w.step S identity ev).client.sealed ∧ Served identity w ev

instance decidableAssumed (S : Suite) (identity : IdentityKeypair) (w : World) (ev : Event) :
    Decidable (Assumed S identity w ev) := inferInstanceAs (Decidable (_ ∧ _))

/-- Every key in the cache was wrapped for the channel and the version it is cached under. -/
def World.Bound (w : World) : Prop :=
  ∀ p ∈ w.puts, ∃ x ∈ w.wraps, x.envelope = p.envelope ∧ x.key = p.key ∧
    x.channelID = p.channelID ∧ x.version = p.version

instance decidableBound (w : World) : Decidable w.Bound :=
  inferInstanceAs (Decidable (∀ _ ∈ w.puts, _))

def World.wrappedFor (w : World) (channelID : ID) (e : VersionedEnvelope) : Bool :=
  w.wraps.any fun x => x.envelope = e.envelope ∧ x.channelID = channelID

/-- Up to the first envelope of another channel, the labels are the versions of the wrappings. -/
def Labelled (w : World) : Event → Prop
  | .fetch channelID reply => ∀ e ∈ reply.takeWhile (w.wrappedFor channelID),
      ∃ x ∈ w.wraps, x.envelope = e.envelope ∧ x.version = e.keyVersion
  | .wrap _ _ _ _ _ => True
  | .other _ => True

instance decidableLabelled (w : World) : ∀ ev : Event, Decidable (Labelled w ev)
  | .fetch channelID reply => inferInstanceAs (Decidable (∀ _ ∈ reply.takeWhile (w.wrappedFor channelID), _))
  | .wrap _ _ _ _ _ | .other _ => inferInstanceAs (Decidable True)

/-! ## Section 3: The insertions are what the cache gets -/

theorem forM_cacheEnvelope_insertions (S : Suite) (channelID : ID) (identity : IdentityKeypair)
    (envelopes : List VersionedEnvelope) (s : CryptoState) :
    Action.after (envelopes.forM (cacheEnvelope S channelID identity)) s =
      { s with
        channelKeyCache :=
          (insertions S s.sealed channelID identity envelopes).foldl
            (fun cache p => setCachedKey cache p.channelID p.version p.key) s.channelKeyCache } := by
  induction envelopes generalizing s with
  | nil => rfl
  | cons e envelopes ih =>
    cases hunwrap : unwrapEnvelope S s.sealed channelID identity e.envelope with
    | error msg =>
      have hstop : cacheEnvelope S channelID identity e s = .error msg s := by
        show (check _ >>= _) s = _
        simp [check, hunwrap, bind, EStateM.bind]
      have hrun : (e :: envelopes).forM (cacheEnvelope S channelID identity) s = .error msg s := by
        show EStateM.bind (cacheEnvelope S channelID identity e) _ s = _
        simp [EStateM.bind, hstop]
      simp only [Action.after, hrun, insertions, hunwrap, List.foldl_nil]
    | ok key =>
      let next : CryptoState :=
        { s with channelKeyCache := setCachedKey s.channelKeyCache channelID e.keyVersion key }
      have hstep : cacheEnvelope S channelID identity e s = .ok () next :=
        Action.bind_ok.mpr ⟨key, s, Action.check_ok.mpr ⟨hunwrap, rfl⟩, rfl⟩
      have hrun : (e :: envelopes).forM (cacheEnvelope S channelID identity) s =
          envelopes.forM (cacheEnvelope S channelID identity) next := by
        show EStateM.bind (cacheEnvelope S channelID identity e) _ s = _
        simp [EStateM.bind, hstep]
      have hrest := ih next
      simp only [Action.after, hrun, insertions, hunwrap, List.foldl_cons] at hrest ⊢
      exact hrest

theorem doFetchAndCache_insertions {S : Suite} {channelID : ID} {identity : IdentityKeypair}
    {reply : List VersionedEnvelope} {s : CryptoState}
    (hidentity : s.identityKeypair = some identity) :
    after (doFetchAndCache S (fun _ => .ok reply) channelID) s =
      { s with
        channelKeyCache :=
          (insertions S s.sealed channelID identity reply).foldl
            (fun cache p => setCachedKey cache p.channelID p.version p.key) s.channelKeyCache } := by
  rw [← forM_cacheEnvelope_insertions]
  have hrun : doFetchAndCache S (fun _ => .ok reply) channelID s =
      reply.forM (cacheEnvelope S channelID identity) s := by
    show EStateM.bind _ _ s = _
    simp [EStateM.bind, check, CryptoM.ofExcept, hidentity, bind]
  unfold Action.after
  rw [hrun]

/-! ## Section 4: What unwraps -/

/-- The cipher's record holds the wrapping. -/
def Wrap.Recorded (S : Suite) (sealed : List Entry) (x : Wrap) : Prop :=
  x.key.length = 32 ∧ ∃ draw s s',
    wrapKeyForMember S draw x.channelID x.key x.recipient s = .ok x.envelope s' ∧ s'.sealed ⊆ sealed

variable {channelID : ID} {identity : IdentityKeypair} {sealed : List Entry} {S : Suite}
  {w : World} {x : Wrap}

theorem Wrap.Recorded.mono {sealed' : List Entry} (h : x.Recorded S sealed)
    (hsub : sealed ⊆ sealed') : x.Recorded S sealed' := by
  obtain ⟨hlength, draw, s, s', hrun, hin⟩ := h
  exact ⟨hlength, draw, s, s', hrun, Subset.trans hin hsub⟩

theorem Wrap.Recorded.entry (h : x.Recorded S sealed) :
    ∃ entry ∈ sealed, ∃ front, x.envelope = front ++ entry.ciphertext ∧
      entry.plaintext = x.key ∧ buildKeyWrapAAD x.channelID x.recipient = .ok entry.aad := by
  obtain ⟨-, draw, s, s', hrun, hin⟩ := h
  obtain ⟨aad, haad, hwrap⟩ := wrapKeyForMember_ok hrun
  obtain ⟨pub, key, -, -, henvelope, rfl⟩ := wrapChannelKey_ok hwrap
  refine ⟨⟨key, draw.nonce, aad, x.key, draw.ciphertext⟩, hin mem_cons_self,
    envelopeVersion :: (S.getPublicKey draw.ephemeralSecret ++ draw.nonce), ?_, rfl, haad⟩
  rw [henvelope, cons_append, append_assoc]

theorem Wrap.Recorded.same {y : Wrap} (hideal : Ideal sealed) (hx : x.Recorded S sealed)
    (hy : y.Recorded S sealed) (henvelope : x.envelope = y.envelope) :
    x.channelID = y.channelID ∧ x.key = y.key := by
  obtain ⟨a, ha, front, hfront, hakey, haad⟩ := hx.entry
  obtain ⟨b, hb, front', hfront', hbkey, hbaad⟩ := hy.entry
  have hlong : ∀ e ∈ sealed, tagLength ≤ e.ciphertext.length := by
    intro e he
    have := hideal.length e he
    omega
  have htag : tagOf a.ciphertext = tagOf b.ciphertext := by
    rw [← tagOf_append (hlong a ha), ← tagOf_append (hlong b hb), ← hfront, ← hfront', henvelope]
  have hsame := hideal.eq_of_tag ha hb htag
  subst hsame
  exact ⟨(buildKeyWrapAAD_inj haad hbaad).1, hakey.symm.trans hbkey⟩

/-- An envelope for this user unwraps under the channel it was wrapped for and no other. -/
theorem unwrapEnvelope_recorded (hS : S.Agrees lowOrder) (hkeypair : S.IsKeypair identity)
    (hideal : Ideal sealed) (hx : x.Recorded S sealed)
    (hrecipient : x.recipient = identity.publicKey) {key : Bytes} :
    unwrapEnvelope S sealed channelID identity x.envelope = .ok key ↔
      x.channelID = channelID ∧ x.key = key := by
  constructor
  · intro h
    obtain ⟨entry, hentry, front, hfront, hkey, haad⟩ := hx.entry
    obtain ⟨wrapping, aad', haad', hopen⟩ := unwrapEnvelope_ok h
    rw [hfront] at hopen
    obtain ⟨-, -, rfl, rfl⟩ := hideal.eq_of_decrypt hentry hopen
    exact ⟨(buildKeyWrapAAD_inj haad haad').1, hkey.symm⟩
  · rintro ⟨rfl, rfl⟩
    obtain ⟨hlength, draw, s, s', hrun, hin⟩ := hx
    obtain ⟨aad, haad, hwrap⟩ := wrapKeyForMember_ok hrun
    rw [hrecipient] at haad
    rw [hrecipient, hkeypair.publicKey] at hwrap
    unfold unwrapEnvelope
    rw [haad]
    exact unwrapChannelKey_wrapChannelKey hS hkeypair.secretLength hlength hwrap hideal hin

/-! ## Section 5: Steps -/

/-- What holds of the system apart from the property. -/
structure World.Sound (S : Suite) (identity : IdentityKeypair) (w : World) : Prop where
  ideal : Ideal w.client.sealed
  identity : w.client.identityKeypair = some identity
  recorded : ∀ x ∈ w.wraps, x.Recorded S w.client.sealed

theorem wrapKeyForMember_error {draw : WrapDraw} {key recipient : Bytes} {s s' : CryptoState}
    {msg : String} (h : wrapKeyForMember S draw channelID key recipient s = .error msg s') :
    s' = s := by
  have hends : Ends (wrapKeyForMember S draw channelID key recipient) s
      (fun _ _ => True) (fun _ s' => s' = s) := by
    refine ends_check (fun aad _ => ?_) (fun _ => rfl)
    refine ends_check (fun pub _ => ?_) (fun _ => rfl)
    refine ends_check (fun _ _ => ?_) (fun _ => rfl)
    refine ends_check (fun wrapping _ => ?_) (fun _ => rfl)
    exact trivial
  unfold Ends at hends
  rw [h] at hends
  exact hends

theorem World.Sound.step (h : w.Sound S identity) {ev : Event}
    (hassumed : Assumed S identity w ev) : (w.step S identity ev).Sound S identity := by
  have hideal := hassumed.1
  cases ev with
  | wrap draw channelID version key recipient =>
    cases hrun : wrapKeyForMember S draw channelID key.bytes recipient w.client with
    | error msg client =>
      have hsame := wrapKeyForMember_error hrun
      subst hsame
      simp only [World.step, hrun] at hideal ⊢
      exact ⟨hideal, h.identity, h.recorded⟩
    | ok envelope client =>
      obtain ⟨aad, -, hwrap⟩ := wrapKeyForMember_ok hrun
      obtain ⟨pub, wrapping, -, -, -, hclient⟩ := wrapChannelKey_ok hwrap
      simp only [World.step, hrun] at hideal ⊢
      have hmore : w.client.sealed ⊆ client.sealed := by
        rw [hclient]
        exact subset_cons_self _ _
      refine ⟨hideal, ?_, ?_⟩
      · show client.identityKeypair = some identity
        rw [hclient]
        exact h.identity
      · intro x hx
        rcases mem_cons.mp hx with rfl | hold
        · exact ⟨key.length, draw, w.client, client, hrun, .refl _⟩
        · exact (h.recorded x hold).mono hmore
  | other entry =>
    exact ⟨hideal, h.identity, fun x hx => (h.recorded x hx).mono (subset_cons_self _ _)⟩
  | fetch channelID reply =>
    have hclient := @doFetchAndCache_insertions S channelID identity reply _ h.identity
    simp only [World.step, hclient] at hideal ⊢
    exact ⟨hideal, h.identity, h.recorded⟩

/-- The envelopes that a fetch inserts: those before the first one of another channel. -/
theorem mem_insertions (hS : S.Agrees lowOrder) (hkeypair : S.IsKeypair identity)
    (hsound : w.Sound S identity) {reply : List VersionedEnvelope}
    (hserved : ∀ e ∈ reply, ∃ x ∈ w.wraps,
      x.envelope = e.envelope ∧ x.recipient = identity.publicKey) (p : Put) :
    p ∈ insertions S w.client.sealed channelID identity reply ↔
      ∃ e ∈ reply.takeWhile (w.wrappedFor channelID), ∃ x ∈ w.wraps,
        x.envelope = e.envelope ∧ x.channelID = channelID ∧
          p = ⟨channelID, e.keyVersion, x.key, e.envelope⟩ := by
  induction reply with
  | nil => simp [insertions]
  | cons e reply ih =>
    obtain ⟨⟨x, hx, henvelope, hrecipient⟩, hrest⟩ := forall_mem_cons.mp hserved
    have hrecorded := hsound.recorded x hx
    have hopens : ∀ key, unwrapEnvelope S w.client.sealed channelID identity e.envelope =
        .ok key ↔ x.channelID = channelID ∧ x.key = key := by
      intro key
      rw [← henvelope]
      exact unwrapEnvelope_recorded hS hkeypair hsound.ideal hrecorded hrecipient
    -- any other wrapping with this envelope agrees with `x`
    have hsame : ∀ y ∈ w.wraps, y.envelope = e.envelope →
        y.channelID = x.channelID ∧ y.key = x.key := by
      intro y hy hyenvelope
      exact Wrap.Recorded.same hsound.ideal (hsound.recorded y hy) hrecorded
        (hyenvelope.trans henvelope.symm)
    by_cases hchannel : x.channelID = channelID
    · have hopen := (hopens x.key).mpr ⟨hchannel, rfl⟩
      have hfor : w.wrappedFor channelID e = true :=
        any_eq_true.mpr ⟨x, hx, by simp [henvelope, hchannel]⟩
      have hcons : insertions S w.client.sealed channelID identity (e :: reply) =
          ⟨channelID, e.keyVersion, x.key, e.envelope⟩ ::
            insertions S w.client.sealed channelID identity reply := by
        simp only [insertions, hopen]
      rw [takeWhile_cons_of_pos hfor, hcons, mem_cons, ih hrest, exists_mem_cons_iff]
      refine or_congr ?_ .rfl
      constructor
      · rintro rfl
        exact ⟨x, hx, henvelope, hchannel, rfl⟩
      · rintro ⟨y, hy, hyenvelope, -, rfl⟩
        rw [(hsame y hy hyenvelope).2]
    · have hfor : ¬ w.wrappedFor channelID e = true := by
        intro hany
        obtain ⟨y, hy, hyes⟩ := any_eq_true.mp hany
        simp only [decide_eq_true_eq] at hyes
        exact hchannel ((hsame y hy hyes.1).1.symm.trans hyes.2)
      rw [takeWhile_cons_of_neg hfor]
      cases hopen : unwrapEnvelope S w.client.sealed channelID identity e.envelope with
      | ok key => exact absurd ((hopens key).mp hopen).1 hchannel
      | error msg => simp [insertions, hopen]

/-- A fetch keeps the property exactly when the reply is labelled right. -/
theorem bound_step_iff (hS : S.Agrees lowOrder) (hkeypair : S.IsKeypair identity) {ev : Event}
    (hsound : w.Sound S identity) (hbound : w.Bound) (hassumed : Assumed S identity w ev) :
    (w.step S identity ev).Bound ↔ Labelled w ev := by
  cases ev with
  | wrap draw channelID version key recipient =>
    refine iff_of_true ?_ trivial
    intro p hp
    cases hrun : wrapKeyForMember S draw channelID key.bytes recipient w.client with
    | error msg client =>
      simp only [World.step, hrun] at hp ⊢
      exact hbound p hp
    | ok envelope client =>
      simp only [World.step, hrun] at hp ⊢
      obtain ⟨x, hx, hfor⟩ := hbound p hp
      exact ⟨x, mem_cons_of_mem _ hx, hfor⟩
  | other entry => exact iff_of_true hbound trivial
  | fetch channelID reply =>
    have hputs : ∀ p, p ∈ insertions S w.client.sealed channelID identity reply ↔ _ :=
      mem_insertions hS hkeypair hsound hassumed.2
    show (∀ p ∈ w.puts ++ insertions S w.client.sealed channelID identity reply, _) ↔ _
    rw [forall_mem_append]
    refine (and_iff_right hbound).trans ?_
    constructor
    · intro hall e he
      have hfor := mem_takeWhile_imp he
      obtain ⟨y, hy, hyes⟩ := any_eq_true.mp hfor
      simp only [decide_eq_true_eq] at hyes
      have hput := (hputs ⟨channelID, e.keyVersion, y.key, e.envelope⟩).mpr
        ⟨e, he, y, hy, hyes.1, hyes.2, rfl⟩
      obtain ⟨x, hx, henvelope, -, -, hversion⟩ := hall _ hput
      exact ⟨x, hx, henvelope, hversion⟩
    · intro hlabelled p hp
      obtain ⟨e, he, y, hy, hyenvelope, hychannel, rfl⟩ := (hputs p).mp hp
      obtain ⟨x, hx, henvelope, hversion⟩ := hlabelled e he
      obtain ⟨hchannel, hkey⟩ := Wrap.Recorded.same hsound.ideal (hsound.recorded x hx)
        (hsound.recorded y hy) (henvelope.trans hyenvelope.symm)
      exact ⟨x, hx, henvelope, hkey, hchannel.trans hychannel, hversion⟩

/-! ## Section 6: Runs -/

/-- In every run the cached keys are bound to their channel and version all along exactly
    when every fetch is answered with the right labels. -/
theorem bound_along_iff {S : Suite} (hS : S.Agrees lowOrder) {identity : IdentityKeypair}
    (hkeypair : S.IsKeypair identity) {client : CryptoState} {evs : List Event}
    (hidentity : client.identityKeypair = some identity) (hideal : Ideal client.sealed)
    (hassumed : Guarded (.step S identity) (Assumed S identity) { client } evs) :
    (∀ pre, pre <+: evs → (exec (World.step S identity) { client } pre).Bound) ↔
      Guarded (.step S identity) Labelled { client } evs := by
  have hstart : World.Sound S identity { client } := by
    refine ⟨hideal, hidentity, ?_⟩
    intro x hx
    cases hx
  have hnone : World.Bound { client } := by
    intro p hp
    cases hp
  have hkeep : ∀ w ev, World.Sound S identity w → Assumed S identity w ev →
      (w.step S identity ev).Sound S identity := fun w ev hw hok => hw.step hok
  have hstep : ∀ w ev, World.Sound S identity w → w.Bound → Assumed S identity w ev →
      ((w.step S identity ev).Bound ↔ Labelled w ev) :=
    fun w ev hw hbound hok => bound_step_iff hS hkeypair hw hbound hok
  exact along_iff_of_guarded hkeep hstep hstart hnone hassumed

/-! ## Section 7: A rollback -/

/-- The key of version 1 is wrapped for Ann, and then the one of version 2. -/
def rotated : List Event :=
  [.wrap (drawOf 1) generalID 1 ⟨keyOf 1, rfl⟩ annsKeys.publicKey,
   .wrap (drawOf 2) generalID 2 ⟨keyOf 2, rfl⟩ annsKeys.publicKey]

theorem plainSuite_isKeypair_annsKeys : plainSuite.IsKeypair annsKeys where
  secretLength := rfl
  publicKey := rfl

theorem bound_along_iff_rotated :
    (exec (World.step plainSuite annsKeys) { client := { identityKeypair := some annsKeys } }
      (rotated ++ [.fetch generalID [⟨1, envelopeOf 1⟩, ⟨2, envelopeOf 2⟩]])).Bound :=
  (bound_along_iff plainSuite_agrees plainSuite_isKeypair_annsKeys rfl (by decide)
    (by decide +kernel)).mpr (by decide +kernel) _ (prefix_refl _)

/-- The server hands out the envelope of version 1 under the label 2. -/
theorem not_bound_along_rollback :
    ¬ ∀ (S : Suite) (identity : IdentityKeypair) (client : CryptoState) (evs : List Event),
      S.Agrees lowOrder → S.IsKeypair identity → client.identityKeypair = some identity →
      Ideal client.sealed →
      Guarded (.step S identity) (Assumed S identity) { client } evs →
      ∀ pre, pre <+: evs → (exec (World.step S identity) { client } pre).Bound := by
  intro h
  have hbound := h plainSuite annsKeys { identityKeypair := some annsKeys }
    (rotated ++ [.fetch generalID [⟨2, envelopeOf 1⟩]]) plainSuite_agrees
    plainSuite_isKeypair_annsKeys rfl (by decide) (by decide +kernel) _ (prefix_refl _)
  revert hbound
  decide +kernel

end Meza.Crypto
