import Meza.Auth.FederatedSessions

/-! # Federation assertions

    An assertion is verified, and then its id is put into Redis for two minutes;
    the call that puts it there accepts the assertion. An observer notes which
    assertions are accepted. Nothing bounds the time for which an issuer makes an
    assertion valid. -/

namespace Meza.Auth.Sessions
open List Presentation

open Aead (Bytes)
open Store (ID)

/-! ## Section 1: Accepted assertions -/

/-- The call has verified an assertion and consumes its id. -/
def Phase.consumes : Phase → Option (Assertion × Nat)
  | .joinConsuming a verifiedAt | .federationConsumingJTI _ a verifiedAt => some (a, verifiedAt)
  | _ => none

/-- The call goes on with the assertion. -/
def State.accepts (s : State) (o : Outcome) (a : Assertion) : Bool :=
  o.reply = .ok ∧ a.jti ≠ [] ∧ (s.consumeJTI a.jti).isSome

/-- A step is observed. -/
def seeAccepted (s : State) (p : Phase) (o : Outcome) (accepted : List Presentation) :
    List Presentation :=
  match p.consumes with
  | none => accepted
  | some (a, verifiedAt) =>
    if s.accepts o a then { assertion := a, verifiedAt, consumedAt := s.now } :: accepted
    else accepted

abbrev Watched := Pool.State (State × List Presentation) Phase

def watchedStep : Watched → Event → Watched := Pool.step .begin (Pool.watched seeAccepted next)

def watchedInitial (originURL instanceURL : String) : Watched :=
  { shared := ({ originURL, instanceURL }, []), calls := [] }

/-- The assertion was signed with the key of the issuer, for this instance, and had not expired
    when it was verified. -/
structure Presentation.Proper (originURL instanceURL : String) (x : Presentation) : Prop where
  signed : x.assertion.signed = true
  issuer : x.assertion.issuer = originURL
  audience : x.assertion.audience = instanceURL
  unexpired : ∃ expiry, x.assertion.expiresAt = some expiry ∧ x.verifiedAt < expiry + 15

/-- No assertion is accepted twice, and none that is not proper. -/
structure AcceptedOnce (originURL instanceURL : String) (accepted : List Presentation) :
    Prop where
  once : (accepted.map assertion).Nodup
  proper : ∀ x ∈ accepted, x.Proper originURL instanceURL

/-- The id was consumed within the last two minutes. -/
def State.Recalls (s : State) (jti : Bytes) : Prop :=
  ∃ n, .consumedJTI jti n ∈ s.log ∧ s.now ≤ n + 120

/-- An assertion without an expiry, or one that was accepted, is presented only as long as its id
    is recalled. -/
def presentsOnce (sw : State × List Presentation) (_ : List Phase) (p : Phase) (o : Outcome) :
    Prop :=
  match p.consumes with
  | none => True
  | some (a, _) =>
    o.reply = .ok → a.jti ≠ [] →
      (a.expiresAt ≠ none ∧ ∀ x ∈ sw.2, x.assertion ≠ a) ∨ sw.1.Recalls a.jti

abbrev PresentsOnce : Watched → Event → Prop := Pool.Allows (fun _ _ => True) presentsOnce

/-! ## Section 2: What is in Redis -/

/-- What is in Redis was consumed. -/
def Recorded (s : State) : Prop :=
  ∀ jti expiry, s.usedJTI jti = some expiry → ∃ n, .consumedJTI jti n ∈ s.log ∧ expiry = n + 120

theorem mem_consumptions {log : List Act} {jti : Bytes} {n : Nat} :
    (jti, n) ∈ consumptions log ↔ .consumedJTI jti n ∈ log := by
  simp only [consumptions, mem_filterMap]
  constructor
  · rintro ⟨a, ha, heq⟩
    cases a with
    | consumedJTI jti' n' =>
      cases heq
      exact ha
    | _ => cases heq
  · exact fun h => ⟨_, h, rfl⟩

variable {s : State}

theorem consumeJTI_eq_none_iff (hremembered : Remembered s) (hrecorded : Recorded s) {jti : Bytes} :
    s.consumeJTI jti = none ↔ s.Recalls jti := by
  have hnone : s.consumeJTI jti = none ↔ ∃ expiry, s.usedJTI jti = some expiry ∧ s.now ≤ expiry := by
    unfold State.consumeJTI
    cases s.usedJTI jti with
    | none => simp
    | some expiry => simp
  rw [hnone]
  constructor
  · rintro ⟨expiry, hused, hnow⟩
    obtain ⟨n, hconsumed, rfl⟩ := hrecorded jti expiry hused
    exact ⟨n, hconsumed, hnow⟩
  · rintro ⟨n, hconsumed, hnow⟩
    obtain ⟨expiry, hused, hle⟩ := hremembered _ (mem_consumptions.mpr hconsumed)
    exact ⟨expiry, hused, hnow.trans hle⟩

/-- What every run keeps. -/
structure Kept (originURL instanceURL : String) (t : Watched) : Prop where
  shown : Shown t.erase
  recorded : Recorded t.shared.1
  origin : t.shared.1.originURL = originURL
  instanceU : t.shared.1.instanceURL = instanceURL

section Kept

variable {originURL instanceURL : String}

theorem Kept.perm : Pool.OrderFree (Kept originURL instanceURL) := by
  intro sw l l' hperm h
  exact { h with shown := .perm sw.1 l l' hperm h.shown }

theorem Kept.start : Pool.StartKeeps Phase.begin (Kept originURL instanceURL) := by
  intro sw calls call h
  exact { h with shown := .start sw.1 calls call h.shown }

theorem Effect.recorded {s' : State} {o : Outcome} {p p' : Phase} (h : Effect s o p s' p')
    (hrecorded : Recorded s) : Recorded s' := by
  have hgrows := h.grows.log
  have hkept : ∀ jti expiry, s.usedJTI jti = some expiry →
      ∃ n, .consumedJTI jti n ∈ s'.log ∧ expiry = n + 120 := by
    intro jti expiry hused
    obtain ⟨n, hconsumed, hexpiry⟩ := hrecorded jti expiry hused
    exact ⟨n, hgrows _ hconsumed, hexpiry⟩
  intro jti expiry hused
  rcases h.shown with hnone | ⟨jti', -, hconsumed, -, hupdate, -⟩ | ⟨u, d, source, -, -, -, hsame, -⟩
  · rw [hnone.usedJTI] at hused
    exact hkept jti expiry hused
  · rw [hupdate] at hused
    by_cases hjti : jti = jti'
    · subst hjti
      rw [Function.update_self] at hused
      cases hused
      have hmem : (jti, s.now) ∈ consumptions s'.log := by
        rw [hconsumed]
        exact mem_cons_self
      exact ⟨s.now, mem_consumptions.mp hmem, rfl⟩
    · rw [Function.update_of_ne hjti] at hused
      exact hkept jti expiry hused
  · rw [hsame] at hused
    exact hkept jti expiry hused

theorem Kept.next : Pool.NextKeeps (Pool.watched seeAccepted Sessions.next)
    (Kept originURL instanceURL) := by
  intro sw p others o sw' p' h hnext
  obtain ⟨hstep, -⟩ := Pool.watched_cases hnext
  have heffect := next_effect hstep
  refine ⟨Shown.next sw.1 p others o sw'.1 p' h.shown hstep, heffect.recorded h.recorded, ?_, ?_⟩
  · exact heffect.grows.origin.trans h.origin
  · exact heffect.grows.instanceU.trans h.instanceU

theorem Kept.init : Kept originURL instanceURL (watchedInitial originURL instanceURL) where
  shown := .init originURL instanceURL
  recorded := by
    intro jti expiry hused
    cases hused
  origin := rfl
  instanceU := rfl

end Kept

/-! ## Section 3: The condition -/

section Condition

variable {originURL instanceURL : String} {sw sw' : State × List Presentation}
  {accepted : List Presentation} {x : Presentation} {p p' : Phase} {others : List Phase}
  {o : Outcome}

theorem acceptedOnce_cons : AcceptedOnce originURL instanceURL (x :: accepted) ↔
    AcceptedOnce originURL instanceURL accepted ∧ x.Proper originURL instanceURL ∧
      ∀ y ∈ accepted, y.assertion ≠ x.assertion := by
  have hnodup : ((x :: accepted).map assertion).Nodup ↔
      (∀ y ∈ accepted, y.assertion ≠ x.assertion) ∧ (accepted.map assertion).Nodup := by
    simp [nodup_cons]
  constructor
  · rintro ⟨honce, hproper⟩
    obtain ⟨hnew, hold⟩ := hnodup.mp honce
    obtain ⟨hx, hrest⟩ := forall_mem_cons.mp hproper
    exact ⟨⟨hold, hrest⟩, hx, hnew⟩
  · rintro ⟨⟨hold, hrest⟩, hx, hnew⟩
    exact ⟨hnodup.mpr ⟨hnew, hold⟩, forall_mem_cons.mpr ⟨hx, hrest⟩⟩

variable {a : Assertion} {verifiedAt : Nat}

theorem proper_iff (hvalid : a.valid s.originURL s.instanceURL verifiedAt = true)
    (consumedAt : Nat) :
    Proper s.originURL s.instanceURL ⟨a, verifiedAt, consumedAt⟩ ↔ a.expiresAt ≠ none := by
  simp only [Assertion.valid, decide_eq_true_eq, Bool.decide_and, Bool.and_eq_true] at hvalid
  obtain ⟨hissuer, hsigned, -, -, -, haudience, hexpiry, -⟩ := hvalid
  constructor
  · rintro ⟨-, -, -, expiry, hsome, -⟩ hnone
    rw [hsome] at hnone
    cases hnone
  · intro hsome
    obtain ⟨expiry, hsome⟩ := Option.ne_none_iff_exists'.mp hsome
    refine ⟨hsigned, hissuer, haudience, expiry, hsome, ?_⟩
    rw [hsome] at hexpiry
    exact of_decide_eq_true hexpiry

theorem valid_of_consumes (h : p.Truthful s) (hp : p.consumes = some (a, verifiedAt)) :
    a.valid s.originURL s.instanceURL verifiedAt = true := by
  cases p with
  | joinConsuming a' n =>
    cases hp
    exact h
  | federationConsumingJTI t a' n =>
    cases hp
    exact h.2
  | _ => cases hp

theorem acceptedOnce_see_iff
    (hkept : Kept originURL instanceURL { shared := sw, calls := p :: others })
    (h : AcceptedOnce originURL instanceURL sw.2) :
    AcceptedOnce originURL instanceURL (seeAccepted sw.1 p o sw.2) ↔
      presentsOnce sw others p o := by
  have htrue : p.Truthful sw.1 := hkept.shown.sound.each p mem_cons_self
  unfold seeAccepted presentsOnce
  cases hp : p.consumes with
  | none => exact iff_of_true h trivial
  | some consumed =>
    obtain ⟨a, verifiedAt⟩ := consumed
    have hvalid := valid_of_consumes htrue hp
    have hrecalls : sw.1.consumeJTI a.jti = none ↔ sw.1.Recalls a.jti :=
      consumeJTI_eq_none_iff hkept.shown.remembered hkept.recorded
    dsimp only
    split_ifs with haccepts
    · simp only [State.accepts, decide_eq_true_eq] at haccepts
      obtain ⟨hreply, hjti, hfree⟩ := haccepts
      have hnot : ¬ sw.1.Recalls a.jti := by
        rw [← hrecalls]
        intro hnone
        rw [hnone] at hfree
        cases hfree
      have hproper := proper_iff hvalid sw.1.now
      rw [hkept.origin, hkept.instanceU] at hproper
      rw [acceptedOnce_cons, hproper]
      constructor
      · rintro ⟨-, hexpiry, hnew⟩ - -
        exact Or.inl ⟨hexpiry, hnew⟩
      · intro hpresents
        exact ⟨h, (hpresents hreply hjti).resolve_right hnot⟩
    · refine iff_of_true h fun hreply hjti => Or.inr ?_
      rw [← hrecalls]
      by_contra hsome
      refine haccepts ?_
      simp only [State.accepts, decide_eq_true_eq]
      exact ⟨hreply, hjti, Option.isSome_iff_ne_none.mpr hsome⟩

/-- A call that consumes an id does not wait. -/
theorem presentsOnce_of_none (h : Pool.watched seeAccepted Sessions.next sw others p o = none) :
    presentsOnce sw others p o := by
  have hnone : Sessions.next sw.1 others p o = none := Option.map_eq_none_iff.mp h
  have hgoes : ∀ a k, checkJTIReplay sw.1 o a k ≠ none := by
    intro a k
    unfold checkJTIReplay
    split
    · simp
    · split <;> simp
  cases p with
  | joinConsuming | federationConsumingJTI => exact absurd hnone (hgoes _ _)
  | _ => trivial

/-- Every assertion is accepted once and properly exactly when none without an expiry and none
    that was accepted is presented later than its id is recalled. -/
theorem acceptedOnce_along_iff (originURL instanceURL : String) (evs : List Event) :
    (∀ pre, pre <+: evs → AcceptedOnce originURL instanceURL
      (Run.exec watchedStep (watchedInitial originURL instanceURL) pre).shared.2) ↔
      Run.Guarded watchedStep PresentsOnce (watchedInitial originURL instanceURL) evs := by
  refine Run.along_iff_of_kept (J := Kept originURL instanceURL)
    (I := fun t => AcceptedOnce originURL instanceURL t.shared.2)
    (Pool.keeps_event Kept.perm Kept.start Kept.next) ?_ Kept.init ?_
  · refine Pool.event_iff Kept.perm (fun _ _ _ _ h => h) (fun _ _ _ h => h)
      (fun _ _ _ _ h => presentsOnce_of_none h) ?_
    intro sw p others o sw' p' hkept h hnext
    obtain ⟨-, hsee⟩ := Pool.watched_cases hnext
    show AcceptedOnce originURL instanceURL sw'.2 ↔ _
    rw [hsee]
    exact acceptedOnce_see_iff hkept h
  · exact ⟨nodup_nil, fun x hx => by cases hx⟩

/-! ### An assertion that does not expire -/

def foreverAssertion : Assertion :=
  { issuer := "https://meza.chat", userID := "emma", audience := "https://spoke.example"
    jti := [1], expiresAt := none }

/-- The assertion is presented again after two minutes. -/
def presentsAgain : List Event :=
  [.start (.federationJoin foreverAssertion), .advance 0 {}, .advance 0 {},
   .start (.clock 121), .advance 1 {},
   .start (.federationJoin foreverAssertion), .advance 2 {}, .advance 2 {}]

theorem not_acceptedOnce_presentsAgain :
    ¬ AcceptedOnce "https://meza.chat" "https://spoke.example"
      (Run.exec watchedStep (watchedInitial "https://meza.chat" "https://spoke.example")
        presentsAgain).shared.2 := by
  intro h
  have honce := h.once
  revert honce
  decide

end Condition

end Meza.Auth.Sessions
