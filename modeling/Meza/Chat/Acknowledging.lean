import Meza.Chat.Messages
import Meza.Client.ReadState
import Meza.Lib.Pool

/-! # Acknowledging messages

    `AckMessage` as any number of calls run it at the same time, for any users
    and channels: the checks, the upsert of the read state, the count of what is
    left to read, and the event that goes to all devices of the user, each a
    step. A query that fails changes nothing, and publishing does not fail.
    The messages of the channels stay as they are.

    The table keeps the greatest id, whatever the order. The event and the
    response say the id of the request, which a device replaces its own by. -/

namespace Meza.Chat.Acknowledging

open Store Client List Run Pool
open ReadStateStore (lastRead upsertReadState)
open MessageStore (countMessagesAfter)

/-! ## Section 1: Calls and phases -/

structure AckMessageRequest where
  channelID : ID
  messageID : ID
  deriving DecidableEq, Repr

inductive Phase where
  /-- The request's own fields, then the channel and the membership -/
  | begun (caller : Option ID) (req : AckMessageRequest)
  /-- `UpsertReadState` -/
  | admitted (userID : ID) (req : AckMessageRequest)
  /-- `CountMessagesAfter` -/
  | upserted (userID : ID) (req : AckMessageRequest)
  /-- The event, then the response -/
  | counted (userID : ID) (readState : ReadState)
  | acknowledged (userID : ID) (readState : ReadState)
  | refused (error : ConnectError)
  deriving DecidableEq

def Phase.begin (call : Option ID × AckMessageRequest) : Phase := .begun call.1 call.2

def Phase.finished : Phase → Bool
  | .acknowledged _ _ | .refused _ => true
  | _ => false

/-- A `READ_STATE_UPDATE` on the subject of a user, and what the table has for the
    channel when it is published. -/
structure Publication where
  userID : ID
  readState : ReadState
  stored : Option ID
  deriving DecidableEq

structure Shared where
  rows : List ReadStateRow
  published : List Publication := []
  deriving DecidableEq

structure Outcome where
  /-- The tables as the checks find them. -/
  tables : Tables := {}
  /-- The query returns an error. -/
  failed : Bool := false

/-! ## Section 2: Steps -/

def checkAck (t : Tables) (caller : Option ID) (req : AckMessageRequest) :
    Except ConnectError ID := do
  let userID ← authenticate caller
  rejectIf (req.channelID = "" ∨ req.messageID = "") .invalidArgument
    "channel_id and message_id are required"
  let _ ← requireParticipant "not a member of this server" t req.channelID userID
  return userID

def Shared.upsert (sh : Shared) (userID : ID) (req : AckMessageRequest) : Shared :=
  { sh with rows := upsertReadState sh.rows userID req.channelID req.messageID }

def Shared.publish (sh : Shared) (userID : ID) (readState : ReadState) : Shared :=
  { sh with published := sh.published ++
      [{ userID, readState, stored := lastRead sh.rows userID readState.channelID }] }

variable (a : Archive)

/-- The read state that is sent: the request's own id, and 0 if the count fails. -/
def ackedReadState (failed : Bool) (req : AckMessageRequest) : ReadState :=
  { channelID := req.channelID
    lastReadMessageID := req.messageID
    unreadCount := if failed then 0 else countMessagesAfter a req.channelID req.messageID }

def nextStep (sh : Shared) (o : Outcome) : Phase → Option (Shared × Phase)
  | .begun caller req =>
    some (answer .refused sh (checkAck o.tables caller req) fun userID => .admitted userID req)
  | .admitted userID req =>
    if o.failed then some (sh, .refused internalError)
    else some (sh.upsert userID req, .upserted userID req)
  | .upserted userID req => some (sh, .counted userID (ackedReadState a o.failed req))
  | .counted userID readState =>
    some (sh.publish userID readState, .acknowledged userID readState)
  | .acknowledged _ _ | .refused _ => none

def next (sh : Shared) (_ : List Phase) (p : Phase) (o : Outcome) : Option (Shared × Phase) :=
  nextStep a sh o p

abbrev State : Type := Pool.State Shared Phase

abbrev Event : Type := Pool.Event (Option ID × AckMessageRequest) Outcome

/-- Any interleaving. -/
abbrev step : State → Event → State := Pool.step .begin (next a)

/-- Nothing has been called yet. -/
def initial (rows : List ReadStateRow) : State := { shared := { rows }, calls := [] }

/-- What a device of the user does with the events, one after the other. -/
def deliver (userID : ID) (client : ReadStateState) (published : List Publication) :
    ReadStateState :=
  (published.filter (·.userID = userID)).foldl (fun c pub => c.updateReadState pub.readState) client

/-! ## Section 3: What a step changes -/

/-- The id that a call has brought to the table, for one user and channel. -/
def Phase.acked (u c : ID) : Phase → Option ID
  | .upserted userID req =>
    if userID = u ∧ req.channelID = c then some req.messageID else none
  | .counted userID rs | .acknowledged userID rs =>
    if userID = u ∧ rs.channelID = c then some rs.lastReadMessageID else none
  | .begun _ _ | .admitted _ _ | .refused _ => none

/-- That id, until its event is published. -/
def Phase.pending (u c : ID) (p : Phase) : Option ID := if p.finished then none else p.acked u c

variable {a}

inductive Change (a : Archive) (sh : Shared) (o : Outcome) : Phase → Shared → Phase → Prop where
  | refuse {p : Phase} (e : ConnectError) (early : ∀ u c, p.acked u c = none) :
      Change a sh o p sh (.refused e)
  | pass {caller : Option ID} {req : AckMessageRequest} (userID : ID) :
      Change a sh o (.begun caller req) sh (.admitted userID req)
  | upsert {userID : ID} {req : AckMessageRequest} (succeeds : o.failed = false) :
      Change a sh o (.admitted userID req) (sh.upsert userID req) (.upserted userID req)
  | count {userID : ID} {req : AckMessageRequest} :
      Change a sh o (.upserted userID req) sh (.counted userID (ackedReadState a o.failed req))
  | publish {userID : ID} {readState : ReadState} :
      Change a sh o (.counted userID readState) (sh.publish userID readState)
        (.acknowledged userID readState)

variable {user userID : ID} {others : List Phase} {k : Nat} {o : Outcome} {p p' : Phase}
  {client : ReadStateState} {sh sh' : Shared}

theorem next_change (h : next a sh others p o = some (sh', p')) : Change a sh o p sh' p' := by
  cases p with
  | begun caller req =>
    obtain ⟨rfl, ⟨userID, -, rfl⟩ | ⟨e, rfl⟩⟩ := answer_cases (Option.some.inj h)
    · exact .pass userID
    · exact .refuse e fun _ _ => rfl
  | admitted userID req =>
    simp only [next, nextStep] at h
    split at h
    · cases h
      exact .refuse _ fun _ _ => rfl
    · rename_i hfailed
      cases h
      exact .upsert (Bool.eq_false_iff.mpr hfailed)
  | upserted userID req =>
    cases h
    exact .count
  | counted userID readState =>
    cases h
    exact .publish
  | acknowledged | refused => cases h

theorem lastRead_upsert (sh : Shared) (userID : ID) (req : AckMessageRequest) (u c : ID) :
    lastRead (sh.upsert userID req).rows u c =
      if u = userID ∧ c = req.channelID then
        some ((lastRead sh.rows userID req.channelID).elim req.messageID
          fun last => max last req.messageID)
      else lastRead sh.rows u c :=
  ReadStateStore.lastRead_upsertReadState sh.rows userID req.channelID req.messageID u c

/-! ## Section 4: The table keeps the maximum -/

/-- The ids that the calls have brought to the table. -/
def acknowledged (u c : ID) (calls : List Phase) : List ID := calls.filterMap (Phase.acked u c)

/-- What is stored is the greatest of what was and of what has been acknowledged. -/
def Highest (rows : List ReadStateRow) (s : State) : Prop :=
  ∀ u c, lastRead s.shared.rows u c =
    ((lastRead rows u c).toList ++ acknowledged u c s.calls).max?

theorem acknowledged_cons (u c : ID) (p : Phase) (others : List Phase) :
    acknowledged u c (p :: others) = (p.acked u c).toList ++ acknowledged u c others := by
  unfold acknowledged
  rw [filterMap_cons]
  cases p.acked u c with
  | none => rfl
  | some id => rfl

/-- The maximum does not depend on the order. -/
theorem max?_perm {α : Type*} [LinearOrder α] {l l' : List α} (h : l.Perm l') :
    l.max? = l'.max? := by
  refine Option.ext fun x => ?_
  rw [max?_eq_some_iff, max?_eq_some_iff, h.mem_iff]
  exact and_congr_right' (forall_congr' fun y => imp_congr_left h.mem_iff)

theorem max?_insert {α : Type*} [LinearOrder α] (l l' : List α) (x : α) :
    (l ++ x :: l').max? = some ((l ++ l').max?.elim x fun y => max y x) := by
  rw [max?_perm perm_middle, max?_cons]
  cases (l ++ l').max? with
  | none => rfl
  | some y => exact congrArg some (max_comm x y)

theorem highest_change {rows : List ReadStateRow}
    (h : Highest rows { shared := sh, calls := p :: others }) (hchange : Change a sh o p sh' p') :
    Highest rows { shared := sh', calls := p' :: others } := by
  intro u c
  have hbefore := h u c
  rw [acknowledged_cons] at hbefore ⊢
  cases hchange with
  | refuse e early =>
    rw [early u c] at hbefore
    exact hbefore
  | pass | count | publish => exact hbefore
  | upsert hsucceeds =>
    rename_i userID req
    show lastRead (sh.upsert userID req).rows u c =
      ((lastRead rows u c).toList ++
        ((if userID = u ∧ req.channelID = c then some req.messageID else none).toList ++
          acknowledged u c others)).max?
    have hothers : lastRead sh.rows u c =
        ((lastRead rows u c).toList ++ acknowledged u c others).max? := hbefore
    rw [lastRead_upsert]
    by_cases hsame : u = userID ∧ c = req.channelID
    · obtain ⟨rfl, rfl⟩ := hsame
      rw [if_pos ⟨rfl, rfl⟩, if_pos ⟨rfl, rfl⟩, hothers]
      exact (max?_insert _ _ _).symm
    · have hother : ¬ (userID = u ∧ req.channelID = c) := fun heq => hsame ⟨heq.1.symm, heq.2.symm⟩
      rw [if_neg hsame, if_neg hother]
      exact hothers

theorem highest_exec (rows : List ReadStateRow) (evs : List Event) :
    Highest rows (Run.exec (step a) (initial rows) evs) := by
  refine Pool.keeps_always ?_ ?_ ?_ ?_ evs
  · intro sh l l' hperm h u c
    have hacked : (acknowledged u c l).Perm (acknowledged u c l') := hperm.filterMap _
    rw [← max?_perm (hacked.append_left _)]
    exact h u c
  · intro sh calls call h u c
    exact h u c
  · intro sh p others o sh' p' h hnext
    exact highest_change h (next_change hnext)
  · intro u c
    show lastRead rows u c = ((lastRead rows u c).toList ++ []).max?
    cases lastRead rows u c with
    | none => rfl
    | some last => rfl

/-! ## Section 5: What is sent -/

/-- The event says what is stored when it is published, and the unread count after it. -/
def Publication.Current (a : Archive) (pub : Publication) : Prop :=
  pub.stored = some pub.readState.lastReadMessageID ∧
    pub.readState.unreadCount =
      countMessagesAfter a pub.readState.channelID pub.readState.lastReadMessageID

/-- No event of a user and channel goes back. -/
def Forward (published : List Publication) : Prop :=
  published.Pairwise fun p q =>
    p.userID = q.userID → p.readState.channelID = q.readState.channelID →
      p.readState.lastReadMessageID ≤ q.readState.lastReadMessageID

/-- What a run gets right: the table; the events and the responses; and, when all calls
    are finished, every device that agreed with the table at some point of the run and has
    had all later events. -/
structure Converges (a : Archive) (rows : List ReadStateRow) (evs : List Event) : Prop where
  highest : Highest rows (Run.exec (step a) (initial rows) evs)
  current : ∀ pub ∈ (Run.exec (step a) (initial rows) evs).shared.published, pub.Current a
  answered : ∀ userID readState,
    .acknowledged userID readState ∈ (exec (step a) (initial rows) evs).calls →
      ∃ pub ∈ (exec (step a) (initial rows) evs).shared.published,
        pub.userID = userID ∧ pub.readState = readState
  forward : Forward (exec (step a) (initial rows) evs).shared.published
  delivered : Quiescent Phase.finished (exec (step a) (initial rows) evs) →
    ∀ pre post, pre ++ post = evs → ∀ userID (client : ReadStateState),
      client.Agrees a (exec (step a) (initial rows) pre).shared.rows userID →
        (deliver userID client ((exec (step a) (initial rows) evs).shared.published.drop
          (exec (step a) (initial rows) pre).shared.published.length)).Agrees a
            (exec (step a) (initial rows) evs).shared.rows userID

/-! ## Section 6: Acknowledging in order -/

/-- When an id is written, the table has no greater one for the user and channel, and no
    call that has written another is still to publish its event; and the count fails only
    where it would give 0. -/
def advances (a : Archive) (sh : Shared) (others : List Phase) (p : Phase) (o : Outcome) : Prop :=
  match p with
  | .admitted userID req => o.failed = true ∨
      (∀ last ∈ lastRead sh.rows userID req.channelID, last ≤ req.messageID) ∧
        ∀ q ∈ others, ∀ id ∈ q.pending userID req.channelID, id = req.messageID
  | .upserted _ req => o.failed = true → countMessagesAfter a req.channelID req.messageID = 0
  | .begun _ _ | .counted _ _ | .acknowledged _ _ | .refused _ => True

def InOrder (a : Archive) : State → Event → Prop := Pool.Allows (fun _ _ => True) (advances a)

/-- A call between its upsert and its event has the id that is stored, and the count
    after it. -/
structure Steady (a : Archive) (sh : Shared) (p : Phase) : Prop where
  held : ∀ u c, ∀ id ∈ p.pending u c, lastRead sh.rows u c = some id
  counts : ∀ userID readState, p = .counted userID readState →
    readState.unreadCount = countMessagesAfter a readState.channelID readState.lastReadMessageID
  answered : ∀ userID readState, p = .acknowledged userID readState →
    ∃ pub ∈ sh.published, pub.userID = userID ∧ pub.readState = readState

/-- What has been sent was right, and is not ahead of the table. -/
structure Sent (a : Archive) (sh : Shared) : Prop where
  current : ∀ pub ∈ sh.published, pub.Current a
  behind : ∀ pub ∈ sh.published, ∃ last,
    lastRead sh.rows pub.userID pub.readState.channelID = some last ∧
      pub.readState.lastReadMessageID ≤ last
  forward : Forward sh.published

abbrev Ordered (a : Archive) : State → Prop :=
  Pool.Inv (Sent a) (Steady a) fun _ _ _ => True

theorem lastRead_upsert_self {req : AckMessageRequest}
    (h : ∀ last ∈ lastRead sh.rows userID req.channelID, last ≤ req.messageID) :
    lastRead (sh.upsert userID req).rows userID req.channelID = some req.messageID := by
  rw [lastRead_upsert, if_pos ⟨rfl, rfl⟩]
  rcases hlast : lastRead sh.rows userID req.channelID with _ | last
  · rfl
  · exact congrArg some (max_eq_right (h last hlast))

theorem lastRead_upsert_mono (sh : Shared) (userID : ID) (req : AckMessageRequest) {u c last : ID}
    (h : lastRead sh.rows u c = some last) :
    ∃ last', lastRead (sh.upsert userID req).rows u c = some last' ∧ last ≤ last' := by
  rw [lastRead_upsert]
  by_cases hsame : u = userID ∧ c = req.channelID
  · obtain ⟨rfl, rfl⟩ := hsame
    rw [if_pos ⟨rfl, rfl⟩, h]
    exact ⟨max last req.messageID, rfl, le_max_left _ _⟩
  · rw [if_neg hsame]
    exact ⟨last, h, le_rfl⟩

theorem steady_early (h : ∀ u c, p.acked u c = none) : Steady a sh p where
  held := by
    intro u c id hid
    have hnone : p.pending u c = none := by
      unfold Phase.pending
      rw [h u c]
      split
      · rfl
      · rfl
    rw [hnone] at hid
    cases hid
  counts := by
    rintro userID rs rfl
    have hacked := h userID rs.channelID
    simp [Phase.acked] at hacked
  answered := by
    rintro userID rs rfl
    have hacked := h userID rs.channelID
    simp [Phase.acked] at hacked

theorem ordered_upsert {req : AckMessageRequest}
    (h : Ordered a { shared := sh, calls := .admitted userID req :: others })
    (hmax : ∀ last ∈ lastRead sh.rows userID req.channelID, last ≤ req.messageID)
    (hothers : ∀ q ∈ others, ∀ id ∈ q.pending userID req.channelID, id = req.messageID) :
    Ordered a { shared := sh.upsert userID req, calls := .upserted userID req :: others } := by
  have hself := lastRead_upsert_self hmax
  have hne : ∀ u c, ¬ (u = userID ∧ c = req.channelID) →
      lastRead (sh.upsert userID req).rows u c = lastRead sh.rows u c := by
    intro u c hsame
    rw [lastRead_upsert, if_neg hsame]
  refine h.replace ⟨h.shared.current, ?_, h.shared.forward⟩ ⟨?_, ?_, ?_⟩ ?_ fun _ _ hpair => hpair
  · intro pub hpub
    obtain ⟨last, hlast, hle⟩ := h.shared.behind pub hpub
    obtain ⟨last', hlast', hle'⟩ := lastRead_upsert_mono sh userID req hlast
    exact ⟨last', hlast', hle.trans hle'⟩
  · intro u c id hid
    have hacked : (if userID = u ∧ req.channelID = c then some req.messageID else none) = some id :=
      hid
    split at hacked
    · rename_i hsame
      obtain ⟨rfl, rfl⟩ := hsame
      cases hacked
      exact hself
    · cases hacked
  · intro u rs heq
    cases heq
  · intro u rs heq
    cases heq
  · intro q hq hsteady _
    refine ⟨⟨?_, hsteady.counts, hsteady.answered⟩, trivial⟩
    intro u c id hid
    by_cases hsame : u = userID ∧ c = req.channelID
    · -- the other call has the same id
      obtain ⟨rfl, rfl⟩ := hsame
      rw [hothers q hq id hid]
      exact hself
    · rw [hne u c hsame]
      exact hsteady.held u c id hid

theorem ordered_publish {rs : ReadState}
    (h : Ordered a { shared := sh, calls := .counted userID rs :: others }) :
    Ordered a { shared := sh.publish userID rs, calls := .acknowledged userID rs :: others } := by
  have hp := h.each _ mem_cons_self
  have hstored : lastRead sh.rows userID rs.channelID = some rs.lastReadMessageID := by
    refine hp.held userID rs.channelID rs.lastReadMessageID ?_
    show (if userID = userID ∧ rs.channelID = rs.channelID then _ else none) = _
    rw [if_pos ⟨rfl, rfl⟩]
  have hmem : ∀ pub ∈ (sh.publish userID rs).published,
      pub ∈ sh.published ∨ pub = ⟨userID, rs, lastRead sh.rows userID rs.channelID⟩ := by
    intro pub hpub
    rcases List.mem_append.mp hpub with hpub | hpub
    · exact Or.inl hpub
    · exact Or.inr (List.mem_singleton.mp hpub)
  refine h.replace ⟨?_, ?_, ?_⟩ ⟨?_, ?_, ?_⟩ ?_ fun _ _ hpair => hpair
  · intro pub hpub
    rcases hmem pub hpub with hpub | rfl
    · exact h.shared.current pub hpub
    · exact ⟨hstored, hp.counts userID rs rfl⟩
  · intro pub hpub
    rcases hmem pub hpub with hpub | rfl
    · exact h.shared.behind pub hpub
    · exact ⟨rs.lastReadMessageID, hstored, le_rfl⟩
  · show List.Pairwise _ (sh.published ++ [_])
    rw [pairwise_append]
    refine ⟨h.shared.forward, pairwise_singleton _ _, ?_⟩
    intro pub hpub new hnew huser hchannel
    rw [List.mem_singleton.mp hnew] at huser hchannel ⊢
    -- what was sent before is not ahead of the table, and the table has the new id
    obtain ⟨last, hlast, hle⟩ := h.shared.behind pub hpub
    have huser' : pub.userID = userID := huser
    have hchannel' : pub.readState.channelID = rs.channelID := hchannel
    rw [huser', hchannel', hstored] at hlast
    cases hlast
    exact hle
  · intro u c id hid
    cases hid
  · intro u rs' heq
    cases heq
  · intro u rs' heq
    cases heq
    exact ⟨_, mem_append_right _ mem_cons_self, rfl, rfl⟩
  · intro q _ hsteady _
    refine ⟨⟨hsteady.held, hsteady.counts, ?_⟩, trivial⟩
    intro u rs' heq
    obtain ⟨pub, hpub, hsame⟩ := hsteady.answered u rs' heq
    exact ⟨pub, mem_append_left _ hpub, hsame⟩

theorem ordered_change (h : Ordered a { shared := sh, calls := p :: others })
    (hallow : advances a sh others p o) (hchange : Change a sh o p sh' p') :
    Ordered a { shared := sh', calls := p' :: others } := by
  have hp := h.each p mem_cons_self
  have hkeep : ∀ p', Steady a sh p' → Ordered a { shared := sh, calls := p' :: others } :=
    fun p' hp' => h.replace h.shared hp' (fun q _ hq _ => ⟨hq, trivial⟩) fun _ _ hpair => hpair
  cases hchange with
  | refuse | pass => exact hkeep _ (steady_early fun _ _ => rfl)
  | upsert hsucceeds =>
    rcases hallow with hfailed | ⟨hmax, hothers⟩
    · rw [hsucceeds] at hfailed
      cases hfailed
    · exact ordered_upsert h hmax hothers
  | count =>
    rename_i userID req
    refine hkeep _ ⟨hp.held, ?_, ?_⟩
    · intro u rs heq
      cases heq
      show (if o.failed = true then 0 else countMessagesAfter a req.channelID req.messageID) =
        countMessagesAfter a req.channelID req.messageID
      split
      · rename_i hfailed
        exact (hallow hfailed).symm
      · rfl
    · intro u rs heq
      cases heq
  | publish => exact ordered_publish h

/-! ## Section 7: What the devices show -/

theorem deliver_append (userID : ID) (client : ReadStateState) (published : List Publication)
    (pub : Publication) :
    deliver userID client (published ++ [pub]) =
      if pub.userID = userID then (deliver userID client published).updateReadState pub.readState
      else deliver userID client published := by
  unfold deliver
  rw [filter_append, foldl_append]
  by_cases huser : pub.userID = userID
  · have hfilter : [pub].filter (·.userID = userID) = [pub] := by simp [huser]
    rw [if_pos huser, hfilter]
    rfl
  · have hfilter : [pub].filter (·.userID = userID) = [] := by simp [huser]
    rw [if_neg huser, hfilter]
    rfl

/-- The device shows what is stored, for every channel without a call between its upsert
    and its event. It has had the events from the `k`-th on. -/
structure Follows (a : Archive) (k : Nat) (userID : ID) (client : ReadStateState) (s : State) :
    Prop where
  joined : k ≤ s.shared.published.length
  upToDate : ∀ c last, lastRead s.shared.rows userID c = some last →
    (∀ p ∈ s.calls, p.pending userID c = none) →
      (deliver userID client (s.shared.published.drop k)).Shows (readStateOf a c last)

theorem follows_change (hordered : Ordered a { shared := sh, calls := p :: others })
    (h : Follows a k user client { shared := sh, calls := p :: others })
    (hchange : Change a sh o p sh' p') :
    Follows a k user client { shared := sh', calls := p' :: others } := by
  have hkeep : ∀ p' : Phase, (∀ c, p'.pending user c = none → p.pending user c = none) →
      Follows a k user client { shared := sh, calls := p' :: others } := by
    intro p' hpending
    refine ⟨h.joined, ?_⟩
    intro c last hlast hnone
    obtain ⟨hfirst, hrest⟩ := List.forall_mem_cons.mp hnone
    exact h.upToDate c last hlast (List.forall_mem_cons.mpr ⟨hpending c hfirst, hrest⟩)
  cases hchange with
  | refuse e early =>
    refine hkeep _ fun c _ => ?_
    unfold Phase.pending
    rw [early user c]
    split
    · rfl
    · rfl
  | pass userID => exact hkeep _ fun c _ => rfl
  | count => exact hkeep _ fun c hnone => hnone
  | upsert hsucceeds =>
    rename_i userID req
    refine ⟨h.joined, ?_⟩
    intro c last hlast hnone
    obtain ⟨hfirst, hrest⟩ := List.forall_mem_cons.mp hnone
    -- the channel is not the one that is being acknowledged
    have hother : ¬ (user = userID ∧ c = req.channelID) := by
      rintro ⟨rfl, rfl⟩
      have hsome : (if user = user ∧ req.channelID = req.channelID then some req.messageID
          else none) = none := hfirst
      rw [if_pos ⟨rfl, rfl⟩] at hsome
      cases hsome
    have hbefore : lastRead (sh.upsert userID req).rows user c = some last := hlast
    rw [lastRead_upsert, if_neg hother] at hbefore
    exact h.upToDate c last hbefore (List.forall_mem_cons.mpr ⟨rfl, hrest⟩)
  | publish =>
    rename_i userID rs
    have hp := hordered.each _ mem_cons_self
    have hdrop : (sh.publish userID rs).published.drop k = sh.published.drop k ++
        [⟨userID, rs, lastRead sh.rows userID rs.channelID⟩] :=
      drop_append_of_le_length h.joined
    refine ⟨?_, ?_⟩
    · have hlength : (sh.publish userID rs).published.length = sh.published.length + 1 :=
        length_append
      have hjoined : k ≤ sh.published.length := h.joined
      show k ≤ (sh.publish userID rs).published.length
      omega
    · intro c last hlast hnone
      obtain ⟨-, hrest⟩ := List.forall_mem_cons.mp hnone
      show (deliver user client ((sh.publish userID rs).published.drop k)).Shows _
      rw [hdrop, deliver_append]
      have hbefore : c ≠ rs.channelID ∨ userID ≠ user →
          (deliver user client (sh.published.drop k)).Shows (readStateOf a c last) := by
        intro hne
        refine h.upToDate c last hlast (List.forall_mem_cons.mpr ⟨?_, hrest⟩)
        show (if userID = user ∧ rs.channelID = c then _ else none) = none
        refine if_neg ?_
        rintro ⟨huser, hchannel⟩
        rcases hne with hne | hne
        · exact hne hchannel.symm
        · exact hne huser
      by_cases huser : userID = user
      · rw [if_pos huser]
        by_cases hchannel : c = rs.channelID
        · -- the event says what is stored
          subst hchannel huser
          have hstored := hp.held userID rs.channelID rs.lastReadMessageID (by
            show (if userID = userID ∧ rs.channelID = rs.channelID then _ else none) = _
            rw [if_pos ⟨rfl, rfl⟩])
          have hlast' : lastRead sh.rows userID rs.channelID = some last := hlast
          rw [hstored] at hlast'
          cases hlast'
          have hsame : readStateOf a rs.channelID rs.lastReadMessageID = rs := by
            have hcount := hp.counts userID rs rfl
            unfold readStateOf
            rw [← hcount]
          rw [hsame]
          exact shows_updateReadState _ rs
        · exact (shows_updateReadState_of_ne hchannel).mpr (hbefore (Or.inl hchannel))
      · rw [if_neg huser]
        exact hbefore (Or.inr huser)

/-- What keeps the order of a pool of calls does not matter to a device. -/
theorem follows_perm : Pool.OrderFree (Follows a k user client) := by
  intro sh l l' hperm h
  refine ⟨h.joined, fun c last hlast hnone => ?_⟩
  exact h.upToDate c last hlast fun p hp => hnone p (hperm.mem_iff.mp hp)

/-! ## Section 8: Runs -/

theorem ordered_exec {s : State} {evs : List Event} (h : Ordered a s)
    (hrun : Run.Guarded (step a) (InOrder a) s evs) : Ordered a (Run.exec (step a) s evs) := by
  refine keeps_exec ?_ ?_ ?_ h hrun
  · exact .perm fun _ _ _ hpair => hpair
  · intro sh calls call hJ _
    exact hJ.cons (steady_early fun _ _ => rfl) fun _ _ => trivial
  · intro sh p others o sh' p' hJ hallow hnext
    exact ordered_change hJ hallow (next_change hnext)

theorem follows_exec {s : State} {evs : List Event} (hordered : Ordered a s)
    (h : Follows a k user client s) (hrun : Run.Guarded (step a) (InOrder a) s evs) :
    Follows a k user client (Run.exec (step a) s evs) := by
  have hboth : Ordered a (exec (step a) s evs) ∧ Follows a k user client (exec (step a) s evs) := by
    refine keeps_exec (J := fun s => Ordered a s ∧ Follows a k user client s) ?_ ?_ ?_
      ⟨hordered, h⟩ hrun
    · rintro sh l l' hperm ⟨hJ, hF⟩
      exact ⟨.perm (fun _ _ _ hpair => hpair) sh l l' hperm hJ, follows_perm sh l l' hperm hF⟩
    · rintro sh calls call ⟨hJ, hF⟩ -
      refine ⟨hJ.cons (steady_early fun _ _ => rfl) fun _ _ => trivial, hF.joined, ?_⟩
      intro c last hlast hnone
      exact hF.upToDate c last hlast (forall_mem_cons.mp hnone).2
    · rintro sh p others o sh' p' ⟨hJ, hF⟩ hallow hnext
      have hchange := next_change hnext
      exact ⟨ordered_change hJ hallow hchange, follows_change hJ hF hchange⟩
  exact hboth.2

theorem ordered_initial (rows : List ReadStateRow) : Ordered a (initial rows) := by
  refine .init ⟨?_, ?_, .nil⟩
  · intro pub hpub
    cases hpub
  · intro pub hpub
    cases hpub

/-- Where every step is in order, the table, what is sent and the devices agree. -/
theorem converges_exec {rows : List ReadStateRow} {evs : List Event}
    (h : Run.Guarded (step a) (InOrder a) (initial rows) evs) : Converges a rows evs := by
  have hordered := ordered_exec (ordered_initial rows) h
  refine ⟨highest_exec rows evs, hordered.shared.current, ?_, hordered.shared.forward, ?_⟩
  · intro userID readState hcall
    exact (hordered.each _ hcall).answered userID readState rfl
  · rintro hquiet pre post rfl userID client hagrees
    -- the device joins between the two parts of the run
    have hjoin := ordered_exec (ordered_initial rows) h.left
    have hfollows : Follows a (exec (step a) (initial rows) pre).shared.published.length userID
        client (exec (step a) (initial rows) pre) := by
      refine ⟨le_rfl, ?_⟩
      intro c last hlast _
      rw [drop_length]
      exact hagrees c last hlast
    have hlater := follows_exec hjoin hfollows h.right
    rw [← exec_append] at hlater
    intro c last hlast
    refine hlater.upToDate c last hlast ?_
    intro p hp
    unfold Phase.pending
    rw [if_pos (hquiet p hp)]

instance decidableAdvances (sh : Shared) (others : List Phase) (o : Outcome) :
    ∀ p, Decidable (advances a sh others p o)
  | .admitted _ _ => inferInstanceAs (Decidable (_ ∨ _))
  | .upserted _ _ => inferInstanceAs (Decidable (_ → _))
  | .begun _ _ | .counted _ _ | .acknowledged _ _ | .refused _ => inferInstanceAs (Decidable True)

instance decidableInOrder (s : State) (ev : Event) : Decidable (InOrder a s ev) :=
  inferInstanceAs (Decidable (Pool.Allows (fun _ _ => True) (advances a) s ev))

def channelTables : Tables where
  users := [⟨"ann", none, "ann", "Ann"⟩]
  servers := [{ id := "s1", ownerID := "ann" }]
  members := [{ userID := "ann", serverID := "s1" }]
  channels := [{ id := "c1", serverID := some "s1", name := "general" }]

def twoMessages : Archive where
  messages := [
    { channelID := "c1", messageID := "m1", authorID := "bob", encryptedContent := [1] },
    { channelID := "c1", messageID := "m2", authorID := "bob", encryptedContent := [2] }]

def annAcks (messageID : ID) : Event := .start (some "ann", { channelID := "c1", messageID })

def goesOn (i : Nat) : Event := .advance i { tables := channelTables }

/-- Two devices at the same time, which write in the order of the messages. -/
def bothDevices : List Event :=
  [annAcks "m1", annAcks "m2", goesOn 1, goesOn 0, goesOn 0, goesOn 0, goesOn 0, goesOn 1, goesOn 1,
    goesOn 1]

theorem converges_exec_bothDevices : Converges twoMessages [] bothDevices :=
  converges_exec (by decide +kernel)

/-- One device acknowledges the second message, another then the first. -/
def laterFirst : List Event :=
  [annAcks "m2", goesOn 0, goesOn 0, goesOn 0, goesOn 0, annAcks "m1", goesOn 1, goesOn 1, goesOn 1,
    goesOn 1]

/-- The table stays at the second message, but the event takes the devices back to the first. -/
theorem not_converges_laterFirst :
    ¬ ∀ (a : Archive) (rows : List ReadStateRow) (evs : List Event), Converges a rows evs := by
  intro hall
  have hrun := hall twoMessages [] laterFirst
  have hcurrent : ∀ pub ∈ (Run.exec (step twoMessages) (initial []) laterFirst).shared.published,
      pub.stored = some pub.readState.lastReadMessageID := fun pub hpub => (hrun.current pub hpub).1
  revert hcurrent
  decide +kernel

end Meza.Chat.Acknowledging
