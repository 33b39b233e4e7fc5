import Mathlib.Data.String.Basic
import Meza.Lib.Dict
import Meza.Lib.Pool
import Meza.Store.Schema

/-! # The search worker

    `search-worker.ts`: one index of the messages for each channel that is
    hot, with a copy of each index that is kept in IndexedDB. Every request
    runs until it has to wait; what it waits for, and what the environment
    answers, is one step.

    An index of FlexSearch is a map of messages by id. A commit writes the
    whole map to the persisted copy, and a mount reads it. A search answers
    with any messages of the index.

    `log` is not part of the worker. It records what was asked for and what
    was answered. -/

namespace Meza.Client.Search
open Dict

open Store (ID)

/-! ## Section 1: Messages, requests and answers -/

structure IndexableMessage where
  id : ID
  channelId : ID := ""
  authorId : ID := ""
  content : String := ""
  createdAt : Int := 0
  hasAttachment : Bool := false
  hasMention : Bool := false
  deriving DecidableEq, Repr

structure SearchOpts where
  channelId : Option ID := none
  authorId : Option ID := none
  before : Option Int := none
  after : Option Int := none
  hasAttachment : Option Bool := none
  limit : Option Nat := none
  deriving DecidableEq, Repr

structure SearchHit where
  id : ID
  channelId : ID
  authorId : ID
  createdAt : Int
  hasAttachment : Bool
  hasMention : Bool
  deriving DecidableEq, Repr

inductive WorkerRequest where
  | initChannel (channelId : ID)
  | addMessages (channelId : ID) (msgs : List IndexableMessage)
  | updateMessage (channelId : ID) (msg : IndexableMessage)
  | removeMessage (channelId msgId : ID)
  | removeMessages (channelId : ID) (msgIds : List ID)
  | search (query : String) (opts : SearchOpts)
  | flush
  | clearChannel (channelId : ID)
  deriving DecidableEq, Repr

inductive WorkerResponse where
  | done
  | count (n : Nat)
  | hits (hits : List SearchHit)
  | error
  deriving DecidableEq, Repr

/-! ## Section 2: The worker -/

def maxHotChannels : Nat := 10

def commitBatchThreshold : Nat := 50

def chunkSize : Nat := 500

/-- `Document`: the messages of a channel by id, in memory. -/
structure Document where
  channelId : ID := ""
  docs : List IndexableMessage := []
  deriving DecidableEq, Repr

/-- `index.add(msg)` and `index.update(msg)`. -/
def Document.add (d : Document) (msg : IndexableMessage) : Document :=
  { d with docs := Table.upsert IndexableMessage.id (fun _ => msg) msg d.docs }

/-- `index.remove(id)`. -/
def Document.remove (d : Document) (id : ID) : Document :=
  { d with docs := d.docs.filter fun m => m.id ≠ id }

/-- One of the promises that a flush waits for. -/
structure Commit where
  channelId : ID
  document : Option Nat
  fulfilled : Option Bool
  deriving DecidableEq, Repr

/-- What a request asks for, or what is answered. -/
inductive Act where
  | written (ids : List ID)
  | removed (ids : List ID)
  | found (ids : List ID)
  deriving DecidableEq, Repr

/-- Documents and promises are numbered; a document has the number of the promise that
    initializes its channel. -/
structure Worker where
  indexes : List (ID × Nat) := []
  accessOrder : List ID := []
  initializing : List (ID × Nat) := []
  channelQueues : List (ID × Nat) := []
  dirtyChannels : List ID := []
  commitTimer : Bool := false
  pendingMutations : Nat := 0
  flushInProgress : Option (List Commit) := none
  documents : Nat → Document := fun _ => {}
  settled : List (Nat × Bool) := []
  fresh : Nat := 0
  persisted : List (ID × List IndexableMessage) := []
  log : List Act := []

namespace Worker

def touchChannel (w : Worker) (channelId : ID) : Worker :=
  { w with accessOrder := w.accessOrder.erase channelId ++ [channelId] }

def setDocument (w : Worker) (n : Nat) (d : Document) : Worker :=
  { w with documents := fun m => if m = n then d else w.documents m }

def settle (w : Worker) (n : Nat) (ok : Bool) : Worker :=
  { w with settled := (n, ok) :: w.settled }

/-- Whether the promise is fulfilled, or rejected, or neither yet. -/
def outcomeOf (w : Worker) (n : Nat) : Option Bool :=
  (Table.lookup Prod.fst n w.settled).map Prod.snd

def record (w : Worker) (act : Act) : Worker := { w with log := act :: w.log }

/-- What a commit of the document has written. -/
def persist (w : Worker) (n : Nat) : Worker :=
  { w with persisted := set w.persisted (w.documents n).channelId (w.documents n).docs }

/-- The persisted copy of the document is emptied. -/
def wipe (w : Worker) (n : Nat) : Worker :=
  { w with persisted := set w.persisted (w.documents n).channelId [] }

def flushDirty (w : Worker) : Worker :=
  if w.flushInProgress.isSome then w
  else
    { w with
      dirtyChannels := []
      pendingMutations := 0
      flushInProgress := some (w.dirtyChannels.map fun channelId =>
        match get w.indexes channelId with
        | some n => ⟨channelId, some n, none⟩
        -- `undefined` is no promise
        | none => ⟨channelId, none, some true⟩) }

def markDirty (w : Worker) (channelId : ID) : Worker :=
  { w with dirtyChannels := Table.insertNew id channelId w.dirtyChannels }

def scheduleCommit (w : Worker) (channelId : ID) : Worker :=
  let w := { w.markDirty channelId with pendingMutations := w.pendingMutations + 1 }
  if commitBatchThreshold ≤ w.pendingMutations then
    flushDirty { w with commitTimer := false }
  else { w with commitTimer := true }

end Worker

/-! ## Section 3: The phases of a call -/

inductive Write where
  | add (msgs : List IndexableMessage)
  | update (msg : IndexableMessage)
  deriving DecidableEq, Repr

def Write.msgs : Write → List IndexableMessage
  | .add msgs => msgs
  | .update msg => [msg]

/-- `addMessages` counts, `updateMessage` does not. -/
def Write.reply : Write → WorkerResponse
  | .add msgs => .count msgs.length
  | .update _ => .done

/-- What is enqueued for a channel; a removal with the length of the log at its request. -/
inductive Job where
  | write (x : Write)
  | remove (ids : List ID) (since : Nat)
  | clear
  deriving DecidableEq, Repr

/-- Who has called `initChannel`: a request, or the writing operation `op`. -/
inductive Caller where
  | request
  | write (op : Nat) (x : Write)
  deriving DecidableEq, Repr

/-- `seen` and `results` of a search. -/
structure Hits where
  seen : List ID := []
  results : List SearchHit := []
  deriving DecidableEq, Repr

/-- What is not a request: the timer of a commit, and the promises of a flush. -/
inductive Tick where
  | timer
  | committed (i : Nat)
  | flushed
  deriving DecidableEq, Repr

inductive Call where
  | request (r : WorkerRequest)
  | tick (t : Tick)
  deriving DecidableEq, Repr

inductive Phase where
  | posted (r : WorkerRequest)
  | ticking (t : Tick)
  | queued (channelId : ID) (op : Nat) (prev : Option Nat) (job : Job)
  | awaiting (caller : Caller) (channelId : ID) (init : Nat)
  | mounting (caller : Caller) (channelId : ID) (n : Nat)
  | evicting (caller : Caller) (channelId : ID) (n : Nat)
  | draining (caller : Caller) (channelId : ID) (n : Nat) (oldest : ID) (pending : Nat)
  | committing (caller : Caller) (channelId : ID) (n : Nat) (oldest : ID) (index : Nat)
  | dropping (caller : Caller) (channelId : ID) (n : Nat) (oldest : ID)
  | inited (caller : Caller) (channelId : ID)
  | adding (channelId : ID) (op index count : Nat) (rest : List IndexableMessage)
  | clearing (channelId : ID) (op index : Nat)
  | destroying (channelId : ID) (op index : Nat)
  | forgetting (channelId : ID) (op : Nat)
  | searching (opts : SearchOpts) (rest : List ID) (hits : Hits)
  | asking (opts : SearchOpts) (index : Nat) (rest : List ID) (hits : Hits)
  | replied (r : WorkerResponse)
  deriving DecidableEq, Repr

def Phase.init : Call → Phase
  | .request r => .posted r
  | .tick t => .ticking t

/-- How the environment answers: what is awaited succeeds, or is done and fails, or is not
    done; or a search in an index finds some messages. -/
inductive Outcome where
  | fulfilled
  | lost
  | rejected
  | found (hits : List IndexableMessage)
  deriving DecidableEq, Repr

def Outcome.ok : Outcome → Bool
  | .fulfilled => true
  | _ => false

def Outcome.isDone : Outcome → Bool
  | .fulfilled | .lost => true
  | .rejected | .found _ => false

/-! ## Section 4: What a step does -/

namespace Worker

/-- `initChannel`. -/
def initChannel (w : Worker) (caller : Caller) (channelId : ID) : Worker × Phase :=
  if (get w.indexes channelId).isSome then
    (w.touchChannel channelId, .inited caller channelId)
  else
    match get w.initializing channelId with
    | some existing => (w, .awaiting caller channelId existing)
    | none =>
      ({ w.setDocument w.fresh { channelId } with
          initializing := set w.initializing channelId w.fresh
          fresh := w.fresh + 1 },
        .mounting caller channelId w.fresh)

/-- `enqueue`. -/
def enqueue (w : Worker) (channelId : ID) (job : Job) : Worker × Phase :=
  ({ w with
      channelQueues := set w.channelQueues channelId w.fresh
      fresh := w.fresh + 1 },
    .queued channelId w.fresh (get w.channelQueues channelId) job)

/-- The operation is done. -/
def finish (w : Worker) (op : Nat) (r : WorkerResponse) : Worker × Phase :=
  (w.settle op true, .replied r)

/-- `initChannel` has thrown. -/
def reject (w : Worker) : Caller → Worker × Phase
  | .request => (w, .replied .error)
  | .write op _ => (w.settle op false, .replied .error)

/-- The index is mounted: it has what the persisted copy has. -/
def mounted (w : Worker) (channelId : ID) (n : Nat) : Worker :=
  let docs := (get w.persisted channelId).getD []
  touchChannel { w.setDocument n { channelId, docs } with
    indexes := set w.indexes channelId n } channelId

/-- The end of `initChannel`, `ok` if the index is mounted. -/
def initialized (w : Worker) (channelId : ID) (n : Nat) (ok : Bool) : Worker :=
  { w.settle n ok with initializing := delete w.initializing channelId }

/-- `evictIfNeeded`, once nothing is pending for the oldest channel. -/
def evict (w : Worker) (caller : Caller) (channelId : ID) (n : Nat) (oldest : ID) :
    Worker × Phase :=
  match get w.indexes oldest with
  | some index => (w, .committing caller channelId n oldest index)
  -- nothing to delete
  | none => (w, .evicting caller channelId n)

/-- `evictIfNeeded`, once around the loop. -/
def evictIfNeeded (w : Worker) (caller : Caller) (channelId : ID) (n : Nat) : Worker × Phase :=
  match w.accessOrder with
  | [] => (w.initialized channelId n true, .inited caller channelId)
  | oldest :: rest =>
    if w.indexes.length ≤ maxHotChannels then
      (w.initialized channelId n true, .inited caller channelId)
    else
      let w := { w with accessOrder := rest }
      if oldest = "" then (w.initialized channelId n true, .inited caller channelId)
      else
        match get w.channelQueues oldest with
        | some pending => (w, .draining caller channelId n oldest pending)
        | none => w.evict caller channelId n oldest

def addAll (w : Worker) (n : Nat) (msgs : List IndexableMessage) : Worker :=
  w.setDocument n (msgs.foldl .add (w.documents n))

def removeAll (w : Worker) (n : Nat) (ids : List ID) : Worker :=
  w.setDocument n (ids.foldl .remove (w.documents n))

/-- `addMessages`, once around the loop. -/
def addChunk (w : Worker) (channelId : ID) (op n count : Nat) (rest : List IndexableMessage) :
    Worker × Phase :=
  let w := w.addAll n (rest.take chunkSize)
  if chunkSize < rest.length then (w, .adding channelId op n count (rest.drop chunkSize))
  else (w.scheduleCommit channelId).finish op (.count count)

/-- What follows on `await initChannel(channelId)`. -/
def proceed (w : Worker) (channelId : ID) : Caller → Worker × Phase
  | .request => (w, .replied .done)
  | .write op x =>
    match get w.indexes channelId with
    | none => w.finish op x.reply
    | some n =>
      match x with
      | .add msgs => w.addChunk channelId op n msgs.length msgs
      | .update msg => ((w.addAll n [msg]).scheduleCommit channelId).finish op .done

/-- `clearChannel`, once the index is cleared. -/
def forget (w : Worker) (channelId : ID) (op : Nat) : Worker × Phase :=
  finish { w with
    indexes := delete w.indexes channelId
    channelQueues := delete w.channelQueues channelId
    accessOrder := w.accessOrder.erase channelId } op .done

/-- The ids for which nothing has been written since. -/
def unwritten (w : Worker) (ids : List ID) (since : Nat) : List ID :=
  ids.filter fun id => (w.log.take (w.log.length - since)).all fun act =>
    match act with
    | .written ids' => id ∉ ids'
    | _ => true

/-- `removeMessage` and `removeMessages`. -/
def remove (w : Worker) (channelId : ID) (op : Nat) (ids : List ID) (since : Nat) :
    Worker × Phase :=
  let w := w.record (.removed (w.unwritten ids since))
  match get w.indexes channelId with
  | none => w.finish op .done
  | some n => ((w.removeAll n ids).scheduleCommit channelId).finish op .done

/-- The job's turn has come. -/
def run (w : Worker) (channelId : ID) (op : Nat) : Job → Worker × Phase
  | .write x => w.initChannel (.write op x) channelId
  | .remove ids since => w.remove channelId op ids since
  | .clear =>
    match get w.indexes channelId with
    | none => w.forget channelId op
    | some n => (w, .clearing channelId op n)

/-- What a request asks for is recorded as it arrives. -/
def onmessage (w : Worker) : WorkerRequest → Worker × Phase
  | .initChannel c => w.initChannel .request c
  | .addMessages c msgs =>
    (w.record (.written (msgs.map IndexableMessage.id))).enqueue c (.write (.add msgs))
  | .updateMessage c msg => (w.record (.written [msg.id])).enqueue c (.write (.update msg))
  | .removeMessage c id => w.enqueue c (.remove [id] w.log.length)
  | .removeMessages c ids => w.enqueue c (.remove ids w.log.length)
  | .search _ opts =>
    let channelId := opts.channelId.getD ""
    (w, .searching opts (if channelId = "" then w.indexes.map Prod.fst else [channelId]) {})
  | .flush => (w.flushDirty, .replied .done)
  | .clearChannel c => w.enqueue c .clear

def tick (w : Worker) (outcome : Outcome) : Tick → Option Worker
  | .timer =>
    if w.commitTimer then some (flushDirty { w with commitTimer := false }) else none
  | .committed i =>
    match w.flushInProgress with
    | none => none
    | some commits =>
      match commits[i]? with
      | some ⟨c, some n, none⟩ =>
        let w := if outcome.isDone then w.persist n else w
        some { w with flushInProgress := some (commits.set i ⟨c, some n, some outcome.ok⟩) }
      | _ => none
  | .flushed =>
    match w.flushInProgress with
    | none => none
    | some commits =>
      if commits.all fun x => x.fulfilled.isSome then
        let failed := commits.filter fun x => x.fulfilled = some false
        some { failed.foldl (fun w x => w.markDirty x.channelId) w with flushInProgress := none }
      else none

end Worker

/-- A bound of `0` is no bound. -/
def SearchOpts.passes (opts : SearchOpts) (m : IndexableMessage) : Bool :=
  (opts.before.all fun t => t = 0 ∨ m.createdAt < t) ∧
    (opts.after.all fun t => t = 0 ∨ t < m.createdAt) ∧
    (opts.hasAttachment = some true → m.hasAttachment = true)

def IndexableMessage.hit (m : IndexableMessage) : SearchHit where
  id := m.id
  channelId := m.channelId
  authorId := m.authorId
  createdAt := m.createdAt
  hasAttachment := m.hasAttachment
  hasMention := m.hasMention

def Hits.collect (opts : SearchOpts) (h : Hits) (m : IndexableMessage) : Hits :=
  if m.id ∈ h.seen then h
  else
    { seen := h.seen ++ [m.id]
      results := if opts.passes m then h.results ++ [m.hit] else h.results }

def Hits.answer (opts : SearchOpts) (h : Hits) : List SearchHit :=
  (h.results.insertionSort fun a b => b.createdAt ≤ a.createdAt).take (opts.limit.getD 25)

/-- `idx.search`: of what the environment proposes, what the index has under the tag. -/
def Document.search (d : Document) (opts : SearchOpts) (proposed : List IndexableMessage) :
    List IndexableMessage :=
  proposed.filter fun m =>
    m ∈ d.docs ∧ (opts.authorId.getD "" = "" ∨ m.authorId = opts.authorId.getD "")

def next (w : Worker) (_others : List Phase) (p : Phase) (outcome : Outcome) :
    Option (Worker × Phase) :=
  match p with
  | .posted r => some (w.onmessage r)
  | .ticking t =>
    match w.tick outcome t with
    | none => none
    | some w => some (w, .replied .done)
  | .queued c op prev job =>
    if prev.all fun pending => (w.outcomeOf pending).isSome then some (w.run c op job) else none
  | .awaiting caller c init =>
    match w.outcomeOf init with
    | none => none
    | some true => some (w, .inited caller c)
    | some false => some (w.reject caller)
  | .mounting caller c n =>
    if outcome.ok then some (w.mounted c n, .evicting caller c n)
    else some ((w.initialized c n false).reject caller)
  | .evicting caller c n => some (w.evictIfNeeded caller c n)
  | .draining caller c n oldest pending =>
    match w.outcomeOf pending with
    | none => none
    | some _ =>
      let w := { w with channelQueues := delete w.channelQueues oldest }
      some (w.evict caller c n oldest)
  | .committing caller c n oldest index =>
    some (if outcome.isDone then w.persist index else w, .dropping caller c n oldest)
  | .dropping caller c n oldest =>
    some ({ w with indexes := delete w.indexes oldest }, .evicting caller c n)
  | .inited caller c => some (w.proceed c caller)
  | .adding c op n count rest => some (w.addChunk c op n count rest)
  | .clearing c op n =>
    let cleared := w.setDocument n { channelId := (w.documents n).channelId }
    some (if outcome.isDone then cleared.wipe n else cleared,
      if outcome.ok then .destroying c op n else .forgetting c op)
  | .destroying c op n => some (if outcome.isDone then w.wipe n else w, .forgetting c op)
  | .forgetting c op => some (w.forget c op)
  | .searching opts [] hits =>
    let answer := hits.answer opts
    some (w.record (.found (answer.map SearchHit.id)), .replied (.hits answer))
  | .searching opts (c :: rest) hits =>
    match get w.indexes c with
    | none => some (w, .searching opts rest hits)
    | some n => some (w, .asking opts n rest hits)
  | .asking opts n rest hits =>
    match outcome with
    | .found proposed =>
      let results := (w.documents n).search opts proposed
      some (w, .searching opts rest (results.foldl (.collect opts) hits))
    | _ => some (w, .replied .error)
  | .replied _ => none

abbrev Config := Pool.State Worker Phase

abbrev Event := Pool.Event Call Outcome

def step : Config → Event → Config := Pool.step .init next

/-- The worker after a run, from the copies that are persisted. -/
def exec (s : Config) (evs : List Event) : Config := Run.exec step s evs

/-- A worker that has just started. -/
def booted (persisted : List (ID × List IndexableMessage)) : Config :=
  { shared := { persisted }, calls := [] }

end Meza.Client.Search
