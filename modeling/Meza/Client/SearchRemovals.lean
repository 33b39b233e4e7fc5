import Meza.Client.SearchWorker

/-! # Removed messages in the local search

    A removal takes a message out of the index of its channel, if that index
    is hot. A search can return the message again if it is somewhere else at
    that moment: in the persisted copy of a channel that is not hot, in a
    document that a call still holds, in a call that is about to write it. It
    can also return if the index is dropped before the removal is persisted. -/

namespace Meza.Client.Search
open List Dict Worker Commit Option

open Store (ID)

/-! ## Section 1: What is gone -/

/-- The last thing that was asked for the message is its removal. -/
def isGone : List Act → ID → Bool
  | [], _ => false
  | .written ids :: log, id => if id ∈ ids then false else isGone log id
  | .removed ids :: log, id => if id ∈ ids then true else isGone log id
  | .found _ :: log, id => isGone log id

def Act.returned : Act → List ID
  | .found ids => ids
  | .written _ | .removed _ => []

/-- No search has returned a message that was gone. -/
inductive Hidden : List Act → Prop where
  | nil : Hidden []
  | cons {act : Act} {log : List Act} (hact : ∀ id ∈ act.returned, isGone log id = false)
      (hlog : Hidden log) : Hidden (act :: log)

variable {c id : ID} {log : List Act} {ids : List ID} {msgs : List IndexableMessage} {n op : Nat}
  {p : Phase} {w : Worker} {r : Worker × Phase}

theorem hidden_cons {act : Act} :
    (∀ id ∈ act.returned, isGone log id = false) ∧ Hidden log ↔ Hidden (act :: log) := by
  constructor
  · rintro ⟨hact, hlog⟩
    exact .cons hact hlog
  · rintro (_ | ⟨hact, hlog⟩)
    exact ⟨hact, hlog⟩

instance decidableHidden : ∀ log, Decidable (Hidden log)
  | [] => .isTrue .nil
  | act :: log =>
    have := decidableHidden log
    decidable_of_iff ((∀ id ∈ act.returned, isGone log id = false) ∧ Hidden log) hidden_cons

/-- None of the messages is gone. -/
def Clean (log : List Act) (msgs : List IndexableMessage) : Prop :=
  ∀ m ∈ msgs, isGone log m.id = false

instance (log : List Act) (msgs : List IndexableMessage) : Decidable (Clean log msgs) :=
  inferInstanceAs (Decidable (∀ _ ∈ msgs, _))

theorem Clean.mono {log' : List Act} (h : Clean log msgs)
    (hgone : ∀ id, isGone log id = false → isGone log' id = false) : Clean log' msgs :=
  fun m hm => hgone m.id (h m hm)

theorem isGone_written (log : List Act) (ids : List ID) (id : ID) :
    isGone (.written ids :: log) id = true ↔ id ∉ ids ∧ isGone log id = true := by
  by_cases hid : id ∈ ids
  · simp [isGone, hid]
  · simp [isGone, hid]

theorem isGone_removed (log : List Act) (ids : List ID) (id : ID) :
    isGone (.removed ids :: log) id = true ↔ id ∈ ids ∨ isGone log id = true := by
  by_cases hid : id ∈ ids
  · simp [isGone, hid]
  · simp [isGone, hid]

/-! ## Section 2: The condition -/

def Commit.uses (x : Commit) : List Nat := x.document.toList

/-- The documents that the worker itself holds. -/
def Worker.held (w : Worker) : List Nat :=
  w.indexes.map Prod.snd ++ (w.flushInProgress.getD []).flatMap uses

def Caller.carries : Caller → List ID
  | .request => []
  | .write _ x => x.msgs.map IndexableMessage.id

/-- The messages that a call will write, or has found. -/
def Phase.carries : Phase → List ID
  | .queued _ _ _ (.write x) => x.msgs.map IndexableMessage.id
  | .awaiting caller _ _ | .mounting caller _ _ | .evicting caller _ _ | .draining caller _ _ _ _
  | .committing caller _ _ _ _ | .dropping caller _ _ _ | .inited caller _ => caller.carries
  | .adding _ _ _ _ rest => rest.map IndexableMessage.id
  | .searching _ _ hits | .asking _ _ _ hits => hits.results.map SearchHit.id
  | _ => []

/-- The documents that a call will read or change. -/
def Phase.uses : Phase → List Nat
  | .committing _ _ _ _ index => [index]
  | .adding _ _ index _ _ => [index]
  | .clearing _ _ index | .destroying _ _ index => [index]
  | .asking _ index _ _ => [index]
  | _ => []

/-- Only the document `own` can have the message. -/
structure NowhereElse (w : Worker) (others : List Phase) (own : Option Nat) (id : ID) : Prop where
  documents : ∀ n ∈ w.held ++ others.flatMap Phase.uses, own ≠ some n →
    ∀ m ∈ (w.documents n).docs, m.id ≠ id
  persisted : ∀ x ∈ w.persisted, Dict.get w.indexes x.1 = none → ∀ m ∈ x.2, m.id ≠ id
  calls : ∀ q ∈ others, id ∉ q.carries

/-- A removal is carried out while only the index of its channel can have the message, and
    an index is dropped only when no message of its persisted copy is gone. -/
def Reaches (w : Worker) (others : List Phase) (p : Phase) (_ : Outcome) : Prop :=
  match p with
  | .queued c _ prev (.remove ids since) =>
    (prev.all fun pending => (w.outcomeOf pending).isSome) = true →
      ∀ id ∈ w.unwritten ids since, NowhereElse w others (Dict.get w.indexes c) id
  | .dropping _ _ _ c | .forgetting c _ => ∀ x ∈ w.persisted, x.1 = c → Clean w.log x.2
  | _ => True

/-- Any request at any time, and every step reaches what it is to remove. -/
abbrev Reached : Config → Event → Prop := Pool.Allows (fun _ _ => True) Reaches

variable {others : List Phase}

theorem nowhereElse_iff {own : Option Nat} :
    NowhereElse w others own id ↔
      (∀ n ∈ w.held ++ others.flatMap Phase.uses, own ≠ some n →
        ∀ m ∈ (w.documents n).docs, m.id ≠ id) ∧
      (∀ x ∈ w.persisted, Dict.get w.indexes x.1 = none → ∀ m ∈ x.2, m.id ≠ id) ∧
      ∀ q ∈ others, id ∉ q.carries :=
  ⟨fun h => ⟨h.documents, h.persisted, h.calls⟩, fun h => ⟨h.1, h.2.1, h.2.2⟩⟩

instance (w : Worker) (others : List Phase) (own : Option Nat) (id : ID) :
    Decidable (NowhereElse w others own id) :=
  decidable_of_iff _ nowhereElse_iff.symm

instance decidableReaches (w : Worker) (others : List Phase) :
    ∀ (p : Phase) (o : Outcome), Decidable (Reaches w others p o)
  | .queued _ _ _ (.remove _ _), _ => inferInstanceAs (Decidable (_ → _))
  | .dropping _ _ _ _, _ | .forgetting _ _, _ => inferInstanceAs (Decidable (∀ _ ∈ w.persisted, _))
  | .queued _ _ _ (.write _), _ | .queued _ _ _ .clear, _ | .posted _, _ | .ticking _, _
  | .awaiting _ _ _, _ | .mounting _ _ _, _ | .evicting _ _ _, _ | .draining _ _ _ _ _, _
  | .committing _ _ _ _ _, _ | .inited _ _, _ | .adding _ _ _ _ _, _ | .clearing _ _ _, _
  | .destroying _ _ _, _ | .searching _ _ _, _ | .asking _ _ _ _, _ | .replied _, _ =>
    inferInstanceAs (Decidable True)

/-! ## Section 3: Workers that hold nothing that is gone -/

/-- Nothing that is gone has been found, is in a document that the worker holds, or is in a
    persisted copy that could be mounted. -/
structure Worker.Sound (w : Worker) : Prop where
  hidden : Hidden w.log
  held : ∀ n ∈ w.held, Clean w.log (w.documents n).docs
  persisted : ∀ x ∈ w.persisted, Dict.get w.indexes x.1 = none → Clean w.log x.2

/-- What a step may do while other calls are in flight, of which none initializes `own`. -/
structure Tame (own : Option ID) (w w' : Worker) : Prop where
  gone : ∀ id, isGone w.log id = false → isGone w'.log id = false
  documents : ∀ n, Clean w.log (w.documents n).docs → Clean w'.log (w'.documents n).docs
  initializing : ∀ c, own ≠ some c → (Dict.get w.initializing c).isSome →
    (Dict.get w'.initializing c).isSome
  cold : ∀ c, own ≠ some c → Dict.get w.indexes c = none → Dict.get w'.indexes c = none
  sound : w.Sound → w'.Sound

section Tame

variable {own : Option ID} {w' w'' : Worker}

theorem Tame.trans (h : Tame own w w') (h' : Tame own w' w'') : Tame own w w'' where
  gone id hid := h'.gone id (h.gone id hid)
  documents n hn := h'.documents n (h.documents n hn)
  initializing c hne hc := h'.initializing c hne (h.initializing c hne hc)
  cold c hne hc := h'.cold c hne (h.cold c hne hc)
  sound hw := h'.sound (h.sound hw)

theorem Tame.of_same (hlog : w'.log = w.log) (hdocuments : w'.documents = w.documents)
    (hindexes : w'.indexes = w.indexes) (hpersisted : w'.persisted = w.persisted)
    (hinit : ∀ c, own ≠ some c → (Dict.get w.initializing c).isSome →
    (Dict.get w'.initializing c).isSome) (hheld : ∀ n ∈ w'.held, n ∈ w.held) : Tame own w w' where
  gone id hid := by rw [hlog]; exact hid
  documents n hn := by rw [hlog, hdocuments]; exact hn
  initializing := hinit
  cold c _ hc := by rw [hindexes]; exact hc
  sound hw := by
    refine ⟨?_, ?_, ?_⟩
    · rw [hlog]
      exact hw.hidden
    · intro n hn
      rw [hlog, hdocuments]
      exact hw.held n (hheld n hn)
    · intro x hx hcold
      rw [hpersisted] at hx
      rw [hindexes] at hcold
      rw [hlog]
      exact hw.persisted x hx hcold

theorem Tame.refl (w : Worker) : Tame own w w :=
  .of_same rfl rfl rfl rfl (fun _ _ hc => hc) fun _ hn => hn

theorem tame_touchChannel (w : Worker) (c : ID) : Tame own w (w.touchChannel c) :=
  .of_same rfl rfl rfl rfl (fun _ _ hc => hc) fun _ hn => hn

theorem tame_settle (w : Worker) (n : Nat) (ok : Bool) : Tame own w (w.settle n ok) :=
  .of_same rfl rfl rfl rfl (fun _ _ hc => hc) fun _ hn => hn

theorem tame_enqueue (w : Worker) (c : ID) (job : Job) : Tame own w (w.enqueue c job).1 :=
  .of_same rfl rfl rfl rfl (fun _ _ hc => hc) fun _ hn => hn

theorem tame_finish (w : Worker) (op : Nat) (r : WorkerResponse) : Tame own w (w.finish op r).1 :=
  tame_settle w op true

theorem tame_initialized (w : Worker) (c : ID) (n : Nat) (ok : Bool) :
    Tame (some c) w (w.initialized c n ok) := by
  refine .of_same rfl rfl rfl rfl (fun c' hne hc' => ?_) fun _ hn => hn
  have hkey : c' ≠ c := fun h => hne (congrArg some h.symm)
  show (Dict.get (Dict.delete w.initializing c) c').isSome
  rw [Dict.get_delete, if_neg hkey]
  exact hc'

theorem mem_held_of_get (h : Dict.get w.indexes c = some n) : n ∈ w.held := by
  have hmem : (c, n) ∈ w.indexes := Dict.mem_of_get h
  exact mem_append_left _ (mem_map_of_mem hmem)

theorem tame_flushDirty (w : Worker) : Tame own w w.flushDirty := by
  unfold flushDirty
  split
  · exact .refl w
  · refine .of_same rfl rfl rfl rfl (fun _ _ hc => hc) fun n hn => ?_
    rcases List.mem_append.mp hn with hn | hn
    · exact mem_append_left _ hn
    · obtain ⟨x, hx, hnx⟩ := List.mem_flatMap.mp hn
      obtain ⟨c, -, rfl⟩ := List.mem_map.mp hx
      cases hget : Dict.get w.indexes c with
      | none => simp [hget, uses] at hnx
      | some n' =>
        have heq : n = n' := by simpa [hget, uses] using hnx
        subst heq
        exact mem_held_of_get hget

theorem tame_scheduleCommit (w : Worker) (c : ID) : Tame own w (w.scheduleCommit c) := by
  have hmark : ∀ timer pending, Tame own w { w.markDirty c with
      commitTimer := timer, pendingMutations := pending } :=
    fun _ _ => .of_same rfl rfl rfl rfl (fun _ _ hc => hc) fun _ hn => hn
  unfold scheduleCommit
  dsimp only
  split
  · exact (hmark _ _).trans (tame_flushDirty _)
  · exact hmark _ _

theorem tame_setDocument {d : Document}
    (hd : Clean w.log (w.documents n).docs → Clean w.log d.docs) :
    Tame own w (w.setDocument n d) := by
  have hdocuments : ∀ m, Clean w.log (w.documents m).docs →
      Clean w.log ((w.setDocument n d).documents m).docs := by
    intro m hm
    by_cases heq : m = n
    · subst heq
      have hself : (w.setDocument m d).documents m = d := if_pos rfl
      rw [hself]
      exact hd hm
    · have hother : (w.setDocument n d).documents m = w.documents m := if_neg heq
      rw [hother]
      exact hm
  refine ⟨fun _ hid => hid, hdocuments, fun _ _ hc => hc, fun _ _ hc => hc, fun hw => ?_⟩
  exact ⟨hw.hidden, fun m hm => hdocuments m (hw.held m hm), hw.persisted⟩

theorem clean_add (hmsgs : ∀ id ∈ msgs.map IndexableMessage.id, isGone log id = false)
    (d : Document) (hd : Clean log d.docs) : Clean log (msgs.foldl .add d).docs := by
  induction msgs generalizing d with
  | nil => exact hd
  | cons msg msgs ih =>
    obtain ⟨hfirst, hrest⟩ := List.forall_mem_cons.mp hmsgs
    refine ih hrest (d.add msg) fun m hm => ?_
    rcases Table.mem_upsert hm with hm | rfl | ⟨r, -, -, rfl⟩
    · exact hd m hm
    · exact hfirst
    · exact hfirst

theorem tame_addAll (hmsgs : ∀ id ∈ msgs.map IndexableMessage.id, isGone w.log id = false)
    (n : Nat) : Tame own w (w.addAll n msgs) :=
  tame_setDocument (clean_add hmsgs _)

theorem tame_setPersisted (hmsgs : Clean w.log msgs) :
    Tame own w { w with persisted := Dict.set w.persisted c msgs } := by
  refine ⟨fun _ hid => hid, fun _ hn => hn, fun _ _ hc => hc, fun _ _ hc => hc, fun hw => ?_⟩
  refine ⟨hw.hidden, hw.held, fun x hx hcold => ?_⟩
  rcases Dict.mem_set hx with rfl | hx
  · exact hmsgs
  · exact hw.persisted x hx hcold

theorem tame_wipe (w : Worker) (n : Nat) : Tame own w (w.wipe n) :=
  tame_setPersisted fun _ hm => absurd hm not_mem_nil

theorem tame_drop (hc : ∀ x ∈ w.persisted, x.1 = c → Clean w.log x.2) :
    Tame own w { w with indexes := Dict.delete w.indexes c } := by
  refine ⟨fun _ hid => hid, fun _ hn => hn, fun _ _ hc => hc, fun c' _ hc' => ?_, fun hw => ?_⟩
  · show Dict.get (Dict.delete w.indexes c) c' = none
    rw [get_delete, hc', ite_self]
  · refine ⟨hw.hidden, fun n hn => hw.held n ?_, fun x hx hcold => ?_⟩
    · rcases mem_append.mp hn with hn | hn
      · obtain ⟨entry, hentry, rfl⟩ := mem_map.mp hn
        have hkept : entry ∈ w.indexes := (Table.mem_deleteWhere.mp hentry).1
        exact mem_append_left _ (mem_map_of_mem hkept)
      · exact mem_append_right _ hn
    · by_cases hkey : x.1 = c
      · exact hc x hx hkey
      · have hbefore : get w.indexes x.1 = none := by
          have hafter : get (delete w.indexes c) x.1 = none := hcold
          rw [get_delete, if_neg hkey] at hafter
          exact hafter
        exact hw.persisted x hx hbefore

theorem tame_written (w : Worker) (ids : List ID) : Tame own w (w.record (.written ids)) := by
  have hgone : ∀ id, isGone w.log id = false → isGone (.written ids :: w.log) id = false := by
    intro id hid
    rw [Bool.eq_false_iff, ne_eq, isGone_written, hid]
    simp
  refine ⟨hgone, fun n hn => hn.mono hgone, fun _ _ hc => hc, fun _ _ hc => hc, fun hw => ?_⟩
  refine ⟨.cons (fun _ hid => absurd hid not_mem_nil) hw.hidden, ?_, ?_⟩
  · intro n hn
    exact (hw.held n hn).mono hgone
  · intro x hx hcold
    exact (hw.persisted x hx hcold).mono hgone

theorem tame_found (hids : ∀ id ∈ ids, isGone w.log id = false) :
    Tame own w (w.record (.found ids)) := by
  refine ⟨fun _ hid => hid, fun _ hn => hn, fun _ _ hc => hc, fun _ _ hc => hc, fun hw => ?_⟩
  exact ⟨.cons hids hw.hidden, hw.held, hw.persisted⟩

theorem tame_mounted (n : Nat) (hcold : Dict.get w.indexes c = none) (hw : w.Sound) :
    Tame (some c) w (w.mounted c n) := by
  have hdocs : Clean w.log ((Dict.get w.persisted c).getD []) := by
    cases hget : Dict.get w.persisted c with
    | none => exact fun _ hm => absurd hm not_mem_nil
    | some msgs => exact hw.persisted (c, msgs) (Dict.mem_of_get hget) hcold
  have hset : Tame (some c) w (w.setDocument n ⟨c, (Dict.get w.persisted c).getD []⟩) :=
    tame_setDocument fun _ => hdocs
  refine ⟨hset.gone, hset.documents, hset.initializing, fun c' hne hc' => ?_, fun hw => ?_⟩
  · have hkey : c' ≠ c := fun h => hne (congrArg some h.symm)
    show Dict.get (Dict.set w.indexes c n) c' = none
    rw [Dict.get_set, if_neg hkey]
    exact hc'
  · have hself : ((w.mounted c n).documents n).docs = (Dict.get w.persisted c).getD [] :=
      congrArg Document.docs (if_pos rfl)
    refine ⟨hw.hidden, fun m hm => ?_, fun x hx hcold' => ?_⟩
    · rcases List.mem_append.mp hm with hm | hm
      · obtain ⟨entry, hentry, rfl⟩ := List.mem_map.mp hm
        rcases Dict.mem_set hentry with rfl | hentry
        · exact hself ▸ hdocs
        · exact hset.documents _ (hw.held _ (mem_append_left _ (mem_map_of_mem hentry)))
      · exact hset.documents m (hw.held m (mem_append_right _ hm))
    · have hbefore : Dict.get w.indexes x.1 = none := by
        have hafter : Dict.get (Dict.set w.indexes c n) x.1 = none := hcold'
        rw [Dict.get_set] at hafter
        by_cases hkey : x.1 = c
        · rw [hkey]
          exact hcold
        · rw [if_neg hkey] at hafter
          exact hafter
      exact hw.persisted x hx hbefore

end Tame

/-! ## Section 4: Calls in flight -/

/-- The channel whose promise in `initializing` is this call's. -/
def Phase.initializes : Phase → Option ID
  | .mounting _ c _ | .evicting _ c _ | .draining _ c _ _ _ | .committing _ c _ _ _
  | .dropping _ c _ _ => some c
  | _ => none

def Phase.mounts : Phase → Option ID
  | .mounting _ c _ => some c
  | _ => none

/-- What a call holds is not gone, and a channel that it mounts is not hot. -/
structure Local (w : Worker) (p : Phase) : Prop where
  carries : ∀ id ∈ p.carries, isGone w.log id = false
  uses : ∀ n ∈ p.uses, Clean w.log (w.documents n).docs
  initializes : ∀ c, p.initializes = some c → (Dict.get w.initializing c).isSome
  mounts : ∀ c, p.mounts = some c → Dict.get w.indexes c = none

def Apart (_ : Worker) (p q : Phase) : Prop := ∀ c, p.initializes = some c → q.initializes ≠ some c

def Inv : Config → Prop := Pool.Inv Sound Local Apart

theorem apart_symm (w : Worker) (p q : Phase) (h : Apart w p q) : Apart w q p :=
  fun c hq hp => h c hp hq

theorem Phase.mounts_initializes (h : p.mounts = some c) : p.initializes = some c := by
  cases p with
  | mounting caller c' n => exact h
  | _ => cases h

/-- What a call goes on with, if it may initialize `own`. -/
structure Follows (own : Option ID) (w : Worker) (r : Worker × Phase) : Prop where
  tame : Tame own w r.1
  call : Local r.1 r.2
  initializes : ∀ c, r.2.initializes = some c → own = some c ∨ Dict.get w.initializing c = none

section Follows

variable {own : Option ID} {w' : Worker} {p' : Phase}

/-- A tame step keeps the invariant. -/
theorem Follows.inv (hinv : Inv { shared := w, calls := p :: others })
    (h : Follows p.initializes w r) : Inv { shared := r.1, calls := r.2 :: others } := by
  refine hinv.replace (h.tame.sound hinv.shared) h.call ?_ fun _ _ hqq' => hqq'
  intro q _ hq hpq
  have hother : ∀ c, q.initializes = some c → p.initializes ≠ some c :=
    fun c hqc hpc => hpq c hpc hqc
  constructor
  · refine ⟨fun id hid => h.tame.gone id (hq.carries id hid),
      fun n hn => h.tame.documents n (hq.uses n hn), fun c hc => ?_, fun c hc => ?_⟩
    · exact h.tame.initializing c (hother c hc) (hq.initializes c hc)
    · exact h.tame.cold c (hother c (Phase.mounts_initializes hc)) (hq.mounts c hc)
  · intro c hp'c hqc
    rcases h.initializes c hp'c with hpc | hnone
    · exact hother c hqc hpc
    · have hsome := hq.initializes c hqc
      rw [hnone] at hsome
      cases hsome

theorem Follows.after (htame : Tame own w w') (h : Follows own w' r) : Follows own w r where
  tame := htame.trans h.tame
  call := h.call
  initializes c hc := by
    rcases h.initializes c hc with hown | hnone
    · exact Or.inl hown
    · by_cases hown : own = some c
      · exact Or.inl hown
      · right
        by_contra hsome
        have hkept := htame.initializing c hown (isSome_iff_ne_none.mpr hsome)
        rw [hnone] at hkept
        cases hkept

theorem Follows.plain (htame : Tame own w w') (huses : p'.uses = []) (hinit : p'.initializes = none)
    (hcarries : ∀ id ∈ p'.carries, isGone w'.log id = false) : Follows own w (w', p') := by
  refine ⟨htame, ⟨hcarries, ?_, ?_, ?_⟩, ?_⟩
  · intro n hn
    rw [huses] at hn
    cases hn
  · intro c hc
    rw [hinit] at hc
    cases hc
  · intro c hc
    rw [Phase.mounts_initializes hc] at hinit
    cases hinit
  · intro c hc
    rw [hinit] at hc
    cases hc

theorem Follows.reply (htame : Tame own w w') (r : WorkerResponse) :
    Follows own w (w', .replied r) :=
  .plain htame rfl rfl fun _ hid => absurd hid not_mem_nil

theorem follows_finish (w : Worker) (op : Nat) (r : WorkerResponse) :
    Follows own w (w.finish op r) :=
  .reply (tame_finish w op r) r

theorem follows_reject (w : Worker) (caller : Caller) : Follows own w (w.reject caller) := by
  cases caller with
  | request => exact .reply (.refl w) .error
  | write op x => exact .reply (tame_settle w op false) .error

theorem follows_enqueue {job : Job} (hcarries : ∀ x, job = .write x →
      ∀ id ∈ x.msgs.map IndexableMessage.id, isGone w.log id = false) :
    Follows own w (w.enqueue c job) := by
  refine .plain (tame_enqueue w c job) rfl rfl ?_
  cases job with
  | write x => exact hcarries x rfl
  | remove | clear => exact fun _ hid => absurd hid not_mem_nil

variable {caller : Caller}

theorem follows_initChannel (c : ID) (hcarries : ∀ id ∈ caller.carries, isGone w.log id = false) :
    Follows own w (w.initChannel caller c) := by
  unfold initChannel
  by_cases hhot : (Dict.get w.indexes c).isSome = true
  · rw [if_pos hhot]
    exact .plain (tame_touchChannel w c) rfl rfl hcarries
  · rw [if_neg hhot]
    cases hinit : Dict.get w.initializing c with
    | some existing => exact .plain (.refl w) rfl rfl hcarries
    | none =>
      have hcold : Dict.get w.indexes c = none := not_isSome_iff_eq_none.mp hhot
      -- an empty document, and a promise for the channel
      have hempty : Tame own w (w.setDocument w.fresh ⟨c, []⟩) :=
        tame_setDocument fun _ _ hm => absurd hm not_mem_nil
      have hset : Tame own (w.setDocument w.fresh ⟨c, []⟩)
          { w.setDocument w.fresh ⟨c, []⟩ with
            initializing := Dict.set w.initializing c w.fresh, fresh := w.fresh + 1 } := by
        refine .of_same rfl rfl rfl rfl (fun c' _ hc' => ?_) fun _ hn => hn
        show (Dict.get (Dict.set w.initializing c w.fresh) c').isSome
        rw [Dict.get_set]
        split
        · rfl
        · exact hc'
      refine ⟨hempty.trans hset, ⟨hcarries, ?_, ?_, ?_⟩, ?_⟩
      · intro n hn
        cases hn
      · rintro c' ⟨⟩
        show (Dict.get (Dict.set w.initializing c w.fresh) c).isSome
        rw [Dict.get_set, if_pos rfl]
        rfl
      · rintro c' ⟨⟩
        exact hcold
      · rintro c' ⟨⟩
        exact Or.inr hinit

theorem Follows.loop (htame : Tame (some c) w w')
    (hsome : (Dict.get w'.initializing c).isSome) (hinit : p'.initializes = some c)
    (hmounts : p'.mounts = none) (hcarries : ∀ id ∈ p'.carries, isGone w'.log id = false)
    (huses : ∀ n ∈ p'.uses, Clean w'.log (w'.documents n).docs) : Follows (some c) w (w', p') := by
  refine ⟨htame, ⟨hcarries, huses, ?_, ?_⟩, ?_⟩
  · intro c' hc'
    rw [hinit] at hc'
    cases hc'
    exact hsome
  · intro c' hc'
    rw [hmounts] at hc'
    cases hc'
  · intro c' hc'
    rw [hinit] at hc'
    exact Or.inl hc'

theorem follows_evict (n : Nat) (oldest : ID) (hw : w.Sound)
    (hsome : (Dict.get w.initializing c).isSome)
    (hcarries : ∀ id ∈ caller.carries, isGone w.log id = false) :
    Follows (some c) w (w.evict caller c n oldest) := by
  unfold evict
  cases hget : Dict.get w.indexes oldest with
  | none => exact .loop (.refl w) hsome rfl rfl hcarries fun _ hn => absurd hn not_mem_nil
  | some index =>
    refine .loop (.refl w) hsome rfl rfl hcarries fun m hm => ?_
    rw [List.mem_singleton.mp hm]
    exact hw.held index (mem_held_of_get hget)

theorem follows_evictIfNeeded (n : Nat) (hw : w.Sound) (hsome : (Dict.get w.initializing c).isSome)
    (hcarries : ∀ id ∈ caller.carries, isGone w.log id = false) :
    Follows (some c) w (w.evictIfNeeded caller c n) := by
  have hdone : ∀ w' : Worker, Tame (some c) w w' →
      Follows (some c) w (w'.initialized c n true, .inited caller c) := by
    intro w' htame
    have hend := htame.trans (tame_initialized w' c n true)
    exact .plain hend rfl rfl fun id hid => hend.gone id (hcarries id hid)
  unfold evictIfNeeded
  cases w.accessOrder with
  | nil => exact hdone w (.refl w)
  | cons oldest rest =>
    have hshift : Tame (some c) w { w with accessOrder := rest } :=
      .of_same rfl rfl rfl rfl (fun _ _ hc => hc) fun _ hn => hn
    dsimp only
    split
    · exact hdone w (.refl w)
    · split
      · exact hdone _ hshift
      · split
        · exact .loop hshift hsome rfl rfl hcarries fun _ hn => absurd hn not_mem_nil
        · exact (follows_evict n oldest (hshift.sound hw) hsome hcarries).after hshift

theorem follows_addChunk {count : Nat} {rest : List IndexableMessage}
    (hcarries : ∀ id ∈ rest.map IndexableMessage.id, isGone w.log id = false)
    (hn : Clean w.log (w.documents n).docs) : Follows own w (w.addChunk c op n count rest) := by
  have hchunk : ∀ id ∈ (rest.take chunkSize).map IndexableMessage.id, isGone w.log id = false := by
    intro id hid
    exact hcarries id (map_subset _ (take_subset _ _) hid)
  have hadd : Tame own w (w.addAll n (rest.take chunkSize)) := tame_addAll hchunk n
  unfold addChunk
  split
  · refine ⟨hadd, ⟨?_, ?_, ?_, ?_⟩, ?_⟩
    · intro id hid
      exact hcarries id (map_subset _ (drop_subset _ _) hid)
    · intro m hm
      rw [List.mem_singleton.mp hm]
      exact hadd.documents n hn
    · rintro c' ⟨⟩
    · rintro c' ⟨⟩
    · rintro c' ⟨⟩
  · exact (follows_finish _ op _).after (hadd.trans (tame_scheduleCommit _ c))

theorem follows_proceed (c : ID) (hw : w.Sound)
    (hcarries : ∀ id ∈ caller.carries, isGone w.log id = false) :
    Follows own w (w.proceed c caller) := by
  cases caller with
  | request => exact .reply (.refl w) .done
  | write op x =>
    unfold proceed
    cases hget : Dict.get w.indexes c with
    | none => exact follows_finish w op x.reply
    | some n =>
      cases x with
      | add msgs => exact follows_addChunk hcarries (hw.held n (mem_held_of_get hget))
      | update msg =>
        have hadd : Tame own w (w.addAll n [msg]) := tame_addAll hcarries n
        exact (follows_finish _ op .done).after (hadd.trans (tame_scheduleCommit _ c))

theorem follows_forget (op : Nat) (hc : ∀ x ∈ w.persisted, x.1 = c → Clean w.log x.2) :
    Follows own w (w.forget c op) := by
  have hrest : Tame own { w with indexes := Dict.delete w.indexes c }
      { w with
        indexes := Dict.delete w.indexes c
        channelQueues := Dict.delete w.channelQueues c
        accessOrder := w.accessOrder.erase c } :=
    .of_same rfl rfl rfl rfl (fun _ _ hc => hc) fun _ hn => hn
  exact (follows_finish _ op .done).after ((tame_drop hc).trans hrest)

end Follows

/-! ## Section 5: A removal -/

section Removal

variable {w' : Worker}

theorem mem_remove {d : Document} {m : IndexableMessage}
    (hm : m ∈ (ids.foldl .remove d).docs) : m ∈ d.docs ∧ m.id ∉ ids := by
  induction ids generalizing d with
  | nil => exact ⟨hm, not_mem_nil⟩
  | cons id ids ih =>
    obtain ⟨hrest, hnot⟩ := ih hm
    obtain ⟨hmem, hne⟩ := List.mem_filter.mp hrest
    refine ⟨hmem, ?_⟩
    simp only [mem_cons, not_or]
    exact ⟨of_decide_eq_true hne, hnot⟩

theorem notGone_removed {new : List ID} (hnew : id ∉ new) (hid : isGone log id = false) :
    isGone (.removed new :: log) id = false := by
  rw [Bool.eq_false_iff, ne_eq, isGone_removed, hid]
  simp [hnew]

theorem inv_removed {new : List ID}
    {own : Option Nat} {p' : Phase} (hinv : Inv { shared := w, calls := p :: others })
    (hnew : ∀ id ∈ new, NowhereElse w others own id) (hlog : w'.log = .removed new :: w.log)
    (hindexes : w'.indexes = w.indexes) (hflush : w'.flushInProgress = w.flushInProgress)
    (hpersisted : w'.persisted = w.persisted) (hinitializing : w'.initializing = w.initializing)
    (hother : ∀ n, own ≠ some n → w'.documents n = w.documents n)
    (hown : ∀ n, own = some n → ∀ m ∈ (w'.documents n).docs, m ∈ (w.documents n).docs ∧ m.id ∉ new)
    (hcarries : p'.carries = []) (huses : p'.uses = []) (hinit : p'.initializes = none) :
    Inv { shared := w', calls := p' :: others } := by
  have hheld : w'.held = w.held := by
    unfold held
    rw [hindexes, hflush]
  have hdocuments : ∀ n ∈ w.held ++ others.flatMap Phase.uses,
      Clean w.log (w.documents n).docs → Clean w'.log (w'.documents n).docs := by
    intro n hn hclean m hm
    rw [hlog]
    -- the own index has just lost them, and no other index ever had them
    by_cases heq : own = some n
    · obtain ⟨hmem, hnot⟩ := hown n heq m hm
      exact notGone_removed hnot (hclean m hmem)
    · rw [hother n heq] at hm
      refine notGone_removed (fun hmnew => ?_) (hclean m hm)
      exact (hnew m.id hmnew).documents n hn heq m hm rfl
  refine hinv.replace ⟨?_, ?_, ?_⟩ ⟨?_, ?_, ?_, ?_⟩ ?_ fun _ _ hqq' => hqq'
  · -- the parts of the state: what is shown, what is held, what is stored
    rw [hlog]
    exact .cons (fun _ hid => absurd hid not_mem_nil) hinv.shared.hidden
  · intro n hn
    rw [hheld] at hn
    exact hdocuments n (mem_append_left _ hn) (hinv.shared.held n hn)
  · intro x hx hcold m hm
    rw [hpersisted] at hx
    rw [hindexes] at hcold
    rw [hlog]
    refine notGone_removed (fun hmnew => ?_) (hinv.shared.persisted x hx hcold m hm)
    exact (hnew m.id hmnew).persisted x hx hcold m hm rfl
  · rw [hcarries]
    exact fun _ hid => absurd hid not_mem_nil
  · rw [huses]
    exact fun _ hn => absurd hn not_mem_nil
  · intro c hc
    rw [hinit] at hc
    cases hc
  · intro c hc
    rw [Phase.mounts_initializes hc] at hinit
    cases hinit
  · intro q hqmem hq hpq
    refine ⟨⟨fun id hid => ?_, fun n hn => ?_, fun c hc => ?_, fun c hc => ?_⟩, fun c hc => ?_⟩
    · rw [hlog]
      refine notGone_removed (fun hidnew => ?_) (hq.carries id hid)
      exact (hnew id hidnew).calls q hqmem hid
    · have hmem : n ∈ others.flatMap Phase.uses := List.mem_flatMap.mpr ⟨q, hqmem, hn⟩
      exact hdocuments n (mem_append_right _ hmem) (hq.uses n hn)
    · rw [hinitializing]
      exact hq.initializes c hc
    · rw [hindexes]
      exact hq.mounts c hc
    · rw [hinit] at hc
      cases hc

theorem inv_remove {since : Nat} (hinv : Inv { shared := w, calls := p :: others })
    (hnew : ∀ id ∈ w.unwritten ids since, NowhereElse w others (Dict.get w.indexes c) id) :
    Inv ⟨(w.remove c op ids since).1, (w.remove c op ids since).2 :: others⟩ := by
  unfold remove
  dsimp only
  cases hget : get w.indexes c with
  | none =>
    have hget' : get (w.record (.removed (w.unwritten ids since))).indexes c = none := hget
    rw [hget']
    have hrecorded : Inv ⟨w.record (.removed (w.unwritten ids since)),
        .replied .done :: others⟩ := by
      refine inv_removed hinv hnew rfl rfl rfl rfl rfl (fun _ _ => rfl) ?_ rfl rfl rfl
      intro n hn
      rw [hget] at hn
      cases hn
    exact (follows_finish _ op .done).inv hrecorded
  | some n =>
    have hget' : get (w.record (.removed (w.unwritten ids since))).indexes c = some n := hget
    rw [hget']
    have hremoved : Inv ⟨(w.record (.removed (w.unwritten ids since))).removeAll n ids,
        .replied .done :: others⟩ := by
      refine inv_removed hinv hnew rfl rfl rfl rfl rfl ?_ ?_ rfl rfl rfl
      · intro m hm
        rw [hget] at hm
        exact if_neg fun heq => hm (congrArg some heq.symm)
      · intro m hm msg hmsg
        rw [hget] at hm
        cases hm
        have hself : ((w.record (.removed (w.unwritten ids since))).removeAll n ids).documents n =
            ids.foldl .remove (w.documents n) := if_pos rfl
        rw [hself] at hmsg
        obtain ⟨hmem, hnot⟩ := mem_remove hmsg
        exact ⟨hmem, fun hin => hnot (mem_filter.mp hin).1⟩
    exact ((follows_finish _ op .done).after (tame_scheduleCommit _ c)).inv hremoved

end Removal

/-! ## Section 6: Every step -/

theorem mem_collect {opts : SearchOpts} {h : Hits} {x : SearchHit}
    (hx : x ∈ (msgs.foldl (Hits.collect opts) h).results) :
    x ∈ h.results ∨ ∃ m ∈ msgs, x = m.hit := by
  induction msgs generalizing h with
  | nil => exact Or.inl hx
  | cons msg msgs ih =>
    rcases ih hx with hfirst | ⟨m, hm, rfl⟩
    · unfold Hits.collect at hfirst
      split at hfirst
      · exact Or.inl hfirst
      · dsimp only at hfirst
        split at hfirst
        · rcases List.mem_append.mp hfirst with hold | hnew
          · exact Or.inl hold
          · exact Or.inr ⟨msg, mem_cons_self, mem_singleton.mp hnew⟩
        · exact Or.inl hfirst
    · exact Or.inr ⟨m, mem_cons_of_mem _ hm, rfl⟩

theorem mem_answer {opts : SearchOpts} {h : Hits} {x : SearchHit} (hx : x ∈ h.answer opts) :
    x ∈ h.results := by
  have hsorted := mem_of_mem_take hx
  exact (perm_insertionSort _ _).mem_iff.mp hsorted

section Step

variable {own : Option ID} {w' : Worker}

theorem mem_held_of_flush {commits : List Commit} {x : Commit}
    (hflush : w.flushInProgress = some commits) (hx : x ∈ commits) (hn : x.document = some n) :
    n ∈ w.held := by
  refine mem_append_right _ (List.mem_flatMap.mpr ⟨x, ?_, ?_⟩)
  · rw [hflush]
    exact hx
  · simp [uses, hn]

theorem uses_set {commits : List Commit} {i : Nat} {x : Commit} (fulfilled : Option Bool)
    (hx : commits[i]? = some x) :
    (commits.set i { x with fulfilled }).flatMap uses = commits.flatMap uses := by
  have hmap : ∀ l : List Commit, l.flatMap uses = (l.map document).flatMap
      toList := by
    intro l
    rw [flatMap_map]
    rfl
  rw [hmap, hmap, map_set]
  congr 1
  obtain ⟨hlt, rfl⟩ := List.getElem?_eq_some_iff.mp hx
  refine ext_getElem? fun j => ?_
  by_cases hij : i = j
  · subst hij
    simp [hlt]
  · rw [getElem?_set_ne hij]

theorem tame_persist (hn : Clean w.log (w.documents n).docs) : Tame own w (w.persist n) :=
  tame_setPersisted hn

theorem markDirty_fold (w : Worker) (commits : List Commit) :
    ∃ l, commits.foldl (fun w x => w.markDirty x.channelId) w = { w with dirtyChannels := l } := by
  induction commits generalizing w with
  | nil => exact ⟨w.dirtyChannels, rfl⟩
  | cons x commits ih =>
    obtain ⟨l, hl⟩ := ih (w.markDirty x.channelId)
    exact ⟨l, hl⟩

theorem tame_tick {o : Outcome} {t : Tick} (hw : w.Sound) (h : w.tick o t = some w') :
    Tame own w w' := by
  cases t with
  | timer =>
    simp only [tick, ite_none_right_eq_some, some.injEq] at h
    obtain ⟨-, rfl⟩ := h
    have hclear : Tame own w { w with commitTimer := false } :=
      .of_same rfl rfl rfl rfl (fun _ _ hc => hc) fun _ hn => hn
    exact hclear.trans (tame_flushDirty _)
  | committed i =>
    simp only [tick] at h
    split at h
    · cases h
    · next commits hflush =>
      split at h
      · next c n hcommit =>
        cases h
        have hmem := mem_of_getElem? hcommit
        have hn : n ∈ w.held := mem_held_of_flush hflush hmem rfl
        have hwrite : Tame own w (if o.isDone then w.persist n else w) := by
          split
          · exact tame_persist (hw.held n hn)
          · exact .refl w
        refine hwrite.trans (.of_same rfl rfl rfl rfl (fun _ _ hc => hc) fun m hm => ?_)
        -- writing a document leaves the flush as it is
        have hsame : (if o.isDone then w.persist n else w).flushInProgress = some commits := by
          split <;> exact hflush
        unfold held at hm ⊢
        rw [hsame]
        rcases List.mem_append.mp hm with hm | hm
        · exact mem_append_left _ hm
        · have huses := uses_set (some o.ok) hcommit
          exact mem_append_right _ (huses ▸ hm)
      · cases h
  | flushed =>
    simp only [tick] at h
    split at h
    · cases h
    · next commits hflush =>
      split at h
      · cases h
        obtain ⟨l, hl⟩ := markDirty_fold w (commits.filter fun x => x.fulfilled = some false)
        rw [hl]
        refine .of_same rfl rfl rfl rfl (fun _ _ hc => hc) fun n hn => ?_
        rcases List.mem_append.mp hn with hn | hn
        · exact mem_append_left _ hn
        · cases hn
      · cases h

theorem notGone_written (log : List Act) (hid : id ∈ ids) :
    isGone (.written ids :: log) id = false := by
  rw [Bool.eq_false_iff, ne_eq, isGone_written]
  exact fun h => h.1 hid

theorem follows_onmessage (w : Worker) (r : WorkerRequest) : Follows own w (w.onmessage r) := by
  have hremoval : ∀ c ids since, Follows own w (w.enqueue c (.remove ids since)) :=
    fun c ids since => follows_enqueue fun x hx => by cases hx
  cases r with
  | initChannel c => exact follows_initChannel c fun _ hid => absurd hid not_mem_nil
  | addMessages c msgs =>
    refine (follows_enqueue ?_).after (tame_written w (msgs.map IndexableMessage.id))
    rintro x ⟨⟩ id hid
    exact notGone_written w.log hid
  | updateMessage c msg =>
    refine (follows_enqueue ?_).after (tame_written w [msg.id])
    rintro x ⟨⟩ id hid
    exact notGone_written w.log hid
  | removeMessage c id => exact hremoval c [id] w.log.length
  | removeMessages c ids => exact hremoval c ids w.log.length
  | search query opts =>
    exact .plain (.refl w) rfl rfl fun _ hid => absurd hid not_mem_nil
  | flush => exact .reply (tame_flushDirty w) .done
  | clearChannel c => exact follows_enqueue fun x hx => by cases hx

theorem Follows.use {p' : Phase} (htame : Tame own w w') (huses : p'.uses = [n])
    (hn : Clean w'.log (w'.documents n).docs) (hinit : p'.initializes = none)
    (hcarries : ∀ id ∈ p'.carries, isGone w'.log id = false) : Follows own w (w', p') := by
  refine ⟨htame, ⟨hcarries, ?_, ?_, ?_⟩, ?_⟩
  · intro m hm
    rw [huses] at hm
    rw [List.mem_singleton.mp hm]
    exact hn
  · intro c hc
    rw [hinit] at hc
    cases hc
  · intro c hc
    rw [Phase.mounts_initializes hc] at hinit
    cases hinit
  · intro c hc
    rw [hinit] at hc
    cases hc

theorem follows_clearing (o : Outcome) :
    Follows own w
      (if o.isDone then (w.setDocument n { channelId := (w.documents n).channelId }).wipe n
        else w.setDocument n { channelId := (w.documents n).channelId },
      if o.ok then .destroying c op n else .forgetting c op) := by
  have hempty : Clean w.log [] := fun _ hm => absurd hm not_mem_nil
  have hclear : Tame own w (w.setDocument n { channelId := (w.documents n).channelId }) :=
    tame_setDocument fun _ => hempty
  have hself : ((w.setDocument n { channelId := (w.documents n).channelId }).documents n).docs =
      [] := congrArg Document.docs (if_pos rfl)
  have hleft : Follows own w (w.setDocument n { channelId := (w.documents n).channelId },
      .forgetting c op) :=
    .plain hclear rfl rfl fun _ hid => absurd hid not_mem_nil
  cases o with
  | fulfilled =>
    refine .use (hclear.trans (tame_wipe _ n)) rfl ?_ rfl fun _ hid => absurd hid not_mem_nil
    show Clean w.log ((w.setDocument n { channelId := (w.documents n).channelId }).documents n).docs
    rw [hself]
    exact hempty
  | lost =>
    exact .plain (hclear.trans (tame_wipe _ n)) rfl rfl fun _ hid => absurd hid not_mem_nil
  | rejected | found => exact hleft

/-- Every step of a call that reaches what it is to remove keeps the invariant. -/
theorem inv_next {o : Outcome} (hinv : Inv { shared := w, calls := p :: others })
    (hreach : Reaches w others p o) (h : next w others p o = some r) :
    Inv { shared := r.1, calls := r.2 :: others } := by
  have hw : w.Sound := hinv.shared
  have hp : Local w p := hinv.each p mem_cons_self
  cases p with
  | posted r =>
    cases h
    exact (follows_onmessage w r).inv hinv
  | ticking t =>
    simp only [next] at h
    split at h
    · cases h
    · next _ htick =>
      cases h
      exact (Follows.reply (tame_tick hw htick) .done).inv hinv
  | queued c op prev job =>
    simp only [next] at h
    split at h
    · next hturn =>
      cases h
      cases job with
      | write x =>
        have hstart : Follows none w (w.initChannel (.write op x) c) :=
          follows_initChannel c hp.carries
        exact hstart.inv hinv
      | remove ids since => exact inv_remove hinv (hreach hturn)
      | clear =>
        simp only [run]
        cases hget : Dict.get w.indexes c with
        | none =>
          refine (follows_forget op fun x hx hkey => ?_).inv hinv
          exact hw.persisted x hx (hkey ▸ hget)
        | some n =>
          refine Follows.inv hinv (.use (.refl w) rfl ?_ rfl ?_)
          · exact hw.held n (mem_held_of_get hget)
          · exact fun _ hid => absurd hid not_mem_nil
    · cases h
  | awaiting caller c init =>
    simp only [next] at h
    split at h
    · cases h
    · cases h
      refine Follows.inv hinv (.plain (.refl w) rfl rfl ?_)
      exact hp.carries
    · cases h
      exact (follows_reject w caller).inv hinv
  | mounting caller c n =>
    simp only [next] at h
    split at h
    · cases h
      have hmount := tame_mounted n (hp.mounts c rfl) hw
      refine (Follows.loop hmount (hp.initializes c rfl) rfl rfl ?_ ?_).inv hinv
      · exact fun id hid => hmount.gone id (hp.carries id hid)
      · exact fun _ hm => absurd hm not_mem_nil
    · cases h
      exact ((follows_reject _ caller).after (tame_initialized w c n false)).inv hinv
  | evicting caller c n =>
    cases h
    exact (follows_evictIfNeeded n hw (hp.initializes c rfl) hp.carries).inv hinv
  | draining caller c n oldest pending =>
    simp only [next] at h
    split at h
    · cases h
    · cases h
      have hdelete : Tame (some c) w
          { w with channelQueues := Dict.delete w.channelQueues oldest } :=
        .of_same rfl rfl rfl rfl (fun _ _ hc => hc) fun _ hn => hn
      have hrest := follows_evict n oldest (hdelete.sound hw) (hp.initializes c rfl) hp.carries
      exact (hrest.after hdelete).inv hinv
  | committing caller c n oldest index =>
    cases h
    have hindex := hp.uses index mem_cons_self
    have hwrite : Tame (some c) w (if o.isDone then w.persist index else w) := by
      split
      · exact tame_persist hindex
      · exact .refl w
    refine (Follows.loop hwrite ?_ rfl rfl ?_ ?_).inv hinv
    · have hsame : (if o.isDone then w.persist index else w).initializing = w.initializing := by
        split <;> rfl
      rw [hsame]
      exact hp.initializes c rfl
    · exact fun id hid => hwrite.gone id (hp.carries id hid)
    · exact fun _ hm => absurd hm not_mem_nil
  | dropping caller c n oldest =>
    cases h
    refine (Follows.loop (tame_drop hreach) (hp.initializes c rfl) rfl rfl ?_ ?_).inv hinv
    · exact hp.carries
    · exact fun _ hm => absurd hm not_mem_nil
  | inited caller c =>
    cases h
    exact (follows_proceed c hw hp.carries).inv hinv
  | adding c op n count rest =>
    cases h
    exact (follows_addChunk hp.carries (hp.uses n mem_cons_self)).inv hinv
  | clearing c op n =>
    cases h
    exact (follows_clearing o).inv hinv
  | destroying c op n =>
    cases h
    refine Follows.inv hinv (.plain ?_ rfl rfl fun _ hid => absurd hid not_mem_nil)
    split
    · exact tame_wipe w n
    · exact .refl w
  | forgetting c op =>
    cases h
    exact (follows_forget op hreach).inv hinv
  | searching opts rest hits =>
    cases rest with
    | nil =>
      cases h
      refine (Follows.reply (tame_found ?_) _).inv hinv
      intro id hid
      obtain ⟨x, hx, rfl⟩ := List.mem_map.mp hid
      exact hp.carries x.id (mem_map_of_mem (mem_answer hx))
    | cons c rest =>
      simp only [next] at h
      split at h
      · cases h
        refine Follows.inv hinv (.plain (.refl w) rfl rfl ?_)
        exact hp.carries
      · next n hget =>
        cases h
        refine Follows.inv hinv (.use (.refl w) rfl ?_ rfl ?_)
        · exact hw.held n (mem_held_of_get hget)
        · exact hp.carries
  | asking opts n rest hits =>
    simp only [next] at h
    split at h
    · cases h
      refine Follows.inv hinv (.plain (.refl w) rfl rfl fun id hid => ?_)
      obtain ⟨x, hx, rfl⟩ := List.mem_map.mp hid
      rcases mem_collect hx with hold | ⟨m, hm, rfl⟩
      · exact hp.carries x.id (mem_map_of_mem hold)
      · -- what the index answers is in the index
        have hdoc : m ∈ (w.documents n).docs := by
          have hfound := (List.mem_filter.mp hm).2
          simp only [decide_eq_true_eq] at hfound
          exact hfound.1
        exact hp.uses n mem_cons_self m hdoc
    · cases h
      exact (Follows.reply (.refl w) .error).inv hinv
  | replied r => cases h

end Step

/-! ## Section 7: Runs -/

theorem inv_booted (persisted : List (ID × List IndexableMessage)) : Inv (booted persisted) := by
  refine .init ⟨.nil, ?_, ?_⟩
  · exact fun _ hn => absurd hn not_mem_nil
  · exact fun _ _ _ _ _ => rfl

theorem inv_exec {s : Config} {evs : List Event} (hs : Inv s)
    (h : Run.Guarded step Reached s evs) : Inv (exec s evs) := by
  refine Pool.keeps_exec (Pool.Inv.perm apart_symm) ?_ ?_ hs h
  · intro w calls call hinv _
    have hposted : Local w (Phase.init call) ∧ (Phase.init call).initializes = none := by
      cases call <;> refine ⟨⟨?_, ?_, ?_, ?_⟩, rfl⟩ <;> rintro _ ⟨⟩
    refine hinv.cons hposted.1 fun q _ c hc => ?_
    rw [hposted.2] at hc
    cases hc
  · exact fun w p others o w' p' => inv_next

/-- As long as every removal reaches the message wherever it is, no search ever returns a
    message after its removal. -/
theorem hidden_exec (persisted : List (ID × List IndexableMessage)) (evs : List Event)
    (h : Run.Guarded step Reached (booted persisted) evs) :
    Hidden (exec (booted persisted) evs).shared.log :=
  (inv_exec (inv_booted persisted) h).shared.hidden

/-- Call number `i` takes `k` steps. -/
def proceeds (i k : Nat) : List Event := .replicate k (.advance i .fulfilled)

def greeting : IndexableMessage := { id := "greeting", channelId := "c0", content := "hello" }

def answer : IndexableMessage := { id := "answer", channelId := "c0", content := "hello you" }

/-- The two messages are indexed, and so much is opened that the index of `c0` is evicted. -/
def fills : List Event :=
  .start (.request (.addMessages "c0" [greeting, answer])) :: proceeds 0 5

def opensOthers (first : Nat) : List Event :=
  ["c1", "c2", "c3", "c4", "c5", "c6", "c7", "c8", "c9", "c10"].zipIdx.flatMap fun (c, i) =>
    .start (.request (.initChannel c)) :: proceeds (first + i) 9

def removes (i : Nat) : List Event :=
  .start (.request (.removeMessage "c0" "greeting")) :: proceeds i 2

def searches (i : Nat) : List Event :=
  .start (.request (.initChannel "c0")) :: proceeds i 9 ++
    .start (.request (.search "hello" { channelId := some "c0" })) :: proceeds (i + 1) 2 ++
    [.advance (i + 1) (.found [greeting, answer]), .advance (i + 1) .fulfilled]

/-- The message is removed while the index of its channel is hot. -/
def removedInTime : List Event := fills ++ removes 1 ++ opensOthers 2 ++ searches 12

/-- The message is removed after the index of its channel has been evicted. -/
def removedLate : List Event := fills ++ opensOthers 1 ++ removes 11 ++ searches 12

/-- The answer is found after the index has been loaded again, the greeting is not. -/
theorem hidden_removedInTime :
    Run.Guarded step Reached (booted []) removedInTime ∧
      (exec (booted []) removedInTime).shared.log =
        [.found ["answer"], .removed ["greeting"], .written ["greeting", "answer"]] ∧
      Hidden (exec (booted []) removedInTime).shared.log := by
  have hreached : Run.Guarded step Reached (booted []) removedInTime := by decide +kernel
  have hlog : (exec (booted []) removedInTime).shared.log =
      [.found ["answer"], .removed ["greeting"], .written ["greeting", "answer"]] := by
    decide +kernel
  exact ⟨hreached, hlog, hidden_exec [] removedInTime hreached⟩

/-- `removeMessage` finds no index, and leaves the message in the persisted copy. -/
theorem not_hidden_removedLate : ¬ ∀ evs, Hidden (exec (booted []) evs).shared.log := by
  intro h
  have hreturned : ¬ Hidden (exec (booted []) removedLate).shared.log := by decide +kernel
  exact hreturned (h removedLate)

end Meza.Client.Search
