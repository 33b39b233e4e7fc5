import Meza.Store.Schema

/-! # System message settings

    Where a server posts its system messages, which of them, and with what
    texts. Without a row the defaults of the columns count. The upsert builds a
    `SET` clause out of the options that are given. The clause stands behind
    `ON CONFLICT`; the row that is inserted where there was none names the server
    and nothing else. -/

namespace Meza.Store
open Table

/-! ## Section 1: Rows and options -/

structure ServerSystemMessageConfig where
  serverID : ID
  welcomeChannelID : Option ID := none
  modLogChannelID : Option ID := none
  joinEnabled : Bool := true
  joinTemplate : Option String := none
  leaveEnabled : Bool := true
  leaveTemplate : Option String := none
  kickEnabled : Bool := true
  kickTemplate : Option String := none
  banEnabled : Bool := true
  banTemplate : Option String := none
  timeoutEnabled : Bool := true
  timeoutTemplate : Option String := none
  updatedAt : Int := 0
  deriving DecidableEq, Repr

structure UpsertSystemMessageConfigOpts where
  welcomeChannelID : Option ID := none
  modLogChannelID : Option ID := none
  joinEnabled : Option Bool := none
  joinTemplate : Option String := none
  leaveEnabled : Option Bool := none
  leaveTemplate : Option String := none
  kickEnabled : Option Bool := none
  kickTemplate : Option String := none
  banEnabled : Option Bool := none
  banTemplate : Option String := none
  timeoutEnabled : Option Bool := none
  timeoutTemplate : Option String := none

/-- The foreign keys of a row. -/
def ServerSystemMessageConfig.Refers (t : Tables) (cfg : ServerSystemMessageConfig) : Prop :=
  cfg.serverID ∈ t.servers.map (·.id) ∧
    References cfg.welcomeChannelID (t.channels.map (·.id)) ∧
    References cfg.modLogChannelID (t.channels.map (·.id))

instance (t : Tables) (cfg : ServerSystemMessageConfig) : Decidable (cfg.Refers t) :=
  inferInstanceAs (Decidable (_ ∧ _ ∧ _))

/-- The constraints of `server_system_message_config`. -/
def ConfigConstraints (t : Tables) (configs : List ServerSystemMessageConfig) : Prop :=
  UniqueOn ServerSystemMessageConfig.serverID configs ∧ ∀ cfg ∈ configs, cfg.Refers t

instance (t : Tables) (configs : List ServerSystemMessageConfig) :
    Decidable (ConfigConstraints t configs) :=
  inferInstanceAs (Decidable (_ ∧ _))

/-- The table beside those it refers to. -/
structure ConfigDB where
  db : DB
  configs : List ServerSystemMessageConfig
  constraints : ConfigConstraints db.tables configs

/-! ## Section 2: Queries -/

namespace SystemMessageStore

/-- `none` stands for the defaults. -/
def getSystemMessageConfig (s : ConfigDB) (serverID : ID) : Option ServerSystemMessageConfig :=
  lookup ServerSystemMessageConfig.serverID serverID s.configs

/-- One item of a `SET` clause. -/
inductive SetItem where
  | updatedAt (now : Int)
  | welcomeChannelID (id : ID)
  | modLogChannelID (id : ID)
  | joinEnabled (enabled : Bool)
  | joinTemplate (template : String)
  | leaveEnabled (enabled : Bool)
  | leaveTemplate (template : String)
  | kickEnabled (enabled : Bool)
  | kickTemplate (template : String)
  | banEnabled (enabled : Bool)
  | banTemplate (template : String)
  | timeoutEnabled (enabled : Bool)
  | timeoutTemplate (template : String)

def SetItem.apply (cfg : ServerSystemMessageConfig) : SetItem → ServerSystemMessageConfig
  | .updatedAt now => { cfg with updatedAt := now }
  | .welcomeChannelID id => { cfg with welcomeChannelID := some id }
  | .modLogChannelID id => { cfg with modLogChannelID := some id }
  | .joinEnabled enabled => { cfg with joinEnabled := enabled }
  | .joinTemplate template => { cfg with joinTemplate := some template }
  | .leaveEnabled enabled => { cfg with leaveEnabled := enabled }
  | .leaveTemplate template => { cfg with leaveTemplate := some template }
  | .kickEnabled enabled => { cfg with kickEnabled := enabled }
  | .kickTemplate template => { cfg with kickTemplate := some template }
  | .banEnabled enabled => { cfg with banEnabled := enabled }
  | .banTemplate template => { cfg with banTemplate := some template }
  | .timeoutEnabled enabled => { cfg with timeoutEnabled := enabled }
  | .timeoutTemplate template => { cfg with timeoutTemplate := some template }

/-- `updated_at = now()` and an item for each option that is given. -/
def setClauses (now : Int) (opts : UpsertSystemMessageConfigOpts) : List SetItem :=
  [.updatedAt now] ++
    (opts.welcomeChannelID.map .welcomeChannelID).toList ++
    (opts.modLogChannelID.map .modLogChannelID).toList ++
    (opts.joinEnabled.map .joinEnabled).toList ++
    (opts.joinTemplate.map .joinTemplate).toList ++
    (opts.leaveEnabled.map .leaveEnabled).toList ++
    (opts.leaveTemplate.map .leaveTemplate).toList ++
    (opts.kickEnabled.map .kickEnabled).toList ++
    (opts.kickTemplate.map .kickTemplate).toList ++
    (opts.banEnabled.map .banEnabled).toList ++
    (opts.banTemplate.map .banTemplate).toList ++
    (opts.timeoutEnabled.map .timeoutEnabled).toList ++
    (opts.timeoutTemplate.map .timeoutTemplate).toList

/-- What the `SET` clause makes of a row. -/
def applyClauses (now : Int) (opts : UpsertSystemMessageConfigOpts)
    (cfg : ServerSystemMessageConfig) : ServerSystemMessageConfig :=
  (setClauses now opts).foldl SetItem.apply cfg

/-- `INSERT … (server_id) VALUES ($1) ON CONFLICT (server_id) DO UPDATE SET …
    RETURNING …`; the other columns of a new row have their defaults. -/
def upsertSystemMessageConfig (now : Int) (s : ConfigDB) (serverID : ID)
    (opts : UpsertSystemMessageConfigOpts) :
    Except StoreError (ServerSystemMessageConfig × ConfigDB) :=
  let configs := upsert ServerSystemMessageConfig.serverID (applyClauses now opts)
    { serverID, updatedAt := now } s.configs
  if h : ConfigConstraints s.db.tables configs then
    match lookup ServerSystemMessageConfig.serverID serverID configs with
    | some cfg => .ok (cfg, { s with configs, constraints := h })
    | none => .error (.refused "upsert system message config: no rows in result set")
  else .error .constraint

/-! ## Section 3: What the clause does -/

/-- What an option record asks for: a given option replaces the value. -/
def merged (opts : UpsertSystemMessageConfigOpts) (cfg : ServerSystemMessageConfig) :
    ServerSystemMessageConfig :=
  { cfg with
    welcomeChannelID := opts.welcomeChannelID.or cfg.welcomeChannelID
    modLogChannelID := opts.modLogChannelID.or cfg.modLogChannelID
    joinEnabled := opts.joinEnabled.getD cfg.joinEnabled
    joinTemplate := opts.joinTemplate.or cfg.joinTemplate
    leaveEnabled := opts.leaveEnabled.getD cfg.leaveEnabled
    leaveTemplate := opts.leaveTemplate.or cfg.leaveTemplate
    kickEnabled := opts.kickEnabled.getD cfg.kickEnabled
    kickTemplate := opts.kickTemplate.or cfg.kickTemplate
    banEnabled := opts.banEnabled.getD cfg.banEnabled
    banTemplate := opts.banTemplate.or cfg.banTemplate
    timeoutEnabled := opts.timeoutEnabled.getD cfg.timeoutEnabled
    timeoutTemplate := opts.timeoutTemplate.or cfg.timeoutTemplate }

theorem given {α : Type} (item : α → SetItem)
    (f : ServerSystemMessageConfig → Option α → ServerSystemMessageConfig)
    (hnone : ∀ cfg, f cfg none = cfg) (hsome : ∀ cfg a, f cfg (some a) = SetItem.apply cfg (item a))
    (o : Option α) (cfg : ServerSystemMessageConfig) :
    (o.map item).toList.foldl SetItem.apply cfg = f cfg o := by
  rcases o with _ | a
  · exact (hnone cfg).symm
  · exact (hsome cfg a).symm

theorem applyClauses_eq (now : Int) (opts : UpsertSystemMessageConfigOpts)
    (cfg : ServerSystemMessageConfig) :
    applyClauses now opts cfg = { merged opts cfg with updatedAt := now } := by
  unfold applyClauses setClauses
  simp only [List.foldl_append]
  -- one rule for each column
  rw [
    given .welcomeChannelID (fun cfg o => { cfg with welcomeChannelID := o.or cfg.welcomeChannelID }) (fun _ => rfl) fun _ _ => rfl,
    given .modLogChannelID (fun cfg o => { cfg with modLogChannelID := o.or cfg.modLogChannelID }) (fun _ => rfl) fun _ _ => rfl,
    given .joinEnabled (fun cfg o => { cfg with joinEnabled := o.getD cfg.joinEnabled }) (fun _ => rfl) fun _ _ => rfl,
    given .joinTemplate (fun cfg o => { cfg with joinTemplate := o.or cfg.joinTemplate }) (fun _ => rfl) fun _ _ => rfl,
    given .leaveEnabled (fun cfg o => { cfg with leaveEnabled := o.getD cfg.leaveEnabled }) (fun _ => rfl) fun _ _ => rfl,
    given .leaveTemplate (fun cfg o => { cfg with leaveTemplate := o.or cfg.leaveTemplate }) (fun _ => rfl) fun _ _ => rfl,
    given .kickEnabled (fun cfg o => { cfg with kickEnabled := o.getD cfg.kickEnabled }) (fun _ => rfl) fun _ _ => rfl,
    given .kickTemplate (fun cfg o => { cfg with kickTemplate := o.or cfg.kickTemplate }) (fun _ => rfl) fun _ _ => rfl,
    given .banEnabled (fun cfg o => { cfg with banEnabled := o.getD cfg.banEnabled }) (fun _ => rfl) fun _ _ => rfl,
    given .banTemplate (fun cfg o => { cfg with banTemplate := o.or cfg.banTemplate }) (fun _ => rfl) fun _ _ => rfl,
    given .timeoutEnabled (fun cfg o => { cfg with timeoutEnabled := o.getD cfg.timeoutEnabled }) (fun _ => rfl) fun _ _ => rfl,
    given .timeoutTemplate (fun cfg o => { cfg with timeoutTemplate := o.or cfg.timeoutTemplate }) (fun _ => rfl) fun _ _ => rfl]
  rfl

/-! ## Section 4: First and later writes -/

/-- After a write every given option has its value and every other one that of
    before, and the answer is what is stored. -/
structure Upserted (opts : UpsertSystemMessageConfigOpts) (serverID : ID) (s s' : ConfigDB)
    (cfg : ServerSystemMessageConfig) : Prop where
  fields : { cfg with updatedAt := 0 } =
    { merged opts ((getSystemMessageConfig s serverID).getD { serverID }) with updatedAt := 0 }
  stored : getSystemMessageConfig s' serverID = some cfg
  others : ∀ id, id ≠ serverID → getSystemMessageConfig s' id = getSystemMessageConfig s id

/-- No option is given that differs from a default. -/
structure OnlyDefaults (opts : UpsertSystemMessageConfigOpts) : Prop where
  channels : opts.welcomeChannelID = none ∧ opts.modLogChannelID = none
  enabled : ∀ enabled ∈ [opts.joinEnabled, opts.leaveEnabled, opts.kickEnabled, opts.banEnabled,
    opts.timeoutEnabled], enabled ≠ some false
  templates : ∀ template ∈ [opts.joinTemplate, opts.leaveTemplate, opts.kickTemplate,
    opts.banTemplate, opts.timeoutTemplate], template = none

theorem merged_default_iff {opts : UpsertSystemMessageConfigOpts} {serverID : ID} :
    merged opts { serverID } = { serverID } ↔ OnlyDefaults opts := by
  have henabled : ∀ o : Option Bool, o.getD true = true ↔ o ≠ some false := by
    intro o
    rcases o with _ | _ | _ <;> simp
  unfold merged
  simp only [ServerSystemMessageConfig.mk.injEq, Option.or_none, henabled, true_and, and_true]
  constructor
  · intro h
    obtain ⟨hwelcome, hlog, hjoin, hjoin', hleave, hleave', hkick, hkick', hban, hban', htimeout,
      htimeout'⟩ := h
    refine ⟨⟨hwelcome, hlog⟩, ?_, ?_⟩
    · simp only [List.forall_mem_cons]
      exact ⟨hjoin, hleave, hkick, hban, htimeout, fun _ h => nomatch h⟩
    · simp only [List.forall_mem_cons]
      exact ⟨hjoin', hleave', hkick', hban', htimeout', fun _ h => nomatch h⟩
  · intro h
    obtain ⟨⟨hwelcome, hlog⟩, henabled, htemplate⟩ := h
    simp only [List.forall_mem_cons] at henabled htemplate
    obtain ⟨hjoin, hleave, hkick, hban, htimeout, -⟩ := henabled
    obtain ⟨hjoin', hleave', hkick', hban', htimeout', -⟩ := htemplate
    exact ⟨hwelcome, hlog, hjoin, hjoin', hleave, hleave', hkick, hkick', hban, hban', htimeout,
      htimeout'⟩

section Writes

variable {now : Int} {s s' : ConfigDB} {serverID : ID} {opts : UpsertSystemMessageConfigOpts}
  {cfg : ServerSystemMessageConfig}

theorem upsertSystemMessageConfig_ok
    (h : upsertSystemMessageConfig now s serverID opts = .ok (cfg, s')) :
    getSystemMessageConfig s' serverID = some cfg ∧ s'.db = s.db ∧
      s'.configs = upsert ServerSystemMessageConfig.serverID (applyClauses now opts)
        { serverID, updatedAt := now } s.configs := by
  unfold upsertSystemMessageConfig at h
  dsimp only at h
  split at h
  · split at h
    · rename_i hlook
      injection h with h
      obtain ⟨rfl, rfl⟩ := Prod.mk.inj h
      exact ⟨hlook, rfl, rfl⟩
    · cases h
  · cases h

/-- The row of every server after a write. -/
theorem getSystemMessageConfig_upsert
    (h : upsertSystemMessageConfig now s serverID opts = .ok (cfg, s')) (id : ID) :
    getSystemMessageConfig s' id = if id = serverID then
        some (((getSystemMessageConfig s serverID).map (applyClauses now opts)).getD
          { serverID, updatedAt := now })
      else getSystemMessageConfig s id := by
  have hkey : ∀ row, (applyClauses now opts row).serverID = row.serverID := by
    intro row
    rw [applyClauses_eq]
    rfl
  unfold getSystemMessageConfig
  rw [(upsertSystemMessageConfig_ok h).2.2, lookup_upsert hkey]
  by_cases hid : id = serverID
  · rw [if_pos hid, if_pos hid, hid]
  · rw [if_neg hid, if_neg hid]

end Writes

/-- **Settings are merged.** A write that succeeds merges the options into the row,
    exactly when there is a row or nothing but defaults is asked for. -/
theorem upsertSystemMessageConfig_merges_iff (now : Int) (s s' : ConfigDB) (serverID : ID)
    (opts : UpsertSystemMessageConfigOpts) (cfg : ServerSystemMessageConfig)
    (h : upsertSystemMessageConfig now s serverID opts = .ok (cfg, s')) :
    Upserted opts serverID s s' cfg ↔
      (getSystemMessageConfig s serverID).isSome = true ∨ OnlyDefaults opts := by
  have hstored := (upsertSystemMessageConfig_ok h).1
  have hcfg : cfg = ((getSystemMessageConfig s serverID).map (applyClauses now opts)).getD
      { serverID, updatedAt := now } := by
    have hrow := getSystemMessageConfig_upsert h serverID
    rw [hstored, if_pos rfl] at hrow
    exact Option.some.inj hrow
  have hothers : ∀ id, id ≠ serverID →
      getSystemMessageConfig s' id = getSystemMessageConfig s id := by
    intro id hid
    rw [getSystemMessageConfig_upsert h, if_neg hid]
  rcases hprior : getSystemMessageConfig s serverID with _ | row
  · -- the row is new, and no option has been looked at
    rw [hprior] at hcfg
    have hnew : cfg = { serverID, updatedAt := now } := hcfg
    have hfields : ({ cfg with updatedAt := 0 } : ServerSystemMessageConfig) = { serverID } := by
      rw [hnew]
    rw [← @merged_default_iff opts serverID]
    constructor
    · intro hmerged
      have heq := hmerged.fields
      rw [hprior, hfields] at heq
      exact Or.inr heq.symm
    · intro hdefault
      refine ⟨?_, hstored, hothers⟩
      rw [hprior, hfields]
      exact (hdefault.resolve_left Bool.false_ne_true).symm
  · rw [hprior] at hcfg
    have hold : cfg = applyClauses now opts row := hcfg
    refine iff_of_true ⟨?_, hstored, hothers⟩ (Or.inl rfl)
    rw [hprior, hold, applyClauses_eq]
    rfl

/-- A server with a channel for greetings. -/
def foyerDB : DB where
  tables :=
    { users := [{ id := "owner", signingPublicKey := none }]
      servers := [{ id := "srv", ownerID := "owner" }]
      channels := [{ id := "foyer", serverID := some "srv", name := "foyer" }] }
  constraints := by decide

/-- Nobody has changed a setting. -/
def foyerFresh : ConfigDB := { db := foyerDB, configs := [], constraints := by decide }

/-- Somebody has switched off the notices about kicks. -/
def foyerSet : ConfigDB :=
  { db := foyerDB, configs := [{ serverID := "srv", kickEnabled := false }]
    constraints := by decide }

/-- Greetings go to the foyer, and nobody is told who leaves. -/
def foyerOpts : UpsertSystemMessageConfigOpts where
  welcomeChannelID := some "foyer"
  leaveEnabled := some false

/-- The second write is merged. -/
theorem upsertSystemMessageConfig_merges_foyer :
    ∃ cfg s', upsertSystemMessageConfig 5 foyerSet "srv" foyerOpts = .ok (cfg, s') ∧
      Upserted foyerOpts "srv" foyerSet s' cfg ∧ cfg.welcomeChannelID = some "foyer" :=
  ⟨_, _, rfl, (upsertSystemMessageConfig_merges_iff 5 foyerSet _ "srv" foyerOpts _ rfl).mpr
    (Or.inl rfl), rfl⟩

/-- The first write is lost: it succeeds, and there is a row with the defaults. -/
theorem foyer_first_write_lost :
    ∃ cfg s', upsertSystemMessageConfig 5 foyerFresh "srv" foyerOpts = .ok (cfg, s') ∧
      cfg = { serverID := "srv", updatedAt := 5 } ∧
      ¬ Upserted foyerOpts "srv" foyerFresh s' cfg := by
  refine ⟨_, _, rfl, rfl, ?_⟩
  intro hmerged
  exact absurd (congrArg ServerSystemMessageConfig.welcomeChannelID hmerged.fields) (by decide)

end SystemMessageStore

end Meza.Store
