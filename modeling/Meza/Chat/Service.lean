import Meza.Lib.Action
import Meza.Permissions.Cache
import Meza.Store.ChatStore
import Meza.Store.RoleStore
import Meza.Keys.EnvelopeStore

/-! # The chat service

    The state the handlers of `cmd/chat` share, the steps they are put together
    from, and the permission checks. There are two of them: `requirePermission`
    looks at the assigned roles only and also tells the caller's rank;
    `resolvePermissions` computes effective permissions and caches them.

    Queries that fail for reasons outside the data (timeouts, lost
    connections), published events and system messages are not modelled. -/

namespace Meza.Chat

open Store Permissions Action RoleStore ChatStore

/-! ## Section 1: State and steps -/

structure ChatState where
  db : DB
  keys : Keys.KeyTables := {}
  cache : Cache := []
  /-- Unix seconds. -/
  now : Int := 0

abbrev Handler : Type → Type := EStateM ConnectError ChatState

def internalError : ConnectError := { code := .internal, message := "internal error" }

def authenticate (caller : Option ID) : Except ConnectError ID :=
  match caller with
  | none => .error { code := .unauthenticated, message := "missing user" }
  | some id => .ok id

/-- A check against the tables. -/
def require {α : Type} (f : Tables → Except ConnectError α) : Handler α :=
  check fun s => f s.db.tables

/-- `return nil, connect.NewError(code, message)` under a condition. -/
def reject (cond : Prop) [Decidable cond] (code : Code) (message : String) : Handler Unit :=
  require fun _ => rejectIf cond code message

/-- A failing store query becomes the given error. -/
def orElse {α : Type} (error : ConnectError) : Except StoreError α → Except ConnectError α
  | .ok a => .ok a
  | .error _ => .error error

/-- A transaction that must succeed. -/
def transact {α : Type} (f : DB → Except StoreError (α × DB))
    (error : ConnectError := internalError) : Handler α :=
  update fun s =>
    match f s.db with
    | .ok (a, db) => .ok (a, { s with db })
    | .error _ => .error error

/-- A transaction without a result. -/
def run (f : DB → Except StoreError DB) (error : ConnectError := internalError) : Handler Unit :=
  transact (fun db => (f db).map ((), ·)) error

/-- A transaction whose failure is only logged. -/
def attempt (f : DB → Except StoreError DB) : Handler Unit :=
  Action.attempt fun s => (f s.db).map fun db => { s with db }

/-- The database after such a transaction. -/
def tried (f : DB → Except StoreError DB) (db : DB) : DB :=
  match f db with
  | .ok db' => db'
  | .error _ => db

def invalidate (f : Cache → Cache) : Handler Unit :=
  Action.modify fun s => { s with cache := f s.cache }

section Rules

variable {α β : Type} {f : Tables → Except ConnectError α} {k : α → Handler β} {s : ChatState}
  {Q : β → ChatState → Prop} {E : ConnectError → ChatState → Prop}

theorem ends_require (hok : ∀ a, f s.db.tables = .ok a → Ends (k a) s Q E)
    (herr : ∀ e, E e s := by first | exact fun _ => rfl | assumption) :
    Ends (require f >>= k) s Q E :=
  ends_check hok herr

variable {a : α} {s' : ChatState}

theorem require_ok : require f s = .ok a s' ↔ f s.db.tables = .ok a ∧ s' = s := check_ok

theorem ends_require_of_ok (hf : f s.db.tables = .ok a) (h : Ends (k a) s Q E) :
    Ends (require f >>= k) s Q E :=
  ends_of_ok (require_ok.mpr ⟨hf, rfl⟩) h

variable {code : Code} {error : ConnectError} {cond : Prop} {message : String}

theorem ends_reject [Decidable cond] {k : Unit → Handler β} (hok : ¬ cond → Ends (k ()) s Q E)
    (herr : ∀ e, E e s := by first | exact fun _ => rfl | assumption) :
    Ends (reject cond code message >>= k) s Q E :=
  ends_require (fun _ h => hok (rejectIf_ok.mp h)) herr

theorem ends_transact {f : DB → Except StoreError (α × DB)}
    (hok : ∀ a db, f s.db = .ok (a, db) → Ends (k a) { s with db } Q E)
    (herr : ∀ e, E e s := by first | exact fun _ => rfl | assumption) :
    Ends (transact f error >>= k) s Q E := by
  refine ends_update ?_ herr
  intro a s' h
  rcases hf : f s.db with e | ⟨b, db⟩
  · rw [hf] at h
    cases h
  · rw [hf] at h
    injection h with h
    obtain ⟨rfl, rfl⟩ := Prod.mk.inj h
    exact hok b db hf

theorem ends_transact_of_ok {f : DB → Except StoreError (α × DB)} {db : DB}
    (hf : f s.db = .ok (a, db)) (h : Ends (k a) { s with db } Q E) :
    Ends (transact f error >>= k) s Q E := by
  have hrun : transact f error s = .ok a { s with db } := by
    unfold transact update
    simp only [hf]
  exact ends_of_ok hrun h

variable {f : DB → Except StoreError DB} {k : Unit → Handler β}

theorem ends_run (hok : ∀ db, f s.db = .ok db → Ends (k ()) { s with db } Q E)
    (herr : ∀ e, E e s := by first | exact fun _ => rfl | assumption) :
    Ends (run f error >>= k) s Q E := by
  refine ends_transact ?_ herr
  intro a db h
  obtain ⟨db', hf, heq⟩ := map_eq_ok.mp h
  cases heq
  exact hok db hf

theorem ends_attempt
    (hok : ∀ db, f s.db = .ok db → Action.Ends (k ()) { s with db } Q E)
    (hskip : Action.Ends (k ()) s Q E) : Action.Ends (attempt f >>= k) s Q E := by
  refine Action.ends_attempt ?_ hskip
  intro s' h
  obtain ⟨db, hf, rfl⟩ := map_eq_ok.mp h
  exact hok db hf

theorem ends_tried (h : Ends (k ()) { s with db := tried f s.db } Q E) :
    Ends (attempt f >>= k) s Q E := by
  have hrun : attempt f s = .ok () { s with db := tried f s.db } := by
    unfold attempt Action.attempt tried
    rcases hf : f s.db with e | db
    · simp [hf, Except.map]
    · simp [hf, Except.map]
  exact ends_of_ok hrun h

theorem ends_run_of_ok {db : DB} (hf : f s.db = .ok db)
    (h : Ends (k ()) { s with db } Q E) : Ends (run f error >>= k) s Q E := by
  have hrun : run f error s = .ok () { s with db } := by
    unfold run transact update
    simp only [hf, Except.map]
  exact ends_of_ok hrun h

theorem ends_invalidate {f : Cache → Cache}
    (h : Ends (k ()) { s with cache := f s.cache } Q E) :
    Ends (invalidate f >>= k) s Q E :=
  Action.ends_modify h

theorem reject_ok [Decidable cond] {u : Unit} :
    reject cond code message s = .ok u s' ↔ ¬ cond ∧ s' = s := by
  unfold reject
  rw [require_ok, rejectIf_ok]

theorem ends_reject_of_not [Decidable cond] (hcond : ¬ cond) (h : Ends (k ()) s Q E) :
    Ends (reject cond code message >>= k) s Q E :=
  ends_require_of_ok (rejectIf_ok.mpr hcond) h

end Rules

/-! ## Section 2: Membership, rank and server-wide permissions -/

/-- DM channels have no server; their access is checked elsewhere. -/
def requireMembership (t : Tables) (userID serverID : ID) : Except ConnectError Unit :=
  rejectIf (serverID ≠ "" ∧ ¬ isMember t userID serverID) .permissionDenied
    "not a member of this server"

/-- What `requirePermission` tells about the caller. -/
structure Authority where
  callerPos : Nat
  callerPerms : Mask
  srv : Server

/-- `math.MaxInt32`. -/
def ownerPosition : Nat := 2147483647

/-- The caller's assigned roles must grant the permission; the owner outranks
    everyone. -/
def requirePermission (t : Tables) (userID serverID : ID) (perm : Mask) :
    Except ConnectError Authority := do
  let roles := getMemberRoles t userID serverID
  let srv ← orElse internalError (getServer t serverID)
  if srv.ownerID = userID then
    return { callerPos := ownerPosition, callerPerms := allPermissions, srv }
  else
    let combined := combine (roles.map (·.permissions))
    rejectIf (¬ has combined perm) .permissionDenied "missing permission"
    return { callerPos := maxPosition roles, callerPerms := combined, srv }

/-- The maximum role position of a user in a server. -/
def getEffectivePosition (t : Tables) (userID serverID : ID) : Nat :=
  maxPosition (getMemberRoles t userID serverID)

/-- The same for a member whose roles are fetched by id; fails for others. -/
def getUserMaxRolePosition (t : Tables) (userID serverID : ID) : Except StoreError Nat := do
  let member ← getMember t userID serverID
  return maxPosition (getRolesByIDs t member.roleIDs serverID)

/-- Administrator counts as every permission. -/
def effectiveCallerPerms (callerPerms : Mask) : Mask :=
  if has callerPerms administrator then allPermissions else callerPerms

/-- The bits of `perms` that the caller does not have. -/
def escalated (perms callerPerms : Mask) : Mask := perms &&& ~~~effectiveCallerPerms callerPerms

/-! ## Section 3: Effective permissions -/

/-- The resolver's input for a member, at the server level or in a channel. -/
def resolveInput (t : Tables) (userID serverID channelID : ID) :
    Except StoreError ResolveInput := do
  let srv ← getServer t serverID
  let everyoneRole ← getRole t serverID
  let member ← getMember t userID serverID
  let roles := getRolesByIDs t member.roleIDs serverID
  let overrides : ChannelOverrides :=
    if channelID = "" then {}
    else getAllOverridesForChannel t channelID (serverID :: member.roleIDs) userID
  return { everyonePerms := everyoneRole.permissions
           rolePerms := roles.map (·.permissions)
           isOwner := srv.ownerID = userID
           timedOutUntil := member.member.timedOutUntil.getD 0
           groupRoleOverrides := overrides.groupRoleOverrides
           channelRoleOverrides := overrides.channelRoleOverrides
           groupUserOverride := overrides.groupUserOverride
           channelUserOverride := overrides.channelUserOverride }

/-- What `resolvePermissions` computes from the tables. -/
def computePermissions (t : Tables) (nowUnix : Int) (key : CacheKey) : Except StoreError Mask :=
  (resolveInput t key.userID key.serverID key.channelID).map (resolveEffective · nowUnix)

def resolvePermissions (userID serverID channelID : ID) : Handler Mask :=
  update fun s =>
    let key : CacheKey := { userID, serverID, channelID }
    match s.cache.get s.now key with
    | some cached => .ok (cached, s)
    | none =>
      match computePermissions s.db.tables s.now key with
      | .error _ => .error internalError
      | .ok result => .ok (result, { s with cache := s.cache.set s.now key result })

/-- The input of the batch: the common data with the channel's entry in the
    result of the batch query. -/
def batchInput (common : ResolveInput) (overrides : Option ChannelOverrides) : ResolveInput :=
  let overrides := overrides.getD {}
  { common with
    groupRoleOverrides := overrides.groupRoleOverrides
    channelRoleOverrides := overrides.channelRoleOverrides
    groupUserOverride := overrides.groupUserOverride
    channelUserOverride := overrides.channelUserOverride }

/-- Effective permissions for many channels of one server, as pairs of channel
    and mask; channels that are not cached are resolved with one query. -/
def resolvePermissionsBatch (userID serverID : ID) (channelIDs : List ID) :
    Handler (List (ID × Mask)) :=
  update fun s =>
    let t := s.db.tables
    let cached := channelIDs.filterMap fun channelID =>
      (s.cache.get s.now { userID, serverID, channelID }).map (channelID, ·)
    let uncached := channelIDs.filter fun channelID =>
      s.cache.get s.now { userID, serverID, channelID } = none
    if uncached.isEmpty then .ok (cached, s)
    else
      match resolveInput t userID serverID "", getMember t userID serverID with
      | .ok common, .ok member =>
        let allOverrides :=
          getAllOverridesForChannels t uncached (serverID :: member.roleIDs) userID
        let resolved := uncached.map fun channelID =>
          (channelID, resolveEffective (batchInput common (allOverrides channelID)) s.now)
        let cache := resolved.foldl (fun cache (channelID, perms) =>
            .set cache s.now { userID, serverID, channelID } perms) s.cache
        .ok (cached ++ resolved, { s with cache })
      | _, _ => .error internalError

end Meza.Chat
