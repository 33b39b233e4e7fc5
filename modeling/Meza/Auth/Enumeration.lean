import Meza.Lib.Aead
import Meza.Lib.Run
import Meza.Rpc
import Meza.Store.Schema

/-! # Who has an account

    Two endpoints answer anyone who names an email: one gives the salt of the
    account's password, the other the bundle that its recovery phrase decrypts.
    So that the answers do not tell who has an account, an email without one is
    answered as well, with bytes derived from a secret. They are derived for
    each endpoint apart, and the bundle is given the length of a hash. -/

namespace Meza.Auth.Enumeration
open Table List

open Aead (Bytes)
open Store (ID)

/-! ## Section 1: Accounts -/

/-- A row of `users` joined with its row of `user_auth`. -/
structure Account where
  id : ID
  email : String
  username : String
  isFederated : Bool := false
  salt : Bytes
  recoveryEncryptedKeyBundle : Option Bytes := none
  recoveryKeyBundleIV : Option Bytes := none
  deriving DecidableEq, Repr

/-- With the unique index on emails and the CHECK on the bundle and its IV. -/
structure Accounts where
  rows : List Account
  emails : UniqueOn Account.email rows
  pairs : ∀ a ∈ rows, a.recoveryEncryptedKeyBundle.isSome = a.recoveryKeyBundleIV.isSome

structure RecoveryBundle where
  recoveryEncryptedKeyBundle : Bytes
  recoveryKeyBundleIV : Bytes
  salt : Bytes
  deriving DecidableEq, Repr

/-- The errors of `GetRecoveryBundle` in the store. -/
inductive BundleError where
  | userNotFound
  | noRecoveryBundle
  deriving DecidableEq, Repr

namespace Accounts

def getSalt (accounts : Accounts) (email : String) : Option Bytes :=
  (accounts.rows.find? fun a => a.email = email ∧ a.isFederated = false).map (·.salt)

def getSaltByUsername (accounts : Accounts) (username : String) : Option Bytes :=
  (accounts.rows.find? fun a => a.username = username ∧ a.isFederated = false).map (·.salt)

def getRecoveryBundle (accounts : Accounts) (email : String) : Except BundleError RecoveryBundle :=
  match lookup Account.email email accounts.rows with
  | none => .error .userNotFound
  | some a =>
    match a.recoveryEncryptedKeyBundle with
    | none => .error .noRecoveryBundle
    | some bundle => .ok ⟨bundle, a.recoveryKeyBundleIV.getD [], a.salt⟩

end Accounts

/-! ## Section 2: The endpoints -/

/-- What the service gets from outside of it. -/
structure Env where
  hmacSecret : String
  hmacSHA256 : String → String → Bytes
  hmacLength : ∀ key message, (hmacSHA256 key message).length = 32
  toLower : String → String

def isEmail (identifier : String) : Bool := '@' ∈ identifier.toList

def deriveFakeSalt (env : Env) (identifier : String) : Bytes :=
  (env.hmacSHA256 env.hmacSecret identifier).take 16

/-- The bytes for one domain. -/
def derive (env : Env) (email domain : String) : Bytes :=
  env.hmacSHA256 env.hmacSecret (domain ++ ":" ++ email)

def deriveFakeRecoveryBundle (env : Env) (email : String) : RecoveryBundle where
  recoveryEncryptedKeyBundle := derive env email "recovery-bundle"
  recoveryKeyBundleIV := (derive env email "recovery-iv").take 12
  salt := (derive env email "recovery-salt").take 16

/-- The counts of the keys `ratelimit:recovery:bundle:…`. -/
structure ServiceState where
  accounts : Accounts
  attempts : String → Nat

def recoveryRateLimitMax : Nat := 5

def getSalt (env : Env) (s : ServiceState) (identifier : String) : Except ConnectError Bytes :=
  if identifier = "" then .error ⟨.invalidArgument, "identifier is required"⟩
  else
    let identifier := if isEmail identifier then identifier else env.toLower identifier
    let salt :=
      if isEmail identifier then s.accounts.getSalt identifier
      else s.accounts.getSaltByUsername identifier
    .ok (salt.getD (deriveFakeSalt env identifier))

/-- The count goes up whether or not it is too high. -/
def checkRecoveryRateLimit (s : ServiceState) (email : String) :
    Except ConnectError Unit × ServiceState :=
  let count := s.attempts email + 1
  let s' := { s with attempts := Function.update s.attempts email count }
  if recoveryRateLimitMax < count then
    (.error ⟨.resourceExhausted, "too many recovery attempts, try again later"⟩, s')
  else (.ok (), s')

def getRecoveryBundle (env : Env) (s : ServiceState) (email : String) :
    Except ConnectError RecoveryBundle × ServiceState :=
  if email = "" then (.error ⟨.invalidArgument, "email is required"⟩, s)
  else
    let (checked, s') := checkRecoveryRateLimit s email
    match checked with
    | .error e => (.error e, s')
    | .ok _ =>
      match s'.accounts.getRecoveryBundle email with
      -- both errors of the store are answered with a bundle that is made up
      | .error _ => (.ok (deriveFakeRecoveryBundle env email), s')
      | .ok bundle => (.ok bundle, s')

/-! ## Section 3: What a caller sees -/

/-- A call without a token, or the end of the hour after which the attempts for an email are
    forgotten. -/
inductive Call where
  | getSalt (identifier : String)
  | getRecoveryBundle (email : String)
  | expire (email : String)
  deriving DecidableEq, Repr

def ServiceState.step (env : Env) (s : ServiceState) : Call → ServiceState
  | .getSalt _ => s
  | .getRecoveryBundle email => (Enumeration.getRecoveryBundle env s email).2
  | .expire email => { s with attempts := Function.update s.attempts email 0 }

/-- The service after some calls. -/
def ServiceState.afterCalls (env : Env) (accounts : Accounts) (calls : List Call) : ServiceState :=
  Run.exec (.step env) ⟨accounts, fun _ => 0⟩ calls

/-- The answers of both endpoints about one email. -/
structure View where
  salt : Bytes
  bundle : RecoveryBundle
  deriving DecidableEq, Repr

/-- What is seen of an email after some calls, if neither endpoint refuses to answer. -/
def view (env : Env) (accounts : Accounts) (calls : List Call) (email : String) : Option View :=
  let s := ServiceState.afterCalls env accounts calls
  match getSalt env s email, (getRecoveryBundle env s email).1 with
  | .ok salt, .ok bundle => some ⟨salt, bundle⟩
  | _, _ => none

/-- The lengths of the four fields. -/
def View.lengths (v : View) : Nat × Nat × Nat × Nat :=
  (v.salt.length, v.bundle.recoveryEncryptedKeyBundle.length,
    v.bundle.recoveryKeyBundleIV.length, v.bundle.salt.length)

/-- Both endpoints give the same salt. -/
def View.saltsAgree (v : View) : Prop := v.salt = v.bundle.salt

/-- Nothing that is seen tells the two emails apart. -/
structure Resists (env : Env) (accounts : Accounts) (known unknown : String) : Prop where
  lengths : ∀ calls v v', view env accounts calls known = some v →
    view env accounts calls unknown = some v' → v.lengths = v'.lengths
  stable : ∀ email ∈ [known, unknown], ∀ calls calls' v v',
    view env accounts calls email = some v → view env accounts calls' email = some v' → v = v'
  salts : ∀ calls v v', view env accounts calls known = some v →
    view env accounts calls unknown = some v' → (v.saltsAgree ↔ v'.saltsAgree)

/-- The length of the identity with its tag, as the client encrypts it. -/
def clientBundleLength : Nat := 64 + 16

def clientIVLength : Nat := 12

def clientSaltLength : Nat := 16

/-- The email belongs to an account with a recovery bundle made by a client. -/
def Registered (accounts : Accounts) (email : String) : Prop :=
  ∃ a ∈ accounts.rows, a.email = email ∧ a.isFederated = false ∧
    a.salt.length = clientSaltLength ∧
    ∃ bundle iv, a.recoveryEncryptedKeyBundle = some bundle ∧ a.recoveryKeyBundleIV = some iv ∧
      bundle.length = clientBundleLength ∧ iv.length = clientIVLength

def Unknown (accounts : Accounts) (email : String) : Prop := ∀ a ∈ accounts.rows, a.email ≠ email

/-! ## Section 4: The answers do not change -/

/-- The salt given for an email, whatever the calls before. -/
def saltFor (env : Env) (accounts : Accounts) (email : String) : Bytes :=
  let identifier := if isEmail email then email else env.toLower email
  let salt :=
    if isEmail identifier then accounts.getSalt identifier
    else accounts.getSaltByUsername identifier
  salt.getD (deriveFakeSalt env identifier)

def bundleFor (env : Env) (accounts : Accounts) (email : String) : RecoveryBundle :=
  match accounts.getRecoveryBundle email with
  | .error _ => deriveFakeRecoveryBundle env email
  | .ok bundle => bundle

section Answers

variable {env : Env} {accounts : Accounts}

theorem checkRecoveryRateLimit_accounts (s : ServiceState) (email : String) :
    (checkRecoveryRateLimit s email).2.accounts = s.accounts := by
  unfold checkRecoveryRateLimit
  dsimp only
  split <;> rfl

theorem getRecoveryBundle_accounts (s : ServiceState) (email : String) :
    (getRecoveryBundle env s email).2.accounts = s.accounts := by
  have hchecked := checkRecoveryRateLimit_accounts s email
  unfold getRecoveryBundle
  split
  · rfl
  · dsimp only
    split
    · exact hchecked
    · split <;> exact hchecked

theorem step_accounts (s : ServiceState) (call : Call) :
    (s.step env call).accounts = s.accounts := by
  cases call with
  | getSalt _ => rfl
  | getRecoveryBundle email => exact getRecoveryBundle_accounts s email
  | expire _ => rfl

theorem afterCalls_accounts (calls : List Call) :
    (ServiceState.afterCalls env accounts calls).accounts = accounts :=
  Run.exec_kept (I := fun s => s.accounts = accounts)
    (fun s call hs => (step_accounts s call).trans hs) rfl calls

variable {calls : List Call} {email known unknown : String} {v : View}

theorem getSalt_eq (s : ServiceState) (hemail : email ≠ "") :
    getSalt env s email = .ok (saltFor env s.accounts email) := by
  unfold getSalt
  rw [if_neg hemail]
  rfl

/-- An email is answered unless it was asked about too often. -/
theorem getRecoveryBundle_eq (s : ServiceState) (hemail : email ≠ "") :
    (getRecoveryBundle env s email).1 =
      (checkRecoveryRateLimit s email).1.map fun _ => bundleFor env s.accounts email := by
  have hchecked := checkRecoveryRateLimit_accounts s email
  unfold getRecoveryBundle bundleFor
  rw [if_neg hemail, ← hchecked]
  dsimp only
  cases (checkRecoveryRateLimit s email).1 with
  | error e => rfl
  | ok _ =>
    cases (checkRecoveryRateLimit s email).2.accounts.getRecoveryBundle email <;> rfl

theorem view_first (hemail : email ≠ "") :
    view env accounts [] email =
      some ⟨saltFor env accounts email, bundleFor env accounts email⟩ := by
  unfold view
  dsimp only
  rw [getSalt_eq _ hemail, getRecoveryBundle_eq _ hemail, afterCalls_accounts]
  rfl

/-! ## Section 5: What gives an account away -/

theorem bundleFor_registered (h : Registered accounts known) :
    (bundleFor env accounts known).recoveryEncryptedKeyBundle.length = clientBundleLength ∧
      (bundleFor env accounts known).recoveryKeyBundleIV.length = clientIVLength := by
  obtain ⟨a, ha, rfl, -, -, bundle, iv, hbundle, hiv, hlength, hivLength⟩ := h
  have hlookup := lookup_of_mem accounts.emails ha
  simp [bundleFor, Accounts.getRecoveryBundle, hlookup, hbundle, hiv, hlength, hivLength]

theorem bundleFor_unknown (h : Unknown accounts unknown) :
    bundleFor env accounts unknown = deriveFakeRecoveryBundle env unknown := by
  have hlookup : lookup Account.email unknown accounts.rows = none :=
    lookup_eq_none.mpr h
  simp [bundleFor, Accounts.getRecoveryBundle, hlookup]

/-- The bundle of an account is longer than one that is made up. -/
theorem bundle_lengths (hreg : Registered accounts known) (hnone : Unknown accounts unknown) :
    (bundleFor env accounts known).recoveryEncryptedKeyBundle.length ≠
      (bundleFor env accounts unknown).recoveryEncryptedKeyBundle.length := by
  have hshort : (derive env unknown "recovery-bundle").length = 32 := env.hmacLength _ _
  rw [(bundleFor_registered hreg).1, bundleFor_unknown hnone]
  show clientBundleLength ≠ (derive env unknown "recovery-bundle").length
  rw [hshort]
  decide

end Answers

/-- Every account with a bundle is told from every email without one. -/
theorem not_resists {env : Env} {accounts : Accounts} {known unknown : String}
    (hknown : known ≠ "") (hunknown : unknown ≠ "") (hreg : Registered accounts known)
    (hnone : Unknown accounts unknown) : ¬ Resists env accounts known unknown := by
  intro h
  have hlengths := h.lengths [] _ _ (view_first hknown) (view_first hunknown)
  have hbundle := congrArg (fun l => l.2.1) hlengths
  exact bundle_lengths hreg hnone hbundle

/-! ### Two emails, one of them registered -/

def ann : Account where
  id := "u1"
  email := "ann@example.org"
  username := "ann"
  salt := .replicate 16 7
  recoveryEncryptedKeyBundle := some (.replicate 80 3)
  recoveryKeyBundleIV := some (.replicate 12 9)

theorem ann_emails : UniqueOn Account.email [ann] := nodup_singleton _

theorem ann_pairs (a : Account) (ha : a ∈ [ann]) :
    a.recoveryEncryptedKeyBundle.isSome = a.recoveryKeyBundleIV.isSome := by
  rw [mem_singleton.mp ha]
  rfl

def annOnly : Accounts := ⟨[ann], ann_emails, ann_pairs⟩

/-- HMAC-SHA256 of some messages under the key `secret`. -/
def bobHashes : List (String × Bytes) :=
  [("bob@example.org",
      [205, 189, 49, 123, 84, 149, 97, 125, 201, 86, 156, 236, 7, 247, 32, 194,
        89, 187, 185, 166, 56, 166, 239, 38, 100, 63, 205, 27, 122, 67, 54, 52]),
    ("recovery-bundle:bob@example.org",
      [65, 58, 166, 30, 80, 77, 228, 51, 130, 24, 49, 98, 253, 30, 117, 206,
        76, 45, 24, 47, 244, 141, 200, 241, 241, 211, 179, 10, 52, 36, 144, 121]),
    ("recovery-iv:bob@example.org",
      [219, 215, 123, 68, 96, 24, 70, 34, 64, 19, 14, 252, 220, 254, 183, 102,
        237, 197, 239, 62, 50, 57, 235, 219, 100, 84, 111, 60, 216, 196, 234, 201]),
    ("recovery-salt:bob@example.org",
      [201, 157, 53, 88, 57, 162, 93, 139, 106, 213, 128, 146, 31, 91, 66, 55,
        33, 196, 62, 3, 218, 137, 230, 137, 194, 60, 200, 238, 177, 110, 35, 179])]

def bobHash (_key message : String) : Bytes :=
  ((lookup Prod.fst message bobHashes).map (·.2)).getD (.replicate 32 0)

theorem bobHash_length (key message : String) : (bobHash key message).length = 32 := by
  unfold bobHash
  cases hfound : lookup Prod.fst message bobHashes with
  | none => rfl
  | some entry =>
    have hall : ∀ entry ∈ bobHashes, entry.2.length = 32 := by decide
    exact hall entry (mem_of_lookup hfound).1

def bobEnv : Env where
  hmacSecret := "secret"
  hmacSHA256 := bobHash
  hmacLength := bobHash_length
  toLower := id

theorem ann_registered : Registered annOnly "ann@example.org" :=
  ⟨ann, mem_singleton_self ann, rfl, rfl, rfl, _, _, rfl, rfl, rfl, rfl⟩

theorem bob_unknown : Unknown annOnly "bob@example.org" := by
  intro a ha
  rw [mem_singleton.mp ha]
  decide

theorem not_resists_bob : ¬ Resists bobEnv annOnly "ann@example.org" "bob@example.org" :=
  not_resists (by decide) (by decide) ann_registered bob_unknown

/-- Neither the lengths agree nor, for an email without an account, the salts. -/
theorem resists_fails_bob :
    ∃ v v', view bobEnv annOnly [] "ann@example.org" = some v ∧
      view bobEnv annOnly [] "bob@example.org" = some v' ∧
      v.lengths = (16, 80, 12, 16) ∧ v'.lengths = (16, 32, 12, 16) ∧
      v.saltsAgree ∧ ¬ v'.saltsAgree ∧
      ¬ Resists bobEnv annOnly "ann@example.org" "bob@example.org" := by
  have hann : view bobEnv annOnly [] "ann@example.org" =
      some ⟨ann.salt, replicate 80 3, replicate 12 9, ann.salt⟩ := by decide
  have hbob : view bobEnv annOnly [] "bob@example.org" =
      some ⟨deriveFakeSalt bobEnv "bob@example.org",
        deriveFakeRecoveryBundle bobEnv "bob@example.org"⟩ := by decide
  refine ⟨_, _, hann, hbob, by decide, by decide, rfl, ?_, ?_⟩
  · unfold View.saltsAgree
    decide
  · intro h
    have heq := h.lengths [] _ _ hann hbob
    revert heq
    decide

end Meza.Auth.Enumeration
