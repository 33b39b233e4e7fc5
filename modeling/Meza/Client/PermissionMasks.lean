import Meza.Permissions.Attribute

/-! # The client's permission masks

    `permissions.ts` has a table of its own, and checks by it what it sends and
    offers. The server decides by the table of `permissions.go`.

    Masks are 64-bit values; the operations on a `bigint` of that range stay in it. -/

namespace Meza.Client.PermissionMasks

open Meza.Permissions (Mask)

/-! ## Section 1: The client's table -/

def kickMembers : Mask := 1 <<< 0
def banMembers : Mask := 1 <<< 1
def manageRoles : Mask := 1 <<< 2
def administrator : Mask := 1 <<< 3
def manageEmojis : Mask := 1 <<< 4
def manageChannels : Mask := 1 <<< 5
def manageMessages : Mask := 1 <<< 6
def timeoutMembers : Mask := 1 <<< 7
def viewAuditLog : Mask := 1 <<< 8
def exemptSlowMode : Mask := 1 <<< 9
def streamVideo : Mask := 1 <<< 10
def manageSoundboard : Mask := 1 <<< 11
def addReactions : Mask := 1 <<< 12
def viewChannel : Mask := 1 <<< 13
def sendMessages : Mask := 1 <<< 14
def connect : Mask := 1 <<< 15
def mentionEveryone : Mask := 1 <<< 16
def manageServer : Mask := 1 <<< 17
def createInvite : Mask := 1 <<< 18
def embedLinks : Mask := 1 <<< 19
def attachFiles : Mask := 1 <<< 20
def readMessageHistory : Mask := 1 <<< 21
def useExternalEmojis : Mask := 1 <<< 22
def speak : Mask := 1 <<< 23
def muteMembers : Mask := 1 <<< 24
def deafenMembers : Mask := 1 <<< 25
def moveMembers : Mask := 1 <<< 26
def changeNickname : Mask := 1 <<< 27
def manageNicknames : Mask := 1 <<< 28
def manageWebhooks : Mask := 1 <<< 29

/-- `Object.values(Permissions)`. -/
def values : List Mask :=
  [kickMembers, banMembers, manageRoles, administrator, manageEmojis, manageChannels,
   manageMessages, timeoutMembers, viewAuditLog, exemptSlowMode, streamVideo, manageSoundboard,
   addReactions, viewChannel, sendMessages, connect, mentionEveryone, manageServer, createInvite,
   embedLinks, attachFiles, readMessageHistory, useExternalEmojis, speak, muteMembers,
   deafenMembers, moveMembers, changeNickname, manageNicknames, manageWebhooks]

def allPermissions : Mask := values.foldl (· ||| ·) 0

def channelScopedPermissions : Mask :=
  manageMessages ||| exemptSlowMode ||| streamVideo ||| manageSoundboard ||| addReactions |||
  viewChannel ||| sendMessages ||| connect ||| mentionEveryone ||| manageEmojis |||
  embedLinks ||| attachFiles ||| readMessageHistory ||| useExternalEmojis ||| speak |||
  muteMembers ||| deafenMembers ||| moveMembers ||| manageWebhooks

def hasPermission (combined perm : Mask) : Bool :=
  if combined &&& administrator ≠ 0 then true else combined &&& perm ≠ 0

def validateChannelScoped (perms : Mask) : Bool :=
  perms &&& ~~~channelScopedPermissions = 0

def validatePermissions (perms : Mask) : Bool := perms &&& ~~~allPermissions = 0

/-! ## Section 2: The two tables -/

/-- Both sides give one answer to every question about the mask. -/
structure Agree (perms : Mask) : Prop where
  validate : validatePermissions perms = Permissions.validate perms
  channelScoped : validateChannelScoped perms = Permissions.validateChannelScoped perms
  has : ∀ perm, hasPermission perms perm = Permissions.has perms perm

/-- The client knows every bit below 30. -/
theorem allPermissions_getLsbD (i : Nat) : allPermissions.getLsbD i = decide (i < 30) := by
  have heq : allPermissions = (BitVec.allOnes 30).setWidth 64 := by decide
  rw [heq, BitVec.getLsbD_setWidth, BitVec.getLsbD_allOnes]
  by_cases hi : i < 30
  · simp [hi, Nat.lt_trans hi (by decide : 30 < 64)]
  · simp [hi]

theorem channelScopedPermissions_eq :
    channelScopedPermissions = Permissions.channelScopedPermissions := by
  decide

theorem hasPermission_eq (combined perm : Mask) :
    hasPermission combined perm = Permissions.has combined perm :=
  rfl

theorem validatePermissions_iff (perms : Mask) :
    validatePermissions perms = true ↔ ∀ i, perms.getLsbD i = true → i < 30 := by
  simp only [validatePermissions, decide_eq_true_eq]
  exact (BitMask.subset_iff perms allPermissions).trans (by simp [allPermissions_getLsbD])

theorem validate_iff (perms : Mask) :
    Permissions.validate perms = true ↔ ∀ i, perms.getLsbD i = true → i < 31 := by
  simp only [Permissions.validate, decide_eq_true_eq]
  exact (BitMask.subset_iff perms Permissions.allPermissions).trans
    (by simp [Permissions.allPermissions_getLsbD])

/-- The server has bit 30, `ManageReports`, and the client has not: they differ on the masks
    with that bit and no unknown bit above it. -/
theorem agree_iff (perms : Mask) :
    Agree perms ↔ (perms.getLsbD 30 = true → ∃ i, 31 ≤ i ∧ perms.getLsbD i = true) := by
  have hclient := validatePermissions_iff perms
  have hserver := validate_iff perms
  constructor
  · intro h hbit
    by_contra hnone
    have hvalid : Permissions.validate perms = true := by
      refine hserver.mpr fun i hi => ?_
      by_contra hge
      exact hnone ⟨i, by omega, hi⟩
    have hknown := hclient.mp (h.validate.trans hvalid) 30 hbit
    omega
  · intro h
    refine ⟨Bool.eq_iff_iff.mpr ?_, ?_, hasPermission_eq perms⟩
    · rw [hclient, hserver]
      constructor
      · intro hall i hi
        exact Nat.lt_succ_of_lt (hall i hi)
      · intro hall i hi
        have hlt := hall i hi
        by_contra hge
        have heq : i = 30 := by omega
        obtain ⟨j, hj, hbit⟩ := h (heq ▸ hi)
        exact absurd (hall j hbit) (by omega)
    · unfold validateChannelScoped Permissions.validateChannelScoped
      rw [channelScopedPermissions_eq]

theorem not_agree_manageReports : ¬ ∀ perms, Agree perms := fun h =>
  absurd (h Permissions.manageReports).validate (by decide)

end Meza.Client.PermissionMasks
