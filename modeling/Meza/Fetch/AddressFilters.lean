import Meza.Lib.BitPrefix

/-! # Which addresses are dialled

    Two clients fetch from hosts that strangers name: the one of link previews,
    and the one that loads the keys of federated instances. Both look at an
    address after it is resolved and before it is dialled, each with a list of
    its own. The lists are to keep the same addresses out, those of the host
    itself and of its network, and they differ in three places. -/

namespace Meza.Fetch

/-! ## Section 1: Addresses and networks -/

/-- `net.IP`, of 4 or of 16 bytes. -/
inductive IP where
  | v4 (addr : BitVec 32)
  | v6 (addr : BitVec 128)
  deriving DecidableEq, Repr

/-- The IPv4 address, also of an address in `::ffff:0:0/96`. -/
def IP.to4 : IP → Option (BitVec 32)
  | .v4 addr => some addr
  | .v6 addr => if addr >>> 32 = 0xffff then some (addr.setWidth 32) else none

/-- An IPv4 address in IPv6 form is taken as what it is. -/
def IP.unmapped (ip : IP) : IP :=
  match ip.to4 with
  | some addr => .v4 addr
  | none => ip

/-- `net.IPNet`. -/
inductive IPNet where
  | v4 (net : BitPrefix 32)
  | v6 (net : BitPrefix 128)
  deriving DecidableEq, Repr

def IPNet.contains (net : IPNet) (ip : IP) : Bool :=
  match net, ip.unmapped with
  | .v4 p, .v4 addr => p.contains addr
  | .v6 p, .v6 addr => p.contains addr
  | _, _ => false

/-- The address `a.b.c.d`. -/
def addr4 (a b c d : BitVec 8) : BitVec 32 := a ++ b ++ c ++ d

/-- An address by its first group and the seven others. -/
def addr6 (first : BitVec 16) (others : BitVec 112) : BitVec 128 := first ++ others

def net4 (a b c d : BitVec 8) (length : Nat) : IPNet := .v4 ⟨addr4 a b c d, length⟩

def net6 (first : BitVec 16) (others : BitVec 112) (length : Nat) : IPNet :=
  .v6 ⟨addr6 first others, length⟩

/-! ## Section 2: The filters -/

/-- Link previews. -/
def blockedCIDRs : List IPNet := [
  net4 127 0 0 0 8,
  net4 10 0 0 0 8,
  net4 172 16 0 0 12,
  net4 192 168 0 0 16,
  net4 169 254 0 0 16,
  net4 0 0 0 0 8,
  net4 100 64 0 0 10,
  net6 0 1 128,
  net6 0xfc00 0 7,
  net6 0xfe80 0 10]

def isBlockedIP (ip : IP) : Bool := blockedCIDRs.any (·.contains ip)

/-- Federation. -/
def privateIPNets : List IPNet := [
  net4 10 0 0 0 8,
  net4 172 16 0 0 12,
  net4 192 168 0 0 16,
  net4 127 0 0 0 8,
  net4 169 254 0 0 16,
  net4 0 0 0 0 8,
  net4 100 64 0 0 10,
  net4 192 0 0 0 24,
  net4 198 18 0 0 15,
  net6 0 1 128,
  net6 0xfd00 0 8,
  net6 0xfe80 0 10]

def isPrivateIP (ip : IP) : Bool := privateIPNets.any (·.contains ip.unmapped)

inductive DialError where
  | invalidAddress
  | unparsable (host : String)
  | blocked (ip : IP)
  deriving DecidableEq, Repr

section Dialers

-- `net.SplitHostPort` and `net.ParseIP`
variable (splitHostPort : String → Option (String × String)) (parseIP : String → Option IP)

/-- What a dialer asks before it connects to a resolved address. -/
def dialControl (rejects : IP → Bool) (address : String) : Except DialError Unit :=
  match splitHostPort address with
  | none => .error .invalidAddress
  | some (host, _) =>
    match parseIP host with
    | none => .error (.unparsable host)
    | some ip => if rejects ip then .error (.blocked ip) else .ok ()

/-- Of the client for link previews. -/
def newSafeClientControl : String → Except DialError Unit :=
  dialControl splitHostPort parseIP isBlockedIP

/-- Of the federation client. -/
def ssrfSafeDialer : String → Except DialError Unit :=
  dialControl splitHostPort parseIP isPrivateIP

end Dialers

/-! ## Section 3: The host and its network -/

/-- From `lo` to `hi`. -/
def between {w : Nat} (lo hi addr : BitVec w) : Bool := lo.toNat ≤ addr.toNat ∧ addr.toNat ≤ hi.toNat

def IP.isLoopback (ip : IP) : Bool :=
  match ip.unmapped with
  | .v4 addr => between (addr4 127 0 0 0) (addr4 127 255 255 255) addr
  | .v6 addr => addr = addr6 0 1

def IP.isUnspecified (ip : IP) : Bool :=
  match ip.unmapped with
  | .v4 addr => addr = addr4 0 0 0 0
  | .v6 addr => addr = addr6 0 0

/-- RFC 1918 and RFC 4193. -/
def IP.isPrivate (ip : IP) : Bool :=
  match ip.unmapped with
  | .v4 addr =>
    between (addr4 10 0 0 0) (addr4 10 255 255 255) addr ||
    between (addr4 172 16 0 0) (addr4 172 31 255 255) addr ||
    between (addr4 192 168 0 0) (addr4 192 168 255 255) addr
  | .v6 addr => between (addr6 0xfc00 0) (addr6 0xfdff (.allOnes 112)) addr

def IP.isLinkLocal (ip : IP) : Bool :=
  match ip.unmapped with
  | .v4 addr => between (addr4 169 254 0 0) (addr4 169 254 255 255) addr
  | .v6 addr => between (addr6 0xfe80 0) (addr6 0xfebf (.allOnes 112)) addr

/-- RFC 6598. -/
def IP.isCarrierGrade (ip : IP) : Bool :=
  match ip.unmapped with
  | .v4 addr => between (addr4 100 64 0 0) (addr4 100 127 255 255) addr
  | .v6 _ => false

/-- No fetch may reach the address. -/
def IP.isInternal (ip : IP) : Bool :=
  ip.isLoopback || ip.isUnspecified || ip.isPrivate || ip.isLinkLocal || ip.isCarrierGrade

/-- The filters agree on the address, and reject it if it is internal. -/
structure FiltersHold (ip : IP) : Prop where
  agree : isBlockedIP ip = isPrivateIP ip
  reject : ip.isInternal = true → isBlockedIP ip = true ∧ isPrivateIP ip = true

/-- Where the lists differ, and the unspecified address, which none of them has. -/
def IP.inGap (ip : IP) : Bool :=
  match ip.unmapped with
  | .v4 addr =>
    between (addr4 192 0 0 0) (addr4 192 0 0 255) addr ||
    between (addr4 198 18 0 0) (addr4 198 19 255 255) addr
  | .v6 addr =>
    addr = addr6 0 0 || between (addr6 0xfc00 0) (addr6 0xfcff (.allOnes 112)) addr

/-! ## Section 4: The gaps -/

theorem unmapped_unmapped (ip : IP) : ip.unmapped.unmapped = ip.unmapped := by
  rcases h : ip.to4 with _ | addr
  · have hself : ip.unmapped = ip := by
      unfold IP.unmapped
      rw [h]
    rw [hself, hself]
  · have hself : ip.unmapped = .v4 addr := by
      unfold IP.unmapped
      rw [h]
    rw [hself]
    rfl

-- An address is a number here, and a network a range of numbers.
attribute [local simp] isBlockedIP blockedCIDRs isPrivateIP privateIPNets net4 net6
  IPNet.contains BitPrefix.contains_iff BitPrefix.contains_eq_false_iff addr4 addr6
  IP.isInternal IP.isLoopback IP.isUnspecified IP.isPrivate IP.isLinkLocal IP.isCarrierGrade
  IP.inGap between

section IPv4

variable {ip : IP} {addr : BitVec 32}

/-- The list of the federation client has two networks more. -/
theorem isPrivateIP_v4 (h : ip.unmapped = .v4 addr) :
    isPrivateIP ip = true ↔ isBlockedIP ip = true ∨ ip.inGap = true := by
  have hagain : (IP.v4 addr).unmapped = .v4 addr := rfl
  simp [h, hagain]
  omega

theorem isBlockedIP_of_gap_v4 (h : ip.unmapped = .v4 addr) (hgap : ip.inGap = true) :
    isBlockedIP ip = false := by
  simp [h] at hgap ⊢
  omega

theorem isBlockedIP_of_internal_v4 (h : ip.unmapped = .v4 addr)
    (hinternal : ip.isInternal = true) : isBlockedIP ip = true := by
  simp [h, ← BitVec.toNat_inj] at hinternal ⊢
  omega

end IPv4

section IPv6

variable {ip : IP} {addr : BitVec 128}

theorem isPrivateIP_of_gap_v6 (h : ip.unmapped = .v6 addr) (hgap : ip.inGap = true) :
    isPrivateIP ip = false := by
  have hagain : (IP.v6 addr).unmapped = .v6 addr := by
    rw [← h, unmapped_unmapped]
  simp [h, hagain, ← BitVec.toNat_inj] at hgap ⊢
  omega

/-- Both gaps are internal. -/
theorem isInternal_of_gap_v6 (h : ip.unmapped = .v6 addr) (hgap : ip.inGap = true) :
    ip.isInternal = true := by
  simp [h, ← BitVec.toNat_inj] at hgap ⊢
  omega

theorem isInternal_v6 (h : ip.unmapped = .v6 addr) (hgap : ip.inGap = false) :
    (isBlockedIP ip = true ↔ ip.isInternal = true) ∧
      (isPrivateIP ip = true ↔ ip.isInternal = true) := by
  have hagain : (IP.v6 addr).unmapped = .v6 addr := by
    rw [← h, unmapped_unmapped]
  simp [h, hagain, ← BitVec.toNat_inj] at hgap ⊢
  omega

end IPv6

/-- **Agreement and completeness of the filters**: outside the gaps, and only there. -/
theorem filtersHold_iff (ip : IP) : FiltersHold ip ↔ ip.inGap = false := by
  rcases h : ip.unmapped with addr | addr
  · constructor
    · intro hholds
      rw [← Bool.not_eq_true]
      intro hgap
      have hprivate := (isPrivateIP_v4 h).mpr (.inr hgap)
      rw [← hholds.agree, isBlockedIP_of_gap_v4 h hgap] at hprivate
      exact Bool.false_ne_true hprivate
    · intro hgap
      have hagree : isPrivateIP ip = isBlockedIP ip := by
        rw [Bool.eq_iff_iff, isPrivateIP_v4 h, hgap]
        simp
      refine ⟨hagree.symm, ?_⟩
      intro hinternal
      rw [hagree, and_self]
      exact isBlockedIP_of_internal_v4 h hinternal
  · constructor
    · intro hholds
      rw [← Bool.not_eq_true]
      intro hgap
      have hreject := (hholds.reject (isInternal_of_gap_v6 h hgap)).2
      rw [isPrivateIP_of_gap_v6 h hgap] at hreject
      exact Bool.false_ne_true hreject
    · intro hgap
      obtain ⟨hblocked, hprivate⟩ := isInternal_v6 h hgap
      refine ⟨Bool.eq_iff_iff.mpr (hblocked.trans hprivate.symm), ?_⟩
      intro hinternal
      exact ⟨hblocked.mpr hinternal, hprivate.mpr hinternal⟩

/-- Neither list has the unspecified address; of the private addresses of IPv6 the second has
    one half, and the first lacks two networks of the second. -/
theorem filtersHold_fails_gaps :
    (IP.v6 (addr6 0 0)).isInternal = true ∧ isBlockedIP (.v6 (addr6 0 0)) = false ∧
      isPrivateIP (.v6 (addr6 0 0)) = false ∧
      isBlockedIP (.v6 (addr6 0xfc00 1)) = true ∧ isPrivateIP (.v6 (addr6 0xfc00 1)) = false ∧
      isBlockedIP (.v4 (addr4 198 18 0 1)) = false ∧
      isPrivateIP (.v4 (addr4 198 18 0 1)) = true ∧
      ¬ ∀ ip, FiltersHold ip := by
  have hopen : isBlockedIP (.v6 (addr6 0 0)) = false := by decide
  refine ⟨by decide, hopen, by decide, by decide, by decide, by decide, by decide, ?_⟩
  intro hall
  have hblocked := ((hall (.v6 (addr6 0 0))).reject (by decide)).1
  exact Bool.false_ne_true (hopen.symm.trans hblocked)

/-! ## Section 5: What is dialled -/

section Dialling

variable {splitHostPort : String → Option (String × String)} {parseIP : String → Option IP}
  {address : String}

theorem dialControl_ok {rejects : IP → Bool} :
    dialControl splitHostPort parseIP rejects address = .ok () ↔
      ∃ host port ip, splitHostPort address = some (host, port) ∧ parseIP host = some ip ∧
        rejects ip = false := by
  unfold dialControl
  rcases splitHostPort address with _ | ⟨host, port⟩
  · simp
  · rcases hip : parseIP host with _ | ip
    · simp [hip]
    · rcases hrejects : rejects ip with _ | _
      · simp [hip, hrejects]
      · simp [hip, hrejects]

/-- No client connects to an internal address outside the gaps. -/
theorem dialled_external (h : newSafeClientControl splitHostPort parseIP address = .ok () ∨
      ssrfSafeDialer splitHostPort parseIP address = .ok ()) :
    ∃ host port ip, splitHostPort address = some (host, port) ∧ parseIP host = some ip ∧
      (ip.inGap = false → ip.isInternal = false) := by
  have hexternal : ∀ ip, (isBlockedIP ip = false ∨ isPrivateIP ip = false) →
      ip.inGap = false → ip.isInternal = false := by
    intro ip hpassed hgap
    rw [← Bool.not_eq_true]
    intro hinternal
    have hrejected : isBlockedIP ip = true ∧ isPrivateIP ip = true := by
      rcases hunmapped : ip.unmapped with addr | addr
      · have hblocked := isBlockedIP_of_internal_v4 hunmapped hinternal
        exact ⟨hblocked, (isPrivateIP_v4 hunmapped).mpr (.inl hblocked)⟩
      · obtain ⟨hblocked, hprivate⟩ := isInternal_v6 hunmapped hgap
        exact ⟨hblocked.mpr hinternal, hprivate.mpr hinternal⟩
    rw [hrejected.1, hrejected.2] at hpassed
    exact absurd hpassed (by decide)
  rcases h with h | h
  · obtain ⟨host, port, ip, hsplit, hparse, hpassed⟩ := dialControl_ok.mp h
    exact ⟨host, port, ip, hsplit, hparse, hexternal ip (.inl hpassed)⟩
  · obtain ⟨host, port, ip, hsplit, hparse, hpassed⟩ := dialControl_ok.mp h
    exact ⟨host, port, ip, hsplit, hparse, hexternal ip (.inr hpassed)⟩

end Dialling

end Meza.Fetch
