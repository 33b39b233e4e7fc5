import Meza.Permissions.Resolve

/-! # The permission cache

    Effective permissions are kept in Redis for five minutes under user, server
    and channel. Identifiers contain neither colons nor pattern characters, so
    a key is the triple of its parts and a deletion by pattern compares parts.
    An empty channel id means the server level. -/

namespace Meza.Permissions
open List

/-- Seconds. -/
def cacheTTL : Int := 300

structure CacheKey where
  userID : String
  serverID : String
  channelID : String
  deriving DecidableEq, Repr

/-- `setAt` is the time of the `SET`. -/
structure CacheEntry where
  key : CacheKey
  perms : Mask
  setAt : Int
  deriving DecidableEq, Repr

abbrev Cache : Type := List CacheEntry

/-- Redis drops an entry when its time is over. -/
def CacheEntry.live (now : Int) (e : CacheEntry) : Bool := now < e.setAt + cacheTTL

namespace Cache

def get (c : Cache) (now : Int) (key : CacheKey) : Option Mask :=
  (c.find? fun e => e.key = key ∧ e.live now).map (·.perms)

def set (c : Cache) (now : Int) (key : CacheKey) (perms : Mask) : Cache :=
  { key, perms, setAt := now } :: c.filter (·.key ≠ key)

def invalidateUser (c : Cache) (userID serverID : String) : Cache :=
  c.filter fun e => ¬ (e.key.userID = userID ∧ e.key.serverID = serverID)

def invalidateServer (c : Cache) (serverID : String) : Cache :=
  c.filter fun e => e.key.serverID ≠ serverID

def invalidateChannel (c : Cache) (channelID : String) : Cache :=
  c.filter fun e => e.key.channelID ≠ channelID

variable {c : Cache} {e : CacheEntry}

/-- An entry just set is served, and the others stay. -/
theorem get_set (c : Cache) (now : Int) (key key' : CacheKey) (perms : Mask) :
    (c.set now key perms).get now key' = if key' = key then some perms else c.get now key' := by
  unfold get set
  rw [find?_cons]
  by_cases hkey : key' = key
  · have hlive : now < now + cacheTTL := by
      unfold cacheTTL
      omega
    simp [hkey, CacheEntry.live, hlive]
  · have hne : ¬ key = key' := fun h => hkey h.symm
    rw [if_neg hkey, find?_filter]
    simp only [hne, false_and, decide_false]
    congr 2
    funext e
    by_cases he : e.key = key'
    · simp [he, hkey]
    · simp [he]

theorem mem_set {now : Int} {key : CacheKey} {perms : Mask} (h : e ∈ c.set now key perms) :
    e = { key, perms, setAt := now } ∨ (e ∈ c ∧ e.key ≠ key) := by
  rcases mem_cons.mp h with h | h
  · exact .inl h
  · obtain ⟨hmem, hne⟩ := mem_filter.mp h
    exact .inr ⟨hmem, of_decide_eq_true hne⟩

theorem mem_invalidateUser {userID serverID : String} (h : e ∈ c.invalidateUser userID serverID) :
    e ∈ c ∧ ¬ (e.key.userID = userID ∧ e.key.serverID = serverID) := by
  obtain ⟨hmem, hcond⟩ := mem_filter.mp h
  exact ⟨hmem, of_decide_eq_true hcond⟩

theorem mem_invalidateServer {serverID : String} (h : e ∈ c.invalidateServer serverID) :
    e ∈ c ∧ e.key.serverID ≠ serverID := by
  obtain ⟨hmem, hcond⟩ := mem_filter.mp h
  exact ⟨hmem, of_decide_eq_true hcond⟩

theorem mem_invalidateChannel {channelID : String} (h : e ∈ c.invalidateChannel channelID) :
    e ∈ c ∧ e.key.channelID ≠ channelID := by
  obtain ⟨hmem, hcond⟩ := mem_filter.mp h
  exact ⟨hmem, of_decide_eq_true hcond⟩

end Cache

end Meza.Permissions
