import Meza.Notification.Push

/-! # The audience of a push

    A push shows who wrote and where. So it may reach only those who can view
    the channel, and who want to hear of the message. In servers the level is
    looked up and the permission to view is not; in direct messages it is the
    other way round. -/

namespace Meza.Notification
open List Store State Table ChatStore MessageCreate

open Store (ID)

/-! ## Section 1: Throttles -/

/-- The states differ in their throttles only. -/
def OnlyThrottles (s s' : State) : Prop := ∃ f, s' = { s with throttles := f }

theorem OnlyThrottles.refl (s : State) : OnlyThrottles s s := ⟨s.throttles, rfl⟩

variable {channelID serverID uid : ID} {p : Push} {s : State}

theorem OnlyThrottles.trans {s' s'' : State} (h : OnlyThrottles s s') (h' : OnlyThrottles s' s'') :
    OnlyThrottles s s'' := by
  obtain ⟨f, rfl⟩ := h
  obtain ⟨f', rfl⟩ := h'
  exact ⟨f', rfl⟩

section Throttles

variable {key key' : ThrottleKey} {seconds : Int}

theorem setNX_fst : (s.setNX key seconds).1 = !s.live key := by
  unfold setNX
  by_cases h : s.live key = true
  · simp [h]
  · simp [h]

theorem setNX_onlyThrottles : OnlyThrottles s (s.setNX key seconds).2 := by
  unfold setNX
  by_cases h : s.live key = true
  · rw [if_pos h]
    exact .refl s
  · rw [if_neg h]
    exact ⟨_, rfl⟩

theorem setNX_live_of_ne (hne : key' ≠ key) : (s.setNX key seconds).2.live key' = s.live key' := by
  unfold setNX
  by_cases h : s.live key = true
  · rw [if_pos h]
  · rw [if_neg h]
    unfold live
    dsimp only
    rw [Function.update_of_ne hne]

variable {keyOf : OfflineTarget → ThrottleKey} {targets : List OfflineTarget}

theorem throttleTargets_onlyThrottles (s : State) :
    OnlyThrottles s (throttleTargets s keyOf targets).2 := by
  induction targets generalizing s with
  | nil => exact .refl s
  | cons ot targets ih => exact setNX_onlyThrottles.trans (ih _)

theorem throttleTargets_live_of_ne (s : State) (hne : ∀ ot ∈ targets, key' ≠ keyOf ot) :
    (throttleTargets s keyOf targets).2.live key' = s.live key' := by
  induction targets generalizing s with
  | nil => rfl
  | cons ot targets ih =>
    have hrest := ih (s.setNX (keyOf ot) defaultThrottleSeconds).2
      fun x hx => hne x (mem_cons_of_mem _ hx)
    exact hrest.trans (setNX_live_of_ne (hne ot mem_cons_self))

theorem throttleTargets_fst (s : State) (hd : (targets.map keyOf).Nodup) :
    (throttleTargets s keyOf targets).1 = targets.filter fun ot => !s.live (keyOf ot) := by
  induction targets generalizing s with
  | nil => rfl
  | cons ot targets ih =>
    rw [map_cons, nodup_cons] at hd
    have hrest : (throttleTargets (s.setNX (keyOf ot) defaultThrottleSeconds).2 keyOf targets).1 =
        targets.filter fun x => !s.live (keyOf x) := by
      rw [ih _ hd.2]
      apply filter_congr
      intro x hx
      have hne : keyOf x ≠ keyOf ot := fun h => hd.1 (h ▸ mem_map_of_mem hx)
      rw [setNX_live_of_ne hne]
    unfold throttleTargets
    dsimp only
    rw [hrest, setNX_fst, filter_cons]

end Throttles

/-! ## Section 2: Who gets a push -/

/-- The user's devices that a push can be sent to. -/
def State.waiting (s : State) (uid : ID) : List Device :=
  s.offline uid (getPushEnabledDevices s uid)

theorem mem_waiting {d : Device} :
    d ∈ s.waiting uid ↔
      d ∈ s.devices ∧ d.userID = uid ∧ d.pushEnabled = true ∧ d.id ∉ s.connected uid := by
  unfold waiting offline getPushEnabledDevices
  simp only [mem_filter, decide_eq_true_eq, Bool.decide_eq_true, Bool.decide_and, Bool.and_eq_true]
  tauto

/-- A push of this kind for the channel is sent to the user if it is asked for. -/
def State.Reaches (s : State) (type : PushKind) (uid channelID : ID) : Prop :=
  s.waiting uid ≠ [] ∧ s.live (.push type uid channelID) = false

theorem OnlyThrottles.waiting {s' : State} (h : OnlyThrottles s s') (uid : ID) :
    s'.waiting uid = s.waiting uid := by
  obtain ⟨f, rfl⟩ := h
  rfl

section Direct

variable {t : PushTrigger}

theorem notifyOfflineDevices_onlyThrottles (s : State) (uid : ID) :
    OnlyThrottles s (notifyOfflineDevices s uid t).2 := by
  unfold notifyOfflineDevices
  dsimp only
  by_cases hnone : getPushEnabledDevices s uid = []
  · rw [if_pos hnone]
    exact .refl s
  · rw [if_neg hnone]
    split
    · exact setNX_onlyThrottles
    · exact setNX_onlyThrottles

theorem notifyOfflineDevices_live_of_ne (s : State) {key' : ThrottleKey}
    (hne : key' ≠ t.throttleKey uid) :
    (notifyOfflineDevices s uid t).2.live key' = s.live key' := by
  unfold notifyOfflineDevices
  dsimp only
  by_cases hnone : getPushEnabledDevices s uid = []
  · rw [if_pos hnone]
  · rw [if_neg hnone]
    split
    · exact setNX_live_of_ne hne
    · exact setNX_live_of_ne hne

theorem mem_notifyOfflineDevices :
    p ∈ (notifyOfflineDevices s uid t).1 ↔
      p.device ∈ s.waiting uid ∧ s.live (t.throttleKey uid) = false ∧ p.trigger = t := by
  unfold notifyOfflineDevices
  dsimp only
  by_cases hnone : getPushEnabledDevices s uid = []
  · rw [if_pos hnone]
    simp [waiting, hnone, offline]
  · rw [if_neg hnone, setNX_fst]
    rcases hlive : s.live (t.throttleKey uid) with _ | _
    · simp only [Bool.not_false, ↓reduceIte, mem_map, true_and]
      constructor
      · intro h
        obtain ⟨d, hd, rfl⟩ := h
        exact ⟨hd, rfl⟩
      · intro h
        exact ⟨p.device, h.1, by rw [← h.2]⟩
    · simp

/-- In a direct message all of the users are asked for, each for itself. -/
theorem mem_notifyAll {uids : List ID} (hd : uids.Nodup) (s : State) :
    p ∈ (notifyAll s t uids).1 ↔
      ∃ uid ∈ uids, p.device ∈ s.waiting uid ∧ s.live (t.throttleKey uid) = false ∧
        p.trigger = t := by
  induction uids generalizing s with
  | nil => simp [notifyAll]
  | cons uid uids ih =>
    rw [nodup_cons] at hd
    have hlater : ∀ u ∈ uids, t.throttleKey u ≠ t.throttleKey uid := by
      intro u hu heq
      have heq' : u = uid := by
        injection heq
      exact hd.1 (heq' ▸ hu)
    unfold notifyAll
    rw [mem_append, ih hd.2, mem_notifyOfflineDevices, exists_mem_cons_iff]
    apply or_congr .rfl
    apply exists_congr
    intro u
    apply and_congr_right
    intro hu
    rw [(notifyOfflineDevices_onlyThrottles s uid).waiting,
      notifyOfflineDevices_live_of_ne s (hlater u hu)]

end Direct

/-! ## Section 3: Messages in servers -/

/-- What the throttle counts a server message as. -/
def messageKind (isMention : Bool) : PushKind := if isMention then .mention else .message

/-- The user's level lets the message through, and no other push of the kind was just sent. -/
def State.Notifies (s : State) (serverID channelID : ID) (isMention : Bool) (uid : ID) : Prop :=
  (getEffectiveLevel s.preferences uid serverID channelID).permits isMention = true ∧
    s.live (.push (messageKind isMention) uid channelID) = false

section Server

variable {mentioned : List ID} {mentionEveryone : Bool} {base : PushTrigger}

theorem pushTarget_eq_some {levels : ID → Level} {t : PushTarget} :
    pushTarget levels mentioned mentionEveryone uid = some t ↔
      (levels uid).permits (decide (uid ∈ mentioned) || mentionEveryone) = true ∧
        t = ⟨uid, decide (uid ∈ mentioned) || mentionEveryone⟩ := by
  unfold pushTarget Level.permits
  cases levels uid with
  | nothing => simp
  | all => simp [eq_comm]
  | mentionsOnly =>
    rcases decide (uid ∈ mentioned) with _ | _
    · rcases mentionEveryone with _ | _
      · simp
      · simp [eq_comm]
    · simp [eq_comm]

theorem offlineTarget_eq_some {devices : ID → List Device} {t : PushTarget} {ot : OfflineTarget} :
    offlineTarget s devices t = some ot ↔
      s.offline t.userID (devices t.userID) ≠ [] ∧
        ot = ⟨t, s.offline t.userID (devices t.userID)⟩ := by
  unfold offlineTarget
  by_cases h : s.offline t.userID (devices t.userID) = []
  · simp [h]
  · simp [h, eq_comm]

variable {userIDs : List ID}

/-- The bulk query finds the devices of each user it is asked for. -/
theorem getPushEnabledDevicesForUsers_eq (h : uid ∈ userIDs) :
    getPushEnabledDevicesForUsers s userIDs uid = getPushEnabledDevices s uid := by
  unfold getPushEnabledDevicesForUsers getPushEnabledDevices
  rw [filter_filter]
  apply filter_congr
  intro d _
  by_cases hd : d.userID = uid
  · simp [hd, h]
  · simp [hd]

/-- The targets of one batch that have devices to push to. -/
def offlineTargets (s : State) (userIDs mentioned : List ID) (mentionEveryone : Bool)
    (base : PushTrigger) : List OfflineTarget :=
  let levels := getEffectiveLevelsForUsers s.preferences userIDs base.serverID base.channelID
  let targets := userIDs.filterMap (pushTarget levels mentioned mentionEveryone)
  targets.filterMap (offlineTarget s (getPushEnabledDevicesForUsers s (targets.map (·.userID))))

theorem mem_offlineTargets {ot : OfflineTarget} :
    ot ∈ offlineTargets s userIDs mentioned mentionEveryone base ↔
      ot.userID ∈ userIDs ∧
        (getEffectiveLevel s.preferences ot.userID base.serverID base.channelID).permits
          ot.isMention = true ∧
        ot.isMention = (decide (ot.userID ∈ mentioned) || mentionEveryone) ∧
        ot.devices = s.waiting ot.userID ∧ s.waiting ot.userID ≠ [] := by
  unfold offlineTargets
  simp only [mem_filterMap, pushTarget_eq_some, offlineTarget_eq_some]
  constructor
  · intro h
    obtain ⟨t, ⟨uid, huid, hlevel, rfl⟩, hdevices, rfl⟩ := h
    rw [getEffectiveLevelsForUsers_eq _ _ _ huid] at hlevel
    -- the devices are asked for only for users whose level lets the push through
    have hasked : uid ∈ (userIDs.filterMap (pushTarget (getEffectiveLevelsForUsers s.preferences
        userIDs base.serverID base.channelID) mentioned mentionEveryone)).map (·.userID) := by
      refine mem_map.mpr ⟨⟨uid, decide (uid ∈ mentioned) || mentionEveryone⟩, ?_, rfl⟩
      refine mem_filterMap.mpr ⟨uid, huid, pushTarget_eq_some.mpr ⟨?_, rfl⟩⟩
      rw [getEffectiveLevelsForUsers_eq _ _ _ huid]
      exact hlevel
    rw [getPushEnabledDevicesForUsers_eq hasked] at hdevices ⊢
    exact ⟨huid, hlevel, rfl, rfl, hdevices⟩
  · intro h
    obtain ⟨huid, hlevel, hmention, hdevices, hsome⟩ := h
    obtain ⟨⟨uid, isMention⟩, devices⟩ := ot
    dsimp only at huid hlevel hmention hdevices hsome
    rw [hmention] at hlevel
    rw [hmention, hdevices]
    have htarget : pushTarget (getEffectiveLevelsForUsers s.preferences userIDs base.serverID
        base.channelID) mentioned mentionEveryone uid =
        some ⟨uid, decide (uid ∈ mentioned) || mentionEveryone⟩ := by
      rw [pushTarget_eq_some, getEffectiveLevelsForUsers_eq _ _ _ huid]
      exact ⟨hlevel, rfl⟩
    have hasked : uid ∈ (userIDs.filterMap (pushTarget (getEffectiveLevelsForUsers s.preferences
        userIDs base.serverID base.channelID) mentioned mentionEveryone)).map (·.userID) :=
      mem_map.mpr ⟨_, mem_filterMap.mpr ⟨uid, huid, htarget⟩, rfl⟩
    refine ⟨_, ⟨uid, huid, (pushTarget_eq_some.mp htarget).1, rfl⟩, ?_⟩
    rw [getPushEnabledDevicesForUsers_eq hasked]
    exact ⟨hsome, rfl⟩

theorem offlineTargets_keys_nodup (hd : userIDs.Nodup) {type : OfflineTarget → PushKind} :
    ((offlineTargets s userIDs mentioned mentionEveryone base).map fun ot =>
      ThrottleKey.push (type ot) ot.userID channelID).Nodup := by
  unfold offlineTargets
  rw [filterMap_filterMap, map_filterMap]
  apply Nodup.filterMap _ hd
  have hown : ∀ {uid key}, key ∈ ((pushTarget (getEffectiveLevelsForUsers s.preferences userIDs
      base.serverID base.channelID) mentioned mentionEveryone uid).bind (offlineTarget s
        (getPushEnabledDevicesForUsers s ((userIDs.filterMap (pushTarget
          (getEffectiveLevelsForUsers s.preferences userIDs base.serverID base.channelID)
          mentioned mentionEveryone)).map (·.userID))))).map
        (fun ot => ThrottleKey.push (type ot) ot.userID channelID) →
      ∃ k, key = .push k uid channelID := by
    intro uid key h
    obtain ⟨ot, hot, rfl⟩ := Option.map_eq_some_iff.mp h
    obtain ⟨t, ht, hot⟩ := Option.bind_eq_some_iff.mp hot
    obtain ⟨-, rfl⟩ := pushTarget_eq_some.mp ht
    obtain ⟨-, rfl⟩ := offlineTarget_eq_some.mp hot
    exact ⟨_, rfl⟩
  intro uid uid' key h h'
  obtain ⟨k, hk⟩ := hown h
  obtain ⟨k', hk'⟩ := hown h'
  rw [hk] at hk'
  injection hk'

/-- The trigger of a user's push. -/
def userTrigger (s : State) (base : PushTrigger) (isMention : Bool) : PushTrigger :=
  targetTrigger base (resolveSenderName s base.senderID) (resolveServerName s base.serverID)
    isMention

theorem userTrigger_throttleKey (hkind : base.kind = .message) (isMention : Bool) (uid : ID) :
    (userTrigger s base isMention).throttleKey uid =
      .push (messageKind isMention) uid base.channelID := by
  unfold userTrigger targetTrigger PushTrigger.throttleKey PushTrigger.throttleKeyType messageKind
  simp [hkind]

theorem processServerNotifications_eq (s : State) (userIDs : List ID) :
    processServerNotifications s userIDs mentioned mentionEveryone base =
      (((throttleTargets s (fun ot => (userTrigger s base ot.isMention).throttleKey ot.userID)
          (offlineTargets s userIDs mentioned mentionEveryone base)).1.flatMap fun ot =>
            ot.devices.map (.mk · (userTrigger s base ot.isMention))),
        (throttleTargets s (fun ot => (userTrigger s base ot.isMention).throttleKey ot.userID)
          (offlineTargets s userIDs mentioned mentionEveryone base)).2) := rfl

theorem processServerNotifications_onlyThrottles (s : State) (userIDs : List ID) :
    OnlyThrottles s (processServerNotifications s userIDs mentioned mentionEveryone base).2 := by
  exact throttleTargets_onlyThrottles s

theorem processServerNotifications_live_of_notMem (s : State)
    {type : PushKind} (hnot : uid ∉ userIDs) :
    (processServerNotifications s userIDs mentioned mentionEveryone base).2.live
        (.push type uid base.channelID) = s.live (.push type uid base.channelID) := by
  rw [processServerNotifications_eq]
  apply throttleTargets_live_of_ne
  intro ot hot heq
  have huid : uid = ot.userID := by
    injection heq
  rw [huid] at hnot
  exact hnot (mem_offlineTargets.mp hot).1

theorem mem_processServerNotifications (s : State) (hd : userIDs.Nodup)
    (hkind : base.kind = .message) :
    p ∈ (processServerNotifications s userIDs mentioned mentionEveryone base).1 ↔
      ∃ uid ∈ userIDs, p.device ∈ s.waiting uid ∧
        s.Notifies base.serverID base.channelID (decide (uid ∈ mentioned) || mentionEveryone) uid ∧
        p.trigger = userTrigger s base (decide (uid ∈ mentioned) || mentionEveryone) := by
  rw [processServerNotifications_eq]
  simp only [userTrigger_throttleKey hkind]
  rw [throttleTargets_fst s (offlineTargets_keys_nodup hd)]
  simp only [mem_flatMap, mem_filter, mem_offlineTargets, mem_map]
  constructor
  · intro h
    obtain ⟨ot, ⟨⟨huid, hlevel, hmention, hdevices, -⟩, hlive⟩, d, hdevice, rfl⟩ := h
    rw [hdevices] at hdevice
    rw [hmention] at hlevel hlive
    exact ⟨ot.userID, huid, hdevice, ⟨hlevel, by simpa using hlive⟩, by rw [hmention]⟩
  · intro h
    obtain ⟨uid, huid, hdevice, ⟨hlevel, hlive⟩, htrigger⟩ := h
    refine ⟨⟨⟨uid, decide (uid ∈ mentioned) || mentionEveryone⟩, s.waiting uid⟩,
      ⟨⟨huid, hlevel, rfl, rfl, ne_nil_of_mem hdevice⟩, by rw [hlive]; rfl⟩,
      p.device, hdevice, ?_⟩
    rw [← htrigger]

theorem mem_processBatches (s : State) {slices : List (List ID)} (hd : slices.flatten.Nodup)
    (hkind : base.kind = .message) :
    p ∈ (processBatches s mentioned base slices).1 ↔
      ∃ uid ∈ slices.flatten, p.device ∈ s.waiting uid ∧
        s.Notifies base.serverID base.channelID true uid ∧
        p.trigger = userTrigger s base true := by
  induction slices generalizing s with
  | nil => simp [processBatches]
  | cons batch slices ih =>
    rw [flatten_cons, nodup_append] at hd
    obtain ⟨hbatch, hrest, hapart⟩ := hd
    unfold processBatches
    rw [mem_append, ih _ hrest, mem_processServerNotifications s hbatch hkind, flatten_cons]
    simp only [Bool.or_true, mem_append, or_and_right, exists_or]
    apply or_congr .rfl
    apply exists_congr
    intro uid
    apply and_congr_right
    intro hlater
    -- the users of the later batches are others
    have hnot : uid ∉ batch := fun h => hapart uid h uid hlater rfl
    have hlive : (processServerNotifications s batch mentioned true base).2.live
        (.push (messageKind true) uid base.channelID) =
        s.live (.push (messageKind true) uid base.channelID) :=
      processServerNotifications_live_of_notMem s hnot
    obtain ⟨f, hf⟩ : OnlyThrottles s (processServerNotifications s batch mentioned true base).2 :=
      processServerNotifications_onlyThrottles s batch
    rw [hf] at hlive ⊢
    unfold Notifies
    rw [hlive]
    rfl

end Server

/-- The slices make up the list. -/
theorem batches_flatten {α : Type} {size : Nat} (hsize : 0 < size) (l : List α) :
    (batches size l).flatten = l := by
  have htake : ∀ k, ((range k).map fun i => (l.drop (i * size)).take size).flatten =
      l.take (k * size) := by
    intro k
    induction k with
    | zero => simp
    | succ k ih =>
      rw [range_succ, map_append, flatten_append, ih, Nat.succ_mul, take_add]
      simp
  unfold batches
  rw [htake]
  apply take_of_length_le
  have hdiv := Nat.div_add_mod (l.length + (size - 1)) size
  have hmod := Nat.mod_lt (l.length + (size - 1)) hsize
  rw [Nat.mul_comm] at hdiv
  omega

/-- Whether an @everyone of the message is not throttled. -/
def MessageCreate.everyoneCounts (s : State) (serverID : ID) (mc : MessageCreate) : Bool :=
  mc.mentionEveryone && !s.live (.everyone serverID)

theorem throttleEveryone_fst (s : State) (serverID : ID) (mc : MessageCreate) :
    (throttleEveryone s serverID mc).1 = mc.everyoneCounts s serverID := by
  unfold throttleEveryone everyoneCounts
  by_cases h : mc.mentionEveryone = true
  · simp [h, setNX_fst]
  · simp [h]

theorem throttleEveryone_push (s : State) (serverID : ID) (mc : MessageCreate) :
    ∃ f, (throttleEveryone s serverID mc).2 = { s with throttles := f } ∧
      ∀ type uid channelID, (throttleEveryone s serverID mc).2.live (.push type uid channelID) =
        s.live (.push type uid channelID) := by
  unfold throttleEveryone
  by_cases h : mc.mentionEveryone = true
  · rw [if_pos h]
    obtain ⟨f, hf⟩ : OnlyThrottles s (s.setNX (.everyone serverID) everyoneThrottleSeconds).2 :=
      setNX_onlyThrottles
    refine ⟨f, hf, ?_⟩
    intro type uid channelID
    exact setNX_live_of_ne (by simp)
  · rw [if_neg h]
    exact ⟨s.throttles, rfl, fun _ _ _ => rfl⟩

/-- What all pushes of a server message have in common. -/
def baseTrigger (channelID : ID) (channel : Channel) (serverID : ID) (mc : MessageCreate) :
    PushTrigger :=
  { kind := .message, channelID, senderID := mc.authorID, messageID := mc.id, serverID,
    channelName := sanitizeNotificationTitle channel.name }

theorem mem_handleServerMessage (s : State) {channel : Channel} {mc : MessageCreate} :
    p ∈ (handleServerMessage s channelID channel serverID mc).1 ↔
      ∃ uid ∈ listMemberUserIDs s.db.tables serverID, uid ≠ mc.authorID ∧
        p.device ∈ s.waiting uid ∧
        s.Notifies serverID channelID
          (decide (uid ∈ mc.mentionedUserIDs) || mc.everyoneCounts s serverID) uid ∧
        p.trigger = userTrigger s (baseTrigger channelID channel serverID mc)
          (decide (uid ∈ mc.mentionedUserIDs) || mc.everyoneCounts s serverID) := by
  have hd : ((listMemberUserIDs s.db.tables serverID).filter (· ≠ mc.authorID)).Nodup := by
    apply Nodup.filter
    exact unique_of_filter (f := fun userID => (userID, serverID))
      (fun m hm => by rw [← of_decide_eq_true hm]; rfl) s.db.constraints.servers.membersPK
  obtain ⟨f, hf, hlive⟩ := throttleEveryone_push s serverID mc
  have hnotifies : ∀ isMention uid,
      (throttleEveryone s serverID mc).2.Notifies serverID channelID isMention uid ↔
        s.Notifies serverID channelID isMention uid := by
    intro isMention uid
    unfold Notifies
    rw [hlive, hf]
  have hsame : OnlyThrottles s (throttleEveryone s serverID mc).2 := ⟨f, hf⟩
  have htrigger : ∀ base isMention,
      userTrigger (throttleEveryone s serverID mc).2 base isMention =
        userTrigger s base isMention := by
    intro base isMention
    rw [hf]
    rfl
  unfold handleServerMessage
  dsimp only
  rw [throttleEveryone_fst]
  -- a mention of everyone goes through the batches, any other message does not
  rcases mc.everyoneCounts s serverID with _ | _
  · rw [if_neg Bool.false_ne_true, mem_processServerNotifications _ hd rfl]
    simp only [Bool.or_false, hsame.waiting, hnotifies, htrigger, mem_filter,
      decide_eq_true_eq, ne_eq, and_assoc]
    rfl
  · rw [if_pos rfl]
    unfold processEveryoneMention
    rw [← batches_flatten (by decide : 0 < everyoneBatchSize)
      ((listMemberUserIDs s.db.tables serverID).filter (· ≠ mc.authorID))] at hd
    rw [mem_processBatches _ hd rfl, batches_flatten (by decide)]
    simp only [Bool.or_true, hsame.waiting, hnotifies, htrigger, mem_filter,
      decide_eq_true_eq, ne_eq, and_assoc]
    rfl

theorem mem_handleDM (s : State) {mc : MessageCreate} :
    p ∈ (handleDM s channelID mc).1 ↔
      ∃ uid ∈ listChannelParticipantIDs s.db.tables channelID, uid ≠ mc.authorID ∧
        p.device ∈ s.waiting uid ∧ s.live (.push .dm uid channelID) = false ∧
        p.trigger = dmTrigger s channelID mc := by
  have hd : ((listChannelParticipantIDs s.db.tables channelID).filter (· ≠ mc.authorID)).Nodup := by
    apply Nodup.filter
    exact unique_of_filter (f := fun userID => (channelID, userID))
      (fun m hm => by rw [← of_decide_eq_true hm]; rfl) s.db.constraints.channels.membersPK
  unfold handleDM
  rw [mem_notifyAll hd]
  simp only [mem_filter, decide_eq_true_eq, ne_eq, and_assoc]
  rfl

/-! ## Section 4: The audience -/

/-- The message mentions the user, by id or with everyone. -/
def MessageCreate.mentions (mc : MessageCreate) (uid : ID) : Bool :=
  decide (uid ∈ mc.mentionedUserIDs) || mc.mentionEveryone

/-- The user's effective level in the channel; DM channels have no server. -/
def State.levelIn (s : State) (uid : ID) (channel : Channel) : Level :=
  getEffectiveLevel s.preferences uid (channel.serverID.getD "") channel.id

/-- The push may be sent: what a user can see and wants to hear of, to a device
    that is enabled and away. -/
structure Audience (s : State) (channel : Channel) (mc : MessageCreate) (p : Push) :
    Prop where
  notAuthor : p.device.userID ≠ mc.authorID
  views : hasViewChannel s.db.tables s.now p.device.userID channel.id = true
  permitted : (s.levelIn p.device.userID channel).permits (mc.mentions p.device.userID) = true
  enabled : p.device.pushEnabled = true
  away : p.device.id ∉ s.connected p.device.userID

/-- Every member whom the message would be pushed to can view the channel. -/
def ViewersOnly (s : State) (channelID serverID : ID) (mc : MessageCreate) : Prop :=
  ∀ uid ∈ listMemberUserIDs s.db.tables serverID, uid ≠ mc.authorID → s.waiting uid ≠ [] →
    s.Notifies serverID channelID
      (decide (uid ∈ mc.mentionedUserIDs) || mc.everyoneCounts s serverID) uid →
    hasViewChannel s.db.tables s.now uid channelID = true

/-- Every participant with a device to push to and an open throttle wants the message. -/
def WantedByAll (s : State) (channel : Channel) (mc : MessageCreate) : Prop :=
  ∀ uid ∈ listChannelParticipantIDs s.db.tables channel.id, uid ≠ mc.authorID →
    s.waiting uid ≠ [] → s.live (.push .dm uid channel.id) = false →
    (s.levelIn uid channel).permits (mc.mentions uid) = true

/-- A message of a user in a server is for viewers only, and one in a DM is wanted by all. -/
def Confined (s : State) (channel : Channel) (mc : MessageCreate) : Prop :=
  mc.authorID = "" ∨ mc.authorID = Chat.systemUserID ∨
    match channel.serverID with
    | none => WantedByAll s channel mc
    | some serverID => ViewersOnly s channel.id serverID mc

section Audience

variable {channel : Channel} {mc : MessageCreate}

/-- Of an @everyone that is throttled the level asks less. -/
theorem permits_mentions {level : Level}
    (h : level.permits (decide (uid ∈ mc.mentionedUserIDs) || mc.everyoneCounts s serverID) =
      true) : level.permits (mc.mentions uid) = true := by
  apply Level.permits_mono _ h
  unfold mentions everyoneCounts
  simp only [Bool.or_eq_true, Bool.and_eq_true]
  tauto

/-- In a server only the permission to view is missing. -/
theorem audience_server_iff (hin : channel.serverID = some serverID) :
    (∀ p ∈ (handleServerMessage s channel.id channel serverID mc).1, Audience s channel mc p) ↔
      ViewersOnly s channel.id serverID mc := by
  constructor
  · intro h uid huid hother hwaiting hnotifies
    obtain ⟨d, hd⟩ := exists_mem_of_ne_nil _ hwaiting
    have hpush := h ⟨d, userTrigger s (baseTrigger channel.id channel serverID mc)
      (decide (uid ∈ mc.mentionedUserIDs) || mc.everyoneCounts s serverID)⟩
      ((mem_handleServerMessage s).mpr ⟨uid, huid, hother, hd, hnotifies, rfl⟩)
    have hviews := hpush.views
    rwa [(mem_waiting.mp hd).2.1] at hviews
  · intro h p hp
    obtain ⟨uid, huid, hother, hdevice, hnotifies, -⟩ := (mem_handleServerMessage s).mp hp
    have hviews := h uid huid hother (ne_nil_of_mem hdevice) hnotifies
    obtain ⟨-, rfl, henabled, haway⟩ := mem_waiting.mp hdevice
    have hpermitted : (s.levelIn p.device.userID channel).permits
        (mc.mentions p.device.userID) = true := by
      unfold levelIn
      rw [hin]
      exact permits_mentions hnotifies.1
    exact ⟨hother, hviews, hpermitted, henabled, haway⟩

/-- In a DM only the level is missing. -/
theorem audience_dm_iff (hch : channel ∈ s.db.tables.channels) (hin : channel.serverID = none) :
    (∀ p ∈ (handleDM s channel.id mc).1, Audience s channel mc p) ↔ WantedByAll s channel mc := by
  constructor
  · intro h uid huid hother hwaiting hlive
    obtain ⟨d, hd⟩ := exists_mem_of_ne_nil _ hwaiting
    have hpush := h ⟨d, dmTrigger s channel.id mc⟩
      ((mem_handleDM s).mpr ⟨uid, huid, hother, hd, hlive, rfl⟩)
    have hpermitted := hpush.permitted
    rwa [(mem_waiting.mp hd).2.1] at hpermitted
  · intro h p hp
    obtain ⟨uid, huid, hother, hdevice, hlive, -⟩ := (mem_handleDM s).mp hp
    have hpermitted := h uid huid hother (ne_nil_of_mem hdevice) hlive
    have hviews : hasViewChannel s.db.tables s.now uid channel.id = true := by
      obtain ⟨cm, hcm, rfl⟩ := mem_map.mp huid
      obtain ⟨hrow, hof⟩ := mem_filter.mp hcm
      unfold hasViewChannel channelServer
      rw [lookup_of_mem s.db.constraints.channels.channelsPK hch, Option.bind_some, hin]
      exact any_eq_true.mpr ⟨cm, hrow, decide_eq_true ⟨of_decide_eq_true hof, rfl⟩⟩
    obtain ⟨-, rfl, henabled, haway⟩ := mem_waiting.mp hdevice
    exact ⟨hother, hviews, hpermitted, henabled, haway⟩

end Audience

theorem audience_stored_iff (s : State) {channel : Channel}
    (hch : channel ∈ s.db.tables.channels) (mc : MessageCreate) :
    (∀ p ∈ (handleChannelEvent s channel.id (.messageCreate mc)).1, Audience s channel mc p) ↔
      Confined s channel mc := by
  have hget : getChannel s.db.tables channel.id = .ok channel :=
    oneRow_ok.mpr (lookup_of_mem s.db.constraints.channels.channelsPK hch)
  unfold handleChannelEvent Confined
  dsimp only
  by_cases hauthor : mc.authorID = "" ∨ mc.authorID = Chat.systemUserID
  · rw [if_pos hauthor]
    tauto
  · rw [if_neg hauthor, hget, ← or_assoc, or_iff_right hauthor]
    dsimp only
    rcases hin : channel.serverID with _ | serverID
    · exact audience_dm_iff hch hin
    · exact audience_server_iff hin

/-- **The audience of a push.** All pushes for an event go to the audience of its message
    exactly when the message is confined. -/
theorem audience_iff (s : State) (channelID : ID) (event : Event) :
    (∀ p ∈ (handleChannelEvent s channelID event).1, ∃ mc channel, event = .messageCreate mc ∧
        getChannel s.db.tables channelID = .ok channel ∧
        Audience s channel mc p) ↔
      ∀ mc channel, event = .messageCreate mc →
        getChannel s.db.tables channelID = .ok channel →
        Confined s channel mc := by
  cases event with
  | other => simp [handleChannelEvent]
  | messageCreate mc =>
    rcases hget : getChannel s.db.tables channelID with e | channel
    · simp [handleChannelEvent, hget]
    · obtain ⟨hch, rfl⟩ := mem_of_lookup (oneRow_ok.mp hget)
      simpa using audience_stored_iff s hch mc

/-- The theatre's stage, with a conversation of the mod and the guest. -/
def theatreTables : Tables :=
  { Chat.stageTables with
    channels := Chat.stageTables.channels ++
      [{ id := "dm", serverID := none, name := "", type := 3 }]
    channelMembers := [{ channelID := "dm", userID := "mod" },
      { channelID := "dm", userID := "guest" }] }

theorem theatreTables_constraints : theatreTables.Constraints := by decide

/-- The guest's phone is away, and nothing of the conversation is to be pushed to it. -/
def theatreState : State where
  db := ⟨theatreTables, theatreTables_constraints⟩
  now := 50
  preferences :=
    [{ userID := "guest", scopeType := .channel, scopeID := "dm", level := .nothing }]
  devices := [{ id := "phone", userID := "guest", pushEnabled := true }]

/-- The guest is told of a message in the pit, which is hidden from it, and of one in the
    conversation that it has silenced. -/
theorem audience_fails_theatre :
    (∃ p ∈ (handleChannelEvent theatreState "pit"
          (.messageCreate { id := "m", authorID := "owner" })).1,
        hasViewChannel theatreTables 50 p.device.userID "pit" = false) ∧
      (∃ p ∈ (handleChannelEvent theatreState "dm"
          (.messageCreate { id := "m", authorID := "mod" })).1,
        getEffectiveLevel theatreState.preferences p.device.userID "" "dm" = .nothing) ∧
      ¬ ∀ (s : State) (channelID : ID) (event : Event),
        ∀ p ∈ (handleChannelEvent s channelID event).1, ∃ mc channel,
          event = .messageCreate mc ∧
          getChannel s.db.tables channelID = .ok channel ∧
          Audience s channel mc p := by
  have hpit : ∃ p ∈ (handleChannelEvent theatreState "pit"
      (.messageCreate { id := "m", authorID := "owner" })).1,
        hasViewChannel theatreTables 50 p.device.userID "pit" = false := by
    decide +kernel
  refine ⟨hpit, by decide +kernel, ?_⟩
  intro hall
  obtain ⟨p, hp, hhidden⟩ := hpit
  obtain ⟨mc, channel, -, hget, haudience⟩ := hall _ _ _ p hp
  obtain ⟨-, hid⟩ := mem_of_lookup (oneRow_ok.mp hget)
  have hviews := haudience.views
  rw [hid] at hviews
  exact absurd (hviews.symm.trans hhidden) (by decide)

end Meza.Notification
