import NebLite.Gateway.Publications

/-! A call of `emit` and one subscriber: no step sends the call a second time, a registered
subscriber does not miss it, and what is under way moves forward in its queue. -/

namespace NebLite

namespace NotificationStream

open Atomic

variable {P : Type}

namespace State

variable {s : State P} {u : SubscriberId} {call : ℕ} {envelope : NotificationEnvelope P}

/-- How often the call may still reach the subscriber, and has reached it. -/
def reach (s : State P) (u : SubscriberId) (envelope : NotificationEnvelope P) (call : ℕ) : ℕ :=
  s.underway (getRedisChannel envelope.channelKey) call + s.deliveries u call

@[simp] theorem publishes_comp_callback :
    Job.publishes call ∘ Job.callback = (Callback.publishes call : Callback P → Bool) := rfl

theorem Sound.waiting_elsewhere (hs : s.Sound) (he : s.emitted[call]? = some envelope) {channel : String}
    (hc : channel ≠ getRedisChannel envelope.channelKey) :
    (s.waiting channel).countP (Callback.publishes call) = 0 := by
  rw [List.countP_eq_zero]
  intro callback hmem hpub
  cases callback with
  | cleanup key => cases hpub
  | publish p =>
    have hcall : p.call = call := by simpa [Callback.publishes] using hpub
    obtain ⟨hp, hchannel⟩ := hs.traced channel p (.inl hmem)
    rw [hcall, he] at hp
    cases hp
    exact hc hchannel

theorem Sound.deliveries_message (hs : s.Sound) (p : Publication P) (u : SubscriberId) (call : ℕ) :
    ((s.channels p.envelope.channelKey).map fun subscriber =>
        (⟨subscriber, p.call, ⟨p.envelope.event, p.envelope⟩⟩ : Delivery P)).countP (Delivery.isTo u call) =
      if p.call = call ∧ u ∈ s.channels p.envelope.channelKey then 1 else 0 := by
  rw [List.countP_map]
  by_cases hcall : p.call = call
  · have hpred : (Delivery.isTo u call ∘ fun subscriber =>
        (⟨subscriber, p.call, ⟨p.envelope.event, p.envelope⟩⟩ : Delivery P)) = fun v => v == u := by
      funext v
      by_cases hv : v = u <;> simp [Delivery.isTo, hcall, hv]
    rw [hpred]
    show List.count u _ = _
    by_cases hu : u ∈ s.channels p.envelope.channelKey
    · rw [if_pos ⟨hcall, hu⟩, List.count_eq_one_of_mem (hs.nodup _) hu]
    · rw [if_neg fun h => hu h.2, List.count_eq_zero_of_not_mem hu]
  · rw [if_neg fun h => hcall h.1, List.countP_eq_zero]
    simp [Delivery.isTo, hcall]

theorem Sound.reach_run (hs : s.Sound) (he : s.emitted[call]? = some envelope) (index : ℕ) :
    (s.run index).underway (getRedisChannel envelope.channelKey) call =
      s.underway (getRedisChannel envelope.channelKey) call := by
  obtain ⟨-, h⟩ | ⟨job, hj, h⟩ := run_cases s index
  · rw [h]
  have hcount := countP_eraseIdx_add (Job.publishes call) hj
  rw [h]
  cases job with
  | subscribed c => simp [underway, waiting, runJob, ← hcount, Job.publishes]
  | failed c => simp [underway, waiting, runJob, ← hcount, Job.publishes]
  | settled c succeeded =>
    have hok : succeeded = true := by
      simpa [Job.rejects] using hs.succeeds (List.mem_of_getElem? hj) c
    by_cases hc : getRedisChannel envelope.channelKey = c
    · simp [underway, waiting, runJob, ← hcount, Job.publishes, hok, hc]
      omega
    · have hnone := hs.waiting_elsewhere he (Ne.symm hc)
      simp only [waiting] at hnone
      simp [underway, waiting, runJob, ← hcount, Job.publishes, hok, hc, hnone]
  | callback callback =>
    cases callback with
    | publish p =>
      simp [underway, waiting, runJob, ← hcount, Job.publishes, Callback.publishes]
      omega
    | cleanup key =>
      have hsame : ({ s with jobs := s.jobs.eraseIdx index } : State P).underway
          (getRedisChannel envelope.channelKey) call =
            s.underway (getRedisChannel envelope.channelKey) call := by
        simp [underway, waiting, ← hcount, Job.publishes, Callback.publishes]
      simp only [runJob]
      split
      · exact hsame
      · rw [sameTraffic_cleanup.underway, hsame]

theorem underway_emit (hn : call ≠ s.emitted.length) (e : NotificationEnvelope P) (channel : String) :
    (s.emit e).underway channel call = s.underway channel call := by
  obtain ⟨callbacks, hprom, h⟩ | ⟨-, h⟩ := emit_cases s e
  · rw [h]
    by_cases hc : channel = getRedisChannel e.channelKey
    · simp [underway, waiting, attach, hc, hprom, Callback.publishes, Ne.symm hn]
    · simp [underway, waiting, attach, hc]
  · rw [h]
    simp [underway, waiting, Job.publishes, Callback.publishes, Ne.symm hn]

theorem reach_executePublish (s : State P) (u : SubscriberId) (envelope : NotificationEnvelope P) (call : ℕ)
    (hsent : ∀ c p, (c, p) ∈ s.publishes → p.call = call → c = getRedisChannel envelope.channelKey) :
    s.executePublish.reach u envelope call ≤ s.reach u envelope call ∧
      ((0 < s.publishes.countP (fun x => x.2.call = call) →
          s.listening (getRedisChannel envelope.channelKey) = true) →
        s.executePublish.reach u envelope call = s.reach u envelope call) := by
  obtain ⟨-, h⟩ | ⟨c, p, publishes, hp, ⟨-, h⟩ | ⟨hl, h⟩⟩ := executePublish_cases s
  · rw [h]
    exact ⟨Nat.le_refl _, fun _ => rfl⟩
  · have heq : s.executePublish.reach u envelope call = s.reach u envelope call := by
      rw [h]
      simp [reach, underway, waiting, deliveries, hp, List.countP_cons, Reply.carries]
      omega
    exact ⟨Nat.le_of_eq heq, fun _ => heq⟩
  · rw [h]
    by_cases hcall : p.call = call
    · refine ⟨?_, fun hlistening => ?_⟩
      · simp [reach, underway, waiting, deliveries, hp, List.countP_cons]
      · have hc := hsent c p (by simp [hp]) hcall
        rw [hc, hlistening (by simp [hp, hcall])] at hl
        cases hl
    · have heq : ({ s with publishes } : State P).reach u envelope call = s.reach u envelope call := by
        simp [reach, underway, waiting, deliveries, hp, hcall]
      exact ⟨Nat.le_of_eq heq, fun _ => heq⟩

theorem Sound.reach_receive (hs : s.Sound) (he : s.emitted[call]? = some envelope) (u : SubscriberId) :
    s.receive.reach u envelope call ≤ s.reach u envelope call ∧
      (u ∈ s.channels envelope.channelKey → s.receive.reach u envelope call = s.reach u envelope call) := by
  obtain ⟨-, h⟩ | ⟨c, succeeded, replies, hr, h⟩ | ⟨c, succeeded, replies, hr, h⟩ |
    ⟨c, p, replies, hr, h⟩ := receive_cases s
  · rw [h]
    exact ⟨Nat.le_refl _, fun _ => rfl⟩
  · have heq : s.receive.reach u envelope call = s.reach u envelope call := by
      rw [h]
      cases succeeded <;> simp [reach, underway, waiting, deliveries, hr, Reply.carries, Job.publishes]
    exact ⟨Nat.le_of_eq heq, fun _ => heq⟩
  · have heq : s.receive.reach u envelope call = s.reach u envelope call := by
      rw [h]
      simp [reach, underway, waiting, deliveries, hr, Reply.carries]
    exact ⟨Nat.le_of_eq heq, fun _ => heq⟩
  · obtain ⟨hp, rfl⟩ := hs.traced c p (.inr (.inr (.inr (by simp [hr]))))
    have hcount := hs.deliveries_message p u call
    have hreach : s.receive.reach u envelope call + (if p.call = call then 1 else 0) =
        s.reach u envelope call + if p.call = call ∧ u ∈ s.channels p.envelope.channelKey then 1 else 0 := by
      rw [h, handleRedisMessage_redisChannel]
      simp only [reach, underway, waiting, deliveries, hr, List.countP_append, hcount, List.countP_cons,
        Reply.carries, decide_eq_true_eq]
      omega
    by_cases hcall : p.call = call
    · rw [hcall, he] at hp
      cases hp
      refine ⟨?_, fun hu => ?_⟩
      · split at hreach <;> split at hreach <;> omega
      · rw [if_pos hcall, if_pos ⟨hcall, hu⟩] at hreach
        omega
    · rw [if_neg hcall, if_neg fun h => hcall h.1] at hreach
      exact ⟨Nat.le_of_eq hreach, fun _ => hreach⟩

/-- No step sends a call a second time to a subscriber; and one that is registered while Redis
listens to its channel does not miss it. -/
theorem Sound.reach_step (hs : s.Sound) (he : s.emitted[call]? = some envelope) (u : SubscriberId) (a : Action P) :
    (s.step a).reach u envelope call ≤ s.reach u envelope call ∧
      (u ∈ s.channels envelope.channelKey →
        (0 < s.publishes.countP (fun x => x.2.call = call) →
          s.listening (getRedisChannel envelope.channelKey) = true) →
        (s.step a).reach u envelope call = s.reach u envelope call) := by
  have hkept : (s.step a).underway (getRedisChannel envelope.channelKey) call =
      s.underway (getRedisChannel envelope.channelKey) call → (s.step a).delivered = s.delivered →
      (s.step a).reach u envelope call = s.reach u envelope call := by
    intro hunderway hdelivered
    rw [reach, reach, hunderway, deliveries, deliveries, hdelivered]
  have hquiet : (s.step a).reach u envelope call = s.reach u envelope call →
      (s.step a).reach u envelope call ≤ s.reach u envelope call ∧
      (u ∈ s.channels envelope.channelKey →
        (0 < s.publishes.countP (fun x => x.2.call = call) →
          s.listening (getRedisChannel envelope.channelKey) = true) →
        (s.step a).reach u envelope call = s.reach u envelope call) :=
    fun heq => ⟨Nat.le_of_eq heq, fun _ _ => heq⟩
  have hdelivered : a ≠ .receive → (s.step a).delivered = s.delivered := fun hne =>
    (hs.delivered_step a).resolve_right fun ⟨_, _, h, _⟩ => hne h
  cases a with
  | subscribe target targetId =>
    exact hquiet (hkept ((traffic_subscribe s target targetId _).2.1 call) (hdelivered (by simp)))
  | finalize v => exact hquiet (hkept ((traffic_finalize s v _).2.1 call) (hdelivered (by simp)))
  | emit e =>
    have hlt := (List.getElem?_eq_some_iff.mp he).1
    exact hquiet (hkept (underway_emit (Nat.ne_of_lt hlt) e _) (hdelivered (by simp)))
  | execute succeeds =>
    refine hquiet (hkept ?_ (hdelivered (by simp)))
    show (s.execute succeeds).underway _ _ = _
    obtain ⟨-, h⟩ | ⟨command, commands, listening, -, h⟩ := execute_cases s succeeds
    · rw [h]
    · rw [h]
      simp [underway, waiting, Reply.carries]
  | executePublish =>
    have hsent : ∀ c p, (c, p) ∈ s.publishes → p.call = call →
        c = getRedisChannel envelope.channelKey := by
      intro c p hmem hcall
      obtain ⟨hp, hc⟩ := hs.traced c p (.inr (.inr (.inl hmem)))
      rw [hcall, he] at hp
      cases hp
      exact hc
    have h := reach_executePublish s u envelope call hsent
    exact ⟨h.1, fun _ => h.2⟩
  | receive =>
    have h := hs.reach_receive he u
    exact ⟨h.1, fun hu _ => h.2 hu⟩
  | run index => exact hquiet (hkept (hs.reach_run he index) (hdelivered (by simp)))

section Awaits

theorem subscribed_cleanup {key channel : String} (hne : channel ≠ getRedisChannel key) :
    (s.cleanupRedisSubscription key).redisSubscribedChannels channel = s.redisSubscribedChannels channel := by
  obtain ⟨callbacks, -, h⟩ | ⟨-, -, h⟩ | ⟨-, -, h⟩ := cleanup_cases s key
  · rw [h]
    rfl
  · rw [h]
    simp [hne]
  · rw [h]

theorem subscribed_ensure {key channel : String} :
    (s.ensureRedisSubscription key).redisSubscribedChannels channel = s.redisSubscribedChannels channel := by
  obtain ⟨-, h⟩ | ⟨-, -, h⟩ := ensure_cases s key
  · rw [h]
  · rw [h]

/-- The channel of a registered subscriber is not given up. -/
theorem Sound.subscribed_step (hs : s.Sound) {key : String} (hu : u ∈ s.channels key) {a : Action P}
    (ha : a ≠ .finalize u) (hsub : s.redisSubscribedChannels (getRedisChannel key) = true) :
    (s.step a).redisSubscribedChannels (getRedisChannel key) = true := by
  have hstays : u ∈ (s.step a).channels key := mem_step hu ha
  cases a with
  | subscribe target targetId =>
    show (State.ensureRedisSubscription _ _).redisSubscribedChannels _ = true
    rw [subscribed_ensure]
    exact hsub
  | finalize v =>
    change u ∈ (s.finalize v).channels key at hstays
    show (s.finalize v).redisSubscribedChannels _ = true
    obtain ⟨h, -⟩ | ⟨target, targetId, -, ⟨-, h⟩ | ⟨hempty, h⟩⟩ := finalize_cases s v
    · rwa [h]
    · rwa [h]
    · rw [h, sameTraffic_cleanup.channels] at hstays
      rw [h, subscribed_cleanup]
      · exact hsub
      · intro hc
        obtain rfl := getRedisChannel_inj hc
        simp [hempty] at hstays
  | emit envelope =>
    simp only [State.step, emit]
    split <;> exact hsub
  | execute succeeds =>
    simp only [State.step, execute]
    split <;> exact hsub
  | executePublish =>
    simp only [State.step, executePublish]
    split <;> exact hsub
  | receive =>
    simp only [State.step, receive, handleRedisMessage]
    split
    · exact hsub
    · exact hsub
    · exact hsub
    · split
      · exact hsub
      · split <;> exact hsub
  | run index =>
    show (s.run index).redisSubscribedChannels _ = true
    obtain ⟨-, h⟩ | ⟨job, hj, h⟩ := run_cases s index
    · rwa [h]
    rw [h]
    cases job with
    | subscribed c =>
      by_cases hc : getRedisChannel key = c
      · simp [runJob, hc]
      · simpa [runJob, hc] using hsub
    | failed c => simpa [Job.rejects] using hs.succeeds (List.mem_of_getElem? hj) c
    | settled c succeeded => exact hsub
    | callback callback =>
      cases callback with
      | publish p => exact hsub
      | cleanup k =>
        simp only [runJob]
        split
        · exact hsub
        next hzero =>
          rw [subscribed_cleanup]
          · exact hsub
          · intro hc
            rw [← getRedisChannel_inj hc] at hzero
            exact hzero (List.length_pos_of_mem hu)

/-- How often the call is due or on its way to Redis. -/
def sent (s : State P) (call : ℕ) : ℕ :=
  s.jobs.countP (Job.publishes call) + s.publishes.countP (fun x => x.2.call = call)

/-- The jobs, the publications and the replies that are due are the same. -/
structure SameQueues (s t : State P) : Prop where
  jobs : t.jobs = s.jobs
  publishes : t.publishes = s.publishes
  replies : t.replies = s.replies

theorem SameTraffic.queues {s t : State P} (h : SameTraffic s t) : SameQueues s t := ⟨h.jobs, h.publishes, h.replies⟩

theorem sameQueues_subscribe (s : State P) (target : NotificationTarget) (targetId : String) :
    SameQueues s (s.subscribe target targetId) := by
  have h : SameTraffic _ (s.subscribe target targetId) := sameTraffic_ensure
  exact ⟨h.jobs, h.publishes, h.replies⟩

theorem sameQueues_finalize (s : State P) (v : SubscriberId) : SameQueues s (s.finalize v) := by
  obtain ⟨h, -⟩ | ⟨target, targetId, -, ⟨-, h⟩ | ⟨-, h⟩⟩ := finalize_cases s v
  · rw [h]
    exact ⟨rfl, rfl, rfl⟩
  · rw [h]
    exact ⟨rfl, rfl, rfl⟩
  · rw [h]
    exact ⟨sameTraffic_cleanup.jobs, sameTraffic_cleanup.publishes, sameTraffic_cleanup.replies⟩

theorem sameQueues_cleanup (s : State P) (key : String) : SameQueues s (s.runJob (.callback (.cleanup key))) := by
  simp only [runJob]
  split
  · exact ⟨rfl, rfl, rfl⟩
  · exact sameTraffic_cleanup.queues

/-- A call is sent only after the SUBSCRIBE it waits for. -/
theorem Sound.sent_step (hs : s.Sound) (he : s.emitted[call]? = some envelope) {a : Action P}
    (hsent : 0 < (s.step a).sent call) :
    0 < s.sent call ∨ s.redisSubscribedChannels (getRedisChannel envelope.channelKey) = true := by
  cases a with
  | subscribe target targetId =>
    have h : SameQueues s (s.step (.subscribe target targetId)) := sameQueues_subscribe s target targetId
    rw [sent, h.jobs, h.publishes] at hsent
    exact .inl hsent
  | finalize v =>
    have h : SameQueues s (s.step (.finalize v)) := sameQueues_finalize s v
    rw [sent, h.jobs, h.publishes] at hsent
    exact .inl hsent
  | emit e =>
    have hne : s.emitted.length ≠ call := Nat.ne_of_gt (List.getElem?_eq_some_iff.mp he).1
    change 0 < (s.emit e).sent call at hsent
    obtain ⟨callbacks, -, h⟩ | ⟨-, h⟩ := emit_cases s e
    · rw [h] at hsent
      exact .inl hsent
    · rw [h] at hsent
      exact .inl (by simpa [sent, Job.publishes, Callback.publishes, hne] using hsent)
  | execute succeeds =>
    change 0 < (s.execute succeeds).sent call at hsent
    obtain ⟨-, h⟩ | ⟨command, commands, listening, -, h⟩ := execute_cases s succeeds
    · rw [h] at hsent
      exact .inl hsent
    · rw [h] at hsent
      exact .inl hsent
  | executePublish =>
    change 0 < s.executePublish.sent call at hsent
    have hle : s.executePublish.sent call ≤ s.sent call := by
      obtain ⟨-, h⟩ | ⟨c, p, publishes, hp, ⟨-, h⟩ | ⟨-, h⟩⟩ := executePublish_cases s
      · rw [h]
      · rw [h, sent, sent, hp]
        simp [List.countP_cons]
      · rw [h, sent, sent, hp]
        simp [List.countP_cons]
    exact .inl (Nat.lt_of_lt_of_le hsent hle)
  | receive =>
    change 0 < s.receive.sent call at hsent
    obtain ⟨-, h⟩ | ⟨c, succeeded, replies, -, h⟩ | ⟨c, succeeded, replies, -, h⟩ |
      ⟨c, p, replies, hr, h⟩ := receive_cases s
    · rw [h] at hsent
      exact .inl hsent
    · rw [h] at hsent
      cases succeeded <;> exact .inl (by simpa [sent, Job.publishes] using hsent)
    · rw [h] at hsent
      exact .inl hsent
    · obtain ⟨-, rfl⟩ := hs.traced c p (.inr (.inr (.inr (by simp [hr]))))
      rw [h, handleRedisMessage_redisChannel] at hsent
      exact .inl hsent
  | run index =>
    change 0 < (s.run index).sent call at hsent
    obtain ⟨-, h⟩ | ⟨job, hj, h⟩ := run_cases s index
    · rw [h] at hsent
      exact .inl hsent
    have hcount := countP_eraseIdx_add (Job.publishes call) hj
    rw [h] at hsent
    cases job with
    | subscribed c => exact .inl (by simpa [sent, runJob, ← hcount, Job.publishes] using hsent)
    | failed c => exact .inl (by simpa [sent, runJob, ← hcount, Job.publishes] using hsent)
    | settled c succeeded =>
      have hmem := List.mem_of_getElem? hj
      have hok : succeeded = true := by simpa [Job.rejects] using hs.succeeds hmem c
      by_cases hc : c = getRedisChannel envelope.channelKey
      · have hsettling : 0 < (s.view c).settling :=
          List.countP_pos_iff.mpr ⟨_, hmem, by simp [Job.settles, hok]⟩
        have hsub := ChannelView.subscribed_of_settling (hs.phases c) hsettling
        exact .inr (hc ▸ hsub)
      · have hnone := hs.waiting_elsewhere he hc
        simp only [waiting] at hnone
        exact .inl (by simpa [sent, runJob, ← hcount, Job.publishes, hok, hnone] using hsent)
    | callback callback =>
      cases callback with
      | publish p =>
        have hsame : ({ s with jobs := s.jobs.eraseIdx index }.runJob (.callback (.publish p))).sent call =
            s.sent call := by
          simp [sent, runJob, ← hcount, Job.publishes, Callback.publishes, List.countP_cons]
          omega
        exact .inl (hsame ▸ hsent)
      | cleanup key =>
        have hsame : ({ s with jobs := s.jobs.eraseIdx index } : State P).sent call = s.sent call := by
          simp [sent, ← hcount, Job.publishes, Callback.publishes]
        have hqueues := sameQueues_cleanup { s with jobs := s.jobs.eraseIdx index } key
        rw [sent, hqueues.jobs, hqueues.publishes] at hsent
        rw [← hsame]
        exact .inl hsent

/-- The subscriber is registered for the call, which has reached it or will. -/
structure Awaits (s : State P) (u : SubscriberId) (envelope : NotificationEnvelope P) (call : ℕ) : Prop where
  emitted : s.emitted[call]? = some envelope
  member : u ∈ s.channels envelope.channelKey
  once : s.reach u envelope call = 1
  ready : 0 < s.sent call → s.redisSubscribedChannels (getRedisChannel envelope.channelKey) = true

theorem Awaits.step (hw : s.Awaits u envelope call) (hs : s.Sound) {a : Action P} (ha : a ≠ .finalize u) :
    (s.step a).Awaits u envelope call where
  emitted := emitted_getElem? hw.emitted a
  member := mem_step hw.member ha
  once := by
    rw [(hs.reach_step hw.emitted u a).2 hw.member, hw.once]
    intro hpublishes
    have hsub := hw.ready (Nat.lt_of_lt_of_le hpublishes (Nat.le_add_left _ _))
    exact (ChannelView.listening_of_subscribed (hs.phases _) hsub).1
  ready hsent := by
    obtain h | hsub := hs.sent_step hw.emitted hsent
    · exact hs.subscribed_step hw.member ha (hw.ready h)
    · exact hs.subscribed_step hw.member ha hsub

theorem holds_of_underway {channel : String} (h : 0 < s.underway channel call) :
    ∃ c p, s.Holds c p ∧ p.call = call := by
  have hcases : 0 < (s.waiting channel).countP (Callback.publishes call) ∨
      0 < s.jobs.countP (Job.publishes call) ∨ 0 < s.publishes.countP (fun x => x.2.call = call) ∨
      0 < s.replies.countP (Reply.carries call) := by
    unfold underway at h
    omega
  simp only [List.countP_pos_iff] at hcases
  obtain ⟨callback, hmem, hp⟩ | ⟨job, hmem, hp⟩ | ⟨⟨c, p⟩, hmem, hp⟩ | ⟨reply, hmem, hp⟩ := hcases
  · cases callback with
    | cleanup key => cases hp
    | publish p => exact ⟨channel, p, .inl hmem, by simpa [Callback.publishes] using hp⟩
  · cases job with
    | callback callback =>
      cases callback with
      | cleanup key => cases hp
      | publish p =>
        exact ⟨p.redisChannel, p, .inr (.inl ⟨rfl, hmem⟩),
          by simpa [Job.publishes, Callback.publishes] using hp⟩
    | _ => cases hp
  · exact ⟨c, p, .inr (.inr (.inl hmem)), by simpa using hp⟩
  · cases reply with
    | done command succeeded => cases hp
    | message c p => exact ⟨c, p, .inr (.inr (.inr hmem)), by simpa [Reply.carries] using hp⟩

theorem Sound.underway_fresh (hs : s.Sound) (channel : String) : s.underway channel s.emitted.length = 0 := by
  refine Nat.eq_zero_of_not_pos fun hpos => ?_
  obtain ⟨c, p, hholds, hcall⟩ := holds_of_underway hpos
  have hlt := (List.getElem?_eq_some_iff.mp (hs.traced c p hholds).1).1
  exact Nat.ne_of_lt hlt hcall

theorem Sound.deliveries_fresh (hs : s.Sound) (u : SubscriberId) : s.deliveries u s.emitted.length = 0 := by
  rw [deliveries, List.countP_eq_zero]
  intro d hd hto
  simp only [Delivery.isTo, Bool.and_eq_true, decide_eq_true_eq] at hto
  have hlt := (List.getElem?_eq_some_iff.mp (hs.addressed d hd).1).1
  exact Nat.ne_of_lt hlt hto.2

/-- An `emit` has one chance to reach each subscriber. -/
theorem Sound.reach_emit (hs : s.Sound) (u : SubscriberId) (envelope : NotificationEnvelope P) :
    (s.emit envelope).reach u envelope s.emitted.length = 1 := by
  have hunderway := hs.underway_fresh (getRedisChannel envelope.channelKey)
  have hdeliveries := hs.deliveries_fresh u
  rw [underway] at hunderway
  rw [deliveries] at hdeliveries
  obtain ⟨callbacks, hprom, h⟩ | ⟨-, h⟩ := emit_cases s envelope
  · rw [h]
    simp only [waiting, hprom, Option.getD_some] at hunderway
    simp [reach, underway, deliveries, waiting, attach, Callback.publishes]
    omega
  · rw [h]
    simp only [waiting] at hunderway
    simp [reach, underway, deliveries, waiting, Job.publishes, Callback.publishes]
    omega

theorem Awaits.emit (hs : s.Sound) (hu : u ∈ s.channels envelope.channelKey) :
    (s.emit envelope).Awaits u envelope s.emitted.length := by
  have hfresh : s.sent s.emitted.length = 0 := by
    have hunderway := hs.underway_fresh (getRedisChannel envelope.channelKey)
    unfold underway at hunderway
    unfold sent
    omega
  refine ⟨?_, ?_, hs.reach_emit u envelope, ?_⟩
  · obtain ⟨callbacks, -, h⟩ | ⟨-, h⟩ := emit_cases s envelope
    · simp [h, attach]
    · simp [h]
  · have hne : (Action.emit envelope : Action P) ≠ .finalize u := by simp
    exact mem_step hu hne
  · intro hsent
    obtain ⟨callbacks, -, h⟩ | ⟨hprom, h⟩ := emit_cases s envelope
    · rw [h] at hsent
      exact absurd hfresh (Nat.ne_of_gt hsent)
    · rw [h]
      obtain hsub | hpending := hs.served envelope.channelKey (List.ne_nil_of_mem hu)
      · exact hsub
      · simp [hprom] at hpending

end Awaits

section Queues

theorem advances_none {α : Type} {l : List α} {k : ℕ} (h : l[k]? = none) : Advances (some k) l l :=
  ⟨[], by rw [Option.elim_some, List.eraseIdx_of_length_le (List.getElem?_eq_none_iff.mp h), List.append_nil]⟩

/-- Where each action takes an item from the jobs, the commands, the publications, the replies. -/
def takesJob : Action P → Option ℕ
  | .run index => some index
  | _ => none

def takesCommand : Action P → Option ℕ
  | .execute _ => some 0
  | _ => none

def takesPublication : Action P → Option ℕ
  | .executePublish => some 0
  | _ => none

def takesReply : Action P → Option ℕ
  | .receive => some 0
  | _ => none

theorem jobs_advance (s : State P) (a : Action P) : Advances (takesJob a) s.jobs (s.step a).jobs := by
  cases a with
  | subscribe target targetId =>
    have h : SameQueues s (s.step (.subscribe target targetId)) := sameQueues_subscribe s target targetId
    rw [h.jobs]
    exact .refl _
  | finalize v =>
    have h : SameQueues s (s.step (.finalize v)) := sameQueues_finalize s v
    rw [h.jobs]
    exact .refl _
  | emit e =>
    show Advances none s.jobs (s.emit e).jobs
    obtain ⟨callbacks, -, h⟩ | ⟨-, h⟩ := emit_cases s e
    · rw [h]
      exact .refl _
    · rw [h]
      exact .append _ _
  | execute succeeds =>
    simp only [step, execute]
    split <;> exact .refl _
  | executePublish =>
    simp only [step, executePublish]
    split <;> exact .refl _
  | receive =>
    show Advances none s.jobs s.receive.jobs
    obtain ⟨-, h⟩ | ⟨c, succeeded, replies, -, h⟩ | ⟨c, succeeded, replies, -, h⟩ |
      ⟨c, p, replies, -, h⟩ := receive_cases s
    · rw [h]
      exact .refl _
    · rw [h]
      exact .append _ _
    · rw [h]
      exact .refl _
    · rw [h]
      unfold handleRedisMessage
      split
      · exact .refl _
      · split <;> exact .refl _
  | run index =>
    show Advances (some index) s.jobs (s.run index).jobs
    obtain ⟨hnone, h⟩ | ⟨job, hj, h⟩ := run_cases s index
    · rw [h]
      exact advances_none hnone
    rw [h]
    cases job with
    | subscribed c => exact ⟨_, rfl⟩
    | failed c => exact ⟨_, rfl⟩
    | settled c succeeded => exact ⟨_, rfl⟩
    | callback callback =>
      cases callback with
      | publish p => exact ⟨[], (List.append_nil _).symm⟩
      | cleanup key =>
        rw [(sameQueues_cleanup _ key).jobs]
        exact ⟨[], (List.append_nil _).symm⟩

theorem commands_cleanup (s : State P) (key : String) :
    Advances none s.commands (s.cleanupRedisSubscription key).commands := by
  obtain ⟨callbacks, -, h⟩ | ⟨-, -, h⟩ | ⟨-, -, h⟩ := cleanup_cases s key
  · rw [h]
    exact .refl _
  · rw [h]
    exact .append _ _
  · rw [h]
    exact .refl _

theorem commands_advance (s : State P) (a : Action P) :
    Advances (takesCommand a) s.commands (s.step a).commands := by
  cases a with
  | subscribe target targetId =>
    show Advances none s.commands (State.ensureRedisSubscription _ _).commands
    obtain ⟨-, h⟩ | ⟨-, -, h⟩ := ensure_cases _ (getChannelKey target targetId)
    · rw [h]
      exact .refl _
    · rw [h]
      exact .append _ _
  | finalize v =>
    show Advances none s.commands (s.finalize v).commands
    obtain ⟨h, -⟩ | ⟨target, targetId, -, ⟨-, h⟩ | ⟨-, h⟩⟩ := finalize_cases s v
    · rw [h]
      exact .refl _
    · rw [h]
      exact .refl _
    · rw [h]
      exact commands_cleanup _ _
  | emit e =>
    simp only [step, emit]
    split <;> exact .refl _
  | execute succeeds =>
    show Advances (some 0) s.commands (s.execute succeeds).commands
    obtain ⟨hnil, h⟩ | ⟨command, commands, listening, hc, h⟩ := execute_cases s succeeds
    · rw [h, hnil]
      exact .empty _
    · rw [h, hc]
      exact .tail _ _
  | executePublish =>
    simp only [step, executePublish]
    split <;> exact .refl _
  | receive =>
    simp only [step, receive, handleRedisMessage]
    split
    · exact .refl _
    · exact .refl _
    · exact .refl _
    · split
      · exact .refl _
      · split <;> exact .refl _
  | run index =>
    show Advances none s.commands (s.run index).commands
    obtain ⟨-, h⟩ | ⟨job, -, h⟩ := run_cases s index
    · rw [h]
      exact .refl _
    rw [h]
    cases job with
    | callback callback =>
      cases callback with
      | publish p => exact .refl _
      | cleanup key =>
        simp only [runJob]
        split
        · exact .refl _
        · exact commands_cleanup _ _
    | _ => exact .refl _

theorem publishes_advance (s : State P) (a : Action P) :
    Advances (takesPublication a) s.publishes (s.step a).publishes := by
  cases a with
  | subscribe target targetId =>
    have h : SameQueues s (s.step (.subscribe target targetId)) := sameQueues_subscribe s target targetId
    rw [h.publishes]
    exact .refl _
  | finalize v =>
    have h : SameQueues s (s.step (.finalize v)) := sameQueues_finalize s v
    rw [h.publishes]
    exact .refl _
  | emit e =>
    simp only [step, emit]
    split <;> exact .refl _
  | execute succeeds =>
    simp only [step, execute]
    split <;> exact .refl _
  | executePublish =>
    show Advances (some 0) s.publishes s.executePublish.publishes
    obtain ⟨hnil, h⟩ | ⟨c, p, publishes, hp, ⟨-, h⟩ | ⟨-, h⟩⟩ := executePublish_cases s
    · rw [h, hnil]
      exact .empty _
    · rw [h, hp]
      exact .tail _ _
    · rw [h, hp]
      exact .tail _ _
  | receive =>
    simp only [step, receive, handleRedisMessage]
    split
    · exact .refl _
    · exact .refl _
    · exact .refl _
    · split
      · exact .refl _
      · split <;> exact .refl _
  | run index =>
    show Advances none s.publishes (s.run index).publishes
    obtain ⟨-, h⟩ | ⟨job, -, h⟩ := run_cases s index
    · rw [h]
      exact .refl _
    rw [h]
    cases job with
    | callback callback =>
      cases callback with
      | publish p => exact .append _ _
      | cleanup key =>
        rw [(sameQueues_cleanup _ key).publishes]
        exact .refl _
    | _ => exact .refl _

theorem replies_advance (s : State P) (a : Action P) :
    Advances (takesReply a) s.replies (s.step a).replies := by
  cases a with
  | subscribe target targetId =>
    have h : SameQueues s (s.step (.subscribe target targetId)) := sameQueues_subscribe s target targetId
    rw [h.replies]
    exact .refl _
  | finalize v =>
    have h : SameQueues s (s.step (.finalize v)) := sameQueues_finalize s v
    rw [h.replies]
    exact .refl _
  | emit e =>
    simp only [step, emit]
    split <;> exact .refl _
  | execute succeeds =>
    show Advances none s.replies (s.execute succeeds).replies
    obtain ⟨-, h⟩ | ⟨command, commands, listening, -, h⟩ := execute_cases s succeeds
    · rw [h]
      exact .refl _
    · rw [h]
      exact .append _ _
  | executePublish =>
    show Advances none s.replies s.executePublish.replies
    obtain ⟨-, h⟩ | ⟨c, p, publishes, -, ⟨-, h⟩ | ⟨-, h⟩⟩ := executePublish_cases s
    · rw [h]
      exact .refl _
    · rw [h]
      exact .append _ _
    · rw [h]
      exact .refl _
  | receive =>
    show Advances (some 0) s.replies s.receive.replies
    obtain ⟨hnil, h⟩ | ⟨c, succeeded, replies, hr, h⟩ | ⟨c, succeeded, replies, hr, h⟩ |
      ⟨c, p, replies, hr, h⟩ := receive_cases s
    · rw [h, hnil]
      exact .empty _
    · rw [h, hr]
      exact .tail _ _
    · rw [h, hr]
      exact .tail _ _
    · rw [h, hr]
      unfold handleRedisMessage
      split
      · exact .tail _ _
      · split <;> exact .tail _ _
  | run index =>
    show Advances none s.replies (s.run index).replies
    obtain ⟨-, h⟩ | ⟨job, -, h⟩ := run_cases s index
    · rw [h]
      exact .refl _
    rw [h]
    cases job with
    | callback callback =>
      cases callback with
      | publish p => exact .refl _
      | cleanup key =>
        rw [(sameQueues_cleanup _ key).replies]
        exact .refl _
    | _ => exact .refl _

end Queues

end State

end NotificationStream

end NebLite
