import NebLite.Gateway.ChannelPhases

/-! Where a publication is on its way from `emit` to the subjects, and what holds of the
subscribers and of the publications in every state that the adapter reaches. -/

namespace NebLite

namespace NotificationStream

open Atomic

variable {P : Type}

section Keys

variable {target target' : NotificationTarget} {targetId targetId' channelKey channelKey' : String}

theorem getChannelKey_inj (h : getChannelKey target targetId = getChannelKey target' targetId') :
    target = target' ∧ targetId = targetId' := by
  have hl := congrArg String.toList h
  cases target <;> cases target' <;> simp [getChannelKey, targetText] at hl ⊢
  · exact String.toList_inj.mp hl
  · exact String.toList_inj.mp hl

theorem getChannelKey_isEmpty : (getChannelKey target targetId).isEmpty = false := by
  cases target <;> simp [getChannelKey, targetText]

@[simp] theorem extractChannelKey_getRedisChannel :
    extractChannelKey (getRedisChannel channelKey) = some channelKey := by
  simp [extractChannelKey, getRedisChannel, ← String.length_toList]

end Keys

def Publication.redisChannel (p : Publication P) : String := getRedisChannel p.envelope.channelKey

def Callback.publishes (call : ℕ) : Callback P → Bool
  | .publish p => p.call = call
  | .cleanup _ => false

def Job.publishes (call : ℕ) : Job P → Bool
  | .callback c => c.publishes call
  | _ => false

def Reply.carries (call : ℕ) : Reply P → Bool
  | .message _ p => p.call = call
  | .done _ _ => false

def Delivery.isTo (subscriber : SubscriberId) (call : ℕ) (d : Delivery P) : Bool :=
  d.subscriber = subscriber && d.call = call

namespace State

/-- The callbacks that wait for the pending SUBSCRIBE of a channel. -/
def waiting (s : State P) (channel : String) : List (Callback P) :=
  (s.redisSubscriptionPromises channel).getD []

/-- The publication waits at the channel, is due, is sent to Redis or comes back from it. -/
def Holds (s : State P) (channel : String) (p : Publication P) : Prop :=
  .publish p ∈ s.waiting channel ∨
    channel = p.redisChannel ∧ .callback (.publish p) ∈ s.jobs ∨
    (channel, p) ∈ s.publishes ∨ .message channel p ∈ s.replies

def underway (s : State P) (channel : String) (call : ℕ) : ℕ :=
  (s.waiting channel).countP (Callback.publishes call) + s.jobs.countP (Job.publishes call) +
    s.publishes.countP (fun x => x.2.call = call) + s.replies.countP (Reply.carries call)

def deliveries (s : State P) (subscriber : SubscriberId) (call : ℕ) : ℕ :=
  s.delivered.countP (Delivery.isTo subscriber call)

def Serves (s : State P) (channel : String) : Prop :=
  s.redisSubscribedChannels channel = true ∨ (s.redisSubscriptionPromises channel).isSome = true

/-- What every state reached satisfies while Redis executes every command. -/
structure Sound (s : State P) : Prop where
  phases : ∀ channel, s.view channel ∈ ChannelView.phases
  served : ∀ key, s.channels key ≠ [] → s.Serves (getRedisChannel key)
  nodup : ∀ key, (s.channels key).Nodup
  registered : ∀ key, ∀ u ∈ s.channels key,
    ∃ target targetId, s.subscriptions[u]? = some (target, targetId) ∧ key = getChannelKey target targetId
  traced : ∀ channel p, s.Holds channel p →
    s.emitted[p.call]? = some p.envelope ∧ channel = p.redisChannel
  addressed : ∀ d ∈ s.delivered, s.emitted[d.call]? = some d.message.data ∧
    d.message.type = d.message.data.event ∧
    s.subscriptions[d.subscriber]? = some (d.message.data.target, d.message.data.targetId)

variable {s t : State P} {channelKey key channel : String}

/-- The two states differ in what the adapter knows of its channels and asks of them, at most. -/
structure SameTraffic (s t : State P) : Prop where
  channels : t.channels = s.channels
  subscriptions : t.subscriptions = s.subscriptions
  emitted : t.emitted = s.emitted
  delivered : t.delivered = s.delivered
  jobs : t.jobs = s.jobs
  publishes : t.publishes = s.publishes
  replies : t.replies = s.replies
  listening : t.listening = s.listening
  waiting : ∀ channel, t.waiting channel = s.waiting channel ∨
    ∃ key, t.waiting channel = s.waiting channel ++ [.cleanup key]

theorem sameTraffic_ensure : SameTraffic s (s.ensureRedisSubscription channelKey) := by
  obtain ⟨-, h⟩ | ⟨-, hprom, h⟩ := ensure_cases s channelKey
  · rw [h]
    exact ⟨rfl, rfl, rfl, rfl, rfl, rfl, rfl, rfl, fun _ => .inl rfl⟩
  · rw [h]
    refine ⟨rfl, rfl, rfl, rfl, rfl, rfl, rfl, rfl, fun channel => .inl ?_⟩
    by_cases hc : channel = getRedisChannel channelKey
    · simp [waiting, hc, hprom]
    · simp [waiting, hc]

theorem sameTraffic_cleanup : SameTraffic s (s.cleanupRedisSubscription channelKey) := by
  obtain ⟨callbacks, hprom, h⟩ | ⟨-, -, h⟩ | ⟨-, -, h⟩ := cleanup_cases s channelKey
  · rw [h]
    refine ⟨rfl, rfl, rfl, rfl, rfl, rfl, rfl, rfl, fun channel => ?_⟩
    by_cases hc : channel = getRedisChannel channelKey
    · exact .inr ⟨channelKey, by simp [waiting, attach, hc, hprom]⟩
    · exact .inl (by simp [waiting, attach, hc])
  · rw [h]
    exact ⟨rfl, rfl, rfl, rfl, rfl, rfl, rfl, rfl, fun _ => .inl rfl⟩
  · rw [h]
    exact ⟨rfl, rfl, rfl, rfl, rfl, rfl, rfl, rfl, fun _ => .inl rfl⟩

theorem SameTraffic.holds (h : SameTraffic s t) {p : Publication P} : t.Holds channel p ↔ s.Holds channel p := by
  have hw : Callback.publish p ∈ t.waiting channel ↔ Callback.publish p ∈ s.waiting channel := by
    obtain h | ⟨key, h⟩ := h.waiting channel
    · rw [h]
    · simp [h]
  simp only [Holds, hw, h.jobs, h.publishes, h.replies]

theorem SameTraffic.underway (h : SameTraffic s t) (call : ℕ) : t.underway channel call = s.underway channel call := by
  have hw : (t.waiting channel).countP (Callback.publishes call) =
      (s.waiting channel).countP (Callback.publishes call) := by
    obtain h | ⟨key, h⟩ := h.waiting channel
    · rw [h]
    · simp [h, Callback.publishes]
  simp only [State.underway, hw, h.jobs, h.publishes, h.replies]

section Serves

theorem serves_ensure_self : (s.ensureRedisSubscription key).Serves (getRedisChannel key) := by
  obtain ⟨hserved, h⟩ | ⟨-, -, h⟩ := ensure_cases s key
  · rw [h]
    obtain hsub | ⟨callbacks, hprom⟩ := hserved
    · exact .inl hsub
    · exact .inr (by simp [hprom])
  · rw [h]
    exact .inr (by simp)

theorem Serves.ensure (hs : s.Serves channel) : (s.ensureRedisSubscription key).Serves channel := by
  by_cases hc : channel = getRedisChannel key
  · rw [hc]
    exact serves_ensure_self
  · obtain ⟨-, h⟩ | ⟨-, -, h⟩ := ensure_cases s key
    · rwa [h]
    · rw [h]
      simpa [Serves, hc] using hs

theorem Serves.cleanup (hs : s.Serves channel) (hne : channel ≠ getRedisChannel key) :
    (s.cleanupRedisSubscription key).Serves channel := by
  obtain ⟨callbacks, -, h⟩ | ⟨-, -, h⟩ | ⟨-, -, h⟩ := cleanup_cases s key
  · rw [h]
    simpa [Serves, attach, hne] using hs
  · rw [h]
    simpa [Serves, hne] using hs
  · rwa [h]

theorem Sound.succeeds (hs : s.Sound) {job : Job P} (hj : job ∈ s.jobs) (channel : String) :
    job.rejects channel = false := by
  have hfailures := ChannelView.failures_eq (hs.phases channel)
  simp only [view, Nat.add_eq_zero_iff, List.countP_eq_zero] at hfailures
  exact Bool.eq_false_iff.mpr (hfailures.2 job hj)

theorem Sound.served_finalize (hs : s.Sound) (u : SubscriberId) (key : String)
    (hkey : (s.finalize u).channels key ≠ []) : (s.finalize u).Serves (getRedisChannel key) := by
  obtain ⟨h, -⟩ | ⟨target, targetId, -, h⟩ := finalize_cases s u
  · rw [h] at hkey ⊢
    exact hs.served key hkey
  obtain ⟨hleft, h⟩ | ⟨hempty, h⟩ := h
  · rw [h] at hkey ⊢
    by_cases hk : key = getChannelKey target targetId
    · refine hs.served key fun he => hleft ?_
      rw [← hk, he, List.erase_nil]
    · exact hs.served key (by simpa [hk] using hkey)
  · rw [h, sameTraffic_cleanup.channels] at hkey
    rw [h]
    by_cases hk : key = getChannelKey target targetId
    · rw [hk] at hkey
      exact absurd hempty (by simpa using hkey)
    · refine Serves.cleanup ?_ fun he => hk (getRedisChannel_inj he)
      exact hs.served key (by simpa [hk] using hkey)

theorem Sound.served_run (hs : s.Sound) (index : ℕ) (key : String)
    (hkey : (s.run index).channels key ≠ []) : (s.run index).Serves (getRedisChannel key) := by
  obtain ⟨-, h⟩ | ⟨job, hj, h⟩ := run_cases s index
  · rw [h] at hkey ⊢
    exact hs.served key hkey
  rw [h] at hkey ⊢
  have hmem := List.mem_of_getElem? hj
  cases job with
  | subscribed c =>
    by_cases hc : getRedisChannel key = c
    · exact .inl (by simp [runJob, hc])
    · simpa [runJob, Serves, hc] using hs.served key hkey
  | failed c => simpa [Job.rejects] using hs.succeeds hmem c
  | settled c succeeded =>
    have hok : succeeded = true := by simpa [Job.rejects] using hs.succeeds hmem c
    by_cases hc : getRedisChannel key = c
    · have hsettling : 0 < (s.view c).settling :=
        List.countP_pos_iff.mpr ⟨_, hmem, by simp [Job.settles, hok]⟩
      have hsub := ChannelView.subscribed_of_settling (hs.phases c) hsettling
      exact .inl (by rw [hc]; exact hsub)
    · simpa [runJob, Serves, hc] using hs.served key hkey
  | callback callback =>
    cases callback with
    | publish publication => exact hs.served key hkey
    | cleanup k =>
      simp only [runJob] at hkey ⊢
      split at hkey
      next hpos =>
        rw [if_pos hpos]
        exact hs.served key hkey
      next hzero =>
        rw [if_neg hzero]
        rw [sameTraffic_cleanup.channels] at hkey
        refine Serves.cleanup (hs.served key hkey) fun he => hzero ?_
        rw [← getRedisChannel_inj he]
        exact List.length_pos_iff.mpr hkey

theorem served_handleRedisMessage {publication : Publication P} :
    (s.handleRedisMessage channel publication).channels = s.channels ∧
      (s.handleRedisMessage channel publication).Serves = s.Serves := by
  unfold handleRedisMessage
  split
  · exact ⟨rfl, rfl⟩
  · split
    · exact ⟨rfl, rfl⟩
    · exact ⟨rfl, rfl⟩

theorem Sound.served_step (hs : s.Sound) (a : Action P) (key : String)
    (hkey : (s.step a).channels key ≠ []) : (s.step a).Serves (getRedisChannel key) := by
  cases a with
  | subscribe target targetId =>
    by_cases hk : key = getChannelKey target targetId
    · rw [hk]
      exact serves_ensure_self
    · refine Serves.ensure (hs.served key ?_)
      simpa [step, subscribe, sameTraffic_ensure.channels, hk] using hkey
  | finalize u => exact hs.served_finalize u key hkey
  | emit envelope =>
    change (s.emit envelope).channels key ≠ [] at hkey
    show (s.emit envelope).Serves _
    obtain ⟨callbacks, -, h⟩ | ⟨-, h⟩ := emit_cases s envelope
    · rw [h] at hkey ⊢
      obtain hsub | hprom := hs.served key hkey
      · exact .inl hsub
      · refine .inr ?_
        by_cases hc : getRedisChannel key = getRedisChannel envelope.channelKey
        · simp [attach, hc]
        · simpa [attach, hc] using hprom
    · rw [h] at hkey ⊢
      exact hs.served key hkey
  | execute succeeds =>
    change (s.execute succeeds).channels key ≠ [] at hkey
    show (s.execute succeeds).Serves _
    obtain ⟨-, h⟩ | ⟨command, commands, listening, -, h⟩ := execute_cases s succeeds
    · rw [h] at hkey ⊢
      exact hs.served key hkey
    · rw [h] at hkey ⊢
      exact hs.served key hkey
  | executePublish =>
    change s.executePublish.channels key ≠ [] at hkey
    show s.executePublish.Serves _
    obtain ⟨-, h⟩ | ⟨c, publication, publishes, -, ⟨-, h⟩ | ⟨-, h⟩⟩ := executePublish_cases s
    · rw [h] at hkey ⊢
      exact hs.served key hkey
    · rw [h] at hkey ⊢
      exact hs.served key hkey
    · rw [h] at hkey ⊢
      exact hs.served key hkey
  | receive =>
    change s.receive.channels key ≠ [] at hkey
    show s.receive.Serves _
    obtain ⟨-, h⟩ | ⟨c, succeeded, replies, -, h⟩ | ⟨c, succeeded, replies, -, h⟩ |
      ⟨c, publication, replies, -, h⟩ := receive_cases s
    · rw [h] at hkey ⊢
      exact hs.served key hkey
    · rw [h] at hkey ⊢
      exact hs.served key hkey
    · rw [h] at hkey ⊢
      exact hs.served key hkey
    · rw [h, served_handleRedisMessage.1] at hkey
      rw [h, served_handleRedisMessage.2]
      exact hs.served key hkey
  | run index => exact hs.served_run index key hkey

end Serves

section Subscribers

theorem subscribers_handleRedisMessage {publication : Publication P} :
    (s.handleRedisMessage channel publication).subscriptions = s.subscriptions ∧
      (s.handleRedisMessage channel publication).channels = s.channels := by
  unfold handleRedisMessage
  split
  · exact ⟨rfl, rfl⟩
  · split <;> exact ⟨rfl, rfl⟩

theorem subscribers_runJob {job : Job P} :
    (s.runJob job).subscriptions = s.subscriptions ∧ (s.runJob job).channels = s.channels := by
  cases job with
  | callback callback =>
    cases callback with
    | publish publication => exact ⟨rfl, rfl⟩
    | cleanup key =>
      simp only [runJob]
      split
      · exact ⟨rfl, rfl⟩
      · exact ⟨sameTraffic_cleanup.subscriptions, sameTraffic_cleanup.channels⟩
  | _ => exact ⟨rfl, rfl⟩

/-- Only `subscribe` and `finalize` touch the subscribers. -/
theorem step_subscribers (s : State P) (a : Action P) :
    (∃ target targetId, a = .subscribe target targetId ∧
      (s.step a).subscriptions = s.subscriptions ++ [(target, targetId)] ∧
      (s.step a).channels = Function.update s.channels (getChannelKey target targetId)
        (s.channels (getChannelKey target targetId) ++ [s.subscriptions.length])) ∨
    (∃ u key, a = .finalize u ∧ (s.step a).subscriptions = s.subscriptions ∧
      (s.step a).channels = Function.update s.channels key ((s.channels key).erase u)) ∨
    ((s.step a).subscriptions = s.subscriptions ∧ (s.step a).channels = s.channels) := by
  cases a with
  | subscribe target targetId =>
    exact .inl ⟨target, targetId, rfl, sameTraffic_ensure.subscriptions, sameTraffic_ensure.channels⟩
  | finalize u =>
    simp only [step]
    obtain ⟨h, -⟩ | ⟨target, targetId, -, ⟨-, h⟩ | ⟨-, h⟩⟩ := finalize_cases s u
    · exact .inr (.inr (by rw [h]; exact ⟨rfl, rfl⟩))
    · exact .inr (.inl ⟨u, getChannelKey target targetId, rfl, by rw [h], by rw [h]⟩)
    · refine .inr (.inl ⟨u, getChannelKey target targetId, rfl, ?_, ?_⟩)
      · rw [h]
        exact sameTraffic_cleanup.subscriptions
      · rw [h]
        exact sameTraffic_cleanup.channels
  | emit envelope =>
    refine .inr (.inr ?_)
    simp only [step, emit]
    split <;> exact ⟨rfl, rfl⟩
  | execute succeeds =>
    refine .inr (.inr ?_)
    simp only [step, execute]
    split <;> exact ⟨rfl, rfl⟩
  | executePublish =>
    refine .inr (.inr ?_)
    simp only [step, executePublish]
    split <;> exact ⟨rfl, rfl⟩
  | receive =>
    refine .inr (.inr ?_)
    simp only [step, receive]
    split
    · exact ⟨rfl, rfl⟩
    · exact ⟨rfl, rfl⟩
    · exact ⟨rfl, rfl⟩
    · exact subscribers_handleRedisMessage
  | run index =>
    refine .inr (.inr ?_)
    simp only [step, run]
    split
    · exact ⟨rfl, rfl⟩
    · exact subscribers_runJob

theorem Sound.lt_of_mem (hs : s.Sound) {u : SubscriberId} (hu : u ∈ s.channels key) :
    u < s.subscriptions.length := by
  obtain ⟨target, targetId, h, -⟩ := hs.registered key u hu
  exact (List.getElem?_eq_some_iff.mp h).1

theorem Sound.nodup_step (hs : s.Sound) (a : Action P) (key : String) :
    ((s.step a).channels key).Nodup := by
  obtain ⟨target, targetId, -, -, h⟩ | ⟨u, k, -, -, h⟩ | ⟨-, h⟩ := step_subscribers s a
  · rw [h]
    by_cases hk : key = getChannelKey target targetId
    · have hnew : s.subscriptions.length ∉ s.channels key := fun hmem =>
        Nat.lt_irrefl _ (hs.lt_of_mem hmem)
      rw [← hk, Function.update_self, List.nodup_append]
      refine ⟨hs.nodup key, List.nodup_singleton _, fun v hv w hw he => hnew ?_⟩
      rw [← List.mem_singleton.mp hw, ← he]
      exact hv
    · simpa [hk] using hs.nodup key
  · rw [h]
    by_cases hk : key = k
    · simpa [hk] using (hs.nodup k).erase u
    · simpa [hk] using hs.nodup key
  · rw [h]
    exact hs.nodup key

theorem Sound.registered_step (hs : s.Sound) (a : Action P) (key : String) (u : SubscriberId)
    (hu : u ∈ (s.step a).channels key) : ∃ target targetId,
      (s.step a).subscriptions[u]? = some (target, targetId) ∧ key = getChannelKey target targetId := by
  obtain ⟨target, targetId, -, hsub, h⟩ | ⟨v, k, -, hsub, h⟩ | ⟨hsub, h⟩ := step_subscribers s a
  · have hold : ∀ v ∈ s.channels key, ∃ target targetId,
        (s.step a).subscriptions[v]? = some (target, targetId) ∧ key = getChannelKey target targetId := by
      intro v hv
      obtain ⟨t, i, hv', hkey⟩ := hs.registered key v hv
      refine ⟨t, i, ?_, hkey⟩
      rw [hsub, List.getElem?_append_left (hs.lt_of_mem hv)]
      exact hv'
    rw [h] at hu
    by_cases hk : key = getChannelKey target targetId
    · rw [← hk, Function.update_self, List.mem_append, List.mem_singleton] at hu
      obtain hu | rfl := hu
      · exact hold u hu
      · exact ⟨target, targetId, by simp [hsub], hk⟩
    · rw [Function.update_of_ne hk] at hu
      exact hold u hu
  · rw [hsub]
    rw [h] at hu
    by_cases hk : key = k
    · rw [hk, Function.update_self] at hu
      rw [hk]
      exact hs.registered k u (List.mem_of_mem_erase hu)
    · rw [Function.update_of_ne hk] at hu
      exact hs.registered key u hu
  · rw [hsub]
    rw [h] at hu
    exact hs.registered key u hu

/-- A subscriber stays registered until its own `finalize`. -/
theorem mem_step {u : SubscriberId} (hu : u ∈ s.channels key) {a : Action P} (ha : a ≠ .finalize u) :
    u ∈ (s.step a).channels key := by
  obtain ⟨target, targetId, -, -, h⟩ | ⟨v, k, rfl, -, h⟩ | ⟨-, h⟩ := step_subscribers s a
  · rw [h]
    by_cases hk : key = getChannelKey target targetId
    · simp [← hk, hu]
    · simpa [hk] using hu
  · rw [h]
    by_cases hk : key = k
    · have hne : u ≠ v := fun he => ha (by rw [he])
      rw [hk, Function.update_self]
      exact (List.mem_erase_of_ne hne).mpr (hk ▸ hu)
    · simpa [hk] using hu
  · rwa [h]

theorem subscriptions_step {u : SubscriberId} {x : NotificationTarget × String}
    (h : s.subscriptions[u]? = some x) (a : Action P) : (s.step a).subscriptions[u]? = some x := by
  obtain ⟨target, targetId, -, hsub, -⟩ | ⟨v, k, -, hsub, -⟩ | ⟨hsub, -⟩ := step_subscribers s a
  · rw [hsub, List.getElem?_append_left (List.getElem?_eq_some_iff.mp h).1]
    exact h
  · rwa [hsub]
  · rwa [hsub]

end Subscribers

section Publications

/-- A job emits and delivers nothing itself. -/
theorem run_traffic (s : State P) (index : ℕ) :
    (s.run index).emitted = s.emitted ∧ (s.run index).delivered = s.delivered := by
  obtain ⟨-, h⟩ | ⟨job, -, h⟩ := run_cases s index
  · rw [h]
    exact ⟨rfl, rfl⟩
  rw [h]
  cases job with
  | callback callback =>
    cases callback with
    | publish publication => exact ⟨rfl, rfl⟩
    | cleanup key =>
      simp only [runJob]
      split
      · exact ⟨rfl, rfl⟩
      · exact ⟨sameTraffic_cleanup.emitted, sameTraffic_cleanup.delivered⟩
  | _ => exact ⟨rfl, rfl⟩

theorem emitted_step (s : State P) (a : Action P) :
    (∃ envelope, a = .emit envelope ∧ (s.step a).emitted = s.emitted ++ [envelope]) ∨
      (s.step a).emitted = s.emitted := by
  cases a with
  | subscribe target targetId => exact .inr sameTraffic_ensure.emitted
  | emit envelope =>
    refine .inl ⟨envelope, rfl, ?_⟩
    simp only [step, emit]
    split <;> rfl
  | finalize u =>
    refine .inr ?_
    simp only [step]
    obtain ⟨h, -⟩ | ⟨target, targetId, -, ⟨-, h⟩ | ⟨-, h⟩⟩ := finalize_cases s u
    · rw [h]
    · rw [h]
    · rw [h]
      exact sameTraffic_cleanup.emitted
  | execute succeeds =>
    refine .inr ?_
    simp only [step, execute]
    split <;> rfl
  | executePublish =>
    refine .inr ?_
    simp only [step, executePublish]
    split <;> rfl
  | receive =>
    refine .inr ?_
    simp only [step, receive, handleRedisMessage]
    split
    · rfl
    · rfl
    · rfl
    · split
      · rfl
      · split <;> rfl
  | run index => exact .inr (run_traffic s index).1

theorem emitted_getElem? {call : ℕ} {envelope : NotificationEnvelope P}
    (h : s.emitted[call]? = some envelope) (a : Action P) : (s.step a).emitted[call]? = some envelope := by
  obtain ⟨e, -, he⟩ | he := emitted_step s a
  · rw [he, List.getElem?_append_left (List.getElem?_eq_some_iff.mp h).1]
    exact h
  · rwa [he]

theorem traffic_subscribe (s : State P) (target : NotificationTarget) (targetId channel : String) :
    (∀ p, (s.subscribe target targetId).Holds channel p ↔ s.Holds channel p) ∧
      (∀ call, (s.subscribe target targetId).underway channel call = s.underway channel call) ∧
      (s.subscribe target targetId).delivered = s.delivered :=
  ⟨fun _ => sameTraffic_ensure.holds, sameTraffic_ensure.underway, sameTraffic_ensure.delivered⟩

theorem traffic_finalize (s : State P) (u : SubscriberId) (channel : String) :
    (∀ p, (s.finalize u).Holds channel p ↔ s.Holds channel p) ∧
      (∀ call, (s.finalize u).underway channel call = s.underway channel call) ∧
      (s.finalize u).delivered = s.delivered := by
  obtain ⟨h, -⟩ | ⟨target, targetId, -, ⟨-, h⟩ | ⟨-, h⟩⟩ := finalize_cases s u
  · rw [h]
    exact ⟨fun _ => Iff.rfl, fun _ => rfl, rfl⟩
  · rw [h]
    exact ⟨fun _ => Iff.rfl, fun _ => rfl, rfl⟩
  · rw [h]
    exact ⟨fun _ => sameTraffic_cleanup.holds, sameTraffic_cleanup.underway, sameTraffic_cleanup.delivered⟩

theorem handleRedisMessage_redisChannel (s : State P) (p : Publication P) :
    s.handleRedisMessage p.redisChannel p =
      { s with
        delivered := s.delivered ++ (s.channels p.envelope.channelKey).map fun subscriber =>
          ⟨subscriber, p.call, ⟨p.envelope.event, p.envelope⟩⟩ } := by
  unfold handleRedisMessage Publication.redisChannel
  rw [extractChannelKey_getRedisChannel]
  show (if (getChannelKey _ _).isEmpty = true then _ else _) = _
  rw [getChannelKey_isEmpty]
  rfl

/-- Publications come from `emit` only. -/
theorem holds_step (ht : ∀ channel p, s.Holds channel p → channel = p.redisChannel) {a : Action P}
    {p : Publication P} (h : (s.step a).Holds channel p) :
    s.Holds channel p ∨
      a = .emit p.envelope ∧ p.call = s.emitted.length ∧ channel = p.redisChannel := by
  cases a with
  | subscribe target targetId => exact .inl (((traffic_subscribe s target targetId channel).1 p).mp h)
  | finalize u => exact .inl (((traffic_finalize s u channel).1 p).mp h)
  | emit envelope =>
    change (s.emit envelope).Holds channel p at h
    obtain ⟨callbacks, hprom, he⟩ | ⟨-, he⟩ := emit_cases s envelope
    · rw [he] at h
      obtain h | ⟨hc, h⟩ | h | h := h
      · by_cases hc : channel = getRedisChannel envelope.channelKey
        · simp [waiting, attach, hc] at h
          obtain h | rfl := h
          · exact .inl (.inl (by simpa [waiting, hc, hprom] using h))
          · exact .inr ⟨rfl, rfl, hc⟩
        · simp [waiting, attach, hc] at h
          exact .inl (.inl h)
      · exact .inl (.inr (.inl ⟨hc, h⟩))
      · exact .inl (.inr (.inr (.inl h)))
      · exact .inl (.inr (.inr (.inr h)))
    · rw [he] at h
      obtain h | ⟨hc, h⟩ | h | h := h
      · exact .inl (.inl h)
      · simp at h
        obtain h | rfl := h
        · exact .inl (.inr (.inl ⟨hc, h⟩))
        · exact .inr ⟨rfl, rfl, hc⟩
      · exact .inl (.inr (.inr (.inl h)))
      · exact .inl (.inr (.inr (.inr h)))
  | execute succeeds =>
    refine .inl ?_
    change (s.execute succeeds).Holds channel p at h
    obtain ⟨-, he⟩ | ⟨command, commands, listening, -, he⟩ := execute_cases s succeeds
    · rwa [he] at h
    · rw [he] at h
      simpa [Holds, waiting] using h
  | executePublish =>
    refine .inl ?_
    change s.executePublish.Holds channel p at h
    obtain ⟨-, he⟩ | ⟨c, publication, publishes, hp, ⟨-, he⟩ | ⟨-, he⟩⟩ := executePublish_cases s
    · rwa [he] at h
    · rw [he] at h
      simp only [Holds, waiting, hp, List.mem_append, List.mem_cons, List.not_mem_nil, or_false, Reply.message.injEq, Prod.mk.injEq] at h ⊢
      tauto
    · rw [he] at h
      simp only [Holds, waiting, hp, List.mem_cons] at h ⊢
      tauto
  | receive =>
    refine .inl ?_
    change s.receive.Holds channel p at h
    obtain ⟨-, he⟩ | ⟨c, succeeded, replies, hr, he⟩ | ⟨c, succeeded, replies, hr, he⟩ |
      ⟨c, publication, replies, hr, he⟩ := receive_cases s
    · rwa [he] at h
    · rw [he] at h
      cases succeeded <;> simpa [Holds, waiting, hr] using h
    · rw [he] at h
      simpa [Holds, waiting, hr] using h
    · have hc := ht c publication (.inr (.inr (.inr (by simp [hr]))))
      rw [he, hc, handleRedisMessage_redisChannel] at h
      simp only [Holds, waiting, hr, List.mem_cons] at h ⊢
      tauto
  | run index =>
    refine .inl ?_
    change (s.run index).Holds channel p at h
    obtain ⟨-, he⟩ | ⟨job, hj, he⟩ := run_cases s index
    · rwa [he] at h
    have hmem := List.mem_of_getElem? hj
    have hrest : ∀ job, job ∈ s.jobs.eraseIdx index → job ∈ s.jobs := fun _ =>
      List.mem_of_mem_eraseIdx
    have hleft : ({ s with jobs := s.jobs.eraseIdx index } : State P).Holds channel p → s.Holds channel p := by
      rintro (h | ⟨hc, h⟩ | h)
      · exact .inl h
      · exact .inr (.inl ⟨hc, hrest _ h⟩)
      · exact .inr (.inr h)
    rw [he] at h
    cases job with
    | subscribed c => exact hleft (by simpa [Holds, waiting, runJob] using h)
    | failed c => exact hleft (by simpa [Holds, waiting, runJob] using h)
    | settled c succeeded =>
      obtain h | ⟨hc, h⟩ | h := h
      · by_cases he : channel = c
        · simp [runJob, waiting, he] at h
        · exact .inl (by simpa [runJob, waiting, he] using h)
      · simp only [runJob, List.mem_append, List.mem_map, List.mem_filter, Job.callback.injEq] at h
        obtain h | ⟨callback, ⟨h, -⟩, rfl⟩ := h
        · exact .inr (.inl ⟨hc, hrest _ h⟩)
        · have hw : s.Holds c p := .inl h
          rw [hc, ← ht c p hw]
          exact hw
      · exact .inr (.inr h)
    | callback callback =>
      cases callback with
      | publish publication =>
        obtain h | ⟨hc, h⟩ | h | h := h
        · exact .inl h
        · exact .inr (.inl ⟨hc, hrest _ h⟩)
        · simp only [runJob, List.mem_append, List.mem_singleton, Prod.mk.injEq] at h
          obtain h | ⟨hc, rfl⟩ := h
          · exact .inr (.inr (.inl h))
          · exact .inr (.inl ⟨hc, hmem⟩)
        · exact .inr (.inr (.inr h))
      | cleanup key =>
        simp only [runJob] at h
        split at h
        · exact hleft h
        · exact hleft (sameTraffic_cleanup.holds.mp h)

theorem Sound.traced_step (hs : s.Sound) (a : Action P) (channel : String) (p : Publication P)
    (h : (s.step a).Holds channel p) :
    (s.step a).emitted[p.call]? = some p.envelope ∧ channel = p.redisChannel := by
  obtain h | ⟨rfl, hcall, hc⟩ := holds_step (fun c q hq => (hs.traced c q hq).2) h
  · obtain ⟨he, hc⟩ := hs.traced channel p h
    exact ⟨emitted_getElem? he a, hc⟩
  · refine ⟨?_, hc⟩
    obtain ⟨e, hae, he⟩ | he := emitted_step s (.emit p.envelope)
    · cases hae
      rw [he, hcall, List.getElem?_concat_length]
    · have hlength := congrArg List.length he
      simp only [step, emit] at hlength
      split at hlength <;> simp [attach] at hlength

/-- A step delivers nothing, or the message that arrives, to those who are registered for it. -/
theorem Sound.delivered_step (hs : s.Sound) (a : Action P) :
    (s.step a).delivered = s.delivered ∨
    ∃ p replies, a = .receive ∧ s.replies = .message p.redisChannel p :: replies ∧
      (s.step a).delivered = s.delivered ++ (s.channels p.envelope.channelKey).map fun subscriber =>
        ⟨subscriber, p.call, ⟨p.envelope.event, p.envelope⟩⟩ := by
  cases a with
  | subscribe target targetId => exact .inl (traffic_subscribe s target targetId "").2.2
  | finalize u => exact .inl (traffic_finalize s u "").2.2
  | emit envelope =>
    refine .inl ?_
    simp only [step, emit]
    split <;> rfl
  | execute succeeds =>
    refine .inl ?_
    simp only [step, execute]
    split <;> rfl
  | executePublish =>
    refine .inl ?_
    simp only [step, executePublish]
    split <;> rfl
  | receive =>
    show s.receive.delivered = _ ∨ ∃ _ _, _ ∧ _ ∧ s.receive.delivered = _
    obtain ⟨-, he⟩ | ⟨c, succeeded, replies, hr, he⟩ | ⟨c, succeeded, replies, hr, he⟩ |
      ⟨c, p, replies, hr, he⟩ := receive_cases s
    · exact .inl (by rw [he])
    · exact .inl (by rw [he])
    · exact .inl (by rw [he])
    · obtain ⟨-, rfl⟩ := hs.traced c p (.inr (.inr (.inr (by simp [hr]))))
      exact .inr ⟨p, replies, rfl, hr, by rw [he, handleRedisMessage_redisChannel]⟩
  | run index => exact .inl (run_traffic s index).2

theorem Sound.addressed_step (hs : s.Sound) (a : Action P) (d : Delivery P)
    (hd : d ∈ (s.step a).delivered) : (s.step a).emitted[d.call]? = some d.message.data ∧
      d.message.type = d.message.data.event ∧
      (s.step a).subscriptions[d.subscriber]? = some (d.message.data.target, d.message.data.targetId) := by
  have hold : d ∈ s.delivered → (s.step a).emitted[d.call]? = some d.message.data ∧
      d.message.type = d.message.data.event ∧
      (s.step a).subscriptions[d.subscriber]? = some (d.message.data.target, d.message.data.targetId) := by
    intro hd
    obtain ⟨he, ht, hu⟩ := hs.addressed d hd
    exact ⟨emitted_getElem? he a, ht, subscriptions_step hu a⟩
  obtain h | ⟨p, replies, rfl, hr, h⟩ := hs.delivered_step a
  · exact hold (h ▸ hd)
  · rw [h, List.mem_append, List.mem_map] at hd
    obtain hd | ⟨u, hu, rfl⟩ := hd
    · exact hold hd
    · obtain ⟨he, -⟩ := hs.traced p.redisChannel p (.inr (.inr (.inr (by simp [hr]))))
      obtain ⟨target, targetId, hsub, hkey⟩ := hs.registered _ u hu
      obtain ⟨rfl, rfl⟩ := getChannelKey_inj hkey
      exact ⟨emitted_getElem? he _, rfl, subscriptions_step hsub _⟩

end Publications

theorem Sound.initial : (State.initial : State P).Sound where
  phases _ := by simp [view, State.initial, ChannelView.phases, ChannelView.idle]
  served _ h := absurd rfl h
  nodup _ := List.nodup_nil
  registered _ u hu := absurd hu List.not_mem_nil
  traced channel p h := by simp [Holds, waiting, State.initial] at h
  addressed d hd := absurd hd List.not_mem_nil

theorem Sound.step (hs : s.Sound) {a : Action P} (ha : a.Succeeds) : (s.step a).Sound where
  phases channel := view_step_mem (hs.phases channel) ha
  served := hs.served_step a
  nodup := hs.nodup_step a
  registered := hs.registered_step a
  traced := hs.traced_step a
  addressed := hs.addressed_step a

end State

end NotificationStream

end NebLite
