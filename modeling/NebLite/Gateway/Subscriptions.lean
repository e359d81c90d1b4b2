import NebLite.Gateway.Publications

/-! The bookkeeping of Redis subscriptions while every command succeeds: the channels that Redis
listens to, those that the adapter counts as subscribed, and those with a client. -/

namespace NebLite

namespace NotificationStream

open Atomic

variable {P : Type}

namespace State

/-- A cleanup of the channel is due, or waits for the SUBSCRIBE. -/
def Leaving (s : State P) (key : String) : Prop :=
  .cleanup key ∈ s.waiting (getRedisChannel key) ∨ .callback (.cleanup key) ∈ s.jobs

/-- A channel that the adapter keeps has a client, or is left. -/
def Tidy (s : State P) : Prop :=
  ∀ channel, s.Serves channel → ∃ key, channel = getRedisChannel key ∧ (s.channels key ≠ [] ∨ s.Leaving key)

variable {s t : State P} {key channel : String}

theorem Tidy.mono (h : s.Tidy) (hserves : ∀ channel, t.Serves channel → s.Serves channel)
    (hkept : ∀ key, t.Serves (getRedisChannel key) → s.channels key ≠ [] ∨ s.Leaving key →
      t.channels key ≠ [] ∨ t.Leaving key) : t.Tidy := by
  intro channel hc
  obtain ⟨key, rfl, hkey⟩ := h channel (hserves channel hc)
  exact ⟨key, rfl, hkept key hc hkey⟩

theorem Tidy.ensure (h : s.Tidy) (hkey : s.channels key ≠ []) : (s.ensureRedisSubscription key).Tidy := by
  obtain ⟨-, he⟩ | ⟨-, hprom, he⟩ := ensure_cases s key
  · rwa [he]
  · intro channel hc
    by_cases hchannel : channel = getRedisChannel key
    · refine ⟨key, hchannel, .inl ?_⟩
      rwa [sameTraffic_ensure.channels]
    · have hserves : s.Serves channel := by
        rw [he] at hc
        simpa [Serves, hchannel] using hc
      obtain ⟨k, rfl, hk⟩ := h channel hserves
      refine ⟨k, rfl, ?_⟩
      rw [he]
      simpa [Leaving, waiting, hchannel] using hk

/-- A cleanup leaves its channel, now or after the SUBSCRIBE. -/
theorem Tidy.cleanup (h : ∀ channel, channel ≠ getRedisChannel key → s.Serves channel →
      ∃ k, channel = getRedisChannel k ∧ (s.channels k ≠ [] ∨ s.Leaving k)) :
    (s.cleanupRedisSubscription key).Tidy := by
  intro channel hc
  by_cases hchannel : channel = getRedisChannel key
  · obtain ⟨callbacks, hprom, he⟩ | ⟨hprom, -, he⟩ | ⟨hprom, hsub, he⟩ := cleanup_cases s key
    · refine ⟨key, hchannel, .inr (.inl ?_)⟩
      rw [he]
      simp [waiting, attach]
    · rw [he] at hc
      simp [Serves, hchannel, hprom] at hc
    · rw [he] at hc
      simp [Serves, hchannel, hprom, hsub] at hc
  · have hserves : s.Serves channel := by
      obtain ⟨callbacks, -, he⟩ | ⟨-, -, he⟩ | ⟨-, -, he⟩ := cleanup_cases s key
      · rw [he] at hc
        simpa [Serves, attach, hchannel] using hc
      · rw [he] at hc
        simpa [Serves, hchannel] using hc
      · rwa [he] at hc
    obtain ⟨k, rfl, hk⟩ := h channel hchannel hserves
    refine ⟨k, rfl, hk.imp (fun hk => ?_) fun hk => ?_⟩
    · rwa [sameTraffic_cleanup.channels]
    · unfold Leaving at hk ⊢
      rw [sameTraffic_cleanup.jobs]
      refine hk.imp_left fun hk => ?_
      have hsame : SameTraffic s (s.cleanupRedisSubscription key) := sameTraffic_cleanup
      obtain hw | ⟨k', hw⟩ := hsame.waiting (getRedisChannel k)
      · rwa [hw]
      · rw [hw]
        exact List.mem_append_left _ hk

theorem Tidy.subscribe (h : s.Tidy) (target : NotificationTarget) (targetId : String) :
    (s.subscribe target targetId).Tidy := by
  refine Tidy.ensure (h.mono (fun _ hc => hc) fun k _ hk => ?_) (by simp)
  by_cases hkey : k = getChannelKey target targetId
  · exact .inl (by simp [hkey])
  · simpa [Leaving, waiting, hkey] using hk

theorem Tidy.finalize (h : s.Tidy) (u : SubscriberId) : (s.finalize u).Tidy := by
  obtain ⟨he, -⟩ | ⟨target, targetId, -, ⟨hleft, he⟩ | ⟨hempty, he⟩⟩ := finalize_cases s u
  · rwa [he]
  · rw [he]
    refine h.mono (fun _ hc => hc) fun k _ hk => ?_
    by_cases hkey : k = getChannelKey target targetId
    · exact .inl (by simpa [hkey] using hleft)
    · simpa [Leaving, waiting, hkey] using hk
  · rw [he]
    refine Tidy.cleanup fun channel hne hc => ?_
    obtain ⟨k, rfl, hk⟩ := h channel hc
    have hkey : k ≠ getChannelKey target targetId := fun he => hne (congrArg getRedisChannel he)
    exact ⟨k, rfl, by simpa [Leaving, waiting, hkey] using hk⟩

theorem Tidy.emit (h : s.Tidy) (envelope : NotificationEnvelope P) : (s.emit envelope).Tidy := by
  obtain ⟨callbacks, hprom, he⟩ | ⟨-, he⟩ := emit_cases s envelope
  · rw [he]
    refine h.mono (fun channel hc => ?_) fun k _ hk => hk.imp_right fun hk => hk.imp_left fun hk => ?_
    · by_cases hchannel : channel = getRedisChannel envelope.channelKey
      · exact .inr (by simp [hchannel, hprom])
      · simpa [Serves, attach, hchannel] using hc
    · by_cases hchannel : getRedisChannel k = getRedisChannel envelope.channelKey
      · simpa [waiting, attach, hchannel, hprom] using hk
      · simpa [waiting, attach, hchannel] using hk
  · rw [he]
    refine h.mono (fun _ hc => hc) fun k _ hk => hk.imp_right fun hk => hk.imp_right fun hk => ?_
    exact List.mem_append_left _ hk

theorem Tidy.execute (h : s.Tidy) (succeeds : Bool) : (s.execute succeeds).Tidy := by
  obtain ⟨-, he⟩ | ⟨command, commands, listening, -, he⟩ := execute_cases s succeeds
  · rwa [he]
  · rw [he]
    exact h.mono (fun _ hc => hc) fun _ _ hk => hk

theorem Tidy.executePublish (h : s.Tidy) : s.executePublish.Tidy := by
  obtain ⟨-, he⟩ | ⟨c, publication, publishes, -, ⟨-, he⟩ | ⟨-, he⟩⟩ := executePublish_cases s
  · rwa [he]
  · rw [he]
    exact h.mono (fun _ hc => hc) fun _ _ hk => hk
  · rw [he]
    exact h.mono (fun _ hc => hc) fun _ _ hk => hk

theorem Tidy.receive (h : s.Tidy) : s.receive.Tidy := by
  obtain ⟨-, he⟩ | ⟨c, succeeded, replies, -, he⟩ | ⟨c, succeeded, replies, -, he⟩ |
    ⟨c, publication, replies, -, he⟩ := receive_cases s
  · rwa [he]
  · rw [he]
    refine h.mono (fun _ hc => hc) fun k _ hk => hk.imp_right fun hk => hk.imp_right fun hk => ?_
    exact List.mem_append_left _ hk
  · rw [he]
    exact h.mono (fun _ hc => hc) fun _ _ hk => hk
  · rw [he]
    unfold handleRedisMessage
    split
    · exact h.mono (fun _ hc => hc) fun _ _ hk => hk
    · split
      · exact h.mono (fun _ hc => hc) fun _ _ hk => hk
      · exact h.mono (fun _ hc => hc) fun _ _ hk => hk

theorem Sound.tidy_run (hs : s.Sound) (h : s.Tidy) (index : ℕ) : (s.run index).Tidy := by
  obtain ⟨-, he⟩ | ⟨job, hj, he⟩ := run_cases s index
  · rwa [he]
  have hmem := List.mem_of_getElem? hj
  have hother {x : Job P} (hx : x ∈ s.jobs) (hne : x ≠ job) : x ∈ s.jobs.eraseIdx index :=
    mem_eraseIdx_of_ne hj hx hne
  rw [he]
  cases job with
  | subscribed c =>
    refine h.mono (fun channel hc => ?_) fun k _ hk => hk.imp_right fun hk => hk.imp_right fun hk => ?_
    · by_cases hchannel : channel = c
      · have hresolved : 0 < (s.view channel).resolved :=
          List.countP_pos_iff.mpr ⟨_, hmem, by simp [Job.fulfills, hchannel]⟩
        exact .inr (ChannelView.pending_of_resolved (hs.phases channel) hresolved)
      · simpa [runJob, Serves, hchannel] using hc
    · exact List.mem_append_left _ (hother hk (by simp))
  | failed c => simpa [Job.rejects] using hs.succeeds hmem c
  | settled c succeeded =>
    have hok : succeeded = true := by simpa [Job.rejects] using hs.succeeds hmem c
    refine h.mono (fun channel hc => ?_) fun k _ hk => hk.imp_right ?_
    · by_cases hchannel : channel = c
      · exact .inl (by simpa [runJob, Serves, hchannel] using hc)
      · simpa [runJob, Serves, hchannel] using hc
    · rintro (hk | hk)
      · by_cases hchannel : getRedisChannel k = c
        · refine .inr (List.mem_append_right _ ?_)
          simpa [hok, waiting, hchannel] using hk
        · exact .inl (by simpa [runJob, waiting, hchannel] using hk)
      · exact .inr (List.mem_append_left _ (hother hk (by simp)))
  | callback callback =>
    cases callback with
    | publish publication =>
      exact h.mono (fun _ hc => hc) fun k _ hk => hk.imp_right fun hk => hk.imp_right fun hk => hother hk (by simp)
    | cleanup key =>
      have hkept {k : String} (hne : k ≠ key) (hk : s.channels k ≠ [] ∨ s.Leaving k) :
          s.channels k ≠ [] ∨ ({ s with jobs := s.jobs.eraseIdx index } : State P).Leaving k :=
        hk.imp_right fun hk => hk.imp_right fun hk => hother hk (by simp [hne])
      simp only [runJob]
      split
      · next hclients =>
        refine h.mono (fun _ hc => hc) fun k _ hk => ?_
        by_cases hkey : k = key
        · exact .inl (hkey ▸ List.length_pos_iff.mp hclients)
        · exact hkept hkey hk
      · refine Tidy.cleanup fun channel hne hc => ?_
        obtain ⟨k, rfl, hk⟩ := h channel hc
        exact ⟨k, rfl, hkept (fun he => hne (congrArg getRedisChannel he)) hk⟩

theorem Tidy.initial : (State.initial : State P).Tidy := by
  rintro channel (hc | hc) <;> cases hc

theorem Sound.tidy_step (hs : s.Sound) (h : s.Tidy) (a : Action P) : (s.step a).Tidy := by
  cases a with
  | subscribe target targetId => exact h.subscribe target targetId
  | finalize u => exact h.finalize u
  | emit envelope => exact h.emit envelope
  | execute succeeds => exact h.execute succeeds
  | executePublish => exact h.executePublish
  | receive => exact h.receive
  | run index => exact hs.tidy_run h index

/-- No promise is pending but those of emits. -/
structure Quiescent (s : State P) : Prop where
  commands : s.commands = []
  replies : ∀ command succeeded, .done command succeeded ∉ s.replies
  jobs : ∀ job ∈ s.jobs, ∃ publication, job = .callback (.publish publication)

/-- The SUBSCRIBE commands of the channel whose promise is not settled. -/
def inFlight (s : State P) (channel : String) : ℕ :=
  (s.commands.filterMap (Command.on channel)).count true +
    (s.replies.countP (Reply.answers channel true) + s.replies.countP (Reply.answers channel false)) +
    (s.jobs.countP (Job.fulfills channel) + s.jobs.countP (Job.settles channel) +
      s.jobs.countP (Job.rejects channel))

theorem Sound.inFlight_le (hs : s.Sound) (channel : String) : s.inFlight channel ≤ 1 := by
  have hall : ∀ v ∈ ChannelView.phases,
      v.queue.count true + v.accepted + v.resolved + v.settling + v.failures ≤ 1 := by decide
  have hle := hall _ (hs.phases channel)
  simp only [view] at hle
  unfold inFlight
  omega

/-- With nothing pending, Redis listens to what the adapter counts as subscribed. -/
theorem Sound.listening_eq (hs : s.Sound) (hq : s.Quiescent) (channel : String) :
    s.listening channel = s.redisSubscribedChannels channel ∧
      (s.redisSubscriptionPromises channel).isSome = false := by
  have hall : ∀ v ∈ ChannelView.phases, v.queue = [] → v.accepted = 0 → v.resolved = 0 → v.settling = 0 →
      v.listening = v.subscribed ∧ v.pending = false := by decide
  have hjobs {p : Job P → Bool} (hp : ∀ publication, p (.callback (.publish publication)) = false) :
      s.jobs.countP p = 0 := by
    refine List.countP_eq_zero.mpr fun job hjob => ?_
    obtain ⟨publication, rfl⟩ := hq.jobs job hjob
    simp [hp]
  have hreplies : s.replies.countP (Reply.answers channel true) = 0 := by
    refine List.countP_eq_zero.mpr fun reply hreply => ?_
    cases reply with
    | done command succeeded => exact absurd hreply (hq.replies command succeeded)
    | message redisChannel publication => simp [Reply.answers]
  exact hall _ (hs.phases channel) (by simp [view, hq.commands]) hreplies (hjobs fun _ => rfl) (hjobs fun _ => rfl)

theorem Sound.subscribed_iff (hs : s.Sound) (h : s.Tidy) (hq : s.Quiescent) (channel : String) :
    s.redisSubscribedChannels channel = true ↔ ∃ key, s.channels key ≠ [] ∧ getRedisChannel key = channel := by
  constructor
  · intro hsub
    obtain ⟨key, rfl, hkey | hwaits | hdue⟩ := h channel (.inl hsub)
    · exact ⟨key, hkey, rfl⟩
    · have hnone := (hs.listening_eq hq (getRedisChannel key)).2
      rw [Option.isSome_eq_false_iff, Option.isNone_iff_eq_none] at hnone
      simp [waiting, hnone] at hwaits
    · obtain ⟨publication, he⟩ := hq.jobs _ hdue
      cases he
  · rintro ⟨key, hkey, rfl⟩
    refine (hs.served key hkey).resolve_right fun hpending => ?_
    rw [(hs.listening_eq hq _).2] at hpending
    cases hpending

end State

/-- The driver leaves while its SUBSCRIBE is on its way. -/
def subscribedAndLeft : List (Action Unit) :=
  [.subscribe .rider "1", .subscribe .driver "2", .finalize 1, .execute true, .execute true, .receive, .receive,
    .run 0, .run 0, .run 0, .run 0, .run 0, .execute true, .receive]

end NotificationStream

end NebLite
