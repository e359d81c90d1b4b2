import NebLite.Atomic.Runs
import NebLite.Gateway.Publications

/-! Clients after a failed SUBSCRIBE. The adapter forgets the attempt, but not the clients that
it was made for; these hear nothing until another client of their channel subscribes. -/

namespace NebLite

namespace NotificationStream

open Atomic

variable {P : Type}

namespace ChannelView

/-- Redis may refuse a SUBSCRIBE, and an UNSUBSCRIBE, after which it goes on listening. -/
def outcomes : List ChannelView :=
  phases ++ [⟨false, false, [], true, 0, 0, 0, 0⟩, ⟨false, true, [true], true, 0, 0, 0, 0⟩,
    ⟨false, true, [], false, 0, 0, 0, 1⟩, ⟨false, true, [], true, 0, 0, 0, 1⟩]

variable {v v' : ChannelView}

theorem Moves.mem_outcomes {succeeds left : Prop} (h : v.Moves succeeds left v') (hv : v ∈ outcomes) : v' ∈ outcomes := by
  cases h with
  | same => exact hv
  | ensure =>
    have hall : ∀ v ∈ outcomes, v.ensure ∈ outcomes := by decide
    exact hall v hv
  | cleanup =>
    have hall : ∀ v ∈ outcomes, v.cleanup ∈ outcomes := by decide
    exact hall v hv
  | execute hq =>
    have hall : ∀ v ∈ outcomes, ∀ command, v.queue.head? = some command → v.execute command ∈ outcomes := by decide
    exact hall v hv _ hq
  | refuse _ hq =>
    have hall : ∀ v ∈ outcomes, ∀ command, v.queue.head? = some command → v.refuse command ∈ outcomes := by decide
    exact hall v hv _ hq
  | resolve ha =>
    have hall : ∀ v ∈ outcomes, 0 < v.accepted → v.resolve ∈ outcomes := by decide
    exact hall v hv ha
  | add hr =>
    have hall : ∀ v ∈ outcomes, 0 < v.resolved → v.add ∈ outcomes := by decide
    exact hall v hv hr
  | settle hs =>
    have hall : ∀ v ∈ outcomes, 0 < v.settling → v.settle ∈ outcomes := by decide
    exact hall v hv hs
  | reject hf =>
    have hall : ∀ v ∈ outcomes, 0 < v.failures → v.reject ∈ outcomes := by decide
    exact hall v hv hf
  | abandon hf =>
    have hall : ∀ v ∈ outcomes, 0 < v.failures → v.abandon ∈ outcomes := by decide
    exact hall v hv hf

/-- A channel that is served and has clients goes on being served. -/
theorem Moves.served {succeeds : Prop} (h : v.Moves succeeds False v') (hlistening : v.listening = true)
    (hqueue : false ∉ v.queue) : v'.listening = true ∧ false ∉ v'.queue := by
  have htail : false ∉ v.queue.tail := fun hmem => hqueue (List.mem_of_mem_tail hmem)
  cases h with
  | ensure =>
    unfold ChannelView.ensure
    split
    · exact ⟨hlistening, hqueue⟩
    · exact ⟨hlistening, by simpa using hqueue⟩
  | cleanup hleft => exact hleft.elim
  | execute hq =>
    refine ⟨?_, htail⟩
    refine Bool.eq_true_of_not_eq_false fun he => hqueue ?_
    exact he ▸ List.mem_of_mem_head? hq
  | refuse => exact ⟨hlistening, htail⟩
  | _ => exact ⟨hlistening, hqueue⟩

theorem served_of_subscribed (h : v ∈ outcomes) (hs : v.subscribed = true) :
    v.listening = true ∧ false ∉ v.queue := by
  have hall : ∀ v ∈ outcomes, v.subscribed = true → v.listening = true ∧ false ∉ v.queue := by decide
  exact hall v h hs

theorem outcomes_settling (h : v ∈ outcomes) (hs : 0 < v.settling) : v.subscribed = true := by
  have hall : ∀ v ∈ outcomes, 0 < v.settling → v.subscribed = true := by decide
  exact hall v h hs

theorem outcomes_failures (h : v ∈ outcomes) (hf : 0 < v.failures) : false ∉ v.queue := by
  have hall : ∀ v ∈ outcomes, 0 < v.failures → false ∉ v.queue := by decide
  exact hall v h hf

end ChannelView

namespace State

/-- Redis listens to the channel and is not asked to stop. -/
def Hears (s : State P) (channel : String) : Prop :=
  s.listening channel = true ∧ .unsubscribe channel ∉ s.commands

/-- Where no attempt to subscribe is pending, the clients of a channel are served. -/
def NoneDeaf (s : State P) : Prop :=
  ∀ key, s.channels key ≠ [] → s.redisSubscriptionPromises (getRedisChannel key) = none → s.Hears (getRedisChannel key)

/-- A failed SUBSCRIBE is settled while its channel has a client and Redis does not listen. -/
def Deafens (s : State P) : Action P → Prop
  | .run index => ∃ key, s.jobs[index]? = some (.settled (getRedisChannel key) false) ∧ s.channels key ≠ [] ∧
      s.listening (getRedisChannel key) = false
  | _ => False

/-- What every state reached satisfies, whatever Redis refuses. -/
def Tracked (s : State P) : Prop := ∀ channel, s.view channel ∈ ChannelView.outcomes

variable {s t : State P} {key channel : String}

theorem hears_iff : s.Hears channel ↔ (s.view channel).listening = true ∧ false ∉ (s.view channel).queue := by
  unfold Hears view
  simp only [List.mem_filterMap, not_exists, not_and]
  refine and_congr_right fun _ => ⟨fun h command hcommand he => ?_, fun h hcommand => ?_⟩
  · cases command with
    | subscribe c => simp [Command.on] at he
    | unsubscribe c =>
      simp only [Command.on] at he
      split at he
      · next hc => exact h (hc ▸ hcommand)
      · cases he
  · exact h _ hcommand (by simp [Command.on])

theorem Hears.step (h : s.Hears (getRedisChannel key)) {a : Action P} (hkey : (s.step a).channels key ≠ []) :
    (s.step a).Hears (getRedisChannel key) := by
  obtain ⟨hlistening, hqueue⟩ := hears_iff.mp h
  have hmoves := view_step s a (getRedisChannel key)
  have hvacant : ¬ (s.step a).Vacant (getRedisChannel key) := fun hv => hkey (hv key rfl)
  rw [eq_false hvacant] at hmoves
  exact hears_iff.mpr (hmoves.served hlistening hqueue)

theorem Tracked.step (h : s.Tracked) (a : Action P) : (s.step a).Tracked :=
  fun channel => (view_step s a channel).mem_outcomes (h channel)

theorem Tracked.initial : (State.initial : State P).Tracked := by
  intro channel
  simp [view, State.initial, ChannelView.outcomes, ChannelView.phases, ChannelView.idle]

/-- Only the last callback of a SUBSCRIBE ends that it is pending. -/
theorem settled_step {a : Action P} (hbefore : s.redisSubscriptionPromises channel ≠ none)
    (hafter : (s.step a).redisSubscriptionPromises channel = none) :
    ∃ index succeeded, a = .run index ∧ s.jobs[index]? = some (.settled channel succeeded) := by
  have hcleanup (t : State P) (key : String) (ht : t.redisSubscriptionPromises = s.redisSubscriptionPromises) :
      (t.cleanupRedisSubscription key).redisSubscriptionPromises channel ≠ none := by
    obtain ⟨callbacks, -, h⟩ | ⟨-, -, h⟩ | ⟨-, -, h⟩ := cleanup_cases t key
    · rw [h]
      by_cases hc : channel = getRedisChannel key
      · simp [attach, hc]
      · simpa [attach, hc, ht] using hbefore
    · rw [h, ht]
      exact hbefore
    · rw [h, ht]
      exact hbefore
  cases a with
  | subscribe target targetId =>
    refine absurd hafter ?_
    show (ensureRedisSubscription _ _).redisSubscriptionPromises channel ≠ none
    obtain ⟨-, h⟩ | ⟨-, -, h⟩ := ensure_cases { s with subscriptions := _, channels := _ } (getChannelKey target targetId)
    · rw [h]
      exact hbefore
    · rw [h]
      by_cases hc : channel = getRedisChannel (getChannelKey target targetId)
      · simp [hc]
      · simpa [hc] using hbefore
  | finalize u =>
    refine absurd hafter ?_
    show (s.finalize u).redisSubscriptionPromises channel ≠ none
    obtain ⟨h, -⟩ | ⟨target, targetId, -, ⟨-, h⟩ | ⟨-, h⟩⟩ := finalize_cases s u
    · rwa [h]
    · rwa [h]
    · rw [h]
      exact hcleanup _ _ rfl
  | emit envelope =>
    refine absurd hafter ?_
    show (s.emit envelope).redisSubscriptionPromises channel ≠ none
    obtain ⟨callbacks, -, h⟩ | ⟨-, h⟩ := emit_cases s envelope
    · rw [h]
      by_cases hc : channel = getRedisChannel envelope.channelKey
      · simp [attach, hc]
      · simpa [attach, hc] using hbefore
    · rwa [h]
  | execute succeeds =>
    refine absurd hafter ?_
    show (s.execute succeeds).redisSubscriptionPromises channel ≠ none
    obtain ⟨-, h⟩ | ⟨command, commands, listening, -, h⟩ := execute_cases s succeeds
    · rwa [h]
    · rwa [h]
  | executePublish =>
    refine absurd hafter ?_
    show s.executePublish.redisSubscriptionPromises channel ≠ none
    obtain ⟨-, h⟩ | ⟨c, publication, publishes, -, ⟨-, h⟩ | ⟨-, h⟩⟩ := executePublish_cases s
    · rwa [h]
    · rwa [h]
    · rwa [h]
  | receive =>
    refine absurd hafter ?_
    show s.receive.redisSubscriptionPromises channel ≠ none
    obtain ⟨-, h⟩ | ⟨c, succeeded, replies, -, h⟩ | ⟨c, succeeded, replies, -, h⟩ |
      ⟨c, publication, replies, -, h⟩ := receive_cases s
    · rwa [h]
    · rwa [h]
    · rwa [h]
    · rw [h]
      unfold handleRedisMessage
      split
      · exact hbefore
      · split
        · exact hbefore
        · exact hbefore
  | run index =>
    change (s.run index).redisSubscriptionPromises channel = none at hafter
    obtain ⟨-, h⟩ | ⟨job, hj, h⟩ := run_cases s index
    · rw [h] at hafter
      exact absurd hafter hbefore
    rw [h] at hafter
    cases job with
    | subscribed c => exact absurd hafter hbefore
    | failed c => exact absurd hafter hbefore
    | settled c succeeded =>
      by_cases hc : channel = c
      · exact ⟨index, succeeded, rfl, hc ▸ hj⟩
      · exact absurd (by simpa [runJob, hc] using hafter) hbefore
    | callback callback =>
      cases callback with
      | publish publication => exact absurd hafter hbefore
      | cleanup key =>
        simp only [runJob] at hafter
        split at hafter
        · exact absurd hafter hbefore
        · exact absurd hafter (hcleanup _ _ rfl)

theorem NoneDeaf.step (h : s.NoneDeaf) (ht : s.Tracked) {a : Action P} (ha : ¬ s.Deafens a) : (s.step a).NoneDeaf := by
  intro key hkey hafter
  have hview := ht.step a (getRedisChannel key)
  rw [hears_iff]
  by_cases hbefore : s.redisSubscriptionPromises (getRedisChannel key) = none
  · by_cases hclients : s.channels key = []
    · -- the first client of its channel has just subscribed
      have hserves : (s.step a).Serves (getRedisChannel key) := by
        obtain ⟨target, targetId, rfl, -, h⟩ | ⟨u, k, -, -, h⟩ | ⟨-, h⟩ := step_subscribers s a
        · by_cases hk : key = getChannelKey target targetId
          · rw [hk]
            exact serves_ensure_self
          · rw [h, Function.update_of_ne hk] at hkey
            exact absurd hclients hkey
        · refine absurd ?_ hkey
          rw [h]
          by_cases hk : key = k
          · rw [hk, Function.update_self, ← hk, hclients]
            rfl
          · rwa [Function.update_of_ne hk]
        · rw [h] at hkey
          exact absurd hclients hkey
      refine ChannelView.served_of_subscribed hview (hserves.resolve_right fun hpending => ?_)
      rw [hafter] at hpending
      cases hpending
    · exact hears_iff.mp ((h key hclients hbefore).step hkey)
  · obtain ⟨index, succeeded, rfl, hj⟩ := settled_step hbefore hafter
    have hrun : s.step (.run index) = { s with jobs := s.jobs.eraseIdx index }.runJob
        (.settled (getRedisChannel key) succeeded) := by simp only [State.step, State.run, hj]
    have hmem := List.mem_of_getElem? hj
    cases succeeded with
    | true =>
      have hsettling : 0 < (s.view (getRedisChannel key)).settling :=
        List.countP_pos_iff.mpr ⟨_, hmem, by simp [Job.settles]⟩
      have hsubscribed := ChannelView.outcomes_settling (ht _) hsettling
      refine ChannelView.served_of_subscribed hview ?_
      rw [hrun]
      exact hsubscribed
    | false =>
      have hrejected : 0 < s.jobs.countP (Job.rejects (getRedisChannel key)) :=
        List.countP_pos_iff.mpr ⟨_, hmem, by simp [Job.rejects]⟩
      have hfailures : 0 < (s.view (getRedisChannel key)).failures := Nat.add_pos_right _ hrejected
      have hclients : s.channels key ≠ [] := by
        rw [hrun] at hkey
        exact hkey
      have hqueue := ChannelView.outcomes_failures (ht _) hfailures
      have hlistening : s.listening (getRedisChannel key) ≠ false := fun hno => ha ⟨key, hj, hclients, hno⟩
      rw [hrun]
      exact ⟨Bool.eq_true_of_not_eq_false hlistening, hqueue⟩

theorem Deafens.not_noneDeaf {a : Action P} (h : s.Deafens a) : ¬ (s.step a).NoneDeaf := by
  intro hnone
  cases a with
  | run index =>
    obtain ⟨key, hj, hclients, hlistening⟩ := h
    have hrun : s.step (.run index) = { s with jobs := s.jobs.eraseIdx index }.runJob
        (.settled (getRedisChannel key) false) := by simp only [State.step, State.run, hj]
    rw [hrun] at hnone
    have hhears := (hnone key hclients (by simp [runJob])).1
    exact Bool.false_ne_true (hlistening.symm.trans hhears)
  | _ => exact h.elim

/-- The publication is on its way to the client, or has reached it. -/
def Reaches (s : State P) (u : SubscriberId) (p : Publication P) : Prop :=
  .callback (.publish p) ∈ s.jobs ∨ (p.redisChannel, p) ∈ s.publishes ∨ .message p.redisChannel p ∈ s.replies ∨
    ⟨u, p.call, ⟨p.envelope.event, p.envelope⟩⟩ ∈ s.delivered

variable {u : SubscriberId} {p : Publication P}

theorem Reaches.mono (h : s.Reaches u p) (hjobs : s.jobs ⊆ t.jobs) (hpublishes : s.publishes ⊆ t.publishes)
    (hreplies : s.replies ⊆ t.replies) (hdelivered : s.delivered ⊆ t.delivered) : t.Reaches u p :=
  h.imp (fun h => hjobs h) fun h => h.imp (fun h => hpublishes h) fun h => h.imp (fun h => hreplies h) fun h =>
    hdelivered h

theorem SameTraffic.reaches (hst : SameTraffic s t) (h : s.Reaches u p) : t.Reaches u p :=
  h.mono (by rw [hst.jobs]; exact List.Subset.refl _) (by rw [hst.publishes]; exact List.Subset.refl _)
    (by rw [hst.replies]; exact List.Subset.refl _) (by rw [hst.delivered]; exact List.Subset.refl _)

theorem Reaches.executePublish (h : s.Reaches u p) (hh : s.Hears p.redisChannel) : s.executePublish.Reaches u p := by
  obtain ⟨-, he⟩ | ⟨channel, q, publishes, hp, ⟨hl, he⟩ | ⟨hl, he⟩⟩ := executePublish_cases s
  · rwa [he]
  · rw [he]
    obtain h | h | h | h := h
    · exact .inl h
    · rw [hp] at h
      rcases List.mem_cons.mp h with h | h
      · obtain ⟨rfl, rfl⟩ := Prod.mk.inj h
        exact .inr (.inr (.inl (List.mem_append_right _ List.mem_cons_self)))
      · exact .inr (.inl h)
    · exact .inr (.inr (.inl (List.mem_append_left _ h)))
    · exact .inr (.inr (.inr h))
  · rw [he]
    obtain h | h | h | h := h
    · exact .inl h
    · rw [hp] at h
      rcases List.mem_cons.mp h with h | h
      · obtain ⟨rfl, rfl⟩ := Prod.mk.inj h
        exact absurd (hl.symm.trans hh.1) Bool.false_ne_true
      · exact .inr (.inl h)
    · exact .inr (.inr (.inl h))
    · exact .inr (.inr (.inr h))

theorem Reaches.receive (h : s.Reaches u p) (hu : u ∈ s.channels p.envelope.channelKey) : s.receive.Reaches u p := by
  have hrest {reply : Reply P} {replies : List (Reply P)} (hr : s.replies = reply :: replies)
      (hne : .message p.redisChannel p ≠ reply) : ({ s with replies } : State P).Reaches u p := by
    refine h.imp_right fun h => h.imp_right fun h => h.imp_left fun h => ?_
    rw [hr] at h
    exact (List.mem_cons.mp h).resolve_left hne
  obtain ⟨-, he⟩ | ⟨c, succeeded, replies, hr, he⟩ | ⟨c, succeeded, replies, hr, he⟩ | ⟨c, q, replies, hr, he⟩ :=
    receive_cases s
  · rwa [he]
  · rw [he]
    have hleft := hrest hr (by simp)
    exact hleft.imp_left (List.mem_append_left _)
  · rw [he]
    exact hrest hr (by simp)
  · rw [he]
    by_cases hq : Reply.message p.redisChannel p = .message c q
    · obtain ⟨rfl, rfl⟩ := Reply.message.inj hq
      rw [handleRedisMessage_redisChannel]
      exact .inr (.inr (.inr (List.mem_append_right _ (List.mem_map.mpr ⟨u, hu, rfl⟩))))
    · have hleft := hrest hr hq
      unfold handleRedisMessage
      split
      · exact hleft
      · split
        · exact hleft
        · exact hleft.imp_right fun h => h.imp_right fun h => h.imp_right (List.mem_append_left _)

theorem Reaches.run (h : s.Reaches u p) (index : ℕ) : (s.run index).Reaches u p := by
  obtain ⟨-, he⟩ | ⟨job, hj, he⟩ := run_cases s index
  · rwa [he]
  rw [he]
  by_cases hp : .callback (.publish p) = job
  · rw [← hp]
    exact .inr (.inl (List.mem_append_right _ List.mem_cons_self))
  have hleft : ({ s with jobs := s.jobs.eraseIdx index } : State P).Reaches u p :=
    h.imp_left fun h => mem_eraseIdx_of_ne hj h hp
  have hrefl {α : Type} (l : List α) : l ⊆ l := List.Subset.refl l
  cases job with
  | subscribed c => exact hleft.mono (List.subset_append_left _ _) (hrefl _) (hrefl _) (hrefl _)
  | failed c => exact hleft.mono (List.subset_append_left _ _) (hrefl _) (hrefl _) (hrefl _)
  | settled c succeeded => exact hleft.mono (List.subset_append_left _ _) (hrefl _) (hrefl _) (hrefl _)
  | callback callback =>
    cases callback with
    | publish q => exact hleft.mono (hrefl _) (List.subset_append_left _ _) (hrefl _) (hrefl _)
    | cleanup key =>
      simp only [runJob]
      split
      · exact hleft
      · exact sameTraffic_cleanup.reaches hleft

theorem Reaches.step (h : s.Reaches u p) (hu : u ∈ s.channels p.envelope.channelKey) (hh : s.Hears p.redisChannel)
    (a : Action P) : (s.step a).Reaches u p := by
  have hrefl {α : Type} (l : List α) : l ⊆ l := List.Subset.refl l
  cases a with
  | subscribe target targetId => exact sameTraffic_ensure.reaches (h.mono (hrefl _) (hrefl _) (hrefl _) (hrefl _))
  | finalize v =>
    show (s.finalize v).Reaches u p
    obtain ⟨he, -⟩ | ⟨target, targetId, -, ⟨-, he⟩ | ⟨-, he⟩⟩ := finalize_cases s v
    · rwa [he]
    · rw [he]
      exact h
    · rw [he]
      exact sameTraffic_cleanup.reaches h
  | emit envelope =>
    show (s.emit envelope).Reaches u p
    obtain ⟨callbacks, -, he⟩ | ⟨-, he⟩ := emit_cases s envelope
    · rw [he]
      exact h
    · rw [he]
      exact h.mono (List.subset_append_left _ _) (hrefl _) (hrefl _) (hrefl _)
  | execute succeeds =>
    show (s.execute succeeds).Reaches u p
    obtain ⟨-, he⟩ | ⟨command, commands, listening, -, he⟩ := execute_cases s succeeds
    · rwa [he]
    · rw [he]
      exact h.mono (hrefl _) (hrefl _) (List.subset_append_left _ _) (hrefl _)
  | executePublish => exact h.executePublish hh
  | receive => exact h.receive hu
  | run index => exact h.run index

/-- What is emitted to a client that is served reaches it, if the client stays. -/
theorem NoneDeaf.reached (h : s.NoneDeaf) {envelope : NotificationEnvelope P} (hu : u ∈ s.channels envelope.channelKey)
    (hsettled : s.redisSubscriptionPromises (getRedisChannel envelope.channelKey) = none) {rest : List (Action P)}
    (hstays : .finalize u ∉ rest) (hrest : ((s.emit envelope).after rest).AtRest) :
    ⟨u, s.emitted.length, ⟨envelope.event, envelope⟩⟩ ∈ ((s.emit envelope).after rest).delivered := by
  have hemit : s.emit envelope = { s with
      emitted := s.emitted ++ [envelope]
      jobs := s.jobs ++ [.callback (.publish ⟨s.emitted.length, envelope⟩)] } := by simp [emit, hsettled]
  have hstart : u ∈ (s.emit envelope).channels envelope.channelKey ∧
      (s.emit envelope).Hears (getRedisChannel envelope.channelKey) ∧
      (s.emit envelope).Reaches u ⟨s.emitted.length, envelope⟩ := by
    rw [hemit]
    exact ⟨hu, h _ (List.ne_nil_of_mem hu) hsettled, .inl (List.mem_append_right _ List.mem_cons_self)⟩
  have hmeets : Runs.Meets State.step (fun _ a => a ≠ .finalize u) (s.emit envelope) rest :=
    Runs.meets_of_forall fun a ha he => hstays (he ▸ ha)
  have hend := Runs.invariant (I := fun t : State P => u ∈ t.channels envelope.channelKey ∧
      t.Hears (getRedisChannel envelope.channelKey) ∧ t.Reaches u ⟨s.emitted.length, envelope⟩) ?_ hstart hmeets
  · obtain ⟨-, -, hreaches⟩ := hend
    obtain hj | hp | hr | hd := hreaches
    · exact absurd (hrest.jobs ▸ hj) List.not_mem_nil
    · exact absurd (hrest.publishes ▸ hp) List.not_mem_nil
    · exact absurd (hrest.replies ▸ hr) List.not_mem_nil
    · exact hd
  · rintro t a ⟨htu, hhears, hreaches⟩ ha
    have hmem := mem_step htu ha
    exact ⟨hmem, hhears.step (List.ne_nil_of_mem hmem), hreaches.step htu hhears a⟩

end State

def toRider : NotificationEnvelope Unit := ⟨.rider, "1", "ride", (), 0⟩

/-- The first SUBSCRIBE of the rider fails after the rider has left, the second succeeds. -/
def riderReturns : List (Action Unit) :=
  [.subscribe .rider "1", .finalize 0, .execute false, .receive, .run 0, .run 0,
    .subscribe .rider "1", .execute true, .receive, .run 0, .run 0]

theorem riderReturns_meets : Runs.Meets State.step (fun s a => ¬ s.Deafens a) State.initial riderReturns := by
  refine ⟨id, id, id, id, ?_, ?_, id, id, id, ?_, ?_, trivial⟩
  · rintro ⟨key, hj, -, -⟩
    cases hj
  · rintro ⟨key, hj, hclients, -⟩
    have hkey : getRedisChannel (getChannelKey .rider "1") = getRedisChannel key :=
      (Job.settled.inj (Option.some.inj hj)).1
    rw [← State.getRedisChannel_inj hkey] at hclients
    exact hclients (by decide +kernel)
  · rintro ⟨key, hj, -, -⟩
    cases hj
  · rintro ⟨key, hj, -, -⟩
    have hok := (Job.settled.inj (Option.some.inj hj)).2
    cases hok

/-- The SUBSCRIBE of the rider fails, and that of a driver after it succeeds. -/
def riderIsDeaf : List (Action Unit) :=
  [.subscribe .rider "1", .emit toRider, .execute false, .receive, .run 0, .run 0, .run 0, .executePublish,
    .subscribe .driver "2", .execute true, .receive, .run 0, .run 0, .emit toRider, .run 0, .executePublish]

end NotificationStream

end NebLite
