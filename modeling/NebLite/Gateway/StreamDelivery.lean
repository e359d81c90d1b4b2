import NebLite.Gateway.StreamReach

/-! An `emit` reaches each subscriber of its target once: at most once in every run in which Redis
executes every command, and in the end exactly once if the run goes on and the subscriber stays. -/

namespace NebLite

namespace NotificationStream

open Atomic

variable {P : Type}

section Runs

/-- The state before each of an endless sequence of actions. -/
def stateAt (actions : ℕ → Action P) : ℕ → State P
  | 0 => .initial
  | i + 1 => (stateAt actions i).step (actions i)

/-- Redis goes on executing what it is sent, its replies arrive, and the callbacks due run. -/
structure GoesOn (actions : ℕ → Action P) : Prop where
  execute : InfinitelyOften fun i => actions i = .execute true
  executePublish : InfinitelyOften fun i => actions i = .executePublish
  receive : InfinitelyOften fun i => actions i = .receive
  run : InfinitelyOften fun i => actions i = .run 0

variable {actions : ℕ → Action P} {u : SubscriberId} {call : ℕ} {envelope : NotificationEnvelope P}

theorem sound_stateAt (hs : ∀ i, (actions i).Succeeds) (i : ℕ) : (stateAt actions i).Sound := by
  induction i with
  | zero => exact .initial
  | succ i ih => exact ih.step (hs i)

theorem reach_stateAt (hs : ∀ i, (actions i).Succeeds) (i : ℕ)
    (he : (stateAt actions i).emitted[call]? = some envelope) (u : SubscriberId) :
    (stateAt actions i).reach u envelope call ≤ 1 := by
  induction i with
  | zero => cases he
  | succ i ih =>
    have hsound := sound_stateAt hs i
    change ((stateAt actions i).step (actions i)).emitted[call]? = some envelope at he
    show ((stateAt actions i).step (actions i)).reach u envelope call ≤ 1
    obtain ⟨e, ha, hemitted⟩ | hemitted := State.emitted_step (stateAt actions i) (actions i)
    · by_cases hnew : call = (stateAt actions i).emitted.length
      · rw [hemitted, hnew, List.getElem?_concat_length] at he
        cases he
        rw [ha, hnew]
        exact Nat.le_of_eq (hsound.reach_emit u envelope)
      · have hold : (stateAt actions i).emitted[call]? = some envelope := by
          rw [hemitted, List.getElem?_append] at he
          split at he
          · exact he
          · rw [List.getElem?_singleton] at he
            split at he
            · omega
            · cases he
        exact Nat.le_trans (hsound.reach_step hold u _).1 (ih hold)
    · rw [hemitted] at he
      exact Nat.le_trans (hsound.reach_step he u _).1 (ih he)

theorem deliveries_stateAt (hs : ∀ i, (actions i).Succeeds) (i : ℕ) (u : SubscriberId) (call : ℕ) :
    (stateAt actions i).deliveries u call ≤ 1 := by
  cases he : (stateAt actions i).emitted[call]? with
  | some envelope =>
    have h := reach_stateAt hs i he u
    unfold State.reach at h
    omega
  | none =>
    have hzero : (stateAt actions i).deliveries u call = 0 := by
      rw [State.deliveries, List.countP_eq_zero]
      intro d hd hto
      simp only [Delivery.isTo, Bool.and_eq_true, decide_eq_true_eq] at hto
      have hemitted := ((sound_stateAt hs i).addressed d hd).1
      rw [hto.2, he] at hemitted
      cases hemitted
    omega

/-- A client that has subscribed and never left is registered. -/
theorem registered_stateAt {target : NotificationTarget} {targetId : String} {i : ℕ}
    (hstays : ∀ j < i, actions j ≠ .finalize u)
    (hu : (stateAt actions i).subscriptions[u]? = some (target, targetId)) :
    u ∈ (stateAt actions i).channels (getChannelKey target targetId) := by
  induction i with
  | zero => cases hu
  | succ i ih =>
    change ((stateAt actions i).step (actions i)).subscriptions[u]? = _ at hu
    show u ∈ ((stateAt actions i).step (actions i)).channels _
    have ih := ih fun j hj => hstays j (by omega)
    have hne : actions i ≠ .finalize u := hstays i (by omega)
    obtain ⟨t, id, ha, hsub, hchannels⟩ | ⟨v, k, -, hsub, -⟩ | ⟨hsub, -⟩ :=
      State.step_subscribers (stateAt actions i) (actions i)
    · rw [hsub] at hu
      rcases Nat.lt_trichotomy u (stateAt actions i).subscriptions.length with hlt | hnew | hgt
      · rw [List.getElem?_append_left hlt] at hu
        exact State.mem_step (ih hu) hne
      · rw [hnew, List.getElem?_concat_length] at hu
        cases hu
        rw [hchannels, hnew]
        simp
      · have hlt := (List.getElem?_eq_some_iff.mp hu).1
        rw [List.length_append] at hlt
        exact absurd hlt (Nat.not_lt.mpr hgt)
    · exact State.mem_step (ih (hsub ▸ hu)) hne
    · exact State.mem_step (ih (hsub ▸ hu)) hne

theorem awaits_stateAt (hs : ∀ i, (actions i).Succeeds) {i : ℕ} (ha : actions i = .emit envelope)
    (hu : (stateAt actions i).subscriptions[u]? = some (envelope.target, envelope.targetId)) {k : ℕ}
    (hik : i < k) (hstays : ∀ j < k, actions j ≠ .finalize u) :
    (stateAt actions k).Awaits u envelope (stateAt actions i).emitted.length := by
  induction k with
  | zero => omega
  | succ k ih =>
    by_cases hk : i = k
    · obtain rfl := hk
      show ((stateAt actions i).step (actions i)).Awaits _ _ _
      rw [ha]
      exact State.Awaits.emit (sound_stateAt hs i) (registered_stateAt (fun j hj => hstays j (by omega)) hu)
    · exact (ih (by omega) fun j hj => hstays j (by omega)).step (sound_stateAt hs k) (hstays k (by omega))

section Places

/-- From the `start`-th state on, the item at place `m` of the queue satisfies `p`. -/
def Place {α : Type} (actions : ℕ → Action P) (start : ℕ) (queue : State P → List α) (p : α → Prop)
    (m i : ℕ) : Prop :=
  start ≤ i ∧ ∃ x, (queue (stateAt actions i))[m]? = some x ∧ p x

theorem place_leadsTo {α : Type} {start : ℕ} {queue : State P → List α} {takes : Action P → Option ℕ}
    {p : α → Prop} {Q : ℕ → Prop} (often : InfinitelyOften fun i => takes (actions i) = some 0)
    (advance : ∀ s a, Advances (takes a) (queue s) (queue (s.step a)))
    (moves : ∀ m i x, start ≤ i → (queue (stateAt actions i))[m]? = some x → p x →
      takes (actions i) = some m → Q (i + 1)) :
    LeadsTo (fun i => ∃ m, Place actions start queue p m i) Q := by
  refine LeadsTo.of_rank often ?_
  rintro m i ⟨hi, x, hx, hp⟩
  obtain htaken | ⟨n, hn, hle, hlt⟩ := (advance (stateAt actions i) (actions i)).place hx
  · exact .inl (moves m i x hi hx hp htaken)
  · exact .inr ⟨n, ⟨by omega, x, hn, hp⟩, hle, hlt⟩

theorem place_of_mem {α : Type} {start i : ℕ} {queue : State P → List α} {p : α → Prop} (hi : start ≤ i)
    {x : α} (hx : x ∈ queue (stateAt actions i)) (hp : p x) : ∃ m, Place actions start queue p m i := by
  obtain ⟨m, hm⟩ := List.getElem?_of_mem hx
  exact ⟨m, hi, x, hm, hp⟩

end Places

section Moves

variable {s : State P} {channel : String} {p : Publication P}

theorem State.Sound.move_reply (hs : s.Sound) (he : s.emitted[call]? = some envelope)
    (hu : u ∈ s.channels envelope.channelKey) {reply : Reply P} (hr : s.replies[0]? = some reply)
    (hcarries : reply.carries call) : 0 < (s.step .receive).deliveries u call := by
  cases reply with
  | done command succeeded => cases hcarries
  | message c p =>
    have hcall : p.call = call := by simpa [Reply.carries] using hcarries
    have hmem := List.mem_of_getElem? hr
    obtain ⟨hp, rfl⟩ := hs.traced c p (.inr (.inr (.inr hmem)))
    rw [hcall, he] at hp
    cases hp
    have hreceive : (s.step .receive).delivered = s.delivered ++
        (s.channels p.envelope.channelKey).map fun subscriber =>
          ⟨subscriber, p.call, ⟨p.envelope.event, p.envelope⟩⟩ := by
      show s.receive.delivered = _
      obtain ⟨hnil, -⟩ | ⟨c, succeeded, replies, hc, -⟩ | ⟨c, succeeded, replies, hc, -⟩ |
        ⟨c, q, replies, hc, h⟩ := State.receive_cases s
      · rw [hnil] at hr
        cases hr
      · rw [hc] at hr
        cases hr
      · rw [hc] at hr
        cases hr
      · rw [hc] at hr
        cases hr
        rw [h, State.handleRedisMessage_redisChannel]
    rw [State.deliveries, hreceive, List.countP_append, hs.deliveries_message, if_pos ⟨hcall, hu⟩]
    exact Nat.succ_pos _

theorem State.Awaits.move_publication (hw : s.Awaits u envelope call) (hs : s.Sound)
    (hp : s.publishes[0]? = some (channel, p)) (hcall : p.call = call) :
    .message channel p ∈ (s.step .executePublish).replies := by
  have hmem := List.mem_of_getElem? hp
  obtain ⟨he, hc⟩ := hs.traced channel p (.inr (.inr (.inl hmem)))
  rw [hcall, hw.emitted] at he
  cases he
  have hsent : 0 < s.sent call := by
    refine Nat.lt_of_lt_of_le ?_ (Nat.le_add_left _ _)
    exact List.countP_pos_iff.mpr ⟨_, hmem, by simp [hcall]⟩
  have hlistening : s.listening channel = true := by
    rw [hc]
    exact (ChannelView.listening_of_subscribed (hs.phases _) (hw.ready hsent)).1
  show _ ∈ s.executePublish.replies
  obtain ⟨hnil, -⟩ | ⟨c, q, publishes, hq, ⟨-, h⟩ | ⟨hl, -⟩⟩ := State.executePublish_cases s
  · rw [hnil] at hp
    cases hp
  · rw [hq] at hp
    cases hp
    simp [h]
  · rw [hq] at hp
    cases hp
    rw [hlistening] at hl
    cases hl

theorem State.move_job {index : ℕ} (hj : s.jobs[index]? = some (.callback (.publish p))) :
    (p.redisChannel, p) ∈ (s.step (.run index)).publishes := by
  show _ ∈ (s.run index).publishes
  obtain ⟨hnone, -⟩ | ⟨job, hjob, h⟩ := State.run_cases s index
  · rw [hnone] at hj
    cases hj
  · rw [hjob] at hj
    cases hj
    rw [h]
    simp [State.runJob, Publication.redisChannel]

theorem State.move_settled {index : ℕ} {succeeded : Bool}
    (hj : s.jobs[index]? = some (.settled channel succeeded)) :
    (s.step (.run index)).waiting channel = [] := by
  show (s.run index).waiting channel = []
  obtain ⟨hnone, -⟩ | ⟨job, hjob, h⟩ := State.run_cases s index
  · rw [hnone] at hj
    cases hj
  · rw [hjob] at hj
    cases hj
    simp [h, State.runJob, State.waiting]

theorem State.move_subscribed {index : ℕ} (hj : s.jobs[index]? = some (.subscribed channel)) :
    .settled channel true ∈ (s.step (.run index)).jobs := by
  show _ ∈ (s.run index).jobs
  obtain ⟨hnone, -⟩ | ⟨job, hjob, h⟩ := State.run_cases s index
  · rw [hnone] at hj
    cases hj
  · rw [hjob] at hj
    cases hj
    simp [h, State.runJob]

theorem State.move_answer (hr : s.replies[0]? = some (.done (.subscribe channel) true)) :
    .subscribed channel ∈ (s.step .receive).jobs := by
  show _ ∈ s.receive.jobs
  obtain ⟨hnil, -⟩ | ⟨c, succeeded, replies, hc, h⟩ | ⟨c, succeeded, replies, hc, -⟩ |
    ⟨c, q, replies, hc, -⟩ := State.receive_cases s
  · rw [hnil] at hr
    cases hr
  · rw [hc] at hr
    cases hr
    simp [h]
  · rw [hc] at hr
    cases hr
  · rw [hc] at hr
    cases hr

theorem State.move_command (hc : s.commands[0]? = some (.subscribe channel)) :
    .done (.subscribe channel) true ∈ (s.step (.execute true)).replies := by
  show _ ∈ (s.execute true).replies
  obtain ⟨hnil, -⟩ | ⟨command, commands, listening, hcommand, h⟩ := State.execute_cases s true
  · rw [hnil] at hc
    cases hc
  · rw [hcommand] at hc
    cases hc
    simp [h]

end Moves

section Eventually

variable {start : ℕ}

/-- From `start` on, the call has reached the subscriber. -/
def Reached (actions : ℕ → Action P) (start : ℕ) (u : SubscriberId) (call i : ℕ) : Prop :=
  start ≤ i ∧ 0 < (stateAt actions i).deliveries u call

/-- From `start` on, the call waits for no subscription. -/
def Released (actions : ℕ → Action P) (start : ℕ) (envelope : NotificationEnvelope P) (call i : ℕ) : Prop :=
  start ≤ i ∧ ((stateAt actions i).waiting (getRedisChannel envelope.channelKey)).countP
    (Callback.publishes call) = 0

theorem run_often (hgo : GoesOn actions) :
    InfinitelyOften fun i => State.takesJob (actions i) = some 0 :=
  hgo.run.mono fun i h => by rw [h]; rfl

theorem receive_often (hgo : GoesOn actions) :
    InfinitelyOften fun i => State.takesReply (actions i) = some 0 :=
  hgo.receive.mono fun i h => by rw [h]; rfl

theorem execute_often (hgo : GoesOn actions) :
    InfinitelyOften fun i => State.takesCommand (actions i) = some 0 :=
  hgo.execute.mono fun i h => by rw [h]; rfl

theorem executePublish_often (hgo : GoesOn actions) :
    InfinitelyOften fun i => State.takesPublication (actions i) = some 0 :=
  hgo.executePublish.mono fun i h => by rw [h]; rfl

variable (hs : ∀ i, (actions i).Succeeds) (hgo : GoesOn actions)
  (hw : ∀ i, start ≤ i → (stateAt actions i).Awaits u envelope call)

include hs hgo hw

theorem reply_leadsTo : LeadsTo (fun i => ∃ m, Place actions start State.replies (·.carries call) m i)
    (Reached actions start u call) := by
  refine place_leadsTo (receive_often hgo) State.replies_advance ?_
  intro m i reply hi hx hcarries htakes
  cases ha : actions i <;> rw [ha] at htakes <;> cases htakes
  refine ⟨by omega, ?_⟩
  show 0 < ((stateAt actions i).step (actions i)).deliveries u call
  rw [ha]
  exact (sound_stateAt hs i).move_reply (hw i hi).emitted (hw i hi).member hx hcarries

theorem publication_leadsTo :
    LeadsTo (fun i => ∃ m, Place actions start State.publishes (fun x => x.2.call = call) m i)
      (Reached actions start u call) := by
  refine LeadsTo.trans ?_ (reply_leadsTo hs hgo hw)
  refine place_leadsTo (executePublish_often hgo) State.publishes_advance ?_
  intro m i x hi hx hcall htakes
  cases ha : actions i <;> rw [ha] at htakes <;> cases htakes
  refine place_of_mem (x := .message x.1 x.2) (by omega) ?_ (by simpa [Reply.carries] using hcall)
  show _ ∈ ((stateAt actions i).step (actions i)).replies
  rw [ha]
  exact (hw i hi).move_publication (sound_stateAt hs i) hx hcall

theorem job_leadsTo : LeadsTo (fun i => ∃ m, Place actions start State.jobs (·.publishes call) m i)
    (Reached actions start u call) := by
  refine LeadsTo.trans ?_ (publication_leadsTo hs hgo hw)
  refine place_leadsTo (run_often hgo) State.jobs_advance ?_
  intro m i job hi hx hpublishes htakes
  cases ha : actions i <;> rw [ha] at htakes <;> cases htakes
  cases job with
  | callback callback =>
    cases callback with
    | cleanup key => cases hpublishes
    | publish p =>
      have hcall : p.call = call := by simpa [Job.publishes, Callback.publishes] using hpublishes
      refine place_of_mem (x := (p.redisChannel, p)) (by omega) ?_ hcall
      show _ ∈ ((stateAt actions i).step (actions i)).publishes
      rw [ha]
      exact State.move_job hx
  | _ => cases hpublishes

/-- A call that waits no more is one of the jobs, of the publications or of the replies, or over. -/
theorem released_leadsTo : LeadsTo (Released actions start envelope call) (Reached actions start u call) := by
  rintro i ⟨hi, hzero⟩
  have honce := (hw i hi).once
  unfold State.reach State.underway at honce
  have hcases : 0 < (stateAt actions i).jobs.countP (Job.publishes call) ∨
      0 < (stateAt actions i).publishes.countP (fun x => x.2.call = call) ∨
      0 < (stateAt actions i).replies.countP (Reply.carries call) ∨
      0 < (stateAt actions i).deliveries u call := by omega
  obtain h | h | h | h := hcases
  · obtain ⟨job, hmem, hp⟩ := List.countP_pos_iff.mp h
    exact job_leadsTo hs hgo hw i (place_of_mem hi hmem hp)
  · obtain ⟨x, hmem, hp⟩ := List.countP_pos_iff.mp h
    exact publication_leadsTo hs hgo hw i (place_of_mem hi hmem (by simpa using hp))
  · obtain ⟨reply, hmem, hp⟩ := List.countP_pos_iff.mp h
    exact reply_leadsTo hs hgo hw i (place_of_mem hi hmem hp)
  · exact ⟨i, Nat.le_refl i, hi, h⟩

theorem settled_leadsTo :
    LeadsTo (fun i => ∃ m, Place actions start State.jobs
        (· = .settled (getRedisChannel envelope.channelKey) true) m i)
      (Reached actions start u call) := by
  refine LeadsTo.trans ?_ (released_leadsTo hs hgo hw)
  refine place_leadsTo (run_often hgo) State.jobs_advance ?_
  rintro m i job hi hx rfl htakes
  cases ha : actions i <;> rw [ha] at htakes <;> cases htakes
  refine ⟨by omega, ?_⟩
  have hnone : ((stateAt actions i).step (actions i)).waiting (getRedisChannel envelope.channelKey) = [] := by
    rw [ha]
    exact State.move_settled hx
  show (((stateAt actions i).step (actions i)).waiting _).countP _ = 0
  rw [hnone]
  rfl

theorem subscribed_leadsTo :
    LeadsTo (fun i => ∃ m, Place actions start State.jobs
        (· = .subscribed (getRedisChannel envelope.channelKey)) m i)
      (Reached actions start u call) := by
  refine LeadsTo.trans ?_ (settled_leadsTo hs hgo hw)
  refine place_leadsTo (run_often hgo) State.jobs_advance ?_
  rintro m i job hi hx rfl htakes
  cases ha : actions i <;> rw [ha] at htakes <;> cases htakes
  refine place_of_mem (by omega) ?_ rfl
  show _ ∈ ((stateAt actions i).step (actions i)).jobs
  rw [ha]
  exact State.move_subscribed hx

theorem answer_leadsTo :
    LeadsTo (fun i => ∃ m, Place actions start State.replies
        (· = .done (.subscribe (getRedisChannel envelope.channelKey)) true) m i)
      (Reached actions start u call) := by
  refine LeadsTo.trans ?_ (subscribed_leadsTo hs hgo hw)
  refine place_leadsTo (receive_often hgo) State.replies_advance ?_
  rintro m i reply hi hx rfl htakes
  cases ha : actions i <;> rw [ha] at htakes <;> cases htakes
  refine place_of_mem (by omega) ?_ rfl
  show _ ∈ ((stateAt actions i).step (actions i)).jobs
  rw [ha]
  exact State.move_answer hx

theorem command_leadsTo :
    LeadsTo (fun i => ∃ m, Place actions start State.commands
        (· = .subscribe (getRedisChannel envelope.channelKey)) m i)
      (Reached actions start u call) := by
  refine LeadsTo.trans ?_ (answer_leadsTo hs hgo hw)
  refine place_leadsTo (execute_often hgo) State.commands_advance ?_
  rintro m i command hi hx rfl htakes
  have hok := hs i
  cases ha : actions i <;> rw [ha] at htakes hok <;> cases htakes
  cases hok
  refine place_of_mem (by omega) ?_ rfl
  show _ ∈ ((stateAt actions i).step (actions i)).replies
  rw [ha]
  exact State.move_command hx

/-- A call that is awaited reaches the subscriber: what it waits for is settled in the end. -/
theorem start_leadsTo : LeadsTo (start ≤ ·) (Reached actions start u call) := by
  intro i hi
  by_cases hzero : ((stateAt actions i).waiting (getRedisChannel envelope.channelKey)).countP
      (Callback.publishes call) = 0
  · exact released_leadsTo hs hgo hw i ⟨hi, hzero⟩
  have hpending : ((stateAt actions i).view (getRedisChannel envelope.channelKey)).pending = true := by
    cases hprom : (stateAt actions i).redisSubscriptionPromises (getRedisChannel envelope.channelKey) with
    | none => simp [State.waiting, hprom] at hzero
    | some callbacks => simp [State.view, hprom]
  have hphases := (sound_stateAt hs i).phases (getRedisChannel envelope.channelKey)
  obtain h | h | h | h := ChannelView.pending_cases hphases hpending
  · obtain ⟨command, hmem, hon⟩ := List.mem_filterMap.mp h
    refine command_leadsTo hs hgo hw i (place_of_mem hi hmem ?_)
    cases command with
    | subscribe c => simpa [Command.on] using hon
    | unsubscribe c => simp [Command.on] at hon
  · obtain ⟨reply, hmem, hanswers⟩ := List.countP_pos_iff.mp h
    refine answer_leadsTo hs hgo hw i (place_of_mem hi hmem ?_)
    cases reply with
    | done command succeeded =>
      cases command with
      | subscribe c => simpa [Reply.answers] using hanswers
      | unsubscribe c => cases hanswers
    | message c p => cases hanswers
  · obtain ⟨job, hmem, hfulfills⟩ := List.countP_pos_iff.mp h
    refine subscribed_leadsTo hs hgo hw i (place_of_mem hi hmem ?_)
    cases job with
    | subscribed c => simpa [Job.fulfills] using hfulfills
    | _ => cases hfulfills
  · obtain ⟨job, hmem, hsettles⟩ := List.countP_pos_iff.mp h
    refine settled_leadsTo hs hgo hw i (place_of_mem hi hmem ?_)
    cases job with
    | settled c succeeded => simpa [Job.settles] using hsettles
    | _ => cases hsettles

end Eventually

section Receipts

/-- What the subscriber received of one call of `emit`. -/
def State.receipts (s : State P) (u : SubscriberId) (call : ℕ) : List (MessageEvent P) :=
  (s.delivered.filter (Delivery.isTo u call)).map (·.message)

theorem State.length_receipts (s : State P) (u : SubscriberId) (call : ℕ) :
    (s.receipts u call).length = s.deliveries u call := by
  rw [receipts, List.length_map, deliveries, List.countP_eq_length_filter]

theorem State.Sound.receipts_eq {s : State P} (hs : s.Sound) (he : s.emitted[call]? = some envelope)
    (hone : s.deliveries u call = 1) : s.receipts u call = [⟨envelope.event, envelope⟩] := by
  rw [State.deliveries, List.countP_eq_length_filter, List.length_eq_one_iff] at hone
  obtain ⟨d, hd⟩ := hone
  have hmem : d ∈ s.delivered.filter (Delivery.isTo u call) := by rw [hd]; exact List.mem_singleton_self d
  obtain ⟨hmem, hto⟩ := List.mem_filter.mp hmem
  simp only [Delivery.isTo, Bool.and_eq_true, decide_eq_true_eq] at hto
  obtain ⟨hdata, htype, -⟩ := hs.addressed d hmem
  rw [hto.2, he] at hdata
  have hmessage : d.message = ⟨envelope.event, envelope⟩ := by
    obtain ⟨v, n, type, data⟩ := d
    cases hdata
    have htype : type = data.event := htype
    rw [htype]
  rw [State.receipts, hd, List.map_singleton, hmessage]

theorem deliveries_mono (hs : ∀ i, (actions i).Succeeds) {j k : ℕ} (hjk : j ≤ k) :
    (stateAt actions j).deliveries u call ≤ (stateAt actions k).deliveries u call := by
  induction hjk with
  | refl => exact Nat.le_refl _
  | @step k _ ih =>
    refine Nat.le_trans ih ?_
    show _ ≤ ((stateAt actions k).step (actions k)).deliveries u call
    unfold State.deliveries
    obtain h | ⟨p, replies, -, -, h⟩ := (sound_stateAt hs k).delivered_step (actions k)
    · rw [h]
    · rw [h, List.countP_append]
      exact Nat.le_add_right _ _

/-- Where nothing is under way, no subscription is pending either. -/
theorem State.AtRest.underway_eq {s : State P} (h : s.AtRest) (hs : s.Sound) (channel : String) :
    s.underway channel call = 0 := by
  have hpending : (s.view channel).pending = false := by
    refine Bool.eq_false_iff.mpr fun hp => ?_
    have hcases := ChannelView.pending_cases (hs.phases channel) hp
    simp [State.view, h.commands, h.replies, h.jobs] at hcases
  have hnone : s.redisSubscriptionPromises channel = none := by
    simpa [State.view] using hpending
  simp [State.underway, State.waiting, hnone, h.jobs, h.publishes, h.replies]

/-- A client subscribes and is notified; then the adapter and Redis go on. -/
def notifiedRider : ℕ → Action Unit
  | 0 => .subscribe .rider "a:b"
  | 1 => .emit ⟨.rider, "a:b", "ride", (), 0⟩
  | i + 2 =>
    match i % 4 with
    | 0 => .execute true
    | 1 => .receive
    | 2 => .run 0
    | _ => .executePublish

theorem notifiedRider_succeeds (i : ℕ) : (notifiedRider i).Succeeds := by
  match i with
  | 0 => trivial
  | 1 => trivial
  | i + 2 =>
    simp only [notifiedRider]
    split
    · rfl
    · trivial
    · trivial
    · trivial

theorem notifiedRider_goesOn : GoesOn notifiedRider := by
  have hround : ∀ r, r < 4 → ∀ i, i ≤ 4 * i + r + 2 ∧ (4 * i + r) % 4 = r := by omega
  constructor
  · exact fun i => ⟨4 * i + 2, (hround 0 (by omega) i).1, by simp only [notifiedRider, Nat.mul_mod_right]⟩
  · exact fun i => ⟨4 * i + 3 + 2, (hround 3 (by omega) i).1, by simp only [notifiedRider, (hround 3 (by omega) i).2]⟩
  · exact fun i => ⟨4 * i + 1 + 2, (hround 1 (by omega) i).1, by simp only [notifiedRider, (hround 1 (by omega) i).2]⟩
  · exact fun i => ⟨4 * i + 2 + 2, (hround 2 (by omega) i).1, by simp only [notifiedRider, (hround 2 (by omega) i).2]⟩

theorem notifiedRider_stays (j : ℕ) : notifiedRider j ≠ .finalize 0 := by
  match j with
  | 0 => simp [notifiedRider]
  | 1 => simp [notifiedRider]
  | j + 2 =>
    simp only [notifiedRider]
    split <;> simp

end Receipts

end Runs

end NotificationStream

end NebLite
