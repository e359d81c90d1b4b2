import NebLite.Gateway.Publications
import NebLite.Payment.Recipients

/-! The operations on rides and the notification stream together: what reaches a connected
client, whatever the order of events and whichever commands Redis refuses. -/

namespace NebLite

open Atomic

namespace NotificationStream

namespace State

variable {P : Type}

/-- Who is registered has subscribed, and what is under way or delivered has been emitted. -/
structure Genuine (s : State P) : Prop where
  registered : ∀ key, ∀ u ∈ s.channels key,
    ∃ target targetId, s.subscriptions[u]? = some (target, targetId) ∧ key = getChannelKey target targetId
  traced : ∀ channel p, s.Holds channel p → p.envelope ∈ s.emitted ∧ channel = p.redisChannel
  addressed : ∀ d ∈ s.delivered, d.message.data ∈ s.emitted ∧
    s.subscriptions[d.subscriber]? = some (d.message.data.target, d.message.data.targetId)

variable {s : State P}

theorem Genuine.initial : (State.initial : State P).Genuine where
  registered _ u hu := absurd hu List.not_mem_nil
  traced channel p h := by simp [Holds, waiting, State.initial] at h
  addressed d hd := absurd hd List.not_mem_nil

theorem mem_emitted_step {envelope : NotificationEnvelope P} (h : envelope ∈ s.emitted) (a : Action P) :
    envelope ∈ (s.step a).emitted := by
  obtain ⟨e, -, he⟩ | he := emitted_step s a
  · rw [he]
    exact List.mem_append_left _ h
  · rwa [he]

theorem Genuine.registered_step (hs : s.Genuine) (a : Action P) (key : String) (u : SubscriberId)
    (hu : u ∈ (s.step a).channels key) : ∃ target targetId,
      (s.step a).subscriptions[u]? = some (target, targetId) ∧ key = getChannelKey target targetId := by
  have hold (hu : u ∈ s.channels key) : ∃ target targetId,
      (s.step a).subscriptions[u]? = some (target, targetId) ∧ key = getChannelKey target targetId := by
    obtain ⟨target, targetId, hsub, hkey⟩ := hs.registered key u hu
    exact ⟨target, targetId, subscriptions_step hsub a, hkey⟩
  obtain ⟨target, targetId, -, hsub, h⟩ | ⟨v, k, -, -, h⟩ | ⟨-, h⟩ := step_subscribers s a
  · rw [h] at hu
    by_cases hk : key = getChannelKey target targetId
    · rw [← hk, Function.update_self, List.mem_append, List.mem_singleton] at hu
      obtain hu | rfl := hu
      · exact hold hu
      · exact ⟨target, targetId, by simp [hsub], hk⟩
    · rw [Function.update_of_ne hk] at hu
      exact hold hu
  · rw [h] at hu
    by_cases hk : key = k
    · rw [← hk, Function.update_self] at hu
      exact hold (List.mem_of_mem_erase hu)
    · rw [Function.update_of_ne hk] at hu
      exact hold hu
  · rw [h] at hu
    exact hold hu

theorem Genuine.traced_step (hs : s.Genuine) (a : Action P) (channel : String) (p : Publication P)
    (h : (s.step a).Holds channel p) : p.envelope ∈ (s.step a).emitted ∧ channel = p.redisChannel := by
  obtain h | ⟨rfl, -, hc⟩ := holds_step (fun c q hq => (hs.traced c q hq).2) h
  · obtain ⟨he, hc⟩ := hs.traced channel p h
    exact ⟨mem_emitted_step he a, hc⟩
  · refine ⟨?_, hc⟩
    have hemitted : (s.emit p.envelope).emitted = s.emitted ++ [p.envelope] := by
      unfold emit
      simp only
      split <;> rfl
    show p.envelope ∈ (s.emit p.envelope).emitted
    rw [hemitted]
    exact List.mem_append_right _ (List.mem_singleton_self _)

/-- A step delivers nothing, or what arrives, to those who are registered for it. -/
theorem Genuine.delivered_step (hs : s.Genuine) (a : Action P) (d : Delivery P) (hd : d ∈ (s.step a).delivered) :
    d ∈ s.delivered ∨ ∃ p : Publication P, s.Holds p.redisChannel p ∧ d.subscriber ∈ s.channels p.envelope.channelKey ∧
      d.message.data = p.envelope := by
  cases a with
  | subscribe target targetId => exact .inl ((traffic_subscribe s target targetId "").2.2 ▸ hd)
  | finalize u => exact .inl ((traffic_finalize s u "").2.2 ▸ hd)
  | emit envelope =>
    have hsame : (s.emit envelope).delivered = s.delivered := by
      unfold emit
      simp only
      split <;> rfl
    exact .inl (hsame ▸ hd)
  | execute succeeds =>
    have hsame : (s.execute succeeds).delivered = s.delivered := by
      unfold execute
      split <;> rfl
    exact .inl (hsame ▸ hd)
  | executePublish =>
    have hsame : s.executePublish.delivered = s.delivered := by
      unfold executePublish
      split <;> rfl
    exact .inl (hsame ▸ hd)
  | receive =>
    change d ∈ s.receive.delivered at hd
    obtain ⟨-, he⟩ | ⟨c, succeeded, replies, -, he⟩ | ⟨c, succeeded, replies, -, he⟩ |
      ⟨c, p, replies, hr, he⟩ := receive_cases s
    · exact .inl (he ▸ hd)
    · rw [he] at hd
      exact .inl hd
    · rw [he] at hd
      exact .inl hd
    · have hholds : s.Holds c p := .inr (.inr (.inr (by simp [hr])))
      obtain ⟨-, rfl⟩ := hs.traced c p hholds
      rw [he, handleRedisMessage_redisChannel] at hd
      rcases List.mem_append.mp hd with hd | hd
      · exact .inl hd
      · obtain ⟨u, hu, rfl⟩ := List.mem_map.mp hd
        exact .inr ⟨p, hholds, hu, rfl⟩
  | run index => exact .inl ((run_traffic s index).2 ▸ hd)

theorem Genuine.step (hs : s.Genuine) (a : Action P) : (s.step a).Genuine where
  registered := hs.registered_step a
  traced := hs.traced_step a
  addressed d hd := by
    obtain hd | ⟨p, hp, hu, hdata⟩ := hs.delivered_step a d hd
    · obtain ⟨he, hsub⟩ := hs.addressed d hd
      exact ⟨mem_emitted_step he a, subscriptions_step hsub a⟩
    · obtain ⟨target, targetId, hsub, hkey⟩ := hs.registered _ _ hu
      obtain ⟨rfl, rfl⟩ := getChannelKey_inj hkey
      rw [hdata]
      exact ⟨mem_emitted_step (hs.traced _ p hp).1 a, subscriptions_step hsub a⟩

end State

end NotificationStream

open NotificationStream

/-- What the adapter publishes for a notification that is emitted at time `now`. -/
def Notification.envelope (n : Notification) (now : Time) : NotificationEnvelope Notification where
  target := n.target
  targetId := toString n.targetId
  event := n.event
  payload := n
  timestamp := now

/-- The operations on rides that are under way, and the stream of their notifications. -/
structure Relay (ι : Type) where
  pool : Pool ι Call Call.Answer ServiceError Unit World
  stream : State Notification

/-- An operation executes its next call, at a time, or something else happens to the stream. -/
inductive Happening (ι : Type) where
  | turn (i : ι) (now : Time)
  | stream (a : Action Notification) (ha : ∀ envelope, a ≠ .emit envelope)

/-- The target is a party of the ride: its rider, or a driver that was invited to it. -/
def World.Party (w : World) (rideId : Id) : NotificationTarget → Id → Prop
  | .rider, k => ∃ r, w.rides.find rideId = some r ∧ r.riderId = k
  | .driver, k => w.Invited rideId k

namespace Relay

variable {ι : Type} [DecidableEq ι]

def start (env : Environment) (whitelist : List String) (ops : ι → RideOp) : Relay ι :=
  ⟨Pool.start (rideCalls env ops) (.initial whitelist), .initial⟩

/-- The call that sends a notification publishes it as well. -/
def step (env : Environment) (s : Relay ι) : Happening ι → Relay ι
  | .turn i now =>
    match (s.pool.procs i).pending with
    | some (.emit n) => ⟨s.pool.step (handle env) i, s.stream.emit (n.envelope now)⟩
    | _ => ⟨s.pool.step (handle env) i, s.stream⟩
  | .stream a _ => ⟨s.pool, s.stream.step a⟩

def after (env : Environment) (s : Relay ι) (happenings : List (Happening ι)) : Relay ι :=
  happenings.foldl (step env) s

/-- What the stream has been given are the notifications of the operations. -/
structure Faithful (s : Relay ι) : Prop where
  genuine : s.stream.Genuine
  emitted : ∀ envelope ∈ s.stream.emitted, ∃ n ∈ s.pool.store.notifications, ∃ now, envelope = n.envelope now

theorem mem_notifications_handle (env : Environment) {n : Notification} {w : World} (h : n ∈ w.notifications)
    (op : Call) : n ∈ (handle env op w).2.notifications := by
  by_cases hop : op.Unseen
  · rw [(hop.kept env w).2]
    exact h
  · cases op with
    | updateRideRow m =>
      simp only [handle, World.updateRideRow]
      split <;> exact h
    | claimDriver rideId d =>
      simp only [handle, World.claimDriver]
      split
      · exact h
      · split <;> exact h
    | insertRide options =>
      show n ∈ (w.insertRide options).2.notifications
      rw [insertRide_notifications]
      exact h
    | emit m => exact List.mem_append_left _ h
    | _ => exact absurd trivial hop

variable {env : Environment} {s : Relay ι}

theorem mem_notifications_step {n : Notification} (h : n ∈ s.pool.store.notifications) (i : ι) :
    n ∈ (s.pool.step (handle env) i).store.notifications := by
  obtain ⟨-, hs⟩ | ⟨op, next, -, hs⟩ := s.pool.step_cases (handle env) i
  · rw [hs]
    exact h
  · rw [hs]
    exact mem_notifications_handle env h op

theorem turn_cases (env : Environment) (s : Relay ι) (i : ι) (now : Time) :
    (∃ n next, s.pool.procs i = .call (.emit n) next ∧
      s.step env (.turn i now) = ⟨s.pool.step (handle env) i, s.stream.emit (n.envelope now)⟩) ∨
    s.step env (.turn i now) = ⟨s.pool.step (handle env) i, s.stream⟩ := by
  simp only [Relay.step]
  split
  · next n hpending =>
    left
    cases hi : s.pool.procs i with
    | ret a => simp [hi, Program.pending] at hpending
    | throw e => simp [hi, Program.pending] at hpending
    | call op next =>
      obtain rfl : op = .emit n := by simpa [hi, Program.pending] using hpending
      exact ⟨n, next, rfl, rfl⟩
  · exact .inr rfl

theorem Faithful.step (hs : s.Faithful) (e : Happening ι) : (s.step env e).Faithful := by
  cases e with
  | stream a ha =>
    refine ⟨hs.genuine.step a, fun envelope he => hs.emitted envelope ?_⟩
    obtain ⟨e, rfl, -⟩ | hsame := State.emitted_step s.stream a
    · exact absurd rfl (ha e)
    · exact hsame ▸ he
  | turn i now =>
    have hold (envelope : NotificationEnvelope Notification) (he : envelope ∈ s.stream.emitted) :
        ∃ n ∈ (s.pool.step (handle env) i).store.notifications, ∃ now, envelope = n.envelope now := by
      obtain ⟨n, hn, now, rfl⟩ := hs.emitted envelope he
      exact ⟨n, mem_notifications_step hn i, now, rfl⟩
    obtain ⟨n, next, hi, hstep⟩ | hstep := turn_cases env s i now
    · rw [hstep]
      have hsent : n ∈ (s.pool.step (handle env) i).store.notifications := by
        rw [Pool.step_call (handle env) hi]
        exact List.mem_append_right _ (List.mem_singleton_self _)
      refine ⟨hs.genuine.step (.emit (n.envelope now)), fun envelope he => ?_⟩
      have he : envelope ∈ (s.stream.step (.emit (n.envelope now))).emitted := he
      obtain ⟨e, hemit, hlog⟩ | hsame := State.emitted_step s.stream (.emit (n.envelope now))
      · obtain rfl := Action.emit.inj hemit
        rw [hlog] at he
        rcases List.mem_append.mp he with he | he
        · exact hold envelope he
        · exact ⟨n, hsent, now, List.mem_singleton.mp he⟩
      · exact hold envelope (hsame ▸ he)
    · rw [hstep]
      exact ⟨hs.genuine, hold⟩

/-- The operations run as in a schedule of their own. -/
theorem pool_after (env : Environment) (s : Relay ι) (happenings : List (Happening ι)) :
    ∃ sched, (s.after env happenings).pool = s.pool.exec (handle env) sched := by
  induction happenings generalizing s with
  | nil => exact ⟨[], rfl⟩
  | cons e happenings ih =>
    obtain ⟨sched, hsched⟩ := ih (s.step env e)
    have hafter : s.after env (e :: happenings) = (s.step env e).after env happenings := rfl
    rw [hafter, hsched]
    cases e with
    | stream a ha => exact ⟨sched, rfl⟩
    | turn i now =>
      refine ⟨i :: sched, ?_⟩
      have hpool : (s.step env (.turn i now)).pool = s.pool.step (handle env) i := by
        obtain ⟨n, next, -, hstep⟩ | hstep := turn_cases env s i now <;> rw [hstep]
      rw [hpool]
      rfl

theorem faithful_after (hs : s.Faithful) (happenings : List (Happening ι)) : (s.after env happenings).Faithful := by
  induction happenings generalizing s with
  | nil => exact hs
  | cons e happenings ih => exact ih (hs.step e)

omit [DecidableEq ι] in
theorem faithful_start (env : Environment) (whitelist : List String) (ops : ι → RideOp) :
    (start env whitelist ops).Faithful :=
  ⟨.initial, fun _ he => absurd he List.not_mem_nil⟩

end Relay

/-- A driver connects, a ride is booked, and everything is carried out in turn. -/
def offerReceived : List (Happening (Fin 1)) :=
  [.stream (.subscribe .driver "8") (by simp), .stream (.execute true) (by simp), .stream .receive (by simp),
      .stream (.run 0) (by simp), .stream (.run 0) (by simp)] ++
    List.replicate 20 (.turn 0 3) ++ List.replicate 4 (.stream (.run 0) (by simp)) ++
    List.replicate 4 (.stream .executePublish (by simp)) ++ List.replicate 4 (.stream .receive (by simp))

end NebLite
