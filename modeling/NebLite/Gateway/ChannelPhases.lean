import NebLite.Atomic.Fairness
import NebLite.Gateway.NotificationStream

/-! The phases of one Redis channel. What the adapter and its connection know of a channel is its
view; while every command succeeds, the views that occur are the eight of `phases`. -/

namespace NebLite

namespace NotificationStream

open Atomic

variable {P : Type}

/-- What there is of one channel: `queue` are its commands that Redis has not executed yet, a
SUBSCRIBE as `true`, and the counts are the replies and the jobs of its SUBSCRIBE. -/
structure ChannelView where
  subscribed : Bool
  pending : Bool
  queue : List Bool
  listening : Bool
  accepted : ℕ := 0
  resolved : ℕ := 0
  settling : ℕ := 0
  failures : ℕ := 0
  deriving DecidableEq

namespace ChannelView

/-- Nobody is served, or the UNSUBSCRIBE is on its way. -/
def idle : ChannelView := ⟨false, false, [], false, 0, 0, 0, 0⟩
def leaving : ChannelView := ⟨false, false, [false], true, 0, 0, 0, 0⟩
/-- The SUBSCRIBE is on its way, after the UNSUBSCRIBE of an earlier one where that is not executed. -/
def opening : ChannelView := ⟨false, true, [true], false, 0, 0, 0, 0⟩
def reopening : ChannelView := ⟨false, true, [false, true], true, 0, 0, 0, 0⟩
/-- Redis listens; its reply, then the callbacks, are on their way. -/
def answered : ChannelView := ⟨false, true, [], true, 1, 0, 0, 0⟩
def fulfilled : ChannelView := ⟨false, true, [], true, 0, 1, 0, 0⟩
def added : ChannelView := ⟨true, true, [], true, 0, 0, 1, 0⟩
def active : ChannelView := ⟨true, false, [], true, 0, 0, 0, 0⟩

def phases : List ChannelView :=
  [idle, leaving, opening, reopening, answered, fulfilled, added, active]

variable (v : ChannelView)

def ensure : ChannelView :=
  if v.subscribed || v.pending then v else { v with queue := v.queue ++ [true], pending := true }

def cleanup : ChannelView :=
  if v.pending then v
  else if v.subscribed then { v with subscribed := false, queue := v.queue ++ [false] }
  else v

def execute (command : Bool) : ChannelView :=
  { v with
    queue := v.queue.tail
    listening := command
    accepted := if command then v.accepted + 1 else v.accepted }

def resolve : ChannelView := { v with accepted := v.accepted - 1, resolved := v.resolved + 1 }

def add : ChannelView :=
  { v with resolved := v.resolved - 1, subscribed := true, settling := v.settling + 1 }

def settle : ChannelView := { v with settling := v.settling - 1, pending := false }

/-- Redis refuses the next command. -/
def refuse (command : Bool) : ChannelView :=
  { v with
    queue := v.queue.tail
    failures := if command then v.failures + 1 else v.failures }

def reject : ChannelView := { v with subscribed := false }

def abandon : ChannelView := { v with failures := v.failures - 1, pending := false }

/-- All that a step does to the view of a channel, where only a channel that is `left` is cleaned up. -/
inductive Moves (succeeds left : Prop) : ChannelView → Prop
  | same : Moves succeeds left v
  | ensure : Moves succeeds left v.ensure
  | cleanup : left → Moves succeeds left v.cleanup
  | execute {command} : v.queue.head? = some command → Moves succeeds left (v.execute command)
  | refuse {command} : ¬ succeeds → v.queue.head? = some command → Moves succeeds left (v.refuse command)
  | resolve : 0 < v.accepted → Moves succeeds left v.resolve
  | add : 0 < v.resolved → Moves succeeds left v.add
  | settle : 0 < v.settling → Moves succeeds left v.settle
  | reject : 0 < v.failures → Moves succeeds left v.reject
  | abandon : 0 < v.failures → Moves succeeds left v.abandon

variable {v}

theorem failures_eq (h : v ∈ phases) : v.failures = 0 := by
  have hall : ∀ v ∈ phases, v.failures = 0 := by decide
  exact hall v h

theorem Moves.mem {succeeds left : Prop} {v' : ChannelView} (h : v.Moves succeeds left v') (hsucceeds : succeeds)
    (hv : v ∈ phases) : v' ∈ phases := by
  have hfailures := failures_eq hv
  cases h with
  | same => exact hv
  | ensure =>
    have hall : ∀ v ∈ phases, v.ensure ∈ phases := by decide
    exact hall v hv
  | cleanup =>
    have hall : ∀ v ∈ phases, v.cleanup ∈ phases := by decide
    exact hall v hv
  | execute hq =>
    have hall : ∀ v ∈ phases, ∀ command, v.queue.head? = some command →
        v.execute command ∈ phases := by decide
    exact hall v hv _ hq
  | refuse hno => exact absurd hsucceeds hno
  | resolve ha =>
    have hall : ∀ v ∈ phases, 0 < v.accepted → v.resolve ∈ phases := by decide
    exact hall v hv ha
  | add hr =>
    have hall : ∀ v ∈ phases, 0 < v.resolved → v.add ∈ phases := by decide
    exact hall v hv hr
  | settle hs =>
    have hall : ∀ v ∈ phases, 0 < v.settling → v.settle ∈ phases := by decide
    exact hall v hv hs
  | reject hf => omega
  | abandon hf => omega

/-- The adapter counts a channel as subscribed only while Redis listens to it. -/
theorem listening_of_subscribed (h : v ∈ phases) (hs : v.subscribed = true) :
    v.listening = true ∧ v.queue = [] := by
  have hall : ∀ v ∈ phases, v.subscribed = true → v.listening = true ∧ v.queue = [] := by decide
  exact hall v h hs

theorem pending_cases (h : v ∈ phases) (hp : v.pending = true) :
    true ∈ v.queue ∨ 0 < v.accepted ∨ 0 < v.resolved ∨ 0 < v.settling := by
  have hall : ∀ v ∈ phases, v.pending = true →
      true ∈ v.queue ∨ 0 < v.accepted ∨ 0 < v.resolved ∨ 0 < v.settling := by decide
  exact hall v h hp

theorem pending_of_resolved (h : v ∈ phases) (hr : 0 < v.resolved) : v.pending = true := by
  have hall : ∀ v ∈ phases, 0 < v.resolved → v.pending = true := by decide
  exact hall v h hr

theorem subscribed_of_settling (h : v ∈ phases) (hs : 0 < v.settling) : v.subscribed = true := by
  have hall : ∀ v ∈ phases, 0 < v.settling → v.subscribed = true := by decide
  exact hall v h hs

end ChannelView

section View

def Command.on (redisChannel : String) : Command → Option Bool
  | .subscribe channel => if channel = redisChannel then some true else none
  | .unsubscribe channel => if channel = redisChannel then some false else none

def Reply.answers (redisChannel : String) (succeeded : Bool) : Reply P → Bool
  | .done (.subscribe channel) ok => channel = redisChannel && ok = succeeded
  | _ => false

def Job.fulfills (redisChannel : String) : Job P → Bool
  | .subscribed channel => channel = redisChannel
  | _ => false

def Job.rejects (redisChannel : String) : Job P → Bool
  | .failed channel => channel = redisChannel
  | .settled channel ok => channel = redisChannel && !ok
  | _ => false

def Job.settles (redisChannel : String) : Job P → Bool
  | .settled channel ok => channel = redisChannel && ok
  | _ => false

def State.view (s : State P) (redisChannel : String) : ChannelView where
  subscribed := s.redisSubscribedChannels redisChannel
  pending := (s.redisSubscriptionPromises redisChannel).isSome
  queue := s.commands.filterMap (Command.on redisChannel)
  listening := s.listening redisChannel
  accepted := s.replies.countP (Reply.answers redisChannel true)
  resolved := s.jobs.countP (Job.fulfills redisChannel)
  settling := s.jobs.countP (Job.settles redisChannel)
  failures := s.replies.countP (Reply.answers redisChannel false) + s.jobs.countP (Job.rejects redisChannel)

end View

namespace State

variable {s : State P} {channelKey redisChannel channel : String}

@[simp] theorem fulfills_comp_callback :
    Job.fulfills redisChannel ∘ Job.callback = fun _ : Callback P => false := rfl

@[simp] theorem settles_comp_callback :
    Job.settles redisChannel ∘ Job.callback = fun _ : Callback P => false := rfl

@[simp] theorem rejects_comp_callback :
    Job.rejects redisChannel ∘ Job.callback = fun _ : Callback P => false := rfl

theorem getRedisChannel_inj {channelKey' : String} (h : getRedisChannel channelKey = getRedisChannel channelKey') :
    channelKey = channelKey' := by
  simpa [getRedisChannel] using h

theorem ensure_cases (s : State P) (channelKey : String) :
    ((s.redisSubscribedChannels (getRedisChannel channelKey) = true ∨
        ∃ callbacks, s.redisSubscriptionPromises (getRedisChannel channelKey) = some callbacks) ∧
      s.ensureRedisSubscription channelKey = s) ∨
    (s.redisSubscribedChannels (getRedisChannel channelKey) = false ∧
      s.redisSubscriptionPromises (getRedisChannel channelKey) = none ∧
      s.ensureRedisSubscription channelKey =
        { s with
          commands := s.commands ++ [.subscribe (getRedisChannel channelKey)]
          redisSubscriptionPromises :=
            Function.update s.redisSubscriptionPromises (getRedisChannel channelKey) (some []) }) := by
  cases hsub : s.redisSubscribedChannels (getRedisChannel channelKey) with
  | true => exact .inl ⟨.inl rfl, by simp [ensureRedisSubscription, hsub]⟩
  | false =>
    cases hprom : s.redisSubscriptionPromises (getRedisChannel channelKey) with
    | some callbacks => exact .inl ⟨.inr ⟨callbacks, rfl⟩, by simp [ensureRedisSubscription, hprom]⟩
    | none => exact .inr ⟨rfl, rfl, by simp [ensureRedisSubscription, hsub, hprom]⟩

theorem cleanup_cases (s : State P) (channelKey : String) :
    (∃ callbacks, s.redisSubscriptionPromises (getRedisChannel channelKey) = some callbacks ∧
      s.cleanupRedisSubscription channelKey =
        s.attach (getRedisChannel channelKey) callbacks (.cleanup channelKey)) ∨
    (s.redisSubscriptionPromises (getRedisChannel channelKey) = none ∧
      s.redisSubscribedChannels (getRedisChannel channelKey) = true ∧
      s.cleanupRedisSubscription channelKey =
        { s with
          redisSubscribedChannels :=
            Function.update s.redisSubscribedChannels (getRedisChannel channelKey) false
          commands := s.commands ++ [.unsubscribe (getRedisChannel channelKey)] }) ∨
    (s.redisSubscriptionPromises (getRedisChannel channelKey) = none ∧
      s.redisSubscribedChannels (getRedisChannel channelKey) = false ∧
      s.cleanupRedisSubscription channelKey = s) := by
  cases hprom : s.redisSubscriptionPromises (getRedisChannel channelKey) with
  | some callbacks => exact .inl ⟨callbacks, rfl, by simp [cleanupRedisSubscription, hprom]⟩
  | none =>
    cases hsub : s.redisSubscribedChannels (getRedisChannel channelKey) with
    | true => exact .inr (.inl ⟨rfl, rfl, by simp [cleanupRedisSubscription, hprom, hsub]⟩)
    | false => exact .inr (.inr ⟨rfl, rfl, by simp [cleanupRedisSubscription, hprom, hsub]⟩)

theorem view_ensure : (s.ensureRedisSubscription channelKey).view channel =
    if channel = getRedisChannel channelKey then (s.view channel).ensure else s.view channel := by
  obtain ⟨hserved, h⟩ | ⟨hsub, hprom, h⟩ := ensure_cases s channelKey
  · rw [h]
    split
    next hc =>
      have hv : (s.view channel).subscribed || (s.view channel).pending := by
        obtain hsub | ⟨callbacks, hprom⟩ := hserved
        · simp [view, hc, hsub]
        · simp [view, hc, hprom]
      rw [ChannelView.ensure, if_pos hv]
    · rfl
  · rw [h]
    split
    next hc => simp [view, ChannelView.ensure, Command.on, hc, hsub, hprom]
    next hc => simp [view, Command.on, hc, Ne.symm hc]

theorem view_cleanup : (s.cleanupRedisSubscription channelKey).view channel =
    if channel = getRedisChannel channelKey then (s.view channel).cleanup else s.view channel := by
  obtain ⟨callbacks, hprom, h⟩ | ⟨hprom, hsub, h⟩ | ⟨hprom, hsub, h⟩ := cleanup_cases s channelKey
  · rw [h]
    split
    next hc => simp [view, attach, ChannelView.cleanup, hc, hprom]
    next hc => simp [view, attach, hc]
  · rw [h]
    split
    next hc => simp [view, ChannelView.cleanup, Command.on, hc, hprom, hsub]
    next hc => simp [view, Command.on, hc, Ne.symm hc]
  · rw [h]
    split
    next hc => simp [view, ChannelView.cleanup, hc, hprom, hsub]
    · rfl

theorem moves_ensure {succeeds left : Prop} {v : ChannelView} (hv : s.view channel = v) :
    v.Moves succeeds left ((s.ensureRedisSubscription channelKey).view channel) := by
  rw [view_ensure, hv]
  split
  · exact .ensure
  · exact .same

theorem moves_cleanup {succeeds left : Prop} {v : ChannelView} (hv : s.view channel = v)
    (hleft : channel = getRedisChannel channelKey → left) :
    v.Moves succeeds left ((s.cleanupRedisSubscription channelKey).view channel) := by
  rw [view_cleanup, hv]
  split
  · next hc => exact .cleanup (hleft hc)
  · exact .same

theorem finalize_cases (s : State P) (subscriber : SubscriberId) :
    (s.finalize subscriber = s ∧ ∀ target targetId,
      s.subscriptions[subscriber]? = some (target, targetId) →
        s.channels (getChannelKey target targetId) = []) ∨
    ∃ target targetId, s.subscriptions[subscriber]? = some (target, targetId) ∧
      let remaining := (s.channels (getChannelKey target targetId)).erase subscriber
      let t := { s with channels := Function.update s.channels (getChannelKey target targetId) remaining }
      remaining ≠ [] ∧ s.finalize subscriber = t ∨
        remaining = [] ∧ s.finalize subscriber = t.cleanupRedisSubscription (getChannelKey target targetId) := by
  cases hs : s.subscriptions[subscriber]? with
  | none => exact .inl ⟨by simp [finalize, hs], nofun⟩
  | some subscription =>
    obtain ⟨target, targetId⟩ := subscription
    cases hc : s.channels (getChannelKey target targetId) with
    | nil =>
      refine .inl ⟨by simp [finalize, hs, hc], ?_⟩
      rintro _ _ ⟨⟩
      exact hc
    | cons v vs =>
      refine .inr ⟨target, targetId, rfl, ?_⟩
      by_cases hr : (v :: vs).erase subscriber = []
      · refine .inr ⟨by rw [hc, hr], ?_⟩
        simp only [finalize, hs, hc, hr, List.length_nil, ite_true]
      · have hlength : ((v :: vs).erase subscriber).length ≠ 0 := by
          rw [Ne, List.length_eq_zero_iff]
          exact hr
        refine .inl ⟨by rw [hc]; exact hr, ?_⟩
        simp only [finalize, hs, hc, if_neg hlength]

/-- No client is registered for the channel. -/
def Vacant (s : State P) (channel : String) : Prop := ∀ key, channel = getRedisChannel key → s.channels key = []

theorem vacant_cleanup (h : s.channels channelKey = []) :
    (s.cleanupRedisSubscription channelKey).Vacant (getRedisChannel channelKey) := by
  intro key hkey
  rw [← getRedisChannel_inj hkey]
  obtain ⟨callbacks, -, hs⟩ | ⟨-, -, hs⟩ | ⟨-, -, hs⟩ := cleanup_cases s channelKey
  · rw [hs]
    exact h
  · rw [hs]
    exact h
  · rwa [hs]

theorem moves_finalize {succeeds : Prop} {subscriber : SubscriberId} :
    (s.view channel).Moves succeeds ((s.finalize subscriber).Vacant channel)
      ((s.finalize subscriber).view channel) := by
  obtain ⟨hs, -⟩ | ⟨target, targetId, -, ⟨-, hs⟩ | ⟨hempty, hs⟩⟩ := finalize_cases s subscriber
  · rw [hs]
    exact .same
  · rw [hs]
    exact .same
  · rw [hs]
    refine moves_cleanup rfl fun hc => ?_
    rw [hc]
    exact vacant_cleanup (by simpa using hempty)

theorem emit_cases (s : State P) (envelope : NotificationEnvelope P) :
    (∃ callbacks, s.redisSubscriptionPromises (getRedisChannel envelope.channelKey) = some callbacks ∧
      s.emit envelope =
        { s with emitted := s.emitted ++ [envelope] }.attach (getRedisChannel envelope.channelKey) callbacks
          (.publish ⟨s.emitted.length, envelope⟩)) ∨
    (s.redisSubscriptionPromises (getRedisChannel envelope.channelKey) = none ∧
      s.emit envelope =
        { s with
          emitted := s.emitted ++ [envelope]
          jobs := s.jobs ++ [.callback (.publish ⟨s.emitted.length, envelope⟩)] }) := by
  cases hprom : s.redisSubscriptionPromises (getRedisChannel envelope.channelKey) with
  | some callbacks => exact .inl ⟨callbacks, rfl, by simp [emit, hprom]⟩
  | none => exact .inr ⟨rfl, by simp [emit, hprom]⟩

theorem view_emit (envelope : NotificationEnvelope P) :
    (s.emit envelope).view channel = s.view channel := by
  obtain ⟨callbacks, hprom, h⟩ | ⟨-, h⟩ := emit_cases s envelope
  · rw [h]
    by_cases hc : channel = getRedisChannel envelope.channelKey
    · simp [view, attach, hc, hprom]
    · simp [view, attach, hc]
  · rw [h]
    simp [view, Job.fulfills, Job.settles, Job.rejects]

theorem execute_cases (s : State P) (succeeds : Bool) :
    (s.commands = [] ∧ s.execute succeeds = s) ∨
    ∃ command commands listening, s.commands = command :: commands ∧
      s.execute succeeds =
        { s with commands, listening, replies := s.replies ++ [.done command succeeds] } := by
  cases hc : s.commands with
  | nil => exact .inl ⟨rfl, by simp only [execute, hc]⟩
  | cons command commands =>
    exact .inr ⟨command, commands, (s.execute succeeds).listening, rfl, by simp only [execute, hc]⟩

theorem moves_execute {succeeds : Bool} {left : Prop} :
    (s.view channel).Moves (succeeds = true) left ((s.execute succeeds).view channel) := by
  cases hc : s.commands with
  | nil =>
    simp only [execute, hc]
    exact .same
  | cons command commands =>
    have hview : (s.execute succeeds).view channel =
        match command.on channel with
        | some subscribes =>
          if succeeds then (s.view channel).execute subscribes else (s.view channel).refuse subscribes
        | none => s.view channel := by
      cases command with
      | subscribe c =>
        by_cases hne : c = channel
        · cases succeeds <;>
            simp [execute, hc, view, Command.on, ChannelView.execute, ChannelView.refuse, hne, Reply.answers,
              List.countP_append, Nat.add_right_comm]
        · cases succeeds <;>
            simp [execute, hc, view, Command.on, hne, Reply.answers, List.countP_append, Ne.symm hne]
      | unsubscribe c =>
        by_cases hne : c = channel
        · cases succeeds <;>
            simp [execute, hc, view, Command.on, ChannelView.execute, ChannelView.refuse, hne, Reply.answers,
              List.countP_append]
        · cases succeeds <;>
            simp [execute, hc, view, Command.on, hne, Reply.answers, List.countP_append, Ne.symm hne]
    rw [hview]
    cases hon : command.on channel with
    | none => exact .same
    | some subscribes =>
      have hhead : (s.view channel).queue.head? = some subscribes := by simp [view, hc, hon]
      cases succeeds with
      | true => exact .execute hhead
      | false => exact .refuse Bool.false_ne_true hhead

theorem executePublish_cases (s : State P) :
    (s.publishes = [] ∧ s.executePublish = s) ∨
    ∃ channel publication publishes, s.publishes = (channel, publication) :: publishes ∧
      (s.listening channel = true ∧
        s.executePublish = { s with publishes, replies := s.replies ++ [.message channel publication] } ∨
      s.listening channel = false ∧ s.executePublish = { s with publishes }) := by
  cases hp : s.publishes with
  | nil => exact .inl ⟨rfl, by simp only [executePublish, hp]⟩
  | cons head publishes =>
    obtain ⟨channel, publication⟩ := head
    refine .inr ⟨channel, publication, publishes, rfl, ?_⟩
    cases hl : s.listening channel with
    | true => exact .inl ⟨rfl, by simp only [executePublish, hp, hl, ite_true]⟩
    | false => exact .inr ⟨rfl, by simp [executePublish, hp, hl]⟩

theorem view_executePublish : s.executePublish.view channel = s.view channel := by
  obtain ⟨-, h⟩ | ⟨c, publication, publishes, -, ⟨-, h⟩ | ⟨-, h⟩⟩ := executePublish_cases s
  · rw [h]
  · rw [h]
    simp [view, Reply.answers]
  · rw [h]
    rfl

theorem view_handleRedisMessage {publication : Publication P} :
    (s.handleRedisMessage redisChannel publication).view channel = s.view channel := by
  unfold handleRedisMessage
  split
  · rfl
  · split
    · rfl
    · rfl

theorem receive_cases (s : State P) :
    (s.replies = [] ∧ s.receive = s) ∨
    (∃ channel succeeded replies, s.replies = .done (.subscribe channel) succeeded :: replies ∧
      s.receive =
        { s with
          replies
          jobs := s.jobs ++ [if succeeded then .subscribed channel else .failed channel] }) ∨
    (∃ channel succeeded replies, s.replies = .done (.unsubscribe channel) succeeded :: replies ∧
      s.receive = { s with replies }) ∨
    ∃ channel publication replies, s.replies = .message channel publication :: replies ∧
      s.receive = { s with replies }.handleRedisMessage channel publication := by
  cases hr : s.replies with
  | nil => exact .inl ⟨rfl, by simp only [receive, hr]⟩
  | cons reply replies =>
    cases reply with
    | message channel publication =>
      exact .inr (.inr (.inr ⟨channel, publication, replies, rfl, by simp only [receive, hr]⟩))
    | done command succeeded =>
      cases command with
      | subscribe channel =>
        exact .inr (.inl ⟨channel, succeeded, replies, rfl, by simp only [receive, hr]⟩)
      | unsubscribe channel =>
        exact .inr (.inr (.inl ⟨channel, succeeded, replies, rfl, by simp only [receive, hr]⟩))

theorem moves_receive {succeeds left : Prop} : (s.view channel).Moves succeeds left (s.receive.view channel) := by
  obtain ⟨-, h⟩ | ⟨c, succeeded, replies, hr, h⟩ | ⟨c, succeeded, replies, hr, h⟩ |
    ⟨c, publication, replies, hr, h⟩ := receive_cases s
  · rw [h]
    exact .same
  · by_cases hc : c = channel
    · cases succeeded with
      | false =>
        have hview : s.receive.view channel = s.view channel := by
          rw [h]
          simp [view, hr, Reply.answers, hc, Job.fulfills, Job.settles, Job.rejects]
          omega
        rw [hview]
        exact .same
      | true =>
        have hview : s.receive.view channel = (s.view channel).resolve := by
          rw [h]
          simp [view, hr, Reply.answers, hc, ChannelView.resolve, Job.fulfills, Job.settles, Job.rejects]
        rw [hview]
        exact .resolve (by simp [view, hr, Reply.answers, hc])
    · have hview : s.receive.view channel = s.view channel := by
        rw [h]
        cases succeeded <;> simp [view, hr, Reply.answers, hc, Job.fulfills, Job.settles, Job.rejects]
      rw [hview]
      exact .same
  · have hview : s.receive.view channel = s.view channel := by
      rw [h]
      simp [view, hr, Reply.answers]
    rw [hview]
    exact .same
  · have hview : s.receive.view channel = s.view channel := by
      rw [h, view_handleRedisMessage]
      simp [view, hr, Reply.answers]
    rw [hview]
    exact .same

theorem run_cases (s : State P) (index : ℕ) :
    (s.jobs[index]? = none ∧ s.run index = s) ∨
    ∃ job, s.jobs[index]? = some job ∧
      s.run index = { s with jobs := s.jobs.eraseIdx index }.runJob job := by
  cases hj : s.jobs[index]? with
  | none => exact .inl ⟨rfl, by simp only [run, hj]⟩
  | some job => exact .inr ⟨job, rfl, by simp only [run, hj]⟩

theorem moves_run {succeeds : Prop} {index : ℕ} :
    (s.view channel).Moves succeeds ((s.run index).Vacant channel) ((s.run index).view channel) := by
  obtain ⟨-, h⟩ | ⟨job, hj, h⟩ := run_cases s index
  · rw [h]
    exact .same
  rw [h]
  have hfulfills := countP_eraseIdx_add (Job.fulfills channel) hj
  have hsettles := countP_eraseIdx_add (Job.settles channel) hj
  have hrejects := countP_eraseIdx_add (Job.rejects channel) hj
  have hsame (t : State P) (ht : t.view channel = s.view channel) :
      (s.view channel).Moves succeeds (t.Vacant channel) (t.view channel) := by
    rw [ht]
    exact .same
  cases job with
  | subscribed c =>
    by_cases hc : c = channel
    · have hpos : 0 < (s.view channel).resolved := by simp [view, ← hfulfills, Job.fulfills, hc]
      have hview : ({ s with jobs := s.jobs.eraseIdx index }.runJob (.subscribed c)).view channel =
          (s.view channel).add := by
        simp [view, runJob, ChannelView.add, ← hfulfills, ← hsettles, ← hrejects, Job.fulfills, Job.settles,
          Job.rejects, hc]
      rw [hview]
      exact .add hpos
    · refine hsame _ ?_
      simp [view, runJob, ← hfulfills, ← hsettles, ← hrejects, Job.fulfills, Job.settles, Job.rejects, hc,
        Ne.symm hc]
  | failed c =>
    by_cases hc : c = channel
    · have hpos : 0 < (s.view channel).failures := by
        simp only [view, ← hrejects, Job.rejects, hc]
        simp
      have hview : ({ s with jobs := s.jobs.eraseIdx index }.runJob (.failed c)).view channel =
          (s.view channel).reject := by
        simp [view, runJob, ChannelView.reject, ← hfulfills, ← hsettles, ← hrejects, Job.fulfills, Job.settles,
          Job.rejects, hc]
      rw [hview]
      exact .reject hpos
    · refine hsame _ ?_
      simp [view, runJob, ← hfulfills, ← hsettles, ← hrejects, Job.fulfills, Job.settles, Job.rejects, hc,
        Ne.symm hc]
  | settled c succeeded =>
    by_cases hc : c = channel
    · cases succeeded with
      | true =>
        have hpos : 0 < (s.view channel).settling := by simp [view, ← hsettles, Job.settles, hc]
        have hview : ({ s with jobs := s.jobs.eraseIdx index }.runJob (.settled c true)).view channel =
            (s.view channel).settle := by
          simp [view, runJob, ChannelView.settle, ← hfulfills, ← hsettles, ← hrejects, Job.fulfills,
            Job.settles, Job.rejects, hc]
        rw [hview]
        exact .settle hpos
      | false =>
        have hpos : 0 < (s.view channel).failures := by
          simp only [view, ← hrejects, Job.rejects, hc]
          simp
        have hview : ({ s with jobs := s.jobs.eraseIdx index }.runJob (.settled c false)).view channel =
            (s.view channel).abandon := by
          simp [view, runJob, ChannelView.abandon, ← hfulfills, ← hsettles, ← hrejects, Job.fulfills,
            Job.settles, Job.rejects, hc]
        rw [hview]
        exact .abandon hpos
    · refine hsame _ ?_
      simp [view, runJob, ← hfulfills, ← hsettles, ← hrejects, Job.fulfills, Job.settles, Job.rejects, hc,
        Ne.symm hc]
  | callback callback =>
    have hview : ({ s with jobs := s.jobs.eraseIdx index } : State P).view channel = s.view channel := by
      simp [view, ← hfulfills, ← hsettles, ← hrejects, Job.fulfills, Job.settles, Job.rejects]
    cases callback with
    | publish publication => exact hsame _ hview
    | cleanup key =>
      simp only [runJob]
      split
      · exact hsame _ hview
      · next hclients =>
        refine moves_cleanup hview fun hc => ?_
        rw [hc]
        exact vacant_cleanup (List.length_eq_zero_iff.mp (Nat.eq_zero_of_not_pos hclients))

/-- The view of a channel moves as `Moves` says, and only a vacant channel is cleaned up. -/
theorem view_step (s : State P) (a : Action P) (channel : String) :
    (s.view channel).Moves a.Succeeds ((s.step a).Vacant channel) ((s.step a).view channel) := by
  cases a with
  | subscribe target targetId => exact moves_ensure rfl
  | finalize subscriber => exact moves_finalize
  | emit envelope =>
    show (s.view channel).Moves _ _ ((s.emit envelope).view channel)
    rw [view_emit]
    exact .same
  | execute succeeds => exact moves_execute
  | executePublish =>
    show (s.view channel).Moves _ _ (s.executePublish.view channel)
    rw [view_executePublish]
    exact .same
  | receive => exact moves_receive
  | run index => exact moves_run

theorem view_step_mem {a : Action P} (hs : s.view channel ∈ ChannelView.phases) (ha : a.Succeeds) :
    (s.step a).view channel ∈ ChannelView.phases :=
  (view_step s a channel).mem ha hs

end State

end NotificationStream

end NebLite
