import NebLite.Store

/-! `NotificationStreamAdapter` and its two Redis connections: the subjects of the connected
clients, the channels that Redis listens to, and the publications on their way. The callbacks
of promises are jobs; those of one promise chain run in order, others in any order. -/

namespace NebLite

namespace NotificationStream

abbrev SubscriberId := ℕ

/-- The payload is a JSON value, so an envelope is parsed as it was written. -/
structure NotificationEnvelope (P : Type) where
  target : NotificationTarget
  targetId : String
  event : String
  payload : P
  timestamp : Time
  deriving DecidableEq

structure MessageEvent (P : Type) where
  type : String
  data : NotificationEnvelope P
  deriving DecidableEq

/-- The envelope of a call of `emit`, and which call it is. -/
structure Publication (P : Type) where
  call : ℕ
  envelope : NotificationEnvelope P

/-- What is attached to a subscription promise: the rest of a cleanup, or of an `emit`. -/
inductive Callback (P : Type) where
  | cleanup (channelKey : String)
  | publish (publication : Publication P)

/-- The callbacks `then`, `catch` and `finally` of a SUBSCRIBE, and what was attached to it. -/
inductive Job (P : Type) where
  | subscribed (redisChannel : String)
  | failed (redisChannel : String)
  | settled (redisChannel : String) (succeeded : Bool)
  | callback (callback : Callback P)

inductive Command where
  | subscribe (redisChannel : String)
  | unsubscribe (redisChannel : String)

inductive Reply (P : Type) where
  | done (command : Command) (succeeded : Bool)
  | message (redisChannel : String) (publication : Publication P)

/-- A call of `next` on the subject of a subscriber. -/
structure Delivery (P : Type) where
  subscriber : SubscriberId
  call : ℕ
  message : MessageEvent P
  deriving DecidableEq

/-- The fields of the adapter, what is under way on its connections, and the channels that
Redis listens to for it; the calls of `subscribe` and `emit` and the deliveries so far. -/
structure State (P : Type) where
  channels : String → List SubscriberId
  redisSubscribedChannels : String → Bool
  redisSubscriptionPromises : String → Option (List (Callback P))
  jobs : List (Job P)
  commands : List Command
  listening : String → Bool
  publishes : List (String × Publication P)
  replies : List (Reply P)
  subscriptions : List (NotificationTarget × String)
  emitted : List (NotificationEnvelope P)
  delivered : List (Delivery P)

variable {P : Type}

def State.initial : State P where
  channels _ := []
  redisSubscribedChannels _ := false
  redisSubscriptionPromises _ := none
  jobs := []
  commands := []
  listening _ := false
  publishes := []
  replies := []
  subscriptions := []
  emitted := []
  delivered := []

def targetText : NotificationTarget → String
  | .rider => "rider"
  | .driver => "driver"

def getChannelKey (target : NotificationTarget) (targetId : String) : String :=
  targetText target ++ ":" ++ targetId

def redisPrefix : String := "notifications:"

def getRedisChannel (channelKey : String) : String := redisPrefix ++ channelKey

def extractChannelKey (redisChannel : String) : Option String :=
  if redisPrefix.toList.isPrefixOf redisChannel.toList then
    some (.ofList (redisChannel.toList.drop redisPrefix.length))
  else none

def NotificationEnvelope.channelKey (envelope : NotificationEnvelope P) : String :=
  getChannelKey envelope.target envelope.targetId

namespace State

variable (s : State P)

def ensureRedisSubscription (channelKey : String) : State P :=
  let redisChannel := getRedisChannel channelKey
  if s.redisSubscribedChannels redisChannel || (s.redisSubscriptionPromises redisChannel).isSome then s
  else
    { s with
      commands := s.commands ++ [.subscribe redisChannel]
      redisSubscriptionPromises := Function.update s.redisSubscriptionPromises redisChannel (some []) }

def subscribe (target : NotificationTarget) (targetId : String) : State P :=
  let channelKey := getChannelKey target targetId
  let subscriber := s.subscriptions.length
  ensureRedisSubscription
    { s with
      subscriptions := s.subscriptions ++ [(target, targetId)]
      channels := Function.update s.channels channelKey (s.channels channelKey ++ [subscriber]) }
    channelKey

def attach (redisChannel : String) (callbacks : List (Callback P)) (callback : Callback P) : State P :=
  { s with
    redisSubscriptionPromises :=
      Function.update s.redisSubscriptionPromises redisChannel (some (callbacks ++ [callback])) }

def cleanupRedisSubscription (channelKey : String) : State P :=
  let redisChannel := getRedisChannel channelKey
  match s.redisSubscriptionPromises redisChannel with
  | some callbacks => s.attach redisChannel callbacks (.cleanup channelKey)
  | none =>
    if s.redisSubscribedChannels redisChannel then
      { s with
        redisSubscribedChannels := Function.update s.redisSubscribedChannels redisChannel false
        commands := s.commands ++ [.unsubscribe redisChannel] }
    else s

/-- The `finalize` of a subscriber's observable. -/
def finalize (subscriber : SubscriberId) : State P :=
  match s.subscriptions[subscriber]? with
  | none => s
  | some (target, targetId) =>
    let channelKey := getChannelKey target targetId
    match s.channels channelKey with
    | [] => s
    | channelSubscribers =>
      let remaining := channelSubscribers.erase subscriber
      let s := { s with channels := Function.update s.channels channelKey remaining }
      if remaining.length = 0 then s.cleanupRedisSubscription channelKey else s

/-- `emit` up to its publication, which waits for a pending subscription. -/
def emit (envelope : NotificationEnvelope P) : State P :=
  let redisChannel := getRedisChannel envelope.channelKey
  let publication : Publication P := ⟨s.emitted.length, envelope⟩
  let s := { s with emitted := s.emitted ++ [envelope] }
  match s.redisSubscriptionPromises redisChannel with
  | some callbacks => s.attach redisChannel callbacks (.publish publication)
  | none => { s with jobs := s.jobs ++ [.callback (.publish publication)] }

def handleRedisMessage (redisChannel : String) (publication : Publication P) : State P :=
  match extractChannelKey redisChannel with
  | none => s
  | some channelKey =>
    if channelKey.isEmpty then s
    else
      { s with
        delivered := s.delivered ++ (s.channels channelKey).map fun subscriber =>
          ⟨subscriber, publication.call, ⟨publication.envelope.event, publication.envelope⟩⟩ }

/-- What runs when the promise has failed: an `emit` publishes all the same. -/
def afterFailure : Callback P → Bool
  | .publish _ => true
  | .cleanup _ => false

def runJob : Job P → State P
  | .subscribed redisChannel =>
    { s with
      redisSubscribedChannels := Function.update s.redisSubscribedChannels redisChannel true
      jobs := s.jobs ++ [.settled redisChannel true] }
  | .failed redisChannel =>
    { s with
      redisSubscribedChannels := Function.update s.redisSubscribedChannels redisChannel false
      jobs := s.jobs ++ [.settled redisChannel false] }
  | .settled redisChannel succeeded =>
    let callbacks := (s.redisSubscriptionPromises redisChannel).getD []
    { s with
      redisSubscriptionPromises := Function.update s.redisSubscriptionPromises redisChannel none
      jobs := s.jobs ++ (callbacks.filter fun c => succeeded || afterFailure c).map .callback }
  | .callback (.cleanup channelKey) =>
    if 0 < (s.channels channelKey).length then s else s.cleanupRedisSubscription channelKey
  | .callback (.publish publication) =>
    { s with
      publishes := s.publishes ++ [(getRedisChannel publication.envelope.channelKey, publication)] }

/-- Redis executes the next command of the subscriber connection. -/
def execute (succeeds : Bool) : State P :=
  match s.commands with
  | [] => s
  | command :: commands =>
    let listening :=
      match command with
      | .subscribe redisChannel => Function.update s.listening redisChannel true
      | .unsubscribe redisChannel => Function.update s.listening redisChannel false
    { s with
      commands
      listening := if succeeds then listening else s.listening
      replies := s.replies ++ [.done command succeeds] }

/-- Redis executes the next PUBLISH of the publisher connection. -/
def executePublish : State P :=
  match s.publishes with
  | [] => s
  | (redisChannel, publication) :: publishes =>
    { s with
      publishes
      replies :=
        if s.listening redisChannel then s.replies ++ [.message redisChannel publication] else s.replies }

/-- The next reply arrives on the subscriber connection. -/
def receive : State P :=
  match s.replies with
  | [] => s
  | .done (.subscribe redisChannel) succeeded :: replies =>
    { s with replies, jobs := s.jobs ++ [if succeeded then .subscribed redisChannel else .failed redisChannel] }
  | .done (.unsubscribe _) _ :: replies => { s with replies }
  | .message redisChannel publication :: replies =>
    { s with replies }.handleRedisMessage redisChannel publication

/-- The `index`-th of the callbacks that are due runs. -/
def run (index : ℕ) : State P :=
  match s.jobs[index]? with
  | none => s
  | some job => { s with jobs := s.jobs.eraseIdx index }.runJob job

end State

/-- What clients, emitters, Redis and the event loop do. -/
inductive Action (P : Type) where
  | subscribe (target : NotificationTarget) (targetId : String)
  | finalize (subscriber : SubscriberId)
  | emit (envelope : NotificationEnvelope P)
  | execute (succeeds : Bool)
  | executePublish
  | receive
  | run (index : ℕ)

def State.step (s : State P) : Action P → State P
  | .subscribe target targetId => s.subscribe target targetId
  | .finalize subscriber => s.finalize subscriber
  | .emit envelope => s.emit envelope
  | .execute succeeds => s.execute succeeds
  | .executePublish => s.executePublish
  | .receive => s.receive
  | .run index => s.run index

def State.after (s : State P) (actions : List (Action P)) : State P := actions.foldl State.step s

/-- SUBSCRIBE and UNSUBSCRIBE succeed. -/
def Action.Succeeds : Action P → Prop
  | .execute succeeds => succeeds = true
  | _ => True

/-- Nothing is under way. -/
structure State.AtRest (s : State P) : Prop where
  jobs : s.jobs = []
  commands : s.commands = []
  publishes : s.publishes = []
  replies : s.replies = []

end NotificationStream

end NebLite
