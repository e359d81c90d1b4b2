import NebLite.Iam.Authentication
import NebLite.Atomic.Interleaving
import NebLite.Atomic.JobQueue
import NebLite.Atomic.Lift

/-! The text messages with the codes. `getOtp` caches the hash of a new code each time,
and adds a job whose id is always the same for a phone number and a client type. -/

namespace NebLite

open Atomic

/-- The data of a job, with the call that has queued it, which no code reads. -/
structure SmsJob (ι : Type) where
  owner : ι
  msisdn : String
  otp : String
  deriving DecidableEq

structure Sms where
  phoneNumber : String
  message : String
  deriving DecidableEq

def otpMessage (otpCode : String) : String := s!"Your Nebengjek verification code is {otpCode}"

/-- How `SmsProcessor.process` ends; the service may have sent a message and still answer
with an error. -/
inductive SmsOutcome where
  | completed
  | failedBeforeSend
  | failedAfterSend

/-- The identity service, its queue, what each call has put into the cache under the phone
number, the jobs that were added, and the messages that were sent, the latest first. -/
structure OtpStore (ι : Type) where
  iam : IamWorld
  queue : JobQueue String (SmsJob ι)
  cached : ι → Option (String × HashedOtp)
  added : List (SmsJob ι)
  sent : List Sms

/-- A call of `getOtp` `i`, a step of the queue, or the expiry of a code. -/
inductive OtpCall (ι : Type) where
  | iam (i : ι) (c : IamCall)
  | take (jobId : String)
  | process (jobId : String) (outcome : SmsOutcome)
  | expire (phone : String)

abbrev OtpCall.Answer {ι : Type} : OtpCall ι → Type
  | iam _ c => c.Answer
  | _ => Unit

/-- `removeOnFail` of the jobs. -/
def otpRemoveOnFail : ℕ := 25

section Handle

variable {ι : Type}

/-- The end of an active job. -/
def OtpStore.finish (s : OtpStore ι) (jobId : String) (job : SmsJob ι) : SmsOutcome → OtpStore ι
  | .completed =>
    { s with queue := s.queue.complete jobId, sent := ⟨job.msisdn, otpMessage job.otp⟩ :: s.sent }
  | .failedAfterSend =>
    { s with
      queue := s.queue.fail otpRemoveOnFail jobId
      sent := ⟨job.msisdn, otpMessage job.otp⟩ :: s.sent }
  | .failedBeforeSend => { s with queue := s.queue.fail otpRemoveOnFail jobId }

/-- The addition of a job whose id exists is a silent no-op. -/
def OtpStore.addJob (s : OtpStore ι) (jobId : String) (job : SmsJob ι) : OtpStore ι :=
  { s with
    queue := s.queue.add jobId job
    added := if (s.queue.job jobId).isNone then job :: s.added else s.added }

variable [DecidableEq ι]

def otpHandle : Handler (OtpCall ι) OtpCall.Answer ServiceError (OtpStore ι)
  | .iam i (.addOtpJob jobId msisdn otpCode), s => (.ok (), s.addJob jobId ⟨i, msisdn, otpCode⟩)
  | .iam i (.cacheSet (.otp phone) value ttl), s =>
    (.ok (),
      { s with
        iam := (iamHandle (.cacheSet (.otp phone) value ttl) s.iam).2
        cached := Function.update s.cached i (some (phone, value)) })
  | .iam _ c, s => ((iamHandle c s.iam).1, { s with iam := (iamHandle c s.iam).2 })
  | .take jobId, s => (.ok (), { s with queue := s.queue.take jobId })
  | .process jobId outcome, s =>
    (.ok (), match s.queue.job jobId with
      | some ⟨.active, job⟩ => s.finish jobId job outcome
      | _ => s)
  | .expire phone, s => (.ok (), { s with iam := (iamHandle (.cacheDel (.otp phone)) s.iam).2 })

end Handle

abbrev OtpService (ι α : Type) := Program (OtpCall ι) OtpCall.Answer ServiceError α

def otpCall {ι : Type} (c : OtpCall ι) : OtpService ι c.Answer := .perform c

inductive OtpOp where
  | getOtp (clientId : Id) (clientType : EClientType) (otpCode : String)
  | take (jobId : String)
  | process (jobId : String) (outcome : SmsOutcome)
  | expire (phone : String)

/-- A program of the identity service, made by call `i`. -/
def MadeBy {ι α : Type} (i : ι) (p : IamService α) : OtpService ι α := p.lift (.iam i) fun _ a => a

def OtpOp.program {ι : Type} (env : IamEnvironment) (i : ι) : OtpOp → OtpService ι Unit
  | getOtp clientId clientType otpCode => do
    let _ ← MadeBy i (NebLite.getOtp env clientId clientType otpCode)
  | take jobId => otpCall (.take jobId)
  | process jobId outcome => otpCall (.process jobId outcome)
  | expire phone => otpCall (.expire phone)

abbrev OtpPool (ι : Type) := Pool ι (OtpCall ι) OtpCall.Answer ServiceError Unit (OtpStore ι)

def OtpStore.start (ι : Type) (profiles : EClientType → Table Profile) : OtpStore ι :=
  ⟨.initial profiles, .empty, fun _ => none, [], []⟩

def otpCalls {ι : Type} (env : IamEnvironment) (ops : ι → OtpOp) (profiles : EClientType → Table Profile) :
    OtpPool ι :=
  Pool.start (fun i => (ops i).program env i) (.start ι profiles)

namespace OtpStore

variable {ι : Type} (s : OtpStore ι) (phone : String)

/-- A job that is still to be processed sends to the phone number. -/
def Pends (job : SmsJob ι) : Prop :=
  job.msisdn = phone ∧ ∃ jobId status, status ≠ .failed ∧ s.queue.job jobId = some ⟨status, job⟩

def lastSms : Option String := (s.sent.find? fun sms => sms.phoneNumber == phone).map (·.message)

/-- Call `i` has queued a message to the phone number with the code whose hash it has cached. -/
def Queued (i : ι) : Prop :=
  ∃ value, s.cached i = some (phone, value) ∧
    ∃ job ∈ s.added, job.owner = i ∧ job.msisdn = phone ∧ HashedOtp.compare job.otp value = true

end OtpStore

section Delivery

variable {ι : Type} [DecidableEq ι]

/-- A job to the phone number is added when no job with its id exists, none to the number is
still to be processed, and no other code has been cached for it; and no job to the number
fails before it has sent its message. -/
def KeepsCode (phone : String) (c : OtpPool ι) (i : ι) : Prop :=
  match (c.procs i).pending with
  | some (.iam _ (.addOtpJob jobId msisdn otpCode)) => msisdn = phone →
      c.store.queue.job jobId = none ∧ (∀ job, ¬ c.store.Pends phone job) ∧
        ∀ hashed ∈ c.store.iam.cache (.otp phone), HashedOtp.compare otpCode hashed = true
  | some (.process jobId .failedBeforeSend) =>
      ∀ job, c.store.queue.job jobId = some ⟨.active, job⟩ → job.msisdn ≠ phone
  | _ => True

/-- Every call for the phone number that has returned normally has queued a message with
the code whose hash it has cached. -/
def EachQueued (phone : String) (ops : ι → OtpOp) (c : OtpPool ι) : Prop :=
  ∀ i clientId clientType otpCode, ops i = .getOtp clientId clientType otpCode →
    (c.procs i).outcome = some (.ok ()) →
      ∃ msisdn value, c.store.cached i = some (msisdn, value) ∧ (msisdn = phone → c.store.Queued phone i)

/-- Once the calls that have cached a code for the phone number have ended and no job to it
is still to be processed, the last message to it carries the code that is valid now. -/
def LastCodeValid (phone : String) (c : OtpPool ι) : Prop :=
  (∀ i value, c.store.cached i = some (phone, value) → (c.procs i).pending = none) →
    (∀ job, ¬ c.store.Pends phone job) →
      ∀ hashed ∈ c.store.iam.cache (.otp phone),
        ∃ otpCode, c.store.lastSms phone = some (otpMessage otpCode) ∧ HashedOtp.compare otpCode hashed = true

end Delivery

/-- How far a call is: it has cached a hash for a phone number, or added its job. -/
inductive OtpPhase where
  | idle
  | owes (phone : String) (value : HashedOtp)
  | added (phone : String)

/-- Calls that neither cache a code nor touch the queue. -/
def IamCall.Aloof : IamCall → Prop
  | .findClient _ _ | .hash _ | .emitOtp _ _ _ => True
  | _ => False

inductive OtpMove {ι : Type} (i : ι) : OtpPhase → OtpCall ι → OtpPhase → Prop
  | aloof {l c} : c.Aloof → OtpMove i l (.iam i c) l
  | cache {phone value ttl} : OtpMove i .idle (.iam i (.cacheSet (.otp phone) value ttl)) (.owes phone value)
  | add {jobId phone value otpCode} : HashedOtp.compare otpCode value = true →
      OtpMove i (.owes phone value) (.iam i (.addOtpJob jobId phone otpCode)) (.added phone)
  | take {jobId} : OtpMove i .idle (.take jobId) .idle
  | process {jobId outcome} : OtpMove i .idle (.process jobId outcome) .idle
  | expire {phone} : OtpMove i .idle (.expire phone) .idle

def otpOutline {ι : Type} (i : ι) : Outline OtpPhase (OtpCall ι) (OtpStore ι) where
  pre _ _ := True
  move l c _ l' := OtpMove i l c l'

/-- A call that has returned normally has added its job, and no call ends in between. -/
def OtpOp.Ends (op : OtpOp) (l : OtpPhase) (r : Except ServiceError Unit) : Prop :=
  (∃ phone, l = .added phone) ∨
    l = .idle ∧ ∀ clientId clientType otpCode, op = .getOtp clientId clientType otpCode → r ≠ .ok ()

section Outline

variable {ι α β : Type} [DecidableEq ι] {i : ι} {l l' : OtpPhase} {done : OtpPhase → Except ServiceError β → Prop}

/-- A call of the identity service, before the rest of its program. -/
theorem follows_madeBy {c : IamCall} {f : c.Answer → OtpService ι β} (hm : OtpMove i l (.iam i c) l')
    (hf : ∀ s : OtpStore ι, ∃ a, (otpHandle (.iam i c) s).1 = .ok a ∧
      (otpOutline i).Follows otpHandle done l' (f a)) :
    (otpOutline i).Follows otpHandle done l (MadeBy i (iamCall c) >>= f) := by
  unfold MadeBy iamCall
  rw [Program.lift_perform, bind_assoc]
  apply Outline.Follows.perform
  intro s _
  obtain ⟨a, ha, hrest⟩ := hf s
  refine ⟨l', hm, ?_⟩
  rw [ha]
  exact hrest

theorem follows_client {clientId : Id} {clientType : EClientType} {f : Client → OtpService ι β}
    (herr : ∀ e, done .idle (.error e))
    (hf : ∀ client, (otpOutline i).Follows otpHandle done .idle (f client)) :
    (otpOutline i).Follows otpHandle done .idle (MadeBy i (getClientData clientId clientType) >>= f) := by
  unfold getClientData
  simp only [MadeBy, Program.lift_bind]
  rw [bind_assoc]
  refine follows_madeBy (.aloof trivial) fun s => ⟨_, rfl, ?_⟩
  cases s.iam.findClient clientType clientId with
  | none => exact herr _
  | some client => exact hf client

theorem follows_getOtp {env : IamEnvironment} (henv : env.skipSmsNotif = false) (clientId : Id)
    (clientType : EClientType) (otpCode : String) :
    (otpOutline i).Follows otpHandle ((OtpOp.getOtp clientId clientType otpCode).Ends) .idle
      ((OtpOp.getOtp clientId clientType otpCode).program env i) := by
  unfold OtpOp.program getOtp
  simp only [MadeBy, Program.lift_bind, henv, bind_assoc, Bool.false_eq_true, if_false]
  refine follows_client (fun e => .inr ⟨rfl, fun _ _ _ _ h => nomatch h⟩) fun client => ?_
  refine follows_madeBy (.aloof trivial) fun s => ⟨⟨otpCode, s.iam.nextSalt⟩, rfl, ?_⟩
  refine follows_madeBy .cache fun s => ⟨(), rfl, ?_⟩
  refine follows_madeBy (.aloof trivial) fun s => ⟨(), rfl, ?_⟩
  refine follows_madeBy (.add (by simp [HashedOtp.compare])) fun s => ⟨(), rfl, ?_⟩
  exact .inl ⟨client.msisdn, rfl⟩

theorem OtpOp.follows {env : IamEnvironment} (henv : env.skipSmsNotif = false) (i : ι) (op : OtpOp) :
    (otpOutline i).Follows otpHandle op.Ends .idle (op.program env i) := by
  have hidle {op : OtpOp} (h : ∀ clientId clientType otpCode, op ≠ .getOtp clientId clientType otpCode)
      (r : Except ServiceError Unit) : op.Ends .idle r :=
    .inr ⟨rfl, fun clientId clientType otpCode he => (h clientId clientType otpCode he).elim⟩
  cases op with
  | getOtp clientId clientType otpCode => exact follows_getOtp henv clientId clientType otpCode
  | take jobId => exact fun s _ => ⟨.idle, .take, hidle (by simp) _⟩
  | process jobId outcome => exact fun s _ => ⟨.idle, .process, hidle (by simp) _⟩
  | expire phone => exact fun s _ => ⟨.idle, .expire, hidle (by simp) _⟩

end Outline

section Stores

variable {ι : Type} {s t : OtpStore ι} {phone : String} {job : SmsJob ι} {hashed : HashedOtp}

/-- The messages to the phone number that are still to be sent, or else the last one, carry
the code of the hash. -/
structure OtpStore.Carries (s : OtpStore ι) (phone : String) (hashed : HashedOtp) : Prop where
  pending : ∀ job, s.Pends phone job → HashedOtp.compare job.otp hashed = true
  last : (∀ job, ¬ s.Pends phone job) →
    ∃ otpCode, s.lastSms phone = some (otpMessage otpCode) ∧ HashedOtp.compare otpCode hashed = true

/-- The same jobs are pending, and the last message is the same. -/
theorem OtpStore.Carries.same (h : s.Carries phone hashed) (hp : ∀ job, t.Pends phone job ↔ s.Pends phone job)
    (hl : t.lastSms phone = s.lastSms phone) : t.Carries phone hashed := by
  constructor
  · exact fun job hjob => h.pending job ((hp job).mp hjob)
  · intro hnone
    rw [hl]
    exact h.last fun job hjob => hnone job ((hp job).mpr hjob)

/-- The only pending job is a new one. -/
theorem carries_added (hp : ∀ k, t.Pends phone k ↔ k = job) (hc : HashedOtp.compare job.otp hashed = true) :
    t.Carries phone hashed := by
  constructor
  · intro k hk
    rw [(hp k).mp hk]
    exact hc
  · exact fun hnone => (hnone job ((hp job).mpr rfl)).elim

/-- A pending job is sent. -/
theorem OtpStore.Carries.sent (h : s.Carries phone hashed) (hjob : s.Pends phone job)
    (hp : ∀ k, t.Pends phone k → s.Pends phone k) (hl : t.lastSms phone = some (otpMessage job.otp)) :
    t.Carries phone hashed :=
  ⟨fun k hk => h.pending k (hp k hk), fun _ => ⟨job.otp, hl, h.pending job hjob⟩⟩

theorem pends_take (jobId : String) (phone : String) (job : SmsJob ι) :
    ({ s with queue := s.queue.take jobId } : OtpStore ι).Pends phone job ↔ s.Pends phone job := by
  unfold OtpStore.Pends
  by_cases hwaiting : ∃ k, s.queue.job jobId = some ⟨.waiting, k⟩
  swap
  · rw [JobQueue.take_of_not fun k hk => hwaiting ⟨k, hk⟩]
  obtain ⟨k, hk⟩ := hwaiting
  refine and_congr_right fun _ => ⟨?_, ?_⟩
  · rintro ⟨x, status, hstatus, hx⟩
    simp only [JobQueue.take_of_waiting hk, Function.update_apply] at hx
    split at hx
    · next he =>
      obtain ⟨rfl, rfl⟩ := Job.mk.inj (Option.some.inj hx)
      exact ⟨x, .waiting, by simp, he ▸ hk⟩
    · exact ⟨x, status, hstatus, hx⟩
  · rintro ⟨x, status, hstatus, hx⟩
    by_cases he : x = jobId
    · subst he
      obtain ⟨-, rfl⟩ := Job.mk.inj (Option.some.inj (hx.symm.trans hk))
      exact ⟨x, .active, by simp, by simp only [JobQueue.take_of_waiting hk, Function.update_self]⟩
    · refine ⟨x, status, hstatus, ?_⟩
      simp only [JobQueue.take_of_waiting hk, Function.update_of_ne he, hx]

/-- What is pending after the end of an active job was pending before under another id. -/
theorem pends_finish {jobId : String} (hactive : s.queue.job jobId = some ⟨.active, job⟩) (outcome : SmsOutcome)
    {k : SmsJob ι} (hk : (s.finish jobId job outcome).Pends phone k) : s.Pends phone k := by
  obtain ⟨hphone, x, status, hstatus, hx⟩ := hk
  refine ⟨hphone, x, status, hstatus, ?_⟩
  have hfailed (hfail : (s.queue.fail otpRemoveOnFail jobId).job x = some ⟨status, k⟩) :
      s.queue.job x = some ⟨status, k⟩ := by
    by_cases hown : x = jobId
    · have hdrained := JobQueue.fail_own hactive otpRemoveOnFail ⟨status, k⟩ (hown ▸ hfail)
      exact (hstatus hdrained).elim
    · rcases JobQueue.fail_other hactive hown with hsame | ⟨-, hnone⟩
      · exact hsame ▸ hfail
      · rw [hnone] at hfail
        cases hfail
  cases outcome with
  | completed =>
    simp only [OtpStore.finish, JobQueue.complete_of_active hactive, Function.update_apply] at hx
    split at hx
    · cases hx
    · exact hx
  | failedBeforeSend | failedAfterSend => exact hfailed hx

/-- Another job stays pending. -/
theorem finish_pends {jobId : String} (hactive : s.queue.job jobId = some ⟨.active, job⟩) (outcome : SmsOutcome)
    (hother : job.msisdn ≠ phone) {k : SmsJob ι} (hk : s.Pends phone k) : (s.finish jobId job outcome).Pends phone k := by
  obtain ⟨hphone, x, status, hstatus, hx⟩ := hk
  refine ⟨hphone, x, status, hstatus, ?_⟩
  have hne : x ≠ jobId := by
    rintro rfl
    obtain ⟨-, rfl⟩ := Job.mk.inj (Option.some.inj (hx.symm.trans hactive))
    exact hother hphone
  have hfailed : (s.queue.fail otpRemoveOnFail jobId).job x = some ⟨status, k⟩ := by
    rcases JobQueue.fail_other hactive hne with hsame | ⟨⟨e, he⟩, -⟩
    · exact hsame.trans hx
    · obtain ⟨rfl, -⟩ := Job.mk.inj (Option.some.inj (hx.symm.trans he))
      exact (hstatus rfl).elim
  cases outcome with
  | completed =>
    simp only [OtpStore.finish, JobQueue.complete_of_active hactive, Function.update_of_ne hne]
    exact hx
  | failedBeforeSend | failedAfterSend => exact hfailed

theorem OtpStore.Carries.finish (h : s.Carries phone hashed) {jobId : String}
    (hactive : s.queue.job jobId = some ⟨.active, job⟩) {outcome : SmsOutcome}
    (hok : job.msisdn = phone → outcome ≠ .failedBeforeSend) : (s.finish jobId job outcome).Carries phone hashed := by
  by_cases hphone : job.msisdn = phone
  · have hpends : s.Pends phone job := ⟨hphone, jobId, .active, by simp, hactive⟩
    have hlast : (s.finish jobId job outcome).lastSms phone = some (otpMessage job.otp) := by
      cases outcome with
      | failedBeforeSend => exact (hok hphone rfl).elim
      | completed | failedAfterSend => simp [OtpStore.finish, OtpStore.lastSms, hphone]
    exact h.sent hpends (fun k hk => pends_finish hactive outcome hk) hlast
  · refine h.same (fun k => ⟨pends_finish hactive outcome, finish_pends hactive outcome hphone⟩) ?_
    cases outcome <;> simp [OtpStore.finish, OtpStore.lastSms, hphone]

end Stores

section Delivered

variable {ι : Type} {phone : String} {labels : ι → OtpPhase} {c : OtpPool ι} {s t : OtpStore ι} {i : ι}

/-- What the phases of the calls have to do with the store: what a call owes it has cached,
what it has added is queued, and while no call owes a message to the phone number the
messages to it carry the valid code. -/
structure Delivered (phone : String) (labels : ι → OtpPhase) (s : OtpStore ι) : Prop where
  cached : ∀ i m value, labels i = .owes m value → s.cached i = some (m, value)
  added : ∀ i m, labels i = .added m → ∃ value, s.cached i = some (m, value) ∧ (m = phone → s.Queued phone i)
  carries : (∀ i value, labels i ≠ .owes phone value) →
    ∀ hashed ∈ s.iam.cache (.otp phone), s.Carries phone hashed

theorem delivered_start (phone : String) (profiles : EClientType → Table Profile) :
    Delivered phone (fun _ => .idle) (OtpStore.start ι profiles) where
  cached _ _ _ h := nomatch h
  added _ _ h := nomatch h
  carries _ _ h := nomatch h

/-- A step that neither caches a code nor adds a job. -/
theorem Delivered.keep (h : Delivered phone labels s) (hcached : t.cached = s.cached) (hadded : t.added = s.added)
    (hcarries : ∀ hashed ∈ t.iam.cache (.otp phone), hashed ∈ s.iam.cache (.otp phone) ∧
      (s.Carries phone hashed → t.Carries phone hashed)) : Delivered phone labels t := by
  constructor
  · rw [hcached]
    exact h.cached
  · intro j m hj
    obtain ⟨value, hvalue, hqueued⟩ := h.added j m hj
    unfold OtpStore.Queued at hqueued ⊢
    rw [hcached, hadded]
    exact ⟨value, hvalue, hqueued⟩
  · intro hnone hashed hhashed
    obtain ⟨hbefore, hkeep⟩ := hcarries hashed hhashed
    exact hkeep (h.carries hnone hashed hbefore)

/-- What is pending after a job was added where none of its id existed. -/
theorem pends_addJob {jobId : String} (hfree : s.queue.job jobId = none) (job k : SmsJob ι) (phone : String) :
    (s.addJob jobId job).Pends phone k ↔ (k = job ∧ job.msisdn = phone) ∨ s.Pends phone k := by
  have hjobs : (s.addJob jobId job).queue.job = Function.update s.queue.job jobId (some ⟨.waiting, job⟩) :=
    JobQueue.add_of_none hfree job
  unfold OtpStore.Pends
  simp only [hjobs]
  constructor
  · rintro ⟨hphone, x, status, hstatus, hx⟩
    rw [Function.update_apply] at hx
    split at hx
    · obtain ⟨-, rfl⟩ := Job.mk.inj (Option.some.inj hx)
      exact .inl ⟨rfl, hphone⟩
    · exact .inr ⟨hphone, x, status, hstatus, hx⟩
  · rintro (⟨rfl, hphone⟩ | ⟨hphone, x, status, hstatus, hx⟩)
    · exact ⟨hphone, jobId, .waiting, by simp, Function.update_self _ _ _⟩
    · have hne : x ≠ jobId := by
        rintro rfl
        rw [hfree] at hx
        cases hx
      exact ⟨hphone, x, status, hstatus, by rwa [Function.update_of_ne hne]⟩

theorem addJob_added (s : OtpStore ι) (jobId : String) (job : SmsJob ι) : s.added ⊆ (s.addJob jobId job).added := by
  unfold OtpStore.addJob
  simp only
  split
  · exact List.subset_cons_self _ _
  · exact fun _ hx => hx

variable [DecidableEq ι]

theorem IamCall.Aloof.keeps {call : IamCall} (h : call.Aloof) (i : ι) (s : OtpStore ι) :
    (otpHandle (.iam i call) s).2 = { s with iam := (iamHandle call s.iam).2 } ∧
      (iamHandle call s.iam).2.cache = s.iam.cache := by
  cases call with
  | findClient | hash | emitOtp => exact ⟨rfl, rfl⟩
  | _ => exact h.elim

theorem Delivered.cache (h : Delivered phone labels s) (hi : labels i = .idle) (m : String) (value : HashedOtp)
    (ttl : ℕ) : Delivered phone (Function.update labels i (.owes m value))
      (otpHandle (.iam i (.cacheSet (.otp m) value ttl)) s).2 := by
  constructor
  · intro j m' value' hj
    by_cases hij : j = i
    · subst hij
      rw [Function.update_self] at hj
      obtain ⟨rfl, rfl⟩ := OtpPhase.owes.inj hj
      exact Function.update_self _ _ _
    · rw [Function.update_of_ne hij] at hj
      exact (Function.update_of_ne hij _ _).trans (h.cached j m' value' hj)
  · intro j m' hj
    have hij : j ≠ i := by
      rintro rfl
      rw [Function.update_self] at hj
      cases hj
    rw [Function.update_of_ne hij] at hj
    obtain ⟨value', hvalue, hqueued⟩ := h.added j m' hj
    have hsame : (otpHandle (.iam i (.cacheSet (.otp m) value ttl)) s).2.cached j = s.cached j :=
      Function.update_of_ne hij _ _
    unfold OtpStore.Queued at hqueued ⊢
    rw [hsame]
    exact ⟨value', hvalue, hqueued⟩
  · intro hnone hashed hhashed
    have hother : m ≠ phone := by
      rintro rfl
      exact hnone i value (Function.update_self _ _ _)
    have hkey : CacheKey.otp phone ≠ .otp m := fun he => hother (CacheKey.otp.inj he).symm
    have hsame : (otpHandle (.iam i (.cacheSet (.otp m) value ttl)) s).2.iam.cache (.otp phone) =
        s.iam.cache (.otp phone) := by
      show Function.update s.iam.cache (.otp m) (some value) (.otp phone) = _
      rw [Function.update_of_ne hkey]
    refine (h.carries (fun j value' hj => ?_) hashed (hsame ▸ hhashed)).same (fun _ => Iff.rfl) rfl
    by_cases hij : j = i
    · subst hij
      rw [hi] at hj
      cases hj
    · exact hnone j value' (by rwa [Function.update_of_ne hij])

theorem Delivered.add (h : Delivered phone labels s) {jobId m otpCode : String} {value : HashedOtp}
    (hi : labels i = .owes m value) (hcode : HashedOtp.compare otpCode value = true)
    (hok : m = phone → s.queue.job jobId = none ∧ (∀ job, ¬ s.Pends phone job) ∧
      ∀ hashed ∈ s.iam.cache (.otp phone), HashedOtp.compare otpCode hashed = true) :
    Delivered phone (Function.update labels i (.added m)) (s.addJob jobId ⟨i, m, otpCode⟩) := by
  constructor
  · intro j m' value' hj
    have hij : j ≠ i := by
      rintro rfl
      rw [Function.update_self] at hj
      cases hj
    rw [Function.update_of_ne hij] at hj
    exact h.cached j m' value' hj
  · intro j m' hj
    by_cases hij : j = i
    · subst hij
      rw [Function.update_self] at hj
      obtain rfl := OtpPhase.added.inj hj
      refine ⟨value, h.cached j m value hi, ?_⟩
      rintro rfl
      refine ⟨value, h.cached j m value hi, ⟨j, m, otpCode⟩, ?_, rfl, rfl, hcode⟩
      simp [OtpStore.addJob, (hok rfl).1]
    · rw [Function.update_of_ne hij] at hj
      obtain ⟨value', hvalue, hqueued⟩ := h.added j m' hj
      refine ⟨value', hvalue, fun hm => ?_⟩
      obtain ⟨value'', hcached, job, hjob, hrest⟩ := hqueued hm
      exact ⟨value'', hcached, job, addJob_added s jobId _ hjob, hrest⟩
  · intro hnone hashed hhashed
    by_cases hm : m = phone
    · subst hm
      obtain ⟨hfree, hpends, hvalid⟩ := hok rfl
      have hp : ∀ k, (s.addJob jobId ⟨i, m, otpCode⟩).Pends m k ↔ k = ⟨i, m, otpCode⟩ := by
        intro k
        rw [pends_addJob hfree]
        simp [hpends k]
      exact carries_added hp (hvalid hashed hhashed)
    · have hbefore := h.carries (fun j value' hj => ?_) hashed hhashed
      · refine hbefore.same (fun k => ?_) rfl
        cases hjob : s.queue.job jobId with
        | none =>
          rw [pends_addJob hjob]
          simp [hm]
        | some j =>
          have hsame : (s.addJob jobId ⟨i, m, otpCode⟩).queue = s.queue := JobQueue.add_of_some hjob _
          unfold OtpStore.Pends
          rw [hsame]
      · by_cases hij : j = i
        · subst hij
          rw [hi] at hj
          exact hm (OtpPhase.owes.inj hj).1
        · exact hnone j value' (by rwa [Function.update_of_ne hij])

theorem Delivered.step (h : Delivered phone labels c.store) {call : OtpCall ι} {l : OtpPhase}
    {next : Except ServiceError call.Answer → OtpService ι Unit} (hok : KeepsCode phone c i)
    (hi : c.procs i = .call call next) (hmv : OtpMove i (labels i) call l) :
    Delivered phone (Function.update labels i l) (c.step otpHandle i).store := by
  rw [Pool.step_call _ hi]
  unfold KeepsCode at hok
  rw [hi] at hok
  simp only [Program.pending] at hok
  generalize hl₀ : labels i = l₀ at hmv
  cases hmv with
  | aloof ha =>
    obtain ⟨hstore, hcache⟩ := ha.keeps i c.store
    rw [← hl₀, Function.update_eq_self, hstore]
    refine h.keep rfl rfl fun hashed hhashed => ⟨hcache ▸ hhashed, fun hc => hc.same (fun _ => Iff.rfl) rfl⟩
  | cache => exact h.cache hl₀ _ _ _
  | add hcode => exact h.add hl₀ hcode hok
  | take =>
    rw [← hl₀, Function.update_eq_self]
    exact h.keep rfl rfl fun hashed hhashed => ⟨hhashed, fun hc => hc.same (pends_take _ phone) rfl⟩
  | @process jobId outcome =>
    rw [← hl₀, Function.update_eq_self]
    simp only [otpHandle]
    split
    · next job hactive =>
      have hsent : job.msisdn = phone → outcome ≠ .failedBeforeSend := by
        rintro hphone rfl
        exact hok job hactive hphone
      refine h.keep ?_ ?_ fun hashed hhashed => ⟨?_, fun hc => hc.finish hactive hsent⟩
      · cases outcome <;> rfl
      · cases outcome <;> rfl
      · cases outcome <;> exact hhashed
    · exact h.keep rfl rfl fun hashed hhashed => ⟨hhashed, id⟩
  | @expire m =>
    rw [← hl₀, Function.update_eq_self]
    refine h.keep rfl rfl fun hashed hhashed => ⟨?_, fun hc => hc.same (fun _ => Iff.rfl) rfl⟩
    by_cases hm : m = phone
    · subst hm
      have hgone : (otpHandle (.expire m) c.store).2.iam.cache (.otp m) = none := Function.update_self _ _ _
      rw [hgone] at hhashed
      cases hhashed
    · have hkey : CacheKey.otp phone ≠ .otp m := fun he => hm (CacheKey.otp.inj he).symm
      have hsame : (otpHandle (.expire m) c.store).2.iam.cache (.otp phone) = c.store.iam.cache (.otp phone) := by
        show Function.update c.store.iam.cache (.otp m) none (.otp phone) = _
        rw [Function.update_of_ne hkey]
      exact hsame ▸ hhashed

theorem delivered_exec {env : IamEnvironment} (henv : env.skipSmsNotif = false) (ops : ι → OtpOp)
    (profiles : EClientType → Table Profile) {sched : List ι}
    (hm : Pool.Meets otpHandle (KeepsCode phone) (otpCalls env ops profiles) sched) :
    Outline.Holds otpOutline otpHandle (fun i => (ops i).Ends) (fun labels c => Delivered phone labels c.store)
      ((otpCalls env ops profiles).exec otpHandle sched) := by
  have hstart : Outline.Holds otpOutline otpHandle (fun i => (ops i).Ends)
      (fun labels c => Delivered phone labels c.store) (otpCalls env ops profiles) :=
    ⟨fun _ => .idle, delivered_start phone profiles, fun i => (ops i).follows henv i⟩
  apply Outline.exec_holds (fun _ _ _ _ => trivial) ?_ hstart hm
  intro labels c i call next l hdelivered hok hi hmv
  exact hdelivered.step hok hi hmv

end Delivered

/-- Where every job to a phone number is added while no other is in its way and its code is
the cached one, and none fails before it has sent its message, every call for the number
that has returned has queued a message with the code that it has cached, and the last
message to the number carries the valid code whenever nothing is under way. -/
theorem otp_delivered (ι : Type) [DecidableEq ι] (env : IamEnvironment) (henv : env.skipSmsNotif = false)
    (ops : ι → OtpOp) (profiles : EClientType → Table Profile) (phone : String) (sched : List ι)
    (hm : Pool.Meets otpHandle (KeepsCode phone) (otpCalls env ops profiles) sched) :
    Runs.Always (Pool.step otpHandle) (fun c => EachQueued phone ops c ∧ LastCodeValid phone c)
      (otpCalls env ops profiles) sched := by
  intro early hearly
  obtain ⟨labels, hdelivered, hdone⟩ := (delivered_exec henv ops profiles (hm.initial hearly)).outcome
  refine ⟨fun i clientId clientType otpCode hop hended => ?_, fun hended hpends hashed hhashed => ?_⟩
  · rcases hdone i _ hended with ⟨m, hadded⟩ | ⟨-, hno⟩
    · obtain ⟨value, hcached, hqueued⟩ := hdelivered.added i m hadded
      exact ⟨m, value, hcached, hqueued⟩
    · exact (hno clientId clientType otpCode hop rfl).elim
  · refine (hdelivered.carries (fun i value howes => ?_) hashed hhashed).last hpends
    obtain ⟨r, hr⟩ := Program.outcome_of_ended (hended i value (hdelivered.cached i phone value howes))
    rcases hdone i r hr with ⟨m, hadded⟩ | ⟨hidle, -⟩
    · rw [howes] at hadded
      cases hadded
    · rw [howes] at hidle
      cases hidle

def otpEnvironment : IamEnvironment := ⟨300, 3600, 86400, false⟩

/-- The rider with the phone number "1". -/
def phoneRider : EClientType → Table Profile
  | .rider => Table.empty.insert (fun id => ⟨id, "1", .active⟩) fun _ => rfl
  | .driver => .empty

/-- The rider asks for a code twice, while the job of the first code waits. -/
def askedTwice : Fin 4 → OtpOp
  | 0 => .getOtp 1 .rider "111111"
  | 1 => .getOtp 1 .rider "222222"
  | 2 => .take "send-otp-1-RIDER"
  | 3 => .process "send-otp-1-RIDER" .completed

def askedWhileWaiting : List (Fin 4) := Pool.turns [(0, 5), (1, 5), (2, 1), (3, 1)]

theorem otp_dropped :
    ¬ EachQueued "1" askedTwice ((otpCalls otpEnvironment askedTwice phoneRider).exec otpHandle askedWhileWaiting) ∧
    ((otpCalls otpEnvironment askedTwice phoneRider).exec otpHandle askedWhileWaiting).store.sent =
      [⟨"1", otpMessage "111111"⟩] ∧
    ((otpCalls otpEnvironment askedTwice phoneRider).exec otpHandle askedWhileWaiting).store.queue.job
      "send-otp-1-RIDER" = none ∧
    ((otpCalls otpEnvironment askedTwice phoneRider).exec otpHandle askedWhileWaiting).store.iam.cache (.otp "1") =
      some ⟨"222222", 1⟩ := by
  refine ⟨fun hqueued => ?_, by decide +kernel, rfl, by decide +kernel⟩
  obtain ⟨msisdn, value, hcached, hjob⟩ := hqueued 1 1 .rider "222222" rfl (by decide +kernel)
  have hwritten : ((otpCalls otpEnvironment askedTwice phoneRider).exec otpHandle askedWhileWaiting).store.cached 1 =
      some ("1", ⟨"222222", 1⟩) := by decide +kernel
  have hadded : ((otpCalls otpEnvironment askedTwice phoneRider).exec otpHandle askedWhileWaiting).store.added =
      [⟨0, "1", "111111"⟩] := by decide +kernel
  obtain ⟨rfl, -⟩ := Prod.mk.inj (Option.some.inj (hwritten.symm.trans hcached))
  obtain ⟨-, -, job, hmem, howner, -⟩ := hjob rfl
  rw [hadded, List.mem_singleton] at hmem
  subst hmem
  cases howner

/-- The rider asks once, and the message is sent. -/
def askedOnce : Fin 3 → OtpOp
  | 0 => .getOtp 1 .rider "111111"
  | 1 => .take "send-otp-1-RIDER"
  | 2 => .process "send-otp-1-RIDER" .completed

theorem otp_delivered_once :
    Runs.Always (Pool.step otpHandle) (fun c => EachQueued "1" askedOnce c ∧ LastCodeValid "1" c)
      (otpCalls otpEnvironment askedOnce phoneRider) (Pool.turns [(0, 5), (1, 1), (2, 1)]) := by
  refine otp_delivered (Fin 3) otpEnvironment rfl askedOnce phoneRider "1" _ ?_
  refine ⟨trivial, trivial, trivial, trivial, fun _ => ⟨rfl, ?_, ?_⟩, trivial, trivial, trivial⟩
  · rintro job ⟨-, jobId, status, -, hjob⟩
    cases hjob
  · rintro hashed ⟨⟩
    decide

end NebLite
