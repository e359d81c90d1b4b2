import NebLite.Payment.LedgerRuns
import NebLite.Payment.Bookkeeping

/-! Where the rows of the payment tables and the links in them come from: a detail is stored
together with an outbox row, a job is queued for one, and a link is a reply of the gateway. -/

namespace NebLite

open Atomic

/-- The link is what the gateway replied to one of the posts, after `n` answers or more. -/
def Environment.Links (env : Environment) (n : ℕ) (posts : List PaymentRequestPayload)
    (token redirectUrl : Option String) : Prop :=
  ∃ k p response, n ≤ k ∧ p ∈ posts ∧ env.gateway k p = .ok response ∧
    token = extractResponseString response "token" ∧ redirectUrl = extractResponseString response "redirect_url"

theorem Environment.Links.mono {env : Environment} {n m : ℕ} {posts more : List PaymentRequestPayload}
    {token redirectUrl : Option String} (h : env.Links m posts token redirectUrl) (hn : n ≤ m)
    (hp : ∀ p ∈ posts, p ∈ more) : env.Links n more token redirectUrl := by
  obtain ⟨k, p, response, hk, hposted, hreply, hlink⟩ := h
  exact ⟨k, p, response, hn.trans hk, hp p hposted, hreply, hlink⟩

/-- No payment has been queued from `w` to `v`: the payments that are there have been worked
on, for which `later` has been posted. -/
structure World.Unqueued (env : Environment) (w : World) (later : List PaymentRequestPayload) (v : World) : Prop where
  keeps : w.Keeps v
  posts : v.posts = w.posts ++ later
  answered : w.answered ≤ v.answered
  details : ∀ d ∈ v.details.rows, ∃ e ∈ w.details.rows, e.rideId = d.rideId ∧
    ((d.token = e.token ∧ d.redirectUrl = e.redirectUrl) ∨ env.Links w.answered later d.token d.redirectUrl)
  jobs : ∀ j ∈ v.paymentJobs.rows, ∃ i ∈ w.paymentJobs.rows, i.outboxId = j.outboxId

/-- A call that neither writes a detail or an outbox row nor queues or posts a payment. -/
def Call.Calm : Call → Prop
  | .findRide _ | .findPaymentRide _ | .findDetailByRide _ | .findDetail _ | .findDetailByOrder _ | .findOutbox _
  | .isIpAllowed _ | .emit _ | .updatePaymentState _ _ _ | .waitPaymentJob _ | .takePaymentJob _
  | .finishPaymentJob _ _ | .generateOrderId => True
  | _ => False

section Unqueued

variable {env : Environment} {w v u : World} {later more : List PaymentRequestPayload}

theorem World.Unqueued.of_eq (hk : w.Keeps v) (hp : v.posts = w.posts) (ha : v.answered = w.answered)
    (hd : v.details = w.details) (hj : ∀ j ∈ v.paymentJobs.rows, ∃ i ∈ w.paymentJobs.rows, i.outboxId = j.outboxId) :
    w.Unqueued env [] v where
  keeps := hk
  posts := by rw [hp, List.append_nil]
  answered := ha.ge
  details d h := ⟨d, hd ▸ h, rfl, .inl ⟨rfl, rfl⟩⟩
  jobs := hj

theorem World.Unqueued.refl (w : World) : w.Unqueued env [] w :=
  .of_eq (.of_eq rfl rfl rfl) rfl rfl rfl fun j hj => ⟨j, hj, rfl⟩

theorem World.Unqueued.trans (h : w.Unqueued env later v) (h' : v.Unqueued env more u) :
    w.Unqueued env (later ++ more) u where
  keeps := h.keeps.trans h'.keeps
  posts := by rw [h'.posts, h.posts, List.append_assoc]
  answered := h.answered.trans h'.answered
  details d hd := by
    obtain ⟨e, he, hride, hlink⟩ := h'.details d hd
    obtain ⟨e', he', hride', hlink'⟩ := h.details e he
    refine ⟨e', he', hride'.trans hride, ?_⟩
    rcases hlink with ⟨htoken, hurl⟩ | hlink
    · rw [htoken, hurl]
      exact hlink'.imp_right fun hl => hl.mono le_rfl fun p hp => List.mem_append_left _ hp
    · exact .inr (hlink.mono h.answered fun p hp => List.mem_append_right _ hp)
  jobs j hj := by
    obtain ⟨i, hi, hij⟩ := h'.jobs j hj
    obtain ⟨i', hi', hii⟩ := h.jobs i hi
    exact ⟨i', hi', hii.trans hij⟩

theorem World.Unqueued.calm (h : w.Unqueued env later v) (h' : v.Unqueued env [] u) : w.Unqueued env later u := by
  have hboth := h.trans h'
  rwa [List.append_nil] at hboth

theorem mem_put_jobs {t : Table PaymentJob} {job new : PaymentJob} (hjob : t.find new.outboxId = some job) :
    ∀ j ∈ (t.put new).rows, ∃ i ∈ t.rows, i.outboxId = j.outboxId := by
  intro j hj
  obtain ⟨hm, hid⟩ := Table.find_some.mp hjob
  rcases Table.mem_put.mp hj with ⟨rfl, -⟩ | ⟨hj, -⟩
  · exact ⟨job, hm, hid⟩
  · exact ⟨j, hj, rfl⟩

variable (env) in
theorem Call.Calm.unqueued {op : Call} (hop : op.Calm) (w : World) : w.Unqueued env [] (handle env op w).2 := by
  cases op with
  | updatePaymentState rideId s url =>
    obtain ⟨hd, ho, -⟩ := updatePaymentState_tables w rideId s url
    have hk : w.Keeps (w.updatePaymentState rideId s url).2 := keeps_paymentState w rideId s url
    have hrest : (w.updatePaymentState rideId s url).2.posts = w.posts ∧
        (w.updatePaymentState rideId s url).2.answered = w.answered ∧
        (w.updatePaymentState rideId s url).2.paymentJobs = w.paymentJobs := by
      unfold World.updatePaymentState
      split <;> exact ⟨rfl, rfl, rfl⟩
    exact .of_eq hk hrest.1 hrest.2.1 hd fun j hj => ⟨j, hrest.2.2 ▸ hj, rfl⟩
  | takePaymentJob k =>
    change w.Unqueued env [] (w.takePaymentJob k).2
    cases hjob : w.paymentJobs.find k with
    | none =>
      have hw : (w.takePaymentJob k).2 = w := by simp only [World.takePaymentJob, hjob]
      rw [hw]
      exact .refl w
    | some job =>
      have hid : job.outboxId = k := Table.key_of_find hjob
      by_cases hs : job.state = .waiting
      · simp only [World.takePaymentJob, hjob, if_pos hs]
        have hfound : w.paymentJobs.find job.outboxId = some job := by rw [hid, hjob]
        exact .of_eq (.of_eq rfl rfl rfl) rfl rfl rfl (mem_put_jobs hfound)
      · simp only [World.takePaymentJob, hjob, if_neg hs]
        exact .refl w
  | finishPaymentJob k ok =>
    change w.Unqueued env [] (w.finishPaymentJob k ok)
    cases hjob : w.paymentJobs.find k with
    | none =>
      simp only [World.finishPaymentJob, hjob]
      exact .refl w
    | some job =>
      have hid : job.outboxId = k := Table.key_of_find hjob
      simp only [World.finishPaymentJob, hjob]
      have hfound : w.paymentJobs.find job.outboxId = some job := by rw [hid, hjob]
      exact .of_eq (.of_eq rfl rfl rfl) rfl rfl rfl (mem_put_jobs hfound)
  | emit | generateOrderId => exact .of_eq (.of_eq rfl rfl rfl) rfl rfl rfl fun j hj => ⟨j, hj, rfl⟩
  | findRide | findPaymentRide | findDetailByRide | findDetail | findDetailByOrder | findOutbox | isIpAllowed
  | waitPaymentJob => exact .refl w
  | _ => exact hop.elim

theorem World.Unqueued.saveOutbox (h : w.Unqueued env later v) {x y : PaymentOutbox} (hx : v.outbox.find x.id = some y)
    (hxy : x.ComesFrom y) : w.Unqueued env later (v.saveOutbox x) :=
  h.calm (.of_eq (keeps_saveOutbox hx hxy) rfl rfl rfl fun j hj => ⟨j, hj, rfl⟩)

theorem World.Unqueued.post (h : w.Unqueued env later v) (p : PaymentRequestPayload) :
    w.Unqueued env (later ++ [p]) (handle env (.post p) v).2 := by
  refine h.trans ⟨.of_eq rfl rfl rfl, rfl, Nat.le_succ _, fun d hd => ?_, fun j hj => ⟨j, hj, rfl⟩⟩
  exact ⟨d, hd, rfl, .inl ⟨rfl, rfl⟩⟩

theorem World.Unqueued.persist (h : w.Unqueued env later v) {d e : RidePaymentDetail} (he : e ∈ w.details.rows)
    (hride : e.rideId = d.rideId)
    (hlink : (d.token = e.token ∧ d.redirectUrl = e.redirectUrl) ∨ env.Links w.answered later d.token d.redirectUrl) :
    w.Unqueued env later (v.persistDetail d).2 where
  keeps := h.keeps.trans (keeps_persistDetail d)
  posts := by
    have hposts : (v.persistDetail d).2.posts = v.posts := by
      unfold World.persistDetail
      split <;> rfl
    rw [hposts, h.posts]
  answered := by
    have hcount : (v.persistDetail d).2.answered = v.answered := by
      unfold World.persistDetail
      split <;> rfl
    rw [hcount]
    exact h.answered
  details x hx := by
    rcases mem_persistDetail hx with hx | ⟨k, rfl⟩
    · exact h.details x hx
    · exact ⟨e, he, hride, hlink⟩
  jobs j hj := by
    rw [persistDetail_jobs] at hj
    exact h.jobs j hj

theorem World.Unqueued.run {α : Type} (h : w.Unqueued env later v) {p : Service α} (hp : p.Calls Call.Calm) :
    w.Unqueued env later (p.run (handle env) v).2 := by
  have hkeeps : Program.Keeps (handle env) (fun s t : World => s.Unqueued env [] t) p :=
    hp.keeps (fun s => .refl s) (fun _ _ _ h h' => h.calm h') fun op hop s => hop.unqueued env s
  exact h.calm (hkeeps v)

/-- The reply is recorded in the row and the detail that were read. -/
theorem World.Unqueued.recordReply (h : w.Unqueued env later v) {x : PaymentOutbox} {d : RidePaymentDetail} (endedAt : Time)
    (hx : w.outbox.find x.id = some x) (hd : d ∈ w.details.rows) {reply : GatewayReply} {startedAt : Time}
    (hreply : ∀ response, reply = .ok response → env.Links w.answered later (extractResponseString response "token")
      (extractResponseString response "redirect_url")) :
    w.Unqueued env later ((NebLite.recordReply d (attemptedOutbox x startedAt) endedAt reply).run (handle env) v).2 := by
  have hsaved {v : World} (hv : w.Unqueued env later v) {y : PaymentOutbox} (hy : y.ComesFrom x) :
      w.Unqueued env later (v.saveOutbox y) := by
    obtain ⟨z, hz, hzx⟩ := hv.keeps.outbox x.id x hx
    exact hv.saveOutbox (hy.id ▸ hz) (hy.trans hzx.symm)
  cases reply with
  | ok response =>
    have hreplied : w.Unqueued env later (v.persistDetail (repliedDetail d (attemptedOutbox x startedAt) response)).2 :=
      h.persist hd rfl (.inr (hreply response rfl))
    exact hsaved hreplied ⟨rfl, rfl, rfl, rfl, rfl⟩
  | error message =>
    have hmarked : w.Unqueued env later
        (v.saveOutbox { attemptedOutbox x startedAt with status := .failed, lastError := some message }) :=
      hsaved h ⟨rfl, rfl, rfl, rfl, rfl⟩
    exact hmarked.persist (d := { d with status := .failed, responsePayload := none }) hd rfl (.inl ⟨rfl, rfl⟩)

theorem unqueued_attempt {x : PaymentOutbox} {d : RidePaymentDetail} {startedAt endedAt : Time}
    (hx : w.outbox.find x.id = some x) (hd : d ∈ w.details.rows) :
    w.Unqueued env [x.requestPayload] ((attemptPayment x d startedAt endedAt).run (handle env) w).2 := by
  have hstarted : w.Unqueued env [] (w.saveOutbox (attemptedOutbox x startedAt)) :=
    (World.Unqueued.refl w).saveOutbox (x := attemptedOutbox x startedAt) hx ⟨rfl, rfl, rfl, rfl, rfl⟩
  unfold attemptPayment savePaymentOutbox
  rw [Program.run_bind_ok _ (run_call env (.saveOutbox _) w), Program.run_bind_ok _ (run_call env (.post _) _)]
  refine (hstarted.post x.requestPayload).recordReply endedAt hx hd fun response hreply => ?_
  exact ⟨w.answered, x.requestPayload, response, le_rfl, List.mem_singleton.mpr rfl, hreply, rfl, rfl⟩

variable (env w) in
/-- `processOutbox` posts the request of its row, or changes nothing. -/
theorem unqueued_processOutbox (outboxId : Id) (startedAt endedAt : Time) :
    (∃ x, w.outbox.find outboxId = some x ∧
      w.Unqueued env [x.requestPayload] ((processOutbox env outboxId startedAt endedAt).run (handle env) w).2) ∨
    (¬ (env.PaymentConfigured ∧ w.Stocked outboxId) ∧
      ((processOutbox env outboxId startedAt endedAt).run (handle env) w).2 = w) := by
  rw [processOutbox_eq]
  by_cases hconf : env.PaymentConfigured
  · rw [ensurePaymentConfiguration_ok hconf, pure_bind]
    have hfound := run_call env (.findOutbox outboxId) w
    rw [handle] at hfound
    rw [Program.run_bind_ok _ hfound]
    cases hx : w.outbox.find outboxId with
    | none =>
      refine .inr ⟨?_, rfl⟩
      rintro ⟨-, x, hx', -⟩
      rw [hx] at hx'
      cases hx'
    | some x =>
      have hread := run_call env (.findDetail x.paymentDetailId) w
      rw [handle] at hread
      simp only
      rw [Program.run_bind_ok _ hread]
      cases hd : w.details.find x.paymentDetailId with
      | none =>
        refine .inr ⟨?_, rfl⟩
        rintro ⟨-, y, hy, hne⟩
        obtain rfl := Option.some.inj (hx.symm.trans hy)
        exact hne hd
      | some d =>
        have hid : x.id = outboxId := Table.key_of_find hx
        exact .inl ⟨x, rfl, unqueued_attempt (hid ▸ hx) (Table.find_some.mp hd).1⟩
  · rw [ensurePaymentConfiguration_error hconf]
    exact .inr ⟨fun h => hconf h.1, rfl⟩

variable (env) in
/-- A worker that has the job ends it after its attempt. -/
theorem work_taken {outboxId : Id} (d : JobDelivery) (h : (w.takePaymentJob outboxId).1 = some outboxId) :
    ∃ succeeded, w.work env (outboxId, d) = (((processOutbox env outboxId d.startedAt d.endedAt).run (handle env)
      (w.takePaymentJob outboxId).2).2).finishPaymentJob outboxId succeeded := by
  have htake : (call (.takePaymentJob outboxId)).run (handle env) w = (.ok (some outboxId), (w.takePaymentJob outboxId).2) := by
    rw [run_call, ← h]
    rfl
  unfold World.work deliverPaymentJob
  simp only
  rw [Program.run_bind_ok _ htake]
  simp only
  rw [Program.run_bind, Program.run_catching, Program.run_bind]
  cases hrun : (processOutbox env outboxId d.startedAt d.endedAt).run (handle env) (w.takePaymentJob outboxId).2 with
  | mk reply v =>
    cases reply with
    | ok result => exact ⟨true, rfl⟩
    | error e => exact ⟨false, rfl⟩

theorem work_untaken {outboxId : Id} {d : JobDelivery} (h : (w.takePaymentJob outboxId).1 = none) :
    w.work env (outboxId, d) = w := by
  have htake : (call (.takePaymentJob outboxId)).run (handle env) w = (.ok none, (w.takePaymentJob outboxId).2) := by
    rw [run_call, ← h]
    rfl
  unfold World.work deliverPaymentJob
  simp only
  rw [Program.run_bind_ok _ htake]
  exact takePaymentJob_none h

/-- The worker can post the row: its job waits, and row and detail are there. -/
structure World.Deliverable (env : Environment) (w : World) (outboxId : Id) : Prop where
  configured : env.PaymentConfigured
  stocked : w.Stocked outboxId
  job : ∃ j, w.paymentJobs.find outboxId = some j ∧ j.state = .waiting

variable (env w) in
/-- One delivery of a job posts at most the request of its row, and posts it when it can. -/
theorem unqueued_work (outboxId : Id) (d : JobDelivery) : ∃ later, w.Unqueued env later (w.work env (outboxId, d)) ∧
    (w.Deliverable env outboxId → ∃ x, w.outbox.find outboxId = some x ∧ later = [x.requestPayload]) := by
  rcases takePaymentJob_answer w outboxId with hnone | hsome
  · refine ⟨[], ?_, fun h => ?_⟩
    · rw [work_untaken hnone]
      exact .refl w
    · obtain ⟨j, hj, hs⟩ := h.job
      simp [World.takePaymentJob, hj, hs] at hnone
  · obtain ⟨succeeded, hwork⟩ := work_taken env d hsome
    obtain ⟨job, -, -, htaken⟩ := takePaymentJob_some hsome
    have htake : w.Unqueued env [] (w.takePaymentJob outboxId).2 :=
      have hcalm : (Call.takePaymentJob outboxId).Calm := trivial
      hcalm.unqueued env w
    have hfinish (v : World) : v.Unqueued env [] (v.finishPaymentJob outboxId succeeded) :=
      have hcalm : (Call.finishPaymentJob outboxId succeeded).Calm := trivial
      hcalm.unqueued env v
    have hrow : (w.takePaymentJob outboxId).2.outbox = w.outbox := by rw [htaken]
    have hstocked : w.Stocked outboxId → (w.takePaymentJob outboxId).2.Stocked outboxId := by
      rw [htaken]
      exact id
    rw [hwork]
    obtain ⟨x, hx, hposted⟩ | ⟨hno, hsame⟩ :=
      unqueued_processOutbox env (w.takePaymentJob outboxId).2 outboxId d.startedAt d.endedAt
    · exact ⟨[x.requestPayload], (htake.trans hposted).calm (hfinish _), fun _ => ⟨x, hrow ▸ hx, rfl⟩⟩
    · rw [hsame]
      exact ⟨[], htake.calm (hfinish _), fun h => absurd ⟨h.configured, hstocked h.stocked⟩ hno⟩

variable (env w) in
theorem unqueued_jobs (jobs : List (Id × JobDelivery)) : ∃ later, w.Unqueued env later (jobs.foldl (World.work env) w) := by
  induction jobs generalizing w with
  | nil => exact ⟨[], .refl w⟩
  | cons job jobs ih =>
    obtain ⟨first, hfirst, -⟩ := unqueued_work env w job.1 job.2
    obtain ⟨rest, hrest⟩ := ih (w.work env job)
    exact ⟨first ++ rest, hfirst.trans hrest⟩

end Unqueued

section Deliveries

variable {env : Environment} {w v : World} {k : Id}

variable (env) in
theorem works_jobs {α : Type} {p : Service α} (hp : p.Calls Call.Works) (w : World) :
    (p.run (handle env) w).2.paymentJobs = w.paymentJobs := by
  have hkeeps : Program.Keeps (handle env) (fun s t : World => t.paymentJobs = s.paymentJobs) p := by
    refine hp.keeps (fun _ => rfl) (fun _ _ _ h h' => h'.trans h) fun op hop s => ?_
    cases op with
    | saveDetail d => exact persistDetail_jobs d
    | findOutbox | findDetail | saveOutbox | post => rfl
    | _ => exact hop.elim
  exact hkeeps w

theorem work_other {job : Id × JobDelivery} (h : job.1 ≠ k) :
    (w.work env job).paymentJobs.find k = w.paymentJobs.find k := by
  obtain ⟨outboxId, d⟩ := job
  have hother {v : World} (job : PaymentJob) (hid : job.outboxId = outboxId) :
      (v.paymentJobs.put job).find k = v.paymentJobs.find k := by
    apply Table.find_put_ne
    change k ≠ job.outboxId
    rw [hid]
    exact h.symm
  rcases takePaymentJob_answer w outboxId with hnone | hsome
  · rw [work_untaken hnone]
  · obtain ⟨succeeded, hwork⟩ := work_taken env d hsome
    obtain ⟨job, hjob, -, htaken⟩ := takePaymentJob_some hsome
    have hid : job.outboxId = outboxId := Table.key_of_find hjob
    let active : PaymentJob := { job with state := .active, attemptsMade := job.attemptsMade + 1 }
    have hworks : (processOutbox env outboxId d.startedAt d.endedAt).Calls Call.Works := works_processOutbox
    have hkept := works_jobs env hworks (w.takePaymentJob outboxId).2
    have hactive : (w.takePaymentJob outboxId).2.paymentJobs = w.paymentJobs.put active := by rw [htaken]
    rw [hactive] at hkept
    rw [hwork]
    generalize ((processOutbox env outboxId d.startedAt d.endedAt).run (handle env) (w.takePaymentJob outboxId).2).2 = u at hkept ⊢
    have hfound : u.paymentJobs.find outboxId = some active := by
      rw [hkept]
      exact put_job_found hjob rfl
    obtain ⟨state, hfinish⟩ := finishPaymentJob_found hfound succeeded
    rw [hfinish]
    change (u.paymentJobs.put { active with state }).find k = _
    rw [hother { active with state } hid, hkept, hother active hid]

theorem World.Deliverable.work {later : List PaymentRequestPayload} (h : w.Deliverable env k) {job : Id × JobDelivery}
    (hne : job.1 ≠ k) (hw : w.Unqueued env later (w.work env job)) : (w.work env job).Deliverable env k where
  configured := h.configured
  stocked := by
    obtain ⟨x, hx, hd⟩ := h.stocked
    obtain ⟨y, hy, hyx⟩ := hw.keeps.outbox k x hx
    obtain ⟨d, hd⟩ := Option.ne_none_iff_exists'.mp hd
    obtain ⟨e, he, -⟩ := hw.keeps.details _ d hd
    refine ⟨y, hy, ?_⟩
    rw [hyx.paymentDetailId, he]
    simp
  job := by
    rw [work_other hne]
    exact h.job

/-- A row that can be delivered is posted when its job is delivered among others. -/
theorem jobs_post {jobs : List (Id × JobDelivery)} (h : w.Deliverable env k) (hjob : ∃ d, (k, d) ∈ jobs)
    {x : PaymentOutbox} (hx : w.outbox.find k = some x) : ∃ later, w.Unqueued env later (jobs.foldl (World.work env) w) ∧
      x.requestPayload ∈ later := by
  induction jobs generalizing w x with
  | nil =>
    obtain ⟨d, hd⟩ := hjob
    cases hd
  | cons job jobs ih =>
    obtain ⟨first, hfirst, hposts⟩ := unqueued_work env w job.1 job.2
    by_cases hk : job.1 = k
    · obtain ⟨rest, hrest⟩ := unqueued_jobs env (w.work env job) jobs
      obtain ⟨y, hy, rfl⟩ := hposts (hk ▸ h)
      rw [hk] at hy
      obtain rfl := Option.some.inj (hx.symm.trans hy)
      exact ⟨[x.requestPayload] ++ rest, hfirst.trans hrest, List.mem_cons_self⟩
    · have hrest : ∃ d, (k, d) ∈ jobs := by
        obtain ⟨d, hd⟩ := hjob
        rcases List.mem_cons.mp hd with he | hd
        · exact absurd (congrArg Prod.fst he).symm hk
        · exact ⟨d, hd⟩
      obtain ⟨y, hy, hyx⟩ := hfirst.keeps.outbox k x hx
      obtain ⟨rest, hlater, hmem⟩ := ih (h.work hk hfirst) hrest hy
      rw [hyx.requestPayload] at hmem
      exact ⟨first ++ rest, hfirst.trans hlater, List.mem_append_right _ hmem⟩

end Deliveries

section Serving

variable {env : Environment} {w v : World} {jobs : List (Id × JobDelivery)}

/-- The service while the queue has `jobs` to work on when a payment waits. -/
abbrev serving (env : Environment) (jobs : List (Id × JobDelivery)) : Handler Call Call.Answer ServiceError World :=
  fun op v => handle env op (workBefore env jobs op v)

/-- The store when a payment begins to wait. -/
def World.enqueue (w : World) (rideId : Id) (d : RidePaymentDetail) (input : OutboxInput) : World :=
  let ((_, x), v) := w.saveDetailAndOutbox d input
  (v.addPaymentJob x.id (paymentJobId rideId x.id)).saveOutbox { x with jobId := some (paymentJobId rideId x.id) }

/-- The call waits for a job. -/
def Call.Waits : Call → Prop
  | .waitPaymentJob _ => True
  | _ => False

theorem serving_idle {op : Call} (h : ¬ op.Waits) (w : World) : serving env jobs op w = handle env op w := by
  cases op with
  | waitPaymentJob => exact absurd trivial h
  | _ => rfl

theorem run_serving {α : Type} {p : Service α} (hp : p.Calls fun op => ¬ op.Waits) (w : World) :
    p.run (serving env jobs) w = p.run (handle env) w :=
  hp.run_congr (fun _ hop s => serving_idle hop s) w

theorem run_awaitPayment (detailId outboxId : Id) (w : World) :
    (awaitPayment detailId outboxId).run (serving env jobs) w =
      (awaitPayment detailId outboxId).run (handle env) (jobs.foldl (World.work env) w) := by
  unfold awaitPayment
  rw [Program.run_bind, Program.run_bind, Program.run_catching, Program.run_catching]
  have hwait : (call (.waitPaymentJob outboxId)).run (serving env jobs) w =
      (call (.waitPaymentJob outboxId)).run (handle env) (jobs.foldl (World.work env) w) := by
    rw [call, Program.run_perform, Program.run_perform]
    rfl
  rw [hwait]
  cases (call (.waitPaymentJob outboxId)).run (handle env) (jobs.foldl (World.work env) w) with
  | mk reply v =>
    cases reply with
    | error e => rfl
    | ok a =>
      refine run_serving ((calls_call id).bind fun o => ?_) v
      cases o with
      | none => trivial
      | some d => by_cases hurl : truthy d.redirectUrl = true <;> simp [hurl]

theorem run_queuePayment (ride : Ride) (d : RidePaymentDetail) (input : OutboxInput) (w : World) :
    (queuePayment ride d input).run (serving env jobs) w =
      (awaitPayment (w.saveDetailAndOutbox d input).1.1.id (w.saveDetailAndOutbox d input).1.2.id).run (handle env)
        (jobs.foldl (World.work env) (w.enqueue ride.id d input)) := by
  rw [← run_awaitPayment]
  unfold queuePayment
  simp only [enqueuePayment_eq]
  rfl

end Serving

/-- What holds of the payment tables at any time: payments are only stored with a gateway
configured, a detail together with an outbox row, and a job is one of an outbox row. -/
structure World.Sourced (env : Environment) (w : World) : Prop where
  configured : ∀ d ∈ w.details.rows, env.PaymentConfigured
  billed : ∀ d ∈ w.details.rows, ∃ x ∈ w.outbox.rows, x.rideId = d.rideId
  queued : ∀ j ∈ w.paymentJobs.rows, w.outbox.find j.outboxId ≠ none

section Sourced

variable {env : Environment} {w v : World} {jobs : List (Id × JobDelivery)} {later : List PaymentRequestPayload}

theorem World.Unqueued.sourced (h : w.Unqueued env later v) (hw : w.Sourced env) : v.Sourced env where
  configured d hd := by
    obtain ⟨e, he, -⟩ := h.details d hd
    exact hw.configured e he
  billed d hd := by
    obtain ⟨e, he, hride, -⟩ := h.details d hd
    obtain ⟨x, hx, hxe⟩ := hw.billed e he
    obtain ⟨y, hy, hyx⟩ := h.keeps.outbox x.id x (Table.find_some.mpr ⟨hx, rfl⟩)
    exact ⟨y, (Table.find_some.mp hy).1, hyx.rideId.trans (hxe.trans hride)⟩
  queued j hj := by
    obtain ⟨i, hi, hid⟩ := h.jobs j hj
    obtain ⟨x, hx⟩ := Option.ne_none_iff_exists'.mp (hw.queued i hi)
    obtain ⟨y, hy, -⟩ := h.keeps.outbox _ x hx
    rw [← hid, hy]
    simp

theorem saveDetailAndOutbox_id (d : RidePaymentDetail) (input : OutboxInput) :
    (w.saveDetailAndOutbox d input).1.2.id = w.outbox.nextKey := by
  change (w.persistDetail d).2.outbox.nextKey = w.outbox.nextKey
  rw [persistDetail_outbox]

theorem saveDetailAndOutbox_find (d : RidePaymentDetail) (input : OutboxInput) (k : Id) :
    (w.saveDetailAndOutbox d input).2.outbox.find k =
      if k = w.outbox.nextKey then some (w.saveDetailAndOutbox d input).1.2 else w.outbox.find k := by
  have hout : (w.persistDetail d).2.outbox = w.outbox := persistDetail_outbox d
  simp only [World.saveDetailAndOutbox, Table.find_insert, hout]

/-- A payment is queued: the new row is that of its detail and of its job. -/
theorem World.Sourced.enqueue (h : w.Sourced env) (hconf : env.PaymentConfigured) (rideId : Id) (d : RidePaymentDetail)
    (input : OutboxInput) : (w.enqueue rideId d input).Sourced env := by
  let x := (w.saveDetailAndOutbox d input).1.2
  let stored := (w.saveDetailAndOutbox d input).2
  have hid : x.id = w.outbox.nextKey := saveDetailAndOutbox_id d input
  have hx : stored.outbox.find x.id = some x := by
    rw [saveDetailAndOutbox_find, if_pos hid]
  have hold {k : Id} {y : PaymentOutbox} (hy : w.outbox.find k = some y) : stored.outbox.find k = some y := by
    have hne : k ≠ w.outbox.nextKey := by
      rintro rfl
      rw [Table.find_nextKey] at hy
      cases hy
    rw [saveDetailAndOutbox_find, if_neg hne, hy]
  have hride : x.rideId = d.rideId := (persistDetail_stored w d).2
  have hjobs : stored.paymentJobs = w.paymentJobs := persistDetail_jobs d
  have hkept {i : PaymentJob} (hi : i ∈ w.paymentJobs.rows) : stored.outbox.find i.outboxId ≠ none := by
    obtain ⟨y, hy⟩ := Option.ne_none_iff_exists'.mp (h.queued i hi)
    rw [hold hy]
    simp
  have hqueued : (stored.addPaymentJob x.id (paymentJobId rideId x.id)).Sourced env := by
    refine ⟨fun _ _ => hconf, fun e he => ?_, fun j hj => ?_⟩
    · rcases mem_persistDetail he with he | ⟨k, rfl⟩
      · obtain ⟨y, hy, hye⟩ := h.billed e he
        exact ⟨y, (Table.find_some.mp (hold (Table.find_some.mpr ⟨hy, rfl⟩))).1, hye⟩
      · exact ⟨x, (Table.find_some.mp hx).1, hride⟩
    · change j ∈ (stored.paymentJobs.upsert _ _ _).rows at hj
      rw [hjobs] at hj
      rcases Table.mem_upsert hj with hj | rfl | ⟨i, hi, -, rfl⟩
      · exact hkept hj
      · change stored.outbox.find x.id ≠ none
        rw [hx]
        simp
      · exact hkept hi
  have hsaved : (stored.addPaymentJob x.id (paymentJobId rideId x.id)).Unqueued env [] (w.enqueue rideId d input) :=
    (World.Unqueued.refl _).saveOutbox (x := { x with jobId := some (paymentJobId rideId x.id) }) hx
      ⟨rfl, rfl, rfl, rfl, rfl⟩
  exact hsaved.sourced hqueued

/-- The program keeps what holds of the payment tables while the queue works. -/
abbrev Sources {α : Type} (env : Environment) (jobs : List (Id × JobDelivery)) (p : Service α) : Prop :=
  Program.Keeps (serving env jobs) (fun s t : World => s.Sourced env → t.Sourced env) p

theorem Sources.bind {α β : Type} {p : Service α} {f : α → Service β} (hp : Sources env jobs p)
    (hf : ∀ a, Sources env jobs (f a)) : Sources env jobs (p >>= f) :=
  Program.Keeps.bind (fun _ _ _ h h' hs => h' (h hs)) hp hf

theorem sources_calm {α : Type} {p : Service α} (hp : p.Calls Call.Calm) : Sources env jobs p := by
  refine hp.keeps (fun _ hs => hs) (fun _ _ _ h h' hs => h' (h hs)) fun op hop s hs => ?_
  have hwork : (workBefore env jobs op s).Sourced env := by
    cases op with
    | waitPaymentJob =>
      obtain ⟨later, hjobs⟩ := unqueued_jobs env s jobs
      exact hjobs.sourced hs
    | _ => exact hs
  exact (hop.unqueued env _).sourced hwork

theorem calm_call (op : Call) (hop : op.Calm) : (call op).Calls Call.Calm := calls_call hop

theorem sources_call (op : Call) (hop : op.Calm) : Sources env jobs (call op) := sources_calm (calls_call hop)

theorem calm_awaitPayment (detailId outboxId : Id) : (awaitPayment detailId outboxId).Calls Call.Calm := by
  refine (awaits_awaitPayment detailId outboxId).mono fun op hop => ?_
  cases op with
  | waitPaymentJob | findDetail => trivial
  | _ => exact hop.elim

theorem sources_queuePayment (hconf : env.PaymentConfigured) (ride : Ride) (d : RidePaymentDetail) (input : OutboxInput) :
    Sources env jobs (queuePayment ride d input) := by
  intro w hw
  obtain ⟨later, hjobs⟩ := unqueued_jobs env (w.enqueue ride.id d input) jobs
  rw [run_queuePayment]
  exact (hjobs.run (calm_awaitPayment _ _)).sourced (hw.enqueue hconf ride.id d input)

theorem sources_initiatePayment (ride : Ride) : Sources env jobs (initiatePayment env ride) := by
  rw [initiatePayment_eq]
  by_cases hconf : env.PaymentConfigured
  · rw [ensurePaymentConfiguration_ok hconf, pure_bind]
    refine (sources_call (.findDetailByRide ride.id) trivial).bind fun existing => ?_
    simp only
    split
    · exact sources_calm trivial
    have hrest (orderId : OrderId) : Sources env jobs (do
        let requestPayload ← Program.ofExcept (buildPaymentRequestPayload ride orderId)
        queuePayment ride (queuedDetail (existing.getD (newPaymentDetail env ride.id)) orderId requestPayload)
          { orderId, requestPayload, status := .pending }) :=
      (sources_calm (by simp)).bind fun _ => sources_queuePayment hconf ride _ _
    split
    · exact hrest _
    · exact (sources_call .generateOrderId trivial).bind hrest
  · rw [ensurePaymentConfiguration_error hconf]
    exact sources_calm trivial

theorem sources_proceedRidePayment (rideId riderId : Id) : Sources env jobs (proceedRidePayment env rideId riderId) := by
  unfold proceedRidePayment
  refine (sources_call (.findPaymentRide rideId) trivial).bind fun o => ?_
  cases o with
  | none => exact sources_calm trivial
  | some ride =>
    simp only [↓Program.throw_seq]
    split
    · exact sources_calm trivial
    split
    · exact sources_calm trivial
    split
    · exact (sources_call (.findDetailByRide ride.id) trivial).bind fun _ => sources_calm trivial
    refine (sources_initiatePayment ride).bind fun d => ?_
    have hstate : (updatePaymentState ride.id (some .onProcess) d.redirectUrl).Calls Call.Calm := by
      unfold updatePaymentState
      exact (calm_call (.updatePaymentState _ _ _) trivial).bind fun rows => by simp [UpdateResult.length]
    exact (sources_calm hstate).bind fun _ =>
      (sources_call (.findPaymentRide ride.id) trivial).bind fun _ => sources_calm trivial

theorem unqueued_saveDetailWithRideUpdate {d e : RidePaymentDetail} (he : e ∈ w.details.rows) (hride : e.rideId = d.rideId)
    (hlink : d.token = e.token ∧ d.redirectUrl = e.redirectUrl) (rideUpdate : Option RidePaymentUpdate)
    (outboxUpdate : Option OutboxUpdate) (now : Time) :
    w.Unqueued env [] (w.saveDetailWithRideUpdate d rideUpdate outboxUpdate now).2 := by
  have hsaved : w.Unqueued env [] (w.persistDetail d).2 := (World.Unqueued.refl w).persist he hride (.inl hlink)
  have hpaid (u : RidePaymentUpdate) : w.Unqueued env [] ((w.persistDetail d).2.applyRideUpdate u) :=
    have hcalm : (Call.updatePaymentState u.rideId u.paymentStatus u.paymentUrl).Calm := trivial
    hsaved.calm (hcalm.unqueued env _)
  have hmarked {v : World} (hv : w.Unqueued env [] v) (u : OutboxUpdate) : w.Unqueued env [] (v.applyOutboxUpdate u now) :=
    hv.calm (.of_eq (keeps_applyOutboxUpdate v u now) rfl rfl rfl fun j hj => ⟨j, hj, rfl⟩)
  cases rideUpdate with
  | none =>
    cases outboxUpdate with
    | none => exact hsaved
    | some x => exact hmarked hsaved x
  | some u =>
    cases outboxUpdate with
    | none => exact hpaid u
    | some x => exact hmarked (hpaid u) x

theorem unqueued_recordNotification {payload : PaymentNotification} {orderId : OrderId} {d : RidePaymentDetail} {ride : Ride}
    {now : Time} (hd : d ∈ w.details.rows) :
    w.Unqueued env [] ((recordNotification payload orderId d ride now).run (handle env) w).2 := by
  have hemits (ride : Ride) (reference : Option String) : (notifyRidePaid ride reference).Calls Call.Calm := by
    refine (emits_notifyRidePaid ride reference).mono ?_
    rintro op ⟨n, rfl⟩
    trivial
  unfold recordNotification
  simp only
  rw [Program.run_bind, run_call]
  refine World.Unqueued.run (unqueued_saveDetailWithRideUpdate (d := (applyNotification ride payload d).1) hd rfl ⟨rfl, rfl⟩
    _ _ now) ?_
  refine Program.Calls.bind (calm_call (.findRide ride.id) trivial) fun refreshed => ?_
  split
  · exact (hemits _ _).bind fun _ => trivial
  · trivial

variable (env w) in
/-- A notification is refused, or recorded in the detail that has its order. -/
theorem notification_cases (payload : PaymentNotification) (sourceIp : String) (now : Time) :
    (∃ e, (handlePaymentNotification payload sourceIp now).run (handle env) w = (.error e, w)) ∨
    ∃ orderId d ride, d ∈ w.details.rows ∧ w.rides.find d.rideId = some ride ∧
      (handlePaymentNotification payload sourceIp now).run (handle env) w =
        (recordNotification payload orderId d ride now).run (handle env) w := by
  rw [handlePaymentNotification_eq, Program.run_bind, run_call]
  simp only [handle, ↓Program.throw_seq]
  split
  · exact .inl ⟨_, rfl⟩
  cases payload.orderId with
  | none => exact .inl ⟨_, rfl⟩
  | some orderId =>
    have hfound := run_call env (.findDetailByOrder orderId) w
    rw [handle] at hfound
    simp only
    rw [Program.run_bind_ok _ hfound]
    cases hd : w.findDetailByOrder orderId with
    | none => exact .inl ⟨_, rfl⟩
    | some d =>
      simp only
      rw [Program.run_bind_ok _ (run_findById env d.rideId w)]
      cases hr : w.rides.find d.rideId with
      | none => exact .inl ⟨_, rfl⟩
      | some ride => exact .inr ⟨orderId, d, ride, List.mem_of_find?_eq_some hd, hr, rfl⟩

theorem sourced_notification (hw : w.Sourced env) (payload : PaymentNotification) (sourceIp : String) (now : Time) :
    ((handlePaymentNotification payload sourceIp now).run (handle env) w).2.Sourced env := by
  obtain ⟨e, he⟩ | ⟨orderId, d, ride, hd, -, hrun⟩ := notification_cases env w payload sourceIp now
  · rw [he]
    exact hw
  · rw [hrun]
    exact (unqueued_recordNotification hd).sourced hw

variable (env) in
/-- The operations of the lifecycle leave the tables and the queue of the payments. -/
theorem lifecycle_tables (lop : LifecycleOp) (w : World) :
    ((RideOp.lifecycle lop).step env w).details = w.details ∧ ((RideOp.lifecycle lop).step env w).outbox = w.outbox ∧
      ((RideOp.lifecycle lop).step env w).paymentJobs = w.paymentJobs := by
  have hmove (t : Trail) (op : Call) (v : World) (t' : Trail)
      (hv : v.details = w.details ∧ v.outbox = w.outbox ∧ v.paymentJobs = w.paymentJobs)
      (hm : (trailOutline env lop.Tends).move t op v t') : (handle env op v).2.details = w.details ∧
        (handle env op v).2.outbox = w.outbox ∧ (handle env op v).2.paymentJobs = w.paymentJobs := by
    obtain ⟨-, htends⟩ := hm
    have hsame : (handle env op v).2.details = v.details ∧ (handle env op v).2.outbox = v.outbox ∧
        (handle env op v).2.paymentJobs = v.paymentJobs := by
      cases op with
      | updateRideRow m =>
        simp only [handle, World.updateRideRow]
        split <;> exact ⟨rfl, rfl, rfl⟩
      | claimDriver rideId d =>
        simp only [handle, World.claimDriver]
        split
        · exact ⟨rfl, rfl, rfl⟩
        split <;> exact ⟨rfl, rfl, rfl⟩
      | insertRide options =>
        change (v.insertRide options).2.details = v.details ∧ (v.insertRide options).2.outbox = v.outbox ∧
          (v.insertRide options).2.paymentJobs = v.paymentJobs
        obtain h | ⟨_, _, -, -, h⟩ := insertRide_cases v options <;> rw [h] <;> exact ⟨rfl, rfl, rfl⟩
      | saveCandidate n =>
        simp only [handle, World.saveCandidate]
        split <;> exact ⟨rfl, rfl, rfl⟩
      | findPaymentRide | updatePaymentState | findDetailByRide | findDetail | findDetailByOrder | saveDetail
      | saveDetailWithRideUpdate | saveDetailAndOutbox | findOutbox | saveOutbox | isIpAllowed | addPaymentJob
      | waitPaymentJob | takePaymentJob | finishPaymentJob | post | generateOrderId =>
        exact (LifecycleOp.attends_some htends).elim fun _ ha => ha.elim
      | _ => exact ⟨rfl, rfl, rfl⟩
    exact ⟨hsame.1.trans hv.1, hsame.2.1.trans hv.2.1, hsame.2.2.trans hv.2.2⟩
  obtain ⟨-, -, hend⟩ := (lop.trails env).run_keeps (fun _ _ _ => trivial) hmove ⟨rfl, rfl, rfl⟩
  exact hend

variable (env) in
theorem World.Sourced.turn (hw : w.Sourced env) (turn : Turn) : (turn.step env w).Sourced env := by
  cases turn with
  | served rideId riderId jobs => exact sources_proceedRidePayment rideId riderId w hw
  | alone op =>
    cases op with
    | lifecycle lop =>
      obtain ⟨hd, ho, hj⟩ := lifecycle_tables env lop w
      refine ⟨fun d hd' => hw.configured d (hd ▸ hd'), fun d hd' => ?_, fun j hj' => ?_⟩
      · obtain ⟨x, hx, hxd⟩ := hw.billed d (hd ▸ hd')
        exact ⟨x, ho ▸ hx, hxd⟩
      · have hrow := hw.queued j (hj ▸ hj')
        exact ho ▸ hrow
    | proceedRidePayment rideId riderId =>
      have hidle : serving env [] = handle env := by
        funext op v
        cases op <;> rfl
      have hrun : Sources env [] (proceedRidePayment env rideId riderId) := sources_proceedRidePayment rideId riderId
      rw [Sources, hidle] at hrun
      rw [Turn.step, RideOp.step, RideOp.program, run_discard]
      exact hrun w hw
    | processOutbox outboxId startedAt endedAt =>
      rw [Turn.step, RideOp.step, RideOp.program, run_discard]
      obtain ⟨x, -, hposted⟩ | ⟨-, hsame⟩ := unqueued_processOutbox env w outboxId startedAt endedAt
      · exact hposted.sourced hw
      · rwa [hsame]
    | handlePaymentNotification payload sourceIp now =>
      rw [Turn.step, RideOp.step, RideOp.program, run_discard]
      exact sourced_notification hw payload sourceIp now

variable (env) in
theorem sourced_after (hw : w.Sourced env) (turns : List Turn) : (w.afterTurns env turns).Sourced env := by
  induction turns generalizing w with
  | nil => exact hw
  | cons turn turns ih => exact ih (hw.turn env turn)

theorem sourced_initial (whitelist : List String) : (World.initial whitelist).Sourced env where
  configured d hd := by cases hd
  billed d hd := by cases hd
  queued j hj := by cases hj

end Sourced

end NebLite
