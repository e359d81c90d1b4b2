import NebLite.Rides.Snapshots
import NebLite.Rides.Matching

/-! What the lifecycle operations have read, and the calls that they make after it: each
one is about the operation's own ride, and a row is written back from a row that was read. -/

namespace NebLite

open Atomic

/-- The rows that a process has read, whether its source address was allowed, and whether
it has created a ride. -/
structure Trail where
  rides : List Ride
  rows : List RideDriverCandidate
  details : List RidePaymentDetail
  sought : List (Id × Option RidePaymentDetail)
  ordered : List (OrderId × RidePaymentDetail)
  outbox : List PaymentOutbox
  allowed : Bool
  created : Bool

namespace Trail

def empty : Trail := ⟨[], [], [], [], [], [], false, false⟩

def after (t : Trail) : Event Call Call.Answer ServiceError → Trail
  | ⟨.findRide _, .ok (some r)⟩ => { t with rides := r :: t.rides }
  | ⟨.findPaymentRide _, .ok (some r)⟩ => { t with rides := r :: t.rides }
  | ⟨.findCandidate _ _, .ok (some c)⟩ => { t with rows := c :: t.rows }
  | ⟨.findCandidates _, .ok cs⟩ => { t with rows := cs ++ t.rows }
  | ⟨.findDetail _, .ok (some d)⟩ => { t with details := d :: t.details }
  | ⟨.findDetailByRide k, .ok o⟩ => { t with sought := (k, o) :: t.sought }
  | ⟨.findDetailByOrder o, .ok (some d)⟩ => { t with ordered := (o, d) :: t.ordered }
  | ⟨.findOutbox _, .ok (some x)⟩ => { t with outbox := x :: t.outbox }
  | ⟨.saveDetailAndOutbox _ _, .ok (_, x)⟩ => { t with outbox := x :: t.outbox }
  | ⟨.isIpAllowed _, .ok true⟩ => { t with allowed := true }
  | ⟨.insertRide _, .ok _⟩ => { t with created := true }
  | _ => t

end Trail

/-- All that a call adds to a trail. -/
inductive Trail.Reads (w : World) (t : Trail) : Call → Trail → Prop
  | nothing {op} : (∀ options, op ≠ .insertRide options) → t.Reads w op t
  | ride {k r} : w.rides.find k = some r → t.Reads w (.findRide k) { t with rides := r :: t.rides }
  | paymentRide {k r} : w.findPaymentRide k = some r →
      t.Reads w (.findPaymentRide k) { t with rides := r :: t.rides }
  | row {k d c} : w.findCandidate k d = some c → t.Reads w (.findCandidate k d) { t with rows := c :: t.rows }
  | rows {k} : t.Reads w (.findCandidates k) { t with rows := w.findCandidates k ++ t.rows }
  | detail {k d} : w.details.find k = some d → t.Reads w (.findDetail k) { t with details := d :: t.details }
  | sought {k} : t.Reads w (.findDetailByRide k) { t with sought := (k, w.findDetailByRide k) :: t.sought }
  | order {o d} : w.findDetailByOrder o = some d →
      t.Reads w (.findDetailByOrder o) { t with ordered := (o, d) :: t.ordered }
  | outbox {k x} : w.outbox.find k = some x → t.Reads w (.findOutbox k) { t with outbox := x :: t.outbox }
  | saved {d input} : t.Reads w (.saveDetailAndOutbox d input)
      { t with outbox := (w.saveDetailAndOutbox d input).1.2 :: t.outbox }
  | allowed {addresses} : (w.whitelist.any fun ip => ip ∈ addresses.filter fun a => !a.isEmpty) = true →
      t.Reads w (.isIpAllowed addresses) { t with allowed := true }
  | created {options} : t.Reads w (.insertRide options) { t with created := true }
  | uncreated {options} : (w.insertRide options).2 = w → t.Reads w (.insertRide options) t

theorem Trail.reads (env : Environment) (w : World) (t : Trail) (op : Call) :
    t.Reads w op (t.after ⟨op, (handle env op w).1⟩) := by
  cases op with
  | findRide k =>
    cases hr : w.rides.find k with
    | none => simpa only [handle, hr] using .nothing (by simp)
    | some r => simpa only [handle, hr] using .ride hr
  | findPaymentRide k =>
    cases hr : w.findPaymentRide k with
    | none => simpa only [handle, hr] using .nothing (by simp)
    | some r => simpa only [handle, hr] using .paymentRide hr
  | findCandidate k d =>
    cases hc : w.findCandidate k d with
    | none => simpa only [handle, hc] using .nothing (by simp)
    | some c => simpa only [handle, hc] using .row hc
  | findCandidates k => exact .rows
  | findDetail k =>
    cases hd : w.details.find k with
    | none => simpa only [handle, hd] using .nothing (by simp)
    | some d => simpa only [handle, hd] using .detail hd
  | findDetailByRide k => exact .sought
  | findDetailByOrder o =>
    cases hd : w.findDetailByOrder o with
    | none => simpa only [handle, hd] using .nothing (by simp)
    | some d => simpa only [handle, hd] using .order hd
  | findOutbox k =>
    cases hx : w.outbox.find k with
    | none => simpa only [handle, hx] using .nothing (by simp)
    | some x => simpa only [handle, hx] using .outbox hx
  | saveDetailAndOutbox => exact .saved
  | isIpAllowed addresses =>
    cases ha : w.whitelist.any fun ip => ip ∈ addresses.filter fun a => !a.isEmpty with
    | false => simpa only [handle, ha] using .nothing (by simp)
    | true => simpa only [handle, ha] using .allowed ha
  | insertRide options =>
    rcases hi : w.insertRide options with ⟨e | created, v⟩
    · have hkept : (w.insertRide options).2 = w := by rw [hi, insertRide_refused hi]
      simpa only [handle, hi] using .uncreated hkept
    · simpa only [handle, hi] using .created
  | _ => exact .nothing (by simp)

/-- The drivers whose candidate rows an operation may write. -/
def LifecycleOp.Reaches (d : Id) : LifecycleOp → Prop
  | acceptRideByDriver _ driverId _ | rejectRideByDriver _ driverId _ _ => driverId = d
  | confirmDriverAcceptance .. | rejectDriverAcceptance .. | cancelRide .. => True
  | _ => False

/-- The row keeps the identity of a row that was read. -/
def RideDriverCandidate.ComesFrom (n c : RideDriverCandidate) : Prop :=
  n.id = c.id ∧ n.rideId = c.rideId ∧ n.driverId = c.driverId

/-- The calls that an operation may come to after trail `t`. -/
def LifecycleOp.Tends (lop : LifecycleOp) (t : Trail) : Call → Prop
  | .findRide _ | .findCandidate _ _ | .findCandidates _ | .findUnfinishedRide _ | .requestRoute _ _
  | .nearbyDrivers _ _ => True
  | .updateRideRow m => lop.ride = some m.id ∧
      (∃ r ∈ t.rides, r.id = m.id ∧ (m.paymentStatus = r.paymentStatus ∨ m.paymentStatus = some .pending)) ∧
      ∀ fare, m.fareFinal = some fare → (∃ r ∈ t.rides, r.fareFinal = some fare) ∨ ∃ amount, fare = toFixed 2 amount
  | .saveCandidate n => lop.ride = some n.rideId ∧ lop.Reaches n.driverId ∧ ∃ c ∈ t.rows, n.ComesFrom c
  | .insertRide _ => lop.ride = none ∧ t.created = false
  | .claimDriver rideId _ => lop.ride = some rideId
  | .saveHistory entry => lop.ride = some entry.rideId
  | op => ∀ k, lop.ride.getD k = k → op.Attends k

theorem LifecycleOp.attends_some {lop : LifecycleOp} {op : Call}
    (h : ∀ k, lop.ride.getD k = k → op.Attends k) : ∃ k, op.Attends k :=
  ⟨lop.ride.getD 0, h _ (by cases lop.ride <;> rfl)⟩

/-- What was read before is still read. -/
structure Trail.Within (t t' : Trail) : Prop where
  rides : t.rides ⊆ t'.rides
  rows : t.rows ⊆ t'.rows

theorem Trail.Within.trans {t t' u : Trail} (h : t.Within t') (h' : t'.Within u) : t.Within u :=
  ⟨List.Subset.trans h.rides h'.rides, List.Subset.trans h.rows h'.rows⟩

theorem Trail.within_read (t : Trail) (r : Ride) : t.Within { t with rides := r :: t.rides } :=
  ⟨List.subset_cons_self r t.rides, List.Subset.refl t.rows⟩

def trailOutline (env : Environment) (tends : Trail → Call → Prop) : Outline Trail Call World where
  pre _ _ := True
  move t op w t' := t' = t.after ⟨op, (handle env op w).1⟩ ∧ tends t op

section Read

variable {env : Environment} {tends : Trail → Call → Prop} {t : Trail} {c : Call} {β : Type}

/-- A call whose answer is logged in the trail. -/
theorem trails_read {f : c.Answer → Service β} (hc : tends t c)
    (hf : ∀ w a, (handle env c w).1 = .ok a →
      (trailOutline env tends).Follows (handle env) (fun _ _ => True) (t.after ⟨c, .ok a⟩) (f a)) :
    (trailOutline env tends).Follows (handle env) (fun _ _ => True) t (call c >>= f) := by
  apply Outline.Follows.perform
  intro w _
  refine ⟨_, ⟨rfl, hc⟩, ?_⟩
  cases ha : (handle env c w).1 with
  | error e => trivial
  | ok a => exact hf w a ha

/-- A call that reads nothing that is written back. -/
theorem trails_call {f : c.Answer → Service β} (hc : tends t c) (hafter : ∀ a, t.after ⟨c, a⟩ = t)
    (hf : ∀ a, (trailOutline env tends).Follows (handle env) (fun _ _ => True) t (f a)) :
    (trailOutline env tends).Follows (handle env) (fun _ _ => True) t (call c >>= f) := by
  apply trails_read hc
  intro w a _
  rw [hafter]
  exact hf a

end Read

/-- The calls of the program are those that its trail allows. -/
abbrev Trails {α : Type} (env : Environment) (lop : LifecycleOp) (t : Trail) (p : Service α) : Prop :=
  (trailOutline env lop.Tends).Follows (handle env) (fun _ _ => True) t p

section Trails

variable {env : Environment} {lop : LifecycleOp} {t : Trail} {rid : Id} {α β : Type}

theorem trails_throw (e : ServiceError) : Trails env lop t (.throw e : Service α) := trivial

theorem after_attends {k : Id} {op : Call} (h : op.Attends k) (a : Except ServiceError op.Answer) :
    t.after ⟨op, a⟩ = t := by
  cases op <;> first | rfl | exact h.elim

theorem tends_attends {op : Call} (hride : lop.ride = some rid) (h : op.Attends rid) : lop.Tends t op := by
  have hown : ∀ k, lop.ride.getD k = k → op.Attends k := by
    intro k hk
    rw [hride] at hk
    exact hk ▸ h
  cases op <;> first | exact hown | exact h.elim

theorem trails_own {p : Service α} {f : α → Service β} (hride : lop.ride = some rid)
    (hp : p.Calls (Call.Attends rid)) (hf : ∀ a, Trails env lop t (f a)) : Trails env lop t (p >>= f) := by
  apply Outline.Follows.quiet hp
  · exact fun op w hq _ => ⟨(after_attends hq _).symm, tends_attends hride hq⟩
  · exact fun _ => trivial
  · exact hf

theorem trails_findById {f : Option Ride → Service β} (hnone : Trails env lop t (f none))
    (hsome : ∀ r, r.id = rid → Trails env lop { t with rides := r :: t.rides } (f (some r))) :
    Trails env lop t (findById rid >>= f) := by
  apply trails_read (c := .findRide rid) trivial
  intro w o ho
  cases o with
  | none => exact hnone
  | some r => exact hsome r (Table.key_of_find (Except.ok.inj ho))

theorem trails_findByRideAndDriver {d : Id} {f : Option RideDriverCandidate → Service β}
    (hnone : Trails env lop t (f none))
    (hsome : ∀ c, c.rideId = rid → c.driverId = d →
      Trails env lop { t with rows := c :: t.rows } (f (some c))) :
    Trails env lop t (findByRideAndDriver rid d >>= f) := by
  apply trails_read (c := .findCandidate rid d) trivial
  intro w o ho
  cases o with
  | none => exact hnone
  | some c =>
    obtain ⟨-, hr, hd⟩ := World.mem_of_findCandidate (Except.ok.inj ho)
    exact hsome c hr hd

theorem trails_findCandidates {f : List RideDriverCandidate → Service β}
    (hf : ∀ cs : List RideDriverCandidate, (∀ c ∈ cs, c.rideId = rid) →
      Trails env lop { t with rows := cs ++ t.rows } (f cs)) :
    Trails env lop t (call (.findCandidates rid) >>= f) := by
  apply trails_read (c := .findCandidates rid) trivial
  intro w cs hcs
  apply hf cs
  intro c hc
  rw [← Except.ok.inj hcs] at hc
  exact (mem_findCandidates.mp hc).2

theorem trails_saveCandidate {n : RideDriverCandidate} {f : Unit → Service β}
    (hride : lop.ride = some n.rideId) (hreach : lop.Reaches n.driverId) (hn : ∃ c ∈ t.rows, n.ComesFrom c)
    (hf : Trails env lop t (f ())) : Trails env lop t (saveCandidate n >>= f) := by
  apply Outline.Follows.perform
  intro w _
  exact ⟨t, ⟨rfl, hride, hreach, hn⟩, hf⟩

theorem trails_saveMany {rows : List RideDriverCandidate} {f : Unit → Service β}
    (hrows : ∀ n ∈ rows, lop.ride = some n.rideId ∧ lop.Reaches n.driverId ∧ ∃ c ∈ t.rows, n.ComesFrom c)
    (hf : Trails env lop t (f ())) : Trails env lop t (saveMany rows >>= f) := by
  induction rows with
  | nil => exact hf
  | cons n rows ih =>
    change Trails env lop t ((saveCandidate n >>= fun _ => saveMany rows) >>= f)
    rw [bind_assoc]
    obtain ⟨hride, hreach, hn⟩ := hrows n List.mem_cons_self
    apply trails_saveCandidate hride hreach hn
    exact ih fun x hx => hrows x (List.mem_cons_of_mem n hx)

theorem trails_updateRide {m : Ride} {f : Ride → Service β} (hride : lop.ride = some m.id)
    (hm : ∃ r ∈ t.rides, r.id = m.id ∧
      (m.paymentStatus = r.paymentStatus ∨ m.paymentStatus = some .pending) ∧
      (m.fareFinal = r.fareFinal ∨ ∃ amount, m.fareFinal = some (toFixed 2 amount)))
    (hf : ∀ r t', r.id = m.id → r ∈ t'.rides → t.Within t' → Trails env lop t' (f r)) :
    Trails env lop t (updateRide m.changes >>= f) := by
  unfold updateRide
  have hc : m.changes.id = m.id := rfl
  simp only [bind_assoc, hc]
  apply trails_findById (trails_throw _)
  intro cur _
  simp only [bind_assoc]
  apply Outline.Follows.perform
  intro w _
  refine ⟨{ t with rides := cur :: t.rides }, ⟨rfl, ?_⟩, ?_⟩
  · obtain ⟨r, hr, hid, hpay, hfare⟩ := hm
    refine ⟨hride, ⟨r, List.mem_cons_of_mem cur hr, hid, ?_⟩, fun fare hf => ?_⟩
    · rwa [merge_paymentStatus]
    · rw [merge_fareFinal] at hf
      rcases Option.or_eq_some_iff.mp hf with hf | ⟨-, hf⟩
      · rcases hfare with hsame | ⟨amount, hnew⟩
        · exact .inl ⟨r, List.mem_cons_of_mem cur hr, hsame ▸ hf⟩
        · exact .inr ⟨amount, Option.some.inj (hf.symm.trans hnew)⟩
      · exact .inl ⟨cur, List.mem_cons_self, hf⟩
  · have hok : ∃ rows, (handle env (.updateRideRow (mergeRideData cur m.changes)) w).1 = .ok rows := by
      simp only [handle, World.updateRideRow]
      split <;> exact ⟨_, rfl⟩
    obtain ⟨rows, hok⟩ := hok
    rw [hok]
    simp only [Program.ofExcept_ok, Program.ret_bind, UpdateResult.length, Nat.reduceEqDiff, if_false,
      merge_id, bind_assoc]
    apply trails_findById (trails_throw _)
    intro x hx
    exact hf x _ hx List.mem_cons_self ((t.within_read cur).trans (Trail.within_read _ x))

theorem trails_transition {allowed : List ERideStatus} {next : ERideStatus} {context : Option String}
    {f : Ride × Bool → Service β} (hride : lop.ride = some rid)
    (hf : ∀ r changed t', r.id = rid → r ∈ t'.rides → t.Within t' → Trails env lop t' (f (r, changed))) :
    Trails env lop t (transitionRideStatus rid allowed next context >>= f) := by
  unfold transitionRideStatus
  simp only [bind_assoc]
  apply trails_findById (trails_throw _)
  intro r hr
  have hread := t.within_read r
  simp only
  split
  · exact hf r false _ hr List.mem_cons_self hread
  split
  · exact hf r false _ hr List.mem_cons_self hread
  simp only [bind_assoc]
  apply trails_updateRide (m := withStatus r next context) (by rw [hride]; exact congrArg some hr.symm)
    ⟨r, List.mem_cons_self, rfl, .inl rfl, .inl rfl⟩
  intro x t' hx hmem hwithin
  have hown : lop.ride = some x.id := hride.trans (congrArg some (hx.trans hr).symm)
  refine trails_call (c := .saveHistory _) hown (fun _ => rfl) fun _ => ?_
  exact hf x true t' (hx.trans hr) hmem (hread.trans hwithin)

/-- Reading the ride again at the end of an operation. -/
theorem trails_refreshed {f : Option Ride → α} :
    Trails env lop t (do let refreshed ← findById rid; return f refreshed) :=
  trails_findById trivial fun _ _ => trivial

theorem trails_acceptClaimedRide {c : RideDriverCandidate} {now : Time} (hride : lop.ride = some rid)
    (hc : c ∈ t.rows) (hr : c.rideId = rid) (hreach : lop.Reaches c.driverId) :
    Trails env lop t (acceptClaimedRide rid c now) := by
  unfold acceptClaimedRide
  apply trails_saveCandidate (by rw [hride, ← hr]) hreach ⟨c, hc, rfl, rfl, rfl⟩
  apply trails_transition hride
  intro r _ t₁ hr₁ _ _
  simp only [hr₁]
  apply trails_transition hride
  intro x _ t₂ _ _ _
  apply trails_own hride attends_dispatch
  intro _
  exact trails_refreshed

theorem trails_superseded {r : Ride} {c : RideDriverCandidate} {now : Time} {f : Unit → Service β}
    (hride : lop.ride = some rid) (hc : c ∈ t.rows) (hr : c.rideId = rid) (hreach : lop.Reaches c.driverId)
    (hf : Trails env lop t (f ())) : Trails env lop t (markCandidateSuperseded r c now >>= f) := by
  unfold markCandidateSuperseded
  simp only [bind_assoc]
  apply trails_saveCandidate (by rw [hride, ← hr]) hreach ⟨c, hc, rfl, rfl, rfl⟩
  exact trails_own hride attends_dispatch fun _ => hf

theorem trails_acceptRideByDriver {d : Id} {now : Time} :
    Trails env (.acceptRideByDriver rid d now) t (acceptRideByDriver rid d now) := by
  unfold acceptRideByDriver
  apply trails_findById (trails_throw _)
  intro r hr
  subst hr
  simp only [↓Program.throw_seq]
  split
  · trivial
  split
  · trivial
  apply trails_findByRideAndDriver (trails_throw _)
  intro c hcr hcd
  have hreach : (LifecycleOp.acceptRideByDriver r.id d now).Reaches c.driverId := hcd.symm
  simp only
  split
  · trivial
  split
  · trivial
  split
  · trivial
  cases r.driverId with
  | some holder =>
    simp only
    split
    · exact trails_superseded rfl List.mem_cons_self hcr hreach trivial
    · exact trails_acceptClaimedRide rfl List.mem_cons_self hcr hreach
  | none =>
    refine trails_call (c := .claimDriver _ _) rfl (fun _ => rfl) fun claimed => ?_
    split
    · exact trails_acceptClaimedRide rfl List.mem_cons_self hcr hreach
    · have hend (x : Ride) (hx : x.id = r.id) (t' : Trail) (hc : c ∈ t'.rows) :
          Trails env (.acceptRideByDriver r.id d now) t' (do
            if x.driverId.isSome ∧ x.driverId ≠ some d then
              markCandidateSuperseded x c now
              throw (.conflict "Ride already accepted by another driver")
            acceptClaimedRide x.id c now) := by
        split
        · exact trails_superseded rfl hc hcr hreach trivial
        · rw [hx]
          exact trails_acceptClaimedRide rfl hc hcr hreach
      apply trails_findById
      · exact hend r rfl _ List.mem_cons_self
      · exact fun x hx => hend x hx _ List.mem_cons_self

theorem trails_rejectRideByDriver {d : Id} {reason : Option String} {now : Time} :
    Trails env (.rejectRideByDriver rid d reason now) t (rejectRideByDriver rid d reason now) := by
  unfold rejectRideByDriver
  apply trails_findById (trails_throw _)
  intro r hr
  subst hr
  simp only [↓Program.throw_seq]
  split
  · trivial
  split
  · trivial
  split
  · trivial
  apply trails_findByRideAndDriver (trails_throw _)
  intro c hcr hcd
  simp only
  split
  · trivial
  split
  · trivial
  have hride : (LifecycleOp.rejectRideByDriver r.id d reason now).ride = some c.rideId := congrArg some hcr.symm
  apply trails_saveCandidate hride hcd.symm ⟨c, List.mem_cons_self, rfl, rfl, rfl⟩
  split
  · apply trails_updateRide (m := { r with driverId := none }) rfl ⟨r, List.mem_cons_self, rfl, .inl rfl, .inl rfl⟩
    intro x t₁ hx _ _
    rw [hx]
    apply trails_transition rfl
    intro y _ t₂ hy _ _
    rw [pure_bind, hy]
    exact trails_own rfl attends_dispatch fun _ => trails_refreshed
  · rw [pure_bind]
    exact trails_own rfl attends_dispatch fun _ => trails_refreshed

theorem trails_confirmDriverAcceptance {riderId : Id} {now : Time} :
    Trails env (.confirmDriverAcceptance rid riderId now) t (confirmDriverAcceptance rid riderId now) := by
  unfold confirmDriverAcceptance
  apply trails_findById (trails_throw _)
  intro r hr
  subst hr
  simp only [↓Program.throw_seq]
  split
  · trivial
  cases r.driverId with
  | none => trivial
  | some d =>
    simp only
    split
    · trivial
    split
    · trivial
    split
    · trivial
    split
    · trivial
    apply trails_findByRideAndDriver (trails_throw _)
    intro c _ _
    simp only
    split
    · trivial
    apply trails_transition rfl
    intro x _ t₁ hx _ _
    apply trails_findCandidates
    intro candidates hcandidates
    apply trails_saveMany
    · intro y hy
      obtain ⟨z, hz, hyz⟩ := List.mem_filterMap.mp hy
      obtain ⟨hid, hride, hdriver, -⟩ := confirmedRow_keeps d now z y hyz
      refine ⟨?_, trivial, z, List.mem_append_left _ hz, hid, hride, hdriver⟩
      exact congrArg some ((hcandidates z hz).symm.trans hride.symm)
    apply trails_own rfl attends_riderConfirmed
    intro _
    apply trails_own rfl (calls_forM (fun _ => attends_dispatch) _)
    intro _
    exact trails_refreshed

theorem trails_rejectDriverAcceptance {riderId : Id} {reason : Option String} {now : Time} :
    Trails env (.rejectDriverAcceptance rid riderId reason now) t
      (rejectDriverAcceptance rid riderId reason now) := by
  unfold rejectDriverAcceptance
  apply trails_findById (trails_throw _)
  intro r hr
  subst hr
  simp only [↓Program.throw_seq]
  split
  · trivial
  cases r.driverId with
  | none => trivial
  | some d =>
    simp only
    split
    · trivial
    split
    · trivial
    split
    · trivial
    split
    · trivial
    apply trails_findByRideAndDriver (trails_throw _)
    intro c hcr _
    have hride : (LifecycleOp.rejectDriverAcceptance r.id riderId reason now).ride = some c.rideId :=
      congrArg some hcr.symm
    apply trails_saveCandidate hride trivial ⟨c, List.mem_cons_self, rfl, rfl, rfl⟩
    apply trails_updateRide (m := { r with driverId := none }) rfl ⟨r, List.mem_cons_self, rfl, .inl rfl, .inl rfl⟩
    intro x t₁ _ _ _
    apply trails_transition rfl
    intro y _ t₂ _ _ _
    exact trails_own rfl attends_dispatch fun _ => trails_refreshed

theorem trails_cancelRide {requester : RequestingClient} {reason : Option String} {now : Time} :
    Trails env (.cancelRide rid requester reason now) t (cancelRide rid requester reason now) := by
  unfold cancelRide
  apply trails_findById (trails_throw _)
  intro r hr
  subst hr
  simp only [↓Program.throw_seq]
  split
  · trivial
  split
  · trivial
  split
  · trivial
  refine trails_own rfl (calls_call (c := .removeRouteJob r.id) rfl) fun _ => ?_
  apply trails_transition rfl
  intro x _ t₁ hx hmem _
  have hown : (LifecycleOp.cancelRide r.id requester reason now).ride = some x.id := congrArg some hx.symm
  have hfare : (withCancellation x reason).fareFinal = some (toFixed 2 0) := by
    rw [toFixed_zero]
    rfl
  apply trails_updateRide (m := withCancellation x reason) hown ⟨x, hmem, rfl, .inl rfl, .inr ⟨0, hfare⟩⟩
  intro y t₂ _ _ _
  simp only
  apply trails_findCandidates
  intro candidates hcandidates
  have hid : (withCancellation x reason).id = r.id := hx
  rw [hid] at hcandidates ⊢
  split
  · apply trails_saveMany
    · intro z hz
      obtain ⟨c, hc, hzc⟩ := List.mem_filterMap.mp hz
      obtain ⟨hzid, hride, hdriver, -⟩ := canceledRow_keeps reason now c z hzc
      refine ⟨?_, trivial, c, List.mem_append_left _ hc, hzid, hride, hdriver⟩
      exact congrArg some ((hcandidates c hc).symm.trans hride.symm)
    apply trails_own rfl (calls_forM (fun _ => attends_dispatch) _)
    intro _
    exact trails_refreshed
  · exact trails_refreshed

theorem trails_startRide {driverId : Option Id} {location : ParticipantLocation} :
    Trails env (.startRide rid driverId location) t (startRide env rid driverId location) := by
  unfold startRide
  cases driverId with
  | none => trivial
  | some d =>
    apply trails_findById (trails_throw _)
    intro r hr
    subst hr
    simp only [↓Program.throw_seq]
    split
    · trivial
    split
    · trivial
    split
    · trivial
    split
    · trivial
    apply trails_own rfl attends_atPickup
    intro _
    apply trails_own rfl attends_recordLocation
    intro _
    apply trails_transition rfl
    intro x changed t₁ _ _ _
    have hend (y : Ride) (t' : Trail) : Trails env (.startRide r.id (some d) location) t' (do
        if changed = true then notifyRideStarted y
        return y) := by
      split
      · exact trails_own rfl attends_both fun _ => trivial
      · trivial
    exact trails_findById (hend x _) fun y _ => hend y _

theorem trails_completeRide {requester : RequestingClient} {location : ParticipantLocation}
    {discount : Option JsNumber} :
    Trails env (.completeRide rid requester location discount) t
      (completeRide env rid requester location discount) := by
  unfold completeRide
  cases requester.id with
  | none => trivial
  | some id =>
    apply trails_findById (trails_throw _)
    intro r hr
    subst hr
    simp only [↓Program.throw_seq]
    split
    · trivial
    split
    · trivial
    split
    · trivial
    apply trails_own rfl attends_atDropoff
    intro _
    apply trails_own rfl attends_recordLocation
    intro _
    refine trails_own rfl (attends_getState.bind fun _ => by simp) fun total => ?_
    refine trails_own rfl (by simp) fun fare => ?_
    unfold settleRide
    apply trails_transition rfl
    intro x _ t₁ hx hmem _
    apply trails_own rfl attends_markRideCompleted
    intro _
    have hown : (LifecycleOp.completeRide r.id requester location discount).ride = some x.id :=
      congrArg some hx.symm
    apply trails_updateRide (m := withFare x fare) hown ⟨x, hmem, rfl, .inr rfl, .inr ⟨_, rfl⟩⟩
    intro y t₂ _ _ _
    have hend (z : Ride) (t' : Trail) {summary : FareSummary} :
        Trails env (.completeRide r.id requester location discount) t' (do
          notifyRideCompleted z summary
          return z) := trails_own rfl attends_both fun _ => trivial
    exact trails_findById (hend y _) fun z _ => hend z _

theorem trails_recordTripLocation {requester : RequestingClient} {location : ParticipantLocation} :
    Trails env (.recordTripLocation rid requester location) t (recordTripLocation rid requester location) := by
  unfold recordTripLocation
  cases requester.id with
  | none => trivial
  | some id =>
    apply trails_findById (trails_throw _)
    intro r hr
    subst hr
    simp only [↓Program.throw_seq]
    apply trails_own rfl attends_ensureAccess
    intro _
    split
    · trivial
    split
    · trivial
    rcases requester.role with _ | _ | _
    · trivial
    · exact trails_own rfl attends_recordLocation fun _ => trivial
    · simp only
      split
      · trivial
      · exact trails_own rfl attends_recordLocation fun _ => trivial

theorem trails_createRide {rider : Option Id} {payload : CreateRideInput} {now : Time}
    (ht : t.created = false) :
    Trails env (.createRide rider payload now) t (createRide env rider payload now) := by
  have hbody (riderId : Id) : Trails env (.createRide rider payload now) t
      (createRideBody env riderId payload now) := by
    unfold createRideBody
    refine trails_call (c := .requestRoute _ _) trivial (fun _ => rfl) fun route => ?_
    refine trails_call (c := .nearbyDrivers _ _) trivial (fun _ => rfl) fun near => ?_
    simp only [↓Program.throw_seq]
    split
    · trivial
    unfold createRideWithDetails
    simp only [bind_assoc]
    apply trails_read (c := .insertRide _) ⟨rfl, ht⟩
    intro w created _
    apply trails_findById (trails_throw _)
    intro r _
    simp only [pure_bind]
    have hemit {n : Notification} {k : Id} : (Call.emit n).Attends k := trivial
    have hoffers (cs : List RideDriverCandidate) {p : Service (Ride × List RideDriverCandidate)} {t' : Trail}
        (hp : Trails env (.createRide rider payload now) t' p) :
        Trails env (.createRide rider payload now) t' ((cs.forM fun c => notifyRideOffered r c route) >>= fun _ => p) := by
      apply Outline.Follows.quiet (q := fun op => ∃ n, op = .emit n)
      · exact calls_forM (fun c => calls_call ⟨_, rfl⟩) cs
      · rintro _ w ⟨n, rfl⟩ -
        exact ⟨rfl, fun k _ => hemit⟩
      · exact fun _ => trivial
      · exact fun _ => hp
    apply hoffers
    exact trails_call (c := .emit _) (fun k _ => hemit) (fun _ => rfl) fun _ => trivial
  unfold createRide
  cases rider with
  | none => trivial
  | some rider =>
    refine trails_call (c := .findUnfinishedRide _) trivial (fun _ => rfl) fun existing => ?_
    simp only [↓Program.throw_seq]
    split
    · trivial
    · exact (hbody rider).catching (fun _ _ h => h) fun _ _ _ => trivial

variable (env) in
/-- The calls of an operation are those that its trail allows. -/
theorem LifecycleOp.trails (op : LifecycleOp) : Trails env op .empty (op.program env) := by
  have discard {α : Type} {p : Service α} (hp : Trails env op .empty p) :
      Trails env op .empty (p >>= fun _ => pure ()) :=
    hp.bind (fun _ _ _ => trivial) fun _ _ _ => trivial
  cases op with
  | createRide => exact discard (trails_createRide rfl)
  | acceptRideByDriver => exact discard trails_acceptRideByDriver
  | rejectRideByDriver => exact discard trails_rejectRideByDriver
  | confirmDriverAcceptance => exact discard trails_confirmDriverAcceptance
  | rejectDriverAcceptance => exact discard trails_rejectDriverAcceptance
  | cancelRide => exact discard trails_cancelRide
  | startRide => exact discard trails_startRide
  | completeRide => exact discard trails_completeRide
  | recordTripLocation => exact trails_recordTripLocation

end Trails

end NebLite
