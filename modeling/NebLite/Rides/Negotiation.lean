import NebLite.Rides.Matching

/-! The moves of a negotiation: an invited driver can accept, and the rider and
the driver can answer an acceptance. -/

namespace NebLite

open Atomic

/-- The program returns the ride as it is stored then, and the store meets `post`. -/
def Yields (env : Environment) (w : World) (rid : Id) (p : Service Ride) (post : Ride → World → Prop) :
    Prop :=
  ∃ ride v, p.run (handle env) w = (.ok ride, v) ∧ v.rides.find rid = some ride ∧ post ride v

/-- The answers of driver `d` about ride `rid` all satisfy `P`. -/
def World.AllAnswers (w : World) (rid d : Id) (P : ERideDriverCandidateStatus → Prop) : Prop :=
  ∀ c ∈ w.findCandidates rid, c.driverId = d → P c.status

/-- The moves that the parties of a ride have. -/
structure World.Negotiates (env : Environment) (w : World) (r : Ride) : Prop where
  accept : r.status = .candidatesComputed → ∀ c ∈ w.findCandidates r.id, c.status = .invited → ∀ now,
    Yields env w r.id (acceptRideByDriver r.id c.driverId now) fun ride v =>
      ride.status = .accepted ∧ ride.driverId = some c.driverId ∧
        (∃ x ∈ v.findCandidates r.id, x.driverId = c.driverId) ∧ v.AllAnswers r.id c.driverId (· = .accepted)
  confirm : r.status = .accepted → ∀ now,
    Yields env w r.id (confirmDriverAcceptance r.id r.riderId now) fun ride _ => ride.status = .enroute
  held : r.status = .accepted → r.driverId ≠ none
  riderReject : r.status = .accepted → ∀ d, r.driverId = some d → ∀ reason now,
    Yields env w r.id (rejectDriverAcceptance r.id r.riderId reason now) fun ride v =>
      ride.status = .candidatesComputed ∧ ride.driverId = none ∧
        v.AllAnswers r.id d (· ∉ [.invited, .accepted, .confirmed])
  driverReject : r.status = .accepted → ∀ d, r.driverId = some d → ∀ reason now,
    Yields env w r.id (rejectRideByDriver r.id d reason now) fun ride v =>
      ride.status = .candidatesComputed ∧ ride.driverId = none ∧
        v.AllAnswers r.id d (· ∉ [.invited, .accepted, .confirmed])

section Returns

variable {env : Environment} {w v : World} {rid d : Id} {b : Booking} {r : Ride} {c : RideDriverCandidate}

/-- The program returns the ride as it is stored then. -/
def Returns (env : Environment) (w : World) (rid : Id) (p : Service Ride) : Prop :=
  Yields env w rid p fun _ _ => True

theorem Returns.after {α : Type} {p : Service α} {f : α → Service Ride} {a : α}
    (hp : p.run (handle env) w = (.ok a, v)) (hf : Returns env v rid (f a)) : Returns env w rid (p >>= f) := by
  obtain ⟨ride, u, hrun, hfound⟩ := hf
  exact ⟨ride, u, by rw [Program.run_bind_ok _ hp, hrun], hfound⟩

theorem returns_announced {p : Service Unit} {f : Unit → Service Ride} (hp : Announces env p)
    (hf : ∀ ns, Returns env { w with notifications := ns } rid (f ())) : Returns env w rid (p >>= f) := by
  obtain ⟨ns, hrun⟩ := hp w
  exact Returns.after hrun (hf ns)

/-- The last steps of a move: a notification, and the ride is read again. -/
theorem returns_notified {p : Service Unit} {x : Ride} {readId : Id} (hp : Announces env p) (hid : readId = rid)
    (hb : w.booking rid = some b) :
    Returns env w rid (do p; let refreshed ← findById readId; return refreshed.getD x) := by
  obtain ⟨r, hr, -⟩ := Option.map_eq_some_iff.mp hb
  apply returns_announced hp
  intro ns
  rw [hid]
  refine Returns.after (run_findById env rid _) ⟨r, { w with notifications := ns }, ?_, hr, trivial⟩
  rw [hr]
  rfl

/-- What a program that returns does to the booking is what it returns. -/
theorem Returns.yields {p : Service Ride} {post : Ride → World → Prop} (h : Returns env w rid p)
    (hb : w.Becomes rid (some b) (p.run (handle env) w).2)
    (hpost : ∀ ride v, w.Becomes rid (some b) v → v.bookingOf ride = b → ride.id = rid → post ride v) :
    Yields env w rid p post := by
  obtain ⟨ride, v, hrun, hfound, -⟩ := h
  rw [hrun] at hb
  have hbooked : v.bookingOf ride = b := by
    have hsome := hb.booked
    rw [World.booking_of_find hfound] at hsome
    exact Option.some.inj hsome
  exact ⟨ride, v, hrun, hfound, hpost ride v hb hbooked (Table.key_of_find hfound)⟩

theorem allAnswers_of_booking (hw : w.WellFormed) {s : ERideDriverCandidateStatus}
    {P : ERideDriverCandidateStatus → Prop} (hs : (w.bookingOf r).cand d = some s) (hP : P s) :
    w.AllAnswers r.id d P := by
  intro c hc hd
  have hanswer : (w.bookingOf r).cand d = some c.status := (bookingOf_cand_some hw).mpr ⟨c, hc, hd, rfl⟩
  rw [hs] at hanswer
  exact Option.some.inj hanswer ▸ hP

theorem acceptClaimedRide_returns (hb : w.booking rid = some b) (hc : w.findCandidate rid d = some c)
    (now : Time) : Returns env w rid (acceptClaimedRide rid c now) := by
  have h₁ := World.becomes_saveCandidate hb hc (n := { c with
    status := .accepted, reason := none, respondedAt := some now }) rfl rfl rfl rfl
  obtain ⟨ride, changed, w₂, hrun₂, hf₂, h₂⟩ := transition_becomes env h₁.booked
    [.requested, .candidatesComputed] .assigned (some "Driver responded to invitation")
  obtain ⟨accepted, changed', w₃, hrun₃, -, h₃⟩ := transition_becomes env h₂.booked
    [.assigned, .candidatesComputed] .accepted (some "Driver accepted ride request")
  have hid : ride.id = rid := Table.key_of_find hf₂
  unfold acceptClaimedRide saveCandidate
  apply Returns.after (run_call env _ w)
  apply Returns.after hrun₂
  simp only [hid]
  apply Returns.after hrun₃
  exact returns_notified announces_dispatch rfl h₃.booked

theorem acceptRideByDriver_returns (hr : w.rides.find r.id = some r) (hst : r.status = .candidatesComputed)
    (hd : r.driverId = none) (hc : w.findCandidate r.id d = some c) (hs : c.status = .invited) (now : Time) :
    Returns env w r.id (acceptRideByDriver r.id d now) := by
  have hclaim : (call (.claimDriver r.id d)).run (handle env) w =
      (.ok true, { w with rides := w.rides.put { r with driverId := some d } }) := by
    rw [run_call]
    simp [handle, World.claimDriver, hr, hd, UpdateResult.length]
  have h₁ := World.becomes_put (m := { r with driverId := some d }) hr rfl
  unfold acceptRideByDriver findByRideAndDriver
  apply Returns.after (run_findById env r.id w)
  simp only [hr, hst, reduceCtorEq, if_false, ↓Program.throw_seq]
  apply Returns.after (run_call env _ w)
  simp only [hc, hs, hd, reduceCtorEq, if_false, false_or, false_and]
  apply Returns.after hclaim
  simp only [if_true]
  exact acceptClaimedRide_returns h₁.booked hc now

theorem confirmDriverAcceptance_returns (hr : w.rides.find r.id = some r) (hst : r.status = .accepted)
    (hd : r.driverId = some d) (hc : w.findCandidate r.id d = some c) (hs : c.status = .accepted) (now : Time) :
    Returns env w r.id (confirmDriverAcceptance r.id r.riderId now) := by
  have hb := World.booking_of_find hr
  obtain ⟨ride, changed, w₁, ht, hf₁, h₁⟩ := transition_becomes env hb [.accepted]
    .enroute (some "Rider accepted driver confirmation")
  obtain ⟨w₂, hsave, h₂, -⟩ := saveMany_becomes env h₁.booked (confirmedRow_keeps d now)
    (confirmedRow_status d now)
  have hid : ride.id = r.id := Table.key_of_find hf₁
  unfold confirmDriverAcceptance findByRideAndDriver
  apply Returns.after (run_findById env r.id w)
  simp only [hr, hd, hst, ne_eq, not_true_eq_false, reduceCtorEq, or_self, if_false, ↓Program.throw_seq]
  apply Returns.after (run_call env _ w)
  simp only [hc, hs, not_true_eq_false, if_false]
  apply Returns.after ht
  apply Returns.after (run_call env _ w₁)
  apply Returns.after hsave
  apply returns_announced (announces_riderConfirmed ride c)
  intro ns
  exact returns_notified (announces_forM (fun _ => announces_superseded) _) hid h₂.booked

theorem rejectDriverAcceptance_returns (hr : w.rides.find r.id = some r) (hst : r.status = .accepted)
    (hd : r.driverId = some d) (hc : w.findCandidate r.id d = some c) (reason : Option String) (now : Time) :
    Returns env w r.id (rejectDriverAcceptance r.id r.riderId reason now) := by
  have hb := World.booking_of_find hr
  have h₁ := World.becomes_saveCandidate hb hc (n := { c with
    status := .canceled, reason := some (reason.getD "Rider rejected the driver acceptance"),
    respondedAt := some now }) rfl rfl rfl rfl
  obtain ⟨p, w₁, ride, changed, w₂, hu, -, ht, hi, h₂⟩ := release_becomes env
    h₁.booked ⟨rfl, rfl⟩ (some (reason.getD "Rider rejected the driver acceptance"))
  unfold rejectDriverAcceptance findByRideAndDriver saveCandidate
  apply Returns.after (run_findById env r.id w)
  simp only [hr, hd, ne_eq, not_true_eq_false, if_false, ↓Program.throw_seq]
  have hcanceled : r.status ≠ .canceled := by simp [hst]
  have hcompleted : r.status ≠ .completed := by simp [hst]
  have henroute : r.status ≠ .enroute := by simp [hst]
  have hanswered : ¬ (r.status = .assigned ∨ r.status = .requested) := by simp [hst]
  rw [if_neg hcanceled, if_neg hcompleted, if_neg henroute, if_neg hanswered]
  apply Returns.after (run_call env _ w)
  simp only [hc]
  apply Returns.after (run_call env _ w)
  apply Returns.after hu
  apply Returns.after ht
  exact returns_notified announces_dispatch hi h₂.booked

theorem rejectRideByDriver_returns (hr : w.rides.find r.id = some r) (hst : r.status = .accepted)
    (hd : r.driverId = some d) (hc : w.findCandidate r.id d = some c) (hs : c.status = .accepted)
    (reason : Option String) (now : Time) :
    Returns env w r.id (rejectRideByDriver r.id d reason now) := by
  have hb := World.booking_of_find hr
  have h₁ := World.becomes_saveCandidate hb hc (n := { c with
    status := .declined, reason := some (reason.getD "Driver declined the ride invitation"),
    respondedAt := some now }) rfl rfl rfl rfl
  obtain ⟨p, w₁, ride, changed, w₂, hu, hp, ht, hi, h₂⟩ := release_becomes env
    h₁.booked ⟨rfl, rfl⟩ (some (reason.getD "Driver declined the ride invitation"))
  unfold rejectRideByDriver findByRideAndDriver saveCandidate
  apply Returns.after (run_findById env r.id w)
  simp only [hr, ↓Program.throw_seq]
  have hcanceled : r.status ≠ .canceled := by simp [hst]
  have hcompleted : r.status ≠ .completed := by simp [hst]
  have henroute : r.status ≠ .enroute := by simp [hst]
  rw [if_neg hcanceled, if_neg hcompleted, if_neg henroute]
  apply Returns.after (run_call env _ w)
  simp only [hc, hs, reduceCtorEq, if_false]
  apply Returns.after (run_call env _ w)
  simp only [hd, if_true, pure_bind]
  apply Returns.after hu
  rw [hp]
  apply Returns.after ht
  exact returns_notified announces_dispatch hi h₂.booked

end Returns

section Moves

variable {env : Environment} {w : World} {r : Ride}

/-- After the assigned driver's answer is withdrawn, the ride looks for a driver again. -/
theorem released {v : World} {ride : Ride} {d : Id} {s : ERideDriverCandidateStatus} (hst : r.status = .accepted)
    (hw : w.WellFormed) (hv : w.Becomes r.id (some ((w.bookingOf r).answer d s).release) v)
    (hbooked : v.bookingOf ride = ((w.bookingOf r).answer d s).release) (hid : ride.id = r.id)
    (hs : s ∉ [ERideDriverCandidateStatus.invited, .accepted, .confirmed]) :
    ride.status = .candidatesComputed ∧ ride.driverId = none ∧
      v.AllAnswers r.id d (· ∉ [.invited, .accepted, .confirmed]) := by
  have hstatus : (v.bookingOf ride).status = .candidatesComputed := by
    rw [hbooked, Booking.release_status, Booking.answer_status, World.bookingOf_status, hst]
    rfl
  have hdriver : (v.bookingOf ride).driver = none := by rw [hbooked, Booking.release_driver]
  have hanswer : (v.bookingOf ride).cand d = some s := by
    rw [hbooked, Booking.release_cand, Booking.answer_self]
  rw [← hid]
  exact ⟨hstatus, hdriver, allAnswers_of_booking (hv.wellFormed hw) hanswer hs⟩

theorem moves_of_atRest (h : w.AtRest) (hr : w.rides.find r.id = some r) : w.Negotiates env r := by
  have hb : w.booking r.id = some (w.bookingOf r) := World.booking_of_find hr
  have hm : (w.bookingOf r).Matched := h.matched r.id _ hb
  have hheld (hst : r.status = .accepted) : ∃ d c, r.driverId = some d ∧ w.findCandidate r.id d = some c ∧
      c.status = .accepted := by
    unfold Booking.Matched at hm
    rw [World.bookingOf_status, hst] at hm
    obtain ⟨d, hd, hcd, -⟩ := hm
    obtain ⟨c, hc, hs⟩ := Option.map_eq_some_iff.mp hcd
    exact ⟨d, c, hd, hc, hs⟩
  have hown (hst : r.status = .accepted) (d : Id) (hd : r.driverId = some d) :
      ∃ c, w.findCandidate r.id d = some c ∧ c.status = .accepted := by
    obtain ⟨x, c, hx, hc, hs⟩ := hheld hst
    have he : x = d := Option.some.inj (hx.symm.trans hd)
    exact ⟨c, he ▸ hc, hs⟩
  refine ⟨fun hst c hc hs now => ?_, fun hst now => ?_, fun hst => ?_, fun hst d hd reason now => ?_,
    fun hst d hd reason now => ?_⟩
  · have hnone : r.driverId = none := by
      unfold Booking.Matched at hm
      rw [World.bookingOf_status, hst] at hm
      exact hm.1
    obtain ⟨hmem, hride⟩ := mem_findCandidates.mp hc
    have hfound : w.findCandidate r.id c.driverId = some c :=
      (World.findCandidate_some h.wellFormed).mpr ⟨hmem, hride, rfl⟩
    have hclaimed : (w.bookingOf r).accept c.driverId = (w.bookingOf r).claimedBy c.driverId := by
      simp [Booking.accept, hst, hfound, hs, hnone]
    have hbecomes := @acceptRideByDriver_becomes env w r.id c.driverId now
    rw [hb, Option.map_some, hclaimed] at hbecomes
    apply (acceptRideByDriver_returns hr hst hnone hfound hs now).yields hbecomes
    intro ride v hv hbooked hid
    have hanswer : (v.bookingOf ride).cand c.driverId = some .accepted := by
      rw [hbooked, Booking.claimedBy_cand]
      exact Function.update_self ..
    have hstatus : (v.bookingOf ride).status = .accepted := by
      rw [hbooked, Booking.claimedBy_status, World.bookingOf_status, hst]
      rfl
    have hdriver : (v.bookingOf ride).driver = some c.driverId := by
      rw [hbooked, Booking.claimedBy_driver]
    obtain ⟨x, hx, hxd, -⟩ := (bookingOf_cand_some (hv.wellFormed h.wellFormed)).mp hanswer
    rw [← hid]
    exact ⟨hstatus, hdriver, ⟨x, hx, hxd⟩, allAnswers_of_booking (hv.wellFormed h.wellFormed) hanswer rfl⟩
  · obtain ⟨d, c, hd, hc, hs⟩ := hheld hst
    have hbecomes := @confirmDriverAcceptance_becomes env w r.id r.riderId now
    rw [hb, Option.map_some] at hbecomes
    apply (confirmDriverAcceptance_returns hr hst hd hc hs now).yields hbecomes
    intro ride v hv hbooked hid
    have hstatus : (v.bookingOf ride).status = .enroute := by
      rw [hbooked]
      simp [Booking.confirm, hd, hst, hc, hs, Booking.transition_status]
    exact hstatus
  · obtain ⟨d, c, hd, -⟩ := hheld hst
    simp [hd]
  · obtain ⟨c, hc, hs⟩ := hown hst d hd
    have hreleased : (w.bookingOf r).riderReject r.riderId = ((w.bookingOf r).answer d .canceled).release := by
      simp [Booking.riderReject, hd, hst, hc]
    have hbecomes := @rejectDriverAcceptance_becomes env w r.id r.riderId reason now
    rw [hb, Option.map_some, hreleased] at hbecomes
    apply (rejectDriverAcceptance_returns hr hst hd hc reason now).yields hbecomes
    intro ride v hv hbooked hid
    exact released hst h.wellFormed hv hbooked hid (by simp)
  · obtain ⟨c, hc, hs⟩ := hown hst d hd
    have hreleased : (w.bookingOf r).driverReject d = ((w.bookingOf r).answer d .declined).release := by
      simp [Booking.driverReject, hd, hst, hc, hs]
    have hbecomes := @rejectRideByDriver_becomes env w r.id d reason now
    rw [hb, Option.map_some, hreleased] at hbecomes
    apply (rejectRideByDriver_returns hr hst hd hc hs reason now).yields hbecomes
    intro ride v hv hbooked hid
    exact released hst h.wellFormed hv hbooked hid (by simp)

/-- In every state at rest that a run reaches, each ride has its moves. -/
theorem negotiation_moves (hd : env.NearbyDistinct) (whitelist : List String) (ops : List LifecycleOp)
    (r : Ride) (hr : r ∈ ((World.initial whitelist).after env ops).rides.rows) :
    ((World.initial whitelist).after env ops).Negotiates env r :=
  moves_of_atRest ((World.atRest_initial whitelist).after hd ops) (Table.find_some.mpr ⟨hr, rfl⟩)

theorem negotiation_moves_accepted : ∃ r ∈
    ((World.initial []).after (.around [7, 8]) acceptedRun).rides.rows, r.status = .accepted ∧
      ((World.initial []).after (.around [7, 8]) acceptedRun).Negotiates (.around [7, 8]) r := by
  have h : ∃ r ∈ ((World.initial []).after (.around [7, 8]) acceptedRun).rides.rows,
      r.status = .accepted := by decide +kernel
  obtain ⟨r, hr, hs⟩ := h
  exact ⟨r, hr, hs, negotiation_moves (Environment.around_distinct (by decide)) [] acceptedRun r hr⟩

end Moves

end NebLite
