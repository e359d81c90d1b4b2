import NebLite.Rides.CreationFaults
import NebLite.Rides.RideRow
import NebLite.Rides.Snapshots

/-! The candidates of a new ride. The list without blank and repeated ids is computed, but
what is stored is the list as the location service has returned it. -/

namespace NebLite

open Atomic

structure RideCreationCandidateInput where
  driverId : Id
  status : ERideDriverCandidateStatus
  distanceMeters : Option ℤ
  deriving DecidableEq

/-- The set of seen ids and the candidates, after one more driver. -/
def addCandidateInput (acc : List Id × List RideCreationCandidateInput) (driver : NearbyDriver) :
    List Id × List RideCreationCandidateInput :=
  match driver.driverId with
  | none => acc
  | some driverId =>
    if driverId ∈ acc.1 then acc
    else (driverId :: acc.1, acc.2 ++ [⟨driverId, .invited, driver.distanceMeters.map mathRound⟩])

/-- `createRide` calls this and does not use what it returns. -/
def buildDriverCandidateInputs (nearbyDrivers : List NearbyDriver) : List RideCreationCandidateInput :=
  if nearbyDrivers.length = 0 then [] else (nearbyDrivers.foldl addCandidateInput ([], [])).2

/-- The first driver with each id, in order; blank ids are passed over. -/
def firstOccurrences : List NearbyDriver → List NearbyDriver
  | [] => []
  | driver :: drivers =>
    if driver.driverId = none then firstOccurrences drivers
    else driver :: (firstOccurrences drivers).filter fun d => d.driverId ≠ driver.driverId

section FirstOccurrences

variable {drivers : List NearbyDriver}

theorem firstOccurrences_nodup : ((firstOccurrences drivers).map (·.driverId)).Nodup := by
  induction drivers with
  | nil => exact List.nodup_nil
  | cons driver drivers ih =>
    unfold firstOccurrences
    split
    · exact ih
    · rw [List.map_cons, List.nodup_cons]
      refine ⟨?_, ih.sublist (List.filter_sublist.map _)⟩
      simp [List.mem_map]

theorem firstOccurrences_eq_self (hknown : ∀ d ∈ drivers, d.driverId ≠ none)
    (hdistinct : (drivers.map (·.driverId)).Nodup) : firstOccurrences drivers = drivers := by
  induction drivers with
  | nil => rfl
  | cons driver drivers ih =>
    rw [List.map_cons, List.nodup_cons] at hdistinct
    rw [firstOccurrences, if_neg (hknown driver List.mem_cons_self),
      ih (fun d hd => hknown d (List.mem_cons_of_mem _ hd)) hdistinct.2]
    have hother : ∀ d ∈ drivers, decide (d.driverId ≠ driver.driverId) = true := fun d hd => by
      simpa using fun h : d.driverId = driver.driverId => hdistinct.1 (h ▸ List.mem_map_of_mem hd)
    rw [List.filter_eq_self.mpr hother]

theorem firstOccurrences_eq_nil_iff : firstOccurrences drivers = [] ↔ ∀ d ∈ drivers, d.driverId = none := by
  induction drivers with
  | nil => simp [firstOccurrences]
  | cons driver drivers ih =>
    unfold firstOccurrences
    split
    · next hid => simp [ih, hid]
    · next hid => simp [hid]

theorem foldl_addCandidateInput (seen : List Id) (inputs : List RideCreationCandidateInput) :
    (drivers.foldl addCandidateInput (seen, inputs)).2.map (fun i => (some i.driverId, i.status, i.distanceMeters)) =
      inputs.map (fun i => (some i.driverId, i.status, i.distanceMeters)) ++
        ((firstOccurrences drivers).filter fun d => d.driverId ∉ seen.map some).map (·.offer) := by
  induction drivers generalizing seen inputs with
  | nil => simp [firstOccurrences]
  | cons driver drivers ih =>
    rw [List.foldl_cons]
    unfold firstOccurrences
    cases hid : driver.driverId with
    | none =>
      simp only [addCandidateInput, hid, if_true]
      exact ih seen inputs
    | some driverId =>
      have hstep : addCandidateInput (seen, inputs) driver = if driverId ∈ seen then (seen, inputs)
          else (driverId :: seen, inputs ++ [⟨driverId, .invited, driver.distanceMeters.map mathRound⟩]) := by
        simp only [addCandidateInput, hid]
      by_cases hseen : driverId ∈ seen
      · rw [hstep, if_pos hseen, ih, if_neg (Option.some_ne_none _), List.filter_cons_of_neg (by simp [hid, hseen]),
          List.filter_filter]
        congr 2
        refine List.filter_congr fun d _ => ?_
        by_cases hd : d.driverId = some driverId
        · simp [hd, hseen]
        · simp [hd]
      · rw [hstep, if_neg hseen, ih, if_neg (Option.some_ne_none _), List.filter_cons_of_pos (by simp [hid, hseen]),
          List.filter_filter]
        have hoffer : driver.offer = (some driverId, .invited, driver.distanceMeters.map mathRound) := by
          rw [NearbyDriver.offer, hid]
        simp only [List.map_append, List.map_cons, List.map_nil, List.append_assoc, List.cons_append,
          List.nil_append, hoffer]
        congr 3
        refine List.filter_congr fun d _ => ?_
        simp [Bool.and_comm]

/-- The list that is computed is the one without blank and repeated ids. -/
theorem buildDriverCandidateInputs_eq :
    (buildDriverCandidateInputs drivers).map (fun i => (some i.driverId, i.status, i.distanceMeters)) =
      (firstOccurrences drivers).map (·.offer) := by
  cases drivers with
  | nil => rfl
  | cons driver drivers =>
    rw [buildDriverCandidateInputs, if_neg (by simp), foldl_addCandidateInput]
    simp

end FirstOccurrences

section Run

variable {env : Environment} {w : World} {rider : Id} {payload : CreateRideInput} {now : Time}
  {route : RouteEstimates} {drivers : List NearbyDriver}

variable (payload now) in
/-- With a list of drivers, a creation is its transaction, and notifications after it. -/
theorem createRideBody_listed (hroute : env.route w.answered = .ok route)
    (hnear : env.nearbyDrivers (w.answered + 1) = .ok drivers) (hne : drivers ≠ []) :
    ∃ ns, ((createRideBody env rider payload now).run (handle env) w).2 =
      { (({ w with answered := w.answered + 1 + 1 } : World).insertRide
          (Creation.rideOptions env rider payload now route drivers)).2 with notifications := ns } := by
  unfold createRideBody
  simp only [↓Program.throw_seq]
  rw [Program.run_bind, run_call]
  simp only [handle, hroute]
  rw [Program.run_bind, run_call]
  simp only [handle, hnear]
  rw [if_neg (fun h => hne (List.length_eq_zero_iff.mp h))]
  generalize hv : ({ w with answered := w.answered + 1 + 1 } : World) = v
  change ∃ ns, ((createRideWithDetails (Creation.rideOptions env rider payload now route drivers) >>= _).run
    (handle env) v).2 = _
  generalize Creation.rideOptions env rider payload now route drivers = options
  unfold createRideWithDetails
  simp only [bind_assoc]
  rw [Program.run_bind, run_call]
  simp only [handle]
  rcases hi : v.insertRide options with ⟨e | created, u⟩
  · exact ⟨u.notifications, rfl⟩
  · obtain ⟨hk, hf, -⟩ := insertRide_rows hi
    simp only
    rw [Program.run_bind_ok _ (run_findById env _ u), hk, hf, if_pos rfl]
    simp only [pure_bind]
    have hoffers : Announces env (created.2.forM fun c =>
        notifyRideOffered (World.newRide options.ride options.now v.rides.nextKey) c route) :=
      announces_offers created.2
    obtain ⟨ns, hrun⟩ := hoffers u
    rw [Program.run_bind_ok _ hrun]
    exact ⟨_, rfl⟩

end Run

/-- The calls of a ride service, with the limit of each search for drivers written down. -/
def recordingLimits (env : Environment) : Handler Call Call.Answer ServiceError (World × List ℕ)
  | .nearbyDrivers pickup limit, (w, limits) =>
    ((handle env (.nearbyDrivers pickup limit) w).1, (handle env (.nearbyDrivers pickup limit) w).2, limits ++ [limit])
  | op, (w, limits) => ((handle env op w).1, (handle env op w).2, limits)

def Call.Unlimited : Call → Prop
  | .nearbyDrivers .. => False
  | _ => True

section Limits

variable {env : Environment} {w : World} {limits : List ℕ}

theorem recordingLimits_unlimited {op : Call} (h : op.Unlimited) (s : World × List ℕ) :
    recordingLimits env op s = ((handle env op s.1).1, (handle env op s.1).2, s.2) := by
  cases op <;> first | rfl | exact h.elim

theorem recordingLimits_world (op : Call) (s : World × List ℕ) :
    handle env op s.1 = (recordingLimits env op s).map id Prod.fst := by
  cases op <;> rfl

theorem run_recordingLimits {α : Type} (p : Service α) (s : World × List ℕ) :
    (p.run (recordingLimits env) s).2.1 = (p.run (handle env) s.1).2 := by
  rw [Program.run_map (f := Prod.fst) recordingLimits_world p s]
  rfl

theorem Program.Calls.limits_kept {α : Type} {p : Service α} (hp : p.Calls Call.Unlimited) (s : World × List ℕ) :
    (p.run (recordingLimits env) s).2.2 = s.2 := by
  have hkeeps : Program.Keeps (recordingLimits env) (fun s t => t.2 = s.2) p :=
    hp.keeps (fun _ => rfl) (fun _ _ _ h1 h2 => Eq.trans h2 h1) fun op hop s => by
      rw [recordingLimits_unlimited hop]
  exact hkeeps s

theorem unlimited_createRideWithDetails {options : RideCreationOptions} :
    (createRideWithDetails options).Calls Call.Unlimited := by
  refine Program.Calls.bind (calls_call trivial) fun created => ?_
  refine Program.Calls.bind (calls_call trivial) fun ride => ?_
  cases ride <;> trivial

/-- A creation that finds a route and drivers has searched for them once. -/
theorem createRide_limits {rider : Id} (payload : CreateRideInput) (now : Time) {route : RouteEstimates}
    {drivers : List NearbyDriver} (hfree : w.findUnfinishedRide rider = none)
    (hroute : env.route w.answered = .ok route) (hnear : env.nearbyDrivers (w.answered + 1) = .ok drivers) :
    ((createRide env (some rider) payload now).run (recordingLimits env) (w, [])).2.2 =
      [resolveCandidateLimit payload.maxDrivers] := by
  have hcall (c : Call) (s : World × List ℕ) : (call c).run (recordingLimits env) s = recordingLimits env c s :=
    Program.run_perform _ _ _
  unfold createRide
  simp only [↓Program.throw_seq]
  rw [Program.run_bind, hcall]
  simp only [recordingLimits, handle, hfree]
  rw [if_neg (by simp), Program.run_rethrow]
  unfold createRideBody
  simp only [↓Program.throw_seq]
  rw [Program.run_bind, hcall]
  simp only [recordingLimits, handle, hroute]
  rw [Program.run_bind, hcall]
  simp only [recordingLimits, handle, hnear]
  refine Program.Calls.limits_kept ?_ _
  split
  · trivial
  · refine unlimited_createRideWithDetails.bind fun created => ?_
    refine Program.Calls.bind (calls_forM (fun _ => calls_call trivial) created.2) fun _ => ?_
    exact Program.Calls.bind (calls_call trivial) fun _ => trivial

end Limits

/-- Between `w` and `v` the first drivers with each id were invited, and the history counts them. -/
structure InvitesFirst (w v : World) (drivers : List NearbyDriver) (new : List RideDriverCandidate)
    (entries : List RideStatusHistory) : Prop where
  rows : v.candidates.rows = w.candidates.rows ++ new
  ride : ∀ c ∈ new, c.rideId = w.rides.nextKey
  offers : new.map (·.offer) = (firstOccurrences drivers).map (·.offer)
  history : v.history = w.history ++ entries
  counts : ∀ e ∈ entries, e.toStatus = .candidatesComputed → e.context = some s!"Invited {new.length} drivers"
  counted : new ≠ [] → ∃ e ∈ entries, e.toStatus = .candidatesComputed

/-- The rows, the history and the one search for drivers agree. -/
def CandidatesAgree (w : World) (final : World × List ℕ) (drivers : List NearbyDriver) : Prop :=
  (∃ new entries, InvitesFirst w final.1 drivers new entries) ∧
    ∃ limit, final.2 = [limit] ∧ 1 ≤ limit ∧ limit ≤ maxDriverCandidateLimit

section Creation

variable {env : Environment} {w : World} {rider : Id} {payload : CreateRideInput} {now : Time}
  {route : RouteEstimates} {drivers : List NearbyDriver}

/-- A creation that is refused invites nobody. -/
theorem invitesFirst_same {v : World} (hc : v.candidates = w.candidates) (hh : v.history = w.history) :
    (∃ new entries, InvitesFirst w v drivers new entries) ↔ ∀ d ∈ drivers, d.driverId = none := by
  rw [← firstOccurrences_eq_nil_iff]
  constructor
  · rintro ⟨new, entries, h⟩
    have hnew : new = [] := by
      have hrows := h.rows
      rw [hc] at hrows
      exact List.self_eq_append_right.mp hrows
    have hoffers := h.offers
    rw [hnew] at hoffers
    exact List.map_eq_nil_iff.mp hoffers.symm
  · intro h
    have hoffers : ([] : List RideDriverCandidate).map (·.offer) = (firstOccurrences drivers).map (·.offer) := by
      rw [h]
      rfl
    exact ⟨[], [], by rw [hc, List.append_nil], by simp, hoffers, by rw [hh, List.append_nil], by simp, by simp⟩

theorem insertRide_offers {options : RideCreationOptions}
    (hknown : ∀ d ∈ options.nearbyDrivers, d.driverId ≠ none) :
    ∃ new, (w.insertRide options).2.candidates.rows = w.candidates.rows ++ new ∧
      (∀ c ∈ new, c.rideId = w.rides.nextKey) ∧ new.map (·.offer) = options.nearbyDrivers.map (·.offer) := by
  unfold World.insertRide
  simp only
  split
  · next e he =>
    obtain ⟨v, hv⟩ := insertCandidates_ok hknown
    rw [hv] at he
    cases he
  · next filled candidates hi =>
    obtain ⟨-, new, hrows, hride, hoffers⟩ := insertCandidates_offers hi
    exact ⟨new, hrows, hride, hoffers⟩

variable (env w rider payload now route) in
/-- A creation invites every driver of its list, so the list has to be free of repetitions. -/
theorem invitesFirst_insertRide (hknown : ∀ d ∈ drivers, d.driverId ≠ none) :
    (∃ new entries, InvitesFirst w (w.insertRide (Creation.rideOptions env rider payload now route drivers)).2
      drivers new entries) ↔ (drivers.map (·.driverId)).Nodup := by
  have hoptions : ∀ d ∈ (Creation.rideOptions env rider payload now route drivers).nearbyDrivers,
      d.driverId ≠ none := hknown
  obtain ⟨new, hrows, hride, hoffers⟩ := insertRide_offers (w := w) hoptions
  have hhistory := insertRide_history (w := w) hoptions
  change new.map (·.offer) = drivers.map (·.offer) at hoffers
  constructor
  · rintro ⟨new', entries, h⟩
    have hnew : new' = new := List.append_cancel_left (h.rows.symm.trans hrows)
    have hlisted : drivers.map (·.offer) = (firstOccurrences drivers).map (·.offer) := by
      rw [← hoffers, ← hnew, h.offers]
    have hids := congrArg (List.map Prod.fst) hlisted
    rw [List.map_map, List.map_map] at hids
    exact hids ▸ firstOccurrences_nodup
  · intro hdistinct
    have hlength : new.length = drivers.length := by
      have hlengths := congrArg List.length hoffers
      rwa [List.length_map, List.length_map] at hlengths
    refine ⟨new, _, hrows, hride, ?_, hhistory, ?_, ?_⟩
    · rw [hoffers, firstOccurrences_eq_self hknown hdistinct]
    · rw [hlength]
      simp [Creation.rideOptions, buildInitialHistoryEntries]
    · simp [Creation.rideOptions, buildInitialHistoryEntries]

variable (payload now) in
/-- Blank and repeated ids are not left out of what is stored. -/
theorem createRide_invites_iff (hfree : w.findUnfinishedRide rider = none) (hroute : env.route w.answered = .ok route)
    (hnear : env.nearbyDrivers (w.answered + 1) = .ok drivers) :
    (∃ new entries, InvitesFirst w ((createRide env (some rider) payload now).run (handle env) w).2
      drivers new entries) ↔
      (∀ d ∈ drivers, d.driverId = none) ∨
        (∀ d ∈ drivers, d.driverId ≠ none) ∧ (drivers.map (·.driverId)).Nodup := by
  have hbody : ((createRide env (some rider) payload now).run (handle env) w).2 =
      ((createRideBody env rider payload now).run (handle env) w).2 := by
    unfold createRide
    simp only
    rw [Program.run_bind_ok _ (run_call env _ w)]
    simp only [hfree]
    rw [if_neg (by simp), Program.run_rethrow]
  rw [hbody]
  by_cases hne : drivers = []
  · have hkept : ((createRideBody env rider payload now).run (handle env) w).2 =
        { w with answered := w.answered + 1 + 1 } := by
      unfold createRideBody
      simp only [↓Program.throw_seq]
      rw [Program.run_bind, run_call]
      simp only [handle, hroute]
      rw [Program.run_bind, run_call]
      simp only [handle, hnear, hne]
      rfl
    rw [hkept, invitesFirst_same (w := w) (v := { w with answered := w.answered + 1 + 1 }) rfl rfl, hne]
    simp
  obtain ⟨ns, hlast⟩ := createRideBody_listed payload now hroute hnear hne
  rw [hlast]
  by_cases hknown : ∀ d ∈ drivers, d.driverId ≠ none
  · have hnone : ¬ ∀ d ∈ drivers, d.driverId = none := by
      obtain ⟨d, hd⟩ := List.exists_mem_of_ne_nil drivers hne
      exact fun h => hknown d hd (h d hd)
    rw [or_iff_right hnone, and_iff_right hknown,
      ← invitesFirst_insertRide env { w with answered := w.answered + 1 + 1 } rider payload now route hknown]
    constructor
    · rintro ⟨new, entries, h⟩
      exact ⟨new, entries, h.rows, h.ride, h.offers, h.history, h.counts, h.counted⟩
    · rintro ⟨new, entries, h⟩
      exact ⟨new, entries, h.rows, h.ride, h.offers, h.history, h.counts, h.counted⟩
  · rw [or_iff_left (fun h => hknown h.1)]
    have hblank : ∃ d ∈ (Creation.rideOptions env rider payload now route drivers).nearbyDrivers,
        d.driverId = none := by simpa [Creation.rideOptions] using hknown
    rw [insertRide_kept hblank]
    exact invitesFirst_same rfl rfl

/-- Who is invited are the first drivers with each id, and between one and twenty drivers are asked for, exactly
when the list has no blank or repeated id or blank ids only, and the request is not one of the sizes over
twenty that are let through. -/
theorem createRide_candidates_iff (rider : Id) (payload : CreateRideInput) (now : Time) (route : RouteEstimates)
    (drivers : List NearbyDriver) (hfree : w.findUnfinishedRide rider = none)
    (hroute : env.route w.answered = .ok route) (hnear : env.nearbyDrivers (w.answered + 1) = .ok drivers) :
    CandidatesAgree w ((createRide env (some rider) payload now).run (recordingLimits env) (w, [])).2 drivers ↔
      ((∀ d ∈ drivers, d.driverId = none) ∨
        (∀ d ∈ drivers, d.driverId ≠ none) ∧ (drivers.map (·.driverId)).Nodup) ∧
      ∀ n, payload.maxDrivers = some n → ¬ (maxDriverCandidateLimit < n ∧ n ≤ 50) := by
  unfold CandidatesAgree
  rw [run_recordingLimits, createRide_invites_iff payload now hfree hroute hnear,
    createRide_limits payload now hfree hroute hnear]
  refine and_congr_right fun _ => ?_
  simp only [List.cons.injEq, and_true, exists_eq_left']
  unfold resolveCandidateLimit maxDriverCandidateLimit
  cases payload.maxDrivers with
  | none => simp
  | some n =>
    simp only [Option.some.injEq, forall_eq']
    split <;> omega

def CreateRideInput.asking (n : ℕ) : CreateRideInput := ⟨⟨0, 0⟩, ⟨1, 1⟩, none, some n⟩

/-- Twenty of the drivers around are asked for, and both are invited. -/
theorem createRide_candidates_iff_twenty :
    CandidatesAgree (.initial []) ((createRide (.around [7, 8]) (some 1) (.asking 20) 0).run
      (recordingLimits (.around [7, 8])) (.initial [], [])).2 [⟨some 7, some 100⟩, ⟨some 8, some 100⟩] :=
  (createRide_candidates_iff 1 (.asking 20) 0 ⟨5, 600⟩ [⟨some 7, some 100⟩, ⟨some 8, some 100⟩]
    rfl rfl rfl).mpr ⟨.inr (by decide), by simp [CreateRideInput.asking, maxDriverCandidateLimit]⟩

/-- Thirty drivers are asked for; and a driver that is listed twice is invited twice. -/
theorem createRide_asks_thirty :
    ¬ CandidatesAgree (.initial []) ((createRide (.around [7, 8]) (some 1) (.asking 30) 0).run
        (recordingLimits (.around [7, 8])) (.initial [], [])).2 [⟨some 7, some 100⟩, ⟨some 8, some 100⟩] ∧
      ¬ CandidatesAgree (.initial []) ((createRide (.around [7, 7]) (some 1) (.asking 20) 0).run
        (recordingLimits (.around [7, 7])) (.initial [], [])).2 [⟨some 7, some 100⟩, ⟨some 7, some 100⟩] := by
  constructor
  · rintro ⟨-, limit, hlimit, -, hmax⟩
    have hfree : (World.initial []).findUnfinishedRide 1 = none := rfl
    rw [createRide_limits (.asking 30) 0 hfree rfl rfl] at hlimit
    cases hlimit
    exact absurd hmax (by decide)
  · rintro ⟨hinvites, -⟩
    rw [run_recordingLimits, createRide_invites_iff (.asking 20) 0 rfl rfl rfl] at hinvites
    exact absurd hinvites (by decide)

end Creation

end NebLite
