import NebLite.Handler
import NebLite.Rides.Booking
import Mathlib.Data.List.Find

/-! The bookings of the stored rows, and how the writes of one ride's rows
change its booking. -/

namespace NebLite

open Atomic

namespace World

variable (w : World)

def statusOf (rideId : Id) : Option ERideStatus := (w.rides.find rideId).map (·.status)

def answers (rideId driverId : Id) : Option ERideDriverCandidateStatus :=
  (w.findCandidate rideId driverId).map (·.status)

def bookingOf (r : Ride) : Booking := ⟨r.riderId, r.driverId, r.status, w.answers r.id⟩

def booking (rideId : Id) : Option Booking := (w.rides.find rideId).map w.bookingOf

/-- A driver is a candidate of a ride at most once, and every candidate's ride exists. -/
structure WellFormed : Prop where
  distinct : ∀ c ∈ w.candidates.rows, ∀ x ∈ w.candidates.rows,
    c.rideId = x.rideId → c.driverId = x.driverId → c = x
  referenced : ∀ c ∈ w.candidates.rows, w.rides.find c.rideId ≠ none

variable {w}

theorem booking_of_find {rid : Id} {r : Ride} (hr : w.rides.find rid = some r) :
    w.booking rid = some (w.bookingOf r) := by
  simp [booking, hr]

section BookingOf

variable (w) (r : Ride)

@[simp] theorem bookingOf_rider : (w.bookingOf r).rider = r.riderId := rfl

@[simp] theorem bookingOf_driver : (w.bookingOf r).driver = r.driverId := rfl

@[simp] theorem bookingOf_status : (w.bookingOf r).status = r.status := rfl

@[simp] theorem bookingOf_cand (d : Id) :
    (w.bookingOf r).cand d = (w.findCandidate r.id d).map (·.status) := rfl

end BookingOf

theorem booking_none {rid : Id} : w.booking rid = none ↔ w.rides.find rid = none := by
  simp [booking]

theorem mem_of_findCandidate {rid d : Id} {c : RideDriverCandidate}
    (hc : w.findCandidate rid d = some c) :
    c ∈ w.candidates.rows ∧ c.rideId = rid ∧ c.driverId = d := by
  have hp := List.find?_some hc
  simp only [Bool.and_eq_true, beq_iff_eq] at hp
  exact ⟨List.mem_of_find?_eq_some hc, hp⟩

theorem findCandidate_some (hw : w.WellFormed) {rid d : Id} {c : RideDriverCandidate} :
    w.findCandidate rid d = some c ↔ c ∈ w.candidates.rows ∧ c.rideId = rid ∧ c.driverId = d := by
  refine ⟨mem_of_findCandidate, fun ⟨hm, hr, hd⟩ => ?_⟩
  cases hf : w.findCandidate rid d with
  | none =>
    have hn := List.find?_eq_none.mp hf c hm
    simp [hr, hd] at hn
  | some x =>
    obtain ⟨hx, hxr, hxd⟩ := mem_of_findCandidate hf
    rw [hw.distinct x hx c hm (hxr.trans hr.symm) (hxd.trans hd.symm)]

theorem find_of_mem {c : RideDriverCandidate} (hc : c ∈ w.candidates.rows) :
    w.candidates.find c.id = some c := Table.find_some.mpr ⟨hc, rfl⟩

/-- The change of one ride's booking to `o`; the other bookings stay. -/
structure Becomes (rid : Id) (o : Option Booking) (w w' : World) : Prop where
  booked : w'.booking rid = o
  others : ∀ r, r ≠ rid → w'.booking r = w.booking r
  wellFormed : w.WellFormed → w'.WellFormed

theorem Becomes.trans {rid : Id} {o o' : Option Booking} {w w' w'' : World}
    (h : Becomes rid o w w') (h' : Becomes rid o' w' w'') : Becomes rid o' w w'' :=
  ⟨h'.booked, fun r hr => (h'.others r hr).trans (h.others r hr), h'.wellFormed ∘ h.wellFormed⟩

theorem answers_congr {w w' : World} (h : w'.candidates = w.candidates) : w'.answers = w.answers := by
  funext rid d
  simp only [answers, findCandidate, h]

theorem booking_congr {w w' : World} (hr : w'.rides = w.rides) (hc : w'.candidates = w.candidates) :
    w'.booking = w.booking := by
  funext rid
  simp only [booking, hr]
  exact congrArg (Option.map · _) (funext fun r => by simp only [bookingOf, answers_congr hc])

theorem becomes_tables {w w' : World} (hr : w'.rides = w.rides) (hc : w'.candidates = w.candidates)
    (rid : Id) : Becomes rid (w.booking rid) w w' where
  booked := by rw [booking_congr hr hc]
  others r _ := by rw [booking_congr hr hc]
  wellFormed h := ⟨by rw [hc]; exact h.distinct, by rw [hr, hc]; exact h.referenced⟩

theorem Becomes.tables {rid : Id} {o : Option Booking} {w w' w'' : World} (h : Becomes rid o w w')
    (hr : w''.rides = w'.rides) (hc : w''.candidates = w'.candidates) : Becomes rid o w w'' :=
  h.booked ▸ h.trans (becomes_tables hr hc rid)

theorem becomes_refl (w : World) (rid : Id) : Becomes rid (w.booking rid) w w :=
  becomes_tables rfl rfl rid

theorem becomes_put {w : World} {rid : Id} {r m : Ride} (hr : w.rides.find rid = some r)
    (hm : m.id = rid) : Becomes rid (some (w.bookingOf m)) w { w with rides := w.rides.put m } := by
  subst hm
  have hf (k : Id) : (w.rides.put m).find k = if k = m.id then some m else w.rides.find k :=
    Table.find_put hr k
  refine ⟨?_, fun k hk => ?_, fun h => ⟨h.distinct, fun c hc => ?_⟩⟩
  · simp only [booking, hf, if_true, Option.map_some]
    rfl
  · simp only [booking, hf, if_neg hk]
    rfl
  · simp only [hf]
    split
    · simp
    · exact h.referenced c hc

theorem findCandidate_map {w w' : World} {g : RideDriverCandidate → RideDriverCandidate}
    (hc : w'.candidates.rows = w.candidates.rows.map g)
    (hg : ∀ c ∈ w.candidates.rows, (g c).rideId = c.rideId ∧ (g c).driverId = c.driverId)
    (rid d : Id) : w'.findCandidate rid d = (w.findCandidate rid d).map g := by
  simp only [findCandidate, hc, List.find?_map]
  refine congrArg _ (List.find?_congr fun c hm => ?_)
  simp [hg c hm]

/-- Candidate rows of one ride are rewritten in place. -/
theorem becomes_candidates {w v : World} {rid : Id} {b : Booking}
    {g : RideDriverCandidate → RideDriverCandidate} (hb : w.booking rid = some b)
    (hr : v.rides = w.rides) (hc : v.candidates.rows = w.candidates.rows.map g)
    (hg : ∀ c ∈ w.candidates.rows, (g c).rideId = c.rideId ∧ (g c).driverId = c.driverId ∧
      (c.rideId ≠ rid → g c = c)) :
    Becomes rid (some { b with cand := fun d => (w.findCandidate rid d).map fun c => (g c).status })
      w v := by
  have hf := findCandidate_map hc fun c hm => ⟨(hg c hm).1, (hg c hm).2.1⟩
  obtain ⟨r, hfr, rfl⟩ := Option.map_eq_some_iff.mp hb
  have hid := Table.key_of_find hfr
  refine ⟨?_, fun k hk => ?_, fun h => ⟨?_, ?_⟩⟩
  · subst hid
    simp only [booking, hr, hfr, Option.map_some, bookingOf]
    congr 2
    funext d
    simp [answers, hf, Function.comp_def]
  · simp only [booking, hr]
    cases hfk : w.rides.find k with
    | none => rfl
    | some x =>
      have hx := Table.key_of_find hfk
      simp only [Option.map_some, bookingOf]
      congr 2
      funext d
      simp only [answers, hf, Option.map_map]
      refine Option.map_congr fun c hm => ?_
      obtain ⟨hcm, hcr, -⟩ := mem_of_findCandidate hm
      have : g c = c := (hg c hcm).2.2 (by rw [hcr]; exact fun he => hk (hx.symm.trans he))
      simp [this]
  · simp only [hc, List.mem_map]
    rintro _ ⟨c, hcm, rfl⟩ _ ⟨x, hxm, rfl⟩ he hd
    rw [(hg c hcm).1, (hg x hxm).1] at he
    rw [(hg c hcm).2.1, (hg x hxm).2.1] at hd
    rw [h.distinct c hcm x hxm he hd]
  · simp only [hc, hr, List.mem_map]
    rintro _ ⟨c, hcm, rfl⟩
    rw [(hg c hcm).1]
    exact h.referenced c hcm

theorem saveCandidate_eq {w : World} {c n : RideDriverCandidate} (hc : w.candidates.find n.id = some c)
    (hd : n.driverId = c.driverId) (ht : n.createdAt = c.createdAt) :
    w.saveCandidate n = { w with candidates := w.candidates.put n } := by
  have hid : n.id = c.id := (Table.key_of_find hc).symm
  unfold saveCandidate
  rw [hc]
  cases n
  cases c
  simp_all

/-- One candidate of the ride gets a new answer. -/
theorem becomes_saveCandidate {w : World} {rid d : Id} {b : Booking}
    {c n : RideDriverCandidate} (hb : w.booking rid = some b) (hc : w.findCandidate rid d = some c)
    (hi : n.id = c.id) (hr : n.rideId = c.rideId) (hd : n.driverId = c.driverId)
    (ht : n.createdAt = c.createdAt) :
    Becomes rid (some (b.answer d n.status)) w (w.saveCandidate n) := by
  obtain ⟨hm, hcr, hcd⟩ := mem_of_findCandidate hc
  rw [saveCandidate_eq (c := c) (by rw [hi]; exact find_of_mem hm) hd ht]
  have hx (x : RideDriverCandidate) (hxm : x ∈ w.candidates.rows) (he : x.id = n.id) : x = c :=
    Option.some.inj ((find_of_mem hxm).symm.trans (by rw [he, hi]; exact find_of_mem hm))
  have h := becomes_candidates (v := { w with candidates := w.candidates.put n }) hb rfl
    (g := fun x => if x.id = n.id then n else x) rfl (fun x hxm => by
      by_cases he : x.id = n.id
      · obtain rfl := hx x hxm he
        simp [hi, hr, hd, hcr]
      · simp [he])
  obtain ⟨r, hfr, rfl⟩ := Option.map_eq_some_iff.mp hb
  have he : ((w.bookingOf r).answer d n.status).cand = fun y =>
      (w.findCandidate rid y).map fun x => (if x.id = n.id then n else x).status := by
    funext y
    have hid := Table.key_of_find hfr
    simp only [Ride.key_eq] at hid
    simp only [Booking.answer_cand, Function.update_apply, bookingOf, answers, hid]
    split
    · next hy =>
      subst hy
      simp [hc, hi]
    · next hy =>
      refine Option.map_congr fun x hxf => ?_
      obtain ⟨hxm, -, hxd⟩ := mem_of_findCandidate hxf
      have : x.id ≠ n.id := fun he => hy (by rw [← hxd, hx x hxm he, hcd])
      simp [this]
  have hb := congrArg (Booking.mk r.riderId r.driverId r.status) he
  exact (congrArg some hb).symm ▸ h

end World

end NebLite
