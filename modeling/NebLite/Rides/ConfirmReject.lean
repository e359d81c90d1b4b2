import NebLite.Rides.AcceptRace
import NebLite.Rides.Snapshots
import NebLite.Rides.RideRow
import NebLite.Rides.Duel

/-! `confirmDriverAcceptance` and `rejectRideByDriver` on one accepted ride take
the steps of the duel. -/

namespace NebLite

open Atomic

/-- The ride, its rider, the driver of the duel and his candidate row, and where the
candidate rows sit. -/
structure Parties where
  rideId : Id
  riderId : Id
  driverId : Id
  candidateId : Id
  seats : List (Id × Id × Id × Time)

def World.seats (w : World) : List (Id × Id × Id × Time) := w.candidates.rows.map (·.seat)

def World.duel (w : World) (g : Parties) : Duel where
  driver := (w.rides.find g.rideId).bind (·.driverId)
  status := ((w.rides.find g.rideId).map (·.status)).getD .nystart
  answer := w.answers g.rideId g.driverId

/-- The ride is the rider's, and the candidates sit where they have sat. -/
structure World.Meets (w : World) (g : Parties) : Prop where
  ride : ∃ r, w.rides.find g.rideId = some r ∧ r.riderId = g.riderId
  seats : w.seats = g.seats
  candidate : ∃ c, w.findCandidate g.rideId g.driverId = some c ∧ c.id = g.candidateId

/-- The calls of the confirmation in each phase, and the phase after them. -/
inductive ConfirmMove (g : Parties) (w : World) :
    Duel.ConfirmPhase → Call → Duel.ConfirmPhase → Prop
  | apart {p op} : op.Apart → ConfirmMove g w p op p
  | pass : (w.duel g).driver = some g.driverId → ConfirmMove g w .opening (.findRide g.rideId) .passed
  | turnedAway : (w.duel g).driver = none → ConfirmMove g w .opening (.findRide g.rideId) .refused
  | check : (w.duel g).answer = some .accepted →
      ConfirmMove g w .passed (.findCandidate g.rideId g.driverId) .checked
  | deny : (w.duel g).answer ≠ some .accepted →
      ConfirmMove g w .passed (.findCandidate g.rideId g.driverId) .refused
  | grant : (w.duel g).status = .accepted →
      ConfirmMove g w .checked (.findRide g.rideId) (.admitted (w.duel g).driver)
  | leave : (w.duel g).status ≠ .accepted → ConfirmMove g w .checked (.findRide g.rideId) .listing
  | current {x} : ConfirmMove g w (.admitted x) (.findRide g.rideId) (.ready x)
  | mark {m} : m.id = g.rideId → m.riderId = g.riderId → m.status = .enroute →
      ConfirmMove g w (.ready m.driverId) (.updateRideRow m) .listing
  | reread : ConfirmMove g w .listing (.findRide g.rideId) .listing
  | list : ConfirmMove g w .listing (.findCandidates g.rideId) .confirming
  | confirm {n} : n.seat ∈ g.seats → n.id = g.candidateId → n.status = .confirmed →
      ConfirmMove g w .confirming (.saveCandidate n) .confirmed
  | saveOther {p n} : n.seat ∈ g.seats → n.id ≠ g.candidateId → p = .confirming ∨ p = .confirmed →
      ConfirmMove g w p (.saveCandidate n) p
  | look : ConfirmMove g w .confirmed (.findRide g.rideId) .confirmed

/-- The calls of the rejection in each phase, and the phase after them. -/
inductive RejectMove (g : Parties) (w : World) : Duel.RejectPhase → Call → Duel.RejectPhase → Prop
  | apart {q op} : op.Apart → RejectMove g w q op q
  | pass : (w.duel g).status = .accepted → RejectMove g w .opening (.findRide g.rideId) .passed
  | turnedAway : (w.duel g).status = .enroute → RejectMove g w .opening (.findRide g.rideId) .refused
  | check : RejectMove g w .passed (.findCandidate g.rideId g.driverId) .answering
  | decline {n} : n.seat ∈ g.seats → n.id = g.candidateId → n.status = .declined →
      RejectMove g w .answering (.saveCandidate n) .declined
  | current : RejectMove g w .declined (.findRide g.rideId) .withdrawing
  | withdraw {m} : m.id = g.rideId → m.riderId = g.riderId → m.status = .accepted → m.driverId = none →
      RejectMove g w .withdrawing (.updateRideRow m) .withdrawn
  | reread : RejectMove g w .withdrawn (.findRide g.rideId) .reverting
  | grant : (w.duel g).status = .accepted ∨ (w.duel g).status = .assigned →
      RejectMove g w .reverting (.findRide g.rideId) (.admitted (w.duel g).driver)
  | leave : (w.duel g).status ≠ .accepted → (w.duel g).status ≠ .assigned →
      RejectMove g w .reverting (.findRide g.rideId) .kept
  | currentAgain {x} : RejectMove g w (.admitted x) (.findRide g.rideId) (.ready x)
  | revert {m} : m.id = g.rideId → m.riderId = g.riderId → m.status = .candidatesComputed →
      RejectMove g w (.ready m.driverId) (.updateRideRow m) .reverted
  | look {q} : q = .kept ∨ q = .reverted → RejectMove g w q (.findRide g.rideId) q

def DuelMove (g : Parties) (w : World) : Duel.Phase → Call → Duel.Phase → Prop
  | .confirm p, op, .confirm p' => ConfirmMove g w p op p'
  | .reject q, op, .reject q' => RejectMove g w q op q'
  | _, _, _ => False

def duelOutline (g : Parties) : Outline Duel.Phase Call World where
  pre l w := w.Meets g ∧ l.Sees g.driverId (w.duel g)
  move l op w l' := DuelMove g w l op l'

section Effects

variable {env : Environment} {g : Parties} {w : World}

theorem duel_of_find {r : Ride} (hr : w.rides.find g.rideId = some r) :
    w.duel g = ⟨r.driverId, r.status, w.answers g.rideId g.driverId⟩ := by
  simp [World.duel, hr]

/-- Calls apart from both tables change nothing of a duel. -/
theorem World.Meets.congr {w' : World} (h : w.Meets g) (hr : w'.rides = w.rides)
    (hc : w'.candidates = w.candidates) : w'.Meets g ∧ w'.duel g = w.duel g := by
  refine ⟨⟨hr ▸ h.ride, ?_, ?_⟩, ?_⟩
  · unfold World.seats
    rw [hc]
    exact h.seats
  · unfold World.findCandidate
    rw [hc]
    exact h.candidate
  · simp only [World.duel, hr, World.answers_congr hc]

/-- An UPDATE of the ride sets driver and status. -/
theorem World.Meets.update {m : Ride} (h : w.Meets g) (hid : m.id = g.rideId)
    (hrider : m.riderId = g.riderId) :
    (handle env (.updateRideRow m) w).2.Meets g ∧
      (handle env (.updateRideRow m) w).2.duel g =
        { w.duel g with driver := m.driverId, status := m.status } := by
  obtain ⟨r, hr, -⟩ := h.ride
  have hrid : r.id = g.rideId := Table.key_of_find hr
  have hfind : (handle env (.updateRideRow m) w).2.rides.find g.rideId = some (r.writeColumns m) := by
    have hrow := find_handle env (.updateRideRow m) (w := w) (r := r) (by rw [hrid]; exact hr)
    rw [hrid] at hrow
    rw [hrow]
    simp [Call.onRide, hid, hrid]
  have hcand : (handle env (.updateRideRow m) w).2.candidates = w.candidates := by
    simp only [handle, World.updateRideRow]
    split <;> rfl
  refine ⟨⟨⟨_, hfind, hrider⟩, ?_, ?_⟩, ?_⟩
  · unfold World.seats
    rw [hcand]
    exact h.seats
  · unfold World.findCandidate
    rw [hcand]
    exact h.candidate
  · rw [duel_of_find hfind, duel_of_find hr, World.answers_congr hcand]
    rfl

/-- A row is written back in its seat. -/
theorem World.Meets.save {n : RideDriverCandidate} (h : w.Meets g) (hn : n.seat ∈ g.seats) :
    (handle env (.saveCandidate n) w).2.Meets g ∧
      (handle env (.saveCandidate n) w).2.duel g =
        if n.id = g.candidateId then { w.duel g with answer := some n.status } else w.duel g := by
  rw [← h.seats] at hn
  obtain ⟨c, hc, hseat⟩ := List.mem_map.mp hn
  obtain ⟨hid, hride, hdriver, htime⟩ : c.id = n.id ∧ c.rideId = n.rideId ∧ c.driverId = n.driverId ∧
      c.createdAt = n.createdAt := by simpa [RideDriverCandidate.seat] using hseat
  have hstored : w.candidates.find n.id = some c := hid ▸ World.find_of_mem hc
  have heq : (handle env (.saveCandidate n) w).2 = { w with candidates := w.candidates.put n } :=
    World.saveCandidate_eq hstored hdriver.symm htime.symm
  have hrow (y : RideDriverCandidate) (hy : y ∈ w.candidates.rows) (he : y.id = n.id) : y = c :=
    Option.some.inj ((World.find_of_mem hy).symm.trans (by rw [he]; exact hstored))
  have hkeep (y : RideDriverCandidate) (hy : y ∈ w.candidates.rows) :
      (if y.id = n.id then n else y).seat = y.seat := by
    by_cases he : y.id = n.id
    · rw [if_pos he, hrow y hy he]
      exact hseat.symm
    · rw [if_neg he]
  have hfind : (handle env (.saveCandidate n) w).2.findCandidate g.rideId g.driverId =
      (w.findCandidate g.rideId g.driverId).map fun y => if y.id = n.id then n else y := by
    rw [heq]
    apply World.findCandidate_map rfl
    intro y hy
    have hk := hkeep y hy
    simp only [RideDriverCandidate.seat, Prod.mk.injEq] at hk
    exact ⟨hk.2.1, hk.2.2.1⟩
  obtain ⟨x, hx, hxid⟩ := h.candidate
  rw [hx, Option.map_some] at hfind
  refine ⟨⟨by rw [heq]; exact h.ride, ?_, _, hfind, ?_⟩, ?_⟩
  · rw [← h.seats, heq]
    unfold World.seats Table.put
    rw [List.map_map]
    exact List.map_congr_left hkeep
  · by_cases he : x.id = n.id
    · rw [if_pos he, ← he]
      exact hxid
    · rw [if_neg he]
      exact hxid
  · have hanswer : (handle env (.saveCandidate n) w).2.answers g.rideId g.driverId =
        some (if x.id = n.id then n else x).status := by
      unfold World.answers
      rw [hfind]
      rfl
    have hbefore : w.answers g.rideId g.driverId = some x.status := by
      unfold World.answers
      rw [hx]
      rfl
    unfold World.duel
    rw [hanswer, hbefore, heq, ← hxid]
    by_cases he : x.id = n.id
    · rw [if_pos he, if_pos he.symm]
    · rw [if_neg he, if_neg (Ne.symm he)]

/-- What a confirmation's call does to the duel. -/
theorem ConfirmMove.step {p p' : Duel.ConfirmPhase} {op : Call} (hm : ConfirmMove g w p op p')
    (h : w.Meets g) (env : Environment) : (handle env op w).2.Meets g ∧
      Duel.ConfirmStep g.driverId p (w.duel g) p' ((handle env op w).2.duel g) := by
  cases hm with
  | apart ha =>
    obtain ⟨hr, hc⟩ := ha.tables env w
    obtain ⟨hmeets, hduel⟩ := h.congr hr hc
    exact ⟨hmeets, by rw [hduel]; exact .stay⟩
  | pass hd => exact ⟨h, .pass hd⟩
  | turnedAway hd => exact ⟨h, .turnedAway hd⟩
  | check ha => exact ⟨h, .check ha⟩
  | deny ha => exact ⟨h, .deny ha⟩
  | grant hs => exact ⟨h, .grant hs⟩
  | leave hs => exact ⟨h, .leave hs⟩
  | current => exact ⟨h, .current⟩
  | mark hid hrider hs =>
    obtain ⟨hmeets, hduel⟩ := h.update hid hrider
    rw [hs] at hduel
    exact ⟨hmeets, by rw [hduel]; exact .mark⟩
  | reread | look => exact ⟨h, .stay⟩
  | list => exact ⟨h, .list⟩
  | confirm hseat hid hs =>
    obtain ⟨hmeets, hduel⟩ := h.save hseat
    rw [if_pos hid, hs] at hduel
    exact ⟨hmeets, by rw [hduel]; exact .confirm⟩
  | saveOther hseat hid =>
    obtain ⟨hmeets, hduel⟩ := h.save hseat
    rw [if_neg hid] at hduel
    exact ⟨hmeets, by rw [hduel]; exact .stay⟩

/-- What a rejection's call does to the duel. -/
theorem RejectMove.step {q q' : Duel.RejectPhase} {op : Call} (hm : RejectMove g w q op q')
    (h : w.Meets g) (env : Environment) : (handle env op w).2.Meets g ∧
      Duel.RejectStep g.driverId q (w.duel g) q' ((handle env op w).2.duel g) := by
  cases hm with
  | apart ha =>
    obtain ⟨hr, hc⟩ := ha.tables env w
    obtain ⟨hmeets, hduel⟩ := h.congr hr hc
    exact ⟨hmeets, by rw [hduel]; exact .stay⟩
  | pass hs => exact ⟨h, .pass hs⟩
  | turnedAway hs => exact ⟨h, .turnedAway hs⟩
  | check => exact ⟨h, .check⟩
  | decline hseat hid hs =>
    obtain ⟨hmeets, hduel⟩ := h.save hseat
    rw [if_pos hid, hs] at hduel
    exact ⟨hmeets, by rw [hduel]; exact .decline⟩
  | current => exact ⟨h, .current⟩
  | withdraw hid hrider hs hd =>
    obtain ⟨hmeets, hduel⟩ := h.update hid hrider
    rw [hs, hd] at hduel
    exact ⟨hmeets, by rw [hduel]; exact .withdraw⟩
  | reread => exact ⟨h, .reread⟩
  | grant hs => exact ⟨h, .grant hs⟩
  | leave hs hs' => exact ⟨h, .leave hs hs'⟩
  | currentAgain => exact ⟨h, .currentAgain⟩
  | revert hid hrider hs =>
    obtain ⟨hmeets, hduel⟩ := h.update hid hrider
    rw [hs] at hduel
    exact ⟨hmeets, by rw [hduel]; exact .revert⟩
  | look => exact ⟨h, .stay⟩

end Effects

/-- From phase `l` the program takes the moves of a duel, and it ends in a last phase. -/
abbrev Duels {α : Type} (env : Environment) (g : Parties) (l : Duel.Phase) (p : Service α) : Prop :=
  (duelOutline g).Follows (handle env) (fun l _ => l.Ended) l p

section Follows

variable {env : Environment} {g : Parties} {l : Duel.Phase} {α β : Type}

theorem DuelMove.apart {w : World} {op : Call} (h : op.Apart) : DuelMove g w l op l := by
  cases l with
  | confirm p => exact .apart h
  | reject q => exact .apart h

/-- The program stays in its phase, and returns. -/
abbrev Stays {α : Type} (env : Environment) (g : Parties) (l : Duel.Phase) (p : Service α) : Prop :=
  (duelOutline g).Follows (handle env) (fun l' r => l' = l ∧ ∃ a, r = .ok a) l p

theorem Stays.bind {p : Service α} {f : α → Service β} (hp : Stays env g l p)
    (hf : ∀ a, Stays env g l (f a)) : Stays env g l (p >>= f) := by
  refine Outline.Follows.bind hp ?_ ?_
  · rintro l a ⟨rfl, -⟩
    exact hf a
  · rintro l e ⟨-, a, ha⟩
    cases ha

theorem Stays.before {p : Service α} {f : α → Service β} (hp : Stays env g l p)
    (hf : ∀ a, Duels env g l (f a)) : Duels env g l (p >>= f) := by
  refine Outline.Follows.bind hp ?_ ?_
  · rintro l a ⟨rfl, -⟩
    exact hf a
  · rintro l e ⟨-, a, ha⟩
    cases ha

theorem stays_call {c : Call} (h : c.Apart) : Stays env g l (call c) := by
  intro w _
  refine ⟨l, .apart h, ?_⟩
  have hok : ∃ a, (handle env c w).1 = .ok a := by
    cases c <;> first | exact h.elim | exact ⟨_, rfl⟩
  obtain ⟨a, ha⟩ := hok
  rw [ha]
  exact ⟨rfl, a, rfl⟩

theorem stays_forM {f : α → Service Unit} (h : ∀ a, Stays env g l (f a)) (xs : List α) :
    Stays env g l (xs.forM f) := by
  induction xs with
  | nil => exact ⟨rfl, (), rfl⟩
  | cons x xs ih => exact (h x).bind fun _ => ih

theorem stays_history {rideId : Id} {a : Option ERideStatus} {b : ERideStatus} {context : Option String} :
    Stays env g l (recordStatusChange rideId a b context) := stays_call trivial

theorem stays_dispatch {target : NotificationTarget} {targetId : Id} {event message : String}
    {ride : Ride} {extras : NotificationExtras} :
    Stays env g l (dispatchNotification target targetId event ride message extras) := stays_call trivial

theorem stays_riderConfirmed {ride : Ride} {candidate : RideDriverCandidate} :
    Stays env g l (notifyRiderConfirmed ride candidate) := by
  unfold notifyRiderConfirmed
  split
  · exact ⟨rfl, (), rfl⟩
  · exact stays_call trivial

theorem duels_findById {f : Option Ride → Service β}
    (h : ∀ w r, w.Meets g → l.Sees g.driverId (w.duel g) → w.rides.find g.rideId = some r →
      r.id = g.rideId → r.riderId = g.riderId → ∃ l', DuelMove g w l (.findRide g.rideId) l' ∧
        Duels env g l' (f (some r))) : Duels env g l (findById g.rideId >>= f) := by
  apply Outline.Follows.perform
  rintro w ⟨hw, hsees⟩
  obtain ⟨r, hr, hrider⟩ := hw.ride
  obtain ⟨l', hm, hf⟩ := h w r hw hsees hr (Table.key_of_find hr) hrider
  refine ⟨l', hm, ?_⟩
  simpa only [handle, hr, Program.ofExcept_ok, Program.ret_bind] using hf

/-- A full-row write, its own reads included. -/
theorem duels_updateRide {m : Ride} {f : Ride → Service β} {a b c : Duel.Phase}
    (hid : m.id = g.rideId) (hread : ∀ w, DuelMove g w l (.findRide g.rideId) a)
    (hwrite : ∀ w cur, DuelMove g w a (.updateRideRow (mergeRideData cur m.changes)) b)
    (hreread : ∀ w, DuelMove g w b (.findRide g.rideId) c)
    (hf : ∀ r, r.id = g.rideId → Duels env g c (f r)) :
    Duels env g l (updateRide m.changes >>= f) := by
  have hc : m.changes.id = g.rideId := hid
  unfold updateRide
  simp only [bind_assoc, hc]
  apply duels_findById
  intro w cur _ _ _ _ _
  refine ⟨a, hread w, ?_⟩
  simp only [bind_assoc]
  apply Outline.Follows.perform
  rintro v ⟨hv, -⟩
  obtain ⟨x, hx, -⟩ := hv.ride
  refine ⟨b, hwrite v cur, ?_⟩
  have hok : (handle env (.updateRideRow (mergeRideData cur m.changes)) v).1 = .ok ([g.rideId], 1) := by
    simp only [handle, World.updateRideRow, merge_id, hid, hx]
    rfl
  rw [hok]
  simp only [Program.ofExcept_ok, Program.ret_bind, UpdateResult.length, Nat.reduceEqDiff, if_false,
    merge_id, hid, bind_assoc]
  apply duels_findById
  intro u r _ _ _ hr _
  exact ⟨c, hreread u, hf r hr⟩

theorem duels_findCandidate {f : Option RideDriverCandidate → Service β}
    (h : ∀ w c, w.Meets g → l.Sees g.driverId (w.duel g) → c.id = g.candidateId → c.seat ∈ g.seats →
      (w.duel g).answer = some c.status →
      ∃ l', DuelMove g w l (.findCandidate g.rideId g.driverId) l' ∧ Duels env g l' (f (some c))) :
    Duels env g l (findByRideAndDriver g.rideId g.driverId >>= f) := by
  apply Outline.Follows.perform
  rintro w ⟨hw, hsees⟩
  obtain ⟨c, hc, hid⟩ := hw.candidate
  have hseat : c.seat ∈ g.seats := by
    rw [← hw.seats]
    exact List.mem_map_of_mem (World.mem_of_findCandidate hc).1
  have hanswer : (w.duel g).answer = some c.status := by
    simp [World.duel, World.answers, hc]
  obtain ⟨l', hm, hf⟩ := h w c hw hsees hid hseat hanswer
  refine ⟨l', hm, ?_⟩
  simpa only [handle, hc, Program.ofExcept_ok, Program.ret_bind] using hf

/-- The rows of a confirmation, saved one after the other; the driver's is among them
once at most. -/
theorem duels_saveMany {f : Unit → Service β} (hf : Duels env g (.confirm .confirmed) (f ()))
    (rest : List RideDriverCandidate) (hseats : ∀ y ∈ rest, y.seat ∈ g.seats)
    (hstatus : ∀ y ∈ rest, y.id = g.candidateId → y.status = .confirmed)
    (hnodup : (rest.map (·.id)).Nodup) :
    Duels env g (.confirm (if g.candidateId ∈ rest.map (·.id) then .confirming else .confirmed))
      (saveMany rest >>= f) := by
  induction rest with
  | nil => exact hf
  | cons y rest ih =>
    rw [List.map_cons, List.nodup_cons] at hnodup
    have hrest := ih (fun x hx => hseats x (List.mem_cons_of_mem y hx))
      (fun x hx => hstatus x (List.mem_cons_of_mem y hx)) hnodup.2
    have hseat := hseats y List.mem_cons_self
    change Duels env g _ ((saveCandidate y >>= fun _ => saveMany rest) >>= f)
    rw [bind_assoc]
    apply Outline.Follows.perform
    intro w _
    by_cases hy : y.id = g.candidateId
    · have hnone : g.candidateId ∉ rest.map (·.id) := by
        rw [← hy]
        exact hnodup.1
      rw [if_neg hnone] at hrest
      rw [if_pos (by simp [hy])]
      exact ⟨.confirm .confirmed, .confirm hseat hy (hstatus y List.mem_cons_self hy), hrest⟩
    · have hiff : g.candidateId ∈ (y :: rest).map (·.id) ↔ g.candidateId ∈ rest.map (·.id) := by
        simp [Ne.symm hy]
      simp only [hiff]
      by_cases hmem : g.candidateId ∈ rest.map (·.id)
      · rw [if_pos hmem] at hrest ⊢
        exact ⟨.confirm .confirming, .saveOther hseat hy (.inl rfl), hrest⟩
      · rw [if_neg hmem] at hrest ⊢
        exact ⟨.confirm .confirmed, .saveOther hseat hy (.inr rfl), hrest⟩

/-- The rows that a confirmation is about to save. -/
theorem confirmedRows {w : World} (now : Time) (hw : w.Meets g) :
    (∀ y ∈ (w.findCandidates g.rideId).filterMap (confirmedRow g.driverId now), y.seat ∈ g.seats) ∧
    (∀ y ∈ (w.findCandidates g.rideId).filterMap (confirmedRow g.driverId now),
      y.id = g.candidateId → y.status = .confirmed) ∧
    (((w.findCandidates g.rideId).filterMap (confirmedRow g.driverId now)).map (·.id)).Nodup ∧
    g.candidateId ∈ ((w.findCandidates g.rideId).filterMap (confirmedRow g.driverId now)).map (·.id) := by
  obtain ⟨c, hc, hcid⟩ := hw.candidate
  obtain ⟨hcm, hcr, hcd⟩ := World.mem_of_findCandidate hc
  have hrow {x y : RideDriverCandidate} (h : confirmedRow g.driverId now x = some y) : y.seat = x.seat := by
    unfold confirmedRow at h
    split at h
    · obtain rfl := Option.some.inj h
      rfl
    · split at h
      · obtain rfl := Option.some.inj h
        rfl
      · cases h
  have hmem {x : RideDriverCandidate} (h : x ∈ w.findCandidates g.rideId) : x ∈ w.candidates.rows :=
    (Table.mem_select.mp h).1
  refine ⟨?_, ?_, ?_, ?_⟩
  · intro y hy
    obtain ⟨x, hx, hxy⟩ := List.mem_filterMap.mp hy
    rw [hrow hxy, ← hw.seats]
    exact List.mem_map_of_mem (hmem hx)
  · intro y hy hid
    obtain ⟨x, hx, hxy⟩ := List.mem_filterMap.mp hy
    have hxid : x.id = c.id := by
      have hseat := hrow hxy
      simp only [RideDriverCandidate.seat, Prod.mk.injEq] at hseat
      rw [← hseat.1, hid, hcid]
    have hsame : x = c := Option.some.inj
      ((World.find_of_mem (hmem hx)).symm.trans (by rw [hxid]; exact World.find_of_mem hcm))
    rw [hsame, confirmedRow, if_pos hcd] at hxy
    obtain rfl := Option.some.inj hxy
    rfl
  · have hids : ((w.findCandidates g.rideId).filterMap (confirmedRow g.driverId now)).map (·.id) =
        ((w.findCandidates g.rideId).filter fun x => (confirmedRow g.driverId now x).isSome).map (·.id) := by
      generalize w.findCandidates g.rideId = rows
      induction rows with
      | nil => rfl
      | cons x rows ih =>
        cases hx : confirmedRow g.driverId now x with
        | none => simp [hx, ih]
        | some y =>
          have hid : y.id = x.id := by
            have hseat := hrow hx
            simp only [RideDriverCandidate.seat, Prod.mk.injEq] at hseat
            exact hseat.1
          simp [hx, ih, hid]
    rw [hids]
    have hsub : ((w.findCandidates g.rideId).filter fun x => (confirmedRow g.driverId now x).isSome).Sublist
        w.candidates.rows := List.filter_sublist.trans List.filter_sublist
    exact w.candidates.nodup.sublist (hsub.map _)
  · have hfound : c ∈ w.findCandidates g.rideId := Table.mem_select.mpr ⟨hcm, by simp [hcr]⟩
    have hconfirmed : confirmedRow g.driverId now c =
        some { c with status := .confirmed, respondedAt := some now, reason := none } := by
      rw [confirmedRow, if_pos hcd]
    exact List.mem_map.mpr ⟨_, List.mem_filterMap.mpr ⟨c, hfound, hconfirmed⟩, hcid⟩

/-- The transition of a confirmation. -/
theorem duels_confirmTransition {context : Option String} {f : Ride × Bool → Service β}
    (hf : ∀ r changed, r.id = g.rideId → Duels env g (.confirm .listing) (f (r, changed))) :
    Duels env g (.confirm .checked) (transitionRideStatus g.rideId [.accepted] .enroute context >>= f) := by
  unfold transitionRideStatus
  simp only [bind_assoc]
  apply duels_findById
  intro w r _ _ hr hid hrider
  have hduel := duel_of_find hr
  by_cases hs : r.status = .accepted
  · have hmem : r.status ∈ [ERideStatus.accepted] := by simp [hs]
    have hne : r.status ≠ .enroute := by simp [hs]
    refine ⟨.confirm (.admitted r.driverId), ?_, ?_⟩
    · have hmove : ConfirmMove g w .checked (.findRide g.rideId) (.admitted (w.duel g).driver) :=
        .grant (by rw [hduel]; exact hs)
      rwa [hduel] at hmove
    simp only [hmem, not_true_eq_false, if_false, hne, bind_assoc]
    have hwrite (v : World) (cur : Ride) : DuelMove g v (.confirm (.ready r.driverId))
        (.updateRideRow (mergeRideData cur (withStatus r .enroute context).changes)) (.confirm .listing) := by
      have hdriver : (mergeRideData cur (withStatus r .enroute context).changes).driverId = r.driverId := by
        simp [withStatus]
      have hmove : ConfirmMove g v
          (.ready (mergeRideData cur (withStatus r .enroute context).changes).driverId)
          (.updateRideRow (mergeRideData cur (withStatus r .enroute context).changes)) .listing :=
        .mark hid hrider rfl
      rwa [hdriver] at hmove
    have hread (v : World) : DuelMove g v (.confirm (.admitted r.driverId)) (.findRide g.rideId)
        (.confirm (.ready r.driverId)) := ConfirmMove.current
    have hreread (v : World) : DuelMove g v (.confirm .listing) (.findRide g.rideId)
        (.confirm .listing) := ConfirmMove.reread
    apply duels_updateRide (m := withStatus r .enroute context) hid hread hwrite hreread
    intro saved hsaved
    apply Stays.before stays_history
    intro _
    exact hf saved true hsaved
  · have hmem : r.status ∉ [ERideStatus.accepted] := by simpa using hs
    refine ⟨.confirm .listing, .leave (by rw [hduel]; exact hs), ?_⟩
    simp only [hmem, not_false_eq_true, if_true]
    exact hf r false hid

theorem duels_confirmDriverAcceptance (now : Time) :
    Duels env g (.confirm .opening) (confirmDriverAcceptance g.rideId g.riderId now) := by
  unfold confirmDriverAcceptance
  apply duels_findById
  intro w r _ hsees hr hid hrider
  have hduel := duel_of_find hr
  rw [hduel] at hsees
  simp only [↓Program.throw_seq]
  rw [if_neg (by simp [hrider])]
  rcases hsees with hnone | ⟨hdriver, hstatus⟩
  · refine ⟨.confirm .refused, .turnedAway (by rw [hduel]; exact hnone), ?_⟩
    have hd : r.driverId = none := hnone
    rw [hd]
    exact trivial
  · refine ⟨.confirm .passed, .pass (by rw [hduel]; exact hdriver), ?_⟩
    have hd : r.driverId = some g.driverId := hdriver
    have hs : r.status = .accepted := hstatus
    simp only [hd, hs, reduceCtorEq, if_false, or_self]
    apply duels_findCandidate
    intro v c _ _ _ _ hanswer
    by_cases hc : c.status = .accepted
    · refine ⟨.confirm .checked, .check (by rw [hanswer, hc]), ?_⟩
      simp only [hc, ne_eq, not_true_eq_false, if_false, hid]
      apply duels_confirmTransition
      intro u _ hu
      apply Outline.Follows.perform
      rintro w' ⟨hw', -⟩
      refine ⟨.confirm .confirming, .list, ?_⟩
      obtain ⟨hseats, hconfirmed, hnodup, hmem⟩ := confirmedRows now hw'
      have hsave {f : Unit → Service Ride} (hf : Duels env g (.confirm .confirmed) (f ())) :=
        duels_saveMany hf _ hseats hconfirmed hnodup
      rw [if_pos hmem] at hsave
      apply hsave
      apply Stays.before stays_riderConfirmed
      intro _
      apply Stays.before (stays_forM (fun _ => stays_dispatch) _)
      intro _
      rw [hu]
      apply duels_findById
      intro _ _ _ _ _ _ _
      exact ⟨.confirm .confirmed, .look, trivial⟩
    · refine ⟨.confirm .refused, .deny (by rw [hanswer]; simpa using hc), ?_⟩
      simp only [hc, ne_eq, not_false_eq_true, if_true]
      exact trivial

/-- The transition of a rejection. -/
theorem duels_rejectTransition {context : Option String} {f : Ride × Bool → Service β}
    (hf : ∀ r changed q, r.id = g.rideId → q = .kept ∨ q = .reverted →
      Duels env g (.reject q) (f (r, changed))) :
    Duels env g (.reject .reverting)
      (transitionRideStatus g.rideId [.accepted, .assigned] .candidatesComputed context >>= f) := by
  unfold transitionRideStatus
  simp only [bind_assoc]
  apply duels_findById
  intro w r _ _ hr hid hrider
  have hduel := duel_of_find hr
  by_cases hs : r.status = .accepted ∨ r.status = .assigned
  · have hmem : r.status ∈ [ERideStatus.accepted, .assigned] := by simpa using hs
    have hne : r.status ≠ .candidatesComputed := by
      rcases hs with hs | hs
      · simp [hs]
      · simp [hs]
    refine ⟨.reject (.admitted r.driverId), ?_, ?_⟩
    · have hmove : RejectMove g w .reverting (.findRide g.rideId) (.admitted (w.duel g).driver) :=
        .grant (by rw [hduel]; exact hs)
      rwa [hduel] at hmove
    simp only [hmem, not_true_eq_false, if_false, hne, bind_assoc]
    have hwrite (v : World) (cur : Ride) : DuelMove g v (.reject (.ready r.driverId))
        (.updateRideRow (mergeRideData cur (withStatus r .candidatesComputed context).changes))
        (.reject .reverted) := by
      have hdriver : (mergeRideData cur (withStatus r .candidatesComputed context).changes).driverId =
          r.driverId := by
        simp [withStatus]
      have hmove : RejectMove g v
          (.ready (mergeRideData cur (withStatus r .candidatesComputed context).changes).driverId)
          (.updateRideRow (mergeRideData cur (withStatus r .candidatesComputed context).changes)) .reverted :=
        .revert hid hrider rfl
      rwa [hdriver] at hmove
    have hread (v : World) : DuelMove g v (.reject (.admitted r.driverId)) (.findRide g.rideId)
        (.reject (.ready r.driverId)) := RejectMove.currentAgain
    have hlook (v : World) : DuelMove g v (.reject .reverted) (.findRide g.rideId) (.reject .reverted) :=
      RejectMove.look (.inr rfl)
    apply duels_updateRide (m := withStatus r .candidatesComputed context) hid
      hread hwrite hlook
    intro saved hsaved
    apply Stays.before stays_history
    intro _
    exact hf saved true .reverted hsaved (.inr rfl)
  · obtain ⟨hacc, hass⟩ := not_or.mp hs
    have hmem : r.status ∉ [ERideStatus.accepted, .assigned] := by simp [hacc, hass]
    refine ⟨.reject .kept, .leave (by rw [hduel]; exact hacc) (by rw [hduel]; exact hass), ?_⟩
    simp only [hmem, not_false_eq_true, if_true]
    exact hf r false .kept hid (.inl rfl)

theorem duels_rejectRideByDriver (reason : Option String) (now : Time) :
    Duels env g (.reject .opening) (rejectRideByDriver g.rideId g.driverId reason now) := by
  unfold rejectRideByDriver
  apply duels_findById
  intro w r _ hsees hr hid hrider
  have hduel := duel_of_find hr
  rw [hduel] at hsees
  obtain ⟨hdriver, hstatus⟩ := hsees
  have hd : r.driverId = some g.driverId := hdriver
  simp only [↓Program.throw_seq]
  rcases hstatus with hs | hs
  · refine ⟨.reject .passed, .pass (by rw [hduel]; exact hs), ?_⟩
    have hs' : r.status = .accepted := hs
    simp only [hs', reduceCtorEq, if_false]
    apply duels_findCandidate
    intro v c _ hanswers hcid hseat hanswer
    have hopen : c.status = .accepted ∨ c.status = .confirmed := by
      have hsee : (v.duel g).answer = some .accepted ∨ (v.duel g).answer = some .confirmed := hanswers
      rw [hanswer] at hsee
      simpa using hsee
    refine ⟨.reject .answering, .check, ?_⟩
    have hdeclined : c.status ≠ .declined := by
      rcases hopen with h | h
      · simp [h]
      · simp [h]
    have hcanceled : c.status ≠ .canceled := by
      rcases hopen with h | h
      · simp [h]
      · simp [h]
    simp only [hdeclined, hcanceled, if_false, hd, if_true]
    apply Outline.Follows.perform
    intro _ _
    refine ⟨.reject .declined, .decline hseat hcid rfl, ?_⟩
    have hread (u : World) : DuelMove g u (.reject .declined) (.findRide g.rideId)
        (.reject .withdrawing) := RejectMove.current
    have hwrite (u : World) (cur : Ride) : DuelMove g u (.reject .withdrawing)
        (.updateRideRow (mergeRideData cur { r with driverId := none, status := .accepted }.changes))
        (.reject .withdrawn) := RejectMove.withdraw hid hrider rfl rfl
    have hreread (u : World) : DuelMove g u (.reject .withdrawn) (.findRide g.rideId)
        (.reject .reverting) := RejectMove.reread
    simp only [handle, Program.ofExcept_ok, Program.ret_bind]
    apply duels_updateRide (m := { r with driverId := none, status := .accepted }) hid hread hwrite hreread
    intro saved hsaved
    rw [hsaved]
    apply duels_rejectTransition
    intro reverted _ q hreverted hq
    simp only [pure_bind]
    apply Stays.before stays_dispatch
    intro _
    rw [hreverted]
    apply duels_findById
    intro _ _ _ _ _ _ _
    refine ⟨.reject q, .look hq, ?_⟩
    rcases hq with rfl | rfl
    · exact trivial
    · exact trivial
  · refine ⟨.reject .refused, .turnedAway (by rw [hduel]; exact hs), ?_⟩
    have hs' : r.status = .enroute := hs
    simp only [hs', reduceCtorEq, if_false, if_true]
    exact trivial

end Follows

end NebLite
