import NebLite.Tracking.Release

/-! Runs of the ride operations with flushes in between. A finished ride leaves the
set of tracked rides with the next flush if its state bears the mark, and never
leaves it otherwise. -/

namespace NebLite

open Atomic

def flushAll : TrackingService Unit := do
  let rideIds ← trackingCall .smembersActiveRides
  if rideIds.isEmpty then
    return
  rideIds.forM fun rideId => (flushRide rideId).catching fun _ => pure ()

/-- A ride operation, a flush, or the expiry of a key. What a failed flush has done
is a part of what these do. -/
inductive ReleaseOp where
  | lifecycle (op : LifecycleOp)
  | flushRide (rideId : Id)
  | flushAll
  | expireState (rideId : Id)
  | expireEvents (rideId : Id)

namespace ReleaseOp

def program (env : Environment) : ReleaseOp → TrackingService Unit
  | lifecycle op => Tracked (op.program env)
  | flushRide rideId => NebLite.flushRide rideId
  | flushAll => NebLite.flushAll
  | expireState rideId => trackingCall (.delState rideId)
  | expireEvents rideId => trackingCall (.delEvents rideId)

def step (env : Environment) (w : TrackingWorld) (op : ReleaseOp) : TrackingWorld :=
  ((op.program env).run (trackingHandle env) w).2

/-- The step finishes no ride that is tracked without marking it, and takes no state
of a tracked finished ride away. -/
def KeepsMarks (w : TrackingWorld) : ReleaseOp → Prop
  | lifecycle op => ¬ op.CancelsTracked w.world
  | expireState rideId =>
    rideId ∈ w.world.activeRides → ∀ s ∈ w.world.statusOf rideId, ¬ s.Terminal
  | _ => True

instance (w : TrackingWorld) (op : ReleaseOp) : Decidable (op.KeepsMarks w) := by
  unfold KeepsMarks
  split <;> infer_instance

end ReleaseOp

/-- After a `flushAll` that ends without failure and leaves no events pending,
no finished ride is tracked. -/
def TrackingWorld.Releases (env : Environment) (w : TrackingWorld) : Prop :=
  let (reply, v) := flushAll.run (trackingHandle env) w
  reply = .ok () → (∀ rid ∈ w.world.activeRides, v.queue rid = []) →
    ∀ rid ∈ v.world.activeRides, ∀ s ∈ v.world.statusOf rid, ¬ s.Terminal

section Flushes

variable {env : Environment} {rid k : Id}

/-- A flush of a ride whose state is marked. -/
def World.released (w : World) (rid : Id) : World :=
  if w.marked rid then
    { w with
      tripStates := Function.update w.tripStates rid none
      activeRides := w.activeRides.filter (· ≠ rid) }
  else w

theorem marked_eq (w : World) (rid : Id) :
    ((w.tripStates rid).getD (.initial rid)).completed = w.marked rid := by
  unfold World.marked
  cases w.tripStates rid <;> rfl

theorem run_cleanupRide (env : Environment) (rid : Id) (w : TrackingWorld) :
    (cleanupRide rid).run (trackingHandle env) w =
      (.ok (), { w with
        world := { w.world with
          tripStates := Function.update w.world.tripStates rid none
          activeRides := w.world.activeRides.filter (· ≠ rid) }
        queue := Function.update w.queue rid [] }) := rfl

/-- A flush empties the list of its ride, and releases the ride if it is marked. -/
theorem run_flushRide (env : Environment) (rid : Id) (w : TrackingWorld) :
    ∃ v, (flushRide rid).run (trackingHandle env) w = (.ok (), v) ∧ v.world = w.world.released rid ∧
      v.queue = Function.update w.queue rid [] := by
  have hlrange : (trackingCall (.lrangeEvents rid)).run (trackingHandle env) w = (.ok (w.queue rid), w) := rfl
  unfold flushRide World.released
  rw [Program.run_bind_ok _ hlrange]
  by_cases hempty : (w.queue rid).isEmpty
  · have hqueue : w.queue = Function.update w.queue rid [] := by
      rw [← List.isEmpty_iff.mp hempty, Function.update_eq_self]
    simp only [hempty, if_true]
    rw [Program.run_bind_ok _ (run_tracked_state rid w), marked_eq]
    split
    · rw [Program.run_bind_ok _ (run_cleanupRide env rid w)]
      exact ⟨_, rfl, rfl, rfl⟩
    · exact ⟨w, rfl, rfl, hqueue⟩
  · simp only [hempty, Bool.false_eq_true, if_false]
    obtain ⟨v, hv⟩ : ∃ v, v = (trackingHandle env (.persistFlush ((w.queue rid).map (·.entry rid))
      (((w.queue rid).map (·.summary rid)).foldl setSummary [])) (trackingHandle env (.delEvents rid) w).2).2 :=
      ⟨_, rfl⟩
    have hdel : (trackingCall (.delEvents rid)).run (trackingHandle env) w =
        (.ok (), (trackingHandle env (.delEvents rid) w).2) := rfl
    have hpersist : (trackingCall (.persistFlush ((w.queue rid).map (·.entry rid))
        (((w.queue rid).map (·.summary rid)).foldl setSummary []))).run (trackingHandle env)
        (trackingHandle env (.delEvents rid) w).2 = (.ok (), v) := by rw [hv]; rfl
    have hworld : v.world = w.world := by rw [hv]; rfl
    have hqueue : v.queue = Function.update w.queue rid [] := by rw [hv]; rfl
    have hllen : (trackingCall (.llenEvents rid)).run (trackingHandle env) v = (.ok (v.queue rid).length, v) := rfl
    have hnone : (v.queue rid).length = 0 := by rw [hqueue, Function.update_self]; rfl
    rw [Program.run_bind_ok _ hdel, Program.run_bind_ok _ hpersist,
      Program.run_bind_ok _ (run_tracked_state rid v), marked_eq, hworld]
    split
    · rw [Program.run_bind_ok _ hllen]
      simp only [hnone, if_true]
      rw [run_cleanupRide]
      refine ⟨_, rfl, ?_, ?_⟩
      · rw [← hworld]
      · rw [hqueue, Function.update_idem]
    · exact ⟨v, rfl, hworld, hqueue⟩

theorem released_rides (w : World) (rid : Id) : (w.released rid).rides = w.rides := by
  unfold World.released
  split <;> rfl

/-- What stays tracked after a flush was tracked before, in the same state. -/
theorem released_active {w : World} (hk : k ∈ (w.released rid).activeRides) :
    k ∈ w.activeRides ∧ (w.released rid).marked k = w.marked k ∧ (k = rid → w.marked k = false) := by
  unfold World.released at hk ⊢
  split at hk
  · next hmarked =>
    obtain ⟨hactive, hne⟩ := List.mem_filter.mp hk
    have hne : k ≠ rid := by simpa using hne
    rw [if_pos hmarked]
    refine ⟨hactive, ?_, fun he => (hne he).elim⟩
    simp only [World.marked, Function.update_of_ne hne]
  · next hunmarked =>
    rw [if_neg hunmarked]
    refine ⟨hk, rfl, fun he => ?_⟩
    rw [he]
    simpa using hunmarked

/-- A ride whose state is not marked is not released. -/
theorem active_released {w : World} (hk : k ∈ w.activeRides) (hunmarked : w.marked k = false) :
    k ∈ (w.released rid).activeRides ∧ (w.released rid).marked k = false := by
  unfold World.released
  split
  · next hmarked =>
    have hne : k ≠ rid := fun he => by rw [he, hmarked] at hunmarked; cases hunmarked
    refine ⟨List.mem_filter.mpr ⟨hk, by simpa using hne⟩, ?_⟩
    simp only [World.marked, Function.update_of_ne hne]
    exact hunmarked
  · exact ⟨hk, hunmarked⟩

/-- The flushes of a `flushAll`, one after the other. -/
theorem run_flushes (env : Environment) (rids : List Id) (w : TrackingWorld) :
    ∃ v, (rids.forM fun rid => (flushRide rid).catching fun _ => pure ()).run (trackingHandle env) w = (.ok (), v) ∧
      v.world = rids.foldl World.released w.world ∧ ∀ rid, v.queue rid = if rid ∈ rids then [] else w.queue rid := by
  induction rids generalizing w with
  | nil => exact ⟨w, rfl, rfl, fun rid => rfl⟩
  | cons r rids ih =>
    obtain ⟨u, hu, hworld, hqueue⟩ := run_flushRide env r w
    obtain ⟨v, hv, hall, hempty⟩ := ih u
    have hcaught : ((flushRide r).catching fun _ => pure ()).run (trackingHandle env) w = (.ok (), u) := by
      rw [Program.run_catching, hu]
    refine ⟨v, ?_, ?_, fun rid => ?_⟩
    · show (((flushRide r).catching fun _ => pure ()) >>= fun _ =>
          rids.forM fun rid => (flushRide rid).catching fun _ => pure ()).run (trackingHandle env) w = _
      rw [Program.run_bind_ok _ hcaught]
      exact hv
    · rw [hall, hworld]
      rfl
    · rw [hempty, hqueue]
      by_cases hrid : rid = r
      · subst hrid
        simp
      · simp [hrid]

theorem run_flushAll (env : Environment) (w : TrackingWorld) :
    ∃ v, flushAll.run (trackingHandle env) w = (.ok (), v) ∧
      v.world = w.world.activeRides.foldl World.released w.world ∧
      ∀ rid ∈ w.world.activeRides, v.queue rid = [] := by
  have hmembers : (trackingCall .smembersActiveRides).run (trackingHandle env) w = (.ok w.world.activeRides, w) := rfl
  unfold flushAll
  rw [Program.run_bind_ok _ hmembers]
  cases hrids : w.world.activeRides with
  | nil => exact ⟨w, rfl, rfl, by simp⟩
  | cons r rids =>
    obtain ⟨v, hv, hworld, hqueue⟩ := run_flushes env (r :: rids) w
    exact ⟨v, hv, hworld, fun rid hrid => by rw [hqueue, if_pos hrid]⟩

theorem released_all_rides (rids : List Id) (w : World) : (rids.foldl World.released w).rides = w.rides := by
  induction rids generalizing w with
  | nil => rfl
  | cons r rids ih => rw [List.foldl_cons, ih, released_rides]

/-- What stays tracked after the flushes of `rids` was tracked before, in the same state;
if it is one of them, it is not marked. -/
theorem released_all_active {rids : List Id} {w : World} (hk : k ∈ (rids.foldl World.released w).activeRides) :
    k ∈ w.activeRides ∧ (rids.foldl World.released w).marked k = w.marked k ∧
      (k ∈ rids → w.marked k = false) := by
  induction rids generalizing w with
  | nil => exact ⟨hk, rfl, fun h => by cases h⟩
  | cons r rids ih =>
    obtain ⟨hactive, hmarked, hlater⟩ := ih hk
    obtain ⟨hfirst, hsame, hown⟩ := released_active hactive
    refine ⟨hfirst, hmarked.trans hsame, fun hmem => ?_⟩
    rcases List.mem_cons.mp hmem with he | hmem
    · exact hown he
    · rw [← hsame]
      exact hlater hmem

theorem active_released_all {rids : List Id} {w : World} (hk : k ∈ w.activeRides) (hunmarked : w.marked k = false) :
    k ∈ (rids.foldl World.released w).activeRides := by
  induction rids generalizing w with
  | nil => exact hk
  | cons r rids ih =>
    obtain ⟨hactive, hstill⟩ : k ∈ (w.released r).activeRides ∧ (w.released r).marked k = false :=
      active_released hk hunmarked
    exact ih hactive hstill

/-- A `flushAll` releases every finished ride exactly when all of them are marked. -/
theorem releases_iff_marked (env : Environment) (w : TrackingWorld) : w.Releases env ↔ w.world.Marked := by
  obtain ⟨v, hrun, hworld, hqueue⟩ := run_flushAll env w
  have hstatus (k : Id) : v.world.statusOf k = w.world.statusOf k := by
    unfold World.statusOf
    rw [hworld, released_all_rides]
  unfold TrackingWorld.Releases
  rw [hrun]
  constructor
  · intro hreleases k hk s hs hterminal
    by_contra hmarked
    have hstays : k ∈ v.world.activeRides := by
      rw [hworld]
      exact active_released_all hk (by simpa using hmarked)
    exact hreleases rfl hqueue k hstays s (hstatus k ▸ hs) hterminal
  · intro hmarked _ _ k hk s hs hterminal
    rw [hworld] at hk
    obtain ⟨hactive, -, hunmarked⟩ := released_all_active hk
    have hmark := hmarked k hactive s (hstatus k ▸ hs) hterminal
    rw [hunmarked hactive] at hmark
    cases hmark

end Flushes

section Runs

variable {env : Environment} {w : TrackingWorld}

theorem World.Resembles.marked {u v : World} (h : u.Resembles v) : v.Marked ↔ u.Marked := by
  obtain ⟨events, rfl⟩ := h
  exact Iff.rfl

/-- The cancellation of a tracked ride that is not marked finishes it as it is. -/
theorem LifecycleOp.CancelsTracked.leaves {w : World} {op : LifecycleOp} (h : op.CancelsTracked w) :
    ¬ (op.step env w).Marked := by
  cases op with
  | cancelRide rid requester reason now =>
    obtain ⟨hactive, hunmarked, r, hr, hrider, hs⟩ := h
    have hrun : (LifecycleOp.cancelRide rid requester reason now).step env w =
        ((NebLite.cancelRide rid requester reason now).run (handle env) w).2 := by
      rw [LifecycleOp.step, LifecycleOp.program, run_discard]
    have htrip : SameTrip rid w ((LifecycleOp.cancelRide rid requester reason now).step env w) :=
      hrun ▸ untracked_sameTrip untracked_cancelRide rid w
    have hbecomes : ((NebLite.cancelRide rid requester reason now).run (handle env) w).2.booking rid =
        (w.booking rid).map (·.cancel requester.id) := (cancelRide_becomes w rid requester reason now).booked
    have hcanceled : ((LifecycleOp.cancelRide rid requester reason now).step env w).statusOf rid = some .canceled := by
      have hstatus : r.status ≠ .completed ∧ r.status ≠ .canceled := by
        constructor <;> intro he <;> rw [he] at hs <;> simp at hs
      rw [hrun, statusOf_eq_booking, hbecomes, World.booking_of_find hr, hrider]
      simp only [Booking.cancel, World.bookingOf, hstatus, Option.map_some, Booking.transition_status, ne_eq,
        not_true_eq_false, or_self, if_false]
      rw [if_pos hs]
    intro hmarked
    have hmark := hmarked rid (htrip.active.mpr hactive) .canceled hcanceled (.inr rfl)
    rw [htrip.marked, hunmarked] at hmark
    cases hmark
  | _ => exact h.elim

theorem World.Marked.released {w : World} (h : w.Marked) (rid : Id) : (w.released rid).Marked := by
  intro k hk s hs hterminal
  obtain ⟨hactive, hmarked, -⟩ := released_active hk
  rw [hmarked]
  refine h k hactive s ?_ hterminal
  unfold World.statusOf at hs ⊢
  rwa [released_rides] at hs

theorem World.Marked.released_all {w : World} (h : w.Marked) (rids : List Id) :
    (rids.foldl World.released w).Marked := by
  induction rids generalizing w with
  | nil => exact h
  | cons r rids ih => exact ih (h.released r)

/-- From a state in which the finished rides that are tracked are marked, exactly the
steps that keep the marks lead to such a state. -/
theorem marked_step_iff (h : w.world.Marked) (op : ReleaseOp) :
    (op.step env w).world.Marked ↔ op.KeepsMarks w := by
  cases op with
  | lifecycle lop =>
    have hresembles : (lop.step env w.world).Resembles ((ReleaseOp.lifecycle lop).step env w).world :=
      (tracked_resembles (lop.program env) (.refl w.world)).2
    rw [hresembles.marked]
    exact ⟨fun hmarked hc => hc.leaves hmarked, fun hc => h.step hc⟩
  | flushRide rid =>
    obtain ⟨v, hrun, hworld, -⟩ := run_flushRide env rid w
    have hstep : (ReleaseOp.flushRide rid).step env w = v := by
      rw [ReleaseOp.step, ReleaseOp.program, hrun]
    rw [hstep, hworld]
    exact ⟨fun _ => trivial, fun _ => h.released rid⟩
  | flushAll =>
    obtain ⟨v, hrun, hworld, -⟩ := run_flushAll env w
    have hstep : ReleaseOp.flushAll.step env w = v := by
      rw [ReleaseOp.step, ReleaseOp.program, hrun]
    rw [hstep, hworld]
    exact ⟨fun _ => trivial, fun _ => h.released_all _⟩
  | expireState rid =>
    have hgone : ((ReleaseOp.expireState rid).step env w).world.marked rid = false := by
      show ((Function.update w.world.tripStates rid none) rid).any (·.completed) = false
      rw [Function.update_self]
      rfl
    constructor
    · intro hmarked hactive s hs hterminal
      have hmark := hmarked rid hactive s hs hterminal
      rw [hgone] at hmark
      cases hmark
    · intro hkeeps k hk s hs hterminal
      have hne : k ≠ rid := by
        rintro rfl
        exact hkeeps hk s hs hterminal
      have hsame : ((ReleaseOp.expireState rid).step env w).world.marked k = w.world.marked k := by
        show ((Function.update w.world.tripStates rid none) k).any (·.completed) = _
        rw [Function.update_of_ne hne]
        rfl
      rw [hsame]
      exact h k hk s hs hterminal
  | expireEvents rid => exact ⟨fun _ => trivial, fun _ => h⟩

/-- Wherever the run stops, a `flushAll` releases every finished ride, exactly in the runs
whose steps keep the marks. -/
theorem releases_iff_keepsMarks (env : Environment) (w : TrackingWorld) (h : w.world.Marked) (ops : List ReleaseOp) :
    Runs.Always (ReleaseOp.step env) (TrackingWorld.Releases env) w ops ↔
      Runs.Meets (ReleaseOp.step env) (fun w op => op.KeepsMarks w) w ops := by
  refine Runs.always_iff_meets (I := fun _ => True) (fun _ _ _ => trivial) ?_ trivial ?_
  · intro v op _ hv
    rw [releases_iff_marked] at hv ⊢
    exact marked_step_iff hv op
  · exact (releases_iff_marked env w).mpr h

end Runs

end NebLite
