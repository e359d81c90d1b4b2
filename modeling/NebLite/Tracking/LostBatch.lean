import NebLite.Tracking.FlushFaults
import NebLite.Rides.Lifecycle
import NebLite.Atomic.Runs
import NebLite.Atomic.Upserts

/-! Flushes that may fail, among the other calls on the tracking keys, and the
events that they lose. -/

namespace NebLite

open Atomic

/-- A call of another operation, the expiry of a state key, or a whole flush of which
`left` calls are answered before one fails. -/
inductive FlushStep where
  | call (c : Call)
  | expireState (rideId : Id)
  | flushRide (rideId : Id) (left : Option ℕ)
  | flushAllRide (rideId : Id) (left : Option ℕ)

section Steps

variable (env : Environment) (accepts : TripTrack → Bool) (e : ServiceError)

def FlushStep.next (w : FlushWorld) : FlushStep → FlushWorld
  | call c => (flushHandle env accepts (.tracking (.service c)) w).2
  | expireState rideId => (flushHandle env accepts (.tracking (.delState rideId)) w).2
  | flushRide rideId left => ((Flush.flushRide rideId).run (faultyFlush env accepts e) ⟨w, left⟩).2.store
  | flushAllRide rideId left => ((Flush.flushAllRide rideId).run (faultyFlush env accepts e) ⟨w, left⟩).2.store

/-- Once a flush of a ride has succeeded, every event that was pushed for it and that
the database takes is in `trip_track` exactly once. -/
def SavedOnce (w : FlushWorld) : Prop :=
  ∀ rideId w', (Flush.flushRide rideId).run (flushHandle env accepts) w = (.ok (), w') →
    ∀ k event, w.tracking.pushes[k]? = some (rideId, event) →
      accepts (QueuedEvent.entry rideId ⟨k, event⟩) = true →
        w'.tracking.tracks.filter (fun row => row.number = k) = [QueuedEvent.entry rideId ⟨k, event⟩]

/-- The list holds an event that the database takes and is deleted, and then another of
its events is refused or a call of the flush up to its COMMIT fails. -/
def FlushWorld.LosesBatch (w : FlushWorld) (rid : Id) (left : Option ℕ) : Prop :=
  ¬ w.Skips rid left ∧ (∃ row ∈ w.batch rid, accepts row = true) ∧ ¬ Commits accepts (w.batch rid) left 7

def FlushStep.Loses (w : FlushWorld) : FlushStep → Prop
  | flushRide rideId left => w.LosesBatch accepts rideId left
  | flushAllRide rideId left =>
    rideId ∈ w.tracking.world.activeRides ∧ left ≠ some 0 ∧ w.LosesBatch accepts rideId (left.map (· - 1))
  | _ => False

end Steps

/-- Every event is queued or stored under the number of its push, and not twice. -/
structure FlushWorld.Sound (w : FlushWorld) : Prop where
  closed : w.transaction = none
  queued : ∀ rid, ∀ q ∈ w.tracking.queue rid, w.tracking.pushes[q.number]? = some (rid, q.event)
  queuedOnce : ∀ rid, ((w.tracking.queue rid).map (·.number)).Nodup
  stored : ∀ row ∈ w.tracking.tracks, ∃ rid event,
    w.tracking.pushes[row.number]? = some (rid, event) ∧ row = QueuedEvent.entry rid ⟨row.number, event⟩
  storedOnce : (w.tracking.tracks.map (·.number)).Nodup
  apart : ∀ rid, ∀ q ∈ w.tracking.queue rid, ∀ row ∈ w.tracking.tracks, row.number ≠ q.number

/-- No event that the database takes is lost. -/
def FlushWorld.Complete (accepts : TripTrack → Bool) (w : FlushWorld) : Prop :=
  ∀ k rid event, w.tracking.pushes[k]? = some (rid, event) →
    accepts (QueuedEvent.entry rid ⟨k, event⟩) = true →
      (∃ q ∈ w.tracking.queue rid, q.number = k) ∨ ∃ row ∈ w.tracking.tracks, row.number = k

section Invariant

variable {env : Environment} {accepts : TripTrack → Bool} {e : ServiceError} {w v : FlushWorld} {rid : Id}
  {left : Option ℕ}

theorem FlushWorld.Sound.same (h : w.Sound) (htransaction : v.transaction = w.transaction)
    (hqueue : v.tracking.queue = w.tracking.queue) (hpushes : v.tracking.pushes = w.tracking.pushes)
    (htracks : v.tracking.tracks = w.tracking.tracks) : v.Sound := by
  obtain ⟨⟨world, queue, pushes, tracks, summaries⟩, transaction⟩ := v
  simp only at htransaction hqueue hpushes htracks
  subst htransaction hqueue hpushes htracks
  exact ⟨h.closed, h.queued, h.queuedOnce, h.stored, h.storedOnce, h.apart⟩

theorem FlushWorld.Complete.same (h : w.Complete accepts) (hqueue : v.tracking.queue = w.tracking.queue)
    (hpushes : v.tracking.pushes = w.tracking.pushes) (htracks : v.tracking.tracks = w.tracking.tracks) :
    v.Complete accepts := by
  unfold FlushWorld.Complete
  rw [hqueue, hpushes, htracks]
  exact h

theorem mem_batch {row : TripTrack} :
    row ∈ w.batch rid ↔ ∃ q ∈ w.tracking.queue rid, QueuedEvent.entry rid q = row := List.mem_map

/-- A flush keeps every event in its place, or moves a batch to the table, or loses it. -/
theorem FlushWorld.Sound.flushed (h : w.Sound) (hv : w.Flushed accepts rid left v) : v.Sound := by
  have hkept : ∀ j, ∀ q ∈ v.tracking.queue j, q ∈ w.tracking.queue j := by
    intro j q hq
    by_cases hj : j = rid
    · subst hj
      by_cases hs : w.Skips j left
      · exact (hv.skipped hs).1 ▸ hq
      · rw [hv.emptied hs] at hq
        cases hq
    · exact hv.others j hj ▸ hq
  have honce : ∀ j, ((v.tracking.queue j).map (·.number)).Nodup := by
    intro j
    by_cases hj : j = rid
    · subst hj
      by_cases hs : w.Skips j left
      · rw [(hv.skipped hs).1]
        exact h.queuedOnce j
      · rw [hv.emptied hs]
        exact List.nodup_nil
    · rw [hv.others j hj]
      exact h.queuedOnce j
  have hrow : ∀ row ∈ w.tracking.tracks, ∃ j event,
      v.tracking.pushes[row.number]? = some (j, event) ∧ row = QueuedEvent.entry j ⟨row.number, event⟩ :=
    hv.pushes ▸ h.stored
  by_cases hs : ¬ w.Skips rid left ∧ Commits accepts (w.batch rid) left 7
  · obtain ⟨hs, hcommits⟩ := hs
    have htracks := hv.stored hs hcommits
    refine ⟨hv.transaction, fun j q hq => hv.pushes ▸ h.queued j q (hkept j q hq), honce, ?_, ?_, ?_⟩
    · intro row hmem
      rw [htracks, List.mem_append] at hmem
      rcases hmem with hmem | hmem
      · exact hrow row hmem
      · obtain ⟨q, hq, rfl⟩ := mem_batch.mp hmem
        exact ⟨rid, q.event, hv.pushes ▸ h.queued rid q hq, rfl⟩
    · have hnumbers : (w.batch rid).map (·.number) = (w.tracking.queue rid).map (·.number) := by
        simp [FlushWorld.batch, QueuedEvent.entry, Function.comp_def]
      rw [htracks, List.map_append, hnumbers]
      refine List.Nodup.append h.storedOnce (h.queuedOnce rid) ?_
      intro k hstored hqueued
      obtain ⟨row, hmem, rfl⟩ := List.mem_map.mp hstored
      obtain ⟨q, hq, hnumber⟩ := List.mem_map.mp hqueued
      exact h.apart rid q hq row hmem hnumber.symm
    · intro j q hq row hmem
      have hj : j ≠ rid := by
        rintro rfl
        rw [hv.emptied hs] at hq
        cases hq
      rw [htracks, List.mem_append] at hmem
      rcases hmem with hmem | hmem
      · exact h.apart j q (hkept j q hq) row hmem
      · obtain ⟨q', hq', rfl⟩ := mem_batch.mp hmem
        intro hnumber
        have hj' := h.queued j q (hkept j q hq)
        have hrid := h.queued rid q' hq'
        rw [show q'.number = q.number from hnumber, hj'] at hrid
        exact hj (Prod.mk.inj (Option.some.inj hrid)).1
  · have htracks : v.tracking.tracks = w.tracking.tracks := by
      by_cases hskips : w.Skips rid left
      · exact (hv.skipped hskips).2
      · exact hv.lost hskips fun hc => hs ⟨hskips, hc⟩
    exact
      { closed := hv.transaction
        queued := fun j q hq => hv.pushes ▸ h.queued j q (hkept j q hq)
        queuedOnce := honce
        stored := htracks ▸ hrow
        storedOnce := htracks ▸ h.storedOnce
        apart := fun j q hq => htracks ▸ h.apart j q (hkept j q hq) }

theorem FlushWorld.Sound.event_eq (h : w.Sound) {q : QueuedEvent} {event : TrackEvent}
    (hq : q ∈ w.tracking.queue rid) (hpush : w.tracking.pushes[q.number]? = some (rid, event)) : q.event = event := by
  have hqueued := h.queued rid q hq
  rw [hpush] at hqueued
  exact (Prod.mk.inj (Option.some.inj hqueued)).2.symm

theorem FlushWorld.Flushed.tracks_subset (hv : w.Flushed accepts rid left v) :
    ∀ row ∈ w.tracking.tracks, row ∈ v.tracking.tracks := by
  intro row hrow
  by_cases hs : w.Skips rid left
  · rw [(hv.skipped hs).2]
    exact hrow
  by_cases hc : Commits accepts (w.batch rid) left 7
  · rw [hv.stored hs hc]
    exact List.mem_append_left _ hrow
  · rw [hv.lost hs hc]
    exact hrow

/-- Only a flush that loses its batch takes an event away that the database takes. -/
theorem FlushWorld.Complete.flushed (h : w.Complete accepts) (hsound : w.Sound) (hv : w.Flushed accepts rid left v)
    (hno : ¬ w.LosesBatch accepts rid left) : v.Complete accepts := by
  intro k j event hpush haccepts
  rw [hv.pushes] at hpush
  rcases h k j event hpush haccepts with ⟨q, hq, rfl⟩ | ⟨row, hrow, hnumber⟩
  swap
  · exact .inr ⟨row, hv.tracks_subset row hrow, hnumber⟩
  by_cases hj : j = rid
  swap
  · rw [hv.others j hj]
    exact .inl ⟨q, hq, rfl⟩
  subst hj
  by_cases hs : w.Skips j left
  · rw [(hv.skipped hs).1]
    exact .inl ⟨q, hq, rfl⟩
  obtain rfl := hsound.event_eq hq hpush
  have hbatch : q.entry j ∈ w.batch j := mem_batch.mpr ⟨q, hq, rfl⟩
  have hcommits : Commits accepts (w.batch j) left 7 := by
    by_contra hc
    exact hno ⟨hs, ⟨q.entry j, hbatch, haccepts⟩, hc⟩
  rw [hv.stored hs hcommits]
  exact .inr ⟨q.entry j, List.mem_append_right _ hbatch, rfl⟩

/-- A flush that loses its batch loses an event for good. -/
theorem FlushWorld.LosesBatch.exists_missing (hloses : w.LosesBatch accepts rid left) (h : w.Sound)
    (hv : w.Flushed accepts rid left v) : v.tracking.queue rid = [] ∧ ∃ k event,
      v.tracking.pushes[k]? = some (rid, event) ∧ accepts (QueuedEvent.entry rid ⟨k, event⟩) = true ∧
        ∀ row ∈ v.tracking.tracks, row.number ≠ k := by
  obtain ⟨hs, ⟨row, hrow, haccepts⟩, hno⟩ := hloses
  obtain ⟨q, hq, rfl⟩ := mem_batch.mp hrow
  refine ⟨hv.emptied hs, q.number, q.event, hv.pushes ▸ h.queued rid q hq, haccepts, ?_⟩
  rw [hv.lost hs hno]
  exact h.apart rid q hq

/-- The event at the end of its list, under the number of its push. -/
def FlushWorld.pushed (w : FlushWorld) (rid : Id) (event : TrackEvent) : FlushWorld where
  tracking :=
    { w.tracking with
      queue := Function.update w.tracking.queue rid
        (w.tracking.queue rid ++ [⟨w.tracking.pushes.length, event⟩])
      pushes := w.tracking.pushes ++ [(rid, event)] }
  transaction := w.transaction

/-- A call beside the flushes changes the other keys and tables only, or pushes one event. -/
theorem flushHandle_call (env : Environment) (accepts : TripTrack → Bool) (c : Call) (w : FlushWorld) :
    (∃ world, (flushHandle env accepts (.tracking (.service c)) w).2 = ⟨{ w.tracking with world }, w.transaction⟩) ∨
      ∃ rid event, (flushHandle env accepts (.tracking (.service c)) w).2 = w.pushed rid event := by
  cases c with
  | pushTripEvent rideId event => exact .inr ⟨rideId, event, rfl⟩
  | _ => exact .inl ⟨_, rfl⟩

variable {event : TrackEvent}

theorem mem_queue_pushed {j : Id} {q : QueuedEvent} : q ∈ (w.pushed rid event).tracking.queue j ↔
    q ∈ w.tracking.queue j ∨ j = rid ∧ q = ⟨w.tracking.pushes.length, event⟩ := by
  show q ∈ Function.update w.tracking.queue rid _ j ↔ _
  by_cases hj : j = rid
  · subst hj
    simp
  · rw [Function.update_of_ne hj]
    simp [hj]

theorem pushes_pushed {k : ℕ} {x : Id × TrackEvent} (h : w.tracking.pushes[k]? = some x) :
    (w.pushed rid event).tracking.pushes[k]? = some x := by
  obtain ⟨hk, -⟩ := List.getElem?_eq_some_iff.mp h
  show (w.tracking.pushes ++ [(rid, event)])[k]? = some x
  rw [List.getElem?_append_left hk, h]

theorem FlushWorld.Sound.number_lt (h : w.Sound) {q : QueuedEvent} (hq : q ∈ w.tracking.queue rid) :
    q.number < w.tracking.pushes.length :=
  (List.getElem?_eq_some_iff.mp (h.queued rid q hq)).1

theorem FlushWorld.Sound.row_lt (h : w.Sound) {row : TripTrack} (hrow : row ∈ w.tracking.tracks) :
    row.number < w.tracking.pushes.length := by
  obtain ⟨j, event, hpush, -⟩ := h.stored row hrow
  exact (List.getElem?_eq_some_iff.mp hpush).1

theorem FlushWorld.Sound.pushed (h : w.Sound) (rid : Id) (event : TrackEvent) : (w.pushed rid event).Sound := by
  have hlast : (w.pushed rid event).tracking.pushes[w.tracking.pushes.length]? = some (rid, event) := by
    show (w.tracking.pushes ++ [(rid, event)])[w.tracking.pushes.length]? = _
    simp
  refine ⟨h.closed, ?_, ?_, ?_, h.storedOnce, ?_⟩
  · intro j q hq
    rcases mem_queue_pushed.mp hq with hq | ⟨rfl, rfl⟩
    · exact pushes_pushed (h.queued j q hq)
    · exact hlast
  · intro j
    show (List.map (·.number) (Function.update w.tracking.queue rid _ j)).Nodup
    by_cases hj : j = rid
    · subst hj
      rw [Function.update_self, List.map_append]
      refine List.Nodup.append (h.queuedOnce j) (by simp) ?_
      intro k hk hlast
      obtain ⟨q, hq, rfl⟩ := List.mem_map.mp hk
      have hlt := h.number_lt hq
      have heq : q.number = w.tracking.pushes.length := by simpa using hlast
      omega
    · rw [Function.update_of_ne hj]
      exact h.queuedOnce j
  · intro row hrow
    obtain ⟨j, ev, hpush, heq⟩ := h.stored row hrow
    exact ⟨j, ev, pushes_pushed hpush, heq⟩
  · intro j q hq row hrow
    rcases mem_queue_pushed.mp hq with hq | ⟨rfl, rfl⟩
    · exact h.apart j q hq row hrow
    · have hlt := h.row_lt hrow
      exact hlt.ne

theorem FlushWorld.Complete.pushed (h : w.Complete accepts) (rid : Id) (event : TrackEvent) :
    (w.pushed rid event).Complete accepts := by
  intro k j ev hpush haccepts
  by_cases hk : k < w.tracking.pushes.length
  · have hbefore : w.tracking.pushes[k]? = some (j, ev) := by
      rw [← hpush]
      show _ = (w.tracking.pushes ++ [(rid, event)])[k]?
      rw [List.getElem?_append_left hk]
    rcases h k j ev hbefore haccepts with ⟨q, hq, hnumber⟩ | hrow
    · exact .inl ⟨q, mem_queue_pushed.mpr (.inl hq), hnumber⟩
    · exact .inr hrow
  · have hlt := (List.getElem?_eq_some_iff.mp hpush).1
    have hlength : (w.pushed rid event).tracking.pushes.length = w.tracking.pushes.length + 1 :=
      List.length_append
    obtain rfl : k = w.tracking.pushes.length := by omega
    have hlast : (w.tracking.pushes ++ [(rid, event)])[w.tracking.pushes.length]? = some (j, ev) := hpush
    rw [List.getElem?_concat_length] at hlast
    obtain ⟨rfl, rfl⟩ := Prod.mk.inj (Option.some.inj hlast)
    exact .inl ⟨_, mem_queue_pushed.mpr (.inr ⟨rfl, rfl⟩), rfl⟩

end Invariant

section Steps

variable {env : Environment} {accepts : TripTrack → Bool} {e : ServiceError} {w : FlushWorld}

/-- `flushAll` reads the rides first, and catches what a flush throws. -/
theorem store_flushAllRide (rid : Id) (left : Option ℕ) :
    ((Flush.flushAllRide rid).run (faultyFlush env accepts e) ⟨w, left⟩).2.store =
      if rid ∈ w.tracking.world.activeRides ∧ left ≠ some 0 then
        ((Flush.flushRide rid).run (faultyFlush env accepts e) ⟨w, left.map (· - 1)⟩).2.store
      else w := by
  suffices hrun : ∀ l, l = left.map (· - 0) →
      ((Flush.flushAllRide rid).run (faultyFlush env accepts e) ⟨w, l⟩).2.store = _ by
    exact hrun left (by simp)
  rintro l rfl
  unfold Flush.flushAllRide
  by_cases h0 : left = some 0
  · rw [flushCall_fails h0, if_neg fun h => h.2 h0]
  have hn0 : ∀ n, left = some n → 0 < n := later_of_ne (fun _ _ => Nat.zero_le _) h0
  have hsmembers : flushHandle env accepts (.tracking .smembersActiveRides) w =
      (.ok w.tracking.world.activeRides, w) := rfl
  rw [flushCall_ok hn0 hsmembers]
  by_cases hmem : rid ∈ w.tracking.world.activeRides
  · rw [if_pos hmem, if_pos ⟨hmem, h0⟩, Program.run_catching]
    split
    · next hrun => exact congrArg (fun x => x.2.store) hrun.symm
    · next hrun => exact congrArg (fun x => x.2.store) hrun.symm
  · rw [if_neg hmem, if_neg fun h => hmem h.1]
    rfl

/-- What one step makes of the events. -/
theorem FlushStep.next_cases (env : Environment) (accepts : TripTrack → Bool) (e : ServiceError)
    (ht : w.transaction = none) (s : FlushStep) :
    (¬ s.Loses accepts w ∧ ∃ world, s.next env accepts e w = ⟨{ w.tracking with world }, w.transaction⟩) ∨
      (¬ s.Loses accepts w ∧ ∃ rid event, s.next env accepts e w = w.pushed rid event) ∨
      ∃ rid left, w.Flushed accepts rid left (s.next env accepts e w) ∧
        (s.Loses accepts w ↔ w.LosesBatch accepts rid left) := by
  cases s with
  | call c =>
    rcases flushHandle_call env accepts c w with hsame | hpushed
    · exact .inl ⟨id, hsame⟩
    · exact .inr (.inl ⟨id, hpushed⟩)
  | expireState rideId => exact .inl ⟨id, _, rfl⟩
  | flushRide rideId left =>
    exact .inr (.inr ⟨rideId, left, (flushRide_cases accepts rideId left env e ht).1, Iff.rfl⟩)
  | flushAllRide rideId left =>
    have hnext : FlushStep.next env accepts e w (.flushAllRide rideId left) = _ :=
      store_flushAllRide rideId left
    by_cases hflush : rideId ∈ w.tracking.world.activeRides ∧ left ≠ some 0
    · rw [if_pos hflush] at hnext
      refine .inr (.inr ⟨rideId, left.map (· - 1), ?_, ?_⟩)
      · rw [hnext]
        exact (flushRide_cases accepts rideId _ env e ht).1
      · exact ⟨fun h => h.2.2, fun h => ⟨hflush.1, hflush.2, h⟩⟩
    · rw [if_neg hflush] at hnext
      exact .inl ⟨fun h => hflush ⟨h.1, h.2.1⟩, w.tracking.world, hnext⟩

theorem FlushWorld.Sound.next (h : w.Sound) (s : FlushStep) : (s.next env accepts e w).Sound := by
  rcases s.next_cases env accepts e h.closed with
    ⟨-, world, hn⟩ | ⟨-, rid, event, hn⟩ | ⟨rid, left, hv, -⟩
  · rw [hn]
    exact h.same rfl rfl rfl rfl
  · rw [hn]
    exact h.pushed rid event
  · exact h.flushed hv

theorem FlushWorld.Complete.next (h : w.Complete accepts) (hsound : w.Sound) {s : FlushStep}
    (hno : ¬ s.Loses accepts w) : (s.next env accepts e w).Complete accepts := by
  rcases s.next_cases env accepts e hsound.closed with
    ⟨-, world, hn⟩ | ⟨-, rid, event, hn⟩ | ⟨rid, left, hv, hiff⟩
  · rw [hn]
    exact h.same rfl rfl rfl
  · rw [hn]
    exact h.pushed rid event
  · exact h.flushed hsound hv fun hl => hno (hiff.mpr hl)

theorem FlushWorld.Sound.start (world : World) : FlushWorld.Sound ⟨TrackingWorld.start world, none⟩ where
  closed := rfl
  queued _ _ hq := nomatch hq
  queuedOnce _ := List.nodup_nil
  stored _ hrow := nomatch hrow
  storedOnce := List.nodup_nil
  apart _ _ hq := nomatch hq

theorem FlushWorld.Complete.start (accepts : TripTrack → Bool) (world : World) :
    FlushWorld.Complete accepts ⟨TrackingWorld.start world, none⟩ := by
  intro k rid event hpush
  exact nomatch hpush

/-- A flush that succeeds has stored what the ride's list held. -/
theorem flushRide_stores (ht : w.transaction = none) {rid : Id} {w' : FlushWorld}
    (hrun : (Flush.flushRide rid).run (flushHandle env accepts) w = (.ok (), w')) :
    w.Flushed accepts rid none w' ∧ ¬ w.LosesBatch accepts rid none := by
  have hcases := flushRide_cases accepts rid none env insertError ht
  rw [Program.run_failing_none, hrun] at hcases
  obtain ⟨hflushed, hok⟩ := hcases
  refine ⟨hflushed, ?_⟩
  rintro ⟨hs, -, hno⟩
  rcases hok rfl rfl with hempty | hall
  · exact hs (.inl hempty)
  · exact hno ⟨hall, fun n hn => nomatch hn⟩

theorem FlushWorld.Sound.savedOnce (h : w.Sound) (hc : w.Complete accepts) : SavedOnce env accepts w := by
  intro rid w' hrun k event hpush haccepts
  obtain ⟨hv, hno⟩ := flushRide_stores h.closed hrun
  have hsound := h.flushed hv
  have hcomplete := hc.flushed h hv hno
  have hpush' : w'.tracking.pushes[k]? = some (rid, event) := hv.pushes ▸ hpush
  have hempty : w'.tracking.queue rid = [] := by
    by_cases hs : w.Skips rid none
    · rw [(hv.skipped hs).1]
      rcases hs with hs | hs | hs
      · exact hs
      · cases hs
      · cases hs
    · exact hv.emptied hs
  rcases hcomplete k rid event hpush' haccepts with ⟨q, hq, -⟩ | ⟨row, hrow, rfl⟩
  · rw [hempty] at hq
    cases hq
  obtain ⟨j, ev, hstored, heq⟩ := hsound.stored row hrow
  rw [hpush'] at hstored
  obtain ⟨rfl, rfl⟩ := Prod.mk.inj (Option.some.inj hstored)
  rw [← heq]
  exact filter_key_self hsound.storedOnce hrow

theorem not_savedOnce_of_missing (h : w.Sound) {rid : Id} (hempty : w.tracking.queue rid = []) {k : ℕ}
    {event : TrackEvent} (hpush : w.tracking.pushes[k]? = some (rid, event))
    (haccepts : accepts (QueuedEvent.entry rid ⟨k, event⟩) = true)
    (hmissing : ∀ row ∈ w.tracking.tracks, row.number ≠ k) : ¬ SavedOnce env accepts w := by
  intro hsaved
  have hidle : ((Flush.flushRide rid).run (flushHandle env accepts) w).1 = .ok () := flushRide_idle hempty
  have hrun : (Flush.flushRide rid).run (flushHandle env accepts) w =
      (.ok (), ((Flush.flushRide rid).run (flushHandle env accepts) w).2) := Prod.ext hidle rfl
  have hfilter := hsaved rid _ hrun k event hpush haccepts
  obtain ⟨hv, -⟩ := flushRide_stores h.closed hrun
  rw [(hv.skipped (.inl hempty)).2] at hfilter
  have hmem : QueuedEvent.entry rid ⟨k, event⟩ ∈ w.tracking.tracks.filter (fun row => row.number = k) :=
    hfilter ▸ List.mem_singleton_self _
  exact hmissing _ (List.mem_filter.mp hmem).1 rfl

/-- Along a run every accepted event survives exactly as long as no flush loses a
batch: its list is deleted before the batch is inserted, and nothing puts it back. -/
theorem saved_once_iff (env : Environment) (accepts : TripTrack → Bool) (e : ServiceError) (world : World)
    (steps : List FlushStep) :
    Runs.Always (FlushStep.next env accepts e) (SavedOnce env accepts) ⟨TrackingWorld.start world, none⟩ steps ↔
      Runs.Meets (FlushStep.next env accepts e) (fun w s => ¬ s.Loses accepts w)
        ⟨TrackingWorld.start world, none⟩ steps := by
  constructor
  · intro hsaved
    by_contra hmeets
    obtain ⟨pre, s, post, rfl, -, hloses⟩ := Runs.exists_of_not_meets hmeets
    have hloses := not_not.mp hloses
    let w := pre.foldl (FlushStep.next env accepts e) ⟨TrackingWorld.start world, none⟩
    have hsound : w.Sound :=
      Runs.invariant (fun w s hw _ => hw.next s) (.start world) (Runs.meets_true _ pre)
    have hafter : SavedOnce env accepts (s.next env accepts e w) := by
      have hlast := hsaved (pre ++ [s]) ⟨post, by simp⟩
      rw [List.foldl_append] at hlast
      exact hlast
    rcases s.next_cases env accepts e hsound.closed with
      ⟨hno, -⟩ | ⟨hno, -⟩ | ⟨rid, left, hv, hiff⟩
    · exact hno hloses
    · exact hno hloses
    · obtain ⟨hempty, k, event, hpush, haccepts, hmissing⟩ := (hiff.mp hloses).exists_missing hsound hv
      exact not_savedOnce_of_missing (hsound.flushed hv) hempty hpush haccepts hmissing hafter
  · intro hmeets
    refine Runs.Always.of_invariant (I := fun w => w.Sound ∧ w.Complete accepts) ?_ ?_
      ⟨.start world, .start accepts world⟩ hmeets
    · rintro w s ⟨hsound, hcomplete⟩ hno
      exact ⟨hsound.next s, hcomplete.next hsound hno⟩
    · rintro w ⟨hsound, hcomplete⟩
      exact hsound.savedOnce hcomplete

/-- A location of driver 2. -/
def locationAt (recordedAt : String) : TrackEvent := ⟨.driver, 2, 1, 1, recordedAt, none, 0, 0⟩

/-- A week date is ISO 8601, and `new Date` does not read it. -/
def weekDate : String := "2009-W21-2T01:22"

/-- Ride 1 is flushed when a location with a week date has been recorded after another one. -/
def weekDateFlushed : List FlushStep :=
  [.call (.pushTripEvent 1 (locationAt "2024-05-01T10:00:00Z")), .call (.pushTripEvent 1 (locationAt weekDate)),
    .flushRide 1 none]

theorem week_date_loses_batch :
    ¬ Runs.Always (FlushStep.next (.around []) (fun row => row.recordedAt ≠ weekDate) insertError)
      (SavedOnce (.around []) fun row => row.recordedAt ≠ weekDate)
      ⟨TrackingWorld.start (World.initial []), none⟩ weekDateFlushed := by
  intro hsaved
  let accepts : TripTrack → Bool := fun row => row.recordedAt ≠ weekDate
  let w := weekDateFlushed.foldl (FlushStep.next (.around []) accepts insertError)
    ⟨TrackingWorld.start (World.initial []), none⟩
  have hok : ((Flush.flushRide 1).run (flushHandle (.around []) accepts) w).1 = .ok () := by decide +kernel
  have hpush : w.tracking.pushes[0]? = some (1, locationAt "2024-05-01T10:00:00Z") := by decide +kernel
  have hnone : ((Flush.flushRide 1).run (flushHandle (.around []) accepts) w).2.tracking.tracks = [] := by
    decide +kernel
  have hends : SavedOnce (.around []) (fun row => row.recordedAt ≠ weekDate) w := hsaved weekDateFlushed List.prefix_rfl
  rcases hrun : (Flush.flushRide 1).run (flushHandle (.around []) accepts) w with ⟨reply, w'⟩
  rw [hrun] at hok hnone
  obtain rfl : reply = .ok () := hok
  have hrow := hends 1 w' hrun 0 _ hpush (by decide +kernel)
  have hlost : w'.tracking.tracks = [] := hnone
  rw [hlost] at hrow
  cases hrow

end Steps

end NebLite
