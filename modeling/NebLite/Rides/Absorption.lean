import NebLite.Rides.Matching
import NebLite.Rides.Snapshots
import NebLite.Rides.RideRow

/-! When the terminal statuses of a ride absorb under concurrent operations. -/

namespace NebLite

open Atomic

variable {env : Environment} {rid : Id} {ι : Type} [DecidableEq ι]

/-- Concurrent lifecycle operations. -/
def lifecycleCalls (env : Environment) (ops : ι → LifecycleOp) (i : ι) : Service Unit :=
  (ops i).program env

/-- The UPDATE that process `i` is about to execute on a ride with a terminal
status goes back to a read that leaves it alone; its snapshot is the last but
one of the reads. -/
def LeavesTerminalRow (rid : Id) (ops : ι → LifecycleOp)
    (c : Pool ι Call Call.Answer ServiceError Unit World) (i : ι) : Prop :=
  match (c.procs i).pending, c.store.statusOf rid with
  | some (.updateRideRow _), some t => t.Terminal →
    ∃ σ ∈ (ReadLog.ofTrace i c.trace).reads[1]?,
      LeavesTerminal (ops i).finish (ReadLog.ofTrace i c.trace).wrote σ t
  | _, _ => True

instance (rid : Id) (ops : ι → LifecycleOp) (c : Pool ι Call Call.Answer ServiceError Unit World)
    (i : ι) : Decidable (LeavesTerminalRow rid ops c i) := by
  unfold LeavesTerminalRow
  induction (c.procs i).pending using Option.casesOn with
  | none => infer_instance
  | some op =>
    induction c.store.statusOf rid using Option.casesOn <;> induction op using Call.casesOn <;>
      infer_instance

/-- What a process writes is justified by its part of the trace. -/
def Accounted (env : Environment) (rid : Id) (ops : ι → LifecycleOp)
    (c : Pool ι Call Call.Answer ServiceError Unit World) : Prop :=
  ∀ i, Traced env rid (ops i).finish (ReadLog.ofTrace i c.trace) (c.procs i)

theorem accounted_start {ops : ι → LifecycleOp} (hops : ∀ i, (ops i).ride = some rid) (w : World) :
    Accounted env rid ops (Pool.start (lifecycleCalls env ops) w) :=
  fun i => (ops i).traced env (hops i)

theorem ReadLog.ofTrace_eq (i : ι) (trace : List (ι × Event Call Call.Answer ServiceError)) :
    ReadLog.ofTrace i trace = Pool.log ReadLog.after .empty i trace := by
  induction trace with
  | nil => rfl
  | cons e trace ih =>
    unfold ReadLog.ofTrace Pool.log
    rw [ih]

/-- A process whose writes are justified by its reads goes on so. -/
theorem traced_step {finish : Option (List ERideStatus × ERideStatus)}
    {c : Pool ι Call Call.Answer ServiceError Unit World} {j : ι}
    (h : Traced env rid finish (ReadLog.ofTrace j c.trace) (c.procs j)) (i : ι) :
    Traced env rid finish (ReadLog.ofTrace j (c.step (handle env) i).trace)
      ((c.step (handle env) i).procs j) := by
  rw [ReadLog.ofTrace_eq] at h ⊢
  refine Outline.Follows.log_step ?_ trivial h i
  exact fun _ _ _ _ hm => hm.1

theorem Accounted.step {ops : ι → LifecycleOp} {c : Pool ι Call Call.Answer ServiceError Unit World}
    (h : Accounted env rid ops c) (i : ι) : Accounted env rid ops (c.step (handle env) i) :=
  fun j => traced_step (h j) i

theorem statusOf_handle {w : World} {r : Ride} (hr : w.rides.find rid = some r) (op : Call) :
    (handle env op w).2.statusOf rid = some (op.onRide r).status := by
  have hid : r.id = rid := Table.key_of_find hr
  subst hid
  rw [World.statusOf, find_handle env op hr]
  rfl

/-- Calls other than the UPDATE of `updateRide` leave the status alone. -/
theorem onRide_status {op : Call} (r : Ride) (h : ∀ m, op ≠ .updateRideRow m) :
    (op.onRide r).status = r.status := by
  obtain hr | ⟨_, hr⟩ | ⟨_, _, hr⟩ | ⟨m, hm, -⟩ := op.onRide_cases r
  · rw [hr]
  · rw [hr]
  · rw [hr]
  · exact absurd hm (h m)

/-- On a terminal row exactly the steps with a matching snapshot keep the status. -/
theorem Accounted.kept_iff {ops : ι → LifecycleOp} {c : Pool ι Call Call.Answer ServiceError Unit World}
    (h : Accounted env rid ops c) (i : ι) {t : ERideStatus} (hs : c.store.statusOf rid = some t)
    (ht : t.Terminal) :
    (c.step (handle env) i).store.statusOf rid = some t ↔ LeavesTerminalRow rid ops c i := by
  obtain ⟨hp, hstep⟩ | ⟨op, next, hi, hstep⟩ := c.step_cases (handle env) i
  · rw [hstep]
    simp [LeavesTerminalRow, hp, hs]
  · obtain ⟨r, hr, rfl⟩ := Option.map_eq_some_iff.mp hs
    have hi' := h i
    rw [hi] at hi'
    obtain ⟨l, ⟨-, hm⟩, -⟩ := hi' c.store trivial
    rw [hstep, statusOf_handle hr, Option.some.injEq]
    by_cases hop : ∃ m, op = .updateRideRow m
    · obtain ⟨m, rfl⟩ := hop
      obtain ⟨hid, current, σ, rest, hl, hj⟩ := hm m rfl
      have hrow : ((Call.updateRideRow m).onRide r).status = m.status := by
        have hrid : r.id = rid := Table.key_of_find hr
        rw [Call.onRide, if_pos (hid.trans hrid.symm)]
        rfl
      rw [hrow, hj.terminal_iff ht]
      simp [LeavesTerminalRow, hi, Program.pending, hs, hl, ht]
    · rw [onRide_status r (fun m he => hop ⟨m, he⟩)]
      refine iff_of_true rfl ?_
      unfold LeavesTerminalRow
      rw [hi, Program.pending]
      split
      · next m t he _ => exact absurd ⟨m, Option.some.inj he⟩ hop
      · trivial

/-- A terminal status, once stored, stays exactly in the runs in which every
UPDATE on a terminal row leaves it alone. -/
theorem terminal_absorbing_iff (env : Environment) (rid : Id) (ops : ι → LifecycleOp)
    (hops : ∀ i, (ops i).ride = some rid) (w : World) (sched : List ι) :
    Runs.Absorbs (Pool.step (handle env)) (fun c => c.store.statusOf rid)
        (fun s => ∃ t, s = some t ∧ t.Terminal) (Pool.start (lifecycleCalls env ops) w) sched ↔
      Pool.Meets (handle env) (LeavesTerminalRow rid ops) (Pool.start (lifecycleCalls env ops) w)
        sched := by
  refine Runs.absorbs_iff_meets (I := Accounted env rid ops) (fun c i hc => hc.step i) ?_ ?_
    (accounted_start hops w)
  · rintro c i hc ⟨t, hs, ht⟩
    rw [hs]
    exact hc.kept_iff i hs ht
  · intro c i _ hf
    unfold LeavesTerminalRow
    split
    · next m t hp hs => exact fun ht => absurd ⟨t, hs, ht⟩ hf
    · trivial

/-- Driver 7 takes his acceptance back while the rider cancels. -/
def rejectAndCancel (b : Bool) : LifecycleOp :=
  if b then .rejectRideByDriver 1 7 none 2 else .cancelRide 1 ⟨some 1, some .rider⟩ none 2

theorem terminal_absorbing_one_by_one :
    Runs.Absorbs (Pool.step (handle (.around [7, 8]))) (fun c => c.store.statusOf 1)
      (fun s => ∃ t, s = some t ∧ t.Terminal)
      (Pool.start (lifecycleCalls (.around [7, 8]) rejectAndCancel)
        ((World.initial []).after (.around [7, 8]) acceptedRun))
      (List.replicate 30 true ++ List.replicate 30 false) :=
  (terminal_absorbing_iff (.around [7, 8]) 1 rejectAndCancel (by decide) _ _).mpr (by decide +kernel)

/-- The driver's rejection has read the accepted ride and his candidate before
the cancellation runs, and writes back what it has read. -/
theorem canceled_ride_reopened :
    ¬ Runs.Absorbs (Pool.step (handle (.around [7, 8]))) (fun c => c.store.statusOf 1)
      (fun s => ∃ t, s = some t ∧ t.Terminal)
      (Pool.start (lifecycleCalls (.around [7, 8]) rejectAndCancel)
        ((World.initial []).after (.around [7, 8]) acceptedRun))
      ([true, true] ++ List.replicate 30 false ++ List.replicate 30 true) := by
  intro h
  have hlast := h ([true, true] ++ List.replicate 30 false) (List.replicate 30 true) List.prefix_rfl
    ⟨.canceled, by decide +kernel, by decide⟩
  revert hlast
  decide +kernel

end NebLite
