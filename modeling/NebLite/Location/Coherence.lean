import NebLite.Location.GeoKeys

/-! The driver keys under reports and cleanup passes in any order. What the keys hold of
a driver is what the latest transaction that says anything of him has left. -/

namespace NebLite

open Atomic

/-- The geo set, the sorted set and the metadata have the same members, and the position
and the metadata of a driver are those of one report, the latest. -/
structure GeoSystem.Coherent {ι : Type} (s : GeoSystem ι) : Prop where
  active : {d | s.keys.geo d ≠ none} = {d | s.keys.active.score d ≠ none}
  metadata : {d | s.keys.geo d ≠ none} = {d | s.keys.metadata d ≠ none}
  sameUpdate : ∀ d position entry, s.keys.geo d = some position → s.keys.metadata d = some entry →
    ∃ u, GeoTransaction.left d s.log = some (some u) ∧ position = u.location.coordinate ∧ entry = u.entry

namespace GeoTransaction

/-- The report of driver `d` that the transactions leave. -/
def report (d : Id) (log : List GeoTransaction) : Option LocationUpdate := (left d log).join

theorem left_cons (d : Id) (t : GeoTransaction) (log : List GeoTransaction) :
    left d (t :: log) = (t.leaves d).or (left d log) := by
  unfold left
  rw [List.findSome?_cons]
  cases t.leaves d <;> rfl

theorem left_append (d : Id) (xs ys : List GeoTransaction) : left d (xs ++ ys) = (left d xs).or (left d ys) := by
  unfold left
  exact List.findSome?_append

theorem report_store (d : Id) (u : LocationUpdate) (log : List GeoTransaction) :
    report d (.store u :: log) = if u.driverId = d then some u else report d log := by
  unfold report
  rw [left_cons, leaves]
  split <;> rfl

theorem report_remove (d : Id) (staleIds : List Id) (log : List GeoTransaction) :
    report d (.remove staleIds :: log) = if d ∈ staleIds then none else report d log := by
  unfold report
  rw [left_cons, leaves]
  split <;> rfl

end GeoTransaction

open GeoTransaction

/-- The keys hold of every driver the report that the transactions leave. -/
structure GeoKeys.Follow (w : GeoKeys) (log : List GeoTransaction) : Prop where
  geo : ∀ d, w.geo d = (report d log).map fun u => u.location.coordinate
  hashes : ∀ d, w.hashes d = (report d log).map (·.hash)
  metadata : ∀ d, w.metadata d = (report d log).map (·.entry)
  active : ∀ d, w.active.score d = (report d log).map (·.now)

theorem GeoKeys.follow_empty : GeoKeys.empty.Follow [] :=
  ⟨fun _ => rfl, fun _ => rfl, fun _ => rfl, fun _ => rfl⟩

section Follow

variable {w : GeoKeys} {log : List GeoTransaction}

theorem GeoKeys.Follow.store (h : w.Follow log) (u : LocationUpdate) :
    (w.storeDriverLocation u).Follow (.store u :: log) := by
  have hkey {α : Type} {f : LocationUpdate → α} {g : Id → Option α} (hg : ∀ d, g d = (report d log).map f) (d : Id) :
      Function.update g u.driverId (some (f u)) d = (report d (.store u :: log)).map f := by
    rw [report_store]
    by_cases hd : u.driverId = d
    · subst hd
      rw [Function.update_self, if_pos rfl]
      rfl
    · rw [Function.update_of_ne (Ne.symm hd), if_neg hd, hg d]
  constructor
  · exact hkey h.geo
  · exact hkey h.hashes
  · exact hkey h.metadata
  · intro d
    have hscore : (w.storeDriverLocation u).active.score d = Function.update w.active.score u.driverId (some u.now) d := by
      rw [Function.update_apply]
      exact SortedSet.score_add
    rw [hscore]
    exact hkey h.active d

theorem GeoKeys.Follow.remove (h : w.Follow log) (staleIds : List Id) :
    (w.removeIdle staleIds).Follow (.remove staleIds :: log) := by
  have hkey {α : Type} {f : LocationUpdate → α} {g : Id → Option α} (hg : ∀ d, g d = (report d log).map f) (d : Id) :
      (if d ∈ staleIds then none else g d) = (report d (.remove staleIds :: log)).map f := by
    rw [report_remove, hg d]
    split <;> rfl
  constructor
  · exact hkey h.geo
  · exact hkey h.hashes
  · exact hkey h.metadata
  · intro d
    have hscore : (w.removeIdle staleIds).active.score d = if d ∈ staleIds then none else w.active.score d :=
      SortedSet.score_remove
    rw [hscore]
    exact hkey h.active d

end Follow

section System

variable {ι : Type} {s : GeoSystem ι}

/-- A step of a pass is at most one transaction. -/
theorem GeoKeys.Follow.pass {w : GeoKeys} {log : List GeoTransaction} (h : w.Follow log) (p : CleanupPass) :
    (p.step w).2.Follow (ofPass p ++ log) := by
  cases p with
  | reading => exact h
  | removing cutoff staleIds => exact h.remove staleIds
  | ended => exact h

/-- Every step does to the keys what the log says. -/
theorem GeoKeys.Follow.step [DecidableEq ι] (h : s.keys.Follow s.log) (a : GeoStep ι) : (s.step a).keys.Follow (s.step a).log := by
  cases a with
  | store u => exact h.store u
  | pass i => exact h.pass (s.passes i)

theorem GeoKeys.Follow.coherent (h : s.keys.Follow s.log) : s.Coherent := by
  constructor
  · ext d
    simp [h.geo d, h.active d]
  · ext d
    simp [h.geo d, h.metadata d]
  · intro d position entry hp he
    rw [h.geo d] at hp
    rw [h.metadata d] at he
    obtain ⟨u, hu, rfl⟩ := Option.map_eq_some_iff.mp hp
    rw [hu] at he
    exact ⟨u, Option.join_eq_some_iff.mp hu, rfl, (Option.some.inj he).symm⟩

end System

/-- Whatever reports and cleanup passes come in whatever order, the keys stay coherent. -/
theorem geo_index_coherent (ι : Type) [DecidableEq ι] (clocks : ι → ℤ) (steps : List (GeoStep ι)) :
    Runs.Always GeoSystem.step GeoSystem.Coherent (.start clocks) steps := by
  refine Runs.Always.of_invariant (I := fun s => s.keys.Follow s.log) (fun s a h _ => h.step a) ?_ ?_
    (Runs.meets_true _ steps)
  · exact fun s h => h.coherent
  · exact GeoKeys.follow_empty

end NebLite
