import NebLite.Rides.Billable

/-! A transition writes the status and its history entry with two statements and
no transaction around them, so a failure between the two separates them. -/

namespace NebLite

open Atomic

/-- From `w` to `v` the ride has moved to `next` with an entry for it, or neither has happened. -/
def ChangedTogether (w v : World) (rid : Id) (next : ERideStatus) (context : Option String) : Prop :=
  (∃ current, w.statusOf rid = some current ∧ v.statusOf rid = some next ∧
    v.history = w.history ++ [⟨rid, some current, next, context⟩]) ∨
  v.statusOf rid = w.statusOf rid ∧ v.history = w.history

/-- The transition has something to write. -/
def World.TransitionDue (w : World) (rid : Id) (allowed : List ERideStatus) (next : ERideStatus) : Prop :=
  ∃ current ∈ allowed, w.statusOf rid = some current ∧ current ≠ next

/-- The call that fails is the one that reads the row back, or the INSERT of the entry. -/
def EntryLost (w : World) (rid : Id) (allowed : List ERideStatus) (next : ERideStatus) (n : ℕ) : Prop :=
  w.TransitionDue rid allowed next ∧ (n = 3 ∨ n = 4)

section Transition

variable {env : Environment} {w : World} {rid : Id} {allowed : List ERideStatus} {next : ERideStatus}
  {context : Option String}

/-- A transition that is not due only reads. -/
theorem partway_transition_idle (h : ¬ w.TransitionDue rid allowed next) (n : ℕ) :
    Partway env (transitionRideStatus rid allowed next context) n w = w := by
  unfold transitionRideStatus
  refine partway_findById (P := fun _ u => u = w) rfl rfl (fun n => ?_) n
  cases hr : w.rides.find rid with
  | none => rfl
  | some r =>
    have hstatus : w.statusOf rid = some r.status := by rw [World.statusOf, hr, Option.map_some]
    have hidle : r.status ∈ allowed → r.status = next := fun ha => by
      by_contra hne
      exact h ⟨r.status, ha, hstatus, hne⟩
    by_cases ha : r.status ∈ allowed
    · simp only [hidle ha, if_true, ite_self]
      rfl
    · simp only [ha, not_false_eq_true, if_true]
      rfl

theorem partway_transition_due {r : Ride} (hr : w.rides.find r.id = some r) (ha : r.status ∈ allowed)
    (hne : r.status ≠ next) (n : ℕ) :
    Partway env (transitionRideStatus r.id allowed next context) n w =
      { w with
        rides := if n ≤ 2 then w.rides else w.rides.put (r.rewrite (withStatus r next context))
        history := if n ≤ 4 then w.history else w.history ++ [⟨r.id, some r.status, next, context⟩] } := by
  have hprogram : transitionRideStatus r.id allowed next context =
      transitionRideStatus r.id allowed next context >>= pure := (bind_pure _).symm
  obtain ⟨hbefore, hwrite, hafter⟩ := partway_transition env context hr ha hne pure
  rw [hprogram]
  by_cases h2 : n ≤ 2
  · have h4 : n ≤ 4 := by omega
    rw [hbefore n h2, if_pos h2, if_pos h4]
  by_cases h4 : n ≤ 4
  · rw [hwrite n (by omega) h4, if_neg h2, if_pos h4]
  · obtain ⟨k, rfl⟩ : ∃ k, n = k + 5 := ⟨n - 5, by omega⟩
    rw [hafter k, if_neg h2, if_neg h4]
    rfl

theorem statusOf_updated {r : Ride} {v : World} (hr : w.rides.find r.id = some r)
    (hv : v.rides = w.rides.put (r.rewrite (withStatus r next context))) : v.statusOf r.id = some next := by
  have hwritten : (w.rides.put (r.rewrite (withStatus r next context))).find r.id =
      some (r.rewrite (withStatus r next context)) :=
    Table.find_put_self (r := r.rewrite (withStatus r next context)) hr
  rw [World.statusOf, hv, hwritten]
  rfl

/-- A failure between the two statements leaves the new status without its entry. -/
theorem transition_separates {n : ℕ} (hlost : EntryLost w rid allowed next n) :
    ¬ ChangedTogether w (Partway env (transitionRideStatus rid allowed next context) n w) rid next context := by
  obtain ⟨⟨current, ha, hs, hne⟩, hn⟩ := hlost
  obtain ⟨r, hr, rfl⟩ := Option.map_eq_some_iff.mp hs
  obtain rfl : r.id = rid := Table.key_of_find hr
  have h2 : ¬ n ≤ 2 := by omega
  have h4 : n ≤ 4 := by omega
  rw [partway_transition_due hr ha hne, if_neg h2, if_pos h4]
  rintro (⟨_, -, -, hentry⟩ | ⟨hsame, -⟩)
  · have hlength := congrArg List.length hentry
    simp only [List.length_append, List.length_singleton] at hlength
    omega
  · rw [hs, statusOf_updated hr rfl, Option.some.injEq] at hsame
    exact hne hsame.symm

theorem transition_keeps_together {n : ℕ} (h : ¬ EntryLost w rid allowed next n) :
    ChangedTogether w (Partway env (transitionRideStatus rid allowed next context) n w) rid next context := by
  by_cases hdue : w.TransitionDue rid allowed next
  swap
  · rw [partway_transition_idle hdue]
    exact .inr ⟨rfl, rfl⟩
  have hn : ¬ (n = 3 ∨ n = 4) := fun hn => h ⟨hdue, hn⟩
  obtain ⟨current, ha, hs, hne⟩ := hdue
  obtain ⟨r, hr, rfl⟩ := Option.map_eq_some_iff.mp hs
  obtain rfl : r.id = rid := Table.key_of_find hr
  rw [partway_transition_due hr ha hne]
  by_cases h2 : n ≤ 2
  · have h4 : n ≤ 4 := by omega
    rw [if_pos h2, if_pos h4]
    exact .inr ⟨rfl, rfl⟩
  · have h4 : ¬ n ≤ 4 := by omega
    rw [if_neg h2, if_neg h4]
    exact .inl ⟨r.status, hs, statusOf_updated hr rfl, rfl⟩

end Transition

/-- Whichever call of a transition fails, status and history stay together exactly if the
failure does not come between the UPDATE and the end of the INSERT. -/
theorem transition_together_iff (env : Environment) (w : World) (rid : Id) (allowed : List ERideStatus)
    (next : ERideStatus) (context : Option String) (e : ServiceError) (n : ℕ) :
    ChangedTogether w ((transitionRideStatus rid allowed next context).run
        (failing e Call.fallible (handle env)) ⟨w, some n⟩).2.store rid next context ↔
      ¬ EntryLost w rid allowed next n := by
  have hstore : ((transitionRideStatus rid allowed next context).run (failing e Call.fallible (handle env))
      ⟨w, some n⟩).2.store = Partway env (transitionRideStatus rid allowed next context) n w :=
    straight_transition.failing_store e n w
  rw [hstore]
  exact ⟨fun htogether hlost => transition_separates hlost htogether, transition_keeps_together⟩

/-- The database fails at the INSERT of the entry when rider 1 confirms driver 7. -/
theorem transition_separated : ¬ ∀ (w : World) (rid : Id) (allowed : List ERideStatus) (next : ERideStatus)
    (context : Option String) (n : ℕ), ChangedTogether w ((transitionRideStatus rid allowed next context).run
      (failing (.error "Connection terminated") Call.fallible (handle (.around [7, 8]))) ⟨w, some n⟩).2.store
      rid next context := by
  intro h
  have htogether := h ((World.initial []).after (.around [7, 8]) acceptedRun) 1 [.accepted] .enroute
    (some "Rider accepted driver confirmation") 4
  rw [straight_transition.failing_store] at htogether
  have hdue : ((World.initial []).after (.around [7, 8]) acceptedRun).TransitionDue 1 [.accepted] .enroute :=
    ⟨.accepted, List.mem_singleton.mpr rfl, by decide +kernel, by decide⟩
  exact transition_separates ⟨hdue, .inr rfl⟩ htogether

end NebLite
