import NebLite.Location.Coherence

/-! Which drivers a batch of the cleanup removes. The ids are read by one command and
removed by a later one, whatever has been reported in between. -/

namespace NebLite

open Atomic GeoTransaction

namespace GeoSystem

variable {ι : Type}

/-- The step is a batch that removes a driver whose score is above the cutoff. -/
def Evicts (s : GeoSystem ι) : GeoStep ι → Prop
  | .store _ => False
  | .pass i => ∃ cutoff staleIds, s.passes i = .removing cutoff staleIds ∧
      ∃ d ∈ staleIds, ∃ score ∈ s.keys.active.score d, cutoff < score

/-- The step is a batch, and a driver of the batch has reported later than the cutoff
since the batch was read, and has not been removed again. -/
def ReportedSince (s : GeoSystem ι) : GeoStep ι → Prop
  | .store _ => False
  | .pass i => ∃ cutoff staleIds, s.passes i = .removing cutoff staleIds ∧
      ∃ d ∈ staleIds, ∃ u, left d (s.since i) = some (some u) ∧ cutoff < u.now

/-- When the batch of pass `i` was read, its drivers were idle. -/
def IdleAtRead (s : GeoSystem ι) (i : ι) : Prop :=
  ∃ earlier, s.log = s.since i ++ earlier ∧
    ∀ cutoff staleIds, s.passes i = .removing cutoff staleIds →
      ∀ d ∈ staleIds, ∀ u ∈ report d earlier, u.now ≤ cutoff

/-- The keys follow the log, and every batch is one that was read. -/
structure Sound (s : GeoSystem ι) : Prop where
  follow : s.keys.Follow s.log
  idle : ∀ i, s.IdleAtRead i

variable {s : GeoSystem ι}

/-- What is read are drivers without a later report. -/
theorem idle_of_read {w : GeoKeys} {log : List GeoTransaction} (h : w.Follow log) {cutoff : ℤ} {limit : ℕ} {d : Id}
    (hd : d ∈ w.active.rangeByScore 0 cutoff limit) {u : LocationUpdate} (hu : u ∈ report d log) :
    u.now ≤ cutoff := by
  obtain ⟨score, hscore, -, hle⟩ := SortedSet.mem_rangeByScore hd
  rw [h.active d, Option.mem_def.mp hu] at hscore
  rw [← Option.some.inj hscore] at hle
  exact hle

/-- Transactions of others leave a batch as it was read. -/
theorem IdleAtRead.later {i : ι} (h : s.IdleAtRead i) {t : GeoSystem ι} (done : List GeoTransaction)
    (hlog : t.log = done ++ s.log) (hsince : t.since i = done ++ s.since i) (hpass : t.passes i = s.passes i) :
    t.IdleAtRead i := by
  obtain ⟨earlier, hearlier, hidle⟩ := h
  refine ⟨earlier, ?_, ?_⟩
  · rw [hlog, hsince, hearlier, List.append_assoc]
  · rw [hpass]
    exact hidle

theorem Sound.step [DecidableEq ι] (h : s.Sound) (a : GeoStep ι) : (s.step a).Sound := by
  refine ⟨h.follow.step a, fun j => ?_⟩
  cases a with
  | store u => exact (h.idle j).later [.store u] rfl rfl rfl
  | pass i =>
    by_cases hj : j = i
    swap
    · refine (h.idle j).later (ofPass (s.passes i)) rfl ?_ (Function.update_of_ne hj _ _)
      cases hp : s.passes i with
      | reading => simp [GeoSystem.step, hp, Function.update_of_ne hj]
      | removing | ended => simp [GeoSystem.step, hp]
    subst hj
    have hpass : (s.step (.pass j)).passes j = ((s.passes j).step s.keys).1 := Function.update_self _ _ _
    cases hp : s.passes j with
    | reading cutoff =>
      refine ⟨s.log, ?_, fun cutoff' staleIds hremoving d hd u hu => ?_⟩
      · simp [GeoSystem.step, hp, ofPass]
      rw [hpass, hp] at hremoving
      simp only [CleanupPass.step] at hremoving
      split at hremoving
      · cases hremoving
      · obtain ⟨rfl, rfl⟩ := CleanupPass.removing.inj hremoving
        exact idle_of_read h.follow hd hu
    | removing cutoff staleIds =>
      obtain ⟨earlier, hearlier, -⟩ := h.idle j
      refine ⟨earlier, ?_, fun cutoff' staleIds' hremoving => ?_⟩
      · simp [GeoSystem.step, hp, hearlier]
      rw [hpass, hp] at hremoving
      simp only [CleanupPass.step] at hremoving
      split at hremoving <;> cases hremoving
    | ended =>
      obtain ⟨earlier, hearlier, -⟩ := h.idle j
      refine ⟨earlier, ?_, fun cutoff' staleIds' hremoving => ?_⟩
      · simp [GeoSystem.step, hp, hearlier, ofPass]
      rw [hpass, hp] at hremoving
      cases hremoving

/-- A driver of a batch is live exactly when he has reported since the read. -/
theorem Sound.live_iff (h : s.Sound) {i : ι} {cutoff : ℤ} {staleIds : List Id}
    (hp : s.passes i = .removing cutoff staleIds) {d : Id} (hd : d ∈ staleIds) :
    (∃ score ∈ s.keys.active.score d, cutoff < score) ↔
      ∃ u, left d (s.since i) = some (some u) ∧ cutoff < u.now := by
  obtain ⟨earlier, hearlier, hidle⟩ := h.idle i
  have hscore : s.keys.active.score d = (report d s.log).map (·.now) := h.follow.active d
  have hreport : report d s.log = ((left d (s.since i)).or (left d earlier)).join := by
    unfold report
    rw [hearlier, left_append]
  rw [hscore, hreport]
  cases hleft : left d (s.since i) with
  | some o =>
    cases o with
    | none => simp
    | some u => simp
  | none =>
    -- nothing has happened to him since
    simp only [Option.none_or, reduceCtorEq, false_and, exists_false, iff_false]
    rintro ⟨score, hmem, hlt⟩
    obtain ⟨u, hu, rfl⟩ := Option.map_eq_some_iff.mp hmem
    have hle : u.now ≤ cutoff := hidle cutoff staleIds hp d hd u hu
    omega

theorem Sound.evicts_iff (h : s.Sound) (a : GeoStep ι) : s.Evicts a ↔ s.ReportedSince a := by
  cases a with
  | store u => exact Iff.rfl
  | pass i =>
    constructor
    · rintro ⟨cutoff, staleIds, hp, d, hd, hlive⟩
      exact ⟨cutoff, staleIds, hp, d, hd, (h.live_iff hp hd).mp hlive⟩
    · rintro ⟨cutoff, staleIds, hp, d, hd, hreported⟩
      exact ⟨cutoff, staleIds, hp, d, hd, (h.live_iff hp hd).mpr hreported⟩

theorem sound_start (clocks : ι → ℤ) : (start clocks).Sound where
  follow := GeoKeys.follow_empty
  idle _ := ⟨[], rfl, fun _ _ h => nomatch h⟩

end GeoSystem

open GeoSystem

/-- A batch of the cleanup removes a live driver exactly when one of its drivers has
reported between its read and its transaction. -/
theorem evicts_iff_reportedSince (ι : Type) [DecidableEq ι] (clocks : ι → ℤ) (steps : List (GeoStep ι)) :
    Runs.Meets GeoSystem.step (fun s a => ¬ s.Evicts a) (.start clocks) steps ↔
      Runs.Meets GeoSystem.step (fun s a => ¬ s.ReportedSince a) (.start clocks) steps :=
  Runs.meets_congr (fun _ a h => Sound.step h a) (fun _ a h => not_congr (h.evicts_iff a)) (sound_start clocks)

/-- Driver 1 has been idle, and reports while the batch with him is on its way. -/
def reportBetween : List (GeoStep Unit) :=
  [.store ⟨1, ⟨⟨1, 1⟩, none⟩, "10:00", 0⟩, .pass (), .store ⟨1, ⟨⟨2, 2⟩, none⟩, "10:10", 600000⟩, .pass ()]

theorem live_driver_evicted :
    ¬ Runs.Meets GeoSystem.step (fun s a => ¬ s.Evicts a) (.start fun _ => 600000) reportBetween := by
  rintro ⟨-, -, -, hlast, -⟩
  refine hlast ⟨300000, [1], rfl, 1, ?_, 600000, ?_, ?_⟩
  · decide
  · decide +kernel
  · decide

end NebLite
