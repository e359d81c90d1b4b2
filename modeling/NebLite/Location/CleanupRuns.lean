import NebLite.Location.LiveDrivers
import Mathlib.Data.List.Perm.Subperm

/-! One pass of the cleanup from its start to its end, for any size of its batches, while
drivers report in between. -/

namespace NebLite

open Atomic

/-- The next command of the loop with batches of this size. -/
def CleanupPass.stepOf (batch : ℕ) (w : GeoKeys) : CleanupPass → CleanupPass × GeoKeys
  | reading cutoff =>
    let staleIds := w.active.rangeByScore 0 cutoff batch
    (if staleIds.length = 0 then .ended else .removing cutoff staleIds, w)
  | removing cutoff staleIds =>
    (if staleIds.length < batch then .ended else .reading cutoff, w.removeIdle staleIds)
  | ended => (.ended, w)

theorem CleanupPass.step_eq (w : GeoKeys) (p : CleanupPass) : p.step w = p.stepOf cleanupDriverIdleLocBatch w := by
  cases p <;> rfl

structure Cleanup where
  keys : GeoKeys
  pass : CleanupPass

inductive CleanupEvent where
  | store (u : LocationUpdate)
  | command

def CleanupEvent.isCommand : CleanupEvent → Bool
  | store _ => false
  | command => true

/-- What a report writes is above the cutoff. -/
def CleanupEvent.Above (cutoff : ℤ) : CleanupEvent → Prop
  | store u => cutoff < u.now
  | command => True

/-- The drivers that the pass is after. -/
def GeoKeys.stale (w : GeoKeys) (cutoff : ℤ) : List Id := w.active.membersBetween 0 cutoff

/-- The two states of the keys agree on all that they hold of a driver. -/
structure GeoKeys.SameEntries (d : Id) (w v : GeoKeys) : Prop where
  geo : w.geo d = v.geo d
  hashes : w.hashes d = v.hashes d
  metadata : w.metadata d = v.metadata d
  active : w.active.score d = v.active.score d

theorem GeoKeys.SameEntries.refl {d : Id} {w : GeoKeys} : w.SameEntries d w := ⟨rfl, rfl, rfl, rfl⟩

section Stale

variable {w : GeoKeys} {cutoff : ℤ} {d : Id}

theorem GeoKeys.mem_stale : d ∈ w.stale cutoff ↔ ∃ b, w.active.score d = some b ∧ 0 ≤ b ∧ b ≤ cutoff :=
  SortedSet.mem_membersBetween

theorem GeoKeys.stale_store {u : LocationUpdate} (hu : cutoff < u.now) :
    d ∈ (w.storeDriverLocation u).stale cutoff ↔ d ≠ u.driverId ∧ d ∈ w.stale cutoff := by
  have hscore : (w.storeDriverLocation u).active.score d = if d = u.driverId then some u.now else w.active.score d :=
    SortedSet.score_add
  rw [mem_stale, mem_stale, hscore]
  by_cases hd : d = u.driverId
  · simp [hd, hu]
  · simp [hd]

theorem GeoKeys.stale_remove {ids : List Id} :
    d ∈ (w.removeIdle ids).stale cutoff ↔ d ∉ ids ∧ d ∈ w.stale cutoff := by
  have hscore : (w.removeIdle ids).active.score d = if d ∈ ids then none else w.active.score d :=
    SortedSet.score_remove
  rw [mem_stale, mem_stale, hscore]
  by_cases hd : d ∈ ids
  · simp [hd]
  · simp [hd]

theorem GeoKeys.sameEntries_remove {ids : List Id} (hd : d ∉ ids) : w.SameEntries d (w.removeIdle ids) where
  geo := by simp [removeIdle, hd]
  hashes := by simp [removeIdle, hd]
  metadata := by simp [removeIdle, hd]
  active := by
    have hscore : (w.removeIdle ids).active.score d = if d ∈ ids then none else w.active.score d :=
      SortedSet.score_remove
    rw [hscore, if_neg hd]

end Stale

namespace Cleanup

def step (batch : ℕ) (s : Cleanup) : CleanupEvent → Cleanup
  | .store u => { s with keys := s.keys.storeDriverLocation u }
  | .command =>
    let (pass, keys) := s.pass.stepOf batch s.keys
    { keys, pass }

/-- A bound for the commands that the pass still makes. -/
def remaining (cutoff : ℤ) (s : Cleanup) : ℕ :=
  match s.pass with
  | .reading _ => 2 * (s.keys.stale cutoff).length + 1
  | .removing _ ids => 2 * ((s.keys.stale cutoff).filter (· ∉ ids)).length + 2
  | .ended => 0

/-- What a batch leaves behind: nothing, where it is not a full one. -/
structure Covers (batch : ℕ) (cutoff : ℤ) (keys : GeoKeys) (ids : List Id) : Prop where
  nonempty : ids ≠ []
  short : ids.length < batch → keys.stale cutoff ⊆ ids

/-- The pass keeps its cutoff, and its end finds no stale driver. -/
def Due (batch : ℕ) (cutoff : ℤ) (s : Cleanup) : Prop :=
  match s.pass with
  | .reading c => c = cutoff
  | .removing c ids => c = cutoff ∧ Covers batch cutoff s.keys ids
  | .ended => s.keys.stale cutoff = []

variable {batch : ℕ} {cutoff : ℤ} {s : Cleanup} {a : CleanupEvent}

variable (batch s) in
theorem stale_step (ha : a.Above cutoff) : (s.step batch a).keys.stale cutoff ⊆ s.keys.stale cutoff := by
  cases a with
  | store u => exact fun d hd => ((GeoKeys.stale_store ha).mp hd).2
  | command =>
    cases hp : s.pass with
    | reading c => simp [step, hp, CleanupPass.stepOf]
    | removing c ids =>
      intro d hd
      simp only [step, hp, CleanupPass.stepOf] at hd
      exact (GeoKeys.stale_remove.mp hd).2
    | ended => simp [step, hp, CleanupPass.stepOf]

theorem stale_nodup (keys : GeoKeys) : (keys.stale cutoff).Nodup := SortedSet.membersBetween_nodup

variable (batch s) in
theorem length_stale_step (ha : a.Above cutoff) (p : Id → Bool) :
    (((s.step batch a).keys.stale cutoff).filter p).length ≤ ((s.keys.stale cutoff).filter p).length :=
  (List.Nodup.subperm ((stale_nodup _).filter p) fun _ hd => List.mem_filter.mpr
    ⟨stale_step batch s ha (List.mem_filter.mp hd).1, (List.mem_filter.mp hd).2⟩).length_le

variable (cutoff) in
/-- A read finds a batch that covers the stale drivers, or there are none. -/
theorem covers_read (hbatch : 1 ≤ batch) (keys : GeoKeys) :
    keys.active.rangeByScore 0 cutoff batch = [] ∧ keys.stale cutoff = [] ∨
      Covers batch cutoff keys (keys.active.rangeByScore 0 cutoff batch) := by
  have hread : keys.active.rangeByScore 0 cutoff batch = (keys.stale cutoff).take batch :=
    SortedSet.rangeByScore_eq_take
  rw [hread]
  by_cases hnone : keys.stale cutoff = []
  · left
    simp [hnone]
  · right
    refine ⟨?_, fun hshort => ?_⟩
    · rw [Ne, List.take_eq_nil_iff, not_or]
      exact ⟨by omega, hnone⟩
    · rw [List.length_take] at hshort
      rw [List.take_of_length_le (by omega)]
      exact List.Subset.refl _

/-- What a command does, by the place of the pass. -/
theorem step_command (hbatch : 1 ≤ batch) (h : s.Due batch cutoff) :
    (s.pass = .reading cutoff ∧ s.step batch .command = ⟨s.keys, .ended⟩ ∧ s.keys.stale cutoff = []) ∨
    (∃ ids, s.pass = .reading cutoff ∧ s.step batch .command = ⟨s.keys, .removing cutoff ids⟩ ∧
      ids ⊆ s.keys.stale cutoff ∧ Covers batch cutoff s.keys ids) ∨
    (∃ ids, s.pass = .removing cutoff ids ∧ s.step batch .command = ⟨s.keys.removeIdle ids, .ended⟩ ∧
      s.keys.stale cutoff ⊆ ids) ∨
    (∃ ids, s.pass = .removing cutoff ids ∧ s.step batch .command = ⟨s.keys.removeIdle ids, .reading cutoff⟩) ∨
    (s.pass = .ended ∧ s.step batch .command = s) := by
  obtain ⟨keys, pass⟩ := s
  cases pass with
  | reading c =>
    obtain rfl : c = cutoff := h
    rcases covers_read c hbatch keys with ⟨hread, hnone⟩ | hcovers
    · left
      exact ⟨rfl, by simp [step, CleanupPass.stepOf, hread], hnone⟩
    · right; left
      refine ⟨keys.active.rangeByScore 0 c batch, rfl, ?_, ?_, hcovers⟩
      · simp [step, CleanupPass.stepOf, hcovers.nonempty]
      · intro d hd
        exact GeoKeys.mem_stale.mpr (SortedSet.mem_rangeByScore hd)
  | removing c ids =>
    obtain ⟨rfl, hcovers⟩ := h
    by_cases hshort : ids.length < batch
    · right; right; left
      exact ⟨ids, rfl, by simp [step, CleanupPass.stepOf, hshort], hcovers.short hshort⟩
    · right; right; right; left
      exact ⟨ids, rfl, by simp [step, CleanupPass.stepOf, hshort]⟩
  | ended =>
    right; right; right; right
    exact ⟨rfl, rfl⟩

theorem Due.step (hbatch : 1 ≤ batch) (h : s.Due batch cutoff) (ha : a.Above cutoff) :
    (s.step batch a).Due batch cutoff := by
  have hstale := stale_step batch s ha
  cases a with
  | store u =>
    obtain ⟨keys, pass⟩ := s
    cases pass with
    | reading c => exact h
    | removing c ids => exact ⟨h.1, h.2.nonempty, fun hshort => List.Subset.trans hstale (h.2.short hshort)⟩
    | ended =>
      have hnone : keys.stale cutoff = [] := h
      exact List.subset_nil.mp (hnone ▸ hstale)
  | command =>
    rcases step_command hbatch h with ⟨-, hs, hnone⟩ | ⟨ids, -, hs, -, hcovers⟩ | ⟨ids, -, hs, hall⟩ |
      ⟨ids, -, hs⟩ | ⟨-, hs⟩
    · rw [hs]
      exact hnone
    · rw [hs]
      exact ⟨rfl, hcovers⟩
    · rw [hs]
      refine List.eq_nil_iff_forall_not_mem.mpr fun d hd => ?_
      obtain ⟨hout, hmem⟩ := GeoKeys.stale_remove.mp hd
      exact hout (hall hmem)
    · rw [hs]
      exact rfl
    · rw [hs]
      exact h

theorem remaining_store {u : LocationUpdate} (hu : cutoff < u.now) :
    (s.step batch (.store u)).remaining cutoff ≤ s.remaining cutoff := by
  have hlength := length_stale_step batch s (show (CleanupEvent.store u).Above cutoff from hu)
  obtain ⟨keys, pass⟩ := s
  cases pass with
  | reading c =>
    have hall := hlength fun _ => true
    simp only [List.filter_true] at hall
    simp only [step, remaining] at hall ⊢
    omega
  | removing c ids =>
    have hrest := hlength (· ∉ ids)
    simp only [step, remaining] at hrest ⊢
    omega
  | ended => exact le_refl _

/-- A command of the pass lowers the bound. -/
theorem remaining_command (hbatch : 1 ≤ batch) (h : s.Due batch cutoff) (hs : s.remaining cutoff ≠ 0) :
    (s.step batch .command).remaining cutoff < s.remaining cutoff := by
  rcases step_command hbatch h with ⟨hpass, hnext, hnone⟩ | ⟨ids, hpass, hnext, hids, hcovers⟩ |
    ⟨ids, hpass, hnext, hall⟩ | ⟨ids, hpass, hnext⟩ | ⟨hpass, hnext⟩
  · simp [hnext, remaining, hpass]
  · obtain ⟨d, hd⟩ := List.exists_mem_of_ne_nil ids hcovers.nonempty
    have hless : ((s.keys.stale cutoff).filter (· ∉ ids)).length < (s.keys.stale cutoff).length :=
      List.length_filter_lt_length_iff_exists.mpr ⟨d, hids hd, by simpa using hd⟩
    simp only [hnext, remaining, hpass]
    omega
  · simp [hnext, remaining, hpass]
  · have hsub : (s.keys.removeIdle ids).stale cutoff ⊆ (s.keys.stale cutoff).filter (· ∉ ids) := fun d hd => by
      obtain ⟨hout, hmem⟩ := GeoKeys.stale_remove.mp hd
      exact List.mem_filter.mpr ⟨hmem, by simpa using hout⟩
    have hle := (List.Nodup.subperm (stale_nodup _) hsub).length_le
    simp only [hnext, remaining, hpass]
    omega
  · simp [remaining, hpass] at hs

variable (cutoff) in
theorem remaining_eq_zero : s.remaining cutoff = 0 ↔ s.pass = .ended := by
  unfold remaining
  cases s.pass <;> simp

theorem remaining_step (hbatch : 1 ≤ batch) (h : s.Due batch cutoff) (ha : a.Above cutoff) :
    (s.step batch a).remaining cutoff ≤ s.remaining cutoff := by
  cases a with
  | store u => exact remaining_store ha
  | command =>
    by_cases hs : s.remaining cutoff = 0
    · have hended := (remaining_eq_zero cutoff).mp hs
      simp [step, hended, CleanupPass.stepOf, remaining]
    · exact (remaining_command hbatch h hs).le

/-- The driver is not stale, and not in a batch on its way. -/
structure Spares (cutoff : ℤ) (d : Id) (s : Cleanup) : Prop where
  fresh : d ∉ s.keys.stale cutoff
  unbatched : ∀ c ids, s.pass = .removing c ids → d ∉ ids

theorem Spares.step {d : Id} (hbatch : 1 ≤ batch) (hdue : s.Due batch cutoff) (h : s.Spares cutoff d)
    (ha : a.Above cutoff) : (s.step batch a).Spares cutoff d := by
  refine ⟨fun hd => h.fresh (stale_step batch s ha hd), ?_⟩
  cases a with
  | store u => exact h.unbatched
  | command =>
    rcases step_command hbatch hdue with ⟨-, hnext, -⟩ | ⟨batched, -, hnext, hids, -⟩ | ⟨ids, -, hnext, -⟩ |
      ⟨ids, -, hnext⟩ | ⟨-, hnext⟩
    · simp [hnext]
    · rintro c ids hpass hd
      rw [hnext] at hpass
      obtain ⟨-, rfl⟩ := CleanupPass.removing.inj hpass
      exact h.fresh (hids hd)
    · simp [hnext]
    · simp [hnext]
    · rw [hnext]
      exact h.unbatched

/-- No command of the pass touches what the keys hold of such a driver. -/
theorem Spares.sameEntries {d : Id} (h : s.Spares cutoff d) :
    s.keys.SameEntries d (s.step batch .command).keys := by
  cases hpass : s.pass with
  | reading c => simpa [Cleanup.step, hpass, CleanupPass.stepOf] using GeoKeys.SameEntries.refl
  | removing c ids =>
    simpa [Cleanup.step, hpass, CleanupPass.stepOf] using GeoKeys.sameEntries_remove (h.unbatched c ids hpass)
  | ended => simpa [Cleanup.step, hpass, CleanupPass.stepOf] using GeoKeys.SameEntries.refl

end Cleanup

/-- The pass ends, whatever reports come in between; at its end no score is from 0 to the
cutoff; and what the keys hold of a driver with a later score no command of it touches. -/
theorem idle_cleanup_complete (batch : ℕ) (hbatch : 1 ≤ batch) (cutoff : ℤ) (keys : GeoKeys)
    (steps : List CleanupEvent) (hsteps : ∀ a ∈ steps, a.Above cutoff) :
    let start : Cleanup := ⟨keys, .reading cutoff⟩
    (2 * (keys.stale cutoff).length + 1 ≤ steps.countP (·.isCommand) →
      (steps.foldl (Cleanup.step batch) start).pass = .ended) ∧
    ((steps.foldl (Cleanup.step batch) start).pass = .ended →
      ∀ d b, (steps.foldl (Cleanup.step batch) start).keys.active.score d = some b → ¬ (0 ≤ b ∧ b ≤ cutoff)) ∧
    ∀ d, (∃ b, keys.active.score d = some b ∧ cutoff < b) →
      Runs.Meets (Cleanup.step batch) (fun s a => a.isCommand → s.keys.SameEntries d (s.step batch a).keys)
        start steps := by
  intro start
  have hok : Runs.Meets (Cleanup.step batch) (fun _ a => a.Above cutoff) start steps := Runs.meets_of_forall hsteps
  have hstart : start.Due batch cutoff := rfl
  have hdue := Runs.invariant (fun s a h ha => Cleanup.Due.step hbatch h ha) hstart hok
  refine ⟨fun hcount => ?_, fun hended d b hb hstale => ?_, fun d hd => ?_⟩
  · rw [← Cleanup.remaining_eq_zero cutoff]
    refine Runs.measure_exhausted (fun s a h ha => Cleanup.Due.step hbatch h ha)
      (fun s a h ha => Cleanup.remaining_step hbatch h ha) ?_ hstart hok hcount
    intro s a h ha hcommand hs
    cases a with
    | store u => cases hcommand
    | command => exact Cleanup.remaining_command hbatch h hs
  · have hmem : d ∈ (steps.foldl (Cleanup.step batch) start).keys.stale cutoff :=
      GeoKeys.mem_stale.mpr ⟨b, hb, hstale⟩
    have hnone : (steps.foldl (Cleanup.step batch) start).keys.stale cutoff = [] := by
      unfold Cleanup.Due at hdue
      rwa [hended] at hdue
    simp [hnone] at hmem
  · obtain ⟨b, hb, hlate⟩ := hd
    have hspares : start.Spares cutoff d := by
      refine ⟨fun hmem => ?_, fun c ids h => nomatch h⟩
      obtain ⟨b', hb', -, hle⟩ := GeoKeys.mem_stale.mp hmem
      have hsame : b' = b := Option.some.inj (hb'.symm.trans hb)
      omega
    refine Runs.Meets.of_invariant (I := fun s => s.Due batch cutoff ∧ s.Spares cutoff d)
      (fun s a h ha => ⟨h.1.step hbatch ha, h.2.step hbatch h.1 ha⟩) ?_ ⟨hstart, hspares⟩ hok
    intro s a h ha hcommand
    cases a with
    | store u => cases hcommand
    | command => exact h.2.sameEntries

/-- An idle driver who reports while his batch of one is on its way. -/
theorem idle_cleanup_complete_one :
    ([.command, .store ⟨1, ⟨⟨2, 2⟩, none⟩, "10:10", 600000⟩, .command, .command].foldl (Cleanup.step 1)
      ⟨GeoKeys.empty.storeDriverLocation ⟨1, ⟨⟨1, 1⟩, none⟩, "10:00", 20⟩, .reading 300000⟩).pass = .ended :=
  (idle_cleanup_complete 1 (le_refl 1) 300000 (GeoKeys.empty.storeDriverLocation ⟨1, ⟨⟨1, 1⟩, none⟩, "10:00", 20⟩)
    [.command, .store ⟨1, ⟨⟨2, 2⟩, none⟩, "10:10", 600000⟩, .command, .command]
    (by simp [CleanupEvent.Above])).1 (by decide +kernel)

section System

/-- One pass among the reports of the drivers, as a cleanup with the batches of the source. -/
def GeoSystem.cleanup (s : GeoSystem Unit) : Cleanup := ⟨s.keys, s.passes ()⟩

def GeoStep.event : GeoStep Unit → CleanupEvent
  | store u => .store u
  | pass _ => .command

theorem GeoSystem.cleanup_step (s : GeoSystem Unit) (a : GeoStep Unit) :
    (s.step a).cleanup = s.cleanup.step cleanupDriverIdleLocBatch a.event := by
  cases a with
  | store u => rfl
  | pass i =>
    have hpass : (s.step (.pass i)).passes i = ((s.passes i).step s.keys).1 := by
      simp [GeoSystem.step]
    have hkeys : (s.step (.pass i)).keys = ((s.passes i).step s.keys).2 := rfl
    rw [cleanup, hpass, hkeys, CleanupPass.step_eq]
    rfl

theorem GeoSystem.cleanup_run (s : GeoSystem Unit) (steps : List (GeoStep Unit)) :
    (steps.foldl GeoSystem.step s).cleanup =
      (steps.map GeoStep.event).foldl (Cleanup.step cleanupDriverIdleLocBatch) s.cleanup := by
  induction steps generalizing s with
  | nil => rfl
  | cons a steps ih => rw [List.foldl_cons, ih, GeoSystem.cleanup_step, List.map_cons, List.foldl_cons]

end System

end NebLite
