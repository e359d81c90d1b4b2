import Mathlib.Data.List.Nodup
import Mathlib.Logic.Function.Basic

/-! Queues of jobs with ids. A job that exists, waiting, active or kept after it has
failed, makes an addition under its id a silent no-op. -/

namespace Atomic

inductive JobStatus where
  | waiting
  | active
  | failed
  deriving DecidableEq

structure Job (δ : Type) where
  status : JobStatus
  data : δ

/-- The jobs by their ids, and the ids of those that are kept after they have failed, the
latest first. -/
structure JobQueue (κ δ : Type) where
  job : κ → Option (Job δ)
  failures : List κ
  failed_iff : ∀ k, k ∈ failures ↔ ∃ d, job k = some ⟨.failed, d⟩
  distinct : failures.Nodup

namespace JobQueue

variable {κ δ : Type}

def empty : JobQueue κ δ where
  job _ := none
  failures := []
  failed_iff k := by simp
  distinct := .nil

/-- No job of the id is to be processed any more. -/
def Drained (q : JobQueue κ δ) (k : κ) : Prop := ∀ j ∈ q.job k, j.status = .failed

theorem mem_take_iff {l : List κ} (h : l.Nodup) (n : ℕ) {x : κ} : x ∈ l.take n ↔ x ∈ l ∧ x ∉ l.drop n := by
  have hsplit : (l.take n ++ l.drop n).Nodup := by rwa [List.take_append_drop]
  have hdisjoint := List.disjoint_of_nodup_append hsplit
  constructor
  · exact fun hx => ⟨List.mem_of_mem_take hx, fun hd => hdisjoint hx hd⟩
  · rintro ⟨hx, hd⟩
    rw [← List.take_append_drop n l, List.mem_append] at hx
    exact hx.resolve_right hd

theorem notMem_failures (q : JobQueue κ δ) {k : κ} {d : δ} (h : q.job k = some ⟨.active, d⟩) : k ∉ q.failures := by
  rw [q.failed_iff, h]
  simp

/-- Every job of `q'` is one of `q`, with the same data. -/
def Within (q' q : JobQueue κ δ) : Prop := ∀ x j', q'.job x = some j' → ∃ j, q.job x = some j ∧ j.data = j'.data

theorem within_refl (q : JobQueue κ δ) : q.Within q := fun _ j h => ⟨j, h, rfl⟩

variable [DecidableEq κ]

/-- The job of the id, where its status is `status`, becomes `j`, which has not failed. -/
def move (q : JobQueue κ δ) (k : κ) (j : Option (Job δ)) (hnow : ∀ d, q.job k ≠ some ⟨.failed, d⟩)
    (hnext : ∀ d, j ≠ some ⟨.failed, d⟩) : JobQueue κ δ where
  job := Function.update q.job k j
  failures := q.failures
  failed_iff x := by
    rw [q.failed_iff, Function.update_apply]
    by_cases hx : x = k
    · subst hx
      simp [hnow, hnext]
    · rw [if_neg hx]
  distinct := q.distinct

def add (q : JobQueue κ δ) (k : κ) (d : δ) : JobQueue κ δ :=
  if h : q.job k = none then q.move k (some ⟨.waiting, d⟩) (by simp [h]) (by simp) else q

/-- A worker takes the job. -/
def take (q : JobQueue κ δ) (k : κ) : JobQueue κ δ :=
  match h : q.job k with
  | some ⟨.waiting, d⟩ => q.move k (some ⟨.active, d⟩) (by simp [h]) (by simp)
  | _ => q

/-- The active job succeeds, and is removed. -/
def complete (q : JobQueue κ δ) (k : κ) : JobQueue κ δ :=
  match h : q.job k with
  | some ⟨.active, _⟩ => q.move k none (by simp [h]) (by simp)
  | _ => q

/-- The active job fails, and the latest `kept` failed jobs are kept. -/
def fail (kept : ℕ) (q : JobQueue κ δ) (k : κ) : JobQueue κ δ :=
  match h : q.job k with
  | some ⟨.active, d⟩ =>
    { job := fun x => if x ∈ (k :: q.failures).drop kept then none else
        Function.update q.job k (some ⟨.failed, d⟩) x
      failures := (k :: q.failures).take kept
      failed_iff := by
        intro x
        have hall : x ∈ k :: q.failures ↔ ∃ e, Function.update q.job k (some ⟨.failed, d⟩) x = some ⟨.failed, e⟩ := by
          rw [List.mem_cons, q.failed_iff, Function.update_apply]
          by_cases hx : x = k <;> simp [hx]
        rw [mem_take_iff (List.nodup_cons.mpr ⟨q.notMem_failures h, q.distinct⟩), hall]
        by_cases hdropped : x ∈ (k :: q.failures).drop kept <;> simp [hdropped]
      distinct := (List.nodup_cons.mpr ⟨q.notMem_failures h, q.distinct⟩).sublist (List.take_sublist _ _) }
  | _ => q

/-- A job that no worker holds is removed. -/
def remove (q : JobQueue κ δ) (k : κ) : JobQueue κ δ :=
  if (q.job k).any (fun j => j.status = .active) then q else
  { job := Function.update q.job k none
    failures := q.failures.filter (· ≠ k)
    failed_iff := by
      intro x
      rw [List.mem_filter, q.failed_iff, Function.update_apply]
      by_cases hx : x = k <;> simp [hx]
    distinct := q.distinct.filter _ }

/-- The worker of an active job is gone, and the job waits again. -/
def stall (q : JobQueue κ δ) (k : κ) : JobQueue κ δ :=
  match h : q.job k with
  | some ⟨.active, d⟩ => q.move k (some ⟨.waiting, d⟩) (by simp [h]) (by simp)
  | _ => q

section Jobs

variable {q : JobQueue κ δ} {k x : κ} {d : δ} {kept : ℕ}

/-- An addition is a job exactly where none exists. -/
theorem add_of_none (h : q.job k = none) (d : δ) : (q.add k d).job = Function.update q.job k (some ⟨.waiting, d⟩) := by
  unfold add
  rw [dif_pos h]
  rfl

theorem add_of_some {j : Job δ} (h : q.job k = some j) (d : δ) : q.add k d = q := by
  unfold add
  rw [dif_neg]
  simp [h]

theorem take_of_waiting (h : q.job k = some ⟨.waiting, d⟩) :
    (q.take k).job = Function.update q.job k (some ⟨.active, d⟩) := by
  unfold take
  split
  · next e he =>
    rw [h] at he
    obtain rfl : d = e := by simpa using he
    rfl
  · next hno => exact (hno d h).elim

theorem take_of_not (h : ∀ d, q.job k ≠ some ⟨.waiting, d⟩) : q.take k = q := by
  unfold take
  split
  · next e he => exact (h e he).elim
  · rfl

theorem complete_of_active (h : q.job k = some ⟨.active, d⟩) :
    (q.complete k).job = Function.update q.job k none := by
  unfold complete
  split
  · rfl
  · next hno => exact (hno d h).elim

theorem fail_of_active (h : q.job k = some ⟨.active, d⟩) :
    (q.fail kept k).job = fun x => if x ∈ (k :: q.failures).drop kept then none else
      Function.update q.job k (some ⟨.failed, d⟩) x := by
  unfold fail
  split
  · next e he =>
    rw [h] at he
    obtain rfl : d = e := by simpa using he
    rfl
  · next hno => exact (hno d h).elim

/-- A failure removes no job that is still to be processed. -/
theorem fail_other (h : q.job k = some ⟨.active, d⟩) (hx : x ≠ k) :
    (q.fail kept k).job x = q.job x ∨ (∃ e, q.job x = some ⟨.failed, e⟩) ∧ (q.fail kept k).job x = none := by
  rw [fail_of_active h]
  by_cases hdropped : x ∈ (k :: q.failures).drop kept
  · have hmem : x ∈ q.failures := (List.mem_cons.mp (List.mem_of_mem_drop hdropped)).resolve_left hx
    exact .inr ⟨(q.failed_iff x).mp hmem, if_pos hdropped⟩
  · left
    simp only [if_neg hdropped, Function.update_of_ne hx]

theorem fail_own (h : q.job k = some ⟨.active, d⟩) (kept : ℕ) : (q.fail kept k).Drained k := by
  rw [Drained, fail_of_active h]
  intro j hj
  simp only [Function.update_self] at hj
  split at hj
  · cases hj
  · rw [← Option.some.inj hj]

theorem remove_job (q : JobQueue κ δ) (k x : κ) : (q.remove k).job x = q.job x ∨ (q.remove k).job x = none := by
  unfold remove
  split
  · exact .inl rfl
  · by_cases hx : x = k
    · exact .inr (by rw [hx]; exact Function.update_self ..)
    · exact .inl (Function.update_of_ne hx ..)

/-- Where no job has the id, a removal does nothing. -/
theorem remove_of_none (h : q.job k = none) : q.remove k = q := by
  have hfailures : q.failures.filter (· ≠ k) = q.failures := by
    apply List.filter_eq_self.mpr
    intro x hx
    have hne : x ≠ k := by
      rintro rfl
      obtain ⟨d, hd⟩ := (q.failed_iff x).mp hx
      rw [h] at hd
      cases hd
    simpa using hne
  unfold remove
  rw [if_neg (by simp [h])]
  obtain ⟨job, failures, failed_iff, distinct⟩ := q
  congr 1
  exact h ▸ Function.update_eq_self ..

end Jobs

section Within

variable {q : JobQueue κ δ} {k : κ}

theorem within_update {q' : JobQueue κ δ} {d : δ} {status : JobStatus} (h : q.job k = some ⟨status, d⟩)
    {j : Option (Job δ)} (hj : ∀ x ∈ j, x.data = d) (hq : q'.job = Function.update q.job k j) : q'.Within q := by
  intro x j' hx
  rw [hq, Function.update_apply] at hx
  split at hx
  · next he =>
    subst he
    exact ⟨_, h, (hj j' hx).symm⟩
  · exact ⟨j', hx, rfl⟩

theorem within_take (q : JobQueue κ δ) (k : κ) : (q.take k).Within q := by
  unfold take
  split
  · next d h => exact within_update (j := some ⟨.active, d⟩) h (by simp) rfl
  · exact within_refl q

theorem within_stall (q : JobQueue κ δ) (k : κ) : (q.stall k).Within q := by
  unfold stall
  split
  · next d h => exact within_update (j := some ⟨.waiting, d⟩) h (by simp) rfl
  · exact within_refl q

theorem within_complete (q : JobQueue κ δ) (k : κ) : (q.complete k).Within q := by
  unfold complete
  split
  · next d h => exact within_update (j := none) h (by simp) rfl
  · exact within_refl q

theorem within_fail (kept : ℕ) (q : JobQueue κ δ) (k : κ) : (q.fail kept k).Within q := by
  by_cases h : ∃ d, q.job k = some ⟨.active, d⟩
  · obtain ⟨d, hd⟩ := h
    intro x j' hx
    by_cases hxk : x = k
    · subst hxk
      rw [fail_of_active hd] at hx
      simp only [Function.update_self] at hx
      split at hx
      · cases hx
      · exact ⟨_, hd, by rw [← Option.some.inj hx]⟩
    · have hother : (q.fail kept k).job x = q.job x ∨ _ := fail_other hd hxk
      obtain hsame | ⟨-, hnone⟩ := hother
      · exact ⟨j', hsame ▸ hx, rfl⟩
      · rw [hnone] at hx
        cases hx
  · unfold fail
    split
    · next d hd => exact absurd ⟨d, hd⟩ h
    · exact within_refl q

theorem within_remove (q : JobQueue κ δ) (k : κ) : (q.remove k).Within q := by
  intro x j' hx
  obtain hsame | hnone := q.remove_job k x
  · exact ⟨j', hsame ▸ hx, rfl⟩
  · rw [hnone] at hx
    cases hx

/-- After an addition the jobs are the old ones and the new one. -/
theorem job_add {d : δ} {x : κ} {j' : Job δ} (h : (q.add k d).job x = some j') :
    q.job x = some j' ∨ (x = k ∧ j'.data = d) := by
  cases hk : q.job k with
  | some j => exact .inl (add_of_some hk d ▸ h)
  | none =>
    rw [add_of_none hk, Function.update_apply] at h
    split at h
    · next he => exact .inr ⟨he, by rw [← Option.some.inj h]⟩
    · exact .inl h

end Within

end JobQueue

end Atomic
