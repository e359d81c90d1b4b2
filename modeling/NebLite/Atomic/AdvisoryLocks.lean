import Mathlib.Data.List.Basic
import Mathlib.Data.Prod.Basic

/-! Advisory locks of sessions. A session holds a key as often as it has taken it,
and no two sessions hold one key, which is part of the type. -/

namespace Atomic

variable {S K : Type}

structure LockTable (S K : Type) where
  held : List (S × K)
  exclusive : ∀ a ∈ held, ∀ b ∈ held, a.2 = b.2 → a.1 = b.1

namespace LockTable

def empty : LockTable S K := ⟨[], by simp⟩

variable {t : LockTable S K} {s s' : S} {k k' : K}

theorem eq_of_held (h : (s, k) ∈ t.held) (h' : (s', k) ∈ t.held) : s = s' :=
  t.exclusive _ h _ h' rfl

theorem ext_held {t' : LockTable S K} (h : t.held = t'.held) : t = t' := by
  cases t
  cases t'
  cases h
  rfl

section Release

variable [DecidableEq S]

/-- The locks of a session end with it. -/
def release (t : LockTable S K) (s : S) : LockTable S K where
  held := t.held.filter (·.1 ≠ s)
  exclusive := fun a ha b hb =>
    t.exclusive a (List.mem_of_mem_filter ha) b (List.mem_of_mem_filter hb)

theorem held_release (h : (s', k') ∈ t.held) (hs : s' ≠ s) : (s', k') ∈ (t.release s).held :=
  List.mem_filter.mpr ⟨h, by simpa using hs⟩

end Release

variable [DecidableEq S] [DecidableEq K]

/-- No session but `s` holds the key. -/
def Free (t : LockTable S K) (s : S) (k : K) : Prop := ∀ a ∈ t.held, a.2 = k → a.1 = s

instance (t : LockTable S K) (s : S) (k : K) : Decidable (t.Free s k) :=
  inferInstanceAs (Decidable (∀ a ∈ t.held, a.2 = k → a.1 = s))

/-- `pg_try_advisory_lock`. -/
def tryLock (t : LockTable S K) (s : S) (k : K) : Bool × LockTable S K :=
  if h : t.Free s k then
    (true,
      { held := (s, k) :: t.held
        exclusive := by
          intro a ha b hb hab
          rcases List.mem_cons.mp ha with rfl | ha
          · rcases List.mem_cons.mp hb with rfl | hb
            · rfl
            · exact (h b hb hab.symm).symm
          · rcases List.mem_cons.mp hb with rfl | hb
            · exact h a ha hab
            · exact t.exclusive a ha b hb hab })
  else (false, t)

/-- `pg_advisory_unlock`, which gives back one of the times that the key was taken. -/
def unlock (t : LockTable S K) (s : S) (k : K) : Bool × LockTable S K :=
  (decide ((s, k) ∈ t.held),
    { held := t.held.erase (s, k)
      exclusive := fun a ha b hb => t.exclusive a (List.mem_of_mem_erase ha) b (List.mem_of_mem_erase hb) })

theorem held_tryLock (h : (s', k') ∈ t.held) : (s', k') ∈ (t.tryLock s k).2.held := by
  unfold tryLock
  split
  · exact List.mem_cons_of_mem _ h
  · exact h

theorem held_of_tryLock (h : (t.tryLock s k).1 = true) : (s, k) ∈ (t.tryLock s k).2.held := by
  unfold tryLock at h ⊢
  split at h
  · rename_i hf
    rw [dif_pos hf]
    exact List.mem_cons_self
  · cases h

/-- The lock is taken on top of those that are held, or nothing happens. -/
theorem tryLock_cases (t : LockTable S K) (s : S) (k : K) :
    (t.tryLock s k).1 = true ∧ (t.tryLock s k).2.held = (s, k) :: t.held ∨ t.tryLock s k = (false, t) := by
  unfold tryLock
  split
  · exact .inl ⟨rfl, rfl⟩
  · exact .inr rfl

/-- What was taken last is given back. -/
theorem unlock_head {held : List (S × K)} (h : t.held = (s, k) :: held) : (t.unlock s k).2.held = held := by
  have herase : (t.unlock s k).2.held = t.held.erase (s, k) := rfl
  rw [herase, h, List.erase_cons_head]

theorem held_unlock (h : (s', k') ∈ t.held) (hs : s' ≠ s) : (s', k') ∈ (t.unlock s k).2.held :=
  (List.mem_erase_of_ne fun he => hs (congrArg Prod.fst he)).mpr h

end LockTable

end Atomic
