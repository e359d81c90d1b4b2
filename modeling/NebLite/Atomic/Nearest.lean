import Mathlib.Data.List.Sort
import Mathlib.Data.List.Perm.Subperm
import Mathlib.Data.List.Nodup

/-! The `k` smallest elements of a pool by a measure, listed from small to large. Ties
may be broken either way. -/

namespace Atomic

structure NearestOf {α β : Type} [LinearOrder β] (f : α → β) (k : ℕ) (pool l : List α) : Prop where
  ordered : l.Pairwise fun x y => f x ≤ f y
  distinct : l.Nodup
  subset : l ⊆ pool
  length : l.length = min k pool.length
  nearest : ∀ x ∈ pool, x ∉ l → ∀ y ∈ l, f y ≤ f x

namespace NearestOf

variable {α β : Type} [LinearOrder β] {f : α → β} {k : ℕ} {pool l : List α} {p : α → Bool}

/-- Filtering after the selection is filtering before it exactly when the selection lost
nothing by it, or had already taken all that pass. -/
theorem filter_iff (h : NearestOf f k pool l) (hpool : pool.Nodup) :
    NearestOf f k (pool.filter p) (l.filter p) ↔ (∀ x ∈ l, p x) ∨ ∀ x ∈ pool, p x → x ∈ l := by
  have hkept : l.filter p ⊆ pool.filter p := fun x hx =>
    List.mem_filter.mpr ⟨h.subset (List.mem_filter.mp hx).1, (List.mem_filter.mp hx).2⟩
  have hbound : l.length ≤ k := by
    rw [h.length]
    omega
  constructor
  · intro hfilter
    have hlength := hfilter.length
    rcases Nat.lt_or_ge (pool.filter p).length k with hlt | hge
    · right
      have hsub : (l.filter p).Subperm (pool.filter p) := hfilter.distinct.subperm hkept
      have hperm := hsub.perm_of_length_le (by omega)
      intro x hx hp
      exact List.mem_of_mem_filter (hperm.mem_iff.mpr (List.mem_filter.mpr ⟨hx, hp⟩))
    · left
      have hle := List.length_filter_le p l
      have hall : (l.filter p).length = l.length := by omega
      exact List.length_filter_eq_length_iff.mp hall
  · intro hcases
    refine ⟨h.ordered.filter p, h.distinct.filter p, hkept, ?_, ?_⟩
    · have hle := ((h.distinct.filter p).subperm hkept).length_le
      have hpoolLe := List.length_filter_le p pool
      have hlength := h.length
      rcases hcases with hall | hall
      · have hself : l.filter p = l := List.filter_eq_self.mpr hall
        rw [hself] at hle ⊢
        omega
      · have hback : pool.filter p ⊆ l.filter p := fun x hx => by
          obtain ⟨hxpool, hxp⟩ := List.mem_filter.mp hx
          exact List.mem_filter.mpr ⟨hall x hxpool hxp, hxp⟩
        have hge := ((hpool.filter p).subperm hback).length_le
        have hshorter := List.length_filter_le p l
        omega
    · intro x hx hxl y hy
      obtain ⟨hxpool, hxp⟩ := List.mem_filter.mp hx
      have hx' : x ∉ l := fun hmem => hxl (List.mem_filter.mpr ⟨hmem, hxp⟩)
      exact h.nearest x hxpool hx' y (List.mem_of_mem_filter hy)

end NearestOf

end Atomic
