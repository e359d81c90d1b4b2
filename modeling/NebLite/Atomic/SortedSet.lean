import Mathlib.Data.List.Sort
import Mathlib.Data.List.Nodup
import Mathlib.Data.Prod.Lex

/-! Sets of members with a score, listed by score and, where scores agree, by member. -/

namespace Atomic

structure SortedSet (κ β : Type) [LinearOrder κ] [LinearOrder β] where
  entries : List (β ×ₗ κ)
  sorted : entries.Pairwise (· ≤ ·)
  distinct : (entries.map fun x => (ofLex x).2).Nodup

namespace SortedSet

variable {κ β : Type} [LinearOrder κ] [LinearOrder β]

def empty : SortedSet κ β := ⟨[], List.Pairwise.nil, List.nodup_nil⟩

def score (s : SortedSet κ β) (k : κ) : Option β :=
  (s.entries.find? fun x => (ofLex x).2 == k).map fun x => (ofLex x).1

/-- The set without the members of `ks`. -/
def remove (s : SortedSet κ β) (ks : List κ) : SortedSet κ β where
  entries := s.entries.filter fun x => (ofLex x).2 ∉ ks
  sorted := s.sorted.filter _
  distinct := s.distinct.sublist (List.filter_sublist.map _)

theorem remove_lacks (s : SortedSet κ β) (k : κ) : k ∉ (s.remove [k]).entries.map fun x => (ofLex x).2 := by
  intro hk
  obtain ⟨x, hx, rfl⟩ := List.mem_map.mp hk
  simpa using (List.mem_filter.mp hx).2

/-- The member `k` gets the score `b`, whatever it had. -/
def add (s : SortedSet κ β) (k : κ) (b : β) : SortedSet κ β where
  entries := (s.remove [k]).entries.orderedInsert (· ≤ ·) (toLex (b, k))
  sorted := (s.remove [k]).sorted.orderedInsert _ _
  distinct := by
    have hperm := (List.perm_orderedInsert (· ≤ ·) (toLex (b, k)) (s.remove [k]).entries).map fun x => (ofLex x).2
    rw [hperm.nodup_iff, List.map_cons, List.nodup_cons]
    exact ⟨s.remove_lacks k, (s.remove [k]).distinct⟩

/-- The first `limit` members with a score from `lo` to `hi`. -/
def rangeByScore (s : SortedSet κ β) (lo hi : β) (limit : ℕ) : List κ :=
  ((s.entries.filter fun x => lo ≤ (ofLex x).1 ∧ (ofLex x).1 ≤ hi).take limit).map fun x => (ofLex x).2

/-- All members with a score from `lo` to `hi`. -/
def membersBetween (s : SortedSet κ β) (lo hi : β) : List κ :=
  (s.entries.filter fun x => lo ≤ (ofLex x).1 ∧ (ofLex x).1 ≤ hi).map fun x => (ofLex x).2

variable (s : SortedSet κ β) {k x : κ} {b : β} {ks : List κ} {lo hi : β} {limit : ℕ}

variable {s}

theorem score_eq_some : s.score k = some b ↔ toLex (b, k) ∈ s.entries := by
  unfold score
  constructor
  · intro h
    obtain ⟨e, he, rfl⟩ := Option.map_eq_some_iff.mp h
    have hk : (ofLex e).2 = k := by simpa using List.find?_some he
    have hmem := List.mem_of_find?_eq_some he
    rwa [← hk]
  · intro h
    cases he : s.entries.find? fun e => (ofLex e).2 == k with
    | none =>
      have habsent := List.find?_eq_none.mp he _ h
      simp at habsent
    | some e =>
      have hk : (ofLex e).2 = k := by simpa using List.find?_some he
      have hsame : e = toLex (b, k) :=
        List.inj_on_of_nodup_map s.distinct (List.mem_of_find?_eq_some he) h hk
      rw [hsame]
      rfl

theorem score_remove : (s.remove ks).score x = if x ∈ ks then none else s.score x := by
  ext b
  rw [score_eq_some]
  by_cases hx : x ∈ ks
  · simp [remove, hx]
  · simp [remove, hx, score_eq_some]

theorem score_add : (s.add k b).score x = if x = k then some b else s.score x := by
  ext c
  rw [score_eq_some]
  have hmem : toLex (c, x) ∈ (s.add k b).entries ↔
      toLex (c, x) = toLex (b, k) ∨ (s.remove [k]).score x = some c := by
    rw [score_eq_some]
    exact List.mem_orderedInsert _
  rw [hmem, score_remove]
  by_cases hx : x = k
  · subst hx
    simp [eq_comm]
  · simp [hx]

theorem mem_rangeByScore (h : k ∈ s.rangeByScore lo hi limit) : ∃ b, s.score k = some b ∧ lo ≤ b ∧ b ≤ hi := by
  obtain ⟨e, he, rfl⟩ := List.mem_map.mp h
  obtain ⟨hmem, hscore⟩ := List.mem_filter.mp (List.mem_of_mem_take he)
  exact ⟨(ofLex e).1, score_eq_some.mpr hmem, by simpa using hscore⟩

theorem rangeByScore_eq_take : s.rangeByScore lo hi limit = (s.membersBetween lo hi).take limit := List.map_take

theorem mem_membersBetween : k ∈ s.membersBetween lo hi ↔ ∃ b, s.score k = some b ∧ lo ≤ b ∧ b ≤ hi := by
  constructor
  · intro h
    obtain ⟨e, he, rfl⟩ := List.mem_map.mp h
    obtain ⟨hmem, hscore⟩ := List.mem_filter.mp he
    exact ⟨(ofLex e).1, score_eq_some.mpr hmem, by simpa using hscore⟩
  · rintro ⟨b, hscore, hlo, hhi⟩
    refine List.mem_map.mpr ⟨toLex (b, k), List.mem_filter.mpr ⟨score_eq_some.mp hscore, ?_⟩, rfl⟩
    simp [hlo, hhi]

theorem membersBetween_nodup : (s.membersBetween lo hi).Nodup := s.distinct.sublist (List.filter_sublist.map _)

end SortedSet

end Atomic
