import Mathlib.Data.List.Nodup
import Mathlib.Data.List.Basic
import Mathlib.Data.List.Induction

/-! Rows that are inserted, or replace the row with their key. A batch may keep
the last row of each key only; where a stream is cut into batches leaves no trace. -/

namespace Atomic

variable {α κ : Type} [DecidableEq κ] (key : α → κ)

/-- The row of `a`'s key becomes `a`. -/
def replace (a x : α) : α := if key x = key a then a else x

def upsert (l : List α) (a : α) : List α :=
  if key a ∈ l.map key then l.map (replace key a) else l ++ [a]

variable {key} {a x : α} {l t : List α} {k : κ}

theorem key_replace (key : α → κ) (a x : α) : key (replace key a x) = key x := by
  unfold replace
  split
  · next h => exact h.symm
  · rfl

theorem keys_replace : (l.map (replace key a)).map key = l.map key := by
  rw [List.map_map]
  exact List.map_congr_left fun x _ => key_replace key a x

theorem replace_of_ne (h : key x ≠ key a) : replace key a x = x := if_neg h

theorem map_replace_of_not_mem (h : key a ∉ l.map key) : l.map (replace key a) = l := by
  conv_rhs => rw [← List.map_id l]
  apply List.map_congr_left
  intro x hx
  have hne : key x ≠ key a := fun he => h (he ▸ List.mem_map_of_mem hx)
  exact replace_of_ne hne

theorem keys_upsert : (upsert key l a).map key =
    if key a ∈ l.map key then l.map key else l.map key ++ [key a] := by
  unfold upsert
  split
  · exact keys_replace
  · simp

theorem key_mem_upsert : key a ∈ (upsert key l a).map key := by
  rw [keys_upsert]
  split
  · assumption
  · simp

theorem key_mem_of_mem (h : k ∈ l.map key) : k ∈ (upsert key l a).map key := by
  rw [keys_upsert]
  split
  · exact h
  · exact List.mem_append_left _ h

theorem mem_upsert (h : x ∈ upsert key l a) : x = a ∨ x ∈ l := by
  unfold upsert at h
  split at h
  · obtain ⟨y, hy, rfl⟩ := List.mem_map.mp h
    unfold replace
    split
    · exact .inl rfl
    · exact .inr hy
  · rcases List.mem_append.mp h with h | h
    · exact .inr h
    · exact .inl (List.mem_singleton.mp h)

theorem mem_foldl_upsert (h : x ∈ l.foldl (upsert key) t) : x ∈ l ∨ x ∈ t := by
  induction l generalizing t with
  | nil => exact .inr h
  | cons a l ih =>
    rcases ih h with h | h
    · exact .inl (List.mem_cons_of_mem a h)
    · rcases mem_upsert h with rfl | h
      · exact .inl List.mem_cons_self
      · exact .inr h

theorem nodup_upsert (h : (l.map key).Nodup) : ((upsert key l a).map key).Nodup := by
  rw [keys_upsert]
  split
  · exact h
  · next hn =>
    have hdisjoint : (l.map key).Disjoint [key a] := by simpa using hn
    exact List.Nodup.append h (List.nodup_singleton _) hdisjoint

theorem key_mem_foldl (h : k ∈ t.map key) : k ∈ (l.foldl (upsert key) t).map key := by
  induction l generalizing t with
  | nil => exact h
  | cons x l ih => exact ih (key_mem_of_mem h)

theorem nodup_foldl_upsert (h : (t.map key).Nodup) : ((l.foldl (upsert key) t).map key).Nodup := by
  induction l generalizing t with
  | nil => exact h
  | cons x l ih => exact ih (nodup_upsert h)

/-- Of two rows with one key the later one stays. -/
theorem upsert_upsert (h : key x = key a) : upsert key (upsert key l x) a = upsert key l a := by
  have hmem : key a ∈ (upsert key l x).map key := h ▸ key_mem_upsert
  have hreplace (y : α) : replace key a (replace key x y) = replace key a y := by
    by_cases hy : key y = key a
    · unfold replace
      simp [hy, h]
    · have hyx : key y ≠ key x := fun he => hy (he.trans h)
      rw [replace_of_ne hyx]
  rw [upsert, if_pos hmem]
  unfold upsert
  rw [h]
  split
  · rw [List.map_map]
    exact List.map_congr_left fun y _ => hreplace y
  · next hn =>
    have hself : replace key a x = a := if_pos h
    rw [List.map_append, map_replace_of_not_mem hn, List.map_singleton, hself]

theorem map_replace_upsert : (upsert key l x).map (replace key a) =
    upsert key (l.map (replace key a)) (replace key a x) := by
  have hcomm (y : α) : replace key a (replace key x y) = replace key (replace key a x) (replace key a y) := by
    by_cases hyx : key y = key x
    · have hleft : replace key x y = x := if_pos hyx
      have hkeys : key (replace key a y) = key (replace key a x) := by
        rw [key_replace key a x, key_replace key a y, hyx]
      have hright : replace key (replace key a x) (replace key a y) = replace key a x := if_pos hkeys
      rw [hleft, hright]
    · have hright : key (replace key a y) ≠ key (replace key a x) := by
        rwa [key_replace key a x, key_replace key a y]
      rw [replace_of_ne hyx, replace_of_ne hright]
  unfold upsert
  rw [keys_replace, key_replace key a x]
  split
  · rw [List.map_map, List.map_map]
    exact List.map_congr_left fun y _ => hcomm y
  · rw [List.map_append, List.map_singleton]

theorem foldl_map_replace : (l.map (replace key a)).foldl (upsert key) (t.map (replace key a)) =
    (l.foldl (upsert key) t).map (replace key a) := by
  induction l generalizing t with
  | nil => rfl
  | cons x l ih =>
    rw [List.map_cons, List.foldl_cons, ← map_replace_upsert]
    exact ih

/-- A row that is written into a batch is written after the batch. -/
theorem foldl_upsert_upsert :
    (upsert key l a).foldl (upsert key) t = upsert key (l.foldl (upsert key) t) a := by
  by_cases hmem : key a ∈ l.map key
  swap
  · rw [upsert, if_neg hmem, List.foldl_append]
    rfl
  have hpresent : upsert key l a = l.map (replace key a) := if_pos hmem
  rw [hpresent]
  clear hpresent
  induction l generalizing t with
  | nil => simp at hmem
  | cons x l ih =>
    rw [List.map_cons, List.foldl_cons, List.foldl_cons]
    by_cases hx : key x = key a
    · have hself : replace key a x = a := if_pos hx
      have hthere : key a ∈ (upsert key t x).map key := hx ▸ key_mem_upsert
      have hafter : upsert key (l.foldl (upsert key) (upsert key t x)) a =
          (l.foldl (upsert key) (upsert key t x)).map (replace key a) := if_pos (key_mem_foldl hthere)
      have hbefore : upsert key (upsert key t x) a = (upsert key t x).map (replace key a) := if_pos hthere
      rw [hself, hafter, ← foldl_map_replace, ← hbefore, upsert_upsert hx]
    · have hrest : key a ∈ l.map key := by
        rw [List.map_cons, List.mem_cons] at hmem
        exact hmem.resolve_left fun he => hx he.symm
      rw [replace_of_ne hx]
      exact ih hrest

/-- Cutting a stream into batches leaves no trace. -/
theorem foldl_upsert_batch (l t : List α) :
    (l.foldl (upsert key) []).foldl (upsert key) t = l.foldl (upsert key) t := by
  induction l using List.reverseRecOn with
  | nil => rfl
  | append_singleton l a ih => rw [List.foldl_append, List.foldl_append, List.foldl_cons, List.foldl_nil,
      List.foldl_cons, List.foldl_nil, foldl_upsert_upsert, ih]

theorem filter_replace (h : key a ≠ k) :
    (l.map (replace key a)).filter (fun x => key x = k) = l.filter fun x => key x = k := by
  induction l with
  | nil => rfl
  | cons x l ih =>
    rw [List.map_cons, List.filter_cons, List.filter_cons, key_replace key a x, ih]
    by_cases hx : key x = k
    · have hne : key x ≠ key a := fun he => h (he.symm.trans hx)
      rw [replace_of_ne hne]
    · simp [hx]

theorem filter_upsert_of_ne (h : key a ≠ k) :
    (upsert key l a).filter (fun x => key x = k) = l.filter fun x => key x = k := by
  unfold upsert
  split
  · exact filter_replace h
  · simp [h]

theorem filter_upsert_self (hl : (l.map key).Nodup) :
    (upsert key l a).filter (fun x => key x = key a) = [a] := by
  have hnone (m : List α) (hm : key a ∉ m.map key) : m.filter (fun x => key x = key a) = [] := by
    apply List.filter_eq_nil_iff.mpr
    intro x hx
    have hne : key x ≠ key a := fun he => hm (he ▸ List.mem_map_of_mem hx)
    simpa using hne
  unfold upsert
  split
  · next hmem =>
    induction l with
    | nil => simp at hmem
    | cons x l ih =>
      rw [List.map_cons, List.nodup_cons] at hl
      by_cases hx : key x = key a
      · have hrest : key a ∉ l.map key := hx ▸ hl.1
        have hself : replace key a x = a := if_pos hx
        rw [List.map_cons, hself, map_replace_of_not_mem hrest, List.filter_cons, hnone l hrest]
        simp
      · have hrest : key a ∈ l.map key := by
          rw [List.map_cons, List.mem_cons] at hmem
          exact hmem.resolve_left fun he => hx he.symm
        rw [List.map_cons, List.filter_cons, key_replace key a x, ih hl.2 hrest]
        simp [hx]
  · next hmem =>
    rw [List.filter_append, hnone l hmem]
    simp

theorem filter_key_self (hl : (l.map key).Nodup) (ha : a ∈ l) : l.filter (fun x => key x = key a) = [a] := by
  induction l with
  | nil => cases ha
  | cons x l ih =>
    rw [List.map_cons, List.nodup_cons] at hl
    rcases List.mem_cons.mp ha with rfl | hmem
    · have hrest : l.filter (fun x => key x = key a) = [] := by
        apply List.filter_eq_nil_iff.mpr
        intro y hy
        have hne : key y ≠ key a := fun he => hl.1 (he ▸ List.mem_map_of_mem hy)
        simpa using hne
      rw [List.filter_cons, hrest]
      simp
    · have hne : key x ≠ key a := fun he => hl.1 (he ▸ List.mem_map_of_mem hmem)
      rw [List.filter_cons, ih hl.2 hmem]
      simp [hne]

/-- The row of a key is the last that was written with it. -/
theorem filter_foldl_upsert (ht : (t.map key).Nodup) (l : List α) (k : κ) :
    (l.foldl (upsert key) t).filter (fun x => key x = k) =
      match (l.filter fun x => key x = k).getLast? with
      | some a => [a]
      | none => t.filter fun x => key x = k := by
  induction l using List.reverseRecOn with
  | nil => rfl
  | append_singleton l a ih =>
    rw [List.foldl_append, List.foldl_cons, List.foldl_nil, List.filter_append]
    by_cases ha : key a = k
    · subst ha
      rw [filter_upsert_self (nodup_foldl_upsert ht)]
      simp
    · rw [filter_upsert_of_ne ha, ih]
      simp [ha]

end Atomic
