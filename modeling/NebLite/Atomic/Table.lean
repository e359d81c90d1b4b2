import Mathlib.Data.List.Nodup
import Mathlib.Data.List.Basic

/-! Tables of rows with a serial primary key, in insertion order. Distinct
keys are part of the type, so a lookup by key meets at most one row. -/

namespace Atomic

class Keyed (ρ : Type) where
  key : ρ → ℕ

open Keyed (key)

structure Table (ρ : Type) [Keyed ρ] where
  rows : List ρ
  nodup : (rows.map key).Nodup

namespace Table

variable {ρ : Type} [Keyed ρ]

def empty : Table ρ := ⟨[], List.nodup_nil⟩

/-- `SELECT ... WHERE id = k LIMIT 1`. -/
def find (t : Table ρ) (k : ℕ) : Option ρ := t.rows.find? (fun r => key r == k)

/-- `SELECT ... WHERE p`. -/
def select (t : Table ρ) (p : ρ → Bool) : List ρ := t.rows.filter p

/-- `UPDATE ... SET f WHERE p`, which keeps the key. -/
def update (t : Table ρ) (p : ρ → Bool) (f : ρ → ρ) (hf : ∀ r, key (f r) = key r) : Table ρ where
  rows := t.rows.map (fun r => if p r then f r else r)
  nodup := by
    have he : (fun r => key (if p r then f r else r)) = (key : ρ → ℕ) := by
      funext r
      split <;> simp [hf]
    simpa [List.map_map, Function.comp_def, he] using t.nodup

/-- The row with the key of `r` becomes `r`; without such a row nothing changes. -/
def put (t : Table ρ) (r : ρ) : Table ρ where
  rows := t.rows.map (fun x => if key x = key r then r else x)
  nodup := by
    have he : (fun x => key (if key x = key r then r else x)) = (key : ρ → ℕ) := by
      funext x
      split <;> simp_all
    simpa [List.map_map, Function.comp_def, he] using t.nodup

/-- The next value of the serial key. -/
def nextKey (t : Table ρ) : ℕ := t.rows.foldr (fun r n => max (key r) n) 0 + 1

theorem key_lt_nextKey {t : Table ρ} {r : ρ} (h : r ∈ t.rows) : key r < t.nextKey := by
  obtain ⟨rows, hn⟩ := t
  simp only [nextKey] at h ⊢
  clear hn
  induction rows with
  | nil => simp at h
  | cons x xs ih =>
    rcases List.mem_cons.mp h with rfl | h
    · simp only [List.foldr_cons]
      omega
    · have := ih h
      simp only [List.foldr_cons]
      omega

/-- `INSERT`: the row is built from the key it is given. -/
def insert (t : Table ρ) (f : ℕ → ρ) (hf : ∀ k, key (f k) = k) : Table ρ where
  rows := t.rows ++ [f t.nextKey]
  nodup := by
    rw [List.map_append, List.nodup_append']
    refine ⟨t.nodup, by simp, ?_⟩
    simp only [List.map_cons, List.map_nil, List.disjoint_singleton, hf, List.mem_map, not_exists,
      not_and]
    intro r hr he
    exact absurd (key_lt_nextKey hr) (by omega)

/-- `INSERT ... ON CONFLICT (id) DO UPDATE`: the row of the conflict is `merge old`. -/
def upsert (t : Table ρ) (r : ρ) (merge : ρ → ρ) (hm : ∀ x, key (merge x) = key x) : Table ρ :=
  if h : t.find (key r) = none then
    { rows := t.rows ++ [r]
      nodup := by
        rw [List.map_append, List.nodup_append']
        refine ⟨t.nodup, by simp, ?_⟩
        intro x hx hd
        simp only [List.map_cons, List.map_nil, List.mem_singleton] at hd
        obtain ⟨y, hy, rfl⟩ := List.mem_map.mp hx
        simp only [find, List.find?_eq_none, beq_iff_eq] at h
        exact h y hy hd }
  else t.update (fun x => key x == key r) merge hm

theorem find_some {t : Table ρ} {k : ℕ} {r : ρ} : t.find k = some r ↔ r ∈ t.rows ∧ key r = k := by
  constructor
  · intro h
    exact ⟨List.mem_of_find?_eq_some h, by simpa using List.find?_some h⟩
  · rintro ⟨hm, rfl⟩
    obtain ⟨rows, hn⟩ := t
    simp only [find] at hm ⊢
    induction rows with
    | nil => simp at hm
    | cons x xs ih =>
      rw [List.map_cons, List.nodup_cons] at hn
      rcases List.mem_cons.mp hm with rfl | hm
      · simp
      · have hx : key x ≠ key r := fun he => hn.1 (he ▸ List.mem_map_of_mem hm)
        simpa [List.find?_cons, hx] using ih hn.2 hm

theorem find_none {t : Table ρ} {k : ℕ} : t.find k = none ↔ ∀ r ∈ t.rows, key r ≠ k := by
  simp [find]

theorem key_of_find {t : Table ρ} {k : ℕ} {r : ρ} (h : t.find k = some r) : key r = k :=
  (find_some.mp h).2

theorem mem_select {t : Table ρ} {p : ρ → Bool} {r : ρ} :
    r ∈ t.select p ↔ r ∈ t.rows ∧ p r = true := List.mem_filter

theorem mem_put {t : Table ρ} {r x : ρ} :
    x ∈ (t.put r).rows ↔ (x = r ∧ ∃ y ∈ t.rows, key y = key r) ∨ (x ∈ t.rows ∧ key x ≠ key r) := by
  simp only [put, List.mem_map]
  constructor
  · rintro ⟨y, hy, rfl⟩
    by_cases he : key y = key r
    · exact .inl ⟨by simp [he], y, hy, he⟩
    · exact .inr (by simpa [he] using hy)
  · rintro (⟨rfl, y, hy, he⟩ | ⟨hx, he⟩)
    · exact ⟨y, hy, by simp [he]⟩
    · exact ⟨x, hx, by simp [he]⟩

theorem find_put_self {t : Table ρ} {r x : ρ} (h : t.find (key r) = some x) :
    (t.put r).find (key r) = some r := by
  obtain ⟨hm, he⟩ := find_some.mp h
  exact find_some.mpr ⟨mem_put.mpr (.inl ⟨rfl, x, hm, he⟩), rfl⟩

theorem find_put_ne {t : Table ρ} {r : ρ} {k : ℕ} (h : k ≠ key r) :
    (t.put r).find k = t.find k := by
  ext x
  simp only [find_some, mem_put]
  constructor
  · rintro ⟨⟨rfl, _⟩ | ⟨hm, _⟩, rfl⟩
    · exact absurd rfl h
    · exact ⟨hm, rfl⟩
  · rintro ⟨hm, rfl⟩
    exact ⟨.inr ⟨hm, h⟩, rfl⟩

theorem find_put {t : Table ρ} {r x : ρ} (h : t.find (key r) = some x) (k : ℕ) :
    (t.put r).find k = if k = key r then some r else t.find k := by
  split
  · next he => subst he; exact find_put_self h
  · next he => exact find_put_ne he

/-- What is found under the key of a row that was put depends on what was found before. -/
theorem find_put_congr {t u : Table ρ} {r : ρ} (h : t.find (key r) = u.find (key r)) :
    (t.put r).find (key r) = (u.put r).find (key r) := by
  have hmissing (t : Table ρ) (ht : t.find (key r) = none) : (t.put r).find (key r) = none := by
    rw [find_none] at ht ⊢
    intro x hx
    obtain ⟨-, y, hy, hkey⟩ | ⟨hx, -⟩ := mem_put.mp hx
    · exact absurd hkey (ht y hy)
    · exact ht x hx
  cases ht : t.find (key r) with
  | none => rw [hmissing t ht, hmissing u (h ▸ ht)]
  | some x => rw [find_put_self ht, find_put_self (h ▸ ht)]

/-- Writing a row back as it is stored. -/
theorem put_stored {t : Table ρ} {r : ρ} (h : t.find (key r) = some r) : t.put r = t := by
  obtain ⟨rows, hn⟩ := t
  have hrows : rows.map (fun x => if key x = key r then r else x) = rows := by
    conv_rhs => rw [← List.map_id rows]
    apply List.map_congr_left
    intro x hx
    by_cases hk : key x = key r
    · have hfound : (⟨rows, hn⟩ : Table ρ).find (key r) = some x := find_some.mpr ⟨hx, hk⟩
      rw [if_pos hk, ← Option.some.inj (h.symm.trans hfound)]
      rfl
    · rw [if_neg hk]
      rfl
  simp only [put, hrows]

theorem mem_update {t : Table ρ} {p : ρ → Bool} {f : ρ → ρ} {hf : ∀ r, key (f r) = key r} {x : ρ} :
    x ∈ (t.update p f hf).rows ↔ ∃ r ∈ t.rows, (if p r then f r else r) = x := by
  simp [update]

theorem find_update {t : Table ρ} {p : ρ → Bool} {f : ρ → ρ} {hf : ∀ r, key (f r) = key r}
    (k : ℕ) : (t.update p f hf).find k = (t.find k).map (fun r => if p r then f r else r) := by
  have hk (r : ρ) : key (if p r then f r else r) = key r := by split <;> simp [hf]
  ext x
  simp only [find_some, mem_update, Option.map_eq_some_iff]
  constructor
  · rintro ⟨⟨r, hr, rfl⟩, rfl⟩
    exact ⟨r, ⟨hr, (hk r).symm⟩, rfl⟩
  · rintro ⟨r, ⟨hr, rfl⟩, rfl⟩
    exact ⟨⟨r, hr, rfl⟩, hk r⟩

theorem mem_insert {t : Table ρ} {f : ℕ → ρ} {hf : ∀ k, key (f k) = k} {x : ρ} :
    x ∈ (t.insert f hf).rows ↔ x ∈ t.rows ∨ x = f t.nextKey := by
  simp [insert]

theorem find_insert {t : Table ρ} {f : ℕ → ρ} {hf : ∀ k, key (f k) = k} (k : ℕ) :
    (t.insert f hf).find k = if k = t.nextKey then some (f t.nextKey) else t.find k := by
  ext x
  simp only [find_some, mem_insert]
  split
  · next he =>
    subst he
    simp only [Option.some.injEq]
    constructor
    · rintro ⟨hm | rfl, he⟩
      · exact absurd (key_lt_nextKey hm) (by omega)
      · rfl
    · rintro rfl
      exact ⟨.inr rfl, hf _⟩
  · next he =>
    rw [find_some]
    constructor
    · rintro ⟨hm | rfl, rfl⟩
      · exact ⟨hm, rfl⟩
      · exact absurd (hf _) he
    · rintro ⟨hm, rfl⟩
      exact ⟨.inl hm, rfl⟩

theorem find_upsert {t : Table ρ} {r x : ρ} {merge : ρ → ρ} {hm : ∀ x, key (merge x) = key x}
    (h : t.find (key r) = some x) (k : ℕ) :
    (t.upsert r merge hm).find k = if k = key r then some (merge x) else t.find k := by
  have hn : t.find (key r) ≠ none := by simp [h]
  rw [upsert, dif_neg hn, find_update]
  split
  · next he => subst he; simp [h, key_of_find h]
  · next he =>
    cases hk : t.find k with
    | none => rfl
    | some y => simp [key_of_find hk, he]

theorem find_upsert_self {t : Table ρ} {r : ρ} {merge : ρ → ρ} {hm : ∀ x, key (merge x) = key x}
    (h : t.find (key r) = none) : (t.upsert r merge hm).find (key r) = some r := by
  rw [upsert, dif_pos h]
  exact find_some.mpr ⟨by simp, rfl⟩

theorem mem_upsert {t : Table ρ} {r x : ρ} {merge : ρ → ρ} {hm : ∀ x, key (merge x) = key x}
    (h : x ∈ (t.upsert r merge hm).rows) :
    x ∈ t.rows ∨ x = r ∨ ∃ y ∈ t.rows, key y = key r ∧ x = merge y := by
  unfold upsert at h
  split at h
  · rcases List.mem_append.mp h with h | h
    · exact .inl h
    · exact .inr (.inl (List.mem_singleton.mp h))
  · obtain ⟨y, hy, rfl⟩ := mem_update.mp h
    by_cases he : key y = key r
    · exact .inr (.inr ⟨y, hy, he, by simp [he]⟩)
    · exact .inl (by simpa [he] using hy)

theorem find_nextKey {t : Table ρ} : t.find t.nextKey = none :=
  find_none.mpr fun _ hr he => absurd (key_lt_nextKey hr) (by omega)

omit [Keyed ρ] in
/-- Rewritten rows that are not selected before or after leave the selection. -/
theorem filter_map_if {l : List ρ} {q p : ρ → Bool} {f : ρ → ρ}
    (h : ∀ x ∈ l, q x = true → p x = false ∧ p (f x) = false) :
    (l.map fun x => if q x then f x else x).filter p = l.filter p := by
  induction l with
  | nil => rfl
  | cons x l ih =>
    have hrest := ih fun y hy => h y (List.mem_cons_of_mem x hy)
    rw [List.map_cons]
    by_cases hq : q x = true
    · obtain ⟨hx, hfx⟩ := h x List.mem_cons_self hq
      rw [if_pos hq, List.filter_cons_of_neg (by simp [hfx]), List.filter_cons_of_neg (by simp [hx]), hrest]
    · rw [if_neg hq, List.filter_cons, List.filter_cons, hrest]

theorem select_put {t : Table ρ} {r : ρ} {p : ρ → Bool} (hr : p r = false)
    (h : ∀ x ∈ t.rows, key x = key r → p x = false) : (t.put r).select p = t.select p := by
  have hsame : (t.put r).rows = t.rows.map fun x => if key x == key r then r else x := by
    simp only [put, beq_iff_eq]
  rw [select, hsame]
  exact filter_map_if (f := fun _ => r) fun x hx hk => ⟨h x hx (by simpa using hk), hr⟩

theorem select_insert {t : Table ρ} {f : ℕ → ρ} {hf : ∀ k, key (f k) = k} {p : ρ → Bool}
    (h : p (f t.nextKey) = false) : (t.insert f hf).select p = t.select p := by
  rw [select, insert, List.filter_append, List.filter_cons_of_neg (by simp [h]), List.filter_nil, List.append_nil]
  rfl

theorem nextKey_put {t : Table ρ} {r : ρ} : (t.put r).nextKey = t.nextKey := by
  have hfold (l : List ρ) : (l.map fun x => if key x = key r then r else x).foldr (fun r n => max (key r) n) 0 =
      l.foldr (fun r n => max (key r) n) 0 := by
    induction l with
    | nil => rfl
    | cons x l ih =>
      rw [List.map_cons, List.foldr_cons, List.foldr_cons, ih]
      split
      · next h => rw [h]
      · rfl
  exact congrArg (· + 1) (hfold t.rows)

/-- The rows of a list are written one after the other. -/
def putAll (t : Table ρ) (l : List ρ) : Table ρ := l.foldl put t

@[simp] theorem putAll_nil (t : Table ρ) : t.putAll [] = t := rfl

@[simp] theorem putAll_cons (t : Table ρ) (r : ρ) (l : List ρ) :
    t.putAll (r :: l) = (t.put r).putAll l := rfl

theorem putAll_rows {l : List ρ} (hn : (l.map key).Nodup) (t : Table ρ) :
    (t.putAll l).rows = t.rows.map fun x => (l.find? fun r => key r == key x).getD x := by
  induction l generalizing t with
  | nil => simp
  | cons r l ih =>
    rw [List.map_cons, List.nodup_cons] at hn
    have hr : l.find? (fun x => key x == key r) = none := by
      simp only [List.find?_eq_none, beq_iff_eq]
      exact fun x hx he => hn.1 (he ▸ List.mem_map_of_mem hx)
    rw [putAll_cons, ih hn.2, put, List.map_map]
    refine List.map_congr_left fun x _ => ?_
    by_cases he : key x = key r
    · simp [he, hr]
    · simp [he, Ne.symm he]

theorem find?_filterMap_filter {p : ρ → Bool} {f : ρ → Option ρ}
    (hf : ∀ x y, f x = some y → key y = key x) {rows : List ρ} (hn : (rows.map key).Nodup) {x : ρ}
    (hx : x ∈ rows) :
    ((rows.filter p).filterMap f).find? (fun r => key r == key x) = if p x then f x else none := by
  induction rows with
  | nil => simp at hx
  | cons y ys ih =>
    rw [List.map_cons, List.nodup_cons] at hn
    rcases List.mem_cons.mp hx with rfl | hx
    · have hrest : ((ys.filter p).filterMap f).find? (fun r => key r == key x) = none := by
        simp only [List.find?_eq_none, List.mem_filterMap, List.mem_filter, beq_iff_eq]
        rintro r ⟨z, ⟨hz, -⟩, hzr⟩ he
        exact hn.1 (List.mem_map.mpr ⟨z, hz, by rw [← hf z r hzr, he]⟩)
      by_cases hp : p x
      · cases hfx : f x with
        | none => simp [hp, hfx, hrest]
        | some z => simp [hp, hfx, hf x z hfx]
      · simp [hp, hrest]
    · have hne : key y ≠ key x := fun he => hn.1 (he ▸ List.mem_map_of_mem hx)
      have ih := ih hn.2 hx
      by_cases hp : p y
      · cases hfy : f y with
        | none => simpa [hp, hfy] using ih
        | some z => simpa [hp, hfy, hf y z hfy, hne] using ih
      · simpa [hp] using ih

/-- Selected rows are rewritten and written back. -/
theorem putAll_select {p : ρ → Bool} {f : ρ → Option ρ} (hf : ∀ x y, f x = some y → key y = key x)
    (t : Table ρ) (hn : (((t.select p).filterMap f).map key).Nodup) :
    (t.putAll ((t.select p).filterMap f)).rows =
      t.rows.map fun x => if p x then (f x).getD x else x := by
  rw [putAll_rows hn]
  refine List.map_congr_left fun x hx => ?_
  rw [select, find?_filterMap_filter hf t.nodup hx]
  split <;> rfl

theorem nodup_select_filterMap {p : ρ → Bool} {f : ρ → Option ρ}
    (hf : ∀ x y, f x = some y → key y = key x) (t : Table ρ) :
    (((t.select p).filterMap f).map key).Nodup := by
  obtain ⟨rows, hn⟩ := t
  simp only [select]
  induction rows with
  | nil => simp
  | cons y ys ih =>
    rw [List.map_cons, List.nodup_cons] at hn
    by_cases hp : p y
    · cases hfy : f y with
      | none => simpa [hp, hfy] using ih hn.2
      | some z =>
        simp only [List.filter_cons, hp, if_true, List.filterMap_cons, hfy, List.map_cons,
          List.nodup_cons]
        refine ⟨?_, ih hn.2⟩
        rintro hm
        obtain ⟨r, hr, he⟩ := List.mem_map.mp hm
        obtain ⟨x, hx, hxr⟩ := List.mem_filterMap.mp hr
        refine hn.1 (List.mem_map.mpr ⟨x, (List.mem_filter.mp hx).1, ?_⟩)
        rw [← hf x r hxr, he, hf y z hfy]
    · simpa [hp] using ih hn.2

end Table

end Atomic
