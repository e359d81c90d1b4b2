import Mathlib.Data.List.Perm.Basic
import Mathlib.Data.Nat.Notation

/-! What is eventually reached along an endless run, and the place of an item in a queue that is
served for ever. -/

namespace Atomic

section LeadsTo

variable {P Q R : ℕ → Prop}

/-- Whenever `P` holds, `Q` holds then or later. -/
def LeadsTo (P Q : ℕ → Prop) : Prop := ∀ i, P i → ∃ j, i ≤ j ∧ Q j

def InfinitelyOften (P : ℕ → Prop) : Prop := ∀ i, ∃ j, i ≤ j ∧ P j

theorem InfinitelyOften.mono (h : InfinitelyOften P) (hi : ∀ i, P i → Q i) : InfinitelyOften Q := by
  intro i
  obtain ⟨j, hij, hp⟩ := h i
  exact ⟨j, hij, hi j hp⟩

theorem LeadsTo.trans (hpq : LeadsTo P Q) (hqr : LeadsTo Q R) : LeadsTo P R := by
  intro i hp
  obtain ⟨j, hij, hq⟩ := hpq i hp
  obtain ⟨k, hjk, hr⟩ := hqr j hq
  exact ⟨k, Nat.le_trans hij hjk, hr⟩

variable {Ranked : ℕ → ℕ → Prop} {Served : ℕ → Prop}

/-- A rank that no step raises and that falls whenever the queue is served runs out. -/
theorem LeadsTo.of_rank (often : InfinitelyOften Served)
    (step : ∀ m i, Ranked m i → Q (i + 1) ∨ ∃ n, Ranked n (i + 1) ∧ n ≤ m ∧ (Served i → n < m)) :
    LeadsTo (fun i => ∃ m, Ranked m i) Q := by
  rintro i ⟨m, hm⟩
  induction m using Nat.strongRecOn generalizing i with
  | ind m ih =>
    obtain ⟨j, hij, hserved⟩ := often i
    -- on the way to the next service the rank is still at most m
    have hway : ∀ k, i + k ≤ j → (∃ l, i ≤ l ∧ Q l) ∨ ∃ n, Ranked n (i + k) ∧ n ≤ m := by
      intro k
      induction k with
      | zero => exact fun _ => .inr ⟨m, hm, Nat.le_refl _⟩
      | succ k hk =>
        intro hle
        obtain hq | ⟨n, hn, hnm⟩ := hk (by omega)
        · exact .inl hq
        · obtain hq | ⟨n', hn', hle', -⟩ := step n (i + k) hn
          · exact .inl ⟨i + k + 1, by omega, hq⟩
          · exact .inr ⟨n', hn', Nat.le_trans hle' hnm⟩
    obtain hq | ⟨n, hn, hnm⟩ := hway (j - i) (by omega)
    · exact hq
    · rw [Nat.add_sub_cancel' hij] at hn
      obtain hq | ⟨n', hn', -, hlt⟩ := step n j hn
      · exact ⟨j + 1, by omega, hq⟩
      · obtain ⟨k, hk, hq⟩ := ih n' (Nat.lt_of_lt_of_le (hlt hserved) hnm) (j + 1) hn'
        exact ⟨k, by omega, hq⟩

end LeadsTo

section Queues

variable {α : Type} {l l' : List α} {x : α}

/-- The item at one place was taken out, if any, and others were put in at the end. -/
def Advances (taken : Option ℕ) (l l' : List α) : Prop :=
  ∃ more, l' = taken.elim l l.eraseIdx ++ more

theorem Advances.refl (l : List α) : Advances none l l := ⟨[], (List.append_nil l).symm⟩

theorem Advances.append (l more : List α) : Advances none l (l ++ more) := ⟨more, rfl⟩

theorem Advances.tail (x : α) (l : List α) : Advances (some 0) (x :: l) l :=
  ⟨[], (List.append_nil l).symm⟩

theorem Advances.empty (taken : Option ℕ) : Advances taken ([] : List α) [] := by
  cases taken <;> exact ⟨[], rfl⟩

/-- An item that stays in the queue never moves back, and moves on when the first is taken. -/
theorem Advances.place {taken : Option ℕ} {m : ℕ} (h : Advances taken l l') (hx : l[m]? = some x) :
    taken = some m ∨ ∃ n, l'[n]? = some x ∧ n ≤ m ∧ (taken = some 0 → n < m) := by
  obtain ⟨more, rfl⟩ := h
  have hmore : ∀ {k : List α} {n : ℕ}, k[n]? = some x → (k ++ more)[n]? = some x := by
    intro k n hn
    rw [List.getElem?_append_left (List.getElem?_eq_some_iff.mp hn).1]
    exact hn
  cases taken with
  | none => exact .inr ⟨m, hmore hx, Nat.le_refl _, nofun⟩
  | some k =>
    rcases Nat.lt_trichotomy m k with hlt | rfl | hlt
    · refine .inr ⟨m, hmore ?_, Nat.le_refl _, fun hk => ?_⟩
      · simpa only [Option.elim_some, List.getElem?_eraseIdx, if_pos hlt] using hx
      · cases hk
        omega
    · exact .inl rfl
    · refine .inr ⟨m - 1, hmore ?_, Nat.sub_le m 1, fun _ => by omega⟩
      have hle : ¬ m - 1 < k := by omega
      have hm : m - 1 + 1 = m := by omega
      simpa only [Option.elim_some, List.getElem?_eraseIdx, if_neg hle, hm] using hx

theorem countP_eraseIdx_add (p : α → Bool) {i : ℕ} (h : l[i]? = some x) :
    (l.eraseIdx i).countP p + (if p x then 1 else 0) = l.countP p := by
  obtain ⟨hi, rfl⟩ := List.getElem?_eq_some_iff.mp h
  rw [← (List.getElem_cons_eraseIdx_perm hi).countP_eq p, List.countP_cons]

/-- What is not the item taken stays. -/
theorem mem_eraseIdx_of_ne {y : α} {i : ℕ} (hi : l[i]? = some x) (hy : y ∈ l) (hne : y ≠ x) : y ∈ l.eraseIdx i := by
  obtain ⟨j, hj⟩ := List.mem_iff_getElem?.mp hy
  refine List.mem_eraseIdx_iff_getElem?.mpr ⟨j, fun he => hne ?_, hj⟩
  rw [he, hi] at hj
  exact (Option.some.inj hj).symm

end Queues

end Atomic
