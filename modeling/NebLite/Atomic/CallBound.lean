import NebLite.Atomic.Attempt
import NebLite.Atomic.Faults

/-! Programs that make a bounded number of calls. A process of an interleaving has ended when it has had
so many turns. -/

namespace Atomic

variable {ι Op σ : Type} {Res : Op → Type} {ε α β : Type}

namespace Program

/-- At most `n` calls, whatever they answer. -/
def Bounded : Program Op Res ε α → ℕ → Prop
  | .ret _, _ => True
  | .throw _, _ => True
  | .call _ next, n => 0 < n ∧ ∀ r, (next r).Bounded (n - 1)

variable {p : Program Op Res ε α} {n m : ℕ}

theorem Bounded.mono (hp : p.Bounded n) (h : n ≤ m) : p.Bounded m := by
  induction p generalizing n m with
  | ret a => trivial
  | throw e => trivial
  | call op next ih =>
    obtain ⟨hn, hnext⟩ := hp
    exact ⟨by omega, fun r => ih r (hnext r) (by omega)⟩

theorem Bounded.bind {f : α → Program Op Res ε β} (hp : p.Bounded n) (hf : ∀ a, (f a).Bounded m) :
    (p >>= f).Bounded (n + m) := by
  induction p generalizing n with
  | ret a => exact (hf a).mono (by omega)
  | throw e => trivial
  | call op next ih =>
    obtain ⟨hn, hnext⟩ := hp
    refine ⟨by omega, fun r => (ih r (hnext r)).mono (by omega)⟩

theorem Bounded.catching {g : ε → Program Op Res ε α} (hp : p.Bounded n) (hg : ∀ e, (g e).Bounded m) :
    (p.catching g).Bounded (n + m) := by
  induction p generalizing n with
  | ret a => trivial
  | throw e => exact (hg e).mono (by omega)
  | call op next ih =>
    obtain ⟨hn, hnext⟩ := hp
    refine ⟨by omega, fun r => (ih r (hnext r)).mono (by omega)⟩

theorem Bounded.finalizing {c : Program Op Res ε Unit} (hp : p.Bounded n) (hc : c.Bounded m) :
    (p.finalizing c).Bounded (n + m) := by
  have hlast (q : Program Op Res ε α) (hq : q.Bounded 0) : (c >>= fun _ => q).Bounded (n + m) :=
    (hc.bind fun _ => hq).mono (by omega)
  induction p generalizing n with
  | ret a => exact hlast _ trivial
  | throw e => exact hlast _ trivial
  | call op next ih =>
    obtain ⟨hn, hnext⟩ := hp
    refine ⟨by omega, fun r => ?_⟩
    have hrest := ih r (hnext r) fun q hq => (hc.bind fun _ => hq).mono (by omega)
    exact hrest.mono (by omega)

theorem bounded_ofExcept (r : Except ε α) : (ofExcept r : Program Op Res ε α).Bounded 0 := by
  cases r <;> trivial

theorem bounded_perform (op : Op) : (perform op : Program Op Res ε (Res op)).Bounded 1 :=
  ⟨Nat.one_pos, fun r => bounded_ofExcept r⟩

theorem Bounded.attempt (hp : p.Bounded n) : p.attempt.Bounded n := by
  have hbind : (p >>= fun a => (pure (.ok a) : Program Op Res ε (Except ε α))).Bounded (n + 0) :=
    hp.bind fun _ => trivial
  exact hbind.catching (m := 0) fun _ => trivial

end Program

namespace Pool

variable [DecidableEq ι] {h : Handler Op Res ε σ} {c : Pool ι Op Res ε α σ} {i : ι}

theorem bounded_step {n : ℕ} (hi : (c.procs i).Bounded n) (j : ι) :
    ((c.step h j).procs i).Bounded (n - if j = i then 1 else 0) := by
  obtain ⟨hended, hs⟩ | ⟨op, next, hj, hs⟩ := c.step_cases h j
  · rw [hs]
    split
    · next he =>
      subst he
      cases hp : c.procs j with
      | ret a => trivial
      | throw e => trivial
      | call op next => rw [hp] at hended; cases hended
    · exact hi
  · rw [hs]
    split
    · next he =>
      subst he
      rw [hj] at hi
      simpa only [Function.update_self] using hi.2 _
    · next he =>
      rw [Nat.sub_zero]
      simpa only [Function.update_of_ne (Ne.symm he)] using hi

/-- A process ends when it has had as many turns as it makes calls. -/
theorem ended_of_turns {n : ℕ} (hi : (c.procs i).Bounded n) {sched : List ι} (hn : n ≤ sched.count i) :
    ((c.exec h sched).procs i).pending = none := by
  have hleft : ((c.exec h sched).procs i).Bounded (n - sched.count i) := by
    clear hn
    induction sched generalizing c n with
    | nil => exact hi
    | cons j sched ih =>
      have hrest := ih (bounded_step (h := h) hi j)
      rw [List.count_cons]
      refine hrest.mono ?_
      simp only [beq_iff_eq]
      omega
  rw [Nat.sub_eq_zero_of_le hn] at hleft
  cases hp : (c.exec h sched).procs i with
  | ret a => rfl
  | throw e => rfl
  | call op next =>
    rw [hp] at hleft
    exact absurd hleft.1 (Nat.lt_irrefl 0)

end Pool

end Atomic
