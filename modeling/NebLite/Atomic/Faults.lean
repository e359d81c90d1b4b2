import NebLite.Atomic.Program
import Mathlib.Data.Nat.Notation

/-! Programs run while one of their calls fails. The failing call does nothing
and answers with an exception; a program that lets every exception through
then ends where its calls up to that one have led it. -/

namespace Atomic

/-- A store, and how many more calls are answered before one fails. -/
structure Failing (σ : Type) where
  store : σ
  left : Option ℕ

variable {Op : Type} {Res : Op → Type} {ε α β σ : Type}

/-- The calls of `h`; of those that can fail, the one after those that are left fails with `e`. -/
def failing (e : ε) (fallible : Op → Bool) (h : Handler Op Res ε σ) : Handler Op Res ε (Failing σ) :=
  fun op x =>
    match fallible op, x.left with
    | true, some 0 => (.error e, ⟨x.store, none⟩)
    | true, some (n + 1) => ((h op x.store).1, ⟨(h op x.store).2, some n⟩)
    | _, left => ((h op x.store).1, ⟨(h op x.store).2, left⟩)

section Failing

variable (e : ε) (fallible : Op → Bool) (h : Handler Op Res ε σ) (op : Op) (s : σ)

theorem failing_none : failing e fallible h op ⟨s, none⟩ = ((h op s).1, ⟨(h op s).2, none⟩) := by
  unfold failing
  cases fallible op <;> rfl

variable {fallible op}

theorem failing_zero (hop : fallible op = true) : failing e fallible h op ⟨s, some 0⟩ = (.error e, ⟨s, none⟩) := by
  simp only [failing, hop]

theorem failing_succ (hop : fallible op = true) (n : ℕ) :
    failing e fallible h op ⟨s, some (n + 1)⟩ = ((h op s).1, ⟨(h op s).2, some n⟩) := by
  simp only [failing, hop]

theorem failing_infallible (hop : fallible op = false) (left : Option ℕ) :
    failing e fallible h op ⟨s, left⟩ = ((h op s).1, ⟨(h op s).2, left⟩) := by
  simp only [failing, hop]

end Failing

namespace Program

/-- The cleanup runs whatever the outcome is, and the outcome stays. -/
def finalizing : Program Op Res ε α → Program Op Res ε Unit → Program Op Res ε α
  | .ret a, c => c >>= fun _ => .ret a
  | .throw e, c => c >>= fun _ => .throw e
  | .call op next, c => .call op fun r => (next r).finalizing c

theorem Calls.finalizing {q : Op → Prop} {p : Program Op Res ε α} {c : Program Op Res ε Unit} (hp : p.Calls q)
    (hc : c.Calls q) : (p.finalizing c).Calls q := by
  induction p with
  | ret a => exact hc.bind fun _ => trivial
  | throw e => exact hc.bind fun _ => trivial
  | call op next ih => exact ⟨hp.1, fun r => ih r (hp.2 r)⟩

/-- The exception of a call ends the program. -/
def Straight : Program Op Res ε α → Prop
  | .ret _ => True
  | .throw _ => True
  | .call _ next => (∀ e, next (.error e) = .throw e) ∧ ∀ a, (next (.ok a)).Straight

section Straight

theorem straight_perform (op : Op) : (perform op : Program Op Res ε (Res op)).Straight :=
  ⟨fun _ => rfl, fun _ => trivial⟩

theorem straight_ofExcept (r : Except ε α) : (ofExcept r : Program Op Res ε α).Straight := by
  cases r <;> trivial

theorem Straight.bind {p : Program Op Res ε α} {f : α → Program Op Res ε β} (hp : p.Straight)
    (hf : ∀ a, (f a).Straight) : (p >>= f).Straight := by
  induction p with
  | ret a => exact hf a
  | throw e => trivial
  | call op next ih =>
    refine ⟨fun e => ?_, fun a => ih _ (hp.2 a)⟩
    show (next (.error e)).bind f = .throw e
    rw [hp.1 e]
    rfl

theorem straight_mapM (xs : List β) {f : β → Program Op Res ε α} (hf : ∀ x, (f x).Straight) :
    (xs.mapM f).Straight := by
  induction xs with
  | nil => trivial
  | cons x xs ih =>
    rw [List.mapM_cons]
    exact (hf x).bind fun _ => ih.bind fun _ => trivial

theorem straight_forM (xs : List β) {f : β → Program Op Res ε PUnit} (hf : ∀ x, (f x).Straight) :
    (xs.forM f).Straight := by
  induction xs with
  | nil => trivial
  | cons x xs ih => exact (hf x).bind fun _ => ih

theorem Straight.next {op : Op} {next : Except ε (Res op) → Program Op Res ε α}
    (hp : (Program.call op next).Straight) (r : Except ε (Res op)) : (next r).Straight := by
  cases r with
  | error e =>
    rw [hp.1 e]
    trivial
  | ok a => exact hp.2 a

end Straight

variable (fallible : Op → Bool) (h : Handler Op Res ε σ)

/-- How many calls that can fail the program makes. -/
def cost : Program Op Res ε α → σ → ℕ
  | .ret _, _ => 0
  | .throw _, _ => 0
  | .call op next, s => (next (h op s).1).cost (h op s).2 + if fallible op then 1 else 0

/-- The store when `n` calls that can fail have been made, and the next one is due. -/
def upto : Program Op Res ε α → ℕ → σ → σ
  | .ret _, _, s => s
  | .throw _, _, s => s
  | .call op next, n, s =>
    if fallible op then
      match n with
      | 0 => s
      | n + 1 => (next (h op s).1).upto n (h op s).2
    else (next (h op s).1).upto n (h op s).2

section Upto

variable {fallible h} {p : Program Op Res ε α} {f : α → Program Op Res ε β} {s t : σ} {n : ℕ}
  {op : Op} {next : Except ε (Res op) → Program Op Res ε α}

theorem cost_fallible (hop : fallible op = true) :
    (Program.call op next).cost fallible h s = (next (h op s).1).cost fallible h (h op s).2 + 1 := by
  simp only [cost, hop, if_true]

theorem cost_infallible (hop : fallible op = false) :
    (Program.call op next).cost fallible h s = (next (h op s).1).cost fallible h (h op s).2 := by
  simp [cost, hop]

theorem upto_zero (hop : fallible op = true) : (Program.call op next).upto fallible h 0 s = s := by
  simp only [upto, hop, if_true]

theorem upto_succ (hop : fallible op = true) (n : ℕ) :
    (Program.call op next).upto fallible h (n + 1) s = (next (h op s).1).upto fallible h n (h op s).2 := by
  simp only [upto, hop, if_true]

theorem upto_infallible (hop : fallible op = false) (n : ℕ) :
    (Program.call op next).upto fallible h n s = (next (h op s).1).upto fallible h n (h op s).2 := by
  simp [upto, hop]

theorem upto_of_cost_le (hn : p.cost fallible h s ≤ n) : p.upto fallible h n s = (p.run h s).2 := by
  induction p generalizing n s with
  | ret a => rfl
  | throw e => rfl
  | call op next ih =>
    cases hop : fallible op with
    | false =>
      rw [cost_infallible hop] at hn
      rw [upto_infallible hop]
      exact ih _ hn
    | true =>
      rw [cost_fallible hop] at hn
      cases n with
      | zero => omega
      | succ n =>
        rw [upto_succ hop]
        exact ih _ (by omega)

theorem upto_bind_early (hn : n < p.cost fallible h s) :
    (p >>= f).upto fallible h n s = p.upto fallible h n s := by
  induction p generalizing n s with
  | ret a => exact absurd hn (Nat.not_lt_zero n)
  | throw e => rfl
  | call op next ih =>
    rw [call_bind]
    cases hop : fallible op with
    | false =>
      rw [cost_infallible hop] at hn
      rw [upto_infallible hop, upto_infallible hop]
      exact ih _ hn
    | true =>
      rw [cost_fallible hop] at hn
      cases n with
      | zero => rw [upto_zero hop, upto_zero hop]
      | succ n =>
        rw [upto_succ hop, upto_succ hop]
        exact ih _ (by omega)

theorem upto_bind_late {a : α} (hrun : p.run h s = (.ok a, t)) (hn : p.cost fallible h s ≤ n) :
    (p >>= f).upto fallible h n s = (f a).upto fallible h (n - p.cost fallible h s) t := by
  induction p generalizing n s with
  | ret b =>
    obtain ⟨rfl, rfl⟩ : b = a ∧ s = t := by simpa using hrun
    rfl
  | throw e => cases hrun
  | call op next ih =>
    rw [call_bind]
    cases hop : fallible op with
    | false =>
      rw [cost_infallible hop] at hn ⊢
      rw [upto_infallible hop]
      exact ih _ hrun hn
    | true =>
      rw [cost_fallible hop] at hn ⊢
      cases n with
      | zero => omega
      | succ n =>
        rw [upto_succ hop, Nat.add_sub_add_right]
        exact ih _ hrun (by omega)

theorem upto_bind_error {e : ε} (hrun : p.run h s = (.error e, t)) (n : ℕ) :
    (p >>= f).upto fallible h n s = p.upto fallible h n s := by
  induction p generalizing n s with
  | ret b => cases hrun
  | throw e => rfl
  | call op next ih =>
    rw [call_bind]
    cases hop : fallible op with
    | false =>
      rw [upto_infallible hop, upto_infallible hop]
      exact ih _ hrun n
    | true =>
      cases n with
      | zero => rw [upto_zero hop, upto_zero hop]
      | succ n =>
        rw [upto_succ hop, upto_succ hop]
        exact ih _ hrun n

theorem cost_bind_ok {a : α} (hrun : p.run h s = (.ok a, t)) :
    (p >>= f).cost fallible h s = p.cost fallible h s + (f a).cost fallible h t := by
  induction p generalizing s with
  | ret b =>
    obtain ⟨rfl, rfl⟩ : b = a ∧ s = t := by simpa using hrun
    exact (Nat.zero_add _).symm
  | throw e => cases hrun
  | call op next ih =>
    have hrest := ih _ hrun
    rw [call_bind]
    simp only [cost] at hrest ⊢
    omega

/-- The first calls of a program keep what each of its calls keeps. -/
theorem Calls.upto_keeps {R : σ → σ → Prop} {q : Op → Prop} (hp : p.Calls q) (hr : ∀ s, R s s)
    (ht : ∀ s t u, R s t → R t u → R s u) (hq : ∀ op, q op → ∀ s, R s (h op s).2) (n : ℕ) (s : σ) :
    R s (p.upto fallible h n s) := by
  induction p generalizing n s with
  | ret a => exact hr s
  | throw e => exact hr s
  | call op next ih =>
    have hstep (n : ℕ) : R s ((next (h op s).1).upto fallible h n (h op s).2) :=
      ht s _ _ (hq op hp.1 s) (ih _ (hp.2 _) n _)
    cases hop : fallible op with
    | false =>
      rw [upto_infallible hop]
      exact hstep n
    | true =>
      cases n with
      | zero =>
        rw [upto_zero hop]
        exact hr s
      | succ n =>
        rw [upto_succ hop]
        exact hstep n

end Upto

section Run

variable {fallible h} {p : Program Op Res ε α} {s : σ}

theorem run_failing_none (p : Program Op Res ε α) (e : ε) (s : σ) :
    p.run (failing e fallible h) ⟨s, none⟩ = ((p.run h s).1, ⟨(p.run h s).2, none⟩) := by
  induction p generalizing s with
  | ret a => rfl
  | throw e => rfl
  | call op next ih =>
    rw [run, failing_none, run]
    exact ih _ _

/-- A failing call leaves a program that lets exceptions through where it is. -/
theorem Straight.run_failing (hp : p.Straight) (e : ε) (n : ℕ) (s : σ) :
    p.run (failing e fallible h) ⟨s, some n⟩ =
      if n < p.cost fallible h s then (.error e, ⟨p.upto fallible h n s, none⟩)
      else ((p.run h s).1, ⟨(p.run h s).2, some (n - p.cost fallible h s)⟩) := by
  induction p generalizing n s with
  | ret a => rfl
  | throw e => rfl
  | call op next ih =>
    cases hop : fallible op with
    | false =>
      rw [run, failing_infallible e h s hop, cost_infallible hop, upto_infallible hop]
      exact ih _ (hp.next _) n _
    | true =>
      rw [cost_fallible hop]
      cases n with
      | zero =>
        rw [if_pos (Nat.succ_pos _), run, failing_zero e h s hop, upto_zero hop, hp.1 e]
        rfl
      | succ n =>
        rw [run, failing_succ e h s hop, ih _ (hp.next _), upto_succ hop, Nat.add_sub_add_right]
        simp only [Nat.add_lt_add_iff_right]
        rfl

theorem Straight.failing_store (hp : p.Straight) (e : ε) (n : ℕ) (s : σ) :
    (p.run (failing e fallible h) ⟨s, some n⟩).2.store = p.upto fallible h n s := by
  rw [hp.run_failing]
  by_cases hn : n < p.cost fallible h s
  · rw [if_pos hn]
  · rw [if_neg hn]
    exact (upto_of_cost_le (Nat.le_of_not_lt hn)).symm

/-- Calls of which one fails do no more than calls of which none does. -/
theorem Calls.keeps_failing {R : σ → σ → Prop} {q : Op → Prop} (hp : p.Calls q) (hr : ∀ s, R s s)
    (ht : ∀ s t u, R s t → R t u → R s u) (hq : ∀ op, q op → ∀ s, R s (h op s).2) (e : ε) :
    Keeps (failing e fallible h) (fun x y => R x.store y.store) p := by
  refine hp.keeps (fun x => hr x.store) (fun x y z => ht x.store y.store z.store) ?_
  rintro op hop ⟨s, left⟩
  unfold failing
  split
  · exact hr s
  · exact hq op hop s
  · exact hq op hop s

theorem run_finalizing (p : Program Op Res ε α) (c : Program Op Res ε Unit) (s : σ) :
    (p.finalizing c).run h s = ((c.run h (p.run h s).2).1.bind fun _ => (p.run h s).1, (c.run h (p.run h s).2).2) := by
  induction p generalizing s with
  | ret a =>
    change (c >>= fun _ => .ret a).run h s = _
    rw [run_bind, run_ret]
    rcases c.run h s with ⟨e | u, t⟩ <;> rfl
  | throw e =>
    change (c >>= fun _ => .throw e).run h s = _
    rw [run_bind, run_throw]
    rcases c.run h s with ⟨e | u, t⟩ <;> rfl
  | call op next ih => exact ih _ _

end Run

end Program

end Atomic
