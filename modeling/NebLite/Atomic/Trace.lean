import NebLite.Atomic.Program

/-! The calls that a run makes, in their order. -/

namespace Atomic

namespace Program

variable {Op : Type} {Res : Op → Type} {ε α β σ : Type} {h : Handler Op Res ε σ} {p : Program Op Res ε α}
  {f : α → Program Op Res ε β} {s t : σ}

def trace (h : Handler Op Res ε σ) : Program Op Res ε α → σ → List Op
  | .ret _, _ => []
  | .throw _, _ => []
  | .call op next, s => op :: (next (h op s).1).trace h (h op s).2

theorem trace_bind_ok {a : α} (hrun : p.run h s = (.ok a, t)) :
    (p >>= f).trace h s = p.trace h s ++ (f a).trace h t := by
  induction p generalizing s with
  | ret b =>
    obtain ⟨rfl, rfl⟩ : b = a ∧ s = t := by simpa using hrun
    rfl
  | throw e => cases hrun
  | call op next ih => exact congrArg (op :: ·) (ih _ hrun)

theorem Calls.trace {q : Op → Prop} (hp : p.Calls q) (s : σ) : ∀ op ∈ p.trace h s, q op := by
  induction p generalizing s with
  | ret a => exact fun op hop => absurd hop List.not_mem_nil
  | throw e => exact fun op hop => absurd hop List.not_mem_nil
  | call op next ih =>
    intro op' hop'
    obtain rfl | hop' := List.mem_cons.mp hop'
    · exact hp.1
    · exact ih _ (hp.2 _) _ op' hop'

/-- A part of the run that makes no call of a kind does not count for that kind. -/
theorem Calls.filter_trace {kind : Op → Bool} {a : α} (hp : p.Calls fun op => kind op = false)
    (hrun : p.run h s = (.ok a, t)) : ((p >>= f).trace h s).filter kind = ((f a).trace h t).filter kind := by
  have hnone : (p.trace h s).filter kind = [] := by
    refine List.filter_eq_nil_iff.mpr fun op hop => ?_
    rw [hp.trace s op hop]
    exact Bool.false_ne_true
  rw [trace_bind_ok hrun, List.filter_append, hnone, List.nil_append]

end Program

end Atomic
