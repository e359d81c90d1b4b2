import NebLite.Atomic.Interleaving
import NebLite.Atomic.Outcomes

/-! The outcome of a program as a value, for code that goes on after an exception. -/

namespace Atomic

variable {Op L σ : Type} {Res : Op → Type} {ε α β : Type}

namespace Program

def attempt (p : Program Op Res ε α) : Program Op Res ε (Except ε α) :=
  (p >>= fun a => pure (.ok a)).catching fun e => pure (.error e)

variable {h : Handler Op Res ε σ} {p : Program Op Res ε α} {s : σ}

theorem run_attempt (p : Program Op Res ε α) (s : σ) :
    p.attempt.run h s = (.ok (p.run h s).1, (p.run h s).2) := by
  unfold attempt
  rw [run_catching, run_bind]
  rcases p.run h s with ⟨e | a, t⟩ <;> rfl

/-- After an attempt the outcome is known as a value. -/
theorem Outcome.attempt {Q : α → σ → Prop} {E : ε → σ → Prop} (hp : p.Outcome h s Q E) :
    p.attempt.Returns h s fun r t =>
      match r with
      | .ok a => Q a t
      | .error e => E e t := by
  unfold Returns Outcome
  rw [run_attempt]
  unfold Outcome at hp
  rcases hrun : p.run h s with ⟨e | a, t⟩ <;> rw [hrun] at hp <;> exact hp

theorem Calls.attempt {q : Op → Prop} (hp : p.Calls q) : p.attempt.Calls q :=
  (hp.bind fun _ => calls_pure _).catching fun _ => calls_pure _

end Program

namespace Outline

variable {o : Outline L Op σ} {h : Handler Op Res ε σ}

/-- Both outcomes of `p` are followed by what comes after the attempt. -/
theorem Follows.attempt {done : L → Except ε α → Prop} {done' : L → Except ε β → Prop} {l : L}
    {p : Program Op Res ε α} {f : Except ε α → Program Op Res ε β} (hp : o.Follows h done l p)
    (hf : ∀ l r, done l r → o.Follows h done' l (f r)) : o.Follows h done' l (p.attempt >>= f) := by
  induction p generalizing l with
  | ret a => exact hf l (.ok a) hp
  | throw e => exact hf l (.error e) hp
  | call op next ih =>
    intro s hs
    obtain ⟨l', hm, hn⟩ := hp s hs
    exact ⟨l', hm, ih _ hn⟩

end Outline

end Atomic
