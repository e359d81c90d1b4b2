import NebLite.Atomic.Program

/-! What holds when a program has ended, said apart for an answer and for an
exception; the rules follow the shape of the program. -/

namespace Atomic

namespace Program

variable {Op : Type} {Res : Op → Type} {ε α β σ : Type}

/-- Run from `s`, the program ends with an answer and a store in `Q`, or with an exception and one in `E`. -/
def Outcome (h : Handler Op Res ε σ) (p : Program Op Res ε α) (s : σ) (Q : α → σ → Prop) (E : ε → σ → Prop) :
    Prop :=
  match p.run h s with
  | (.ok a, t) => Q a t
  | (.error e, t) => E e t

variable {h : Handler Op Res ε σ} {p : Program Op Res ε α} {f : α → Program Op Res ε β} {s t : σ}
  {Q : α → σ → Prop} {R : β → σ → Prop} {E : ε → σ → Prop}

theorem outcome_ret {a : α} (hq : Q a s) : Outcome h (.ret a : Program Op Res ε α) s Q E := hq

theorem outcome_throw {e : ε} (he : E e s) : Outcome h (.throw e : Program Op Res ε α) s Q E := he

theorem outcome_of_ok {a : α} (hrun : p.run h s = (.ok a, t)) (hq : Q a t) : p.Outcome h s Q E := by
  unfold Outcome
  rw [hrun]
  exact hq

theorem outcome_of_error {e : ε} (hrun : p.run h s = (.error e, t)) (he : E e t) : p.Outcome h s Q E := by
  unfold Outcome
  rw [hrun]
  exact he

theorem Outcome.bind (hp : p.Outcome h s Q E) (hf : ∀ a t, Q a t → (f a).Outcome h t R E) :
    (p >>= f).Outcome h s R E := by
  unfold Outcome at hp ⊢
  rw [run_bind]
  rcases hrun : p.run h s with ⟨e | a, t⟩ <;> rw [hrun] at hp
  · exact hp
  · exact hf a t hp

theorem outcome_after {a : α} (hrun : p.run h s = (.ok a, t)) (hf : (f a).Outcome h t R E) :
    (p >>= f).Outcome h s R E := by
  unfold Outcome
  rw [run_bind_ok h hrun]
  exact hf

theorem Outcome.mono {Q' : α → σ → Prop} {E' : ε → σ → Prop} (hp : p.Outcome h s Q E)
    (hq : ∀ a t, Q a t → Q' a t) (he : ∀ e t, E e t → E' e t) : p.Outcome h s Q' E' := by
  unfold Outcome at hp ⊢
  rcases hrun : p.run h s with ⟨e | a, t⟩ <;> rw [hrun] at hp
  · exact he e t hp
  · exact hq a t hp

theorem Outcome.catching {g : ε → Program Op Res ε α} {E' : ε → σ → Prop} (hp : p.Outcome h s Q E)
    (hg : ∀ e t, E e t → (g e).Outcome h t Q E') : (p.catching g).Outcome h s Q E' := by
  unfold Outcome at hp ⊢
  rw [run_catching]
  rcases hrun : p.run h s with ⟨e | a, t⟩ <;> rw [hrun] at hp
  · exact hg e t hp
  · exact hp

/-- What holds of the store however the program ends. -/
theorem Outcome.store {P : σ → Prop} (hp : p.Outcome h s (fun _ t => P t) fun _ t => P t) : P (p.run h s).2 := by
  unfold Outcome at hp
  rcases hrun : p.run h s with ⟨e | a, t⟩ <;> rw [hrun] at hp <;> exact hp

theorem outcome_of_store {P : σ → Prop} (hp : P (p.run h s).2) : p.Outcome h s (fun _ t => P t) fun _ t => P t := by
  unfold Outcome
  rcases hrun : p.run h s with ⟨e | a, t⟩ <;> rw [hrun] at hp <;> exact hp

theorem Outcome.cases (hp : p.Outcome h s Q E) : (∃ a, (p.run h s).1 = .ok a ∧ Q a (p.run h s).2) ∨
    ∃ e, (p.run h s).1 = .error e ∧ E e (p.run h s).2 := by
  unfold Outcome at hp
  rcases hrun : p.run h s with ⟨e | a, t⟩ <;> rw [hrun] at hp
  · exact .inr ⟨e, rfl, hp⟩
  · exact .inl ⟨a, rfl, hp⟩

theorem Outcome.ok {a : α} (hp : p.Outcome h s Q E) (hrun : p.run h s = (.ok a, t)) : Q a t := by
  unfold Outcome at hp
  rw [hrun] at hp
  exact hp

theorem Outcome.error {e : ε} (hp : p.Outcome h s Q E) (hrun : p.run h s = (.error e, t)) : E e t := by
  unfold Outcome at hp
  rw [hrun] at hp
  exact hp

/-- A program whose calls keep `I` ends in it either way. -/
theorem Calls.outcome {q : Op → Prop} {I : σ → Prop} (hp : p.Calls q)
    (hq : ∀ op, q op → ∀ u, I u → I (h op u).2) (hs : I s) : p.Outcome h s (fun _ u => I u) fun _ u => I u := by
  have hkeeps : Keeps h (fun u v => I u → I v) p :=
    hp.keeps (fun _ hu => hu) (fun _ _ _ huv hvw hu => hvw (huv hu)) fun op hop u => hq op hop u
  exact outcome_of_store (hkeeps s hs)

/-- The program ends with an answer. -/
abbrev Returns (h : Handler Op Res ε σ) (p : Program Op Res ε α) (s : σ) (Q : α → σ → Prop) : Prop :=
  p.Outcome h s Q fun _ _ => False

theorem Returns.exists_run {Q : α → σ → Prop} (hp : p.Returns h s Q) : ∃ a t, p.run h s = (.ok a, t) ∧ Q a t := by
  unfold Returns Outcome at hp
  rcases hrun : p.run h s with ⟨e | a, t⟩ <;> rw [hrun] at hp
  · exact hp.elim
  · exact ⟨a, t, rfl, hp⟩

theorem Returns.outcome (hp : p.Returns h s Q) : p.Outcome h s (fun _ _ => True) E :=
  hp.mono (fun _ _ _ => trivial) fun _ _ hfalse => hfalse.elim

end Program

end Atomic
