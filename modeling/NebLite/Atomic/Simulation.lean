import NebLite.Atomic.Attempt

/-! Two programs, each over calls and a store of its own, of which one does what the other does. -/

namespace Atomic

variable {Op Op' σ τ : Type} {Res : Op → Type} {Res' : Op' → Type} {ε α α' β β' : Type}

/-- Related answers, or the same exception. -/
inductive Agrees (rel : α → β → Prop) : Except ε α → Except ε β → Prop where
  | ok {a : α} {b : β} (h : rel a b) : Agrees rel (.ok a) (.ok b)
  | error (e : ε) : Agrees rel (.error e) (.error e)

namespace Program

/-- From related stores the programs end in related stores, with answers that agree. -/
def Simulates (h : Handler Op Res ε σ) (h' : Handler Op' Res' ε τ) (sim : σ → τ → Prop) (rel : α → β → Prop)
    (p : Program Op Res ε α) (q : Program Op' Res' ε β) : Prop :=
  ∀ s t, sim s t → Agrees rel (p.run h s).1 (q.run h' t).1 ∧ sim (p.run h s).2 (q.run h' t).2

namespace Simulates

variable {h : Handler Op Res ε σ} {h' : Handler Op' Res' ε τ} {sim : σ → τ → Prop} {rel : α → β → Prop}
  {rel' : α' → β' → Prop} {p : Program Op Res ε α} {q : Program Op' Res' ε β}

theorem pure {a : α} {b : β} (hab : rel a b) :
    Simulates h h' sim rel (Pure.pure a : Program Op Res ε α) (Pure.pure b : Program Op' Res' ε β) :=
  fun _ _ hst => ⟨.ok hab, hst⟩

/-- One call for one call. -/
theorem perform (op : Op) (op' : Op') {rel : Res op → Res' op' → Prop}
    (hop : ∀ s t, sim s t → Agrees rel (h op s).1 (h' op' t).1 ∧ sim (h op s).2 (h' op' t).2) :
    Simulates h h' sim rel (Program.perform op) (Program.perform op') := by
  intro s t hst
  rw [run_perform, run_perform]
  exact hop s t hst

theorem bind {f : α → Program Op Res ε α'} {g : β → Program Op' Res' ε β'} (hp : Simulates h h' sim rel p q)
    (hf : ∀ a b, rel a b → Simulates h h' sim rel' (f a) (g b)) : Simulates h h' sim rel' (p >>= f) (q >>= g) := by
  intro s t hst
  obtain ⟨hanswer, hstore⟩ := hp s t hst
  rw [run_bind, run_bind]
  rcases hrun : p.run h s with ⟨r, s'⟩
  rcases hrun' : q.run h' t with ⟨r', t'⟩
  rw [hrun, hrun'] at hanswer hstore
  cases hanswer with
  | ok hab => exact hf _ _ hab s' t' hstore
  | error e => exact ⟨.error e, hstore⟩

/-- What comes after does not touch the store. -/
theorem bind_left {f : α → Program Op Res ε α'} {rel' : α' → β → Prop} (hp : Simulates h h' sim rel p q)
    (hf : ∀ a b, rel a b → Simulates h h' sim rel' (f a) (Pure.pure b : Program Op' Res' ε β)) :
    Simulates h h' sim rel' (p >>= f) q := by
  rw [← bind_pure' q]
  exact hp.bind hf

/-- A program that returns, whatever the store is, and an attempt at one that may not. -/
theorem attempt (hp : Simulates h h' sim rel p q) (hq : ∀ t e, (q.run h' t).1 ≠ .error e) :
    Simulates h h' sim (fun r b => ∃ a, r = .ok a ∧ rel a b) p.attempt q := by
  intro s t hst
  obtain ⟨hanswer, hstore⟩ := hp s t hst
  rw [run_attempt]
  rcases hrun : p.run h s with ⟨r, s'⟩
  rcases hrun' : q.run h' t with ⟨r', t'⟩
  rw [hrun, hrun'] at hanswer hstore
  cases hanswer with
  | ok hab => exact ⟨.ok ⟨_, rfl, hab⟩, hstore⟩
  | error e => exact absurd (congrArg Prod.fst hrun') (hq t e)

end Simulates

end Program

end Atomic
