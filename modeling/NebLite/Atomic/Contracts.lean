import NebLite.Atomic.Attempt
import NebLite.Atomic.Faults

/-! Contracts on atomic calls: what a caller owes for a call, and what the answer then
promises, in every store that satisfies an invariant. Promises that do not depend on the
store outlive the work of other processes. -/

namespace Atomic

variable {ι Op σ : Type} {Res : Op → Type} {ε α β : Type}

structure Contract (Op : Type) (Res : Op → Type) (ε : Type) where
  requires : Op → Prop
  ensures : (op : Op) → Except ε (Res op) → Prop

namespace Contract

variable (k : Contract Op Res ε)

/-- The program makes only calls that it may make, counting on the promises of the answers
before, and what it ends with satisfies `Q`. -/
def Obeys (Q : Except ε α → Prop) : Program Op Res ε α → Prop
  | .ret a => Q (.ok a)
  | .throw e => Q (.error e)
  | .call op next => k.requires op ∧ ∀ r, k.ensures op r → Obeys Q (next r)

/-- The handler keeps its promises in every store with `I`, and each call leaves one. -/
def HonouredBy (h : Handler Op Res ε σ) (I : σ → Prop) : Prop :=
  ∀ op s, k.requires op → I s → k.ensures op (h op s).1 ∧ I (h op s).2

variable {k} {Q Q' : Except ε α → Prop} {R : Except ε β → Prop} {p : Program Op Res ε α}

theorem Obeys.mono (hp : k.Obeys Q p) (hQ : ∀ r, Q r → Q' r) : k.Obeys Q' p := by
  induction p with
  | ret a => exact hQ _ hp
  | throw e => exact hQ _ hp
  | call op next ih => exact ⟨hp.1, fun r hr => ih r (hp.2 r hr)⟩

theorem Obeys.bind {f : α → Program Op Res ε β} (hp : k.Obeys Q p) (hok : ∀ a, Q (.ok a) → k.Obeys R (f a))
    (herr : ∀ e, Q (.error e) → R (.error e)) : k.Obeys R (p >>= f) := by
  induction p with
  | ret a => exact hok a hp
  | throw e => exact herr e hp
  | call op next ih => exact ⟨hp.1, fun r hr => ih r (hp.2 r hr)⟩

theorem Obeys.catching {g : ε → Program Op Res ε α} (hp : k.Obeys Q p) (hok : ∀ a, Q (.ok a) → Q' (.ok a))
    (herr : ∀ e, Q (.error e) → k.Obeys Q' (g e)) : k.Obeys Q' (p.catching g) := by
  induction p with
  | ret a => exact hok a hp
  | throw e => exact herr e hp
  | call op next ih => exact ⟨hp.1, fun r hr => ih r (hp.2 r hr)⟩

/-- The cleanup of a program that ends well enough either keeps its end or throws. -/
theorem Obeys.finalizing {c : Program Op Res ε Unit} (hp : k.Obeys Q p)
    (hc : k.Obeys (fun r => ∀ e, r = .error e → Q (.error e)) c) : k.Obeys Q (p.finalizing c) := by
  induction p with
  | ret a => exact hc.bind (fun _ _ => hp) fun e he => he e rfl
  | throw e => exact hc.bind (fun _ _ => hp) fun e he => he e rfl
  | call op next ih => exact ⟨hp.1, fun r hr => ih r (hp.2 r hr)⟩

theorem Obeys.attempt (hp : k.Obeys Q p) : k.Obeys (fun r => ∀ x, r = .ok x → Q x) p.attempt := by
  refine Obeys.catching (Q := fun r => ∀ x, r.bind id = x → Q x) ?_ ?_ ?_
  · exact hp.bind (fun a ha => fun _ hx => hx ▸ ha) fun e he => fun _ hx => hx ▸ he
  · rintro a ha x hx
    obtain rfl := Except.ok.inj hx
    exact ha _ rfl
  · rintro e he x hx
    obtain rfl := Except.ok.inj hx
    exact he _ rfl

/-- One call; its promise is all that is known of the end. -/
theorem obeys_perform {op : Op} (hr : k.requires op) :
    k.Obeys (k.ensures op) (Program.perform op : Program Op Res ε (Res op)) := by
  refine ⟨hr, fun r h => ?_⟩
  cases r with
  | ok a => exact h
  | error e => exact h

/-- A program that runs alone. -/
theorem Obeys.run {h : Handler Op Res ε σ} {I : σ → Prop} (hh : k.HonouredBy h I) (hp : k.Obeys Q p) {s : σ}
    (hs : I s) : Q (p.run h s).1 ∧ I (p.run h s).2 := by
  induction p generalizing s with
  | ret a => exact ⟨hp, hs⟩
  | throw e => exact ⟨hp, hs⟩
  | call op next ih =>
    obtain ⟨hensures, hI⟩ := hh op s hp.1 hs
    exact ih _ (hp.2 _ hensures) hI

/-- Every process of the pool obeys the contract, and the store satisfies `I`. -/
structure Holds (k : Contract Op Res ε) (I : σ → Prop) (Q : ι → Except ε α → Prop) (c : Pool ι Op Res ε α σ) :
    Prop where
  store : I c.store
  procs : ∀ i, k.Obeys (Q i) (c.procs i)

variable {h : Handler Op Res ε σ} {I : σ → Prop} {P : ι → Except ε α → Prop} {c : Pool ι Op Res ε α σ}

theorem Holds.outcome (hc : Holds k I P c) {i : ι} {r : Except ε α} (hr : (c.procs i).outcome = some r) : P i r := by
  have hpi := hc.procs i
  cases hi : c.procs i with
  | ret a =>
    rw [hi] at hpi hr
    cases hr
    exact hpi
  | throw e =>
    rw [hi] at hpi hr
    cases hr
    exact hpi
  | call op next =>
    rw [hi] at hr
    cases hr

variable [DecidableEq ι]

theorem Holds.step (hc : Holds k I P c) (hh : k.HonouredBy h I) (i : ι) : Holds k I P (c.step h i) := by
  obtain ⟨-, hs⟩ | ⟨op, next, hi, hs⟩ := c.step_cases h i
  · rwa [hs]
  · have hpi := hc.procs i
    rw [hi] at hpi
    obtain ⟨hrequires, hnext⟩ := hpi
    obtain ⟨hensures, hI⟩ := hh op c.store hrequires hc.store
    rw [hs]
    refine ⟨hI, fun j => ?_⟩
    by_cases hj : j = i
    · subst hj
      simpa using hnext _ hensures
    · simpa [hj] using hc.procs j

/-- In every interleaving the contract goes on to be obeyed. -/
theorem Holds.exec (hc : Holds k I P c) (hh : k.HonouredBy h I) (sched : List ι) : Holds k I P (c.exec h sched) :=
  Runs.invariant (fun _ i hc _ => hc.step hh i) hc (Runs.meets_true c sched)

end Contract

end Atomic
