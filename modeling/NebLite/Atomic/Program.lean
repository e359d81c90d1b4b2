import Mathlib.Logic.Basic

/-! Programs that touch shared state only through atomic calls. A call names
its operation and continues from the answer, which may be an exception. -/

namespace Atomic

inductive Program (Op : Type) (Res : Op → Type) (ε α : Type) where
  | ret (a : α)
  | throw (e : ε)
  | call (op : Op) (next : Except ε (Res op) → Program Op Res ε α)

/-- What one atomic call answers, and the state it leaves. -/
abbrev Handler (Op : Type) (Res : Op → Type) (ε σ : Type) :=
  (op : Op) → σ → Except ε (Res op) × σ

namespace Program

variable {Op : Type} {Res : Op → Type} {ε α β γ σ : Type}

def bind : Program Op Res ε α → (α → Program Op Res ε β) → Program Op Res ε β
  | .ret a, f => f a
  | .throw e, _ => .throw e
  | .call op next, f => .call op (fun r => (next r).bind f)

instance : Monad (Program Op Res ε) where
  pure := .ret
  bind := .bind

/-- An exception of the program or of a call reaches the handler `g`. -/
def catching : Program Op Res ε α → (ε → Program Op Res ε α) → Program Op Res ε α
  | .ret a, _ => .ret a
  | .throw e, g => g e
  | .call op next, g => .call op (fun r => (next r).catching g)

def ofExcept : Except ε α → Program Op Res ε α
  | .ok a => .ret a
  | .error e => .throw e

/-- One atomic call; its exception is the program's. -/
def perform (op : Op) : Program Op Res ε (Res op) :=
  .call op ofExcept

instance : MonadExceptOf ε (Program Op Res ε) where
  throw := .throw
  tryCatch := .catching

@[simp] theorem pure_bind' (a : α) (f : α → Program Op Res ε β) :
    (pure a : Program Op Res ε α) >>= f = f a := rfl

@[simp] theorem ret_bind (a : α) (f : α → Program Op Res ε β) :
    (Program.ret a : Program Op Res ε α) >>= f = f a := rfl

@[simp] theorem throw_bind (e : ε) (f : α → Program Op Res ε β) :
    (Program.throw e : Program Op Res ε α) >>= f = .throw e := rfl

@[simp] theorem call_bind (op : Op) (next : Except ε (Res op) → Program Op Res ε α)
    (f : α → Program Op Res ε β) :
    (Program.call op next) >>= f = .call op (fun r => next r >>= f) := rfl

theorem throw_seq (e : ε) (f : α → Program Op Res ε β) :
    ((MonadExcept.throw e : Program Op Res ε α) >>= f) = .throw e := rfl

@[simp] theorem throw_eq (e : ε) :
    (MonadExcept.throw e : Program Op Res ε α) = .throw e := rfl

@[simp] theorem ofExcept_ok (a : α) :
    (ofExcept (.ok a) : Program Op Res ε α) = .ret a := rfl

@[simp] theorem ofExcept_error (e : ε) :
    (ofExcept (.error e) : Program Op Res ε α) = .throw e := rfl

theorem bind_assoc' (p : Program Op Res ε α) (f : α → Program Op Res ε β)
    (g : β → Program Op Res ε γ) : p >>= f >>= g = p >>= fun a => f a >>= g := by
  induction p with
  | ret a => rfl
  | throw e => rfl
  | call op next ih => exact congrArg (Program.call op) (funext ih)

theorem bind_pure' (p : Program Op Res ε α) : p >>= (fun a => pure a) = p := by
  induction p with
  | ret a => rfl
  | throw e => rfl
  | call op next ih => exact congrArg (Program.call op) (funext ih)

instance : LawfulMonad (Program Op Res ε) :=
  LawfulMonad.mk' _ bind_pure' (fun _ _ => rfl) bind_assoc'

/-- Every call that the program can come to satisfies `q`, whatever the answers. -/
def Calls (q : Op → Prop) : Program Op Res ε α → Prop
  | .ret _ => True
  | .throw _ => True
  | .call op next => q op ∧ ∀ r, (next r).Calls q

section Calls

variable {q : Op → Prop}

@[simp] theorem calls_ret (a : α) : (Program.ret a : Program Op Res ε α).Calls q := trivial

@[simp] theorem calls_pure (a : α) : (pure a : Program Op Res ε α).Calls q := trivial

@[simp] theorem calls_throw (e : ε) : (Program.throw e : Program Op Res ε α).Calls q := trivial

theorem Calls.bind {p : Program Op Res ε α} {f : α → Program Op Res ε β} (hp : p.Calls q)
    (hf : ∀ a, (f a).Calls q) : (p >>= f).Calls q := by
  induction p with
  | ret a => exact hf a
  | throw e => trivial
  | call op next ih => exact ⟨hp.1, fun r => ih r (hp.2 r)⟩

@[simp] theorem calls_ofExcept (r : Except ε α) : (ofExcept r : Program Op Res ε α).Calls q := by
  cases r <;> trivial

@[simp] theorem calls_perform (op : Op) :
    (perform op : Program Op Res ε (Res op)).Calls q ↔ q op :=
  ⟨And.left, fun h => ⟨h, calls_ofExcept⟩⟩

@[simp] theorem calls_perform_bind (op : Op) (f : Res op → Program Op Res ε β) :
    (perform op >>= f).Calls q ↔ q op ∧ ∀ a, (f a).Calls q :=
  ⟨fun h => ⟨h.1, fun a => h.2 (.ok a)⟩, fun h => Calls.bind ((calls_perform op).mpr h.1) h.2⟩

@[simp] theorem calls_map (f : α → β) (p : Program Op Res ε α) : (f <$> p).Calls q ↔ p.Calls q := by
  rw [map_eq_pure_bind]
  refine ⟨fun h => ?_, fun h => h.bind fun _ => trivial⟩
  induction p with
  | ret a => trivial
  | throw e => trivial
  | call op next ih => exact ⟨h.1, fun r => ih r (h.2 r)⟩

theorem Calls.catching {p : Program Op Res ε α} {g : ε → Program Op Res ε α} (hp : p.Calls q)
    (hg : ∀ e, (g e).Calls q) : (p.catching g).Calls q := by
  induction p with
  | ret a => trivial
  | throw e => exact hg e
  | call op next ih => exact ⟨hp.1, fun r => ih r (hp.2 r)⟩

theorem Calls.mono {q' : Op → Prop} {p : Program Op Res ε α} (hp : p.Calls q)
    (h : ∀ op, q op → q' op) : p.Calls q' := by
  induction p with
  | ret a => trivial
  | throw e => trivial
  | call op next ih => exact ⟨h op hp.1, fun r => ih r (hp.2 r)⟩

end Calls

/-- The whole program with no other process in between. -/
def run (h : Handler Op Res ε σ) : Program Op Res ε α → σ → Except ε α × σ
  | .ret a, s => (.ok a, s)
  | .throw e, s => (.error e, s)
  | .call op next, s => (next (h op s).1).run h (h op s).2

section Run

variable (h : Handler Op Res ε σ)

@[simp] theorem run_ret (a : α) (s : σ) :
    (Program.ret a : Program Op Res ε α).run h s = (.ok a, s) := rfl

@[simp] theorem run_pure (a : α) (s : σ) :
    (pure a : Program Op Res ε α).run h s = (.ok a, s) := rfl

@[simp] theorem run_throw (e : ε) (s : σ) :
    (Program.throw e : Program Op Res ε α).run h s = (.error e, s) := rfl

theorem run_bind (p : Program Op Res ε α) (f : α → Program Op Res ε β) (s : σ) :
    (p >>= f).run h s = match p.run h s with
      | (.ok a, t) => (f a).run h t
      | (.error e, t) => (.error e, t) := by
  induction p generalizing s with
  | ret a => rfl
  | throw e => rfl
  | call op next ih => exact ih _ _

theorem run_bind_ok {p : Program Op Res ε α} {s t : σ} {a : α}
    (hp : p.run h s = (.ok a, t)) (f : α → Program Op Res ε β) :
    (p >>= f).run h s = (f a).run h t := by
  rw [run_bind, hp]

theorem run_bind_error {p : Program Op Res ε α} {s t : σ} {e : ε}
    (hp : p.run h s = (.error e, t)) (f : α → Program Op Res ε β) :
    (p >>= f).run h s = (.error e, t) := by
  rw [run_bind, hp]

theorem run_catching (p : Program Op Res ε α) (g : ε → Program Op Res ε α) (s : σ) :
    (p.catching g).run h s = match p.run h s with
      | (.ok a, t) => (.ok a, t)
      | (.error e, t) => (g e).run h t := by
  induction p generalizing s with
  | ret a => rfl
  | throw e => rfl
  | call op next ih => exact ih _ _

/-- A handler that only throws again does not touch the store. -/
theorem run_rethrow (p : Program Op Res ε α) (g : ε → ε) (s : σ) :
    ((p.catching fun e => MonadExcept.throw (g e)).run h s).2 = (p.run h s).2 := by
  rw [run_catching]
  rcases p.run h s with ⟨_ | _, t⟩ <;> rfl

theorem run_perform (op : Op) (s : σ) : (perform op).run h s = h op s := by
  rcases he : h op s with ⟨_ | _, t⟩ <;> simp [perform, run, he]

/-- Whatever its outcome, the program relates the store before and after it by `R`. -/
def Keeps (R : σ → σ → Prop) (p : Program Op Res ε α) : Prop := ∀ s, R s (p.run h s).2

section Keeps

variable {h} {R : σ → σ → Prop}

theorem keeps_ret (hr : ∀ s, R s s) (a : α) : Keeps h R (.ret a : Program Op Res ε α) :=
  fun s => hr s

theorem keeps_throw (hr : ∀ s, R s s) (e : ε) : Keeps h R (.throw e : Program Op Res ε α) :=
  fun s => hr s

theorem keeps_perform {op : Op} (hop : ∀ s, R s (h op s).2) :
    Keeps h R (perform op : Program Op Res ε _) := by
  intro s
  rw [run_perform]
  exact hop s

theorem Keeps.bind (ht : ∀ s t u, R s t → R t u → R s u) {p : Program Op Res ε α}
    {f : α → Program Op Res ε β} (hp : Keeps h R p) (hf : ∀ a, Keeps h R (f a)) :
    Keeps h R (p >>= f) := by
  intro s
  have hs := hp s
  rw [run_bind]
  rcases hrun : p.run h s with ⟨e | a, t⟩ <;> rw [hrun] at hs
  · exact hs
  · exact ht s t _ hs (hf a t)

/-- A program keeps what each of its calls keeps. -/
theorem Calls.keeps {q : Op → Prop} {p : Program Op Res ε α} (hp : p.Calls q) (hr : ∀ s, R s s)
    (ht : ∀ s t u, R s t → R t u → R s u) (hq : ∀ op, q op → ∀ s, R s (h op s).2) : Keeps h R p := by
  induction p with
  | ret a => exact hr
  | throw e => exact hr
  | call op next ih => exact fun s => ht s _ _ (hq op hp.1 s) (ih _ (hp.2 _) _)

/-- A program keeps what every call keeps. -/
theorem keeps_of_handler (hr : ∀ s, R s s) (ht : ∀ s t u, R s t → R t u → R s u)
    (hop : ∀ op s, R s (h op s).2) (p : Program Op Res ε α) : Keeps h R p := by
  induction p with
  | ret a => exact hr
  | throw e => exact hr
  | call op next ih => exact fun s => ht s _ _ (hop op s) (ih _ _)

/-- Two handlers that answer the calls of a program alike run it alike. -/
theorem Calls.run_congr {q : Op → Prop} {p : Program Op Res ε α} (hp : p.Calls q) {h' : Handler Op Res ε σ}
    (hq : ∀ op, q op → ∀ s, h' op s = h op s) (s : σ) : p.run h' s = p.run h s := by
  induction p generalizing s with
  | ret a => rfl
  | throw e => rfl
  | call op next ih =>
    rw [run, run, hq op hp.1 s]
    exact ih _ (hp.2 _) _

/-- Where `f` takes the calls of one handler to those of another, it takes runs to runs. -/
theorem run_map {τ : Type} {h' : Handler Op Res ε τ} {f : σ → τ} (hf : ∀ op s, h' op (f s) = (h op s).map id f)
    (p : Program Op Res ε α) (s : σ) : p.run h' (f s) = (p.run h s).map id f := by
  induction p generalizing s with
  | ret a => rfl
  | throw e => rfl
  | call op next ih =>
    rw [run, run, hf op s]
    exact ih _ _

/-- A property that `R` preserves passes over a program that keeps `R`. -/
theorem Keeps.passes {p : Program Op Res ε α} (hp : Keeps h R p) {P : σ → Prop} {s : σ}
    (hP : ∀ t, R s t → P t) {f : α → Program Op Res ε β}
    (hf : ∀ a t, R s t → P ((f a).run h t).2) : P ((p >>= f).run h s).2 := by
  have hs := hp s
  rw [run_bind]
  rcases hrun : p.run h s with ⟨e | a, t⟩ <;> rw [hrun] at hs
  · exact hP t hs
  · exact hf a t hs

end Keeps

end Run

end Program

end Atomic
