import NebLite.Atomic.Attempt

/-! Programs whose calls are carried out by programs of finer calls. -/

namespace Atomic

namespace Program

variable {Op Op' : Type} {Res : Op → Type} {Res' : Op' → Type} {ε α β : Type}

/-- Each call is carried out by `q`, and its outcome is the call's answer. -/
def expand (q : ∀ op, Program Op' Res' ε (Res op)) : Program Op Res ε α → Program Op' Res' ε α
  | .ret a => .ret a
  | .throw e => .throw e
  | .call op next => (q op).attempt >>= fun r => (next r).expand q

variable {q : ∀ op, Program Op' Res' ε (Res op)}

@[simp] theorem expand_pure (a : α) : (pure a : Program Op Res ε α).expand q = pure a := rfl

@[simp] theorem expand_throw (e : ε) : (.throw e : Program Op Res ε α).expand q = .throw e := rfl

theorem attempt_call (op : Op) (next : Except ε (Res op) → Program Op Res ε α) :
    (Program.call op next).attempt = .call op fun r => (next r).attempt := rfl

/-- What an attempt is followed by is caught on its own. -/
theorem attempt_bind_catching (p : Program Op Res ε α) (f : Except ε α → Program Op Res ε β)
    (g : ε → Program Op Res ε β) :
    (p.attempt >>= f).catching g = p.attempt >>= fun r => (f r).catching g := by
  induction p with
  | ret a => rfl
  | throw e => rfl
  | call op next ih => exact congrArg (Program.call op) (funext ih)

theorem attempt_bind_ofExcept (p : Program Op Res ε α) : p.attempt >>= ofExcept = p := by
  induction p with
  | ret a => rfl
  | throw e => rfl
  | call op next ih => exact congrArg (Program.call op) (funext ih)

theorem expand_bind (p : Program Op Res ε α) (f : α → Program Op Res ε β) :
    (p >>= f).expand q = p.expand q >>= fun a => (f a).expand q := by
  induction p with
  | ret a => rfl
  | throw e => rfl
  | call op next ih =>
    show (q op).attempt >>= (fun r => (next r >>= f).expand q) =
      ((q op).attempt >>= fun r => (next r).expand q) >>= fun a => (f a).expand q
    rw [bind_assoc]
    exact congrArg _ (funext ih)

theorem expand_catching (p : Program Op Res ε α) (g : ε → Program Op Res ε α) :
    (p.catching g).expand q = (p.expand q).catching fun e => (g e).expand q := by
  induction p with
  | ret a => rfl
  | throw e => rfl
  | call op next ih =>
    show (q op).attempt >>= (fun r => ((next r).catching g).expand q) =
      ((q op).attempt >>= fun r => (next r).expand q).catching fun e => (g e).expand q
    rw [attempt_bind_catching]
    exact congrArg _ (funext ih)

theorem expand_perform (op : Op) : (perform op : Program Op Res ε (Res op)).expand q = q op := by
  have hnext : (fun r => (ofExcept r : Program Op Res ε (Res op)).expand q) = ofExcept := by
    funext r
    cases r <;> rfl
  show (q op).attempt >>= (fun r => (ofExcept r : Program Op Res ε (Res op)).expand q) = q op
  rw [hnext, attempt_bind_ofExcept]

/-- Calls that are carried out as they are. -/
theorem expand_self (p : Program Op Res ε α) : p.expand (fun op => perform op) = p := by
  induction p with
  | ret a => rfl
  | throw e => rfl
  | call op next ih =>
    refine congrArg (Program.call op) (funext fun r => ?_)
    have hrest : (next r).expand (fun op => perform op) = next r := ih r
    cases r <;> exact hrest

end Program

end Atomic
