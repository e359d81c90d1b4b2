import NebLite.Atomic.Program

/-! Programs of one set of calls as programs of a larger one. -/

namespace Atomic

namespace Program

variable {Op Op' : Type} {Res : Op → Type} {Res' : Op' → Type} {ε α β : Type}

/-- Every call is made under its name in the larger set. -/
def lift (φ : Op → Op') (back : ∀ op, Res' (φ op) → Res op) :
    Program Op Res ε α → Program Op' Res' ε α
  | .ret a => .ret a
  | .throw e => .throw e
  | .call op next => .call (φ op) fun r => (next (r.map (back op))).lift φ back

variable {φ : Op → Op'} {back : ∀ op, Res' (φ op) → Res op}

@[simp] theorem lift_ret (a : α) : (.ret a : Program Op Res ε α).lift φ back = .ret a := rfl

@[simp] theorem lift_pure (a : α) : (pure a : Program Op Res ε α).lift φ back = pure a := rfl

@[simp] theorem lift_throw (e : ε) : (.throw e : Program Op Res ε α).lift φ back = .throw e := rfl

@[simp] theorem lift_bind (p : Program Op Res ε α) (f : α → Program Op Res ε β) :
    (p >>= f).lift φ back = p.lift φ back >>= fun a => (f a).lift φ back := by
  induction p with
  | ret a => rfl
  | throw e => rfl
  | call op next ih => exact congrArg (Program.call (φ op)) (funext fun r => ih _)

theorem lift_perform (op : Op) : (perform op : Program Op Res ε (Res op)).lift φ back =
    (perform (φ op) : Program Op' Res' ε (Res' (φ op))) >>= fun a => pure (back op a) := by
  have hnext : (fun r : Except ε (Res' (φ op)) => (ofExcept (r.map (back op)) : Program Op Res ε _).lift φ back) =
      fun r => ofExcept r >>= fun a => pure (back op a) := by
    funext r
    cases r <;> rfl
  exact congrArg (Program.call (φ op)) hnext

/-- A contract on the calls in the larger set. -/
theorem Calls.lift {q : Op' → Prop} {p : Program Op Res ε α} (h : p.Calls fun op => q (φ op)) :
    (p.lift φ back).Calls q := by
  induction p with
  | ret a => trivial
  | throw e => trivial
  | call op next ih => exact ⟨h.1, fun r => ih _ (h.2 _)⟩

end Program

end Atomic
