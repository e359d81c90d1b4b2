import NebLite.Atomic.Faults
import NebLite.Atomic.Lift

/-! Transactions statement by statement, and programs of which any calls may fail. A
failing call does nothing and answers with an exception. -/

namespace Atomic

variable {Op : Type} {Res : Op → Type} {ε α β σ : Type}

/-- A store, and how many calls that can fail have been made on it. -/
structure Counted (σ : Type) where
  store : σ
  made : ℕ

/-- The calls of `h`; of those that can fail, the one made after `n` others fails if
`fails n` is an exception. -/
def faulty (fails : ℕ → Option ε) (fallible : Op → Bool) (h : Handler Op Res ε σ) :
    Handler Op Res ε (Counted σ) := fun op x =>
  if fallible op then
    match fails x.made with
    | some e => (.error e, ⟨x.store, x.made + 1⟩)
    | none => ((h op x.store).1, ⟨(h op x.store).2, x.made + 1⟩)
  else ((h op x.store).1, ⟨(h op x.store).2, x.made⟩)

/-- Only the call fails that is made after `n` others. -/
def failingAt (n : ℕ) (e : ε) (k : ℕ) : Option ε := if k = n then some e else none

/-- None of the `c` calls made after `n` others fails. -/
def Undisturbed (fails : ℕ → Option ε) (n c : ℕ) : Prop := ∀ k < c, fails (n + k) = none

section Undisturbed

variable {fails : ℕ → Option ε} {n c d : ℕ}

@[simp] theorem undisturbed_zero : Undisturbed fails n 0 := fun _ hk => absurd hk (Nat.not_lt_zero _)

theorem undisturbed_add : Undisturbed fails n (c + d) ↔ Undisturbed fails n c ∧ Undisturbed fails (n + c) d := by
  constructor
  · intro h
    refine ⟨fun k hk => h k (by omega), fun k hk => ?_⟩
    have hlate := h (c + k) (by omega)
    rwa [← Nat.add_assoc] at hlate
  · rintro ⟨hfirst, hlast⟩ k hk
    by_cases hc : k < c
    · exact hfirst k hc
    · have hlate := hlast (k - c) (by omega)
      have hsum : n + c + (k - c) = n + k := by omega
      rwa [hsum] at hlate

@[simp] theorem undisturbed_one : Undisturbed fails n 1 ↔ fails n = none := by
  constructor
  · intro h
    exact h 0 Nat.one_pos
  · intro h k hk
    obtain rfl : k = 0 := by omega
    exact h

theorem undisturbed_succ : Undisturbed fails n (c + 1) ↔ fails n = none ∧ Undisturbed fails (n + 1) c := by
  rw [Nat.add_comm, undisturbed_add, undisturbed_one]

end Undisturbed

section Faulty

variable {fails : ℕ → Option ε} {fallible : Op → Bool} {op : Op} {s : σ} {n : ℕ}

theorem faulty_fails (h : Handler Op Res ε σ) {e : ε} (hop : fallible op = true) (hn : fails n = some e) :
    faulty fails fallible h op ⟨s, n⟩ = (.error e, ⟨s, n + 1⟩) := by
  simp only [faulty, hop, hn, if_true]

theorem faulty_answers (h : Handler Op Res ε σ) (hop : fallible op = true) (hn : fails n = none) :
    faulty fails fallible h op ⟨s, n⟩ = ((h op s).1, ⟨(h op s).2, n + 1⟩) := by
  simp only [faulty, hop, hn, if_true]

theorem faulty_infallible (h : Handler Op Res ε σ) (hop : fallible op = false) (n : ℕ) :
    faulty fails fallible h op ⟨s, n⟩ = ((h op s).1, ⟨(h op s).2, n⟩) := by
  simp [faulty, hop]

theorem faulty_store (h : Handler Op Res ε σ) (fails : ℕ → Option ε) (fallible : Op → Bool) (op : Op)
    (x : Counted σ) : (faulty fails fallible h op x).2.store = x.store ∨
      (faulty fails fallible h op x).2.store = (h op x.store).2 := by
  unfold faulty
  split
  · split
    · exact .inl rfl
    · exact .inr rfl
  · exact .inr rfl

end Faulty

namespace Program

/-- The program answers `a` after `c` calls that can fail, and leaves the store `t`. -/
structure Completes (fallible : Op → Bool) (h : Handler Op Res ε σ) (p : Program Op Res ε α) (s : σ) (a : α)
    (t : σ) (c : ℕ) : Prop where
  run : p.run h s = (.ok a, t)
  cost : p.cost fallible h s = c

section Completes

variable {fallible : Op → Bool} {h : Handler Op Res ε σ} {s t u : σ}

theorem completes_ret (a : α) : (ret a : Program Op Res ε α).Completes fallible h s a s 0 := ⟨rfl, rfl⟩

theorem completes_perform {op : Op} {a : Res op} (hop : fallible op = true) (hrun : h op s = (.ok a, t)) :
    (perform op : Program Op Res ε _).Completes fallible h s a t 1 := by
  refine ⟨by rw [run_perform, hrun], ?_⟩
  change cost fallible h (.call op ofExcept) s = 1
  rw [cost_fallible hop, hrun]
  rfl

theorem Completes.bind {p : Program Op Res ε α} {f : α → Program Op Res ε β} {a : α} {b : β} {c d : ℕ}
    (hp : p.Completes fallible h s a t c) (hf : (f a).Completes fallible h t b u d) :
    (p >>= f).Completes fallible h s b u (c + d) := by
  refine ⟨by rw [run_bind_ok h hp.run, hf.run], ?_⟩
  rw [cost_bind_ok hp.run, hp.cost, hf.cost]

end Completes

section Faulty

variable {h : Handler Op Res ε σ} {fails : ℕ → Option ε} {fallible : Op → Bool} {p : Program Op Res ε α}
  {s : σ} {n : ℕ}

theorem run_undisturbed (hf : Undisturbed fails n (p.cost fallible h s)) :
    p.run (faulty fails fallible h) ⟨s, n⟩ = ((p.run h s).1, ⟨(p.run h s).2, n + p.cost fallible h s⟩) := by
  induction p generalizing n s with
  | ret a => rfl
  | throw e => rfl
  | call op next ih =>
    cases hop : fallible op with
    | false =>
      rw [cost_infallible hop] at hf ⊢
      rw [run, faulty_infallible h hop]
      exact ih _ hf
    | true =>
      rw [cost_fallible hop, undisturbed_succ] at hf
      rw [cost_fallible hop, run, faulty_answers h hop hf.1]
      have hrest := ih _ hf.2
      rwa [Nat.add_assoc, Nat.add_comm 1] at hrest

/-- A failing call ends a program that lets exceptions through. -/
theorem Straight.run_disturbed (hp : p.Straight) (hf : ¬ Undisturbed fails n (p.cost fallible h s)) :
    ∃ e x, p.run (faulty fails fallible h) ⟨s, n⟩ = (.error e, x) := by
  induction p generalizing n s with
  | ret a => exact absurd undisturbed_zero hf
  | throw e => exact absurd undisturbed_zero hf
  | call op next ih =>
    cases hop : fallible op with
    | false =>
      rw [cost_infallible hop] at hf
      rw [run, faulty_infallible h hop]
      exact ih _ (hp.next _) hf
    | true =>
      rw [cost_fallible hop, undisturbed_succ] at hf
      cases hn : fails n with
      | some e =>
        rw [run, faulty_fails h hop hn, hp.1 e]
        exact ⟨e, _, rfl⟩
      | none =>
        rw [run, faulty_answers h hop hn]
        exact ih _ (hp.next _) fun hrest => hf ⟨hn, hrest⟩

theorem run_perform_answers (h : Handler Op Res ε σ) {op : Op} (hop : fallible op = true) (hn : fails n = none) :
    (perform op : Program Op Res ε _).run (faulty fails fallible h) ⟨s, n⟩ = ((h op s).1, ⟨(h op s).2, n + 1⟩) := by
  rw [run_perform, faulty_answers h hop hn]

theorem run_perform_fails (h : Handler Op Res ε σ) {op : Op} {e : ε} (hop : fallible op = true)
    (hn : fails n = some e) :
    (perform op : Program Op Res ε _).run (faulty fails fallible h) ⟨s, n⟩ = (.error e, ⟨s, n + 1⟩) := by
  rw [run_perform, faulty_fails h hop hn]

theorem Calls.keeps_faulty {R : σ → σ → Prop} {q : Op → Prop} (hp : p.Calls q) (hr : ∀ s, R s s)
    (ht : ∀ s t u, R s t → R t u → R s u) (hq : ∀ op, q op → ∀ s, R s (h op s).2) :
    Keeps (faulty fails fallible h) (fun x y => R x.store y.store) p := by
  refine hp.keeps (fun x => hr x.store) (fun x y z => ht x.store y.store z.store) fun op hop x => ?_
  rcases faulty_store h fails fallible op x with hsame | hcalled
  · rw [hsame]
    exact hr _
  · rw [hcalled]
    exact hq op hop _

theorem calls_any (p : Program Op Res ε α) : p.Calls fun _ => True := by
  induction p with
  | ret a => trivial
  | throw e => trivial
  | call op next ih => exact ⟨trivial, fun r => ih r⟩

end Faulty

end Program

/-- A command of a client on its connection; `call` is any of its calls. -/
inductive Command (Op : Type) where
  | begin
  | call (op : Op)
  | commit
  | rollback
  | isTransactionActive

abbrev Command.Answer (Res : Op → Type) : Command Op → Type
  | .call op => Res op
  | .isTransactionActive => Bool
  | _ => Unit

/-- Every command can fail that is sent to the database. -/
def Command.fallible (fallible : Op → Bool) : Command Op → Bool
  | .call op => fallible op
  | .isTransactionActive => false
  | _ => true

/-- What is committed, and the store as the open transaction sees it. -/
structure Session (σ : Type) where
  committed : σ
  staged : Option σ

/-- Without an open transaction a call is committed at once, and COMMIT and ROLLBACK do nothing. -/
def command (h : Handler Op Res ε σ) : Handler (Command Op) (Command.Answer Res) ε (Session σ)
  | .begin, s => (.ok (), ⟨s.committed, some (s.staged.getD s.committed)⟩)
  | .call op, ⟨s, none⟩ => ((h op s).1, ⟨(h op s).2, none⟩)
  | .call op, ⟨s, some t⟩ => ((h op t).1, ⟨s, some (h op t).2⟩)
  | .commit, s => (.ok (), ⟨s.staged.getD s.committed, none⟩)
  | .rollback, s => (.ok (), ⟨s.committed, none⟩)
  | .isTransactionActive, s => (.ok s.staged.isSome, s)

namespace Program

/-- The calls of a program on the connection. -/
def issued (p : Program Op Res ε α) : Program (Command Op) (Command.Answer Res) ε α :=
  p.lift .call fun _ a => a

/-- A transaction up to its COMMIT. -/
def committing (p : Program Op Res ε α) : Program (Command Op) (Command.Answer Res) ε α := do
  perform (.begin : Command Op)
  let a ← p.issued
  perform (.commit : Command Op)
  return a

section Statements

variable {h : Handler Op Res ε σ} {fails : ℕ → Option ε} {fallible : Op → Bool} {p : Program Op Res ε α}
  {s t : σ} {n : ℕ}

theorem issued_call (op : Op) (next : Except ε (Res op) → Program Op Res ε α) :
    (call op next).issued = .call (.call op) fun r => (next r).issued := by
  have hmap (r : Except ε (Res op)) : r.map (fun a => a) = r := by cases r <;> rfl
  have hnext : (fun r => (next (r.map fun a => a)).issued) = fun r => (next r).issued := by
    funext r
    rw [hmap]
  exact congrArg (Program.call (.call op : Command Op)) hnext

theorem Straight.issued (hp : p.Straight) : p.issued.Straight := by
  induction p with
  | ret a => trivial
  | throw e => trivial
  | call op next ih =>
    rw [issued_call]
    refine ⟨fun e => ?_, fun a => ih _ (hp.2 a)⟩
    have hthrow : (next (.error e)).issued = .throw e := by rw [hp.1 e]; rfl
    exact hthrow

theorem issued_calls (p : Program Op Res ε α) {q : Op → Prop} (hp : p.Calls q) :
    p.issued.Calls fun c => ∃ op, c = .call op ∧ q op :=
  Calls.lift (hp.mono fun op hop => ⟨op, rfl, hop⟩)

/-- In an open transaction the calls see and change what is staged. -/
theorem run_issued_staged (p : Program Op Res ε α) (s t : σ) :
    p.issued.run (command h) ⟨s, some t⟩ = ((p.run h t).1, ⟨s, some (p.run h t).2⟩) := by
  induction p generalizing t with
  | ret a => rfl
  | throw e => rfl
  | call op next ih =>
    rw [issued_call]
    exact ih _ _

theorem cost_issued_staged (p : Program Op Res ε α) (s t : σ) :
    p.issued.cost (Command.fallible fallible) (command h) ⟨s, some t⟩ = p.cost fallible h t := by
  induction p generalizing t with
  | ret a => rfl
  | throw e => rfl
  | call op next ih =>
    have hrest := ih (h op t).1 (h op t).2
    rw [issued_call]
    exact congrArg (· + if fallible op = true then 1 else 0) hrest

theorem issued_uncommitted (p : Program Op Res ε α) (s t : σ) (n : ℕ) :
    ∃ u, (p.issued.run (faulty fails (Command.fallible fallible) (command h)) ⟨⟨s, some t⟩, n⟩).2.store =
      ⟨s, some u⟩ := by
  let R (x y : Session σ) : Prop := ∀ u, x.staged = some u → ∃ v, y = ⟨x.committed, some v⟩
  have hkeeps : Keeps (faulty fails (Command.fallible fallible) (command h))
      (fun x y => R x.store y.store) p.issued := by
    refine Calls.keeps_faulty (issued_calls p p.calls_any) ?_ ?_ ?_
    · rintro ⟨s, staged⟩ u hu
      obtain rfl : staged = some u := hu
      exact ⟨u, rfl⟩
    · intro x y z hxy hyz u hu
      obtain ⟨v, rfl⟩ := hxy u hu
      exact hyz v rfl
    · rintro c ⟨op, rfl, -⟩ ⟨s, staged⟩ u hu
      obtain rfl : staged = some u := hu
      exact ⟨_, rfl⟩
  exact hkeeps ⟨⟨s, some t⟩, n⟩ t rfl

theorem run_begin (h : Handler Op Res ε σ) (fallible : Op → Bool) (s : σ) (hn : fails n = none) :
    (perform .begin : Program (Command Op) (Command.Answer Res) ε _).run
      (faulty fails (Command.fallible fallible) (command h)) ⟨⟨s, none⟩, n⟩ =
        (.ok (), ⟨⟨s, some s⟩, n + 1⟩) :=
  run_perform_answers (command h) rfl hn

theorem run_commit (h : Handler Op Res ε σ) (fallible : Op → Bool) (s t : σ) (hn : fails n = none) :
    (perform .commit : Program (Command Op) (Command.Answer Res) ε _).run
      (faulty fails (Command.fallible fallible) (command h)) ⟨⟨s, some t⟩, n⟩ =
        (.ok (), ⟨⟨t, none⟩, n + 1⟩) :=
  run_perform_answers (command h) rfl hn

/-- A transaction of which no statement fails and whose calls all succeed is committed. -/
theorem Completes.run_committing {a : α} {c : ℕ} (hp : p.Completes fallible h s a t c)
    (hf : Undisturbed fails n (c + 2)) :
    p.committing.run (faulty fails (Command.fallible fallible) (command h)) ⟨⟨s, none⟩, n⟩ =
      (.ok a, ⟨⟨t, none⟩, n + c + 2⟩) := by
  obtain ⟨hrun, rfl⟩ := hp
  rw [undisturbed_succ, undisturbed_add, undisturbed_one] at hf
  obtain ⟨hbegin, hcalls, hcommit⟩ := hf
  have hbody : p.issued.run (faulty fails (Command.fallible fallible) (command h)) ⟨⟨s, some s⟩, n + 1⟩ =
      (.ok a, ⟨⟨s, some t⟩, n + 1 + p.cost fallible h s⟩) := by
    rw [run_undisturbed (by rwa [cost_issued_staged]), run_issued_staged, cost_issued_staged, hrun]
  have hmade : n + 1 + p.cost fallible h s + 1 = n + p.cost fallible h s + 2 := by omega
  unfold committing
  rw [run_bind_ok _ (run_begin h fallible s hbegin), run_bind_ok _ hbody,
    run_bind_ok _ (run_commit h fallible s t hcommit), hmade]
  rfl

/-- Any other transaction ends with an exception, and nothing is committed. -/
theorem Straight.run_uncommitted (hp : p.Straight)
    (hf : ¬ (Undisturbed fails n (p.cost fallible h s + 2) ∧ ∃ a, (p.run h s).1 = .ok a)) :
    ∃ e staged m, p.committing.run (faulty fails (Command.fallible fallible) (command h)) ⟨⟨s, none⟩, n⟩ =
      (.error e, ⟨⟨s, staged⟩, m⟩) := by
  unfold committing
  cases hbegin : fails n with
  | some e =>
    rw [run_bind_error _ (run_perform_fails (command h) rfl hbegin)]
    exact ⟨e, none, _, rfl⟩
  | none =>
    rw [run_bind_ok _ (run_begin h fallible s hbegin)]
    have hopen : ∃ u, (p.issued.run (faulty fails (Command.fallible fallible) (command h))
        ⟨⟨s, some s⟩, n + 1⟩).2.store = ⟨s, some u⟩ := issued_uncommitted p s s (n + 1)
    obtain ⟨u, hstaged⟩ := hopen
    rcases hbody : p.issued.run (faulty fails (Command.fallible fallible) (command h)) ⟨⟨s, some s⟩, n + 1⟩ with
      ⟨e | a, ⟨x, m⟩⟩
    · rw [hbody] at hstaged
      obtain rfl : x = ⟨s, some u⟩ := hstaged
      rw [run_bind_error _ hbody]
      exact ⟨e, _, _, rfl⟩
    · -- The calls have been answered, so the COMMIT is what failed.
      by_cases hcalls : Undisturbed fails (n + 1) (p.cost fallible h s)
      · have hsame := hbody
        rw [run_undisturbed (by rwa [cost_issued_staged]), run_issued_staged, cost_issued_staged] at hsame
        simp only [Prod.mk.injEq, Counted.mk.injEq] at hsame
        obtain ⟨hok, rfl, rfl⟩ := hsame
        have hcommit : fails (n + 1 + p.cost fallible h s) ≠ none := by
          intro hnone
          refine hf ⟨?_, a, hok⟩
          rw [undisturbed_succ, undisturbed_add, undisturbed_one]
          exact ⟨hbegin, hcalls, hnone⟩
        obtain ⟨e, hcommit⟩ := Option.ne_none_iff_exists'.mp hcommit
        rw [run_bind_ok _ hbody, run_bind_error _ (run_perform_fails (command h) rfl hcommit)]
        exact ⟨e, _, _, rfl⟩
      · have hcut : ¬ Undisturbed fails (n + 1)
            (p.issued.cost (Command.fallible fallible) (command h) ⟨s, some s⟩) := by
          rwa [cost_issued_staged]
        obtain ⟨e, y, herror⟩ := hp.issued.run_disturbed hcut
        rw [hbody] at herror
        cases herror

end Statements

end Program

end Atomic
