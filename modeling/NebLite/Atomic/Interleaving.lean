import NebLite.Atomic.Program
import NebLite.Atomic.Runs
import Mathlib.Logic.Function.Basic
import Mathlib.Data.Sigma.Basic
import Mathlib.Data.Fintype.Basic

/-! Interleavings of atomic calls. A schedule names, step after step, the
process whose next call is executed; the trace keeps every call with its
answer, newest first. -/

namespace Atomic

variable {ι Op : Type} {Res : Op → Type} {ε α β σ L : Type}

/-- One executed call and what it answered. -/
abbrev Event (Op : Type) (Res : Op → Type) (ε : Type) := Σ op : Op, Except ε (Res op)

structure Pool (ι Op : Type) (Res : Op → Type) (ε α σ : Type) where
  procs : ι → Program Op Res ε α
  store : σ
  trace : List (ι × Event Op Res ε)

namespace Program

/-- The call a process executes next. -/
def pending : Program Op Res ε α → Option Op
  | .call op _ => some op
  | _ => none

/-- How a process has ended, if it has. -/
def outcome : Program Op Res ε α → Option (Except ε α)
  | .ret a => some (.ok a)
  | .throw e => some (.error e)
  | .call _ _ => none

theorem outcome_of_ended {p : Program Op Res ε α} (hp : p.pending = none) : ∃ r, p.outcome = some r := by
  cases p with
  | ret a => exact ⟨.ok a, rfl⟩
  | throw e => exact ⟨.error e, rfl⟩
  | call op next => cases hp

end Program

namespace Pool

def start (procs : ι → Program Op Res ε α) (s : σ) : Pool ι Op Res ε α σ :=
  ⟨procs, s, []⟩

/-- Every process has returned or thrown. -/
def Ended (c : Pool ι Op Res ε α σ) : Prop := ∀ i, (c.procs i).pending = none

theorem Ended.outcome {c : Pool ι Op Res ε α σ} (hc : c.Ended) (i : ι) :
    ∃ r, (c.procs i).outcome = some r :=
  Program.outcome_of_ended (hc i)

instance [Fintype ι] (c : Pool ι Op Res ε α σ) : Decidable c.Ended :=
  inferInstanceAs (Decidable (∀ i, (c.procs i).pending = none))

variable [DecidableEq ι] (h : Handler Op Res ε σ)

/-- Process `i` executes its next call; a process that has ended stays. -/
def step (c : Pool ι Op Res ε α σ) (i : ι) : Pool ι Op Res ε α σ :=
  match c.procs i with
  | .call op next =>
    { procs := Function.update c.procs i (next (h op c.store).1)
      store := (h op c.store).2
      trace := (i, ⟨op, (h op c.store).1⟩) :: c.trace }
  | _ => c

def exec (c : Pool ι Op Res ε α σ) (sched : List ι) : Pool ι Op Res ε α σ :=
  sched.foldl (step h) c

/-- The schedule in which `(i, k)` stands for `k` steps of process `i`. -/
def turns {n : ℕ} (l : List (ℕ × ℕ)) : List (Fin (n + 1)) :=
  l.flatMap fun t => List.replicate t.2 (Fin.ofNat (n + 1) t.1)

@[simp] theorem exec_nil (c : Pool ι Op Res ε α σ) : c.exec h [] = c := rfl

@[simp] theorem exec_cons (c : Pool ι Op Res ε α σ) (i : ι) (sched : List ι) :
    c.exec h (i :: sched) = (c.step h i).exec h sched := rfl

theorem exec_append (c : Pool ι Op Res ε α σ) (xs ys : List ι) :
    c.exec h (xs ++ ys) = (c.exec h xs).exec h ys :=
  List.foldl_append

/-- Every step of the schedule is taken in a state in which `ok` holds of it. -/
abbrev Meets (ok : Pool ι Op Res ε α σ → ι → Prop) (c : Pool ι Op Res ε α σ) (sched : List ι) :
    Prop := Runs.Meets (step h) ok c sched

theorem step_call {c : Pool ι Op Res ε α σ} {i : ι} {op : Op}
    {next : Except ε (Res op) → Program Op Res ε α} (hi : c.procs i = .call op next) :
    c.step h i =
      { procs := Function.update c.procs i (next (h op c.store).1)
        store := (h op c.store).2
        trace := (i, ⟨op, (h op c.store).1⟩) :: c.trace } := by
  simp only [step, hi]

theorem step_ended {c : Pool ι Op Res ε α σ} {i : ι} (hi : (c.procs i).pending = none) :
    c.step h i = c := by
  unfold step
  split
  · simp_all [Program.pending]
  · rfl

/-- All that a step can do. -/
theorem step_cases (c : Pool ι Op Res ε α σ) (i : ι) :
    ((c.procs i).pending = none ∧ c.step h i = c) ∨
    ∃ op next, c.procs i = .call op next ∧ c.step h i =
      { procs := Function.update c.procs i (next (h op c.store).1)
        store := (h op c.store).2
        trace := (i, ⟨op, (h op c.store).1⟩) :: c.trace } := by
  cases hi : c.procs i with
  | ret a => exact .inl ⟨rfl, step_ended h (by simp [hi, Program.pending])⟩
  | throw e => exact .inl ⟨rfl, step_ended h (by simp [hi, Program.pending])⟩
  | call op next => exact .inr ⟨op, next, rfl, step_call h hi⟩

/-- What process `i` makes of its own part of a trace, starting from `l₀`. -/
def log (after : L → Event Op Res ε → L) (l₀ : L) (i : ι) : List (ι × Event Op Res ε) → L
  | [] => l₀
  | (j, e) :: trace => if j = i then after (log after l₀ i trace) e else log after l₀ i trace

theorem log_step {c : Pool ι Op Res ε α σ} {i : ι} {op : Op}
    {next : Except ε (Res op) → Program Op Res ε α} (hi : c.procs i = .call op next)
    (after : L → Event Op Res ε → L) (l₀ : L) (j : ι) :
    log after l₀ j (c.step h i).trace =
      if i = j then after (log after l₀ j c.trace) ⟨op, (h op c.store).1⟩ else log after l₀ j c.trace := by
  rw [step_call h hi]
  rfl

/-- A contract on the calls of every process is kept by every step. -/
theorem calls_step {q : ι → Op → Prop} {c : Pool ι Op Res ε α σ} (hc : ∀ j, (c.procs j).Calls (q j))
    (i j : ι) : ((c.step h i).procs j).Calls (q j) := by
  obtain ⟨-, hs⟩ | ⟨op, next, hi, hs⟩ := c.step_cases h i
  · rw [hs]
    exact hc j
  · rw [hs]
    by_cases hj : j = i
    · subst hj
      have hcj := hc j
      rw [hi] at hcj
      simpa using hcj.2 _
    · simpa [hj] using hc j

end Pool

/-- A proof outline: local labels, what a label may assume of the store, and
the label reached when a call is executed. -/
structure Outline (L Op σ : Type) where
  pre : L → σ → Prop
  move : L → Op → σ → L → Prop

namespace Outline

variable (o : Outline L Op σ) (h : Handler Op Res ε σ)

/-- From label `l` the program only takes moves of the outline, and it ends
in a label that `done` allows for its outcome. -/
def Follows (done : L → Except ε α → Prop) : L → Program Op Res ε α → Prop
  | l, .ret a => done l (.ok a)
  | l, .throw e => done l (.error e)
  | l, .call op next => ∀ s, o.pre l s → ∃ l', o.move l op s l' ∧
      Follows done l' (next (h op s).1)

variable {o h}

theorem Follows.bind {done : L → Except ε α → Prop} {done' : L → Except ε β → Prop}
    {l : L} {p : Program Op Res ε α} {f : α → Program Op Res ε β}
    (hp : o.Follows h done l p)
    (hok : ∀ l a, done l (.ok a) → o.Follows h done' l (f a))
    (herr : ∀ l e, done l (.error e) → done' l (.error e)) :
    o.Follows h done' l (p >>= f) := by
  induction p generalizing l with
  | ret a => exact hok l a hp
  | throw e => exact herr l e hp
  | call op next ih =>
    intro s hs
    obtain ⟨l', hm, hn⟩ := hp s hs
    exact ⟨l', hm, ih _ hn⟩

theorem Follows.catching {done done' : L → Except ε α → Prop} {l : L} {p : Program Op Res ε α}
    {g : ε → Program Op Res ε α} (hp : o.Follows h done l p)
    (hok : ∀ l a, done l (.ok a) → done' l (.ok a))
    (herr : ∀ l e, done l (.error e) → o.Follows h done' l (g e)) :
    o.Follows h done' l (p.catching g) := by
  induction p generalizing l with
  | ret a => exact hok l a hp
  | throw e => exact herr l e hp
  | call op next ih =>
    intro s hs
    obtain ⟨l', hm, hn⟩ := hp s hs
    exact ⟨l', hm, ih _ hn⟩

/-- A program that performs a call and continues with its answer. -/
theorem Follows.perform {done : L → Except ε β → Prop} {l : L} {op : Op}
    {f : Res op → Program Op Res ε β}
    (hp : ∀ s, o.pre l s → ∃ l', o.move l op s l' ∧
      o.Follows h done l' (Program.ofExcept (h op s).1 >>= f)) :
    o.Follows h done l (Program.perform op >>= f) := hp

/-- A program whose calls all stay at the label comes before a program that goes on from it. -/
theorem Follows.quiet {q : Op → Prop} {done : L → Except ε β → Prop} {l : L}
    {p : Program Op Res ε α} {f : α → Program Op Res ε β} (hp : p.Calls q)
    (hq : ∀ op s, q op → o.pre l s → o.move l op s l) (herr : ∀ e, done l (.error e))
    (hf : ∀ a, o.Follows h done l (f a)) : o.Follows h done l (p >>= f) := by
  induction p with
  | ret a => exact hf a
  | throw e => exact herr e
  | call op next ih => exact fun s hs => ⟨l, hq op s hp.1 hs, ih _ (hp.2 _)⟩

/-- A program whose calls all stay at the label. -/
theorem Follows.of_calls {q : Op → Prop} {done : L → Except ε α → Prop} {l : L}
    {p : Program Op Res ε α} (hp : p.Calls q) (hq : ∀ op s, q op → o.pre l s → o.move l op s l)
    (hd : ∀ r, done l r) : o.Follows h done l p := by
  induction p with
  | ret a => exact hd (.ok a)
  | throw e => exact hd (.error e)
  | call op next ih => exact fun s hs => ⟨l, hq op s hp.1 hs, ih _ (hp.2 _)⟩

/-- Rule for a program that runs while others change the state before its calls, by `work`.
`I` is kept by the moves of the outline and by that work. -/
theorem Follows.run_amid {I : L → σ → Prop} {done : L → Except ε α → Prop} {l : L} {p : Program Op Res ε α} {s : σ}
    (work : Op → σ → σ) (hpre : ∀ l s, I l s → o.pre l s)
    (hmove : ∀ l op s l', I l s → o.move l op s l' → I l' (h op s).2)
    (hwork : ∀ l op s, I l s → I l (work op s))
    (hf : o.Follows h done l p) (hs : I l s) :
    ∃ l', done l' (p.run (fun op s => h op (work op s)) s).1 ∧ I l' (p.run (fun op s => h op (work op s)) s).2 := by
  induction p generalizing l s with
  | ret a => exact ⟨l, hf, hs⟩
  | throw e => exact ⟨l, hf, hs⟩
  | call op next ih =>
    have hs := hwork l op s hs
    obtain ⟨l', hm, hn⟩ := hf _ (hpre l _ hs)
    exact ih _ hn (hmove l op _ l' hs hm)

/-- Rule for a program that runs alone. `I` is kept by the moves of the outline. -/
theorem Follows.run_keeps {I : L → σ → Prop} {done : L → Except ε α → Prop} {l : L} {p : Program Op Res ε α} {s : σ}
    (hpre : ∀ l s, I l s → o.pre l s)
    (hmove : ∀ l op s l', I l s → o.move l op s l' → I l' (h op s).2)
    (hf : o.Follows h done l p) (hs : I l s) : ∃ l', done l' (p.run h s).1 ∧ I l' (p.run h s).2 :=
  hf.run_amid (fun _ s => s) hpre hmove (fun _ _ _ h => h) hs

theorem Follows.run {done : L → Except ε α → Prop} {l : L} {p : Program Op Res ε α} {s : σ}
    (hmove : ∀ l op s l', o.pre l s → o.move l op s l' → o.pre l' (h op s).2)
    (hf : o.Follows h done l p) (hs : o.pre l s) :
    ∃ l', done l' (p.run h s).1 ∧ o.pre l' (p.run h s).2 :=
  hf.run_keeps (fun _ _ h => h) hmove hs

/-- The global invariant of a family of outlines: the labels fit the pool (`J`),
and every process follows its outline from its label. -/
def Holds (o : ι → Outline L Op σ) (h : Handler Op Res ε σ) (done : ι → L → Except ε α → Prop)
    (J : (ι → L) → Pool ι Op Res ε α σ → Prop) (c : Pool ι Op Res ε α σ) : Prop :=
  ∃ labels : ι → L, J labels c ∧ ∀ i, (o i).Follows h (done i) (labels i) (c.procs i)

variable {o : ι → Outline L Op σ}

/-- What an ended process says of its label. -/
theorem Holds.outcome {done : ι → L → Except ε α → Prop}
    {J : (ι → L) → Pool ι Op Res ε α σ → Prop} {c : Pool ι Op Res ε α σ}
    (hc : Holds o h done J c) :
    ∃ labels : ι → L, J labels c ∧
      ∀ i r, (c.procs i).outcome = some r → done i (labels i) r := by
  obtain ⟨labels, hJ, hf⟩ := hc
  refine ⟨labels, hJ, fun i r hr => ?_⟩
  have hfi := hf i
  cases hi : c.procs i with
  | ret a =>
    rw [hi] at hfi hr
    cases hr
    exact hfi
  | throw e =>
    rw [hi] at hfi hr
    cases hr
    exact hfi
  | call op next => simp [hi, Program.outcome] at hr

variable [DecidableEq ι]

/-- A process of a family that follows its outlines executes its next call. -/
theorem follows_step {done : ι → L → Except ε α → Prop} {labels : ι → L}
    {c : Pool ι Op Res ε α σ} {i : ι} {op : Op} {next : Except ε (Res op) → Program Op Res ε α}
    (hf : ∀ j, (o j).Follows h (done j) (labels j) (c.procs j))
    (hpre : (o i).pre (labels i) c.store) (hi : c.procs i = .call op next) :
    ∃ l', (o i).move (labels i) op c.store l' ∧
      ∀ j, (o j).Follows h (done j) (Function.update labels i l' j) ((c.step h i).procs j) := by
  have hfi := hf i
  rw [hi] at hfi
  obtain ⟨l', hmv, hfol⟩ := hfi c.store hpre
  refine ⟨l', hmv, fun j => ?_⟩
  rw [Pool.step_call h hi]
  by_cases hj : j = i
  · subst hj
    simpa using hfol
  · simpa [hj] using hf j

/-- A process whose labels are logs of its answers goes on following its outline. -/
theorem Follows.log_step {o : Outline L Op σ} {done : L → Except ε α → Prop}
    {after : L → Event Op Res ε → L} {l₀ : L}
    (hafter : ∀ l op s l', o.move l op s l' → l' = after l ⟨op, (h op s).1⟩)
    {c : Pool ι Op Res ε α σ} {j : ι} (hpre : o.pre (Pool.log after l₀ j c.trace) c.store)
    (hf : o.Follows h done (Pool.log after l₀ j c.trace) (c.procs j)) (i : ι) :
    o.Follows h done (Pool.log after l₀ j (c.step h i).trace) ((c.step h i).procs j) := by
  obtain ⟨-, hs⟩ | ⟨op, next, hi, hs⟩ := c.step_cases h i
  · rwa [hs]
  · rw [Pool.log_step h hi, hs]
    by_cases hj : i = j
    · subst hj
      rw [hi] at hf
      obtain ⟨l', hm, hn⟩ := hf c.store hpre
      rw [if_pos rfl, ← hafter _ _ _ _ hm]
      simpa using hn
    · rw [if_neg hj]
      simpa [Ne.symm hj] using hf

/-- Rule for interleavings. `J` is kept when one process moves by its outline
while the labels of the others stay. -/
theorem exec_holds {done : ι → L → Except ε α → Prop}
    {J : (ι → L) → Pool ι Op Res ε α σ → Prop} {ok : Pool ι Op Res ε α σ → ι → Prop}
    (hpre : ∀ labels c i, J labels c → (o i).pre (labels i) c.store)
    (hmove : ∀ labels (c : Pool ι Op Res ε α σ) i op next l', J labels c → ok c i →
      c.procs i = .call op next → (o i).move (labels i) op c.store l' →
      J (Function.update labels i l') (c.step h i))
    {c : Pool ι Op Res ε α σ} {sched : List ι} (hc : Holds o h done J c)
    (hm : Pool.Meets h ok c sched) : Holds o h done J (c.exec h sched) := by
  refine Runs.invariant ?_ hc hm
  rintro c i ⟨labels, hJ, hf⟩ hok
  obtain ⟨-, hs⟩ | ⟨op, next, hi, -⟩ := c.step_cases h i
  · exact ⟨labels, by rwa [hs], by rwa [hs]⟩
  · obtain ⟨l', hmv, hf'⟩ := follows_step hf (hpre labels c i hJ) hi
    exact ⟨Function.update labels i l', hmove labels c i op next l' hJ hok hi hmv, hf'⟩

/-- Rule for interleavings that go wrong for good. Up to the first step that `ok` rejects
`Good` holds, from it on `Bad`. -/
theorem exec_splits {done : ι → L → Except ε α → Prop}
    {Good Bad : (ι → L) → Pool ι Op Res ε α σ → Prop} {ok : Pool ι Op Res ε α σ → ι → Prop}
    (hfree : ∀ c i, (c.procs i).pending = none → ok c i)
    (hpre : ∀ labels c i, Good labels c → (o i).pre (labels i) c.store)
    (hpre' : ∀ labels c i, Bad labels c → (o i).pre (labels i) c.store)
    (hgood : ∀ labels (c : Pool ι Op Res ε α σ) i op next l', Good labels c →
      c.procs i = .call op next → (o i).move (labels i) op c.store l' →
      (ok c i → Good (Function.update labels i l') (c.step h i)) ∧
      (¬ ok c i → Bad (Function.update labels i l') (c.step h i)))
    (hbad : ∀ labels (c : Pool ι Op Res ε α σ) i op next l', Bad labels c →
      c.procs i = .call op next → (o i).move (labels i) op c.store l' →
      Bad (Function.update labels i l') (c.step h i))
    {c : Pool ι Op Res ε α σ} (sched : List ι) (hc : Holds o h done Good c) :
    (Pool.Meets h ok c sched → Holds o h done Good (c.exec h sched)) ∧
    (¬ Pool.Meets h ok c sched → Holds o h done Bad (c.exec h sched)) := by
  have hkeeps (xs : List ι) (hm : Pool.Meets h ok c xs) : Holds o h done Good (c.exec h xs) :=
    exec_holds hpre (fun labels c i op next l' hJ hok hi hmv =>
      (hgood labels c i op next l' hJ hi hmv).1 hok) hc hm
  refine ⟨hkeeps sched, fun hm => ?_⟩
  obtain ⟨before, i, after, rfl, hbefore, hno⟩ := Runs.exists_of_not_meets hm
  obtain ⟨labels, hJ, hf⟩ := hkeeps before hbefore
  have hturn : Holds o h done Bad ((c.exec h before).step h i) := by
    obtain ⟨hp, -⟩ | ⟨op, next, hi, -⟩ := (c.exec h before).step_cases h i
    · exact absurd (hfree _ i hp) hno
    · obtain ⟨l', hmv, hf'⟩ := follows_step hf (hpre labels _ i hJ) hi
      exact ⟨_, (hgood labels _ i op next l' hJ hi hmv).2 hno, hf'⟩
  rw [Pool.exec_append, Pool.exec_cons]
  exact exec_holds hpre' (fun labels c i op next l' hJ _ hi hmv =>
    hbad labels c i op next l' hJ hi hmv) hturn (Runs.meets_true _ after)

end Outline

end Atomic
