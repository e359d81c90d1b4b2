import NebLite.Atomic.Interleaving

/-! Processes that work on parts of the store of their own. What a process does in an
interleaving is what it does alone. -/

namespace Atomic

variable {ι Op σ τ : Type} {Res : Op → Type} {ε α β : Type}

/-- An access of process `i`: it depends on the part of the process only, and it leaves the parts of the
others. It begins in a store with `pre` and ends in one with `post`. -/
structure Local (part : ι → σ → τ) (pre post : σ → Prop) (i : ι) (f : σ → α × σ) : Prop where
  keeps : ∀ {s}, pre s → post (f s).2
  answer : ∀ {s t}, pre s → pre t → part i s = part i t → (f s).1 = (f t).1
  effect : ∀ {s t}, pre s → pre t → part i s = part i t → part i (f s).2 = part i (f t).2
  others : ∀ {j}, j ≠ i → ∀ {s}, pre s → part j (f s).2 = part j s

namespace Local

variable {part : ι → σ → τ} {pre mid post : σ → Prop} {i : ι} {f : σ → α × σ}

/-- An answer that is read from the part. -/
theorem read (g : τ → α) : Local part pre pre i fun s => (g (part i s), s) :=
  ⟨id, fun _ _ h => congrArg g h, fun _ _ h => h, fun _ _ _ => rfl⟩

/-- Only the stores with `pre` matter. -/
theorem congr {pre' : σ → Prop} {f' : σ → α × σ} (hf : Local part pre post i f) (hpre : ∀ s, pre' s → pre s)
    (h : ∀ s, pre' s → f' s = f s) : Local part pre' post i f' := by
  refine ⟨fun hs => ?_, fun hs ht hst => ?_, fun hs ht hst => ?_, fun hj s hs => ?_⟩
  · rw [h _ hs]
    exact hf.keeps (hpre _ hs)
  · rw [h _ hs, h _ ht]
    exact hf.answer (hpre _ hs) (hpre _ ht) hst
  · rw [h _ hs, h _ ht]
    exact hf.effect (hpre _ hs) (hpre _ ht) hst
  · rw [h _ hs]
    exact hf.others hj (hpre _ hs)

/-- A change of the part. -/
theorem change {u : σ → σ} (g : τ → τ) (hkeeps : ∀ s, pre s → post (u s))
    (hself : ∀ s, pre s → part i (u s) = g (part i s)) (hothers : ∀ j, j ≠ i → ∀ s, pre s → part j (u s) = part j s) :
    Local part pre post i fun s => ((), u s) :=
  ⟨fun hs => hkeeps _ hs, fun _ _ _ => rfl, fun hs ht h => by rw [hself _ hs, hself _ ht, h],
    fun hj _ hs => hothers _ hj _ hs⟩

/-- An access after a change of the part. -/
theorem after {u : σ → σ} (hu : Local part pre mid i fun s => ((), u s)) (hf : Local part mid post i f) :
    Local part pre post i fun s => f (u s) :=
  ⟨fun hs => hf.keeps (hu.keeps hs), fun hs ht h => hf.answer (hu.keeps hs) (hu.keeps ht) (hu.effect hs ht h),
    fun hs ht h => hf.effect (hu.keeps hs) (hu.keeps ht) (hu.effect hs ht h),
    fun hj _ hs => (hf.others hj (hu.keeps hs)).trans (hu.others hj hs)⟩

/-- The same access with another answer. -/
theorem answering (hf : Local part pre post i f) (b : β) : Local part pre post i fun s => (b, (f s).2) :=
  ⟨hf.keeps, fun _ _ _ => rfl, hf.effect, hf.others⟩

/-- An access may be looked at for each value of what the part determines. -/
theorem of_value {g : σ → β} (hg : ∀ {s t}, part i s = part i t → g s = g t)
    (hf : ∀ b, (∃ s, pre s ∧ g s = b) → Local part (fun s => pre s ∧ g s = b) post i f) :
    Local part pre post i f := by
  have hclass (s : σ) (hs : pre s) : Local part (fun t => pre t ∧ g t = g s) post i f := hf (g s) ⟨s, hs, rfl⟩
  exact ⟨fun {s} hs => (hclass s hs).keeps ⟨hs, rfl⟩,
    fun {s t} hs ht h => (hclass s hs).answer ⟨hs, rfl⟩ ⟨ht, (hg h).symm⟩ h,
    fun {s t} hs ht h => (hclass s hs).effect ⟨hs, rfl⟩ ⟨ht, (hg h).symm⟩ h,
    fun hj s hs => (hclass s hs).others hj ⟨hs, rfl⟩⟩

end Local

/-- The calls that `own` gives to a process are its accesses, and all of them keep `inv`. -/
def Separate (h : Handler Op Res ε σ) (own : ι → Op → Prop) (part : ι → σ → τ) (inv : σ → Prop) : Prop :=
  ∀ i op, own i op → Local part inv inv i (h op)

namespace Separate

variable {h : Handler Op Res ε σ} {own : ι → Op → Prop} {part : ι → σ → τ} {inv : σ → Prop}

/-- A program runs alike on stores with the same part. -/
theorem run_congr (hsep : Separate h own part inv) {i : ι} {p : Program Op Res ε α} (hp : p.Calls (own i)) {s t : σ}
    (hs : inv s) (ht : inv t) (hst : part i s = part i t) :
    (p.run h s).1 = (p.run h t).1 ∧ part i (p.run h s).2 = part i (p.run h t).2 := by
  induction p generalizing s t with
  | ret a => exact ⟨rfl, hst⟩
  | throw e => exact ⟨rfl, hst⟩
  | call op next ih =>
    have hlocal := hsep i op hp.1
    have hanswer := hlocal.answer hs ht hst
    have hnext := ih (h op s).1 (hp.2 _) (hlocal.keeps hs) (hlocal.keeps ht) (hlocal.effect hs ht hst)
    rw [Program.run, Program.run, ← hanswer]
    exact hnext

variable [DecidableEq ι]

/-- A step of one process. What is left of process `i` leads, alone, to where it led before the step. -/
theorem run_step (hsep : Separate h own part inv) {c : Pool ι Op Res ε α σ} (hc : ∀ i, (c.procs i).Calls (own i))
    (hs : inv c.store) (i j : ι) :
    inv (c.step h j).store ∧
      (((c.step h j).procs i).run h (c.step h j).store).1 = ((c.procs i).run h c.store).1 ∧
      part i (((c.step h j).procs i).run h (c.step h j).store).2 = part i ((c.procs i).run h c.store).2 := by
  obtain ⟨-, hstep⟩ | ⟨op, next, hj, hstep⟩ := c.step_cases h j
  · rw [hstep]
    exact ⟨hs, rfl, rfl⟩
  have hown := hc j
  rw [hj] at hown
  have hlocal := hsep j op hown.1
  have hkept := hlocal.keeps hs
  rw [hstep]
  by_cases hi : i = j
  · subst hi
    simp only [Function.update_self, hj]
    exact ⟨hkept, rfl, rfl⟩
  · simp only [Function.update_of_ne hi]
    exact ⟨hkept, hsep.run_congr (hc i) hkept hs (hlocal.others hi hs)⟩

theorem run_exec (hsep : Separate h own part inv) {c : Pool ι Op Res ε α σ} (hc : ∀ i, (c.procs i).Calls (own i))
    (hs : inv c.store) (sched : List ι) (i : ι) :
    (((c.exec h sched).procs i).run h (c.exec h sched).store).1 = ((c.procs i).run h c.store).1 ∧
      part i (((c.exec h sched).procs i).run h (c.exec h sched).store).2 = part i ((c.procs i).run h c.store).2 := by
  induction sched generalizing c with
  | nil => exact ⟨rfl, rfl⟩
  | cons j sched ih =>
    obtain ⟨hkept, hstep⟩ := hsep.run_step hc hs i j
    have hrest := ih (c.calls_step h hc j) hkept
    exact ⟨hrest.1.trans hstep.1, hrest.2.trans hstep.2⟩

/-- Rule for interleavings: a process that has ended has had its outcome and its effect alone. -/
theorem exec_ended (hsep : Separate h own part inv) {c : Pool ι Op Res ε α σ} (hc : ∀ i, (c.procs i).Calls (own i))
    (hs : inv c.store) (sched : List ι) {i : ι} (hi : ((c.exec h sched).procs i).pending = none) :
    ((c.exec h sched).procs i).outcome = some ((c.procs i).run h c.store).1 ∧
      part i (c.exec h sched).store = part i ((c.procs i).run h c.store).2 := by
  have hrun := hsep.run_exec hc hs sched i
  cases hp : (c.exec h sched).procs i with
  | ret a =>
    rw [hp] at hrun
    exact ⟨congrArg some hrun.1, hrun.2⟩
  | throw e =>
    rw [hp] at hrun
    exact ⟨congrArg some hrun.1, hrun.2⟩
  | call op next =>
    rw [hp] at hi
    cases hi

end Separate

namespace Pool

/-- What the wait for all of some processes has come to: the exception of one, or that all have returned. -/
def all (c : Pool ι Op Res ε α σ) (is : List ι) : Option (Except ε Unit) :=
  match is.findSome? fun i => match c.procs i with
    | .throw e => some e
    | _ => none with
  | some e => some (.error e)
  | none => if is.all fun i => (c.procs i).pending.isNone then some (.ok ()) else none

theorem exists_of_all_error {c : Pool ι Op Res ε α σ} {is : List ι} {e : ε} (h : c.all is = some (.error e)) :
    ∃ i ∈ is, c.procs i = .throw e := by
  unfold all at h
  split at h
  · next e' hfound =>
    obtain rfl : e' = e := by simpa using h
    obtain ⟨i, hi, hthrow⟩ := List.exists_of_findSome?_eq_some hfound
    refine ⟨i, hi, ?_⟩
    split at hthrow
    · next hp => rw [hp, Option.some.inj hthrow]
    · cases hthrow
  · split at h <;> simp at h

theorem all_of_ended {c : Pool ι Op Res ε α σ} {is : List ι} (hended : c.Ended) (hne : ∀ e, c.all is ≠ some (.error e)) :
    c.all is = some (.ok ()) := by
  have hall : (is.all fun i => (c.procs i).pending.isNone) = true := by
    simpa using fun i _ => hended i
  revert hne
  unfold all
  split
  · exact fun hne => absurd rfl (hne _)
  · exact fun _ => if_pos hall

end Pool

end Atomic
