import NebLite.Atomic.Expand

/-! Processes that rely on what they have learnt. A fact, once it holds, is kept by the calls of
all processes, so a process may count on it at any later call. -/

namespace Atomic

variable {ι Op Fact σ : Type} {Res : Op → Type} {ε α β : Type}

/-- An invariant of the store, and the facts about it that are there to stay. -/
structure Knowledge (Fact σ : Type) where
  inv : σ → Prop
  holds : Fact → σ → Prop

namespace Knowledge

variable (k : Knowledge Fact σ) (h : Handler Op Res ε σ)

structure Knows (known : List Fact) (s : σ) : Prop where
  inv : k.inv s
  facts : ∀ f ∈ known, k.holds f s

/-- What others may rely on when `s` becomes `s'`. -/
structure Respects (s s' : σ) : Prop where
  inv : k.inv s'
  facts : ∀ f, k.holds f s → k.holds f s'

/-- From what it knows a process makes calls that respect the others, and knows more after them. -/
def outline : Outline (List Fact) Op σ where
  pre known s := k.Knows known s
  move _ op s known' := k.Respects s (h op s).2 ∧ ∀ f ∈ known', k.holds f (h op s).2

/-- The program respects the others, starting from what it knows; what it returns satisfies `P`,
and the facts `learnt` are known of it. -/
def Minds (known : List Fact) (p : Program Op Res ε α) (P : α → Prop) (learnt : α → List Fact) : Prop :=
  (k.outline h).Follows h (fun known' o => ∀ a, o = .ok a → P a ∧ learnt a ⊆ known') known p

variable {k h} {known known' : List Fact} {s s' : σ} {p : Program Op Res ε α} {P P' : α → Prop}
  {learnt learnt' : α → List Fact} {Q : β → Prop} {told : β → List Fact}

theorem Respects.refl (hs : k.inv s) : k.Respects s s := ⟨hs, fun _ h => h⟩

theorem Knows.kept (hs : k.Knows known s) (hr : k.Respects s s') : k.Knows known s' :=
  ⟨hr.inv, fun f hf => hr.facts f (hs.facts f hf)⟩

theorem minds_pure {a : α} (ha : P a) (hl : learnt a ⊆ known) :
    k.Minds h known (pure a : Program Op Res ε α) P learnt := by
  intro x hx
  cases hx
  exact ⟨ha, hl⟩

theorem minds_throw (e : ε) : k.Minds h known (.throw e : Program Op Res ε α) P learnt := by
  intro x hx
  cases hx

theorem Minds.imp (hp : k.Minds h known p P learnt) (hP : ∀ a, P a → P' a)
    (hlearnt : ∀ a, learnt' a ⊆ learnt a) : k.Minds h known p P' learnt' := by
  induction p generalizing known with
  | ret a =>
    obtain ⟨ha, hl⟩ := hp a rfl
    exact minds_pure (hP a ha) (List.Subset.trans (hlearnt a) hl)
  | throw e => exact minds_throw e
  | call op next ih =>
    intro s hs
    obtain ⟨more, hm, hn⟩ := hp s hs
    exact ⟨more, hm, ih _ hn⟩

/-- What a program needs not know is known after it all the same. -/
theorem Minds.mono (hp : k.Minds h known p P learnt) (hk : known ⊆ known') :
    k.Minds h known' p P fun a => learnt a ++ known' := by
  induction p generalizing known known' with
  | ret a =>
    obtain ⟨ha, hl⟩ := hp a rfl
    exact minds_pure ha (List.append_subset.mpr ⟨List.Subset.trans hl hk, List.Subset.refl _⟩)
  | throw e => exact minds_throw e
  | call op next ih =>
    intro s hs
    obtain ⟨more, ⟨hr, hmore⟩, hn⟩ := hp s ⟨hs.inv, fun f hf => hs.facts f (hk hf)⟩
    have hrest : k.Minds h (more ++ known') (next (h op s).1) P fun a => learnt a ++ (more ++ known') :=
      ih _ hn (List.subset_append_left _ _)
    refine ⟨more ++ known', ⟨hr, fun g hg => ?_⟩, hrest.imp (fun _ ha => ha) fun a => ?_⟩
    · exact (List.mem_append.mp hg).elim (hmore g) fun hg => hr.facts g (hs.facts g hg)
    · have hsub : known' ⊆ more ++ known' := List.subset_append_right _ _
      exact List.append_subset.mpr ⟨List.subset_append_left _ _, List.Subset.trans hsub (List.subset_append_right _ _)⟩

/-- The program goes on with what it has learnt. -/
theorem Minds.bind {f : α → Program Op Res ε β} (hp : k.Minds h known p P learnt)
    (hf : ∀ a, P a → k.Minds h (learnt a ++ known) (f a) Q told) : k.Minds h known (p >>= f) Q told := by
  have hall : k.Minds h known p P fun a => learnt a ++ known := hp.mono (List.Subset.refl _)
  apply Outline.Follows.bind hall
  · intro known' a hdone
    obtain ⟨ha, hl⟩ := hdone a rfl
    exact ((hf a ha).mono hl).imp (fun _ hb => hb) fun b => List.subset_append_left _ _
  · intro known' e _ b hb
    cases hb

theorem Minds.catching {g : ε → Program Op Res ε α} (hp : k.Minds h known p P learnt)
    (hg : ∀ e, k.Minds h known (g e) P learnt) : k.Minds h known (p.catching g) P learnt := by
  induction p generalizing known with
  | ret a => exact hp
  | throw e => exact hg e
  | call op next ih =>
    intro s hs
    obtain ⟨more, ⟨hr, hmore⟩, hn⟩ := hp s hs
    refine ⟨more ++ known, ⟨hr, fun f hf => ?_⟩, ih _ ?_ fun e => ?_⟩
    · exact (List.mem_append.mp hf).elim (hmore f) fun hf => hr.facts f (hs.facts f hf)
    · have hn : k.Minds h more (next (h op s).1) P learnt := hn
      exact (hn.mono (List.subset_append_left _ _)).imp (fun _ ha => ha) fun a => List.subset_append_left _ _
    · exact ((hg e).mono (List.subset_append_right _ _)).imp (fun _ ha => ha) fun a => List.subset_append_left _ _

/-- Whatever becomes of the program, what was known before it is known after the attempt. -/
theorem Minds.attempt {f : Except ε α → Program Op Res ε β} (hp : k.Minds h known p P learnt)
    (hf : ∀ r, k.Minds h known (f r) Q told) : k.Minds h known (p.attempt >>= f) Q told := by
  induction p generalizing known with
  | ret a => exact hf (.ok a)
  | throw e => exact hf (.error e)
  | call op next ih =>
    intro s hs
    obtain ⟨more, ⟨hr, hmore⟩, hn⟩ := hp s hs
    have hn : k.Minds h more (next (h op s).1) P learnt := hn
    refine ⟨more ++ known, ⟨hr, fun f hf => ?_⟩, ih _ ?_ fun r => ?_⟩
    · exact (List.mem_append.mp hf).elim (hmore f) fun hf => hr.facts f (hs.facts f hf)
    · exact (hn.mono (List.subset_append_left _ _)).imp (fun _ ha => ha) fun a => List.subset_append_left _ _
    · exact ((hf r).mono (List.subset_append_right _ _)).imp (fun _ hb => hb) fun b => List.subset_append_left _ _

/-- A call, and what its answer tells. -/
theorem minds_perform {op : Op} {P : Res op → Prop} {learnt : Res op → List Fact}
    (hr : ∀ s, k.Knows known s → k.Respects s (h op s).2)
    (ha : ∀ s a, k.Knows known s → (h op s).1 = .ok a → P a ∧ ∀ f ∈ learnt a, k.holds f (h op s).2) :
    k.Minds h known (Program.perform op : Program Op Res ε (Res op)) P learnt := by
  intro s hs
  cases hanswer : (h op s).1 with
  | error e => exact ⟨known, ⟨hr s hs, (hs.kept (hr s hs)).facts⟩, minds_throw e⟩
  | ok a =>
    obtain ⟨hP, hlearnt⟩ := ha s a hs hanswer
    exact ⟨learnt a, ⟨hr s hs, hlearnt⟩, minds_pure hP (List.Subset.refl _)⟩

/-- A program whose calls respect the others whatever is known. -/
theorem minds_of_calls {q : Op → Prop} (hp : p.Calls q) (hq : ∀ op s, q op → k.inv s → k.Respects s (h op s).2) :
    k.Minds h known p (fun _ => True) fun _ => [] := by
  refine Outline.Follows.of_calls hp (fun op s hop hs => ?_) fun _ _ _ => ⟨trivial, List.nil_subset _⟩
  have hr := hq op s hop hs.inv
  exact ⟨hr, (hs.kept hr).facts⟩

/-- A program whose calls are carried out by programs that mind the others. -/
theorem minds_expand {Op₀ : Type} {Res₀ : Op₀ → Type} {q : Op₀ → Prop} {p : Program Op₀ Res₀ ε α}
    {implement : ∀ op, Program Op Res ε (Res₀ op)} (hp : p.Calls q)
    (hq : ∀ op, q op → k.Minds h known (implement op) (fun _ => True) fun _ => []) :
    k.Minds h known (p.expand implement) (fun _ => True) fun _ => [] := by
  induction p with
  | ret a => exact minds_pure trivial (List.nil_subset _)
  | throw e => exact minds_throw e
  | call op next ih => exact (hq op hp.1).attempt fun r => ih r (hp.2 r)

variable [DecidableEq ι]

/-- Processes that mind each other keep the invariant in every interleaving. -/
theorem exec_inv {procs : ι → Program Op Res ε α} (hp : ∀ i, k.Minds h [] (procs i) (fun _ => True) fun _ => [])
    (hs : k.inv s) (sched : List ι) : k.inv ((Pool.start procs s).exec h sched).store := by
  let J (known : ι → List Fact) (c : Pool ι Op Res ε α σ) : Prop := ∀ i, k.Knows (known i) c.store
  have hmove (known : ι → List Fact) (c : Pool ι Op Res ε α σ) (i : ι) (op : Op)
      (next : Except ε (Res op) → Program Op Res ε α) (known' : List Fact) (hJ : J known c) (_ : True)
      (hi : c.procs i = .call op next) (hm : (k.outline h).move (known i) op c.store known') :
      J (Function.update known i known') (c.step h i) := by
    obtain ⟨hr, hknown'⟩ := hm
    intro j
    rw [Pool.step_call h hi]
    by_cases hj : j = i
    · subst hj
      rw [Function.update_self]
      exact ⟨hr.inv, hknown'⟩
    · rw [Function.update_of_ne hj]
      exact (hJ j).kept hr
  cases sched with
  | nil => exact hs
  | cons i rest =>
    have hstart : Outline.Holds (fun _ => k.outline h) h
        (fun _ known' o => ∀ a, o = .ok a → True ∧ [] ⊆ known') J (Pool.start procs s) :=
      ⟨fun _ => [], fun _ => ⟨hs, fun _ hf => absurd hf List.not_mem_nil⟩, hp⟩
    obtain ⟨known, hJ, -⟩ := Outline.exec_holds (fun _ _ i hJ => hJ i) hmove hstart (Runs.meets_true _ (i :: rest))
    exact (hJ i).inv

end Knowledge

end Atomic
