import Mathlib.Data.List.Infix
import Mathlib.Data.Nat.Notation
import Mathlib.Order.Basic

/-! Runs of a deterministic step function over a list of inputs. -/

namespace Atomic

namespace Runs

variable {σ α : Type} (step : σ → α → σ)

/-- Every input of the run meets `ok` in the state in which it is taken. -/
def Meets (ok : σ → α → Prop) : σ → List α → Prop
  | _, [] => True
  | s, a :: as => ok s a ∧ Meets ok (step s a) as

instance Meets.decidable (ok : σ → α → Prop) [∀ s a, Decidable (ok s a)] :
    (s : σ) → (as : List α) → Decidable (Meets step ok s as)
  | _, [] => isTrue trivial
  | s, a :: as =>
    have := Meets.decidable ok (step s a) as
    inferInstanceAs (Decidable (ok s a ∧ Meets step ok (step s a) as))

/-- Every state of the run satisfies `P`, the first and the last included. -/
def Always (P : σ → Prop) (s : σ) (as : List α) : Prop :=
  ∀ pre, pre <+: as → P (pre.foldl step s)

variable {step} {ok : σ → α → Prop} {P I : σ → Prop}

theorem meets_append {s : σ} {as bs : List α} :
    Meets step ok s (as ++ bs) ↔ Meets step ok s as ∧ Meets step ok (as.foldl step s) bs := by
  induction as generalizing s with
  | nil => simp [Meets]
  | cons a as ih => simp [Meets, ih, and_assoc]

/-- A run that is not admitted has a first step that `ok` rejects. -/
theorem exists_of_not_meets {s : σ} {as : List α} (h : ¬ Meets step ok s as) :
    ∃ pre a post, as = pre ++ a :: post ∧ Meets step ok s pre ∧ ¬ ok (pre.foldl step s) a := by
  induction as generalizing s with
  | nil => exact absurd trivial h
  | cons a as ih =>
    by_cases ha : ok s a
    · have htail : ¬ Meets step ok (step s a) as := fun hm => h ⟨ha, hm⟩
      obtain ⟨pre, b, post, rfl, hpre, hb⟩ := ih htail
      exact ⟨a :: pre, b, post, rfl, ⟨ha, hpre⟩, hb⟩
    · exact ⟨[], a, as, rfl, trivial, ha⟩

theorem meets_true (s : σ) (as : List α) : Meets step (fun _ _ => True) s as := by
  induction as generalizing s with
  | nil => trivial
  | cons a as ih => exact ⟨trivial, ih _⟩

theorem Meets.initial {s : σ} {as bs : List α} (h : Meets step ok s bs) (hp : as <+: bs) :
    Meets step ok s as := by
  obtain ⟨cs, rfl⟩ := hp
  exact (meets_append.mp h).1

/-- An invariant kept by every admitted step holds after an admitted run. -/
theorem invariant (hstep : ∀ s a, I s → ok s a → I (step s a)) {s : σ} {as : List α} (hs : I s)
    (hm : Meets step ok s as) : I (as.foldl step s) := by
  induction as generalizing s with
  | nil => exact hs
  | cons a as ih => exact ih (hstep s a hs hm.1) hm.2

/-- An invariant of the inputs taken so far together with the state that they lead to. -/
theorem history_invariant {s : σ} {I : List α → σ → Prop} (hs : I [] s)
    (hstep : ∀ pre a, I pre (pre.foldl step s) → I (pre ++ [a]) (step (pre.foldl step s) a)) (as : List α) :
    I as (as.foldl step s) := by
  induction as using List.reverseRecOn with
  | nil => exact hs
  | append_singleton as a ih =>
    rw [List.foldl_append]
    exact hstep as a ih

theorem meets_of_forall {p : α → Prop} {s : σ} {as : List α} (h : ∀ a ∈ as, p a) : Meets step (fun _ a => p a) s as := by
  induction as generalizing s with
  | nil => trivial
  | cons a as ih => exact ⟨h a List.mem_cons_self, ih fun b hb => h b (List.mem_cons_of_mem _ hb)⟩

/-- What the admitted steps satisfy wherever the invariant holds, the steps of an admitted run satisfy. -/
theorem Meets.of_invariant {ok' : σ → α → Prop} (hstep : ∀ s a, I s → ok s a → I (step s a))
    (h : ∀ s a, I s → ok s a → ok' s a) {s : σ} {as : List α} (hs : I s) (hm : Meets step ok s as) :
    Meets step ok' s as := by
  induction as generalizing s with
  | nil => trivial
  | cons a as ih => exact ⟨h s a hs hm.1, ih (hstep s a hs hm.1) hm.2⟩

/-- Two conditions on steps that agree wherever the invariant holds admit the same runs. -/
theorem meets_congr {ok' : σ → α → Prop} (hI : ∀ s a, I s → I (step s a)) (h : ∀ s a, I s → (ok s a ↔ ok' s a))
    {s : σ} {as : List α} (hs : I s) : Meets step ok s as ↔ Meets step ok' s as := by
  induction as generalizing s with
  | nil => exact Iff.rfl
  | cons a as ih => exact and_congr (h s a hs) (ih (hI s a hs))

theorem always_nil {s : σ} : Always step P s [] ↔ P s := by
  simp [Always]

theorem always_cons {s : σ} {a : α} {as : List α} :
    Always step P s (a :: as) ↔ P s ∧ Always step P (step s a) as := by
  constructor
  · intro h
    refine ⟨h [] List.nil_prefix, fun pre hp => h (a :: pre) ?_⟩
    exact List.prefix_cons_inj a |>.mpr hp
  · rintro ⟨hs, h⟩ pre hp
    cases pre with
    | nil => exact hs
    | cons b pre =>
      obtain ⟨he, hrest⟩ := List.cons_prefix_cons.mp hp
      subst he
      exact h pre hrest

theorem Always.of_invariant (hstep : ∀ s a, I s → ok s a → I (step s a)) (hP : ∀ s, I s → P s)
    {s : σ} {as : List α} (hs : I s) (hm : Meets step ok s as) : Always step P s as :=
  fun _ hp => hP _ (invariant hstep hs (hm.initial hp))

/-- Where, from a state that satisfies `P` and the invariant `I`, exactly the
admitted steps lead to a state that satisfies `P`, the states of a run all
satisfy `P` exactly when every step is admitted. -/
theorem always_iff_meets (hI : ∀ s a, I s → I (step s a))
    (hP : ∀ s a, I s → P s → (P (step s a) ↔ ok s a)) {s : σ} {as : List α} (hi : I s) (hs : P s) :
    Always step P s as ↔ Meets step ok s as := by
  induction as generalizing s with
  | nil => simp [always_nil, Meets, hs]
  | cons a as ih =>
    rw [always_cons, Meets]
    constructor
    · rintro ⟨-, h⟩
      have hn : P (step s a) := h [] List.nil_prefix
      exact ⟨(hP s a hi hs).mp hn, (ih (hI s a hi) hn).mp h⟩
    · rintro ⟨hok, h⟩
      exact ⟨hs, (ih (hI s a hi) ((hP s a hi hs).mpr hok)).mpr h⟩

/-- Inputs of one kind lower a measure until it is zero, and no input raises it: a run
with enough of them ends at zero. -/
theorem measure_exhausted {μ : σ → ℕ} {p : α → Bool} (hI : ∀ s a, I s → ok s a → I (step s a))
    (hle : ∀ s a, I s → ok s a → μ (step s a) ≤ μ s)
    (hlt : ∀ s a, I s → ok s a → p a → μ s ≠ 0 → μ (step s a) < μ s) {s : σ} {as : List α} (hs : I s)
    (hm : Meets step ok s as) (hcount : μ s ≤ as.countP p) : μ (as.foldl step s) = 0 := by
  induction as generalizing s with
  | nil => simpa using hcount
  | cons a as ih =>
    refine ih (hI s a hs hm.1) hm.2 ?_
    have hstep := hle s a hs hm.1
    by_cases hp : p a
    · rw [List.countP_cons_of_pos hp] at hcount
      by_cases hzero : μ s = 0
      · omega
      · have hless := hlt s a hs hm.1 hp hzero
        omega
    · rw [List.countP_cons_of_neg hp] at hcount
      omega

section Absorbs

variable {β : Type} {value : σ → β} {Final : β → Prop}

variable (step value Final) in
/-- A final value, once reached, stays for the rest of the run. -/
def Absorbs (s : σ) (as : List α) : Prop :=
  ∀ xs ys, xs ++ ys <+: as → Final (value (xs.foldl step s)) →
    value ((xs ++ ys).foldl step s) = value (xs.foldl step s)

theorem value_stays (hI : ∀ s a, I s → I (step s a))
    (hok : ∀ s a, I s → Final (value s) → ok s a → value (step s a) = value s) {s : σ} {as : List α}
    (hi : I s) (hf : Final (value s)) (hm : Meets step ok s as) : value (as.foldl step s) = value s := by
  induction as generalizing s with
  | nil => rfl
  | cons a as ih =>
    have hv := hok s a hi hf hm.1
    exact (ih (hI s a hi) (hv ▸ hf) hm.2).trans hv

/-- Where the admitted steps are those that keep a final value, exactly the
admitted runs absorb the final values. -/
theorem absorbs_iff_meets (hI : ∀ s a, I s → I (step s a))
    (hok : ∀ s a, I s → Final (value s) → (value (step s a) = value s ↔ ok s a))
    (hfree : ∀ s a, I s → ¬ Final (value s) → ok s a) {s : σ} {as : List α} (hi : I s) :
    Absorbs step value Final s as ↔ Meets step ok s as := by
  constructor
  · intro habs
    by_contra hm
    obtain ⟨pre, a, post, rfl, -, hno⟩ := exists_of_not_meets hm
    have hp : I (pre.foldl step s) := invariant (fun s a h _ => hI s a h) hi (meets_true s pre)
    by_cases hf : Final (value (pre.foldl step s))
    · have hv := habs pre [a] ⟨post, by simp⟩ hf
      rw [List.foldl_append] at hv
      exact hno ((hok _ a hp hf).mp hv)
    · exact hno (hfree _ a hp hf)
  · intro hm xs ys hp hf
    have hxy := meets_append.mp (hm.initial hp)
    have hx : I (xs.foldl step s) := invariant (fun s a h _ => hI s a h) hi hxy.1
    rw [List.foldl_append]
    exact value_stays hI (fun s a h hf => (hok s a h hf).mpr) hx hf hxy.2

end Absorbs

section Rises

variable {β : Type} [Preorder β] {value : σ → β}

variable (step value) in
/-- The value never falls along the run. -/
def Rises (s : σ) (as : List α) : Prop :=
  ∀ xs ys, xs ++ ys <+: as → value (xs.foldl step s) ≤ value ((xs ++ ys).foldl step s)

/-- Where the admitted steps are those that the value survives, it never falls
exactly along the admitted runs. -/
theorem rises_iff_meets (hI : ∀ s a, I s → I (step s a))
    (hok : ∀ s a, I s → (value s ≤ value (step s a) ↔ ok s a)) {s : σ} {as : List α} (hi : I s) :
    Rises step value s as ↔ Meets step ok s as := by
  constructor
  · intro hrises
    by_contra hm
    obtain ⟨pre, a, post, rfl, -, hno⟩ := exists_of_not_meets hm
    have hp : I (pre.foldl step s) := invariant (fun s a h _ => hI s a h) hi (meets_true s pre)
    have hle := hrises pre [a] ⟨post, by simp⟩
    rw [List.foldl_append] at hle
    exact hno ((hok _ a hp).mp hle)
  · intro hm xs ys hp
    have hxy := meets_append.mp (hm.initial hp)
    have hx : I (xs.foldl step s) := invariant (fun s a h _ => hI s a h) hi hxy.1
    rw [List.foldl_append]
    have hlast := invariant (I := fun t => I t ∧ value (xs.foldl step s) ≤ value t) ?_ ⟨hx, le_rfl⟩ hxy.2
    · exact hlast.2
    · rintro t a ⟨ht, hle⟩ ha
      exact ⟨hI t a ht, hle.trans ((hok t a ht).mpr ha)⟩

end Rises

end Runs

end Atomic
