import NebLite.Rides.Entities
import Mathlib.Logic.Function.Basic

/-! The race for an open ride. Callers that each act for one driver move
through the phases of an acceptance; what they share is the ride's driver and
status, the answers of the candidates and how often a driver was told that he
was not selected. -/

namespace NebLite

structure Race where
  driver : Option Id
  status : ERideStatus
  cand : Id → Option ERideDriverCandidateStatus
  told : Id → ℕ

namespace Race

/-- `sawFree`, `sawSelf` and `sawOther` are named after the driver that the
caller has read; in `assigning` and `accepting` the two transitions run. -/
inductive Phase where
  | started
  | sawFree
  | sawSelf
  | sawOther
  | claiming
  | saving
  | assigning
  | accepting
  | settled
  | losing
  | telling
  | beaten
  | collided
  | refused
  deriving DecidableEq

namespace Phase

/-- The ride is the caller's and the acceptance is not complete. -/
def Working (p : Phase) : Prop := p = saving ∨ p = assigning ∨ p = accepting

/-- The caller's driver has been seen or made the ride's driver. -/
def Mine (p : Phase) : Prop := p = sawSelf ∨ p.Working ∨ p = settled

/-- Another driver has been seen. -/
def Lost (p : Phase) : Prop := p = sawOther ∨ p = losing ∨ p = telling ∨ p = beaten

end Phase

def answer (s : Race) (d : Id) (a : ERideDriverCandidateStatus) : Race :=
  { s with cand := Function.update s.cand d (some a) }

@[simp] theorem answer_told (s : Race) (d a) : (s.answer d a).told = s.told := rfl

@[simp] theorem answer_driver (s : Race) (d a) : (s.answer d a).driver = s.driver := rfl

@[simp] theorem answer_status (s : Race) (d a) : (s.answer d a).status = s.status := rfl

@[simp] theorem answer_cand (s : Race) (d a) :
    (s.answer d a).cand = Function.update s.cand d (some a) := rfl

/-- An answer with which a driver may still get the ride. -/
def Open (a : Option ERideDriverCandidateStatus) : Prop := a = some .invited ∨ a = some .accepted

/-- One atomic step of a caller for driver `d`. -/
inductive Step (d : Id) : Phase → Race → Phase → Race → Prop
  | stay {p s} : p = .assigning ∨ p = .accepting ∨ p = .settled → Step d p s p s
  | seeFree {s} : s.driver = none → Step d .started s .sawFree s
  | seeSelf {s} : s.driver = some d → Step d .started s .sawSelf s
  | seeOther {s x} : s.driver = some x → x ≠ d → Step d .started s .sawOther s
  | refuse {p s} : p = .sawFree ∨ p = .sawSelf ∨ p = .sawOther → ¬ Open (s.cand d) →
      Step d p s .refused s
  | claimNext {s} : Open (s.cand d) → Step d .sawFree s .claiming s
  | already {s} : s.cand d = some .accepted → Step d .sawSelf s .settled s
  | resume {s} : Open (s.cand d) → Step d .sawSelf s .saving s
  | lose {s} : Open (s.cand d) → Step d .sawOther s .losing s
  | claim {s} : s.driver = none → Step d .claiming s .saving { s with driver := some d }
  | collide {s} : s.driver ≠ none → Step d .claiming s .collided s
  | save {s} : Step d .saving s .assigning (s.answer d .accepted)
  | assign {s} : Step d .assigning s .assigning { s with driver := some d, status := .assigned }
  | proceed {s} : s.status = .assigned ∨ s.status = .candidatesComputed →
      Step d .assigning s .accepting s
  | done {s} : s.status ≠ .assigned → s.status ≠ .candidatesComputed →
      Step d .assigning s .settled s
  | accept {s} : Step d .accepting s .settled { s with driver := some d, status := .accepted }
  | supersede {s} : Step d .losing s .telling (s.answer d .canceled)
  | tell {s} : Step d .telling s .beaten { s with told := Function.update s.told d (s.told d + 1) }

/-- What the phase of a caller for driver `d` says of the race. -/
structure Fits (init : Race) (d : Id) (p : Phase) (s : Race) : Prop where
  mine : p.Mine → s.driver = some d
  lost : p.Lost → ∃ x, s.driver = some x ∧ x ≠ d
  collided : p = .collided → ∃ x, s.driver = some x
  refused : p = .refused → init.cand d = some .invited → ∃ x, s.driver = some x

/-- What holds of callers for the drivers `drv` in a race that began at `init`. -/
structure Inv {ι : Type} (drv : ι → Id) (init : Race) (phase : ι → Phase) (s : Race) : Prop where
  untouched : s.driver = none → s.cand = init.cand
  status : s.status = .candidatesComputed ∨ s.status = .assigned ∨ s.status = .accepted
  answered : ∀ d, s.cand d = some .accepted → s.driver = some d
  unconfirmed : ∀ d, s.cand d ≠ some .confirmed
  fits : ∀ i, Fits init (drv i) (phase i) s
  saved : ∀ d, s.driver = some d → s.cand d = some .accepted ∨ ∃ i, phase i = .saving
  settles : s.driver ≠ none → s.status = .accepted ∨ ∃ i, (phase i).Working
  won : s.driver ≠ none → ∃ i, (phase i).Working ∨ phase i = .settled

variable {ι : Type} {drv : ι → Id} {init s s' : Race} {phase : ι → Phase} {i : ι} {d : Id}
  {p p' : Phase}

theorem inv_init (hd : init.driver = none) (hs : init.status = .candidatesComputed)
    (hc : ∀ d, init.cand d ≠ some .accepted ∧ init.cand d ≠ some .confirmed) :
    Inv drv init (fun _ => .started) init where
  untouched _ := rfl
  status := .inl hs
  answered d h := absurd h (hc d).1
  unconfirmed d := (hc d).2
  fits i := ⟨by simp [Phase.Mine, Phase.Working], by simp [Phase.Lost], by simp, by simp⟩
  saved d h := by simp [hd] at h
  settles h := absurd hd h
  won h := absurd hd h

theorem Fits.mono (h : Fits init d p s) (hd : ∀ x, s.driver = some x → s'.driver = some x) :
    Fits init d p s' where
  mine hp := hd d (h.mine hp)
  lost hp := (h.lost hp).imp fun x hx => ⟨hd x hx.1, hx.2⟩
  collided hp := (h.collided hp).imp fun x hx => hd x hx
  refused hp hi := (h.refused hp hi).imp fun x hx => hd x hx

/-- Once the ride has a driver, it keeps him. -/
theorem Step.driver_stays (h : Step d p s p' s') (hf : Fits init d p s) (x : Id)
    (hx : s.driver = some x) : s'.driver = some x := by
  cases h with
  | claim hn => simp [hn] at hx
  | assign => exact (hf.mine (by simp [Phase.Mine, Phase.Working])).symm.trans hx
  | accept => exact (hf.mine (by simp [Phase.Mine, Phase.Working])).symm.trans hx
  | _ => exact hx

theorem Step.fits (h : Step d p s p' s') (hf : Fits init d p s)
    (hu : s.driver = none → s.cand = init.cand) : Fits init d p' s' := by
  obtain ⟨hm, hl, hc, hr⟩ := hf.mono (h.driver_stays hf)
  have hn : s.driver ≠ none → ∃ x, s.driver = some x := Option.ne_none_iff_exists'.mp
  cases h with
  | stay => exact hf
  | refuse hp hopen =>
    refine ⟨by simp [Phase.Mine, Phase.Working], by simp [Phase.Lost], by simp, fun _ hi => ?_⟩
    rcases hp with rfl | rfl | rfl
    · refine hn fun hd => hopen (.inl ?_)
      rw [hu hd, hi]
    · exact ⟨d, hm (by simp [Phase.Mine])⟩
    · exact (hl (by simp [Phase.Lost])).imp fun x hx => hx.1
  | _ => constructor <;> simp_all [Phase.Mine, Phase.Working, Phase.Lost]

theorem not_step_collided : ¬ Step d .collided s p s' := by
  intro h
  cases h with
  | stay hp => simp at hp
  | refuse hp => simp at hp

theorem Step.collided_iff (h : Step d p s p' s') :
    p' = .collided ↔ p = .claiming ∧ s.driver ≠ none := by
  cases h with
  | stay hp => rcases hp with rfl | rfl | rfl <;> simp
  | refuse hp => rcases hp with rfl | rfl | rfl <;> simp
  | claim hn => simp [hn]
  | collide hd => simp [hd]
  | _ => simp

theorem Step.untouched (h : Step d p s p' s') (hf : Fits init d p s)
    (hu : s.driver = none → s.cand = init.cand) : s'.driver = none → s'.cand = init.cand := by
  intro hd
  have hs := h.driver_stays hf
  have hn : s.driver = none := by
    cases hx : s.driver with
    | none => rfl
    | some x => simp [hs x hx] at hd
  cases h with
  | save => simp [hf.mine (by simp [Phase.Mine, Phase.Working])] at hn
  | supersede =>
    obtain ⟨x, hx, -⟩ := hf.lost (by simp [Phase.Lost])
    simp [hx] at hn
  | _ => exact hu hn

theorem Step.answered (h : Step d p s p' s') (hf : Fits init d p s)
    (ha : ∀ x, s.cand x = some .accepted → s.driver = some x) (x : Id)
    (hx : s'.cand x = some .accepted) : s'.driver = some x := by
  have hs := h.driver_stays hf x
  cases h with
  | save =>
    by_cases hxd : x = d
    · subst hxd
      exact hf.mine (by simp [Phase.Mine, Phase.Working])
    · exact hs (ha x (by simpa [hxd] using hx))
  | supersede =>
    by_cases hxd : x = d
    · subst hxd
      simp at hx
    · exact hs (ha x (by simpa [hxd] using hx))
  | _ => exact hs (ha x hx)

theorem Step.unconfirmed (h : Step d p s p' s') (hu : ∀ x, s.cand x ≠ some .confirmed) (x : Id) :
    s'.cand x ≠ some .confirmed := by
  cases h with
  | save => by_cases hxd : x = d <;> simp [hxd, hu x]
  | supersede => by_cases hxd : x = d <;> simp [hxd, hu x]
  | _ => exact hu x

theorem Step.status (h : Step d p s p' s')
    (hs : s.status = .candidatesComputed ∨ s.status = .assigned ∨ s.status = .accepted) :
    s'.status = .candidatesComputed ∨ s'.status = .assigned ∨ s'.status = .accepted := by
  cases h with
  | assign => exact .inr (.inl rfl)
  | accept => exact .inr (.inr rfl)
  | _ => exact hs

/-- A caller's phase from which it makes no more step. -/
def Phase.Ended (p : Phase) : Prop := p = settled ∨ p = beaten ∨ p = collided ∨ p = refused

/-- When all callers have ended, a race with an invited caller has one winner,
whose acceptance is complete. -/
theorem Inv.ended (h : Inv drv init phase s) (he : ∀ j, (phase j).Ended)
    (hi : init.cand (drv i) = some .invited) :
    ∃ j, phase j = .settled ∧ s.driver = some (drv j) ∧ s.status = .accepted ∧
      s.cand (drv j) = some .accepted := by
  have hw (j : ι) : ¬ (phase j).Working := by
    rcases he j with hp | hp | hp | hp <;> simp [hp, Phase.Working]
  have hd : s.driver ≠ none := by
    have hf := h.fits i
    rw [Option.ne_none_iff_exists']
    rcases he i with hp | hp | hp | hp
    · exact ⟨_, hf.mine (.inr (.inr hp))⟩
    · exact (hf.lost (by simp [hp, Phase.Lost])).imp fun x hx => hx.1
    · exact hf.collided hp
    · exact hf.refused hp hi
  obtain ⟨j, hj⟩ := h.won hd
  have hj := hj.resolve_left (hw j)
  have hdj := (h.fits j).mine (.inr (.inr hj))
  refine ⟨j, hj, hdj, (h.settles hd).resolve_right fun ⟨k, hk⟩ => hw k hk, ?_⟩
  exact (h.saved _ hdj).resolve_right fun ⟨k, hk⟩ => hw k (.inl hk)

/-- A driver's answer and his notifications are touched by his own callers only. -/
theorem Step.frame (h : Step d p s p' s') {x : Id} (hx : x ≠ d) :
    s'.cand x = s.cand x ∧ s'.told x = s.told x := by
  cases h <;> simp [hx]

/-- The answer of an invited driver's only caller, and how often the driver was
told, in each phase of the caller. -/
structure Rival (init : Race) (d : Id) (p : Phase) (s : Race) : Prop where
  invited : p ∈ [Phase.started, .sawFree, .sawSelf, .sawOther, .claiming, .losing] →
    s.cand d = some .invited
  canceled : p = .telling ∨ p = .beaten → s.cand d = some .canceled
  told : s.told d = init.told d + if p = .beaten then 1 else 0
  admitted : p ≠ .refused

theorem Step.rival (h : Step d p s p' s') (hr : Rival init d p s) : Rival init d p' s' := by
  obtain ⟨hi, hc, ht, ha⟩ := hr
  cases h with
  | stay => exact ⟨hi, hc, ht, ha⟩
  | refuse hp hopen =>
    refine absurd (.inl (hi ?_)) hopen
    rcases hp with rfl | rfl | rfl <;> simp
  | supersede => exact ⟨by simp, by simp, by simpa using ht, by simp⟩
  | tell => exact ⟨by simp, by simpa using hc, by simpa using ht, by simp⟩
  | _ => refine ⟨?_, ?_, ?_, ?_⟩ <;> simp_all

variable [DecidableEq ι]

/-- Callers for pairwise different invited drivers. -/
theorem rivals_step (hdrv : Function.Injective drv) (hr : ∀ j, Rival init (drv j) (phase j) s)
    (hs : Step (drv i) (phase i) s p s') (j : ι) :
    Rival init (drv j) (Function.update phase i p j) s' := by
  by_cases hji : j = i
  · subst hji
    simpa using hs.rival (hr j)
  · obtain ⟨hc, ht⟩ := hs.frame (hdrv.ne hji)
    obtain ⟨hi, hc', ht', ha⟩ := hr j
    rw [Function.update_of_ne hji]
    exact ⟨by rwa [hc], by rwa [hc], by rwa [ht], ha⟩

theorem exists_update {P : Phase → Prop} (h : ∃ j, P (phase j)) (hp : P (phase i) → P p) :
    ∃ j, P (Function.update phase i p j) := by
  obtain ⟨j, hj⟩ := h
  by_cases hji : j = i
  · subst hji
    exact ⟨j, by simpa using hp hj⟩
  · exact ⟨j, by simpa [hji] using hj⟩

theorem Inv.step_saved (h : Inv drv init phase s) (hs : Step (drv i) (phase i) s p s')
    (hd : s'.driver = some d) :
    s'.cand d = some .accepted ∨ ∃ j, Function.update phase i p j = .saving := by
  have hf := h.fits i
  generalize hq : phase i = q at hs hf
  have keep (hd : s.driver = some d) (hne : q ≠ .saving) :
      s.cand d = some .accepted ∨ ∃ j, Function.update phase i p j = .saving :=
    (h.saved d hd).imp_right fun he => exists_update (P := (· = .saving)) he fun hp =>
      absurd (hq.symm.trans hp) hne
  cases hs with
  | resume => exact .inr ⟨i, by simp⟩
  | claim => exact .inr ⟨i, by simp⟩
  | save =>
    obtain rfl : drv i = d :=
      Option.some.inj ((hf.mine (by simp [Phase.Mine, Phase.Working])).symm.trans hd)
    exact .inl (by simp)
  | supersede =>
    obtain ⟨x, hx, hne⟩ := hf.lost (by simp [Phase.Lost])
    obtain rfl : x = d := Option.some.inj (hx.symm.trans hd)
    simpa [hne] using keep hd (by simp)
  | assign => exact keep ((hf.mine (by simp [Phase.Mine, Phase.Working])).trans hd) (by simp)
  | accept => exact keep ((hf.mine (by simp [Phase.Mine, Phase.Working])).trans hd) (by simp)
  | stay hst => exact keep hd (by rcases hst with rfl | rfl | rfl <;> simp)
  | refuse hst => exact keep hd (by rcases hst with rfl | rfl | rfl <;> simp)
  | _ => exact keep hd (by simp)

theorem Inv.step_settles (h : Inv drv init phase s) (hs : Step (drv i) (phase i) s p s')
    (hd : s'.driver ≠ none) :
    s'.status = .accepted ∨ ∃ j, (Function.update phase i p j).Working := by
  generalize hq : phase i = q at hs
  have works (hp : p.Working) : ∃ j, (Function.update phase i p j).Working := ⟨i, by simpa using hp⟩
  have keep (hd : s.driver ≠ none) (hne : ¬ q.Working) :
      s.status = .accepted ∨ ∃ j, (Function.update phase i p j).Working :=
    (h.settles hd).imp_right fun he => exists_update he fun hp => absurd (hq ▸ hp) hne
  cases hs with
  | stay hst =>
    rcases hst with rfl | rfl | rfl
    · exact .inr (works (by simp [Phase.Working]))
    · exact .inr (works (by simp [Phase.Working]))
    · exact keep hd (by simp [Phase.Working])
  | refuse hst => exact keep hd (by rcases hst with rfl | rfl | rfl <;> simp [Phase.Working])
  | done hn hm => exact .inl (by have := h.status; simp_all)
  | accept => exact .inl rfl
  | resume | claim | save | assign | proceed => exact .inr (works (by simp [Phase.Working]))
  | _ => exact keep hd (by simp [Phase.Working])

theorem Inv.step_won (h : Inv drv init phase s) (hs : Step (drv i) (phase i) s p s')
    (hd : s'.driver ≠ none) :
    ∃ j, (Function.update phase i p j).Working ∨ Function.update phase i p j = .settled := by
  generalize hq : phase i = q at hs
  have wins (hp : p.Working ∨ p = .settled) :
      ∃ j, (Function.update phase i p j).Working ∨ Function.update phase i p j = .settled :=
    ⟨i, by simpa using hp⟩
  have keep (hd : s.driver ≠ none) (hne : ¬ q.Working ∧ q ≠ .settled) :
      ∃ j, (Function.update phase i p j).Working ∨ Function.update phase i p j = .settled :=
    exists_update (P := fun r => r.Working ∨ r = .settled) (h.won hd) fun hp => by
      rw [hq] at hp
      exact absurd hp (not_or.mpr hne)
  cases hs with
  | stay hst => exact wins (by rcases hst with rfl | rfl | rfl <;> simp [Phase.Working])
  | refuse hst => exact keep hd (by rcases hst with rfl | rfl | rfl <;> simp [Phase.Working])
  | already | resume | claim | save | assign | proceed | done | accept =>
    exact wins (by simp [Phase.Working])
  | _ => exact keep hd (by simp [Phase.Working])

/-- The invariant of the race passes over every step of a caller. -/
theorem Inv.step (h : Inv drv init phase s) (hs : Step (drv i) (phase i) s p s') :
    Inv drv init (Function.update phase i p) s' where
  untouched := hs.untouched (h.fits i) h.untouched
  status := hs.status h.status
  answered := hs.answered (h.fits i) h.answered
  unconfirmed := hs.unconfirmed h.unconfirmed
  fits j := by
    by_cases hji : j = i
    · subst hji
      simpa using hs.fits (h.fits j) h.untouched
    · simpa [hji] using (h.fits j).mono (hs.driver_stays (h.fits i))
  saved _ := h.step_saved hs
  settles := h.step_settles hs
  won := h.step_won hs

end Race

end NebLite
