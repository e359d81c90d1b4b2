import NebLite.Rides.Entities

/-! The rider confirms the driver of an accepted ride while the driver rejects it.
Either party passes its guards and then writes in two places; what they share is
the ride's driver and status and the answer of the driver's candidate row. -/

namespace NebLite

structure Duel where
  driver : Option Id
  status : ERideStatus
  answer : Option ERideDriverCandidateStatus

namespace Duel

/-- A snapshot that a transition holds is named by the driver in it. -/
inductive ConfirmPhase where
  | opening
  | passed
  | checked
  | admitted (holder : Option Id)
  | ready (holder : Option Id)
  | listing
  | confirming
  | confirmed
  | refused

inductive RejectPhase where
  | opening
  | passed
  | answering
  | declined
  | withdrawing
  | withdrawn
  | reverting
  | admitted (holder : Option Id)
  | ready (holder : Option Id)
  | kept
  | reverted
  | refused

/-- One step of the confirmation of driver `d`. -/
inductive ConfirmStep (d : Id) : ConfirmPhase → Duel → ConfirmPhase → Duel → Prop
  | stay {p s} : ConfirmStep d p s p s
  | pass {s} : s.driver = some d → ConfirmStep d .opening s .passed s
  | turnedAway {s} : s.driver = none → ConfirmStep d .opening s .refused s
  | check {s} : s.answer = some .accepted → ConfirmStep d .passed s .checked s
  | deny {s} : s.answer ≠ some .accepted → ConfirmStep d .passed s .refused s
  | grant {s} : s.status = .accepted → ConfirmStep d .checked s (.admitted s.driver) s
  | leave {s} : s.status ≠ .accepted → ConfirmStep d .checked s .listing s
  | current {x s} : ConfirmStep d (.admitted x) s (.ready x) s
  | mark {x s} : ConfirmStep d (.ready x) s .listing { s with driver := x, status := .enroute }
  | list {s} : ConfirmStep d .listing s .confirming s
  | confirm {s} : ConfirmStep d .confirming s .confirmed { s with answer := some .confirmed }

/-- One step of the rejection by driver `d`. -/
inductive RejectStep (d : Id) : RejectPhase → Duel → RejectPhase → Duel → Prop
  | stay {q s} : RejectStep d q s q s
  | pass {s} : s.status = .accepted → RejectStep d .opening s .passed s
  | turnedAway {s} : s.status = .enroute → RejectStep d .opening s .refused s
  | check {s} : RejectStep d .passed s .answering s
  | decline {s} : RejectStep d .answering s .declined { s with answer := some .declined }
  | current {s} : RejectStep d .declined s .withdrawing s
  | withdraw {s} : RejectStep d .withdrawing s .withdrawn { s with driver := none, status := .accepted }
  | reread {s} : RejectStep d .withdrawn s .reverting s
  | grant {s} : s.status = .accepted ∨ s.status = .assigned →
      RejectStep d .reverting s (.admitted s.driver) s
  | leave {s} : s.status ≠ .accepted → s.status ≠ .assigned → RejectStep d .reverting s .kept s
  | currentAgain {x s} : RejectStep d (.admitted x) s (.ready x) s
  | revert {x s} : RejectStep d (.ready x) s .reverted { s with driver := x, status := .candidatesComputed }

namespace ConfirmPhase

/-- Nothing has been written, and a snapshot that is held has the driver. -/
def Before (d : Id) : ConfirmPhase → Prop
  | opening | passed | checked => True
  | admitted x | ready x => x = some d
  | _ => False

/-- The transition is over. -/
def After : ConfirmPhase → Prop
  | listing | confirming | confirmed => True
  | _ => False

def Ended : ConfirmPhase → Prop
  | confirmed | refused => True
  | _ => False

end ConfirmPhase

namespace RejectPhase

/-- Nothing has been written. -/
def Early : RejectPhase → Prop
  | opening | passed | answering => True
  | _ => False

/-- An UPDATE of the ride is due that looks at nothing any more. -/
def Holding : RejectPhase → Prop
  | declined | withdrawing | admitted _ | ready _ => True
  | _ => False

/-- The driver has been taken off the ride. -/
def Late : RejectPhase → Prop
  | withdrawn | reverting | kept | reverted => True
  | admitted x | ready x => x = none
  | _ => False

/-- What the rejection has made of a ride with driver `d` and status `σ`, alone. -/
def Alone (d : Id) (σ : ERideStatus) : RejectPhase → Duel → Prop
  | declined, s | withdrawing, s => s = ⟨some d, σ, some .declined⟩
  | withdrawn, s | reverting, s => s = ⟨none, .accepted, some .declined⟩
  | admitted x, s | ready x, s => x = none ∧ s = ⟨none, .accepted, some .declined⟩
  | reverted, s => s = ⟨none, .candidatesComputed, some .declined⟩
  | _, _ => False

def Ended : RejectPhase → Prop
  | kept | reverted | refused => True
  | _ => False

end RejectPhase

/-- The answer `a` before the confirmation saves its row, CONFIRMED after it. -/
def answerAt (a : ERideDriverCandidateStatus) : ConfirmPhase → ERideDriverCandidateStatus
  | .confirmed => .confirmed
  | _ => a

/-- The ways in which a duel goes that can still end in agreement. -/
inductive Sound (d : Id) : ConfirmPhase → RejectPhase → Duel → Prop
  | fresh {p q} : p.Before d → q.Early → Sound d p q ⟨some d, .accepted, some .accepted⟩
  | ahead {p q} : p.After → q.Early ∨ q = .refused →
      Sound d p q ⟨some d, .enroute, some (answerAt .accepted p)⟩
  | behind {p q s} : p.Before d ∨ p = .refused → q.Alone d .accepted s → Sound d p q s
  | undone {q s} : q.Alone d .enroute s → Sound d .confirmed q s
  | overtaken {p q} : p.After → q = .withdrawn ∨ q = .reverting ∨ q = .kept ∨ q = .reverted →
      Sound d p q ⟨some d, .enroute, some (answerAt .declined p)⟩

/-- The ways in which it cannot. -/
inductive Doomed : ConfirmPhase → RejectPhase → Duel → Prop
  | strayed {p q s} : s.driver = none → p = .admitted none ∨ p = .ready none ∨ p.After →
      (p = .confirmed → s.answer = some .confirmed) → q.Late → Doomed p q s
  | pending {p q s} : p.After → (p = .confirmed → s.answer = some .confirmed) → q.Holding →
      (∀ x, q = .admitted x ∨ q = .ready x → x = none) → Doomed p q s

/-- What a step of the confirmation has to meet: its transition reads the ride with
a driver, and its UPDATE does not fall where one of the rejection is due. -/
def ConfirmOk (p p' : ConfirmPhase) (q : RejectPhase) (s : Duel) : Prop :=
  (p = .checked → p' ≠ .checked → s.driver ≠ none) ∧
  ((∃ x, p = .ready x) → p' = .listing → ¬ q.Holding)

/-- What a step of the rejection has to meet: a ride that is on its way has been
confirmed before the driver declines. -/
def RejectOk (q q' : RejectPhase) (s : Duel) : Prop :=
  q = .answering → q' = .declined → s.status = .enroute → s.answer = some .confirmed

/-- The outcomes that the two parties agree on. -/
def Agreed (d : Id) (s : Duel) : Prop :=
  s = ⟨some d, .enroute, some .confirmed⟩ ∨ s = ⟨none, .candidatesComputed, some .declined⟩

variable {d : Id} {σ : ERideStatus} {p p' : ConfirmPhase} {q q' : RejectPhase} {s s' : Duel}

/-- The three states of a ride that only the rejection writes. -/
theorem RejectPhase.Alone.cases (h : q.Alone d σ s) :
    (q = .declined ∨ q = .withdrawing) ∧ s = ⟨some d, σ, some .declined⟩ ∨
    (q = .withdrawn ∨ q = .reverting ∨ q = .admitted none ∨ q = .ready none) ∧
      s = ⟨none, .accepted, some .declined⟩ ∨
    q = .reverted ∧ s = ⟨none, .candidatesComputed, some .declined⟩ := by
  cases q with
  | declined => exact .inl ⟨.inl rfl, h⟩
  | withdrawing => exact .inl ⟨.inr rfl, h⟩
  | withdrawn => exact .inr (.inl ⟨.inl rfl, h⟩)
  | reverting => exact .inr (.inl ⟨.inr (.inl rfl), h⟩)
  | admitted x =>
    obtain ⟨rfl, hs⟩ := h
    exact .inr (.inl ⟨.inr (.inr (.inl rfl)), hs⟩)
  | ready x =>
    obtain ⟨rfl, hs⟩ := h
    exact .inr (.inl ⟨.inr (.inr (.inr rfl)), hs⟩)
  | reverted => exact .inr (.inr ⟨rfl, h⟩)
  | _ => exact h.elim

/-- While the driver is there, the rejection has only declined. -/
theorem RejectPhase.Alone.driver (h : q.Alone d σ s) (hd : s.driver ≠ none) :
    (q = .declined ∨ q = .withdrawing) ∧ s = ⟨some d, σ, some .declined⟩ := by
  obtain hs | ⟨-, rfl⟩ | ⟨-, rfl⟩ := h.cases
  · exact hs
  · exact absurd rfl hd
  · exact absurd rfl hd

theorem Sound.confirm (h : Sound d p q s) (hs : ConfirmStep d p s p' s') (hok : ConfirmOk p p' q s) :
    Sound d p' q s' := by
  cases h with
  | fresh hp hq =>
    cases hs with
    | stay => exact .fresh hp hq
    | pass => exact .fresh trivial hq
    | turnedAway hn => cases hn
    | check => exact .fresh trivial hq
    | deny hn => exact absurd rfl hn
    | grant => exact .fresh rfl hq
    | leave hn => exact absurd rfl hn
    | current => exact .fresh hp hq
    | mark =>
      obtain rfl : _ = some d := hp
      exact .ahead trivial (.inl hq)
    | list | confirm => exact hp.elim
  | ahead hp hq =>
    cases hs with
    | stay => exact .ahead hp hq
    | list => exact .ahead trivial hq
    | confirm => exact .ahead trivial hq
    | _ => exact hp.elim
  | behind hp hq =>
    cases hs with
    | stay => exact .behind hp hq
    | pass => exact .behind (.inl trivial) hq
    | turnedAway => exact .behind (.inr rfl) hq
    | check => exact .behind (.inl trivial) hq
    | deny => exact .behind (.inr rfl) hq
    | grant =>
      obtain ⟨-, rfl⟩ := hq.driver (hok.1 rfl (by simp))
      exact .behind (.inl rfl) hq
    | leave hn =>
      obtain ⟨-, rfl⟩ := hq.driver (hok.1 rfl (by simp))
      exact absurd rfl hn
    | current =>
      rcases hp with hp | hp
      · exact .behind (.inl hp) hq
      · cases hp
    | mark =>
      obtain rfl : _ = some d := hp.resolve_right (by simp)
      have hheld := hok.2 ⟨_, rfl⟩ rfl
      obtain ⟨rfl | rfl, rfl⟩ | ⟨rfl | rfl | rfl | rfl, rfl⟩ | ⟨rfl, rfl⟩ := hq.cases
      · exact absurd trivial hheld
      · exact absurd trivial hheld
      · exact .overtaken trivial (.inl rfl)
      · exact .overtaken trivial (.inr (.inl rfl))
      · exact absurd trivial hheld
      · exact absurd trivial hheld
      · exact .overtaken trivial (.inr (.inr (.inr rfl)))
    | list => rcases hp with hp | hp <;> cases hp
    | confirm => rcases hp with hp | hp <;> cases hp
  | undone hq =>
    cases hs with
    | stay => exact .undone hq
  | overtaken hp hq =>
    cases hs with
    | stay => exact .overtaken hp hq
    | list => exact .overtaken trivial hq
    | confirm => exact .overtaken trivial hq
    | _ => exact hp.elim

theorem Sound.reject (h : Sound d p q s) (hs : RejectStep d q s q' s') (hok : RejectOk q q' s) :
    Sound d p q' s' := by
  cases h with
  | fresh hp hq =>
    cases hs with
    | stay => exact .fresh hp hq
    | pass => exact .fresh hp trivial
    | turnedAway hn => cases hn
    | check => exact .fresh hp trivial
    | decline => exact .behind (.inl hp) rfl
    | _ => exact hq.elim
  | ahead hp hq =>
    cases hs with
    | stay => exact .ahead hp hq
    | pass hn => cases hn
    | turnedAway => exact .ahead hp (.inr rfl)
    | check => exact .ahead hp (.inl trivial)
    | decline =>
      have hans := hok rfl rfl rfl
      cases p with
      | confirmed => exact .undone rfl
      | listing => cases hans
      | confirming => cases hans
      | _ => exact hp.elim
    | _ => rcases hq with hq | hq <;> cases hq
  | behind hp hq =>
    cases hs with
    | stay => exact .behind hp hq
    | current => exact .behind hp hq
    | withdraw =>
      obtain rfl := hq
      exact .behind hp rfl
    | reread => exact .behind hp hq
    | grant =>
      obtain rfl := hq
      exact .behind hp ⟨rfl, rfl⟩
    | leave hn =>
      obtain rfl := hq
      exact absurd rfl hn
    | currentAgain => exact .behind hp hq
    | revert =>
      obtain ⟨rfl, rfl⟩ := hq
      exact .behind hp rfl
    | _ => exact hq.elim
  | undone hq =>
    cases hs with
    | stay => exact .undone hq
    | current => exact .undone hq
    | withdraw =>
      obtain rfl := hq
      exact .undone rfl
    | reread => exact .undone hq
    | grant =>
      obtain rfl := hq
      exact .undone ⟨rfl, rfl⟩
    | leave hn =>
      obtain rfl := hq
      exact absurd rfl hn
    | currentAgain => exact .undone hq
    | revert =>
      obtain ⟨rfl, rfl⟩ := hq
      exact .undone rfl
    | _ => exact hq.elim
  | overtaken hp hq =>
    cases hs with
    | stay => exact .overtaken hp hq
    | reread => exact .overtaken hp (.inr (.inl rfl))
    | grant hst => rcases hst with hst | hst <;> cases hst
    | leave => exact .overtaken hp (.inr (.inr (.inl rfl)))
    | _ => simp at hq

/-- Without the driver, the rejection has come past its first UPDATE. -/
theorem RejectPhase.Alone.late (h : q.Alone d σ s) (hd : s.driver = none) : q.Late := by
  obtain ⟨-, rfl⟩ | ⟨rfl | rfl | rfl | rfl, -⟩ | ⟨rfl, -⟩ := h.cases
  · cases hd
  · trivial
  · trivial
  · exact rfl
  · exact rfl
  · trivial

theorem RejectPhase.Alone.snapshot (h : q.Alone d σ s) (x : Option Id)
    (hx : q = .admitted x ∨ q = .ready x) : x = none := by
  rcases hx with rfl | rfl
  · exact h.1
  · exact h.1

/-- Where the confirmation's step does not meet its condition, agreement is lost. -/
theorem Sound.confirm_doomed (h : Sound d p q s) (hs : ConfirmStep d p s p' s')
    (hno : ¬ ConfirmOk p p' q s) : Doomed p' q s' := by
  by_cases hread : p = .checked → p' ≠ .checked → s.driver ≠ none
  · have hupdate : ¬ ((∃ x, p = .ready x) → p' = .listing → ¬ q.Holding) := fun hu => hno ⟨hread, hu⟩
    simp only [Classical.not_imp, not_not] at hupdate
    obtain ⟨⟨x, rfl⟩, rfl, hq⟩ := hupdate
    cases hs with
    | mark =>
      cases h with
      | fresh _ he => cases q <;> first | exact he.elim | exact hq.elim
      | behind _ ha => exact .pending trivial (by simp) hq ha.snapshot
      | ahead hp | overtaken hp => exact hp.elim
  · simp only [Classical.not_imp, not_not] at hread
    obtain ⟨rfl, hne, hd⟩ := hread
    have hlate : q.Late := by
      cases h with
      | fresh => cases hd
      | behind _ ha => exact ha.late hd
      | ahead hp | overtaken hp => exact hp.elim
    cases hs with
    | stay => exact absurd rfl hne
    | grant => exact .strayed hd (.inl (by rw [hd])) (by simp) hlate
    | leave => exact .strayed hd (.inr (.inr trivial)) (by simp) hlate

theorem Sound.reject_doomed (h : Sound d p q s) (hs : RejectStep d q s q' s')
    (hno : ¬ RejectOk q q' s) : Doomed p q' s' := by
  unfold RejectOk at hno
  simp only [Classical.not_imp] at hno
  obtain ⟨rfl, rfl, hst, hans⟩ := hno
  cases hs with
  | decline =>
    cases h with
    | fresh => cases hst
    | ahead hp =>
      refine .pending hp ?_ trivial (by simp)
      rintro rfl
      exact absurd rfl hans
    | behind _ ha => exact ha.elim
    | undone ha => exact ha.elim
    | overtaken _ hq => simp at hq

theorem Doomed.confirm (h : Doomed p q s) (hs : ConfirmStep d p s p' s') : Doomed p' q s' := by
  cases h with
  | strayed hd hp hans hq =>
    cases hs with
    | stay => exact .strayed hd hp hans hq
    | current =>
      obtain rfl : _ = none := by simpa [ConfirmPhase.After] using hp
      exact .strayed hd (.inr (.inl rfl)) (by simp) hq
    | mark =>
      obtain rfl : _ = none := by simpa [ConfirmPhase.After] using hp
      exact .strayed rfl (.inr (.inr trivial)) (by simp) hq
    | list => exact .strayed hd (.inr (.inr trivial)) (by simp) hq
    | confirm => exact .strayed hd (.inr (.inr trivial)) (fun _ => rfl) hq
    | _ => simp [ConfirmPhase.After] at hp
  | pending hp hans hq hx =>
    cases hs with
    | stay => exact .pending hp hans hq hx
    | list => exact .pending trivial (by simp) hq hx
    | confirm => exact .pending trivial (fun _ => rfl) hq hx
    | _ => exact hp.elim

theorem Doomed.reject (h : Doomed p q s) (hs : RejectStep d q s q' s') : Doomed p q' s' := by
  cases h with
  | strayed hd hp hans hq =>
    cases hs with
    | stay => exact .strayed hd hp hans hq
    | reread => exact .strayed hd hp hans trivial
    | grant => exact .strayed hd hp hans hd
    | leave => exact .strayed hd hp hans trivial
    | currentAgain => exact .strayed hd hp hans hq
    | revert => exact .strayed hq hp hans trivial
    | _ => exact hq.elim
  | pending hp hans hq hx =>
    cases hs with
    | stay => exact .pending hp hans hq hx
    | current => exact .pending hp hans trivial (by simp)
    | withdraw => exact .strayed rfl (.inr (.inr hp)) hans trivial
    | currentAgain =>
      obtain rfl := hx _ (.inl rfl)
      exact .pending hp hans trivial (by simp)
    | revert => exact .strayed (hx _ (.inr rfl)) (.inr (.inr hp)) hans trivial
    | _ => exact hq.elim

/-- A snapshot that a sound duel is about to write back has the driver. -/
theorem Sound.ready_before {x : Option Id} (h : Sound d (.ready x) q s) :
    (ConfirmPhase.ready x).Before d := by
  cases h with
  | fresh hp => exact hp
  | ahead hp | overtaken hp => exact hp.elim
  | behind hp =>
    rcases hp with hp | hp
    · exact hp
    · cases hp

/-- Where both parties have ended, a sound duel ends in agreement. -/
theorem Sound.agreed (h : Sound d p q s) (hp : p.Ended) (hq : q.Ended) : Agreed d s := by
  have hconfirmed (h : p.After) : p = .confirmed := by
    cases p with
    | confirmed => rfl
    | refused => exact h.elim
    | _ => exact hp.elim
  have hreverted {σ : ERideStatus} {s : Duel} (h : q.Alone d σ s) :
      s = ⟨none, .candidatesComputed, some .declined⟩ := by
    obtain ⟨rfl | rfl, -⟩ | ⟨rfl | rfl | rfl | rfl, -⟩ | ⟨-, hs⟩ := h.cases
    · exact hq.elim
    · exact hq.elim
    · exact hq.elim
    · exact hq.elim
    · exact hq.elim
    · exact hq.elim
    · exact hs
  cases h with
  | fresh hb he => cases q <;> first | exact he.elim | exact hq.elim
  | ahead ha =>
    rw [hconfirmed ha]
    exact .inl rfl
  | behind _ ha => exact .inr (hreverted ha)
  | undone ha => exact .inr (hreverted ha)
  | overtaken ha =>
    rw [hconfirmed ha]
    exact .inl rfl

theorem Doomed.not_agreed (h : Doomed p q s) (hp : p.Ended) (hq : q.Ended) : ¬ Agreed d s := by
  cases h with
  | strayed hd hpos hans =>
    obtain rfl : p = .confirmed := by
      cases p with
      | confirmed => rfl
      | refused => simp [ConfirmPhase.After] at hpos
      | _ => exact hp.elim
    have hconfirmed := hans rfl
    rintro (rfl | rfl)
    · cases hd
    · cases hconfirmed
  | pending _ _ hh => cases q <;> first | exact hh.elim | exact hq.elim

/-- Where one of the two parties is. -/
inductive Phase where
  | confirm (p : ConfirmPhase)
  | reject (q : RejectPhase)

namespace Phase

def Ended : Phase → Prop
  | confirm p => p.Ended
  | reject q => q.Ended

/-- What a party finds when it reads in its phase. -/
def Sees (d : Id) (s : Duel) : Phase → Prop
  | confirm .opening => s.driver = none ∨ s.driver = some d ∧ s.status = .accepted
  | reject .opening => s.driver = some d ∧ (s.status = .accepted ∨ s.status = .enroute)
  | reject .passed => s.answer = some .accepted ∨ s.answer = some .confirmed
  | _ => True

end Phase

theorem Sound.sees_confirm (h : Sound d p q s) : (Phase.confirm p).Sees d s := by
  cases p with
  | opening =>
    cases h with
    | fresh => exact .inr ⟨rfl, rfl⟩
    | ahead hp | overtaken hp => exact hp.elim
    | behind _ ha =>
      obtain ⟨-, rfl⟩ | ⟨-, rfl⟩ | ⟨-, rfl⟩ := ha.cases
      · exact .inr ⟨rfl, rfl⟩
      · exact .inl rfl
      · exact .inl rfl
  | _ => trivial

theorem Sound.sees_reject (h : Sound d p q s) : (Phase.reject q).Sees d s := by
  cases q with
  | opening =>
    cases h with
    | fresh => exact ⟨rfl, .inl rfl⟩
    | ahead => exact ⟨rfl, .inr rfl⟩
    | behind _ ha | undone ha => exact ha.elim
    | overtaken _ hq => simp at hq
  | passed =>
    cases h with
    | fresh => exact .inl rfl
    | ahead hp =>
      cases p with
      | confirmed => exact .inr rfl
      | listing | confirming => exact .inl rfl
      | _ => exact hp.elim
    | behind _ ha | undone ha => exact ha.elim
    | overtaken _ hq => simp at hq
  | _ => trivial

theorem Doomed.sees (h : Doomed p q s) :
    (Phase.confirm p).Sees d s ∧ (Phase.reject q).Sees d s := by
  cases h with
  | strayed _ hp _ hq =>
    refine ⟨?_, ?_⟩
    · cases p <;> first | trivial | simp [ConfirmPhase.After] at hp
    · cases q <;> trivial
  | pending hp _ hq =>
    refine ⟨?_, ?_⟩
    · cases p <;> trivial
    · cases q <;> trivial

end Duel

end NebLite
