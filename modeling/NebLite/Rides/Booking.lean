import NebLite.Rides.Entities

/-! The booking of a ride: its rider, its driver, its status and what each
candidate has answered. The operations say what each lifecycle call means for
the booking; their guards are those of the service. -/

namespace NebLite

structure Booking where
  rider : Id
  driver : Option Id
  status : ERideStatus
  cand : Id → Option ERideDriverCandidateStatus

namespace Booking

variable (b : Booking)

def answer (d : Id) (s : ERideDriverCandidateStatus) : Booking :=
  { b with cand := Function.update b.cand d (some s) }

/-- `transitionRideStatus`. -/
def transition (allowed : List ERideStatus) (next : ERideStatus) : Booking :=
  if b.status ∈ allowed then { b with status := next } else b

def claimedBy (d : Id) : Booking :=
  (({ b with driver := some d }.answer d .accepted).transition [.requested, .candidatesComputed]
    .assigned).transition [.assigned, .candidatesComputed] .accepted

def accept (d : Id) : Booking :=
  if b.status = .canceled ∨ b.status = .completed then b
  else if b.cand d ≠ some .invited ∧ b.cand d ≠ some .accepted then b
  else if b.cand d = some .accepted ∧ b.driver = some d ∧
      (b.status = .accepted ∨ b.status = .enroute) then b
  else if b.driver = none ∨ b.driver = some d then b.claimedBy d
  else b.answer d .canceled

def release : Booking :=
  { b with driver := none }.transition [.accepted, .assigned] .candidatesComputed

def driverReject (d : Id) : Booking :=
  if b.status = .canceled ∨ b.status = .completed ∨ b.status = .enroute then b
  else if b.cand d = none ∨ b.cand d = some .declined ∨ b.cand d = some .canceled then b
  else if b.driver = some d then (b.answer d .declined).release
  else b.answer d .declined

/-- The answer of candidate `x` once the rider has confirmed driver `d`. -/
def confirmedAnswer (d x : Id) : Option ERideDriverCandidateStatus :=
  if x = d then (b.cand x).map fun _ => .confirmed
  else if b.cand x = some .invited ∨ b.cand x = some .accepted then some .canceled
  else b.cand x

def confirm (rider : Id) : Booking :=
  match b.driver with
  | none => b
  | some d =>
    if b.rider ≠ rider ∨ b.status ∈ [ERideStatus.canceled, .completed, .assigned, .requested, .enroute]
    then b
    else if b.cand d ≠ some .accepted then b
    else { b.transition [.accepted] .enroute with cand := b.confirmedAnswer d }

def riderReject (rider : Id) : Booking :=
  match b.driver with
  | none => b
  | some d =>
    if b.rider ≠ rider ∨ b.status ∈ [ERideStatus.canceled, .completed, .enroute, .assigned, .requested]
    then b
    else if b.cand d = none then b
    else (b.answer d .canceled).release

def cancel (requester : Option Id) : Booking :=
  if some b.rider ≠ requester ∨ b.status = .completed ∨ b.status = .canceled then b
  else
    { b.transition [.requested, .candidatesComputed, .assigned, .accepted, .enroute] .canceled with
      cand := fun d => (b.cand d).map fun _ => .canceled }

/-- A start by driver `d`; `arrived` says whether the location checks pass. -/
def start (d : Option Id) (arrived : Bool) : Booking :=
  if arrived ∧ d.isSome ∧ b.driver = d then b.transition [.enroute, .tripStarted] .tripStarted else b

/-- A completion by driver `d`; `arrived` says whether the location and
discount checks pass. -/
def complete (d : Option Id) (arrived : Bool) : Booking :=
  if arrived ∧ d.isSome ∧ b.driver = d then
    b.transition [.enroute, .accepted, .assigned, .tripStarted] .completed
  else b

@[simp] theorem answer_rider (d s) : (b.answer d s).rider = b.rider := rfl

@[simp] theorem answer_driver (d s) : (b.answer d s).driver = b.driver := rfl

@[simp] theorem answer_status (d s) : (b.answer d s).status = b.status := rfl

@[simp] theorem answer_cand (d s) : (b.answer d s).cand = Function.update b.cand d (some s) := rfl

@[simp] theorem transition_rider (allowed next) : (b.transition allowed next).rider = b.rider := by
  unfold transition
  split <;> rfl

@[simp] theorem transition_driver (allowed next) : (b.transition allowed next).driver = b.driver := by
  unfold transition
  split <;> rfl

@[simp] theorem transition_cand (allowed next) : (b.transition allowed next).cand = b.cand := by
  unfold transition
  split <;> rfl

theorem transition_status (allowed next) :
    (b.transition allowed next).status = if b.status ∈ allowed then next else b.status := by
  unfold transition
  split <;> rfl

@[simp] theorem start_driver (d arrived) : (b.start d arrived).driver = b.driver := by
  unfold start
  split <;> simp

@[simp] theorem start_cand (d arrived) : (b.start d arrived).cand = b.cand := by
  unfold start
  split <;> simp

/-- The coupling of status, driver and answers that matching keeps at rest. -/
def Matched : Prop :=
  match b.status with
  | .candidatesComputed => b.driver = none ∧ ∀ d, b.cand d ≠ some .accepted ∧ b.cand d ≠ some .confirmed
  | .accepted => ∃ d, b.driver = some d ∧ b.cand d = some .accepted ∧
      ∀ x, x ≠ d → b.cand x ≠ some .accepted ∧ b.cand x ≠ some .confirmed
  | .enroute => ∃ d, b.driver = some d ∧ b.cand d = some .confirmed ∧
      ∀ x, x ≠ d → b.cand x ≠ some .invited ∧ b.cand x ≠ some .accepted ∧ b.cand x ≠ some .confirmed
  | .tripStarted => ∀ d, b.cand d ≠ some .invited ∧ b.cand d ≠ some .accepted
  | .completed => True
  | .canceled => ∀ d s, b.cand d = some s → s = .canceled
  | _ => False

/-- A new booking: invitations are out and nobody has answered. -/
def Opened : Prop :=
  b.status = .candidatesComputed ∧ b.driver = none ∧ ∀ d s, b.cand d = some s → s = .invited

/-- A started trip has a driver, whose answer is confirmed. -/
def Driven : Prop :=
  b.status = .tripStarted → ∃ d, b.driver = some d ∧ b.cand d = some .confirmed

/-- A started trip has a driver. -/
def Seated : Prop := b.status = .tripStarted → b.driver ≠ none

/-- A started trip without driver, in which nobody is left who can accept. -/
def Stranded : Prop :=
  b.status = .tripStarted ∧ b.driver = none ∧
    ∀ d, b.cand d ≠ some .invited ∧ b.cand d ≠ some .accepted

/-- Nothing is left to do. -/
def Terminal : Prop := b.status = .completed ∨ b.status = .canceled

variable {b}

theorem Opened.matched (h : b.Opened) : b.Matched := by
  obtain ⟨hst, hd, hc⟩ := h
  simp only [Matched, hst]
  refine ⟨hd, fun d => ⟨fun he => ?_, fun he => ?_⟩⟩ <;> cases hc d _ he

theorem answer_self {d : Id} {s} : (b.answer d s).cand d = some s := by simp

theorem answer_other {d x : Id} {s} (h : x ≠ d) : (b.answer d s).cand x = b.cand x := by simp [h]

theorem claimedBy_status (d : Id) : (b.claimedBy d).status =
    if b.status ∈ [ERideStatus.requested, .candidatesComputed, .assigned] then .accepted
    else b.status := by
  simp only [claimedBy, transition_status, answer_status]
  cases b.status <;> rfl

theorem claimedBy_driver (d : Id) : (b.claimedBy d).driver = some d := by simp [claimedBy]

theorem claimedBy_cand (d : Id) :
    (b.claimedBy d).cand = Function.update b.cand d (some .accepted) := by simp [claimedBy]

theorem Matched.answer (h : b.Matched) {d : Id} {s : ERideDriverCandidateStatus}
    (hs : s = .declined ∨ s = .canceled) (hd : b.driver ≠ some d ∨ b.status = .tripStarted)
    (hc : b.status = .canceled → s = .canceled) : (b.answer d s).Matched := by
  have hn : s ≠ .invited ∧ s ≠ .accepted ∧ s ≠ .confirmed := by rcases hs with rfl | rfl <;> simp
  have hx (x : Id) : (b.answer d s).cand x = some s ∨ (b.answer d s).cand x = b.cand x := by
    by_cases he : x = d
    · exact .inl (he ▸ answer_self)
    · exact .inr (answer_other he)
  unfold Matched at h ⊢
  rw [answer_status, answer_driver]
  cases hst : b.status with
  | candidatesComputed =>
    rw [hst] at h
    refine ⟨h.1, fun x => ?_⟩
    rcases hx x with he | he <;> rw [he]
    · simpa using hn.2
    · exact h.2 x
  | accepted =>
    rw [hst] at h
    obtain ⟨e, he, hce, ho⟩ := h
    have hne : e ≠ d := by
      rintro rfl
      simp [he, hst] at hd
    refine ⟨e, he, by rw [answer_other hne, hce], fun x hxe => ?_⟩
    rcases hx x with hy | hy <;> rw [hy]
    · simpa using hn.2
    · exact ho x hxe
  | enroute =>
    rw [hst] at h
    obtain ⟨e, he, hce, ho⟩ := h
    have hne : e ≠ d := by
      rintro rfl
      simp [he, hst] at hd
    refine ⟨e, he, by rw [answer_other hne, hce], fun x hxe => ?_⟩
    rcases hx x with hy | hy <;> rw [hy]
    · simpa using hn
    · exact ho x hxe
  | tripStarted =>
    rw [hst] at h
    intro x
    rcases hx x with hy | hy <;> rw [hy]
    · simpa using ⟨hn.1, hn.2.1⟩
    · exact h x
  | canceled =>
    rw [hst] at h
    intro x t ht
    rcases hx x with hy | hy <;> rw [hy] at ht
    · rw [← Option.some.inj ht, hc hst]
    · exact h x t ht
  | completed => trivial
  | nystart => simp [hst] at h
  | requested => simp [hst] at h
  | assigned => simp [hst] at h

/-- Only an unclaimed ride that still collects answers can be claimed. -/
theorem Matched.claimable (h : b.Matched) {d : Id} (hd : b.driver = none ∨ b.driver = some d)
    (hc : b.cand d = some .invited ∨ b.cand d = some .accepted)
    (hl : ¬ (b.status = .canceled ∨ b.status = .completed))
    (hf : ¬ (b.cand d = some .accepted ∧ b.driver = some d ∧
      (b.status = .accepted ∨ b.status = .enroute))) : b.status = .candidatesComputed := by
  unfold Matched at h
  cases hst : b.status with
  | candidatesComputed => rfl
  | accepted =>
    rw [hst] at h
    obtain ⟨e, he, hce, -⟩ := h
    rcases hd with hd | hd
    · simp [hd] at he
    · obtain rfl : d = e := by simpa [hd] using he
      exact absurd ⟨hce, hd, .inl hst⟩ hf
  | enroute =>
    rw [hst] at h
    obtain ⟨e, he, hce, -⟩ := h
    rcases hd with hd | hd
    · simp [hd] at he
    · obtain rfl : d = e := by simpa [hd] using he
      simp [hce] at hc
  | tripStarted =>
    rw [hst] at h
    rcases hc with hc | hc
    · exact absurd hc (h d).1
    · exact absurd hc (h d).2
  | completed => exact absurd (.inr hst) hl
  | canceled => exact absurd (.inl hst) hl
  | nystart => simp [hst] at h
  | requested => simp [hst] at h
  | assigned => simp [hst] at h

theorem Matched.claimedBy (h : b.Matched) (hst : b.status = .candidatesComputed) (d : Id) :
    (b.claimedBy d).Matched := by
  simp only [Matched, hst] at h
  simp only [Matched, claimedBy_status, claimedBy_driver, claimedBy_cand, hst]
  refine ⟨d, rfl, by simp, fun x hx => ?_⟩
  simpa [hx] using h.2 x

theorem Matched.accept (h : b.Matched) (d : Id) : (b.accept d).Matched := by
  unfold Booking.accept
  split_ifs with h1 h2 h3 h4
  · exact h
  · exact h
  · exact h
  · have hc : b.cand d = some .invited ∨ b.cand d = some .accepted := by tauto
    exact h.claimedBy (h.claimable h4 hc h1 h3) d
  · exact h.answer (.inr rfl) (.inl fun he => h4 (.inr he)) fun _ => rfl

theorem release_cand : b.release.cand = b.cand := by simp [release]

theorem release_driver : b.release.driver = none := by simp [release]

theorem release_status : b.release.status =
    if b.status = .accepted ∨ b.status = .assigned then .candidatesComputed else b.status := by
  simp [release, transition_status]

/-- The assigned driver's answer is withdrawn and the ride has no driver again. -/
theorem Matched.release (h : b.Matched) {d : Id} {s : ERideDriverCandidateStatus}
    (hd : b.driver = some d) (hs : s = .declined ∨ s = .canceled)
    (hl : b.status ≠ .canceled ∧ b.status ≠ .completed ∧ b.status ≠ .enroute) :
    (b.answer d s).release.Matched := by
  unfold Matched at h ⊢
  rw [release_status, release_driver, release_cand, answer_status, answer_cand]
  cases hst : b.status with
  | candidatesComputed => simp [hst, hd] at h
  | accepted =>
    rw [hst] at h
    obtain ⟨e, he, -, ho⟩ := h
    obtain rfl : d = e := by simpa [hd] using he
    refine ⟨rfl, fun x => ?_⟩
    by_cases hx : x = d
    · subst hx
      rcases hs with rfl | rfl <;> simp
    · simpa [hx] using ho x hx
  | tripStarted =>
    rw [hst] at h
    intro x
    by_cases hx : x = d
    · subst hx
      rcases hs with rfl | rfl <;> simp
    · simpa [hx] using h x
  | enroute => exact absurd hst hl.2.2
  | completed => exact absurd hst hl.2.1
  | canceled => exact absurd hst hl.1
  | nystart => simp [hst] at h
  | requested => simp [hst] at h
  | assigned => simp [hst] at h

theorem Matched.driverReject (h : b.Matched) (d : Id) : (b.driverReject d).Matched := by
  unfold Booking.driverReject
  split_ifs with h1 h2 h3
  · exact h
  · exact h
  · exact h.release h3 (.inl rfl) (by tauto)
  · exact h.answer (.inl rfl) (.inl h3) fun hc => absurd (.inl hc) h1

theorem Matched.riderReject (h : b.Matched) (rider : Id) : (b.riderReject rider).Matched := by
  unfold Booking.riderReject
  split
  · exact h
  · next d hd =>
    split_ifs with h1 h2
    · exact h
    · exact h
    · refine h.release hd (.inr rfl) ⟨fun he => h1 ?_, fun he => h1 ?_, fun he => h1 ?_⟩ <;> simp [he]

theorem Matched.confirm (h : b.Matched) (rider : Id) : (b.confirm rider).Matched := by
  unfold Booking.confirm
  split
  · exact h
  · next d hd =>
    split_ifs with h1 h2
    · exact h
    · exact h
    · have hca : b.cand d = some .accepted := by simpa using h2
      unfold Matched at h ⊢
      cases hst : b.status with
      | accepted =>
        simp only [hst, transition_status, transition_driver, List.mem_singleton, if_pos] at h ⊢
        refine ⟨d, hd, by simp [confirmedAnswer, hca], fun x hx => ?_⟩
        unfold confirmedAnswer
        rw [if_neg hx]
        obtain ⟨e, he, -, ho⟩ := h
        obtain rfl : d = e := by simpa [hd] using he
        split_ifs with h3
        · simp
        · exact ⟨fun hi => h3 (.inl hi), ho x hx⟩
      | candidatesComputed => simp [hst, hd] at h
      | tripStarted =>
        simp only [hst] at h
        exact absurd hca (h d).2
      | enroute => simp [hst] at h1
      | completed => simp [hst] at h1
      | canceled => simp [hst] at h1
      | nystart => simp [hst] at h
      | requested => simp [hst] at h
      | assigned => simp [hst] at h

theorem Matched.cancel (h : b.Matched) (requester : Option Id) : (b.cancel requester).Matched := by
  unfold Booking.cancel
  split_ifs with h1
  · exact h
  · unfold Matched at h ⊢
    simp only [transition_status, transition_driver]
    have hall (d : Id) (s) (hs : (b.cand d).map (fun _ => ERideDriverCandidateStatus.canceled) = some s) :
        s = .canceled := by
      obtain ⟨_, _, rfl⟩ := Option.map_eq_some_iff.mp hs
      rfl
    cases hst : b.status <;> simp only [hst] at h h1 ⊢
    case candidatesComputed => exact hall
    case accepted => exact hall
    case enroute => exact hall
    case tripStarted =>
      intro d
      constructor <;> intro hd <;> simpa using hall d _ hd
    case completed => trivial
    case canceled => simp at h1

theorem Matched.start (h : b.Matched) (d : Option Id) (arrived : Bool) :
    (b.start d arrived).Matched := by
  unfold Booking.start
  split_ifs with h1
  · unfold Matched at h ⊢
    simp only [transition_status, transition_driver, transition_cand]
    cases hst : b.status <;> simp only [hst] at h ⊢
    case candidatesComputed => exact h
    case accepted => exact h
    case enroute =>
      obtain ⟨e, -, hce, ho⟩ := h
      intro x
      by_cases hx : x = e
      · subst hx
        simp [hce]
      · exact ⟨(ho x hx).1, (ho x hx).2.1⟩
    case tripStarted => exact h
    case completed => trivial
    case canceled => exact h
  · exact h

theorem Matched.complete (h : b.Matched) (d : Option Id) (arrived : Bool) :
    (b.complete d arrived).Matched := by
  unfold Booking.complete
  split_ifs with h1
  · unfold Matched at h ⊢
    simp only [transition_status, transition_driver, transition_cand]
    cases hst : b.status <;> simp only [hst] at h ⊢
    case candidatesComputed => exact h
    case accepted => trivial
    case enroute => trivial
    case tripStarted => trivial
    case completed => trivial
    case canceled => exact h
  · exact h

section Started

/-! A trip is started by `start` only, and only from a confirmed ride. -/

theorem transition_started {allowed next} (hn : next ≠ .tripStarted)
    (h : (b.transition allowed next).status = .tripStarted) : b.status = .tripStarted := by
  rw [transition_status] at h
  split_ifs at h
  · exact absurd h hn
  · exact h

theorem started_of_accept {d : Id} (h : (b.accept d).status = .tripStarted) :
    b.status = .tripStarted := by
  unfold Booking.accept at h
  split_ifs at h
  · exact h
  · exact h
  · exact h
  · rw [claimedBy_status] at h
    split_ifs at h
    exact h
  · exact h

theorem started_of_driverReject {d : Id} (h : (b.driverReject d).status = .tripStarted) :
    b.status = .tripStarted := by
  unfold Booking.driverReject at h
  split_ifs at h
  · exact h
  · exact h
  · rw [release_status] at h
    split_ifs at h
    exact h
  · exact h

theorem started_of_confirm {rider : Id} (h : (b.confirm rider).status = .tripStarted) :
    b.status = .tripStarted := by
  unfold Booking.confirm at h
  split at h
  · exact h
  · split_ifs at h
    · exact h
    · exact h
    · exact transition_started (by simp) h

theorem started_of_riderReject {rider : Id} (h : (b.riderReject rider).status = .tripStarted) :
    b.status = .tripStarted := by
  unfold Booking.riderReject at h
  split at h
  · exact h
  · split_ifs at h
    · exact h
    · exact h
    · rw [release_status] at h
      split_ifs at h
      exact h

theorem started_of_cancel {requester : Option Id}
    (h : (b.cancel requester).status = .tripStarted) : b.status = .tripStarted := by
  unfold Booking.cancel at h
  split_ifs at h
  · exact h
  · exact transition_started (by simp) h

theorem started_of_complete {d : Option Id} {arrived : Bool}
    (h : (b.complete d arrived).status = .tripStarted) : b.status = .tripStarted := by
  unfold Booking.complete at h
  split_ifs at h
  · exact transition_started (by simp) h
  · exact h

theorem started_of_start {d : Option Id} {arrived : Bool}
    (h : (b.start d arrived).status = .tripStarted) :
    b.status = .tripStarted ∨ b.status = .enroute := by
  unfold Booking.start at h
  split_ifs at h
  · rw [transition_status] at h
    split_ifs at h with h1
    · simpa [or_comm] using h1
    · exact .inl h
  · exact .inl h

variable (hm : b.Matched) (hst : b.status = .tripStarted)

include hm hst

theorem accept_started (d : Id) : b.accept d = b := by
  simp only [Matched, hst] at hm
  simp [Booking.accept, hm d]

theorem confirm_started (rider : Id) : b.confirm rider = b := by
  simp only [Matched, hst] at hm
  unfold Booking.confirm
  split
  · rfl
  · next d _ => simp [hm d]

omit hm

theorem release_started : b.release = { b with driver := none } := by
  simp [Booking.release, transition, hst]

theorem start_started (d : Option Id) (arrived : Bool) : b.start d arrived = b := by
  obtain ⟨rider, driver, status, cand⟩ := b
  obtain rfl : status = .tripStarted := hst
  unfold Booking.start transition
  split_ifs <;> rfl

end Started

end Booking

end NebLite
