import NebLite.Rides.Settlement
import NebLite.Rides.Absorption

/-! Which runs of a completion beside a cancellation leave the ride wholly
completed or wholly canceled. -/

namespace NebLite

open Atomic

/-- The driver completes the ride (`true`), the rider cancels it (`false`). -/
def completeAndCancel (rid : Id) (driver rider : RequestingClient) (location : ParticipantLocation)
    (discountAmount : Option JsNumber) (reason : Option String) (now : Time) (b : Bool) : LifecycleOp :=
  if b then .completeRide rid driver location discountAmount else .cancelRide rid rider reason now

abbrev RidePool (ι : Type) := Pool ι Call Call.Answer ServiceError Unit World

/-- Status COMPLETED with the fare of `r`, payment pending, no cancel reason and no
candidate changed; or status CANCELED, nothing to pay and every candidate canceled. -/
def WhollyEnded (env : Environment) (discountAmount : Option JsNumber) (w : World) (r : Ride)
    (w' : World) : Prop :=
  ∃ x, w'.rides.find r.id = some x ∧
    (x.status = .completed ∧ Ride.Billed env discountAmount r x ∧ x.cancelReason = none ∧
        w'.candidates = w.candidates ∨
      x.status = .canceled ∧ x.fareFinal = some 0 ∧ x.paymentStatus = none ∧
        ∀ c ∈ w'.findCandidates r.id, c.status = .canceled)

/-- The statuses that process `i` has read of its ride, newest first. -/
def readsOf {ι : Type} [DecidableEq ι] (c : RidePool ι) (i : ι) : List ERideStatus :=
  (ReadLog.ofTrace i c.trace).reads

def Call.isUpdate : Call → Bool
  | .updateRideRow _ => true
  | _ => false

/-- The number of UPDATEs of the ride that process `i` has executed. -/
def updatesOf {ι : Type} [DecidableEq ι] (c : RidePool ι) (i : ι) : ℕ :=
  c.trace.countP fun e => decide (e.1 = i) && e.2.1.isUpdate

/-- The cancellation does not meet the completion in a step: it is refused at a
completed ride only without a cancel reason, its transition does not read the ride
completed, what it reads back after its transition is canceled and unpaid, and the
completion writes nothing after the cancellation's last UPDATE. -/
def EndsAlone (rid : Id) (c : RidePool Bool) (i : Bool) : Prop :=
  match (c.procs i).pending, c.store.rides.find rid with
  | some (.findRide _), some r => i = false →
      ((readsOf c false).length = 0 → r.status = .completed → r.cancelReason = none) ∧
      ((readsOf c false).length = 1 → r.status ≠ .completed) ∧
      ((readsOf c false).length = 3 → r.status = .canceled ∧ r.paymentStatus = none)
  | some (.updateRideRow _), some _ => i = true → updatesOf c false ≠ 2
  | _, _ => True

instance (rid : Id) (c : RidePool Bool) (i : Bool) : Decidable (EndsAlone rid c i) := by
  unfold EndsAlone
  induction (c.procs i).pending using Option.casesOn with
  | none => infer_instance
  | some op =>
    induction c.store.rides.find rid using Option.casesOn <;> induction op using Call.casesOn <;>
      infer_instance

/-- Neither operation has failed, but for meeting a ride that the other has ended. -/
def OtherwiseValid (c : RidePool Bool) : Prop :=
  ∀ i e, (c.procs i).outcome = some (.error e) →
    (readsOf c i).getLast? = some (if i then .canceled else .completed)

instance (c : RidePool Bool) : Decidable (OtherwiseValid c) :=
  decidable_of_iff (∀ i, ((c.procs i).outcome.all fun a => a.isOk) = true ∨
      (readsOf c i).getLast? = some (if i then .canceled else .completed)) <| by
    refine forall_congr' fun i => ⟨?_, ?_⟩
    · rintro (hok | hlast) e he
      · rw [he] at hok
        cases hok
      · exact hlast
    · intro h
      cases hi : (c.procs i).outcome with
      | none => exact .inl rfl
      | some a =>
        cases a with
        | ok u => exact .inl rfl
        | error e => exact .inr (h e hi)

def settler (env : Environment) (discountAmount : Option JsNumber) (b : Bool) : Settler :=
  if b then completes env discountAmount else cancels

/-- The completion's phase against the row `r`, while the cancellation has written nothing. -/
def CompleteAlone (env : Environment) (discountAmount : Option JsNumber) (r₀ r : Ride) :
    SettlePhase → Prop
  | .opening => r = r₀
  | .running o => o = r₀ ∧ r = r₀
  | .admitted o x | .ready o x => o = r₀ ∧ x = r₀ ∧ r = r₀
  | .transitioned o => o = r₀ ∧ r.status = .completed ∧ r.cancelReason = r₀.cancelReason
  | .holding o u => o = r₀ ∧ (u.status = .completed ∧ u.cancelReason = r₀.cancelReason) ∧
      r.status = .completed ∧ r.cancelReason = r₀.cancelReason
  | .settled => (r.status = .completed ∧ r.cancelReason = r₀.cancelReason) ∧
      Ride.Billed env discountAmount r₀ r
  | .refused | .saving _ => False

namespace SettlePhase

/-- Phases before the first UPDATE. -/
def Unwritten : SettlePhase → Prop
  | opening | refused | running _ | admitted _ _ | ready _ _ => True
  | _ => False

/-- Phases after the first UPDATE of a transition. -/
def Marked : SettlePhase → Prop
  | transitioned _ | holding _ _ | settled => True
  | _ => False

/-- What a phase says of the reads and the UPDATEs of its process. -/
def Logged (refusedBy : ERideStatus) (reads : List ERideStatus) (updates : ℕ) : SettlePhase → Prop
  | opening => reads = [] ∧ updates = 0
  | refused => reads = [refusedBy] ∧ updates = 0
  | running o => reads = [o.status] ∧ o.status ≠ refusedBy ∧ updates = 0
  | admitted _ _ => reads.length = 2 ∧ reads.getLast? ≠ some refusedBy ∧ updates = 0
  | ready _ _ => reads.length = 3 ∧ reads.getLast? ≠ some refusedBy ∧ updates = 0
  | transitioned _ => reads.length = 3 ∧ reads.getLast? ≠ some refusedBy ∧ updates = 1
  | holding _ _ => 2 ≤ reads.length ∧ reads.getLast? ≠ some refusedBy ∧ updates ≤ 1
  | settled | saving _ => 2 ≤ reads.length ∧ reads.getLast? ≠ some refusedBy ∧ updates ≤ 2

end SettlePhase

section Moves

variable {env : Environment} {discountAmount : Option JsNumber} {s : Settler} {rid : Id} {w : World}
  {l l' : SettlePhase} {op : Call} {r₀ r : Ride}

theorem Call.Apart.onRide (h : op.Apart) (r : Ride) : op.onRide r = r := by
  cases op <;> first | rfl | exact h.elim

theorem Call.Apart.isUpdate (h : op.Apart) : op.isUpdate = false := by
  cases op <;> first | rfl | exact h.elim

/-- The row after a move. -/
theorem SettleMove.row (h : SettleMove s rid w l op l') (env : Environment) (hr : w.rides.find rid = some r) :
    ∃ r', (handle env op w).2.rides.find rid = some r' ∧
      (op.isUpdate = false ∧ r' = r ∨ ∃ m, op = .updateRideRow m ∧ r' = r.writeColumns m) := by
  have hid : r.id = rid := Table.key_of_find hr
  have hfind : (handle env op w).2.rides.find rid = some (op.onRide r) := by
    rw [← hid] at hr ⊢
    exact find_handle env op hr
  refine ⟨op.onRide r, hfind, ?_⟩
  cases h with
  | apart ha => exact .inl ⟨ha.isUpdate, ha.onRide r⟩
  | mark hm => exact .inr ⟨_, rfl, if_pos (hm.trans hid.symm)⟩
  | write hm => exact .inr ⟨_, rfl, if_pos (hm.trans hid.symm)⟩
  | _ => exact .inl ⟨rfl, rfl⟩

/-- The completion goes on alone as long as it is the only one that writes. -/
theorem CompleteAlone.move (h : SettleMove (completes env discountAmount) rid w l op l')
    (hs : r₀.status = .enroute ∨ r₀.status = .accepted) (hr : w.rides.find rid = some r)
    (ha : CompleteAlone env discountAmount r₀ r l) {r' : Ride}
    (hr' : (handle env op w).2.rides.find rid = some r') : CompleteAlone env discountAmount r₀ r' l' := by
  obtain ⟨x, hx, hrow⟩ := h.row env hr
  obtain rfl := Option.some.inj (hx.symm.trans hr')
  have hsame (y : Ride) (hy : w.rides.find rid = some y) : y = r := Option.some.inj (hy.symm.trans hr)
  cases h with
  | apart hq =>
    rcases hrow with ⟨-, rfl⟩ | ⟨m, rfl, -⟩
    · exact ha
    · exact hq.elim
  | mark hid hm hreason =>
    obtain ⟨rfl, rfl, rfl⟩ := ha
    rcases hrow with ⟨hn, -⟩ | ⟨m, he, rfl⟩
    · cases hn
    · cases he
      exact ⟨rfl, hm, hreason (by simp [completes])⟩
  | write hid hback =>
    obtain ⟨rfl, ⟨hu, hur⟩, -⟩ := ha
    rcases hrow with ⟨hn, -⟩ | ⟨m, he, rfl⟩
    · cases hn
    · cases he
      exact ⟨⟨hback.1.trans hu, hback.2.1.trans hur⟩, hback.2.2⟩
  | refuse hy hc =>
    have hopen : r = r₀ := ha
    rw [hsame _ hy, hopen] at hc
    rcases hs with hs | hs <;> simp [completes, hs] at hc
  | begin hy =>
    rcases hrow with ⟨-, rfl⟩ | ⟨m, he, -⟩
    · exact ⟨(hsame _ hy).trans ha, ha⟩
    · cases he
  | grant hy =>
    rcases hrow with ⟨-, rfl⟩ | ⟨m, he, -⟩
    · exact ⟨ha.1, (hsame _ hy).trans ha.2, ha.2⟩
    · cases he
  | leave hy hn =>
    rw [hsame _ hy, ha.2] at hn
    rcases hs with hs | hs <;> simp [completes, hs] at hn
  | reread hy =>
    rcases hrow with ⟨-, rfl⟩ | ⟨m, he, -⟩
    · rw [hsame _ hy]
      exact ⟨ha.1, ha.2, ha.2⟩
    · cases he
  | current | recheck | look =>
    rcases hrow with ⟨-, rfl⟩ | ⟨m, he, -⟩
    · exact ha
    · cases he
  | list hn => simp [completes] at hn
  | lookAgain => exact ha.elim
  | save => exact ha.elim

/-- While the completion is alone, the ride is as it was or completed. -/
theorem CompleteAlone.status (ha : CompleteAlone env discountAmount r₀ r l) :
    r.cancelReason = r₀.cancelReason ∧ (r = r₀ ∨ r.status = .completed ∧ l.Marked) := by
  cases l with
  | opening =>
    have he : r = r₀ := ha
    exact ⟨by rw [he], .inl he⟩
  | running => exact ⟨by rw [ha.2], .inl ha.2⟩
  | admitted => exact ⟨by rw [ha.2.2], .inl ha.2.2⟩
  | ready => exact ⟨by rw [ha.2.2], .inl ha.2.2⟩
  | transitioned => exact ⟨ha.2.2, .inr ⟨ha.2.1, trivial⟩⟩
  | holding => exact ⟨ha.2.2.2, .inr ⟨ha.2.2.1, trivial⟩⟩
  | settled => exact ⟨ha.1.2, .inr ⟨ha.1.1, trivial⟩⟩
  | refused => exact ha.elim
  | saving => exact ha.elim

theorem getLast?_cons_longer {α : Type} {xs : List α} (x : α) (h : 0 < xs.length) :
    (x :: xs).getLast? = xs.getLast? := by
  cases xs with
  | nil => simp at h
  | cons y ys => simp

/-- The log after a move. -/
theorem SettleMove.logged (env : Environment) {log : ReadLog} {n : ℕ} (h : SettleMove s rid w l op l')
    (hr : w.rides.find rid = some r) (hl : l.Logged s.refusedBy log.reads n) :
    l'.Logged s.refusedBy (log.after ⟨op, (handle env op w).1⟩).reads
      (n + if op.isUpdate then 1 else 0) := by
  have hread : (log.after ⟨.findRide rid, (handle env (.findRide rid) w).1⟩).reads =
      r.status :: log.reads := by
    simp [handle, hr, ReadLog.after]
  have hsame (y : Ride) (hy : w.rides.find rid = some y) : y = r := Option.some.inj (hy.symm.trans hr)
  have hnot : (Call.findRide rid).isUpdate = false := rfl
  cases h with
  | apart ha =>
    rw [after_quiet ha.quiet, ha.isUpdate]
    exact hl
  | refuse hy hc =>
    obtain ⟨h1, h2⟩ := hl
    rw [hread, hnot, h1, ← hc, hsame _ hy]
    exact ⟨rfl, h2⟩
  | begin hy hc =>
    obtain ⟨h1, h2⟩ := hl
    rw [hread, hnot, h1]
    exact ⟨by rw [hsame _ hy], hc, h2⟩
  | grant =>
    obtain ⟨h1, h2, h3⟩ := hl
    rw [hread, hnot, h1]
    exact ⟨rfl, by simpa using h2, h3⟩
  | leave =>
    obtain ⟨h1, h2, h3⟩ := hl
    rw [hread, hnot, h1]
    exact ⟨le_rfl, by simpa using h2, by simp [h3]⟩
  | current =>
    obtain ⟨h1, h2, h3⟩ := hl
    rw [hread, hnot]
    exact ⟨by rw [List.length_cons, h1], by rwa [getLast?_cons_longer _ (by omega)], h3⟩
  | mark =>
    obtain ⟨h1, h2, h3⟩ := hl
    exact ⟨h1, h2, by rw [h3]; rfl⟩
  | reread =>
    obtain ⟨h1, h2, h3⟩ := hl
    rw [hread, hnot]
    exact ⟨by rw [List.length_cons, h1]; omega, by rwa [getLast?_cons_longer _ (by omega)], by simp [h3]⟩
  | write =>
    obtain ⟨h1, h2, h3⟩ := hl
    exact ⟨h1, h2, Nat.succ_le_succ h3⟩
  | recheck | look | lookAgain =>
    obtain ⟨h1, h2, h3⟩ := hl
    rw [hread, hnot]
    exact ⟨by rw [List.length_cons]; omega, by rwa [getLast?_cons_longer _ (by omega)], h3⟩
  | list => exact hl
  | save => exact hl

/-- Only a cancellation's saves change the candidates. -/
theorem SettleMove.candidates (env : Environment) (h : SettleMove s rid w l op l')
    (hl : ∀ rest, l ≠ .saving rest) : (handle env op w).2.candidates = w.candidates := by
  cases h with
  | apart ha => exact (ha.tables env w).2
  | lookAgain => exact absurd rfl (hl _)
  | save => exact absurd rfl (hl _)
  | mark | write =>
    simp only [handle, World.updateRideRow]
    split <;> rfl
  | _ => rfl

/-- Which rows a cancellation has still to save. -/
def World.LeftToCancel (w : World) (rid : Id) (rest : List RideDriverCandidate) : Prop :=
  (∀ y ∈ rest, y.status = .canceled) ∧
    ∀ x ∈ w.candidates.rows, x.rideId = rid → x.status = .canceled ∨ ∃ y ∈ rest, y.id = x.id

theorem World.LeftToCancel.save {c : RideDriverCandidate} {rest : List RideDriverCandidate}
    (h : w.LeftToCancel rid (c :: rest)) : (w.saveCandidate c).LeftToCancel rid rest := by
  obtain ⟨hc, hrows⟩ := h
  refine ⟨fun y hy => hc y (List.mem_cons_of_mem c hy), fun x hx hr => ?_⟩
  have hrest {x : RideDriverCandidate} (hx : x ∈ w.candidates.rows) (hr : x.rideId = rid)
      (hne : x.id ≠ c.id) : x.status = .canceled ∨ ∃ y ∈ rest, y.id = x.id := by
    rcases hrows x hx hr with hs | ⟨y, hy, hyx⟩
    · exact .inl hs
    · rcases List.mem_cons.mp hy with rfl | hy
      · exact absurd hyx.symm hne
      · exact .inr ⟨y, hy, hyx⟩
  unfold World.saveCandidate at hx
  cases hf : w.candidates.find c.id with
  | none =>
    rw [hf] at hx
    exact hrest hx hr fun he => Table.find_none.mp hf x hx he
  | some stored =>
    rw [hf] at hx
    have hid : stored.id = c.id := Table.key_of_find hf
    rcases Table.mem_put.mp hx with ⟨rfl, -⟩ | ⟨hx, hne⟩
    · exact .inl (hc c List.mem_cons_self)
    · exact hrest hx hr fun he => hne (he.trans hid.symm)

end Moves

section Run

variable {env : Environment} {discountAmount : Option JsNumber} {rid : Id} {r₀ r : Ride} {w₀ : World}
  {phase : Bool → SettlePhase} {c : RidePool Bool} {i : Bool} {op : Call}
  {next : Except ServiceError op.Answer → Service Unit} {l : SettlePhase}

theorem reads_step (hi : c.procs i = .call op next) (j : Bool) :
    readsOf (c.step (handle env) i) j = if j = i then
      ((ReadLog.ofTrace i c.trace).after ⟨op, (handle env op c.store).1⟩).reads else readsOf c j := by
  rw [Pool.step_call _ hi]
  by_cases hj : j = i
  · subst hj
    simp [readsOf, ReadLog.ofTrace]
  · simp [readsOf, ReadLog.ofTrace, hj, Ne.symm hj]

theorem updates_step (hi : c.procs i = .call op next) (j : Bool) :
    updatesOf (c.step (handle env) i) j = updatesOf c j + if i = j ∧ op.isUpdate then 1 else 0 := by
  rw [Pool.step_call _ hi]
  simp [updatesOf, List.countP_cons]

/-- What holds of a completion beside a cancellation of the ride `r₀`. -/
structure SettleHolds (env : Environment) (discountAmount : Option JsNumber) (rid : Id) (r₀ : Ride)
    (w₀ : World) (phase : Bool → SettlePhase) (c : RidePool Bool) : Prop where
  found : ∃ r, c.store.rides.find rid = some r
  alone : ∀ r, c.store.rides.find rid = some r → (phase false).Unwritten →
    CompleteAlone env discountAmount r₀ r (phase true)
  refused : phase false = .refused → (phase true).Marked
  begun : ∀ o, phase false = .running o → o.status ≠ .canceled
  unsaved : (∀ rest, phase false ≠ .saving rest) → c.store.candidates = w₀.candidates
  saving : ∀ rest, phase false = .saving rest → c.store.LeftToCancel rid rest
  never : ∀ rest, phase true ≠ .saving rest
  logged : ∀ j, (phase j).Logged (settler env discountAmount j).refusedBy (readsOf c j) (updatesOf c j)

theorem SettleHolds.logged_step (h : SettleHolds env discountAmount rid r₀ w₀ phase c)
    (hi : c.procs i = .call op next)
    (hm : SettleMove (settler env discountAmount i) rid c.store (phase i) op l) (j : Bool) :
    (Function.update phase i l j).Logged (settler env discountAmount j).refusedBy
      (readsOf (c.step (handle env) i) j) (updatesOf (c.step (handle env) i) j) := by
  obtain ⟨r, hr⟩ := h.found
  rw [reads_step hi, updates_step hi]
  by_cases hj : j = i
  · subst hj
    simpa using hm.logged env hr (h.logged j)
  · simpa [hj, Ne.symm hj] using h.logged j

theorem SettleMove.marked {s : Settler} {w : World} {l l' : SettlePhase} (h : SettleMove s rid w l op l')
    (hl : l.Marked) (hs : s.next ≠ .canceled) : l'.Marked := by
  cases h with
  | list hn => exact absurd hn hs
  | apart => exact hl
  | reread | recheck | write | look => trivial
  | _ => exact hl.elim

theorem SettleMove.not_saving {s : Settler} {w : World} {l l' : SettlePhase}
    (h : SettleMove s rid w l op l') (hs : s.next ≠ .canceled) (hl : ∀ rest, l ≠ .saving rest)
    (rest : List RideDriverCandidate) : l' ≠ .saving rest := by
  cases h with
  | apart => exact hl rest
  | list hn => exact absurd hn hs
  | lookAgain => exact hl rest
  | save => exact absurd rfl (hl _)
  | _ => simp

theorem SettleMove.unwritten {s : Settler} {w : World} {l l' : SettlePhase}
    (h : SettleMove s rid w l op l') (hl : l'.Unwritten) : l.Unwritten ∧ op.isUpdate = false := by
  cases h with
  | apart ha => exact ⟨hl, ha.isUpdate⟩
  | refuse | begin | grant | current => exact ⟨trivial, rfl⟩
  | _ => exact hl.elim

theorem SettleMove.refused_cases {s : Settler} {w : World} {l : SettlePhase}
    (h : SettleMove s rid w l op .refused) :
    l = .refused ∨ l = .opening ∧ ∃ r, w.rides.find rid = some r ∧ r.status = s.refusedBy := by
  cases h with
  | apart => exact .inl rfl
  | refuse hr hc => exact .inr ⟨rfl, _, hr, hc⟩

theorem SettleMove.running_cases {s : Settler} {w : World} {l : SettlePhase} {o : Ride}
    (h : SettleMove s rid w l op (.running o)) :
    l = .running o ∨ l = .opening ∧ w.rides.find rid = some o := by
  cases h with
  | apart => exact .inl rfl
  | begin hr => exact .inr ⟨rfl, hr⟩

theorem SettleMove.saving_stays {s : Settler} {w : World} {l l' : SettlePhase}
    (h : SettleMove s rid w l op l') (hl : ∀ rest, l' ≠ .saving rest) :
    ∀ rest, l ≠ .saving rest := by
  cases h with
  | apart => exact hl
  | lookAgain => exact absurd rfl (hl _)
  | save => exact absurd rfl (hl _)
  | _ => simp

theorem SettleMove.left {s : Settler} {w : World} {l : SettlePhase} {rest : List RideDriverCandidate}
    (h : SettleMove s rid w l op (.saving rest)) (hl : ∀ rest, l = .saving rest → w.LeftToCancel rid rest) :
    (handle env op w).2.LeftToCancel rid rest := by
  cases h with
  | apart ha =>
    have hleft := hl rest rfl
    have hcand := (ha.tables env w).2
    exact ⟨hleft.1, by rw [hcand]; exact hleft.2⟩
  | lookAgain => exact hl rest rfl
  | list _ hcover hcanceled => exact ⟨hcanceled, hcover⟩
  | save => exact (hl _ rfl).save

/-- The completion takes a step. -/
theorem SettleHolds.complete_step (h : SettleHolds env discountAmount rid r₀ w₀ phase c)
    (hs : r₀.status = .enroute ∨ r₀.status = .accepted) (hi : c.procs true = .call op next)
    (hm : SettleMove (completes env discountAmount) rid c.store (phase true) op l) :
    SettleHolds env discountAmount rid r₀ w₀ (Function.update phase true l)
      (c.step (handle env) true) := by
  obtain ⟨r, hr⟩ := h.found
  obtain ⟨r', hr', -⟩ := hm.row env hr
  have hstore : (c.step (handle env) true).store = (handle env op c.store).2 := by
    rw [Pool.step_call _ hi]
  have hcand := hm.candidates env h.never
  refine ⟨⟨r', hstore ▸ hr'⟩, ?_, ?_, ?_, ?_, ?_, ?_, h.logged_step hi hm⟩
  · intro x hx hun
    rw [hstore] at hx
    simp only [Function.update_self]
    exact (h.alone r hr (by simpa using hun)).move hm hs hr hx
  · intro hf
    simp only [Function.update_self]
    exact hm.marked (h.refused (by simpa using hf)) (by simp [completes])
  · intro o ho
    exact h.begun o (by simpa using ho)
  · intro hn
    rw [hstore, hcand]
    exact h.unsaved (by simpa using hn)
  · intro rest hrest
    have hleft := h.saving rest (by simpa using hrest)
    rw [hstore]
    exact ⟨hleft.1, by rw [hcand]; exact hleft.2⟩
  · intro rest hrest
    rw [Function.update_self] at hrest
    exact hm.not_saving (by simp [completes]) h.never rest hrest

/-- The cancellation takes a step. -/
theorem SettleHolds.cancel_step (h : SettleHolds env discountAmount rid r₀ w₀ phase c)
    (hs : r₀.status = .enroute ∨ r₀.status = .accepted) (hi : c.procs false = .call op next)
    (hm : SettleMove cancels rid c.store (phase false) op l) :
    SettleHolds env discountAmount rid r₀ w₀ (Function.update phase false l)
      (c.step (handle env) false) := by
  obtain ⟨r, hr⟩ := h.found
  obtain ⟨r', hr', hrow⟩ := hm.row env hr
  have hstore : (c.step (handle env) false).store = (handle env op c.store).2 := by
    rw [Pool.step_call _ hi]
  have hopening : phase false = .opening → CompleteAlone env discountAmount r₀ r (phase true) := by
    intro ho
    exact h.alone r hr (by rw [ho]; trivial)
  refine ⟨⟨r', hstore ▸ hr'⟩, ?_, ?_, ?_, ?_, ?_, ?_, h.logged_step hi hm⟩
  · intro x hx hun
    rw [hstore, hr', Option.some.injEq] at hx
    simp only [Function.update_self] at hun
    obtain ⟨hun', hnot⟩ := hm.unwritten hun
    rcases hrow with ⟨-, he⟩ | ⟨m, rfl, -⟩
    · rw [← hx, he]
      exact h.alone r hr hun'
    · cases hnot
  · intro hf
    rw [Function.update_self] at hf
    subst hf
    rcases hm.refused_cases with hold | ⟨hopen, y, hy, hyc⟩
    · exact h.refused hold
    · obtain rfl := Option.some.inj (hy.symm.trans hr)
      rcases (hopening hopen).status.2 with he | ⟨-, hmarked⟩
      · rw [he] at hyc
        rcases hs with hs | hs <;> simp [cancels, hs] at hyc
      · exact hmarked
  · intro o ho
    rw [Function.update_self] at ho
    subst ho
    rcases hm.running_cases with hold | ⟨hopen, hy⟩
    · exact h.begun o hold
    · obtain rfl := Option.some.inj (hy.symm.trans hr)
      rcases (hopening hopen).status.2 with he | ⟨hc, -⟩
      · rw [he]
        rcases hs with hs | hs <;> simp [hs]
      · simp [hc]
  · intro hn
    rw [Function.update_self] at hn
    have hbefore := hm.saving_stays hn
    rw [hstore, hm.candidates env hbefore]
    exact h.unsaved hbefore
  · intro rest hrest
    rw [Function.update_self] at hrest
    subst hrest
    rw [hstore]
    exact hm.left h.saving
  · intro rest
    exact h.never rest

theorem SettleHolds.step (h : SettleHolds env discountAmount rid r₀ w₀ phase c)
    (hs : r₀.status = .enroute ∨ r₀.status = .accepted) (hi : c.procs i = .call op next)
    (hm : SettleMove (settler env discountAmount i) rid c.store (phase i) op l) :
    SettleHolds env discountAmount rid r₀ w₀ (Function.update phase i l) (c.step (handle env) i) := by
  cases i with
  | true => exact h.complete_step hs hi hm
  | false => exact h.cancel_step hs hi hm

/-- A row that is canceled with nothing to pay. -/
def Ride.CanceledUnpaid (r : Ride) : Prop := r.status = .canceled ∧ r.paymentStatus = none

/-- The cancellation's phase against the row `r`, as long as it has not met the completion. -/
def CancelWell (r₀ r : Ride) (reads updates : ℕ) : SettlePhase → Prop
  | .refused => r₀.cancelReason = none
  | .holding _ u => u.CanceledUnpaid ∧ 4 ≤ reads ∧ updates = 1
  | .settled | .saving _ => (r.CanceledUnpaid ∧ r.fareFinal = some 0) ∧ 4 ≤ reads ∧ updates = 2
  | _ => True

/-- The cancellation's phase against the row `r`, once it has met the completion. -/
def CancelBad (r₀ r : Ride) : SettlePhase → Prop
  | .refused => r₀.cancelReason ≠ none
  | .holding _ u => ¬ r.CanceledUnpaid ∧ ¬ u.CanceledUnpaid
  | .settled | .saving _ => ¬ r.CanceledUnpaid
  | _ => False

def EndsWell (rid : Id) (r₀ : Ride) (phase : Bool → SettlePhase) (c : RidePool Bool) : Prop :=
  ∀ r, c.store.rides.find rid = some r →
    CancelWell r₀ r (readsOf c false).length (updatesOf c false) (phase false)

def EndsBadly (rid : Id) (r₀ : Ride) (phase : Bool → SettlePhase) (c : RidePool Bool) : Prop :=
  ∀ r, c.store.rides.find rid = some r → CancelBad r₀ r (phase false)

/-- What a step of the cancellation has to meet. -/
def CancelReads (r : Ride) (reads : ℕ) : Call → Prop
  | .findRide _ => (reads = 0 → r.status = .completed → r.cancelReason = none) ∧
      (reads = 1 → r.status ≠ .completed) ∧ (reads = 3 → r.CanceledUnpaid)
  | _ => True

theorem endsAlone_cancel (hr : c.store.rides.find rid = some r) (hi : c.procs false = .call op next) :
    EndsAlone rid c false ↔ CancelReads r (readsOf c false).length op := by
  unfold EndsAlone
  rw [hi, hr]
  cases op <;> simp [Program.pending, CancelReads, Ride.CanceledUnpaid]

theorem endsAlone_complete (hr : c.store.rides.find rid = some r) (hi : c.procs true = .call op next) :
    EndsAlone rid c true ↔ (op.isUpdate → updatesOf c false ≠ 2) := by
  unfold EndsAlone
  rw [hi, hr]
  cases op <;> simp [Program.pending, Call.isUpdate]

theorem Call.Apart.cancelReads (h : op.Apart) (r : Ride) (n : ℕ) : CancelReads r n op := by
  cases op <;> trivial

theorem cancelReads_of_late {n : ℕ} (hn : n = 2 ∨ 4 ≤ n) : CancelReads r n (.findRide rid) :=
  ⟨fun h => by omega, fun h => by omega, fun h => by omega⟩

/-- The cancellation's own step keeps it well, or turns it bad where it meets the completion. -/
theorem SettleMove.cancel_well {w : World} {l l' : SettlePhase} {log : ReadLog} {n : ℕ}
    {r' : Ride} (h : SettleMove cancels rid w l op l') (hr : w.rides.find rid = some r)
    (hr' : (handle env op w).2.rides.find rid = some r') (hlog : l.Logged .completed log.reads n)
    (halone : l.Unwritten → r.cancelReason = r₀.cancelReason ∧ (r.status = .completed ∨ r = r₀))
    (hs : r₀.status = .enroute ∨ r₀.status = .accepted)
    (hw : CancelWell r₀ r log.reads.length n l) :
    (CancelReads r log.reads.length op → CancelWell r₀ r'
      (log.after ⟨op, (handle env op w).1⟩).reads.length (n + if op.isUpdate then 1 else 0) l') ∧
    (¬ CancelReads r log.reads.length op → CancelBad r₀ r' l') := by
  obtain ⟨x, hx, hrow⟩ := h.row env hr
  obtain rfl := Option.some.inj (hx.symm.trans hr')
  have hsame (y : Ride) (hy : w.rides.find rid = some y) : y = r := Option.some.inj (hy.symm.trans hr)
  have hread : (log.after ⟨.findRide rid, (handle env (.findRide rid) w).1⟩).reads =
      r.status :: log.reads := by
    simp [handle, hr, ReadLog.after]
  have hstays : op.isUpdate = false → x = r := by
    rcases hrow with ⟨-, he⟩ | ⟨m, rfl, -⟩
    · exact fun _ => he
    · intro hn
      cases hn
  cases h with
  | apart ha =>
    rw [after_quiet ha.quiet, ha.isUpdate, hstays ha.isUpdate]
    exact ⟨fun _ => hw, fun hn => absurd (ha.cancelReads r _) hn⟩
  | refuse hy hc =>
    have hlen : log.reads.length = 0 := by rw [hlog.1]; rfl
    have hreason := (halone trivial).1
    rw [hsame _ hy] at hc
    constructor
    · intro hok
      exact hreason.symm.trans (hok.1 hlen hc)
    · intro hno hnone
      exact hno ⟨fun _ _ => hreason.trans hnone, fun h1 => by omega, fun h3 => by omega⟩
  | begin hy hc =>
    have hlen : log.reads.length = 0 := by rw [hlog.1]; rfl
    rw [hsame _ hy] at hc
    refine ⟨fun _ => trivial, fun hno => absurd ?_ hno⟩
    exact ⟨fun _ hcomp => absurd hcomp hc, fun h1 => by omega, fun h3 => by omega⟩
  | grant hy hm =>
    have hlen : log.reads.length = 1 := by rw [hlog.1]; rfl
    rw [hsame _ hy] at hm
    refine ⟨fun _ => trivial, fun hno => absurd ?_ hno⟩
    refine ⟨fun h0 => by omega, fun _ hcomp => ?_, fun h3 => by omega⟩
    rw [hcomp] at hm
    simp [cancels] at hm
  | leave hy hn =>
    have hlen : log.reads.length = 1 := by rw [hlog.1]; rfl
    have hrow := (halone trivial).2
    have hcomp : r.status = .completed := by
      rcases hrow with hcomp | he
      · exact hcomp
      · rw [hsame _ hy, he] at hn
        rcases hs with hs | hs <;> simp [cancels, hs] at hn
    refine ⟨fun hok => absurd hcomp (hok.2.1 hlen), fun _ => ?_⟩
    have hnot : ¬ r.CanceledUnpaid := by
      intro hcu
      cases hcomp.symm.trans hcu.1
    rw [hstays rfl, hsame _ hy]
    exact ⟨hnot, hnot⟩
  | current =>
    exact ⟨fun _ => trivial, fun hno => absurd (cancelReads_of_late (.inl hlog.1)) hno⟩
  | mark => exact ⟨fun _ => trivial, fun hno => absurd trivial hno⟩
  | reread hy =>
    have hlen : log.reads.length = 3 := hlog.1
    rw [hsame _ hy, hread, hstays rfl]
    constructor
    · intro hok
      exact ⟨hok.2.2 hlen, by rw [List.length_cons]; omega, hlog.2.2⟩
    · intro hno
      have hnot : ¬ r.CanceledUnpaid :=
        fun hcu => hno ⟨fun h0 => by omega, fun h1 => by omega, fun _ => hcu⟩
      exact ⟨hnot, hnot⟩
  | recheck =>
    obtain ⟨hu, hlen, hn⟩ := hw
    rw [hread, hstays rfl]
    exact ⟨fun _ => ⟨hu, by rw [List.length_cons]; omega, hn⟩,
      fun hno => absurd (cancelReads_of_late (.inr hlen)) hno⟩
  | write hid hback =>
    obtain ⟨hu, hlen, hn⟩ := hw
    refine ⟨fun _ => ?_, fun hno => absurd trivial hno⟩
    rcases hrow with ⟨hn, -⟩ | ⟨m, he, rfl⟩
    · cases hn
    · cases he
      exact ⟨⟨⟨hback.1.trans hu.1, hback.2.1.trans hu.2⟩, hback.2.2⟩, hlen, by rw [hn]; rfl⟩
  | look | lookAgain =>
    obtain ⟨hrow, hlen, hn⟩ := hw
    rw [hread, hstays rfl]
    exact ⟨fun _ => ⟨hrow, by rw [List.length_cons]; omega, hn⟩,
      fun hno => absurd (cancelReads_of_late (.inr hlen)) hno⟩
  | list | save =>
    rw [hstays rfl]
    exact ⟨fun _ => hw, fun hno => absurd trivial hno⟩

/-- The cancellation's own steps do not mend what has gone wrong. -/
theorem SettleMove.cancel_bad {w : World} {l l' : SettlePhase} {r' : Ride}
    (h : SettleMove cancels rid w l op l') (hr : w.rides.find rid = some r)
    (hr' : (handle env op w).2.rides.find rid = some r') (hb : CancelBad r₀ r l) :
    CancelBad r₀ r' l' := by
  obtain ⟨x, hx, hrow⟩ := h.row env hr
  obtain rfl := Option.some.inj (hx.symm.trans hr')
  cases h with
  | apart ha =>
    rcases hrow with ⟨-, rfl⟩ | ⟨m, rfl, -⟩
    · exact hb
    · exact ha.elim
  | write hid hback =>
    rcases hrow with ⟨hn, -⟩ | ⟨m, he, rfl⟩
    · cases hn
    · cases he
      intro hcu
      exact hb.2 ⟨hback.1.symm.trans hcu.1, hback.2.1.symm.trans hcu.2⟩
  | recheck | look | lookAgain | list | save =>
    rcases hrow with ⟨-, rfl⟩ | ⟨m, he, -⟩
    · exact hb
    · cases he
  | _ => exact hb.elim

/-- No UPDATE of a completion leaves the row canceled and unpaid. -/
theorem SettleMove.completes_not_canceled {w : World} {l l' : SettlePhase} {r' : Ride}
    (h : SettleMove (completes env discountAmount) rid w l op l') (hop : op.isUpdate = true)
    (hr : w.rides.find rid = some r) (hr' : (handle env op w).2.rides.find rid = some r') :
    ¬ r'.CanceledUnpaid := by
  obtain ⟨x, hx, hrow⟩ := h.row env hr
  obtain rfl := Option.some.inj (hx.symm.trans hr')
  rcases hrow with ⟨hn, -⟩ | ⟨m, rfl, rfl⟩
  · rw [hn] at hop
    cases hop
  rintro ⟨hc, hp⟩
  cases h with
  | apart ha => exact ha.elim
  | mark _ hm =>
    have hcomp : m.status = .completed := hm
    have hcanc : m.status = .canceled := hc
    rw [hcomp] at hcanc
    cases hcanc
  | write _ hback =>
    obtain ⟨-, -, -, fare, -, hcharged⟩ := hback
    have hpend : m.paymentStatus = some .pending := hcharged.2.2.2.2.2
    have hnone : m.paymentStatus = none := hp
    rw [hpend] at hnone
    cases hnone

theorem CancelWell.other {l : SettlePhase} {n k : ℕ} {r' : Ride} (h : CancelWell r₀ r n k l)
    (hk : k ≠ 2) : CancelWell r₀ r' n k l := by
  cases l with
  | settled => exact absurd h.2.2 hk
  | saving => exact absurd h.2.2 hk
  | _ => exact h

theorem CancelBad.other {l : SettlePhase} {r' : Ride} (h : CancelBad r₀ r l)
    (hr' : ¬ r'.CanceledUnpaid) : CancelBad r₀ r' l := by
  cases l with
  | holding => exact ⟨hr', h.2⟩
  | settled => exact hr'
  | saving => exact hr'
  | _ => exact h

theorem SettleHolds.unwritten_row (h : SettleHolds env discountAmount rid r₀ w₀ phase c)
    (hr : c.store.rides.find rid = some r) (hun : (phase false).Unwritten) :
    r.cancelReason = r₀.cancelReason ∧ (r.status = .completed ∨ r = r₀) := by
  obtain ⟨hreason, he | ⟨hc, -⟩⟩ := (h.alone r hr hun).status
  · exact ⟨hreason, .inr he⟩
  · exact ⟨hreason, .inl hc⟩

/-- A step of a run that goes well, by whether it meets the condition. -/
theorem SettleHolds.well_step (h : SettleHolds env discountAmount rid r₀ w₀ phase c)
    (hs : r₀.status = .enroute ∨ r₀.status = .accepted) (hw : EndsWell rid r₀ phase c)
    (hi : c.procs i = .call op next)
    (hm : SettleMove (settler env discountAmount i) rid c.store (phase i) op l) :
    (EndsAlone rid c i → EndsWell rid r₀ (Function.update phase i l) (c.step (handle env) i)) ∧
    (¬ EndsAlone rid c i → EndsBadly rid r₀ (Function.update phase i l) (c.step (handle env) i)) := by
  obtain ⟨r, hr⟩ := h.found
  obtain ⟨r', hr', hrow⟩ := hm.row env hr
  have hstore : (c.step (handle env) i).store = (handle env op c.store).2 := by
    rw [Pool.step_call _ hi]
  have hafter {x : Ride} (hx : (c.step (handle env) i).store.rides.find rid = some x) : x = r' := by
    rw [hstore, hr'] at hx
    exact (Option.some.inj hx).symm
  have hwell := hw r hr
  cases i with
  | false =>
    have hboth := SettleMove.cancel_well hm hr hr' (h.logged false) (h.unwritten_row hr) hs hwell
    rw [endsAlone_cancel hr hi]
    constructor
    · intro hok x hx
      rw [hafter hx, reads_step hi, updates_step hi]
      simpa using hboth.1 hok
    · intro hno x hx
      rw [hafter hx]
      simpa using hboth.2 hno
  | true =>
    rw [endsAlone_complete hr hi]
    constructor
    · intro hok x hx
      rw [hafter hx, reads_step hi, updates_step hi]
      simp only [Bool.false_eq_true, if_false, Bool.true_eq_false, false_and, Nat.add_zero, ne_eq,
        not_false_eq_true, Function.update_of_ne]
      rcases hrow with ⟨-, he⟩ | ⟨m, rfl, -⟩
      · rw [he]
        exact hwell
      · exact hwell.other (hok rfl)
    · intro hno x hx
      obtain ⟨hop, htwo⟩ := Classical.not_imp.mp hno
      rw [not_not] at htwo
      have hbad := SettleMove.completes_not_canceled hm hop hr hr'
      have hlog := h.logged false
      rw [hafter hx]
      simp only [ne_eq, Bool.false_eq_true, not_false_eq_true, Function.update_of_ne]
      generalize phase false = q at hlog
      rw [htwo] at hlog
      cases q with
      | settled => exact hbad
      | saving => exact hbad
      | opening => cases hlog.2
      | refused => cases hlog.2
      | running => cases hlog.2.2
      | admitted => cases hlog.2.2
      | ready => cases hlog.2.2
      | transitioned => cases hlog.2.2
      | holding => exact absurd hlog.2.2 (by omega)

theorem SettleHolds.bad_step (h : SettleHolds env discountAmount rid r₀ w₀ phase c)
    (hb : EndsBadly rid r₀ phase c) (hi : c.procs i = .call op next)
    (hm : SettleMove (settler env discountAmount i) rid c.store (phase i) op l) :
    EndsBadly rid r₀ (Function.update phase i l) (c.step (handle env) i) := by
  obtain ⟨r, hr⟩ := h.found
  obtain ⟨r', hr', hrow⟩ := hm.row env hr
  intro x hx
  have hstore : (c.step (handle env) i).store = (handle env op c.store).2 := by
    rw [Pool.step_call _ hi]
  rw [hstore, hr'] at hx
  obtain rfl := Option.some.inj hx
  cases i with
  | false => simpa using SettleMove.cancel_bad hm hr hr' (hb r hr)
  | true =>
    simp only [ne_eq, Bool.false_eq_true, not_false_eq_true, Function.update_of_ne]
    rcases hrow with ⟨-, he⟩ | ⟨m, rfl, -⟩
    · rw [he]
      exact hb r hr
    · exact (hb r hr).other (SettleMove.completes_not_canceled hm rfl hr hr')

/-- The phases in which the two operations end. -/
theorem SettleHolds.ended (h : SettleHolds env discountAmount rid r₀ w₀ phase c) (hended : c.Ended)
    (hvalid : OtherwiseValid c)
    (hcomplete : ∀ a, (c.procs true).outcome = some (.ok a) → phase true = .settled)
    (hcancel : ∀ a, (c.procs false).outcome = some (.ok a) →
      phase false = .saving [] ∨ ∃ o, phase false = .running o ∧ o.status = .canceled) :
    phase false = .refused ∧ phase true = .settled ∨ phase false = .saving [] := by
  have hlog := h.logged false
  have hlog' := h.logged true
  obtain ⟨r, hr⟩ := hended.outcome false
  cases r with
  | ok a =>
    rcases hcancel a hr with hs | ⟨o, ho, hc⟩
    · exact .inr hs
    · exact absurd hc (h.begun o ho)
  | error e =>
    have hlast : (readsOf c false).getLast? = some .completed := hvalid false e hr
    have hrefused : phase false = .refused := by
      generalize phase false = q at hlog
      cases q with
      | refused => rfl
      | opening =>
        rw [hlog.1] at hlast
        cases hlast
      | running o =>
        rw [hlog.1] at hlast
        exact absurd (Option.some.inj hlast) hlog.2.1
      | _ => exact absurd hlast hlog.2.1
    have hmarked := h.refused hrefused
    obtain ⟨r', hr'⟩ := hended.outcome true
    cases r' with
    | ok a => exact .inl ⟨hrefused, hcomplete a hr'⟩
    | error e' =>
      have hlast' : (readsOf c true).getLast? = some .canceled := hvalid true e' hr'
      generalize phase true = q at hmarked hlog'
      cases q with
      | transitioned => exact absurd hlast' hlog'.2.1
      | holding => exact absurd hlast' hlog'.2.1
      | settled => exact absurd hlast' hlog'.2.1
      | _ => exact hmarked.elim

end Run

section Outcome

variable {env : Environment} {discountAmount : Option JsNumber} {rid : Id} {r : Ride} {w : World}
  {phase : Bool → SettlePhase} {c : RidePool Bool}

/-- A run without a meeting ends wholly. -/
theorem SettleHolds.whole (h : SettleHolds env discountAmount r.id r w phase c)
    (hw : EndsWell r.id r phase c)
    (hended : phase false = .refused ∧ phase true = .settled ∨ phase false = .saving []) :
    WhollyEnded env discountAmount w r c.store := by
  obtain ⟨x, hx⟩ := h.found
  have hwell := hw x hx
  rcases hended with ⟨hrefused, hsettled⟩ | hsaving
  · have halone := h.alone x hx (by rw [hrefused]; trivial)
    rw [hsettled] at halone
    rw [hrefused] at hwell
    obtain ⟨⟨hstatus, hreason⟩, hbilled⟩ := halone
    have hcand := h.unsaved (by simp [hrefused])
    exact ⟨x, hx, .inl ⟨hstatus, hbilled, hreason.trans hwell, hcand⟩⟩
  · rw [hsaving] at hwell
    obtain ⟨⟨⟨hstatus, hpaid⟩, hfare⟩, -⟩ := hwell
    have hall := (h.saving [] hsaving).2
    refine ⟨x, hx, .inr ⟨hstatus, hfare, hpaid, fun y hy => ?_⟩⟩
    obtain ⟨hm, hr⟩ := mem_findCandidates.mp hy
    rcases hall y hm hr with hs | ⟨z, hz, -⟩
    · exact hs
    · cases hz

/-- A run with a meeting does not, where there was a candidate to cancel. -/
theorem SettleHolds.not_whole (h : SettleHolds env discountAmount r.id r w phase c)
    (hb : EndsBadly r.id r phase c)
    (hended : phase false = .refused ∧ phase true = .settled ∨ phase false = .saving [])
    (hlive : ∃ y ∈ w.findCandidates r.id, y.status ≠ .canceled) :
    ¬ WhollyEnded env discountAmount w r c.store := by
  rintro ⟨x, hx, hwhole⟩
  have hbad := hb x hx
  rcases hended with ⟨hrefused, hsettled⟩ | hsaving
  · have halone := h.alone x hx (by rw [hrefused]; trivial)
    rw [hsettled] at halone
    rw [hrefused] at hbad
    obtain ⟨⟨hstatus, hreason⟩, -⟩ := halone
    rcases hwhole with ⟨-, -, hnone, -⟩ | ⟨hcanceled, -⟩
    · exact hbad (hreason.symm.trans hnone)
    · rw [hstatus] at hcanceled
      cases hcanceled
  · rw [hsaving] at hbad
    rcases hwhole with ⟨-, -, -, hsame⟩ | ⟨hcanceled, -, hpaid, -⟩
    · obtain ⟨y, hy, hys⟩ := hlive
      obtain ⟨hm, hr⟩ := mem_findCandidates.mp hy
      rcases (h.saving [] hsaving).2 y (hsame ▸ hm) hr with hs | ⟨z, hz, -⟩
      · exact hys hs
      · cases hz
    · exact hbad ⟨hcanceled, hpaid⟩

variable (env rid) in
theorem settles_start (driver rider : RequestingClient) (location : ParticipantLocation)
    (discountAmount : Option JsNumber) (reason : Option String) (now : Time) (i : Bool) :
    Settles env (settler env discountAmount i) rid
      (fun l => if i then l = .settled else l = .saving [] ∨ ∃ o, l = .running o ∧ o.status = .canceled)
      .opening ((completeAndCancel rid driver rider location discountAmount reason now i).program env) := by
  cases i with
  | true =>
    have hp : Settles env (completes env discountAmount) rid (· = .settled) .opening
        (completeRide env rid driver location discountAmount) := settles_completeRide
    exact hp.bind (fun l a ha _ _ => ha a rfl) (by simp)
  | false =>
    have hp : Settles env cancels rid
        (fun l => l = .saving [] ∨ ∃ o, l = .running o ∧ o.status = .canceled) .opening
        (cancelRide rid rider reason now) := settles_cancelRide
    exact hp.bind (fun l a ha _ _ => ha a rfl) (by simp)

end Outcome

/-- Exactly the runs in which the cancellation does not meet the completion leave the
ride wholly completed or wholly canceled; a run that does leaves a mixture whenever
there was a candidate to cancel. -/
theorem ends_wholly_iff (env : Environment) (driver rider : RequestingClient)
    (location : ParticipantLocation) (discountAmount : Option JsNumber) (reason : Option String)
    (now : Time) (w : World) (r : Ride) (hr : w.rides.find r.id = some r)
    (hs : r.status = .enroute ∨ r.status = .accepted) (sched : List Bool)
    (hended : ((Pool.start (lifecycleCalls env
      (completeAndCancel r.id driver rider location discountAmount reason now)) w).exec (handle env)
        sched).Ended)
    (hvalid : OtherwiseValid ((Pool.start (lifecycleCalls env
      (completeAndCancel r.id driver rider location discountAmount reason now)) w).exec (handle env)
        sched)) :
    (Pool.Meets (handle env) (EndsAlone r.id) (Pool.start (lifecycleCalls env
        (completeAndCancel r.id driver rider location discountAmount reason now)) w) sched →
      WhollyEnded env discountAmount w r ((Pool.start (lifecycleCalls env
        (completeAndCancel r.id driver rider location discountAmount reason now)) w).exec (handle env)
          sched).store) ∧
    ((∃ y ∈ w.findCandidates r.id, y.status ≠ .canceled) →
      WhollyEnded env discountAmount w r ((Pool.start (lifecycleCalls env
        (completeAndCancel r.id driver rider location discountAmount reason now)) w).exec (handle env)
          sched).store →
      Pool.Meets (handle env) (EndsAlone r.id) (Pool.start (lifecycleCalls env
        (completeAndCancel r.id driver rider location discountAmount reason now)) w) sched) := by
  let ops := completeAndCancel r.id driver rider location discountAmount reason now
  let start := Pool.start (lifecycleCalls env ops) w
  let Good (phase : Bool → SettlePhase) (c : RidePool Bool) : Prop :=
    SettleHolds env discountAmount r.id r w phase c ∧ EndsWell r.id r phase c
  let Bad (phase : Bool → SettlePhase) (c : RidePool Bool) : Prop :=
    SettleHolds env discountAmount r.id r w phase c ∧ EndsBadly r.id r phase c
  let Q (i : Bool) (l : SettlePhase) : Prop :=
    if i then l = .settled else l = .saving [] ∨ ∃ o, l = .running o ∧ o.status = .canceled
  let done (i : Bool) (l : SettlePhase) (a : Except ServiceError Unit) : Prop := ∀ u, a = .ok u → Q i l
  let o (i : Bool) := settleOutline (settler env discountAmount i) r.id
  have hopen : Good (fun _ => .opening) start := by
    refine ⟨⟨⟨r, hr⟩, ?_, by simp, by simp, fun _ => rfl, by simp, by simp, fun _ => ⟨rfl, rfl⟩⟩,
      fun _ _ => trivial⟩
    intro x hx _
    exact Option.some.inj (hx.symm.trans hr)
  have hstart : Outline.Holds o (handle env) done Good start :=
    ⟨_, hopen, settles_start env r.id driver rider location discountAmount reason now⟩
  have hfree (c : RidePool Bool) (i : Bool) (hp : (c.procs i).pending = none) : EndsAlone r.id c i := by
    rw [EndsAlone, hp]
    trivial
  have hsplit : (Pool.Meets (handle env) (EndsAlone r.id) start sched →
        Outline.Holds o (handle env) done Good (start.exec (handle env) sched)) ∧
      (¬ Pool.Meets (handle env) (EndsAlone r.id) start sched →
        Outline.Holds o (handle env) done Bad (start.exec (handle env) sched)) := by
    refine Outline.exec_splits hfree ?_ ?_ ?_ ?_ sched hstart
    · exact fun _ _ _ hJ => hJ.1.found
    · exact fun _ _ _ hJ => hJ.1.found
    · intro phase c i op next l hJ hi hmv
      have hkept := hJ.1.step hs hi hmv
      have hturn := hJ.1.well_step hs hJ.2 hi hmv
      exact ⟨fun hok => ⟨hkept, hturn.1 hok⟩, fun hno => ⟨hkept, hturn.2 hno⟩⟩
    · intro phase c i op next l hJ hi hmv
      exact ⟨hJ.1.step hs hi hmv, hJ.1.bad_step hJ.2 hi hmv⟩
  have hends {phase : Bool → SettlePhase}
      (hJ : SettleHolds env discountAmount r.id r w phase (start.exec (handle env) sched))
      (hQ : ∀ i a, ((start.exec (handle env) sched).procs i).outcome = some a → done i (phase i) a) :
      phase false = .refused ∧ phase true = .settled ∨ phase false = .saving [] :=
    hJ.ended hended hvalid (fun a ha => hQ true _ ha a rfl) fun a ha => hQ false _ ha a rfl
  constructor
  · intro hm
    obtain ⟨phase, ⟨hJ, hw⟩, hQ⟩ := (hsplit.1 hm).outcome
    exact hJ.whole hw (hends hJ hQ)
  · intro hlive hwhole
    by_contra hm
    obtain ⟨phase, ⟨hJ, hb⟩, hQ⟩ := (hsplit.2 hm).outcome
    exact hJ.not_whole hb (hends hJ hQ) hlive hwhole

/-- Rider 1 has confirmed driver 7; the rider is where the trip is to end. -/
def enrouteWorld : World := (World.initial []).after (.around [7, 8])
  (acceptedRun ++ [.confirmDriverAcceptance 1 1 2,
    .recordTripLocation 1 ⟨some 1, some .rider⟩ ⟨⟨2, 2⟩, none, "10:10"⟩])

def enrouteRide : Ride := (enrouteWorld.rides.find 1).get (by decide +kernel)

def endEnroute (i : Bool) : LifecycleOp :=
  completeAndCancel enrouteRide.id ⟨some 7, some .driver⟩ ⟨some 1, some .rider⟩ ⟨⟨2, 2⟩, none, "10:11"⟩
    none none 3 i

theorem ends_wholly_in_turn :
    WhollyEnded (.around [7, 8]) none enrouteWorld enrouteRide
      ((Pool.start (lifecycleCalls (.around [7, 8]) endEnroute) enrouteWorld).exec
        (handle (.around [7, 8])) (List.replicate 40 true ++ List.replicate 40 false)).store :=
  (ends_wholly_iff (.around [7, 8]) ⟨some 7, some .driver⟩ ⟨some 1, some .rider⟩
    ⟨⟨2, 2⟩, none, "10:11"⟩ none none 3 enrouteWorld enrouteRide (by decide +kernel)
    (by decide +kernel) (List.replicate 40 true ++ List.replicate 40 false) (by decide +kernel)
    (by decide +kernel)).1 (by decide +kernel)

/-- The completion has read the ride before the cancellation runs. -/
def completionStale : List Bool :=
  [true] ++ List.replicate 40 false ++ List.replicate 40 true

theorem canceled_ride_billed :
    (enrouteWorld.rides.find enrouteRide.id = some enrouteRide ∧ enrouteRide.status = .enroute) ∧
    ((Pool.start (lifecycleCalls (.around [7, 8]) endEnroute) enrouteWorld).exec
      (handle (.around [7, 8])) completionStale).Ended ∧
    OtherwiseValid ((Pool.start (lifecycleCalls (.around [7, 8]) endEnroute) enrouteWorld).exec
      (handle (.around [7, 8])) completionStale) ∧
    ¬ WhollyEnded (.around [7, 8]) none enrouteWorld enrouteRide
      ((Pool.start (lifecycleCalls (.around [7, 8]) endEnroute) enrouteWorld).exec
        (handle (.around [7, 8])) completionStale).store := by
  refine ⟨by decide +kernel, by decide +kernel, by decide +kernel, ?_⟩
  have hrow : ((((Pool.start (lifecycleCalls (.around [7, 8]) endEnroute) enrouteWorld).exec
      (handle (.around [7, 8])) completionStale).store.rides.find enrouteRide.id).map fun x =>
        (x.status, x.paymentStatus)) = some (.canceled, some .pending) := by decide +kernel
  rintro ⟨x, hx, hwhole⟩
  rw [hx, Option.map_some, Option.some.injEq, Prod.mk.injEq] at hrow
  rcases hwhole with ⟨hcomp, -⟩ | ⟨-, -, hpaid, -⟩
  · rw [hrow.1] at hcomp
    cases hcomp
  · rw [hrow.2] at hpaid
    cases hpaid

end NebLite
