import NebLite.Rides.Writes
import NebLite.Rides.Absorption

/-! When a withdrawn invitation stays withdrawn under concurrent operations. -/

namespace NebLite

open Atomic

def World.candidateStatus (w : World) (k : Id) : Option ERideDriverCandidateStatus :=
  (w.candidates.find k).map (·.status)

/-- A CANCELED row has become nothing else, a DECLINED row at most CANCELED. -/
def StaysWithdrawn (a b : Option ERideDriverCandidateStatus) : Prop :=
  (a = some .canceled →
    b ≠ some .invited ∧ b ≠ some .accepted ∧ b ≠ some .confirmed ∧ b ≠ some .declined) ∧
  (a = some .declined → b ≠ some .invited ∧ b ≠ some .accepted ∧ b ≠ some .confirmed)

/-- An answer is saved on a row that is not CANCELED, and not DECLINED unless the
answer declines again. -/
def AnswersInTime {ι : Type} [DecidableEq ι] (ops : ι → LifecycleOp)
    (c : Pool ι Call Call.Answer ServiceError Unit World) (i : ι) : Prop :=
  match (c.procs i).pending with
  | some (.saveCandidate n) => ∀ a ∈ (ops i).answer (ridesRead c i) n.driverId,
      c.store.candidateStatus n.id ≠ some .canceled ∧
      (c.store.candidateStatus n.id = some .declined → a = .declined)
  | _ => True

instance {ι : Type} [DecidableEq ι] (ops : ι → LifecycleOp)
    (c : Pool ι Call Call.Answer ServiceError Unit World) (i : ι) : Decidable (AnswersInTime ops c i) := by
  unfold AnswersInTime
  induction (c.procs i).pending using Option.casesOn with
  | none => infer_instance
  | some op => induction op using Call.casesOn <;> infer_instance

/-- How far a row has been withdrawn. -/
def withdrawal : Option ERideDriverCandidateStatus → ℕ
  | some .canceled => 2
  | some .declined => 1
  | _ => 0

theorem staysWithdrawn_iff {a b : Option ERideDriverCandidateStatus} (h : a.isSome → b.isSome) :
    StaysWithdrawn a b ↔ withdrawal a ≤ withdrawal b := by
  unfold StaysWithdrawn
  cases a with
  | none => simp [withdrawal]
  | some s =>
    obtain ⟨t, rfl⟩ := Option.isSome_iff_exists.mp (h rfl)
    cases s <;> cases t <;> simp [withdrawal]

theorem withdrawal_answer {a : ERideDriverCandidateStatus} (s : Option ERideDriverCandidateStatus)
    (h : a ≠ .canceled) :
    withdrawal s ≤ withdrawal (some a) ↔ s ≠ some .canceled ∧ (s = some .declined → a = .declined) := by
  rcases s with _ | s
  · simp [withdrawal]
  · cases s <;> cases a <;> simp [withdrawal] at h ⊢

theorem withdrawal_le_canceled (s : Option ERideDriverCandidateStatus) :
    withdrawal s ≤ withdrawal (some .canceled) := by
  rcases s with _ | s
  · exact Nat.zero_le _
  · cases s <;> decide

theorem LifecycleOp.answer_ne_canceled {op : LifecycleOp} {l : List Ride} {x : Id}
    {a : ERideDriverCandidateStatus} (h : a ∈ op.answer l x) : a ≠ .canceled := by
  rintro rfl
  cases op <;> simp only [answer] at h <;> (try split at h) <;> (try split at h) <;> simp at h

/-- The status of a candidate row after a call. -/
def Call.onCandidate (k : Id) (s : ERideDriverCandidateStatus) : Call → ERideDriverCandidateStatus
  | .saveCandidate n => if n.id = k then n.status else s
  | _ => s

section Row

variable {w : World} {k : Id} {s : ERideDriverCandidateStatus}

theorem insertRide_candidate (h : w.candidateStatus k = some s) (options : RideCreationOptions) :
    (w.insertRide options).2.candidateStatus k = some s := by
  obtain ⟨x, hx, hs⟩ := Option.map_eq_some_iff.mp h
  obtain ⟨hmem, hkey⟩ := Table.find_some.mp hx
  unfold World.insertRide
  simp only
  split
  · exact h
  · next filled candidates hi =>
    obtain ⟨-, new, hrows, -⟩ := insertCandidates_rows hi
    have hfind : filled.candidates.find k = some x := by
      rw [Table.find_some, hrows]
      exact ⟨List.mem_append_left new hmem, hkey⟩
    simp only [World.candidateStatus, hfind, Option.map_some, hs]

theorem persistDetail_candidates (d : RidePaymentDetail) :
    (w.persistDetail d).2.candidates = w.candidates := by
  unfold World.persistDetail
  split <;> rfl

/-- Calls that neither save a candidate nor create a ride leave the candidates. -/
theorem handle_candidates (env : Environment) {op : Call} (hsave : ∀ n, op ≠ .saveCandidate n)
    (hinsert : ∀ options, op ≠ .insertRide options) :
    (handle env op w).2.candidates = w.candidates := by
  cases op with
  | saveCandidate n => exact absurd rfl (hsave n)
  | insertRide options => exact absurd rfl (hinsert options)
  | updateRideRow m =>
    simp only [handle, World.updateRideRow]
    split <;> rfl
  | claimDriver rideId d =>
    simp only [handle, World.claimDriver]
    repeat' split
    all_goals rfl
  | updatePaymentState rideId s u =>
    simp only [handle, World.updatePaymentState]
    split <;> rfl
  | saveDetail d => exact persistDetail_candidates d
  | saveDetailWithRideUpdate d update outbox now =>
    have hupdate (v : World) (u : RidePaymentUpdate) : (v.applyRideUpdate u).candidates = v.candidates := by
      unfold World.applyRideUpdate World.updatePaymentState
      split <;> rfl
    have hrest : (handle env (.saveDetailWithRideUpdate d update outbox now) w).2.candidates = _ :=
      (saveDetailWithRideUpdate_rides d update outbox now).2
    rw [hrest]
    cases update with
    | none => exact persistDetail_candidates d
    | some u => exact (hupdate _ u).trans (persistDetail_candidates d)
  | saveDetailAndOutbox d input => exact persistDetail_candidates d
  | takePaymentJob id =>
    simp only [handle, World.takePaymentJob]
    repeat' split
    all_goals rfl
  | finishPaymentJob id ok =>
    simp only [handle, World.finishPaymentJob]
    split <;> rfl
  | _ => rfl

theorem saveCandidate_status (h : w.candidateStatus k = some s) (n : RideDriverCandidate) :
    (w.saveCandidate n).candidateStatus k = some (if n.id = k then n.status else s) := by
  unfold World.saveCandidate
  cases hx : w.candidates.find n.id with
  | none =>
    have hne : n.id ≠ k := by
      rintro rfl
      simp [World.candidateStatus, hx] at h
    rw [if_neg hne]
    exact h
  | some stored =>
    have hid : stored.id = n.id := Table.key_of_find hx
    simp only [World.candidateStatus]
    rw [Table.find_put (x := stored) (by rw [← hid] at hx; exact hx)]
    by_cases hk : n.id = k
    · simp [hk, hid]
    · have hne : k ≠ stored.id := fun he => hk (hid ▸ he.symm)
      rw [if_neg (by simpa using hne), if_neg hk]
      exact h

/-- A row that is there stays there, changed as the call says. -/
theorem candidateStatus_handle (env : Environment) (op : Call) (h : w.candidateStatus k = some s) :
    (handle env op w).2.candidateStatus k = some (op.onCandidate k s) := by
  by_cases hsave : ∃ n, op = .saveCandidate n
  · obtain ⟨n, rfl⟩ := hsave
    exact saveCandidate_status h n
  have hkept : op.onCandidate k s = s := by
    cases op with
    | saveCandidate n => exact absurd ⟨n, rfl⟩ hsave
    | _ => rfl
  rw [hkept]
  by_cases hinsert : ∃ options, op = .insertRide options
  · obtain ⟨options, rfl⟩ := hinsert
    exact insertRide_candidate h options
  · have hc := handle_candidates (w := w) env (fun n he => hsave ⟨n, he⟩) fun o he => hinsert ⟨o, he⟩
    unfold World.candidateStatus
    rw [hc]
    exact h

end Row

section Pool

variable {ι : Type} [DecidableEq ι] {env : Environment} {ops : ι → LifecycleOp}
  {c : Pool ι Call Call.Answer ServiceError Unit World}

theorem candidateStatus_step {k : Id} (h : (c.store.candidateStatus k).isSome) (i : ι) :
    ((c.step (handle env) i).store.candidateStatus k).isSome := by
  obtain ⟨s, hs⟩ := Option.isSome_iff_exists.mp h
  obtain ⟨-, hstep⟩ | ⟨op, next, -, hstep⟩ := c.step_cases (handle env) i
  · rw [hstep]
    exact h
  · rw [hstep, candidateStatus_handle env op hs]
    rfl

/-- No row is withdrawn less than it was exactly when the answer comes in time. -/
theorem AllWriteBack.withdrawal_iff (h : AllWriteBack env ops c) (i : ι) :
    (fun k => withdrawal (c.store.candidateStatus k)) ≤
        (fun k => withdrawal ((c.step (handle env) i).store.candidateStatus k)) ↔
      AnswersInTime ops c i := by
  obtain ⟨hp, hstep⟩ | ⟨op, next, hi, hstep⟩ := c.step_cases (handle env) i
  · rw [hstep]
    exact iff_of_true le_rfl (by simp [AnswersInTime, hp])
  have hwrites := h.writes hi
  have hrow (k : Id) (hk : ∀ s, c.store.candidateStatus k = some s →
      withdrawal (some s) ≤ withdrawal (some (op.onCandidate k s))) :
      withdrawal (c.store.candidateStatus k) ≤
        withdrawal ((c.step (handle env) i).store.candidateStatus k) := by
    cases hs : c.store.candidateStatus k with
    | none => exact Nat.zero_le _
    | some s =>
      rw [hstep, candidateStatus_handle env op hs]
      exact hk s hs
  by_cases hsave : ∃ n, op = .saveCandidate n
  · obtain ⟨n, rfl⟩ := hsave
    have hn : n.status = ((ops i).answer (ridesRead c i) n.driverId).getD .canceled := hwrites
    have hok : AnswersInTime ops c i ↔ ∀ a ∈ (ops i).answer (ridesRead c i) n.driverId,
        c.store.candidateStatus n.id ≠ some .canceled ∧
        (c.store.candidateStatus n.id = some .declined → a = .declined) := by
      unfold AnswersInTime
      rw [hi]
      rfl
    rw [hok]
    constructor
    · intro hle a ha
      rw [ha, Option.getD_some] at hn
      rw [← withdrawal_answer _ (LifecycleOp.answer_ne_canceled ha)]
      have hk : withdrawal (c.store.candidateStatus n.id) ≤
          withdrawal ((c.step (handle env) i).store.candidateStatus n.id) := hle n.id
      cases hs : c.store.candidateStatus n.id with
      | none => exact Nat.zero_le _
      | some s =>
        rw [hs, hstep, candidateStatus_handle env _ hs, Call.onCandidate, if_pos rfl, hn] at hk
        exact hk
    · intro hans k
      apply hrow
      intro s hs
      simp only [Call.onCandidate]
      by_cases hk : n.id = k
      · subst hk
        rw [if_pos rfl, hn]
        cases ha : (ops i).answer (ridesRead c i) n.driverId with
        | none => exact withdrawal_le_canceled _
        | some a =>
          have hin := hans a ha
          rw [hs] at hin
          exact (withdrawal_answer _ (LifecycleOp.answer_ne_canceled ha)).mpr hin
      · rw [if_neg hk]
  · refine iff_of_true (fun k => hrow k fun s _ => ?_) ?_
    · cases op with
      | saveCandidate n => exact absurd ⟨n, rfl⟩ hsave
      | _ => exact le_rfl
    · unfold AnswersInTime
      rw [hi]
      cases op with
      | saveCandidate n => exact absurd ⟨n, rfl⟩ hsave
      | _ => trivial

end Pool

/-- Withdrawn invitations stay withdrawn exactly in the runs in which every answer comes
in time. -/
theorem withdrawn_stays_iff {ι : Type} [DecidableEq ι] (env : Environment) (ops : ι → LifecycleOp)
    (w : World) (sched : List ι) :
    (∀ k xs ys, xs ++ ys <+: sched →
      StaysWithdrawn
        (((Pool.start (lifecycleCalls env ops) w).exec (handle env) xs).store.candidateStatus k)
        (((Pool.start (lifecycleCalls env ops) w).exec (handle env) (xs ++ ys)).store.candidateStatus k)) ↔
      Pool.Meets (handle env) (AnswersInTime ops) (Pool.start (lifecycleCalls env ops) w) sched := by
  let start := Pool.start (lifecycleCalls env ops) w
  let value (c : Pool ι Call Call.Answer ServiceError Unit World) (k : Id) : ℕ :=
    withdrawal (c.store.candidateStatus k)
  have hpersists (k : Id) (c : Pool ι Call Call.Answer ServiceError Unit World) (ys : List ι)
      (h : (c.store.candidateStatus k).isSome) :
      ((c.exec (handle env) ys).store.candidateStatus k).isSome := by
    induction ys generalizing c with
    | nil => exact h
    | cons i ys ih => exact ih _ (candidateStatus_step h i)
  have hrises : Runs.Rises (Pool.step (handle env)) value start sched ↔
      Pool.Meets (handle env) (AnswersInTime ops) start sched :=
    Runs.rises_iff_meets (I := AllWriteBack env ops) (fun _ i h => h.step i)
      (fun _ i h => h.withdrawal_iff i) (AllWriteBack.start w)
  rw [← hrises]
  have hstays (k : Id) (xs ys : List ι) :
      StaysWithdrawn ((start.exec (handle env) xs).store.candidateStatus k)
        ((start.exec (handle env) (xs ++ ys)).store.candidateStatus k) ↔
      value (start.exec (handle env) xs) k ≤ value (start.exec (handle env) (xs ++ ys)) k := by
    apply staysWithdrawn_iff
    rw [Pool.exec_append]
    exact hpersists k _ ys
  constructor
  · intro h xs ys hp k
    exact (hstays k xs ys).mp (h k xs ys hp)
  · intro h k xs ys hp
    exact (hstays k xs ys).mpr (h xs ys hp k)

/-- Driver 7 accepts the invitation of ride 1 while its rider cancels. -/
def acceptAndCancel (b : Bool) : LifecycleOp :=
  if b then .acceptRideByDriver 1 7 2 else .cancelRide 1 ⟨some 1, some .rider⟩ none 2

/-- The acceptance has read the candidate before the cancellation withdraws it. -/
theorem canceled_candidate_accepted :
    ¬ ∀ k xs ys, xs ++ ys <+: [true, true] ++ List.replicate 30 false ++ List.replicate 30 true →
      StaysWithdrawn
        (((Pool.start (lifecycleCalls (.around [7, 8]) acceptAndCancel)
          ((World.initial []).after (.around [7, 8]) (acceptedRun.take 1))).exec
            (handle (.around [7, 8])) xs).store.candidateStatus k)
        (((Pool.start (lifecycleCalls (.around [7, 8]) acceptAndCancel)
          ((World.initial []).after (.around [7, 8]) (acceptedRun.take 1))).exec
            (handle (.around [7, 8])) (xs ++ ys)).store.candidateStatus k) := by
  intro h
  have hlast := h 1 ([true, true] ++ List.replicate 30 false) (List.replicate 30 true) List.prefix_rfl
  revert hlast
  unfold StaysWithdrawn
  decide +kernel

end NebLite
