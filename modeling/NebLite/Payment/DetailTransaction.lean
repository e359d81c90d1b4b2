import NebLite.Payment.Webhooks
import NebLite.Atomic.Transactions

/-! The statements of `saveDetailWithRideUpdate` one by one, of which any may fail. -/

namespace NebLite

open Atomic

inductive DetailStatement where
  | insertDetail (detail : RidePaymentDetail)
  | updateRide (update : RidePaymentUpdate)
  | updateOutbox (update : OutboxUpdate) (now : Time)

abbrev DetailStatement.Answer : DetailStatement → Type
  | insertDetail _ => List RidePaymentDetail
  | _ => UpdateResult

/-- The WHERE clause of the update. -/
def OutboxUpdate.matching (update : OutboxUpdate) (o : PaymentOutbox) : Bool :=
  o.orderId == update.orderId && (update.rideId.all fun id => o.rideId == id) &&
    (update.paymentDetailId.all fun id => o.paymentDetailId == id)

def detailStatement : Handler DetailStatement DetailStatement.Answer ServiceError World
  | .insertDetail detail, w => (.ok [(w.persistDetail detail).1], (w.persistDetail detail).2)
  | .updateRide update, w =>
    ((w.updatePaymentState update.rideId update.paymentStatus update.paymentUrl).map .ok id)
  | .updateOutbox update now, w =>
    let rows := w.outbox.select update.matching
    (.ok (rows.map (·.id), rows.length), w.applyOutboxUpdate update now)

namespace RidePaymentDetailRepository

abbrev Query (α : Type) := Program DetailStatement DetailStatement.Answer ServiceError α

def query (c : DetailStatement) : Query c.Answer := .perform c

def persistDetail (detail : RidePaymentDetail) : Query RidePaymentDetail := do
  let row :: _ ← query (.insertDetail detail)
    | throw (.error "Failed to persist ride payment detail")
  return row

/-- The length is that of the pair of rows and count. -/
def writeRideUpdate : Option RidePaymentUpdate → Query Unit
  | none => pure ()
  | some update => do
    let rows ← query (.updateRide update)
    if rows.length = 0 then
      throw (.error "Ride not found while updating payment status")

def writeOutboxUpdate (now : Time) : Option OutboxUpdate → Query Unit
  | none => pure ()
  | some update => do
    let outboxRows ← query (.updateOutbox update now)
    if outboxRows.length = 0 then
      throw (.error "Payment outbox entry not found while updating status")

/-- `saveDetailWithRideUpdate` between BEGIN and COMMIT. -/
def writeTables (detail : RidePaymentDetail) (rideUpdate : Option RidePaymentUpdate)
    (outboxUpdate : Option OutboxUpdate) (now : Time) : Query RidePaymentDetail := do
  let savedDetail ← persistDetail detail
  writeRideUpdate rideUpdate
  writeOutboxUpdate now outboxUpdate
  return savedDetail

def saveDetailWithRideUpdate (detail : RidePaymentDetail) (rideUpdate : Option RidePaymentUpdate)
    (outboxUpdate : Option OutboxUpdate) (now : Time) :
    Program (Command DetailStatement) (Command.Answer DetailStatement.Answer) ServiceError RidePaymentDetail :=
  (writeTables detail rideUpdate outboxUpdate now).committing.catching fun e => do
    Program.perform (.rollback : Command DetailStatement)
    throw e

end RidePaymentDetailRepository

open RidePaymentDetailRepository

section Outcome

variable (fails : ℕ → Option ServiceError) (w : World) (detail : RidePaymentDetail)
  (rideUpdate : Option RidePaymentUpdate) (outboxUpdate : Option OutboxUpdate) (now : Time)

/-- The outcome on `w` when the statements fail that `fails` names, and what is then committed. -/
def savingOutcome : Except ServiceError RidePaymentDetail × World :=
  ((saveDetailWithRideUpdate detail rideUpdate outboxUpdate now).run
    (faulty fails (Command.fallible fun _ => true) (command detailStatement)) ⟨⟨w, none⟩, 0⟩).map id
      fun x => x.store.committed

/-- The rows exist that the two updates are about. -/
def World.Names : Prop :=
  (∀ u, rideUpdate = some u → ∃ r, w.rides.find u.rideId = some r) ∧
    ∀ u, outboxUpdate = some u → ∃ o ∈ w.outbox.rows, u.matching o = true

/-- It returns, the rows exist and all tables are written, or it throws and nothing is. -/
def SavesTogether : Prop :=
  (w.Names rideUpdate outboxUpdate ∧
    savingOutcome fails w detail rideUpdate outboxUpdate now =
      (w.saveDetailWithRideUpdate detail rideUpdate outboxUpdate now).map .ok id) ∨
  ∃ e, savingOutcome fails w detail rideUpdate outboxUpdate now = (.error e, w)

/-- From BEGIN to COMMIT. -/
def savingStatements : ℕ := rideUpdate.toList.length + outboxUpdate.toList.length + 3

end Outcome

section Writes

variable {fails : ℕ → Option ServiceError} {w : World} {detail : RidePaymentDetail}
  {rideUpdate : Option RidePaymentUpdate} {outboxUpdate : Option OutboxUpdate} {now : Time}

theorem straight_writeTables : (writeTables detail rideUpdate outboxUpdate now).Straight := by
  have hguard (rows : UpdateResult) (e : ServiceError) :
      (if rows.length = 0 then throw e else pure () : Query Unit).Straight := by
    split <;> trivial
  have hdetail : (persistDetail detail).Straight := by
    refine (Program.straight_perform _).bind fun rows => ?_
    cases rows <;> trivial
  have hride : (writeRideUpdate rideUpdate).Straight := by
    cases rideUpdate with
    | none => trivial
    | some update => exact (Program.straight_perform _).bind fun rows => hguard rows _
  have houtbox : (writeOutboxUpdate now outboxUpdate).Straight := by
    cases outboxUpdate with
    | none => trivial
    | some update => exact (Program.straight_perform _).bind fun rows => hguard rows _
  exact hdetail.bind fun _ => hride.bind fun _ => houtbox.bind fun _ => trivial

theorem completes_writeTables (w : World) (detail : RidePaymentDetail) (rideUpdate : Option RidePaymentUpdate)
    (outboxUpdate : Option OutboxUpdate) (now : Time) :
    (writeTables detail rideUpdate outboxUpdate now).Completes (fun _ => true) detailStatement w
      (w.saveDetailWithRideUpdate detail rideUpdate outboxUpdate now).1
      (w.saveDetailWithRideUpdate detail rideUpdate outboxUpdate now).2
      (rideUpdate.toList.length + outboxUpdate.toList.length + 1) := by
  cases rideUpdate with
  | none =>
    cases outboxUpdate with
    | none => exact ⟨rfl, rfl⟩
    | some x => exact ⟨rfl, rfl⟩
  | some u =>
    cases outboxUpdate with
    | none => exact ⟨rfl, rfl⟩
    | some x => exact ⟨rfl, rfl⟩

variable (w detail now) in
/-- If no statement fails, everything is written, whether or not the rows exist. -/
theorem savingOutcome_undisturbed (hf : Undisturbed fails 0 (savingStatements rideUpdate outboxUpdate)) :
    savingOutcome fails w detail rideUpdate outboxUpdate now =
      (w.saveDetailWithRideUpdate detail rideUpdate outboxUpdate now).map .ok id := by
  have hcommitted := (completes_writeTables w detail rideUpdate outboxUpdate now).run_committing (n := 0) hf
  unfold savingOutcome saveDetailWithRideUpdate
  rw [Program.run_catching, hcommitted]
  rfl

/-- If one fails up to the COMMIT, nothing is written. -/
theorem savingOutcome_disturbed (hf : ¬ Undisturbed fails 0 (savingStatements rideUpdate outboxUpdate)) :
    ∃ e, savingOutcome fails w detail rideUpdate outboxUpdate now = (.error e, w) := by
  have hcost : (writeTables detail rideUpdate outboxUpdate now).cost (fun _ => true) detailStatement w + 2 =
      savingStatements rideUpdate outboxUpdate := by
    rw [(completes_writeTables w detail rideUpdate outboxUpdate now).cost]
    rfl
  have hcut : ¬ (Undisturbed fails 0
        ((writeTables detail rideUpdate outboxUpdate now).cost (fun _ => true) detailStatement w + 2) ∧
      ∃ a, ((writeTables detail rideUpdate outboxUpdate now).run detailStatement w).1 = .ok a) :=
    fun hboth => hf (hcost ▸ hboth.1)
  obtain ⟨e, staged, m, hrun⟩ := straight_writeTables.run_uncommitted hcut
  unfold savingOutcome saveDetailWithRideUpdate
  rw [Program.run_catching, hrun]
  simp only
  cases hm : fails m with
  | none =>
    rw [Program.run_bind_ok _ (Program.run_perform_answers (command detailStatement) rfl hm)]
    exact ⟨e, rfl⟩
  | some d =>
    rw [Program.run_bind_error _ (Program.run_perform_fails (command detailStatement) rfl hm)]
    exact ⟨d, rfl⟩

/-- All or nothing holds unless a row is missing that nobody looks for. -/
theorem savesTogether_iff (fails : ℕ → Option ServiceError) (w : World) (detail : RidePaymentDetail)
    (rideUpdate : Option RidePaymentUpdate) (outboxUpdate : Option OutboxUpdate) (now : Time) :
    SavesTogether fails w detail rideUpdate outboxUpdate now ↔
      w.Names rideUpdate outboxUpdate ∨ ∃ k < savingStatements rideUpdate outboxUpdate, fails k ≠ none := by
  by_cases hf : Undisturbed fails 0 (savingStatements rideUpdate outboxUpdate)
  · have hsaved := savingOutcome_undisturbed w detail now hf
    constructor
    · rintro (⟨hnames, -⟩ | ⟨e, he⟩)
      · exact .inl hnames
      · rw [hsaved] at he
        cases he
    · rintro (hnames | ⟨k, hk, hfail⟩)
      · exact .inl ⟨hnames, hsaved⟩
      · have hanswered := hf k hk
        rw [Nat.zero_add] at hanswered
        exact absurd hanswered hfail
  · refine iff_of_true (.inr (savingOutcome_disturbed hf)) (.inr ?_)
    by_contra hall
    refine hf fun k hk => ?_
    rw [Nat.zero_add]
    by_contra hfail
    exact hall ⟨k, hk, hfail⟩

end Writes

/-- A notice of payment for a ride that is not there is saved. -/
theorem absent_ride_saved : ¬ SavesTogether (fun _ => none) (World.initial [])
    ⟨0, 1, "provider", .settlement, none, none, some 7, none, none, none, none⟩ (some ⟨1, some .paid, none⟩) none 5 := by
  rintro (⟨⟨hride, -⟩, -⟩ | ⟨e, he⟩)
  · obtain ⟨r, hr⟩ := hride _ rfl
    cases hr
  · cases he

end NebLite
