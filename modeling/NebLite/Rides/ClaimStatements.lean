import NebLite.Rides.Lifecycle
import NebLite.Atomic.LockOrder

/-! The statements of `claimDriver` one by one, amid all other calls of the ride operations. -/

namespace NebLite

open Atomic

/-- The rows of the rides table under their primary key. -/
def rideRows : Rows Id Ride World where
  get w id := w.rides.find id
  put id ride w := { w with rides := w.rides.put { ride with id } }
  get_put_ne id ride _ _ hk := Table.find_put_ne (r := { ride with id }) hk
  get_put_congr id ride _ _ h := Table.find_put_congr (r := { ride with id }) h

/-- `UPDATE rides SET driver_id = $2 WHERE id = $1 AND driver_id IS NULL`. -/
def setDriver (driverId : Id) (ride : Ride) : Ride :=
  match ride.driverId with
  | none => { ride with driverId := some driverId }
  | some _ => ride

/-- What the UPDATE returns of the row that it has found. -/
def setDriverResult (rideId : Id) : Option Ride → UpdateResult
  | some { driverId := none, .. } => ([rideId], 1)
  | _ => ([], 0)

/-- The checks of the row that was selected, and the UPDATE. -/
def claimSelected (rideId driverId : Id) : Option Ride → RowTransaction Id Ride ServiceError Bool
  | none => throw (.error "Ride not found")
  | some ride =>
    match ride.driverId with
    | some _ => throw (.error "Ride already claimed")
    | none => do
      let updated ← RowTransaction.statement rideId (setDriver driverId)
      return decide (0 < (setDriverResult rideId updated).length)

/-- `RideRepository.claimDriver` between its BEGIN and its COMMIT or ROLLBACK: the SELECT takes
the lock and leaves the row as it is. -/
def claimDriverStatements (rideId driverId : Id) : RowTransaction Id Ride ServiceError Bool := do
  let rideRow ← RowTransaction.statement rideId fun ride => ride
  claimSelected rideId driverId rideRow

theorem put_unchanged {w : World} {id : Id} {ride : Ride} (hr : w.rides.find id = some ride) :
    rideRows.put id ride w = w := by
  have hid : ride.id = id := Table.key_of_find hr
  subst hid
  have hput : w.rides.put ride = w.rides := Table.put_stored hr
  show { w with rides := w.rides.put ride } = w
  rw [hput]

/-- The transaction alone does what the call does. -/
theorem claimDriver_transact (rideId driverId : Id) (w : World) :
    w.claimDriver rideId driverId = rideRows.transact (claimDriverStatements rideId driverId) w := by
  cases hr : w.rides.find rideId with
  | none =>
    have hrun : (claimDriverStatements rideId driverId).run rideRows.alter w = (.error (.error "Ride not found"), w) :=
      Rows.run_alter_none hr
    rw [Rows.transact_error hrun]
    simp only [World.claimDriver, hr]
  | some ride =>
    have hselect : (claimDriverStatements rideId driverId).run rideRows.alter w =
        (claimSelected rideId driverId (some ride)).run rideRows.alter (rideRows.put rideId ride w) :=
      Rows.run_alter_some hr
    rw [put_unchanged hr] at hselect
    cases hd : ride.driverId with
    | some other =>
      have hrun : (claimDriverStatements rideId driverId).run rideRows.alter w =
          (.error (.error "Ride already claimed"), w) := by
        rw [hselect]
        simp only [claimSelected, hd]
        rfl
      rw [Rows.transact_error hrun]
      simp only [World.claimDriver, hr, hd]
    | none =>
      have hset : setDriver driverId ride = { ride with driverId := some driverId } := by
        simp only [setDriver, hd]
      have hupdate : (claimDriverStatements rideId driverId).run rideRows.alter w =
          (.ok true, rideRows.put rideId (setDriver driverId ride) w) := by
        rw [hselect]
        simp only [claimSelected, hd]
        exact Rows.run_alter_some hr
      have hid : ride.id = rideId := Table.key_of_find hr
      subst hid
      rw [Rows.transact_ok hupdate, hset]
      simp only [World.claimDriver, hr, hd]
      rfl

/-- The calls that are carried out as transactions of several statements. -/
def callStatements : ∀ op : Call, Option (RowTransaction Id Ride ServiceError op.Answer)
  | .claimDriver rideId driverId => some (claimDriverStatements rideId driverId)
  | _ => none

theorem callStatements_cases {op : Call} {p : RowTransaction Id Ride ServiceError op.Answer}
    (hop : callStatements op = some p) (P : ∀ op : Call, RowTransaction Id Ride ServiceError op.Answer → Prop)
    (hclaim : ∀ rideId driverId, P (.claimDriver rideId driverId) (claimDriverStatements rideId driverId)) : P op p := by
  cases op with
  | claimDriver rideId driverId =>
    obtain rfl : claimDriverStatements rideId driverId = p := Option.some.inj hop
    exact hclaim rideId driverId
  | _ => cases hop

theorem callStatements_transact (env : Environment) (op : Call) (p : RowTransaction Id Ride ServiceError op.Answer)
    (hop : callStatements op = some p) (w : World) : handle env op w = rideRows.transact p w :=
  callStatements_cases hop (fun op p => handle env op w = rideRows.transact p w)
    fun rideId driverId => claimDriver_transact rideId driverId w

theorem claimSelected_settled (rideId driverId : Id) (ride : Ride) :
    (claimSelected rideId driverId (some ride)).Settled [rideId] := by
  cases hd : ride.driverId with
  | some other =>
    simp only [claimSelected, hd]
    trivial
  | none =>
    simp only [claimSelected, hd]
    exact ⟨.inl List.mem_cons_self, trivial, fun _ => trivial⟩

theorem claimSelected_ascending (rideId driverId : Id) (ride : Ride) :
    (claimSelected rideId driverId (some ride)).Ascending [rideId] := by
  cases hd : ride.driverId with
  | some other =>
    simp only [claimSelected, hd]
    trivial
  | none =>
    simp only [claimSelected, hd]
    exact ⟨.inl List.mem_cons_self, trivial, fun _ => trivial⟩

theorem callStatements_settled (op : Call) (p : RowTransaction Id Ride ServiceError op.Answer)
    (hop : callStatements op = some p) : p.Settled [] :=
  callStatements_cases hop (fun _ p => p.Settled []) fun rideId driverId =>
    ⟨.inr ⟨_, rfl⟩, trivial, claimSelected_settled rideId driverId⟩

theorem callStatements_ascending (op : Call) (p : RowTransaction Id Ride ServiceError op.Answer)
    (hop : callStatements op = some p) : p.Ascending [] :=
  callStatements_cases hop (fun _ p => p.Ascending []) fun rideId driverId =>
    ⟨.inr fun _ hk => absurd hk List.not_mem_nil, trivial, claimSelected_ascending rideId driverId⟩

/-- Ride 1 of rider 5, whom no driver has been assigned to. -/
def unclaimedWorld : World :=
  { World.initial [] with
    rides := Table.empty.insert
      (World.newRide ⟨5, ⟨1, 1⟩, ⟨2, 2⟩, .candidatesComputed, none, none, none, none⟩ 0) fun _ => rfl }

/-- Driver 7 or 8 claims ride 1. -/
def twoClaims (i : Fin 2) : Program Call Call.Answer ServiceError Bool :=
  .perform (Call.claimDriver 1 (if i = 0 then 7 else 8))

/-- Both transactions have begun when driver 7 selects the row; driver 8 gets it when it is committed. -/
theorem twoClaims_reaches : ∃ d, Database.Reaches rideRows callStatements (handle (.around [7, 8]))
      (.start twoClaims unclaimedWorld)
      [(0, none), (1, none), (0, none), (0, none), (0, none), (1, none), (1, none)] d ∧
    (d.procs 0).whole = .ret true ∧ (d.procs 1).whole = .throw (.error "Ride already claimed") := by
  refine ⟨_, .step (.begins rfl rfl) <| .step (.begins rfl rfl) <| .step (.alters rfl rfl ?_) <|
    .step (.alters rfl rfl ?_) <| .step (.commits rfl) <| .step (.alters rfl rfl ?_) <|
    .step (.rollsBack rfl) <| .refl _, rfl, rfl⟩
  · decide
  · decide
  · decide

section Runs

variable {ι α : Type} [DecidableEq ι] {env : Environment} {procs : ι → Program Call Call.Answer ServiceError α}
  {w : World} {ls : List (ι × Option ServiceError)} {d : Database ι Id Ride Call Call.Answer ServiceError α World}

/-- Whatever the statements of claims and the other calls are interleaved with, and whichever of
them fail, what is committed and what every process has been answered is what whole calls
commit and answer in some order, with the same failures. -/
theorem statements_refine_calls
    (hrun : Database.Reaches rideRows callStatements (handle env) (.start procs w) ls d) :
    (∃ calls : List (ι × Option ServiceError), calls.Sublist ls ∧
      d.Matches (calls.foldl (Pool.attempt (handle env)) (.start procs w))) ∧
    ((∀ l ∈ ls, l.2 = none) →
      ∃ sched : List ι, d.Matches ((Pool.start procs w).exec (handle env) sched)) := by
  obtain ⟨-, calls, hcalls, hmatch⟩ := hrun.matched (callStatements_transact env) callStatements_settled
    (Database.orderly_start procs w) (Database.matches_start procs w)
  refine ⟨⟨calls, hcalls, hmatch⟩, fun hanswered => ⟨calls.map Prod.fst, ?_⟩⟩
  rw [Pool.foldl_attempt_answered (handle env) fun l hl => hanswered l (hcalls.subset hl)] at hmatch
  exact hmatch

theorem statements_refine_calls_claims : ∃ (d : Database (Fin 2) Id Ride Call Call.Answer ServiceError Bool World)
    (sched : List (Fin 2)), d.Matches ((Pool.start twoClaims unclaimedWorld).exec (handle (.around [7, 8])) sched) ∧
      (d.procs 0).whole = .ret true ∧ (d.procs 1).whole = .throw (.error "Ride already claimed") := by
  obtain ⟨d, hrun, hfirst, hsecond⟩ := twoClaims_reaches
  obtain ⟨sched, hmatch⟩ := (statements_refine_calls hrun).2 (by decide)
  exact ⟨d, sched, hmatch, hfirst, hsecond⟩

/-- Wherever such a run has led some process can go on, until all have ended, and no run goes on
for ever. -/
theorem statements_end [Finite ι]
    (hrun : Database.Reaches rideRows callStatements (handle env) (.start procs w) ls d) :
    ((∀ i, (d.procs i).Ended) ∨ ∃ i d', Database.Step rideRows callStatements (handle env) d (i, none) d') ∧
    ∀ run : ℕ → Database ι Id Ride Call Call.Answer ServiceError α World,
      ∃ n, ∀ l, ¬ Database.Step rideRows callStatements (handle env) (run n) l (run (n + 1)) := by
  constructor
  · by_cases hended : ∀ i, (d.procs i).Ended
    · exact .inl hended
    · push Not at hended
      obtain ⟨horderly, -⟩ := hrun.matched (callStatements_transact env) callStatements_settled
        (Database.orderly_start procs w) (Database.matches_start procs w)
      exact .inr (Database.exists_step horderly
        (hrun.ascending callStatements_ascending fun _ => trivial) hended)
  · exact Database.no_endless_run

theorem statements_end_claims : ∃ d : Database (Fin 2) Id Ride Call Call.Answer ServiceError Bool World,
    (∀ i, (d.procs i).Ended) ∨
      ∃ i d', Database.Step rideRows callStatements (handle (.around [7, 8])) d (i, none) d' := by
  obtain ⟨d, hrun, -⟩ := twoClaims_reaches
  exact ⟨d, (statements_end hrun).1⟩

end Runs

end NebLite
