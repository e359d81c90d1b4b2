import NebLite.Atomic.Trace
import NebLite.Client.SignupExclusivity

/-! A signup gives back its locks and its connection wherever it fails, and it leaves one
profile or none. -/

namespace NebLite

open Atomic

/-- The faults that a statement may meet when the cleanup succeeds: a lock query that fails takes no lock,
and a commit that fails commits nothing. -/
def Statement.Admits : Statement → Fault → Prop
  | _, .none => True
  | tryAdvisoryLock _, .refused => True
  | commit, .refused => True
  | startTransaction, .refused => True
  | startTransaction, .answerLost => True
  | findByPhone _ _, .refused => True
  | findByPhone _ _, .answerLost => True
  | insertProfile _ _, .refused => True
  | insertProfile _ _, .answerLost => True
  | _, _ => False

/-- `signupHandle` where the fault depends on the statement. -/
def faultyHandle (env : SignupEnvironment) (fault : ℕ → Statement → Fault) :
    Handler SignupCall SignupCall.Answer ServiceError SignupDatabase
  | .query s st => signupHandle { env with fault := fun n => fault n st } (.query s st)
  | call => signupHandle env call

def SignupCall.isRelease : SignupCall → Bool
  | release _ => true
  | _ => false

/-- The session has an idle connection, which has no open transaction. -/
def SignupDatabase.Idle (db : SignupDatabase) (s : SessionId) : Prop := db.sessions s = ⟨.up, false, .none⟩

/-- What a signup has left behind that began in `db`, used session `s` and made the calls `calls`. -/
structure Hygienic (db : SignupDatabase) (s : SessionId) (role : EClientType) (msisdn : String)
    (outcome : Except ServiceError Client × SignupDatabase) (calls : List SignupCall) : Prop where
  locks : outcome.2.locks = db.locks
  released : calls.filter (·.isRelease) = [.release s]
  idle : outcome.2.Idle s
  ended : (∃ row : ClientProfile, outcome.1 = .ok row.client ∧ row.role = role ∧ row.msisdn = msisdn ∧
      outcome.2.profiles = db.profiles ++ [row]) ∨
    ∃ message, (outcome.1 = .error (.conflict message) ∨ outcome.1 = .error (.internal message)) ∧
      outcome.2.profiles = db.profiles

/-- The signup `p`, run in `db` with the faults, is hygienic. -/
def HygienicSignup (env : SignupEnvironment) (fault : ℕ → Statement → Fault) (db : SignupDatabase) (role : EClientType)
    (msisdn : String) (p : SignupService Client) : Prop :=
  Hygienic db (env.connection db.answered) role msisdn (p.run (faultyHandle env fault) db)
    (p.trace (faultyHandle env fault) db)

section Standing

variable {env : SignupEnvironment} {fault : ℕ → Statement → Fault} {s : SessionId} {db₀ db : SignupDatabase}
  {keys : List String} {added : List ClientProfile} {transaction : Transaction}

/-- In the course of a signup: the keys that session `s` has taken, the rows that it has added, and its
transaction. -/
structure Standing (env : SignupEnvironment) (s : SessionId) (db₀ : SignupDatabase) (keys : List String)
    (added : List ClientProfile) (transaction : Transaction) (db : SignupDatabase) : Prop where
  held : db.locks.held = (keys.reverse.map fun k => (s, env.hashtext k)) ++ db₀.locks.held
  profiles : db.profiles = db₀.profiles ++ added
  session : db.sessions s = ⟨.up, true, transaction⟩

theorem Standing.counted (h : Standing env s db₀ keys added transaction db) :
    Standing env s db₀ keys added transaction { db with answered := db.answered + 1 } :=
  ⟨h.held, h.profiles, h.session⟩

theorem Standing.setTransaction (h : Standing env s db₀ keys added transaction db) (tr : Transaction) :
    Standing env s db₀ keys added tr (db.setTransaction s tr) := by
  have hself : (db.setTransaction s tr).sessions s = { db.sessions s with transaction := tr } :=
    Function.update_self _ _ _
  refine ⟨h.held, h.profiles, ?_⟩
  rw [hself, h.session]

/-- A statement that is refused outside of a transaction changes nothing. -/
theorem Standing.refuse_none (h : Standing env s db₀ keys added .none db) (st : Statement) :
    Standing env s db₀ keys added .none (db.refuse s st) := by
  have hfail : (db.sessions s).transaction.fail = .none := by rw [h.session]; rfl
  have hrefuse : db.refuse s st = db.setTransaction s .none := by
    cases st <;> simp only [SignupDatabase.refuse, hfail]
  rw [hrefuse]
  exact h.setTransaction .none

theorem Standing.execute_insertProfile {rows : List ClientProfile}
    (h : Standing env s db₀ keys added (.running rows) db) (role : EClientType) (columns : ProfileColumns) :
    ∃ (row : ClientProfile) (db' : SignupDatabase), row.role = role ∧ row.msisdn = columns.msisdn ∧
      db.execute env.hashtext s (.insertProfile role columns) = (.ok [row.client], db') ∧
      Standing env s db₀ keys added (.running (rows ++ [row])) db' := by
  have hnumbered : Standing env s db₀ keys added (.running rows)
      { db with nextId := Function.update db.nextId role (db.nextId role + 1) } := ⟨h.held, h.profiles, h.session⟩
  generalize hrow : ClientProfile.mk (db.nextId role) role columns.msisdn .active columns.name columns.driverLicenseNo
    columns.vehicleLicensePlate = row
  refine ⟨row, _, by rw [← hrow], by rw [← hrow], ?_, hnumbered.setTransaction (.running (rows ++ [row]))⟩
  simp only [SignupDatabase.execute, SignupDatabase.perform, SignupDatabase.insertProfile, h.session, hrow, Prod.map, id]

/-- The rule for a statement: what it does when it is executed, refused, or executed without an answer. -/
theorem outcome_query {st : Statement} {Q : st.Answer → SignupDatabase → Prop} {E : ServiceError → SignupDatabase → Prop}
    (hfault : ∀ n (st : Statement), st.Admits (fault n st)) (h : Standing env s db₀ keys added transaction db)
    (hexecuted : match SignupDatabase.execute { db with answered := db.answered + 1 } env.hashtext s st with
      | (.ok a, db') => Q a db'
      | (.error e, db') => E e db')
    (hrefused : st.Admits .refused → ∀ e, E e (SignupDatabase.refuse { db with answered := db.answered + 1 } s st))
    (hlost : st.Admits .answerLost → ∀ e,
      E e (SignupDatabase.execute { db with answered := db.answered + 1 } env.hashtext s st).2) :
    (query s st).Outcome (faultyHandle env fault) db Q E := by
  have hadmits := hfault db.answered st
  have hrun : (query s st).run (faultyHandle env fault) db =
      db.query { env with fault := fun n => fault n st } s st := Program.run_perform _ _ _
  unfold Program.Outcome
  rw [hrun]
  simp only [SignupDatabase.query, h.session]
  cases hf : fault db.answered st with
  | none =>
    simp only
    rcases hrun : SignupDatabase.execute _ env.hashtext s st with ⟨e | a, t⟩ <;> rw [hrun] at hexecuted
    · exact hexecuted
    · exact hexecuted
  | refused => exact hrefused (hf ▸ hadmits) _
  | answerLost => exact hlost (hf ▸ hadmits) _
  | linkLost =>
    rw [hf] at hadmits
    cases st <;> exact hadmits.elim

variable (hfault : ∀ n (st : Statement), st.Admits (fault n st))

include hfault

theorem outcome_tryLock (h : Standing env s db₀ keys added .none db) (lockKey : String) :
    (query s (.tryAdvisoryLock lockKey)).Outcome (faultyHandle env fault) db
      (fun acquired t => Standing env s db₀ (if acquired then keys ++ [lockKey] else keys) added .none t)
      fun _ t => Standing env s db₀ keys added .none t := by
  refine outcome_query hfault h ?_ (fun _ _ => h.counted.refuse_none _) nofun
  simp only [SignupDatabase.execute, h.session, SignupDatabase.perform, Prod.map, id]
  obtain ⟨htrue, hheld⟩ | hfalse := db.locks.tryLock_cases s (env.hashtext lockKey)
  · rw [htrue, if_pos rfl]
    refine ⟨?_, h.profiles, h.session⟩
    rw [hheld, h.held, List.reverse_append]
    rfl
  · rw [hfalse]
    exact h.counted

/-- The locks that the loop has taken are those that it lists. -/
theorem returns_takeSignupLocks (lockKeys : List String) (h : Standing env s db₀ keys added .none db) :
    (takeSignupLocks s keys lockKeys).Returns (faultyHandle env fault) db fun taken t =>
      Standing env s db₀ taken.1 added .none t := by
  induction lockKeys generalizing keys db with
  | nil => exact Program.outcome_ret h
  | cons lockKey lockKeys ih =>
    refine (outcome_tryLock hfault h lockKey).attempt.bind fun r t ht => ?_
    match r with
    | .error e => exact Program.outcome_ret ht
    | .ok false => exact Program.outcome_ret ht
    | .ok true => exact ih ht

theorem outcome_startTransaction (h : Standing env s db₀ keys added .none db) :
    (query s .startTransaction).Outcome (faultyHandle env fault) db
      (fun _ t => Standing env s db₀ keys added (.running []) t)
      fun _ t => ∃ tr, Standing env s db₀ keys added tr t := by
  have hstarted : Standing env s db₀ keys added (.running [])
      (SignupDatabase.execute { db with answered := db.answered + 1 } env.hashtext s .startTransaction).2 := by
    simp only [SignupDatabase.execute, h.session, SignupDatabase.perform, Prod.map, id]
    exact h.counted.setTransaction _
  refine outcome_query hfault h ?_ (fun _ _ => ⟨_, h.counted.refuse_none _⟩) fun _ _ => ⟨_, hstarted⟩
  simp only [SignupDatabase.execute, h.session, SignupDatabase.perform, Prod.map, id] at hstarted ⊢
  exact hstarted

/-- What holds whether a statement is executed or refused. -/
theorem keeps_query {st : Statement} {P : SignupDatabase → Prop} (h : Standing env s db₀ keys added transaction db)
    (hexecuted : P (SignupDatabase.execute { db with answered := db.answered + 1 } env.hashtext s st).2)
    (hrefused : P (SignupDatabase.refuse { db with answered := db.answered + 1 } s st)) :
    (query s st).Outcome (faultyHandle env fault) db (fun _ t => P t) fun _ t => P t := by
  refine outcome_query hfault h ?_ (fun _ _ => hrefused) fun _ _ => hexecuted
  rcases hrun : SignupDatabase.execute _ env.hashtext s st with ⟨e | a, t⟩ <;> rw [hrun] at hexecuted
  · exact hexecuted
  · exact hexecuted

/-- The transaction before the INSERT: nothing has been inserted, or a search has failed. -/
def Searching (env : SignupEnvironment) (s : SessionId) (db₀ : SignupDatabase) (keys : List String)
    (db : SignupDatabase) : Prop :=
  ∃ tr, (tr = .running [] ∨ tr = .failed) ∧ Standing env s db₀ keys [] tr db

theorem keeps_findByPhone (role : EClientType) (msisdn : String) (h : Searching env s db₀ keys db) :
    (query s (.findByPhone role msisdn)).Outcome (faultyHandle env fault) db
      (fun _ t => Searching env s db₀ keys t) fun _ t => Searching env s db₀ keys t := by
  obtain ⟨tr, htr, h⟩ := h
  refine keeps_query hfault h ⟨tr, htr, ?_⟩ ⟨.failed, .inr rfl, ?_⟩
  · have hsame : (SignupDatabase.execute { db with answered := db.answered + 1 } env.hashtext s
        (.findByPhone role msisdn)).2 = { db with answered := db.answered + 1 } := by
      simp only [SignupDatabase.execute, h.session]
      obtain rfl | rfl := htr <;> rfl
    rw [hsame]
    exact h.counted
  · have hfail : (db.sessions s).transaction.fail = .failed := by
      rw [h.session]
      obtain rfl | rfl := htr <;> rfl
    simp only [SignupDatabase.refuse, hfail]
    exact h.counted.setTransaction _

/-- A check before the INSERT that only searches for profiles. -/
def Searches (s : SessionId) (check : SignupService Unit) : Prop :=
  check.Calls fun call => ∃ role msisdn, call = .query s (.findByPhone role msisdn)

theorem keeps_check {check : SignupService Unit} (hcheck : Searches s check) (h : Searching env s db₀ keys db) :
    check.Outcome (faultyHandle env fault) db (fun _ t => Searching env s db₀ keys t)
      fun _ t => Searching env s db₀ keys t := by
  refine Program.Calls.outcome hcheck (fun call hcall t ht => ?_) h
  obtain ⟨role, msisdn, rfl⟩ := hcall
  have hrun := Program.run_perform (faultyHandle env fault) (.query s (.findByPhone role msisdn)) t
  rw [← hrun]
  exact (keeps_findByPhone hfault role msisdn ht).store

/-- One row, of the signup's table and phone number, is in the transaction. -/
theorem outcome_insertReturning (role : EClientType) (columns : ProfileColumns) (failure : String)
    (h : Searching env s db₀ keys db) :
    (insertReturning s role columns failure).Outcome (faultyHandle env fault) db
      (fun client t => ∃ row : ClientProfile, row.client = client ∧ row.role = role ∧ row.msisdn = columns.msisdn ∧
        Standing env s db₀ keys [] (.running [row]) t)
      fun _ t => ∃ tr, Standing env s db₀ keys [] tr t := by
  obtain ⟨tr, htr, h⟩ := h
  have hinsert : (query s (.insertProfile role columns)).Outcome (faultyHandle env fault) db
      (fun rows t => ∃ row : ClientProfile, rows = [row.client] ∧ row.role = role ∧ row.msisdn = columns.msisdn ∧
        Standing env s db₀ keys [] (.running [row]) t)
      fun _ t => ∃ tr, Standing env s db₀ keys [] tr t := by
    obtain rfl | rfl := htr
    · obtain ⟨row, db', hrole, hmsisdn, hrun, hrow⟩ := h.counted.execute_insertProfile role columns
      refine outcome_query hfault h ?_ (fun _ _ => ⟨_, h.counted.setTransaction _⟩) fun _ _ => ?_
      · rw [hrun]
        exact ⟨row, rfl, hrole, hmsisdn, hrow⟩
      · rw [hrun]
        exact ⟨_, hrow⟩
    · refine outcome_query hfault h ?_ (fun _ _ => ⟨_, h.counted.setTransaction _⟩) fun _ _ => ⟨.failed, ?_⟩
      · simp only [SignupDatabase.execute, h.session]
        exact ⟨_, h.counted⟩
      · simp only [SignupDatabase.execute, h.session]
        exact h.counted
  refine hinsert.bind fun rows t ht => ?_
  obtain ⟨row, rfl, hrole, hmsisdn, hstanding⟩ := ht
  exact Program.outcome_ret ⟨row, rfl, hrole, hmsisdn, hstanding⟩

/-- The transaction is ended with its rows added, or it has been refused. -/
theorem outcome_commit {rows : List ClientProfile} (h : Standing env s db₀ keys [] (.running rows) db) :
    (query s .commit).Outcome (faultyHandle env fault) db (fun _ t => Standing env s db₀ keys rows .none t)
      fun _ t => Standing env s db₀ keys [] .none t := by
  refine outcome_query hfault h ?_ (fun _ _ => h.counted.setTransaction .none) nofun
  have hcommitted : Standing env s db₀ keys rows (.running rows)
      { db with profiles := db.profiles ++ rows, answered := db.answered + 1 } := by
    refine ⟨h.held, ?_, h.session⟩
    rw [h.profiles, List.append_nil]
  simp only [SignupDatabase.execute, h.session, SignupDatabase.perform, Transaction.inserted, Prod.map, id]
  exact hcommitted.setTransaction .none

/-- What the work has come to, and whether its transaction is still active. -/
def Worked (env : SignupEnvironment) (s : SessionId) (db₀ : SignupDatabase) (keys : List String) (role : EClientType)
    (msisdn : String) (outcome : Except ServiceError Client × Bool) (db : SignupDatabase) : Prop :=
  match outcome.1 with
  | .ok client => ∃ row : ClientProfile, row.client = client ∧ row.role = role ∧ row.msisdn = msisdn ∧
      Standing env s db₀ keys [row] .none db
  | .error _ => ∃ tr, (outcome.2 = false → tr = .none) ∧ Standing env s db₀ keys [] tr db

theorem returns_workInTransaction (role : EClientType) (columns : ProfileColumns) (failure : String)
    {check : SignupService Unit} (hcheck : Searches s check) (h : Standing env s db₀ keys [] .none db) :
    (workInTransaction s (check >>= fun _ => insertReturning s role columns failure)).Returns (faultyHandle env fault)
      db fun outcome t => Worked env s db₀ keys role columns.msisdn outcome t := by
  have hactive {e : ServiceError} {t : SignupDatabase} (ht : ∃ tr, Standing env s db₀ keys [] tr t) :
      Worked env s db₀ keys role columns.msisdn (.error e, true) t := by
    obtain ⟨tr, ht⟩ := ht
    exact ⟨tr, nofun, ht⟩
  refine (outcome_startTransaction hfault h).attempt.bind fun r t ht => ?_
  match r with
  | .error e => exact Program.outcome_ret (hactive ht)
  | .ok () =>
    have hwork : (check >>= fun _ => insertReturning s role columns failure).Outcome (faultyHandle env fault) t
        (fun client t => ∃ row : ClientProfile, row.client = client ∧ row.role = role ∧ row.msisdn = columns.msisdn ∧
          Standing env s db₀ keys [] (.running [row]) t)
        fun _ t => ∃ tr, Standing env s db₀ keys [] tr t := by
      refine ((keeps_check hfault hcheck ⟨_, .inl rfl, ht⟩).mono (fun _ _ hu => hu) fun e u hu => ?_).bind
        fun _ u hu => outcome_insertReturning hfault role columns failure hu
      obtain ⟨tr, -, hu⟩ := hu
      exact ⟨tr, hu⟩
    refine hwork.attempt.bind fun r t ht => ?_
    match r with
    | .error e => exact Program.outcome_ret (hactive ht)
    | .ok client =>
      obtain ⟨row, hclient, hrole, hmsisdn, ht⟩ := ht
      refine (outcome_commit hfault ht).attempt.bind fun r t ht => ?_
      match r with
      | .error e => exact Program.outcome_ret (hactive ⟨_, ht⟩)
      | .ok () => exact Program.outcome_ret ⟨row, hclient, hrole, hmsisdn, ht⟩

theorem returns_rollbackActive {active : Bool} {tr : Transaction} (htr : active = false → tr = .none)
    (h : Standing env s db₀ keys added tr db) :
    (rollbackActive s active).Returns (faultyHandle env fault) db fun _ t => Standing env s db₀ keys added .none t := by
  cases active with
  | false =>
    obtain rfl := htr rfl
    exact Program.outcome_ret h
  | true =>
    refine outcome_query hfault h ?_ nofun nofun
    simp only [SignupDatabase.execute, h.session]
    cases tr <;> exact h.counted.setTransaction .none

/-- The locks are given back in the reverse of the order in which they were taken. -/
theorem returns_unlockAll (lockKeys : List String) (h : Standing env s db₀ lockKeys.reverse added .none db) :
    (unlockAll s lockKeys).Returns (faultyHandle env fault) db fun _ t => Standing env s db₀ [] added .none t := by
  induction lockKeys generalizing db with
  | nil => exact Program.outcome_ret h
  | cons lockKey lockKeys ih =>
    have hunlock : (query s (.advisoryUnlock lockKey)).Returns (faultyHandle env fault) db
        fun _ t => Standing env s db₀ lockKeys.reverse added .none t := by
      refine outcome_query hfault h ?_ nofun nofun
      simp only [SignupDatabase.execute, h.session, SignupDatabase.perform, Prod.map, id]
      refine ⟨?_, h.profiles, h.session⟩
      have hheld := h.held
      rw [List.reverse_reverse, List.map_cons, List.cons_append] at hheld
      rw [LockTable.unlock_head hheld, List.reverse_reverse]
    exact hunlock.bind fun _ t ht => ih ht

end Standing

section Releases

variable {s : SessionId}

/-- A part of a signup that does not give its connection back. -/
abbrev KeepsConnection {α : Type} (p : SignupService α) : Prop := p.Calls fun call => call.isRelease = false

theorem keepsConnection_query (st : Statement) : KeepsConnection (query s st) := (Program.calls_perform _).mpr rfl

theorem keepsConnection_takeSignupLocks (acquiredLocks lockKeys : List String) :
    KeepsConnection (takeSignupLocks s acquiredLocks lockKeys) := by
  induction lockKeys generalizing acquiredLocks with
  | nil => exact Program.calls_pure _
  | cons lockKey lockKeys ih =>
    refine (keepsConnection_query _).attempt.bind fun r => ?_
    match r with
    | .error e => exact Program.calls_pure _
    | .ok false => exact Program.calls_pure _
    | .ok true => exact ih _

theorem keepsConnection_workInTransaction {α : Type} {work : SignupService α} (hwork : KeepsConnection work) :
    KeepsConnection (workInTransaction s work) := by
  refine (keepsConnection_query _).attempt.bind fun r => ?_
  match r with
  | .error e => exact Program.calls_pure _
  | .ok () =>
    refine hwork.attempt.bind fun r => ?_
    match r with
    | .error e => exact Program.calls_pure _
    | .ok result =>
      refine (keepsConnection_query _).attempt.bind fun r => ?_
      match r with
      | .error e => exact Program.calls_pure _
      | .ok () => exact Program.calls_pure _

theorem keepsConnection_insertReturning (role : EClientType) (columns : ProfileColumns) (failure : String) :
    KeepsConnection (insertReturning s role columns failure) := by
  refine (keepsConnection_query _).bind fun rows => ?_
  cases rows with
  | nil => exact Program.calls_throw _
  | cons client rest => exact Program.calls_pure _

theorem keepsConnection_rollbackActive (active : Bool) : KeepsConnection (rollbackActive s active) := by
  cases active with
  | false => exact Program.calls_pure _
  | true => exact keepsConnection_query _

theorem keepsConnection_unlockAll (lockKeys : List String) : KeepsConnection (unlockAll s lockKeys) := by
  induction lockKeys with
  | nil => exact Program.calls_pure _
  | cons lockKey lockKeys ih => exact (keepsConnection_query _).bind fun _ => ih

theorem keepsConnection_unlessReleased {cleanup : SignupService Unit} (hcleanup : KeepsConnection cleanup) :
    KeepsConnection (unlessReleased s cleanup) := by
  have hcall : KeepsConnection (signupCall (.isReleased s)) := (Program.calls_perform _).mpr rfl
  refine hcall.bind fun released => ?_
  cases released with
  | false => exact hcleanup
  | true => exact Program.calls_pure _

end Releases

section Conclusion

variable {env : SignupEnvironment} {fault : ℕ → Statement → Fault} {s : SessionId} {db₀ db : SignupDatabase}
  {keys : List String} {added : List ClientProfile} {transaction : Transaction}

/-- What a signup has left when it added the rows `added`. -/
structure SignupLeft (s : SessionId) (db₀ : SignupDatabase) (added : List ClientProfile) (db : SignupDatabase) : Prop where
  locks : db.locks = db₀.locks
  profiles : db.profiles = db₀.profiles ++ added
  idle : db.Idle s

variable (fault) in
/-- While the connection is up it does not count as released. -/
theorem run_isReleased (h : Standing env s db₀ keys added transaction db) :
    (signupCall (.isReleased s)).run (faultyHandle env fault) db = (.ok false, { db with answered := db.answered + 1 }) := by
  have hrun : (signupCall (.isReleased s)).run (faultyHandle env fault) db =
      signupHandle env (.isReleased s) db := Program.run_perform _ _ _
  rw [hrun]
  simp [signupHandle, h.session]

variable (fault) in
theorem run_releaseConnection (h : Standing env s db₀ [] added .none db) :
    ∃ db', (unlessReleased s (signupCall (.release s))).run (faultyHandle env fault) db = (.ok (), db') ∧
      SignupLeft s db₀ added db' ∧
      ((unlessReleased s (signupCall (.release s))).trace (faultyHandle env fault) db).filter (·.isRelease) =
        [.release s] := by
  have hcall : KeepsConnection (signupCall (.isReleased s)) := (Program.calls_perform _).mpr rfl
  have hreleased := run_isReleased fault h
  unfold unlessReleased
  rw [Program.run_bind_ok _ hreleased, Program.Calls.filter_trace hcall hreleased]
  refine ⟨_, rfl, ⟨LockTable.ext_held h.held, h.profiles, ?_⟩, rfl⟩
  have hself : (SignupDatabase.setSession { db with answered := db.answered + 1 } s
      { db.sessions s with inUse := false }).sessions s = { db.sessions s with inUse := false } :=
    Function.update_self _ _ _
  exact hself.trans (by rw [h.session])

theorem run_finishSignup (hfault : ∀ n (st : Statement), st.Admits (fault n st))
    (h : Standing env s db₀ keys added .none db) (outcome : Except ServiceError Client) :
    ∃ db', (finishSignup s keys outcome).run (faultyHandle env fault) db = (outcome, db') ∧ SignupLeft s db₀ added db' ∧
      ((finishSignup s keys outcome).trace (faultyHandle env fault) db).filter (·.isRelease) = [.release s] := by
  have hunlocked : (unlessReleased s (unlockAll s keys.reverse)).Returns (faultyHandle env fault) db
      fun _ t => Standing env s db₀ [] added .none t := by
    refine Program.outcome_after (run_isReleased fault h) (returns_unlockAll hfault keys.reverse ?_)
    rw [List.reverse_reverse]
    exact h.counted
  have hkeeps := keepsConnection_unlessReleased (s := s) (keepsConnection_unlockAll (s := s) keys.reverse)
  obtain ⟨unlocked, t, hrun, ht⟩ := hunlocked.exists_run
  have hattempt : (unlessReleased s (unlockAll s keys.reverse)).attempt.run (faultyHandle env fault) db =
      (.ok (.ok unlocked), t) := by rw [Program.run_attempt, hrun]
  obtain ⟨db', hrelease, hleft, htrace⟩ := run_releaseConnection fault ht
  have hlast : ((unlessReleased s (signupCall (.release s)) >>= fun _ => Program.ofExcept outcome).trace
      (faultyHandle env fault) t).filter (·.isRelease) = [.release s] := by
    rw [Program.trace_bind_ok hrelease, List.filter_append, htrace]
    cases outcome <;> rfl
  refine ⟨db', ?_, hleft, ?_⟩
  · unfold finishSignup
    rw [Program.run_bind_ok _ hattempt, Program.run_bind_ok _ hrelease]
    cases outcome <;> rfl
  · unfold finishSignup
    rw [Program.Calls.filter_trace hkeeps.attempt hattempt]
    exact hlast

/-- The translated exception is one of the two that the client sees as such. -/
theorem signupError_cases (fallbackErrorMessage : String) (e : ServiceError) :
    ∃ message, signupError fallbackErrorMessage e = .conflict message ∨
      signupError fallbackErrorMessage e = .internal message := by
  cases e with
  | conflict message => exact ⟨message, .inl rfl⟩
  | _ => exact ⟨_, .inr rfl⟩

/-- What a part does that keeps the connection is no concern of the rest. -/
theorem Hygienic.after {α : Type} {role : EClientType} {msisdn : String} {p : SignupService α}
    {f : α → SignupService Client} {a : α} {t : SignupDatabase} (hkeeps : KeepsConnection p)
    (hrun : p.run (faultyHandle env fault) db = (.ok a, t))
    (h : Hygienic db₀ s role msisdn ((f a).run (faultyHandle env fault) t) ((f a).trace (faultyHandle env fault) t)) :
    Hygienic db₀ s role msisdn ((p >>= f).run (faultyHandle env fault) db)
      ((p >>= f).trace (faultyHandle env fault) db) := by
  rw [Program.run_bind_ok _ hrun]
  exact ⟨h.locks, (Program.Calls.filter_trace hkeeps hrun).trans h.released, h.idle, h.ended⟩

theorem concludeSignup_hygienic (hfault : ∀ n (st : Statement), st.Admits (fault n st)) {role : EClientType}
    {msisdn : String} (fallbackErrorMessage : String) (result : Except ServiceError Client) (active : Bool)
    (h : Worked env s db₀ keys role msisdn (result, active) db) :
    Hygienic db₀ s role msisdn
      ((concludeSignup s fallbackErrorMessage keys result active).run (faultyHandle env fault) db)
      ((concludeSignup s fallbackErrorMessage keys result active).trace (faultyHandle env fault) db) := by
  cases result with
  | ok client =>
    obtain ⟨row, hclient, hrole, hmsisdn, h⟩ := h
    obtain ⟨db', hrun, hleft, htrace⟩ := run_finishSignup hfault h (.ok client)
    unfold concludeSignup
    rw [hrun]
    exact ⟨hleft.locks, htrace, hleft.idle, .inl ⟨row, by rw [hclient], hrole, hmsisdn, hleft.profiles⟩⟩
  | error e =>
    obtain ⟨tr, htr, h⟩ := h
    obtain ⟨_, t, hrun, ht⟩ := (returns_rollbackActive hfault htr h).exists_run
    have hattempt : (rollbackActive s active).attempt.run (faultyHandle env fault) db = (.ok (.ok ()), t) := by
      rw [Program.run_attempt, hrun]
    obtain ⟨db', hfinish, hleft, htrace⟩ := run_finishSignup hfault ht (.error (signupError fallbackErrorMessage e))
    refine Hygienic.after (keepsConnection_rollbackActive active).attempt hattempt ?_
    simp only
    rw [hfinish]
    refine ⟨hleft.locks, htrace, hleft.idle, .inr ?_⟩
    obtain ⟨message, hmessage | hmessage⟩ := signupError_cases fallbackErrorMessage e
    · exact ⟨message, .inl (congrArg _ hmessage), hleft.profiles.trans (List.append_nil _)⟩
    · exact ⟨message, .inr (congrArg _ hmessage), hleft.profiles.trans (List.append_nil _)⟩

variable (fault) in
theorem run_connect {db : SignupDatabase} (hs : env.connection db.answered = s) (hidle : db.Idle s) :
    ∃ db', (signupCall .connect).run (faultyHandle env fault) db = (.ok s, db') ∧ Standing env s db [] [] .none db' := by
  have hrun : (signupCall .connect).run (faultyHandle env fault) db = db.connect env := Program.run_perform _ _ _
  have hfree : (db.sessions s).link = .up ∧ (db.sessions s).inUse = false := by
    rw [hidle]
    exact ⟨rfl, rfl⟩
  rw [hrun]
  simp only [SignupDatabase.connect, hs]
  rw [if_pos hfree]
  refine ⟨_, rfl, rfl, (List.append_nil _).symm, ?_⟩
  have hself := Function.update_self s { db.sessions s with inUse := true } db.sessions
  exact hself.trans (by rw [hidle])

/-- A signup whose check only searches, in either repository. -/
theorem executeWithSignupLock_hygienic (hfault : ∀ n (st : Statement), st.Admits (fault n st)) {db : SignupDatabase}
    (hidle : db.Idle (env.connection db.answered)) (role : EClientType) (columns : ProfileColumns)
    (failure : String) {check : SessionId → SignupService Unit} (hcheck : ∀ s, Searches s (check s)) :
    HygienicSignup env fault db role columns.msisdn (executeWithSignupLock columns.msisdn failure fun s =>
      check s >>= fun _ => insertReturning s role columns failure) := by
  unfold HygienicSignup
  generalize hs : env.connection db.answered = s at hidle
  obtain ⟨db₁, hconnect, hstanding⟩ := run_connect fault hs hidle
  have hattempt : (signupCall .connect).attempt.run (faultyHandle env fault) db = (.ok (.ok s), db₁) := by
    rw [Program.run_attempt, hconnect]
  have hconnects : KeepsConnection (signupCall .connect) := (Program.calls_perform _).mpr rfl
  obtain ⟨⟨keys, refusal⟩, db₂, hlocks, hstanding⟩ :=
    (returns_takeSignupLocks hfault (getSignupLockKeys columns.msisdn) hstanding).exists_run
  refine Hygienic.after hconnects.attempt hattempt ?_
  refine Hygienic.after (keepsConnection_takeSignupLocks [] _) hlocks ?_
  cases refusal with
  | some e =>
    refine Hygienic.after (Program.calls_pure _) rfl ?_
    exact concludeSignup_hygienic hfault failure _ false ⟨.none, fun _ => rfl, hstanding⟩
  | none =>
    have hwork : KeepsConnection (check s >>= fun _ => insertReturning s role columns failure) := by
      refine ((hcheck s).mono ?_).bind fun _ => keepsConnection_insertReturning role columns failure
      rintro call ⟨role, msisdn, rfl⟩
      rfl
    obtain ⟨⟨result, active⟩, db₃, hrun, hworked⟩ :=
      (returns_workInTransaction hfault role columns failure (hcheck s) hstanding).exists_run
    refine Hygienic.after (keepsConnection_workInTransaction hwork) hrun ?_
    exact concludeSignup_hygienic hfault failure result active hworked

theorem ensureMsisdnExclusivity_searches (msisdn : String) (clientType : EClientType) (s : SessionId) :
    Searches s (ensureMsisdnExclusivity s msisdn clientType) := by
  have hsearch (role : EClientType) : (query s (.findByPhone role msisdn)).attempt.Calls
      fun call => ∃ role msisdn, call = .query s (.findByPhone role msisdn) :=
    ((Program.calls_perform _).mpr ⟨role, msisdn, rfl⟩).attempt
  refine (hsearch .rider).bind fun riders => (hsearch .driver).bind fun drivers => ?_
  refine (Program.calls_ofExcept _).bind fun riderProfiles => ?_
  refine (Program.calls_ofExcept _).bind fun driverProfiles => ?_
  cases exclusivityError clientType (!riderProfiles.isEmpty) (!driverProfiles.isEmpty) with
  | some e => exact Program.calls_throw e
  | none => exact Program.calls_pure _

end Conclusion

/-- Both repositories give back every lock and the connection, and leave one profile or none, wherever the
signup fails and whatever the lock keys hash to. -/
theorem signup_hygienic (env : SignupEnvironment) (fault : ℕ → Statement → Fault)
    (hfault : ∀ n (st : Statement), st.Admits (fault n st)) (db : SignupDatabase)
    (hidle : db.Idle (env.connection db.answered)) (msisdn : String)
    (driverLicenseNo vehicleLicensePlate name : Option String) :
    HygienicSignup env fault db .rider msisdn (createRiderProfileWithLock msisdn name fun s =>
        ensureMsisdnExclusivity s msisdn .rider) ∧
      HygienicSignup env fault db .driver msisdn (createDriverProfileWithLock msisdn driverLicenseNo vehicleLicensePlate
        name fun s => ensureMsisdnExclusivity s msisdn .driver) :=
  ⟨executeWithSignupLock_hygienic hfault hidle .rider ⟨msisdn, name, none, none⟩ _
      (ensureMsisdnExclusivity_searches msisdn .rider),
    executeWithSignupLock_hygienic hfault hidle .driver ⟨msisdn, name, driverLicenseNo, vehicleLicensePlate⟩ _
      (ensureMsisdnExclusivity_searches msisdn .driver)⟩

/-- Both lock keys hash to one value, and the answer to the INSERT is lost. -/
def collidingKeys : SignupEnvironment := { SignupEnvironment.faultless with hashtext := fun _ => 0 }

def insertUnanswered : ℕ → Statement → Fault
  | _, .insertProfile _ _ => .answerLost
  | _, _ => .none

theorem insertUnanswered_admitted (n : ℕ) (st : Statement) : st.Admits (insertUnanswered n st) := by
  cases st <;> trivial

theorem signup_hygienic_unanswered :
    HygienicSignup collidingKeys insertUnanswered .empty .rider "+62811"
        (createRiderProfileWithLock "+62811" none fun s => ensureMsisdnExclusivity s "+62811" .rider) ∧
      HygienicSignup collidingKeys insertUnanswered .empty .driver "+62811"
        (createDriverProfileWithLock "+62811" none none none fun s => ensureMsisdnExclusivity s "+62811" .driver) :=
  signup_hygienic collidingKeys insertUnanswered insertUnanswered_admitted .empty rfl "+62811" none none none

example : ((createRiderProfileWithLock "+62811" none fun s => ensureMsisdnExclusivity s "+62811" .rider).run
    (faultyHandle collidingKeys insertUnanswered) .empty).1 =
      .error (.internal "Failed to create rider profile") := by rfl

end NebLite
