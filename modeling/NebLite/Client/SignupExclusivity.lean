import NebLite.Client.Signup

/-! At most one active profile for a phone number, whatever the interleaving of
signups, the failures of their statements and the ends of their sessions. -/

namespace NebLite

open Atomic

/-- The active rows of a phone number. -/
def activeOf (x : String) (rows : List ClientProfile) : List ClientProfile :=
  rows.filter fun p => p.msisdn = x ∧ p.status = .active

@[simp] theorem activeOf_nil (x : String) : activeOf x [] = [] := rfl

@[simp] theorem activeOf_append (x : String) (xs ys : List ClientProfile) :
    activeOf x (xs ++ ys) = activeOf x xs ++ activeOf x ys := List.filter_append xs ys

def driverLockKey (x : String) : String := s!"client_signup_lock:driver_profile:{x}"

def riderLockKey (x : String) : String := s!"client_signup_lock:rider_profile:{x}"

theorem getSignupLockKeys_eq (x : String) : getSignupLockKeys x = [driverLockKey x, riderLockKey x] := rfl

namespace SignupDatabase

variable (db : SignupDatabase)

/-- The committed active profiles of a phone number, of riders and drivers. -/
def activeProfiles (x : String) : List ClientProfile := activeOf x db.profiles

/-- What the open transaction of a session has inserted. -/
def inserted (s : SessionId) : List ClientProfile := (db.sessions s).transaction.inserted

/-- The session holds the first of the signup locks of a phone number. -/
def Holds (hashtext : String → ℤ) (s : SessionId) (x : String) : Prop :=
  (s, hashtext (driverLockKey x)) ∈ db.locks.held

end SignupDatabase

/-- How far a signup has come with the session that it uses. -/
inductive SignupStage where
  | idle
  | locked
  | sawRider
  | checked
  | inserted

inductive SignupPhase where
  | outside
  | on (s : SessionId) (x : String) (stage : SignupStage)

section Claims

variable (hashtext : String → ℤ) (db : SignupDatabase)

/-- What a signup knows while its connection is up. -/
def SignupStage.Knows (s : SessionId) (x : String) : SignupStage → Prop
  | idle => db.inserted s = []
  | locked => db.inserted s = [] ∧ db.Holds hashtext s x
  | sawRider =>
    db.inserted s = [] ∧ db.Holds hashtext s x ∧ ∀ p ∈ db.activeProfiles x, p.role ≠ .rider
  | checked => db.inserted s = [] ∧ db.Holds hashtext s x ∧ db.activeProfiles x = []
  | inserted => True

def SignupPhase.Knows : SignupPhase → Prop
  | outside => True
  | on s x stage =>
    (db.sessions s).inUse = true ∧ ((db.sessions s).link = .up → stage.Knows hashtext db s x)

/-- Rows that a session may commit: for a phone number that it has locked and that
has no active profile, and one at most. -/
def Publishable (s : SessionId) (rows : List ClientProfile) : Prop :=
  ∀ x, activeOf x rows ≠ [] →
    db.Holds hashtext s x ∧ db.activeProfiles x = [] ∧ (activeOf x rows).length ≤ 1

variable {ι : Type}

structure Exclusive (m : String) (labels : ι → SignupPhase) : Prop where
  rows : ∀ s, Publishable hashtext db s (db.inserted s)
  idle : ∀ s, (db.sessions s).inUse = false → (db.sessions s).link = .up → db.inserted s = []
  knows : ∀ i, (labels i).Knows hashtext db
  apart : ∀ i j s x y st st', labels i = .on s x st → labels j = .on s y st' → i = j
  one : (db.activeProfiles m).length ≤ 1

end Claims

/-- What a call does that concerns session `t` only. -/
structure Effect (hashtext : String → ℤ) (t : SessionId) (new : List ClientProfile)
    (db db' : SignupDatabase) : Prop where
  others : ∀ s, s ≠ t → db'.sessions s = db.sessions s
  held : ∀ s k, s ≠ t → (s, k) ∈ db.locks.held → (s, k) ∈ db'.locks.held
  profiles : db'.profiles = db.profiles ++ new
  new : Publishable hashtext db t new
  rows : Publishable hashtext db' t (db'.inserted t)
  idle : (db'.sessions t).inUse = false → (db'.sessions t).link = .up → db'.inserted t = []

section Effect

variable {ι : Type} {hashtext : String → ℤ} {db db' : SignupDatabase} {t : SessionId}
  {new : List ClientProfile} {m : String} {labels labels' : ι → SignupPhase}

/-- No session commits rows of a phone number that another has locked. -/
theorem Effect.activeProfiles_eq (e : Effect hashtext t new db db') {s : SessionId} {x : String}
    (hs : s ≠ t) (hx : db.Holds hashtext s x) : db'.activeProfiles x = db.activeProfiles x := by
  have hnew : activeOf x new = [] := by
    by_contra hne
    obtain ⟨ht, -⟩ := e.new x hne
    exact hs (LockTable.eq_of_held hx ht)
  unfold SignupDatabase.activeProfiles
  rw [e.profiles, activeOf_append, hnew, List.append_nil]

/-- A signup on another session keeps what it knows. -/
theorem Effect.knows (e : Effect hashtext t new db db') {s : SessionId} {x : String}
    {stage : SignupStage} (hs : s ≠ t) (h : (SignupPhase.on s x stage).Knows hashtext db) :
    (SignupPhase.on s x stage).Knows hashtext db' := by
  obtain ⟨huse, hknows⟩ := h
  have hsession := e.others s hs
  have hinserted : db'.inserted s = db.inserted s := by
    unfold SignupDatabase.inserted
    rw [hsession]
  refine ⟨by rw [hsession]; exact huse, fun hup => ?_⟩
  rw [hsession] at hup
  have hk := hknows hup
  cases stage with
  | idle => exact hinserted.trans hk
  | locked => exact ⟨hinserted.trans hk.1, e.held s _ hs hk.2⟩
  | sawRider =>
    refine ⟨hinserted.trans hk.1, e.held s _ hs hk.2.1, ?_⟩
    rw [e.activeProfiles_eq hs hk.2.1]
    exact hk.2.2
  | checked =>
    refine ⟨hinserted.trans hk.1, e.held s _ hs hk.2.1, ?_⟩
    rw [e.activeProfiles_eq hs hk.2.1]
    exact hk.2.2
  | inserted => trivial

/-- The step lemma: an effect on one session, when those on it know what they claim. -/
theorem Exclusive.effect (h : Exclusive hashtext db m labels) (e : Effect hashtext t new db db')
    (hown : ∀ i x stage, labels' i = .on t x stage → (labels' i).Knows hashtext db')
    (hsame : ∀ i s x stage, s ≠ t → labels' i = .on s x stage → labels i = .on s x stage)
    (hapart : ∀ i j x y st st', labels' i = .on t x st → labels' j = .on t y st' → i = j) :
    Exclusive hashtext db' m labels' := by
  constructor
  · intro s
    by_cases hs : s = t
    · rw [hs]
      exact e.rows
    · have hinserted : db'.inserted s = db.inserted s := by
        unfold SignupDatabase.inserted
        rw [e.others s hs]
      rw [hinserted]
      intro x hx
      obtain ⟨hheld, hnone, hlen⟩ := h.rows s x hx
      exact ⟨e.held s _ hs hheld, by rw [e.activeProfiles_eq hs hheld]; exact hnone, hlen⟩
  · intro s
    by_cases hs : s = t
    · rw [hs]
      exact e.idle
    · unfold SignupDatabase.inserted
      rw [e.others s hs]
      exact h.idle s
  · intro i
    cases hi : labels' i with
    | outside => trivial
    | on s x stage =>
      by_cases hs : s = t
      · subst hs
        rw [← hi]
        exact hown i x stage hi
      · have hk := h.knows i
        rw [hsame i s x stage hs hi] at hk
        exact e.knows hs hk
  · intro i j s x y st st' hi hj
    by_cases hs : s = t
    · subst hs
      exact hapart i j x y st st' hi hj
    · exact h.apart i j s x y st st' (hsame i s x st hs hi) (hsame j s y st' hs hj)
  · unfold SignupDatabase.activeProfiles
    rw [e.profiles, activeOf_append, List.length_append]
    by_cases hne : activeOf m new = []
    · rw [hne]
      exact h.one
    · obtain ⟨-, hnone, hlen⟩ := e.new m hne
      have hzero : activeOf m db.profiles = [] := hnone
      rw [hzero]
      simpa using hlen

variable [DecidableEq ι]

/-- A process goes on with the session that it has. -/
theorem Exclusive.own (h : Exclusive hashtext db m labels) (e : Effect hashtext t new db db') {i : ι}
    {x : String} {stage stage' : SignupStage} (hi : labels i = .on t x stage)
    (hknows : (SignupPhase.on t x stage').Knows hashtext db') :
    Exclusive hashtext db' m (Function.update labels i (.on t x stage')) := by
  have hothers (j : ι) (hj : j ≠ i) (y : String) (st : SignupStage) : labels j ≠ .on t y st :=
    fun hjt => hj (h.apart j i t y x st stage hjt hi)
  have hupdate (j : ι) (hj : j ≠ i) : Function.update labels i (.on t x stage') j = labels j :=
    Function.update_of_ne hj _ _
  apply h.effect e
  · intro j y st hj
    by_cases hji : j = i
    · rw [hji, Function.update_self]
      exact hknows
    · rw [hupdate j hji] at hj
      exact absurd hj (hothers j hji y st)
  · intro j s y st hs hj
    by_cases hji : j = i
    · rw [hji, Function.update_self] at hj
      cases hj
      exact absurd rfl hs
    · rwa [hupdate j hji] at hj
  · intro j k y z st st' hj hk
    have hji : j = i := by
      by_contra hji
      rw [hupdate j hji] at hj
      exact hothers j hji y st hj
    have hki : k = i := by
      by_contra hki
      rw [hupdate k hki] at hk
      exact hothers k hki z st' hk
    rw [hji, hki]

/-- A call on session `t` that publishes nothing and frees no lock. -/
structure Calm (t : SessionId) (db db' : SignupDatabase) : Prop where
  others : ∀ s, s ≠ t → db'.sessions s = db.sessions s
  inUse : (db'.sessions t).inUse = (db.sessions t).inUse
  link : (db'.sessions t).link = .up → (db.sessions t).link = .up
  held : ∀ a ∈ db.locks.held, a ∈ db'.locks.held
  profiles : db'.profiles = db.profiles
  inserted : db'.inserted t = db.inserted t ∨ db'.inserted t = []

theorem Calm.effect (c : Calm t db db') (huse : (db.sessions t).inUse = true)
    (hrows : Publishable hashtext db t (db.inserted t)) : Effect hashtext t [] db db' := by
  refine ⟨c.others, fun s k _ hk => c.held _ hk, by rw [c.profiles, List.append_nil], ?_, ?_, ?_⟩
  · intro x hx
    exact absurd rfl hx
  · intro x hx
    rcases c.inserted with hi | hi
    · rw [hi] at hx ⊢
      obtain ⟨hheld, hnone, hlen⟩ := hrows x hx
      refine ⟨c.held _ hheld, ?_, hlen⟩
      unfold SignupDatabase.activeProfiles
      rw [c.profiles]
      exact hnone
    · rw [hi] at hx
      exact absurd rfl hx
  · intro hfree
    rw [c.inUse, huse] at hfree
    cases hfree

theorem Calm.trans {db₁ db₂ db₃ : SignupDatabase} (h : Calm t db₁ db₂) (h' : Calm t db₂ db₃) :
    Calm t db₁ db₃ := by
  refine ⟨fun s hs => (h'.others s hs).trans (h.others s hs), h'.inUse.trans h.inUse,
    fun hup => h.link (h'.link hup), fun a ha => h'.held a (h.held a ha), h'.profiles.trans h.profiles, ?_⟩
  rcases h'.inserted with hi | hi
  · rw [hi]
    exact h.inserted
  · exact .inr hi

theorem calm_counted (t : SessionId) (db : SignupDatabase) (n : ℕ) : Calm t db { db with answered := n } :=
  ⟨fun _ _ => rfl, rfl, id, fun _ ha => ha, rfl, .inl rfl⟩

theorem calm_setSession {session : DatabaseSession} (huse : session.inUse = (db.sessions t).inUse)
    (hlink : session.link = .up → (db.sessions t).link = .up)
    (hrows : session.transaction.inserted = db.inserted t ∨ session.transaction.inserted = []) :
    Calm t db (db.setSession t session) := by
  have hself : (db.setSession t session).sessions t = session := Function.update_self _ _ _
  refine ⟨fun s hs => Function.update_of_ne hs _ _, ?_, ?_, fun _ ha => ha, rfl, ?_⟩
  · rw [hself]
    exact huse
  · rw [hself]
    exact hlink
  · unfold SignupDatabase.inserted at hrows ⊢
    rw [hself]
    exact hrows

theorem calm_setTransaction {tr : Transaction} (h : tr.inserted = db.inserted t ∨ tr.inserted = []) :
    Calm t db (db.setTransaction t tr) := calm_setSession rfl id h

theorem inserted_setTransaction (t : SessionId) (db : SignupDatabase) (tr : Transaction) :
    (db.setTransaction t tr).inserted t = tr.inserted := by
  have hself : (db.setTransaction t tr).sessions t = { db.sessions t with transaction := tr } :=
    Function.update_self _ _ _
  unfold SignupDatabase.inserted
  rw [hself]

/-- A refused statement leaves nothing behind in its transaction. -/
theorem calm_refuse (t : SessionId) (db : SignupDatabase) (st : Statement) : Calm t db (db.refuse t st) := by
  have hfail : (db.sessions t).transaction.fail.inserted = [] := by
    cases (db.sessions t).transaction <;> rfl
  cases st with
  | commit | rollback => exact calm_setTransaction (.inr rfl)
  | _ => exact calm_setTransaction (.inr hfail)

/-- Statements that publish nothing and free no lock. -/
def Statement.Calm : Statement → Prop
  | insertProfile _ _ | commit | advisoryUnlock _ => False
  | _ => True

theorem calm_perform {st : Statement} (h : st.Calm) : Calm t db (db.perform hashtext t st).2 := by
  cases st with
  | tryAdvisoryLock lockKey =>
    exact ⟨fun _ _ => rfl, rfl, id, fun _ ha => LockTable.held_tryLock ha, rfl, .inl rfl⟩
  | startTransaction =>
    unfold SignupDatabase.perform
    split
    · exact calm_setTransaction (.inr rfl)
    · exact ⟨fun _ _ => rfl, rfl, id, fun _ ha => ha, rfl, .inl rfl⟩
  | findByPhone => exact ⟨fun _ _ => rfl, rfl, id, fun _ ha => ha, rfl, .inl rfl⟩
  | rollback => exact calm_setTransaction (.inr rfl)
  | insertProfile | commit | advisoryUnlock => exact h.elim

/-- What is executed is performed, outside of an aborted transaction. -/
theorem execute_cases (hashtext : String → ℤ) (t : SessionId) (db : SignupDatabase) (st : Statement) :
    db.execute hashtext t st = (.ok (db.perform hashtext t st).1, (db.perform hashtext t st).2) ∨
    (db.sessions t).transaction = .failed ∧
      ((st ≠ .commit ∧ st ≠ .rollback) ∧ (db.execute hashtext t st).2 = db ∧
          (∃ e, (db.execute hashtext t st).1 = .error e) ∨
        (st = .commit ∨ st = .rollback) ∧ (db.execute hashtext t st).2 = db.setTransaction t .none) := by
  cases htr : (db.sessions t).transaction with
  | none | running rows =>
    apply Or.inl
    simp only [SignupDatabase.execute, htr]
    rfl
  | failed =>
    apply Or.inr
    refine ⟨rfl, ?_⟩
    cases st with
    | commit => exact .inr ⟨.inl rfl, by simp [SignupDatabase.execute, htr]⟩
    | rollback => exact .inr ⟨.inr rfl, by simp [SignupDatabase.execute, htr]⟩
    | _ => exact .inl (by simp [SignupDatabase.execute, htr])

/-- All that a statement can do. -/
theorem query_cases (env : SignupEnvironment) (t : SessionId) (db : SignupDatabase) (st : Statement) :
    (∃ e, (db.query env t st).1 = .error e) ∧
      (db.query env t st).2 = { db with answered := db.answered + 1 } ∧ (db.sessions t).link ≠ .up ∨
    (∃ e, (db.query env t st).1 = .error e) ∧ (db.query env t st).2 =
      { db with answered := db.answered + 1 }.setSession t { db.sessions t with link := .lost } ∨
    (∃ e, (db.query env t st).1 = .error e) ∧
      (db.query env t st).2 = { db with answered := db.answered + 1 }.refuse t st ∨
    (db.sessions t).link = .up ∧
      (db.query env t st).2 = ({ db with answered := db.answered + 1 }.execute env.hashtext t st).2 ∧
      ∀ a, (db.query env t st).1 = .ok a →
        ({ db with answered := db.answered + 1 }.execute env.hashtext t st).1 = .ok a := by
  cases hlink : (db.sessions t).link with
  | up =>
    cases hfault : env.fault db.answered with
    | none =>
      apply Or.inr (Or.inr (Or.inr _))
      simp only [SignupDatabase.query, hlink, hfault]
      exact ⟨trivial, trivial, fun _ ha => ha⟩
    | refused =>
      apply Or.inr (Or.inr (Or.inl _))
      simp [SignupDatabase.query, hlink, hfault]
    | answerLost =>
      apply Or.inr (Or.inr (Or.inr _))
      simp [SignupDatabase.query, hlink, hfault]
    | linkLost =>
      apply Or.inr (Or.inl _)
      simp [SignupDatabase.query, hlink, hfault]
  | lost => exact .inl (by simp [SignupDatabase.query, hlink])
  | ended => exact .inl (by simp [SignupDatabase.query, hlink])

theorem calm_lost (t : SessionId) (db : SignupDatabase) :
    Calm t db (db.setSession t { db.sessions t with link := .lost }) :=
  calm_setSession rfl (fun h => nomatch h) (.inl rfl)

theorem calm_query {env : SignupEnvironment} {st : Statement} (h : st.Calm) :
    Calm t db (db.query env t st).2 := by
  have hcount := calm_counted t db (db.answered + 1)
  obtain ⟨-, hs, -⟩ | ⟨-, hs⟩ | ⟨-, hs⟩ | ⟨-, hs, -⟩ := query_cases env t db st
  · rw [hs]
    exact hcount
  · rw [hs]
    exact hcount.trans (calm_lost t _)
  · rw [hs]
    exact hcount.trans (calm_refuse t _ st)
  · rw [hs]
    apply hcount.trans
    obtain he | ⟨-, ⟨-, he, -⟩ | ⟨-, he⟩⟩ := execute_cases env.hashtext t _ st
    · rw [he]
      exact calm_perform h
    · rw [he]
      exact calm_counted t _ _
    · rw [he]
      exact calm_setTransaction (.inr rfl)

/-- What a signup knows is not changed by such a call. -/
theorem Calm.knows (c : Calm t db db') {x : String} {stage : SignupStage}
    (h : (SignupPhase.on t x stage).Knows hashtext db) : (SignupPhase.on t x stage).Knows hashtext db' := by
  obtain ⟨huse, hknows⟩ := h
  refine ⟨by rw [c.inUse]; exact huse, fun hup => ?_⟩
  have hk := hknows (c.link hup)
  have hempty (h : db.inserted t = []) : db'.inserted t = [] := by
    rcases c.inserted with hi | hi
    · rw [hi]
      exact h
    · exact hi
  have hactive : db'.activeProfiles x = db.activeProfiles x := by
    unfold SignupDatabase.activeProfiles
    rw [c.profiles]
  cases stage with
  | idle => exact hempty hk
  | locked => exact ⟨hempty hk.1, c.held _ hk.2⟩
  | sawRider => exact ⟨hempty hk.1, c.held _ hk.2.1, by rw [hactive]; exact hk.2.2⟩
  | checked => exact ⟨hempty hk.1, c.held _ hk.2.1, by rw [hactive]; exact hk.2.2⟩
  | inserted => trivial

/-- An answer comes from a statement that was performed, or that ended an aborted transaction. -/
theorem query_ok {env : SignupEnvironment} {st : Statement} {a : st.Answer}
    (h : (db.query env t st).1 = .ok a) (hst : st ≠ .commit ∧ st ≠ .rollback) :
    (db.sessions t).link = .up ∧
      a = ({ db with answered := db.answered + 1 }.perform env.hashtext t st).1 ∧
      (db.query env t st).2 = ({ db with answered := db.answered + 1 }.perform env.hashtext t st).2 := by
  obtain ⟨⟨e, he⟩, -⟩ | ⟨⟨e, he⟩, -⟩ | ⟨⟨e, he⟩, -⟩ | ⟨hup, hs, ha⟩ := query_cases env t db st
  · cases h.symm.trans he
  · cases h.symm.trans he
  · cases h.symm.trans he
  · have hok := ha a h
    obtain hp | ⟨-, ⟨-, -, e, he⟩ | ⟨hend, -⟩⟩ := execute_cases env.hashtext t
      { db with answered := db.answered + 1 } st
    · rw [hp] at hok hs
      exact ⟨hup, (Except.ok.inj hok).symm, hs⟩
    · cases hok.symm.trans he
    · rcases hend with rfl | rfl
      · exact absurd rfl hst.1
      · exact absurd rfl hst.2

/-- The first lock has been acquired. -/
theorem knows_locked {env : SignupEnvironment} {x : String}
    (h : (SignupPhase.on t x .idle).Knows env.hashtext db)
    (hok : (db.query env t (.tryAdvisoryLock (driverLockKey x))).1 = .ok true) :
    (SignupPhase.on t x .locked).Knows env.hashtext
      (db.query env t (.tryAdvisoryLock (driverLockKey x))).2 := by
  have hcalm : Calm t db (db.query env t (.tryAdvisoryLock (driverLockKey x))).2 := calm_query trivial
  obtain ⟨huse, hidle⟩ := hcalm.knows h
  refine ⟨huse, fun hup => ⟨hidle hup, ?_⟩⟩
  obtain ⟨-, ha, hs⟩ := query_ok hok ⟨by simp, by simp⟩
  have hheld : (db.locks.tryLock t (env.hashtext (driverLockKey x))).1 = true := ha.symm
  unfold SignupDatabase.Holds
  rw [hs]
  exact LockTable.held_of_tryLock hheld

/-- An empty answer to a search tells that the table has no active row of the number. -/
theorem query_find {env : SignupEnvironment} {role : EClientType} {x : String}
    (hok : (db.query env t (.findByPhone role x)).1 = .ok []) :
    ∀ p ∈ db.activeProfiles x, p.role ≠ role := by
  intro p hp hrole
  obtain ⟨-, ha, -⟩ := query_ok hok ⟨by simp, by simp⟩
  have hnone : db.findByPhone t role x = [] := ha.symm
  unfold SignupDatabase.findByPhone at hnone
  rw [List.map_eq_nil_iff, List.filter_eq_nil_iff] at hnone
  obtain ⟨hmem, hactive⟩ := List.mem_filter.mp hp
  have hnot := hnone p (List.mem_append_left _ hmem)
  simp only [decide_eq_true_eq] at hactive hnot
  exact hnot ⟨hrole, hactive⟩

theorem knows_sawRider {env : SignupEnvironment} {x : String}
    (h : (SignupPhase.on t x .locked).Knows env.hashtext db)
    (hok : (db.query env t (.findByPhone .rider x)).1 = .ok []) :
    (SignupPhase.on t x .sawRider).Knows env.hashtext (db.query env t (.findByPhone .rider x)).2 := by
  have hcalm : Calm t db (db.query env t (.findByPhone .rider x)).2 := calm_query trivial
  obtain ⟨huse, hknows⟩ := hcalm.knows h
  refine ⟨huse, fun hup => ⟨(hknows hup).1, (hknows hup).2, ?_⟩⟩
  unfold SignupDatabase.activeProfiles
  rw [hcalm.profiles]
  exact query_find hok

theorem knows_checked {env : SignupEnvironment} {x : String}
    (h : (SignupPhase.on t x .sawRider).Knows env.hashtext db)
    (hok : (db.query env t (.findByPhone .driver x)).1 = .ok []) :
    (SignupPhase.on t x .checked).Knows env.hashtext (db.query env t (.findByPhone .driver x)).2 := by
  have hcalm : Calm t db (db.query env t (.findByPhone .driver x)).2 := calm_query trivial
  obtain ⟨huse, hknows⟩ := hcalm.knows h
  refine ⟨huse, fun hup => ⟨(hknows hup).1, (hknows hup).2.1, ?_⟩⟩
  apply List.eq_nil_iff_forall_not_mem.mpr
  intro p hp
  have hrider : p.role ≠ .rider := (hknows hup).2.2 p hp
  unfold SignupDatabase.activeProfiles at hp
  rw [hcalm.profiles] at hp
  have hdriver : p.role ≠ .driver := query_find hok p hp
  cases hr : p.role with
  | rider => exact hrider hr
  | driver => exact hdriver hr

/-- The end of a transaction publishes what it has inserted, or nothing. -/
theorem effect_finish {env : SignupEnvironment} {st : Statement} (hst : st = .commit ∨ st = .rollback)
    (huse : (db.sessions t).inUse = true) (hrows : Publishable env.hashtext db t (db.inserted t)) :
    (∃ new, Effect env.hashtext t new db (db.query env t st).2) ∧
      ((db.query env t st).2.sessions t).inUse = true ∧
      (((db.query env t st).2.sessions t).link = .up → (db.query env t st).2.inserted t = []) := by
  have hcount := calm_counted t db (db.answered + 1)
  have hcalm {db' : SignupDatabase} (c : Calm t db db')
      (hempty : (db'.sessions t).link = .up → db'.inserted t = []) :
      (∃ new, Effect env.hashtext t new db db') ∧ (db'.sessions t).inUse = true ∧
        ((db'.sessions t).link = .up → db'.inserted t = []) :=
    ⟨⟨[], c.effect huse hrows⟩, c.inUse.trans huse, hempty⟩
  have hnone (db' : SignupDatabase) : (db'.setTransaction t .none).inserted t = [] :=
    inserted_setTransaction t db' .none
  have hend (db' : SignupDatabase) : Calm t db' (db'.setTransaction t .none) := calm_setTransaction (.inr rfl)
  obtain ⟨-, hs, hdown⟩ | ⟨-, hs⟩ | ⟨-, hs⟩ | ⟨-, hs, -⟩ := query_cases env t db st
  · rw [hs]
    exact hcalm hcount fun hup => absurd hup hdown
  · rw [hs]
    apply hcalm (hcount.trans (calm_lost t _))
    intro hup
    simp [SignupDatabase.setSession] at hup
  · have hr : ({ db with answered := db.answered + 1 } : SignupDatabase).refuse t st =
        ({ db with answered := db.answered + 1 } : SignupDatabase).setTransaction t .none := by
      rcases hst with rfl | rfl <;> rfl
    rw [hs, hr]
    exact hcalm (hcount.trans (hend _)) fun _ => hnone _
  · rw [hs]
    obtain he | ⟨-, ⟨hne, -⟩ | ⟨-, he⟩⟩ := execute_cases env.hashtext t
      { db with answered := db.answered + 1 } st
    · rw [he]
      rcases hst with rfl | rfl
      · have hself : ((({ db with answered := db.answered + 1 } : SignupDatabase).perform env.hashtext t
            .commit).2.sessions t) = { db.sessions t with transaction := .none } := Function.update_self _ _ _
        have hempty : (({ db with answered := db.answered + 1 } : SignupDatabase).perform env.hashtext t
            .commit).2.inserted t = [] := hnone _
        refine ⟨⟨db.inserted t, ?_⟩, by rw [hself]; exact huse, fun _ => hempty⟩
        refine ⟨fun s hs => Function.update_of_ne hs _ _, fun _ _ _ hk => hk, rfl, hrows, ?_, fun _ _ => hempty⟩
        rw [hempty]
        exact fun x hx => absurd rfl hx
      · exact hcalm (hcount.trans (hend _)) fun _ => hnone _
    · rcases hst with rfl | rfl
      · exact absurd rfl hne.1
      · exact absurd rfl hne.2
    · rw [he]
      exact hcalm (hcount.trans (hend _)) fun _ => hnone _

/-- After both searches a row may be inserted. -/
theorem effect_insert {env : SignupEnvironment} (role : EClientType) {columns : ProfileColumns}
    (h : (SignupPhase.on t columns.msisdn .checked).Knows env.hashtext db)
    (hrows : Publishable env.hashtext db t (db.inserted t)) :
    (∃ new, Effect env.hashtext t new db (db.query env t (.insertProfile role columns)).2) ∧
      ((db.query env t (.insertProfile role columns)).2.sessions t).inUse = true := by
  obtain ⟨huse, hknows⟩ := h
  have hcount := calm_counted t db (db.answered + 1)
  have hcalm {db' : SignupDatabase} (c : Calm t db db') :
      (∃ new, Effect env.hashtext t new db db') ∧ (db'.sessions t).inUse = true :=
    ⟨⟨[], c.effect huse hrows⟩, c.inUse.trans huse⟩
  obtain ⟨-, hs, -⟩ | ⟨-, hs⟩ | ⟨-, hs⟩ | ⟨hup, hs, -⟩ :=
    query_cases env t db (.insertProfile role columns)
  · rw [hs]
    exact hcalm hcount
  · rw [hs]
    exact hcalm (hcount.trans (calm_lost t _))
  · rw [hs]
    exact hcalm (hcount.trans (calm_refuse t _ _))
  · rw [hs]
    obtain he | ⟨-, ⟨-, he, -⟩ | ⟨hend, -⟩⟩ := execute_cases env.hashtext t
      { db with answered := db.answered + 1 } (.insertProfile role columns)
    · rw [he]
      obtain ⟨hempty, hheld, hnone⟩ := hknows hup
      let row : ClientProfile :=
        { id := db.nextId role, role, msisdn := columns.msisdn, status := .active, name := columns.name
          driverLicenseNo := columns.driverLicenseNo, vehicleLicensePlate := columns.vehicleLicensePlate }
      have hone : Publishable env.hashtext db t [row] := by
        intro x hx
        have hmsisdn : columns.msisdn = x := by
          by_contra hne
          exact hx (by simp [activeOf, row, hne])
        subst hmsisdn
        exact ⟨hheld, hnone, List.length_filter_le _ _⟩
      unfold SignupDatabase.perform SignupDatabase.insertProfile
      dsimp only
      split
      · rename_i rows htr
        have hzero : rows = [] := by
          unfold SignupDatabase.inserted at hempty
          rw [htr] at hempty
          exact hempty
        subst hzero
        refine ⟨⟨[], fun s hs => Function.update_of_ne hs _ _, fun _ _ _ hk => hk, ?_, ?_, ?_, ?_⟩, ?_⟩
        · exact (List.append_nil _).symm
        · exact fun x hx => absurd rfl hx
        · rw [inserted_setTransaction]
          exact hone
        · intro hfree
          simp [SignupDatabase.setTransaction, SignupDatabase.setSession, huse] at hfree
        · simp [SignupDatabase.setTransaction, SignupDatabase.setSession, huse]
      · refine ⟨⟨[row], fun s hs => rfl, fun _ _ _ hk => hk, rfl, hone, ?_, ?_⟩, huse⟩
        · intro x hx
          have hi : db.inserted t = [] := hempty
          exact absurd (by exact congrArg (activeOf x) hi) hx
        · intro hfree
          have hu : (db.sessions t).inUse = false := hfree
          rw [huse] at hu
          cases hu
    · rw [he]
      exact hcalm hcount
    · rcases hend with hend | hend <;> cases hend

/-- A lock is only given back while the session has no inserted rows. -/
theorem effect_unlock {env : SignupEnvironment} {x : String} (lockKey : String)
    (h : (SignupPhase.on t x .idle).Knows env.hashtext db)
    (hrows : Publishable env.hashtext db t (db.inserted t)) :
    Effect env.hashtext t [] db (db.query env t (.advisoryUnlock lockKey)).2 ∧
      (SignupPhase.on t x .idle).Knows env.hashtext (db.query env t (.advisoryUnlock lockKey)).2 := by
  obtain ⟨huse, hknows⟩ := h
  have hcount := calm_counted t db (db.answered + 1)
  have hcalm {db' : SignupDatabase} (c : Calm t db db') : Effect env.hashtext t [] db db' ∧
      (SignupPhase.on t x .idle).Knows env.hashtext db' := ⟨c.effect huse hrows, c.knows ⟨huse, hknows⟩⟩
  obtain ⟨-, hs, -⟩ | ⟨-, hs⟩ | ⟨-, hs⟩ | ⟨hup, hs, -⟩ := query_cases env t db (.advisoryUnlock lockKey)
  · rw [hs]
    exact hcalm hcount
  · rw [hs]
    exact hcalm (hcount.trans (calm_lost t _))
  · rw [hs]
    exact hcalm (hcount.trans (calm_refuse t _ _))
  · rw [hs]
    obtain he | ⟨-, ⟨-, he, -⟩ | ⟨hend, -⟩⟩ := execute_cases env.hashtext t
      { db with answered := db.answered + 1 } (.advisoryUnlock lockKey)
    · rw [he]
      have hempty : db.inserted t = [] := hknows hup
      refine ⟨⟨fun _ _ => rfl, fun s k hs hk => LockTable.held_unlock hk hs, ?_, ?_, ?_, ?_⟩, huse, hknows⟩
      · exact (List.append_nil _).symm
      · exact fun y hy => absurd rfl hy
      · intro y hy
        exact absurd (congrArg (activeOf y) hempty) hy
      · exact fun _ _ => hempty
    · rw [he]
      exact hcalm hcount
    · rcases hend with hend | hend <;> cases hend

theorem connect_cases (env : SignupEnvironment) (db : SignupDatabase) :
    (∃ e, db.connect env = (.error e, { db with answered := db.answered + 1 })) ∨
    ∃ s, (db.sessions s).link = .up ∧ (db.sessions s).inUse = false ∧ db.connect env =
      (.ok s, { db with answered := db.answered + 1 }.setSession s { db.sessions s with inUse := true }) := by
  by_cases h : (db.sessions (env.connection db.answered)).link = .up ∧
      (db.sessions (env.connection db.answered)).inUse = false
  · exact .inr ⟨env.connection db.answered, h.1, h.2, by simp [SignupDatabase.connect, h]⟩
  · exact .inl ⟨_, by simp only [SignupDatabase.connect, if_neg h]; rfl⟩

/-- The effect of a change of `inUse`. -/
theorem effect_inUse {inUse : Bool} (hrows : Publishable hashtext db t (db.inserted t))
    (hidle : inUse = false → (db.sessions t).link = .up → db.inserted t = []) :
    Effect hashtext t [] db (db.setSession t { db.sessions t with inUse }) := by
  have hself : (db.setSession t { db.sessions t with inUse }).sessions t = { db.sessions t with inUse } :=
    Function.update_self _ _ _
  have hinserted : (db.setSession t { db.sessions t with inUse }).inserted t = db.inserted t := by
    unfold SignupDatabase.inserted
    rw [hself]
  refine ⟨fun s hs => Function.update_of_ne hs _ _, fun _ _ _ hk => hk, (List.append_nil _).symm,
    fun x hx => absurd rfl hx, ?_, ?_⟩
  · rw [hinserted]
    exact hrows
  · rw [hself, hinserted]
    exact hidle

theorem effect_endSession : Effect hashtext t [] db (db.endSession t) := by
  have hself : (db.endSession t).sessions t = { db.sessions t with link := .ended, transaction := .none } :=
    Function.update_self _ _ _
  have hinserted : (db.endSession t).inserted t = [] := by
    unfold SignupDatabase.inserted
    rw [hself]
    rfl
  refine ⟨fun s hs => Function.update_of_ne hs _ _, fun s k hs hk => LockTable.held_release hk hs,
    (List.append_nil _).symm, fun x hx => absurd rfl hx, ?_, fun _ _ => hinserted⟩
  rw [hinserted]
  exact fun x hx => absurd rfl hx

end Effect

/-- The calls of a signup in each phase, and the phase after them. -/
inductive SignupMove (env : SignupEnvironment) (db : SignupDatabase) :
    SignupPhase → SignupCall → SignupPhase → Prop
  | encrypt {l value} : SignupMove env db l (.encrypt value) l
  | isReleased {l s} : SignupMove env db l (.isReleased s) l
  | endSession {l s} : SignupMove env db l (.endSession s) l
  | connect {s x} : (db.connect env).1 = .ok s → SignupMove env db .outside .connect (.on s x .idle)
  | refused {e} : (db.connect env).1 = .error e → SignupMove env db .outside .connect .outside
  | calm {s x stage st} : st.Calm → SignupMove env db (.on s x stage) (.query s st) (.on s x stage)
  | lock {s x} : (db.query env s (.tryAdvisoryLock (driverLockKey x))).1 = .ok true →
      SignupMove env db (.on s x .idle) (.query s (.tryAdvisoryLock (driverLockKey x))) (.on s x .locked)
  | sawRider {s x} : (db.query env s (.findByPhone .rider x)).1 = .ok [] →
      SignupMove env db (.on s x .locked) (.query s (.findByPhone .rider x)) (.on s x .sawRider)
  | sawDriver {s x} : (db.query env s (.findByPhone .driver x)).1 = .ok [] →
      SignupMove env db (.on s x .sawRider) (.query s (.findByPhone .driver x)) (.on s x .checked)
  | insert {s role columns} : SignupMove env db (.on s columns.msisdn .checked)
      (.query s (.insertProfile role columns)) (.on s columns.msisdn .inserted)
  | finish {s x stage st} : st = .commit ∨ st = .rollback →
      SignupMove env db (.on s x stage) (.query s st) (.on s x .idle)
  | unlock {s x stage lockKey} : stage = .idle ∨ stage = .locked →
      SignupMove env db (.on s x stage) (.query s (.advisoryUnlock lockKey)) (.on s x .idle)
  | release {s x stage} : stage = .idle ∨ stage = .locked →
      SignupMove env db (.on s x stage) (.release s) .outside

def signupOutline (env : SignupEnvironment) : Outline SignupPhase SignupCall SignupDatabase where
  pre _ _ := True
  move l c db l' := SignupMove env db l c l'

/-- With a lock or without one, nothing has been inserted. -/
theorem SignupPhase.Knows.idle {hashtext : String → ℤ} {db : SignupDatabase} {s : SessionId} {x : String}
    {stage : SignupStage} (h : (SignupPhase.on s x stage).Knows hashtext db)
    (hstage : stage = .idle ∨ stage = .locked) : (SignupPhase.on s x .idle).Knows hashtext db := by
  rcases hstage with rfl | rfl
  · exact h
  · exact ⟨h.1, fun hup => (h.2 hup).1⟩

section Step

variable {ι : Type} {hashtext : String → ℤ} {m : String} {labels : ι → SignupPhase} {db : SignupDatabase}

/-- The number of answers is of no concern. -/
theorem Exclusive.counted (h : Exclusive hashtext db m labels) (n : ℕ) :
    Exclusive hashtext { db with answered := n } m labels :=
  ⟨h.rows, h.idle, h.knows, h.apart, h.one⟩

variable [DecidableEq ι]

/-- A process takes a session that nobody uses. -/
theorem Exclusive.enter (h : Exclusive hashtext db m labels) (i : ι) {s : SessionId} (x : String)
    (hup : (db.sessions s).link = .up) (hfree : (db.sessions s).inUse = false) :
    Exclusive hashtext (db.setSession s { db.sessions s with inUse := true }) m
      (Function.update labels i (.on s x .idle)) := by
  have hempty : db.inserted s = [] := h.idle s hfree hup
  have hnobody (j : ι) (y : String) (st : SignupStage) : labels j ≠ .on s y st := by
    intro hj
    have hk := h.knows j
    rw [hj] at hk
    have huse : (db.sessions s).inUse = true := hk.1
    rw [hfree] at huse
    cases huse
  have hupdate (j : ι) (hj : j ≠ i) : Function.update labels i (.on s x .idle) j = labels j :=
    Function.update_of_ne hj _ _
  apply h.effect (effect_inUse (h.rows s) fun _ _ => hempty)
  · intro j y st hj
    have hji : j = i := by
      by_contra hji
      rw [hupdate j hji] at hj
      exact hnobody j y st hj
    rw [hji, Function.update_self]
    refine ⟨by simp [SignupDatabase.setSession], fun _ => ?_⟩
    have hself : (db.setSession s { db.sessions s with inUse := true }).inserted s = db.inserted s := by
      simp [SignupDatabase.inserted, SignupDatabase.setSession]
    exact hself.trans hempty
  · intro j u y st hu hj
    by_cases hji : j = i
    · rw [hji, Function.update_self] at hj
      cases hj
      exact absurd rfl hu
    · rwa [hupdate j hji] at hj
  · intro j k y z st st' hj hk
    have hji : j = i := by
      by_contra hji
      rw [hupdate j hji] at hj
      exact hnobody j y st hj
    have hki : k = i := by
      by_contra hki
      rw [hupdate k hki] at hk
      exact hnobody k z st' hk
    rw [hji, hki]

/-- A process gives back the session that it has used. -/
theorem Exclusive.leave (h : Exclusive hashtext db m labels) {i : ι} {s : SessionId} {x : String}
    {stage : SignupStage} (hi : labels i = .on s x stage)
    (hempty : (db.sessions s).link = .up → db.inserted s = []) :
    Exclusive hashtext (db.setSession s { db.sessions s with inUse := false }) m
      (Function.update labels i .outside) := by
  have hnobody (j : ι) (y : String) (st : SignupStage) :
      Function.update labels i .outside j ≠ .on s y st := by
    intro hj
    by_cases hji : j = i
    · rw [hji, Function.update_self] at hj
      cases hj
    · rw [Function.update_of_ne hji] at hj
      exact hji (h.apart j i s y x st stage hj hi)
  apply h.effect (effect_inUse (h.rows s) fun _ => hempty)
  · exact fun j y st hj => absurd hj (hnobody j y st)
  · intro j u y st _ hj
    by_cases hji : j = i
    · rw [hji, Function.update_self] at hj
      cases hj
    · rwa [Function.update_of_ne hji] at hj
  · exact fun j _ y _ st _ hj _ => absurd hj (hnobody j y st)

/-- Every move keeps the profiles exclusive. -/
theorem Exclusive.move {env : SignupEnvironment} (h : Exclusive env.hashtext db m labels) {i : ι}
    {call : SignupCall} {l : SignupPhase} (hmv : SignupMove env db (labels i) call l) :
    Exclusive env.hashtext (signupHandle env call db).2 m (Function.update labels i l) := by
  have hknows := h.knows i
  generalize hl₀ : labels i = l₀ at hmv hknows
  cases hmv with
  | @encrypt _ value =>
    rw [← hl₀, Function.update_eq_self]
    unfold signupHandle
    dsimp only
    split
    · exact h.counted _
    · exact h.counted _
  | isReleased =>
    rw [← hl₀, Function.update_eq_self]
    exact h.counted _
  | @endSession _ s =>
    rw [← hl₀, Function.update_eq_self]
    apply h.effect effect_endSession
    · intro j x stage hj
      have hkj := h.knows j
      rw [hj] at hkj ⊢
      refine ⟨?_, ?_⟩
      · simpa [signupHandle, SignupDatabase.endSession, SignupDatabase.setSession] using hkj.1
      · intro hup
        simp [SignupDatabase.endSession, SignupDatabase.setSession] at hup
    · exact fun _ _ _ _ _ hj => hj
    · exact fun j k x y st st' hj hk => h.apart j k s x y st st' hj hk
  | @connect s x hok =>
    obtain ⟨e, he⟩ | ⟨u, hup, hfree, hu⟩ := connect_cases env db
    · rw [he] at hok
      cases hok
    · rw [hu] at hok
      obtain rfl : u = s := Except.ok.inj hok
      have hstore : (signupHandle env .connect db).2 = ({ db with answered := db.answered + 1 } :
          SignupDatabase).setSession u { db.sessions u with inUse := true } := congrArg Prod.snd hu
      rw [hstore]
      exact (h.counted (db.answered + 1)).enter i x hup hfree
  | @refused e herr =>
    rw [← hl₀, Function.update_eq_self]
    obtain ⟨e', he⟩ | ⟨u, -, -, hu⟩ := connect_cases env db
    · have hstore : (signupHandle env .connect db).2 = { db with answered := db.answered + 1 } :=
        congrArg Prod.snd he
      rw [hstore]
      exact h.counted _
    · rw [hu] at herr
      cases herr
  | @calm s x stage st hst =>
    have hcalm : Calm s db (db.query env s st).2 := calm_query hst
    exact h.own (hcalm.effect hknows.1 (h.rows s)) hl₀ (hcalm.knows hknows)
  | @lock s x hok =>
    have hcalm : Calm s db (db.query env s (.tryAdvisoryLock (driverLockKey x))).2 := calm_query trivial
    exact h.own (hcalm.effect hknows.1 (h.rows s)) hl₀ (knows_locked hknows hok)
  | @sawRider s x hok =>
    have hcalm : Calm s db (db.query env s (.findByPhone .rider x)).2 := calm_query trivial
    exact h.own (hcalm.effect hknows.1 (h.rows s)) hl₀ (knows_sawRider hknows hok)
  | @sawDriver s x hok =>
    have hcalm : Calm s db (db.query env s (.findByPhone .driver x)).2 := calm_query trivial
    exact h.own (hcalm.effect hknows.1 (h.rows s)) hl₀ (knows_checked hknows hok)
  | @insert s role columns =>
    obtain ⟨⟨new, heffect⟩, huse⟩ := effect_insert role hknows (h.rows s)
    exact h.own heffect hl₀ ⟨huse, fun _ => trivial⟩
  | @finish s x stage st hst =>
    obtain ⟨⟨new, heffect⟩, huse, hempty⟩ := effect_finish hst hknows.1 (h.rows s)
    exact h.own heffect hl₀ ⟨huse, hempty⟩
  | @unlock s x stage lockKey hstage =>
    obtain ⟨heffect, hidle⟩ := effect_unlock lockKey (hknows.idle hstage) (h.rows s)
    exact h.own heffect hl₀ hidle
  | @release s x stage hstage => exact h.leave hl₀ (hknows.idle hstage).2

end Step

section Follows

variable {env : SignupEnvironment} {l : SignupPhase} {s : SessionId} {x : String} {α β : Type}
  {done : SignupPhase → Except ServiceError β → Prop}

/-- The program moves from phase `l` and ends as `done` says. -/
abbrev Signs (env : SignupEnvironment) (done : SignupPhase → Except ServiceError α → Prop) (l : SignupPhase)
    (p : SignupService α) : Prop := (signupOutline env).Follows (signupHandle env) done l p

/-- A call whose exception is the program's. -/
theorem signs_call {c : SignupCall} {f : c.Answer → SignupService β}
    (h : ∀ db, ∃ l', SignupMove env db l c l' ∧
      (∀ a, (signupHandle env c db).1 = .ok a → Signs env done l' (f a)) ∧ ∀ e, done l' (.error e)) :
    Signs env done l (signupCall c >>= f) := by
  apply Outline.Follows.perform
  intro db _
  obtain ⟨l', hmv, hok, herr⟩ := h db
  refine ⟨l', hmv, ?_⟩
  cases ha : (signupHandle env c db).1 with
  | ok a => exact hok a ha
  | error e => exact herr e

/-- A call whose exception the program deals with. -/
theorem signs_attempt {c : SignupCall} {f : Except ServiceError c.Answer → SignupService β}
    (h : ∀ db, ∃ l', SignupMove env db l c l' ∧ Signs env done l' (f (signupHandle env c db).1)) :
    Signs env done l ((signupCall c).attempt >>= f) := by
  intro db _
  obtain ⟨l', hmv, hf⟩ := h db
  refine ⟨l', hmv, ?_⟩
  generalize (signupHandle env c db).1 = r at hf
  cases r with
  | ok a => exact hf
  | error e => exact hf

/-- Some stage with the session. -/
def Using (s : SessionId) (x : String) (l : SignupPhase) : Prop := ∃ stage, l = .on s x stage

/-- A stage in which nothing has been inserted, with or without the lock. -/
def Resting (s : SessionId) (x : String) (l : SignupPhase) : Prop :=
  l = .on s x .idle ∨ l = .on s x .locked

theorem Resting.using (h : Resting s x l) : Using s x l := by
  rcases h with rfl | rfl
  · exact ⟨.idle, rfl⟩
  · exact ⟨.locked, rfl⟩

/-- The loop over the two lock keys; it comes to its end only with the lock. -/
theorem signs_takeSignupLocks {f : List String × Option ServiceError → SignupService β}
    (hf : ∀ l r, Resting s x l → (r.2 = none → l = .on s x .locked) → Signs env done l (f r)) :
    Signs env done (.on s x .idle) (takeSignupLocks s [] (getSignupLockKeys x) >>= f) := by
  rw [getSignupLockKeys_eq]
  unfold takeSignupLocks
  rw [bind_assoc]
  apply signs_attempt
  intro db
  cases hr : (signupHandle env (.query s (.tryAdvisoryLock (driverLockKey x))) db).1 with
  | error e =>
    refine ⟨.on s x .idle, .calm trivial, ?_⟩
    exact hf _ _ (.inl rfl) (by simp)
  | ok acquired =>
    cases acquired with
    | false =>
      refine ⟨.on s x .idle, .calm trivial, ?_⟩
      exact hf _ _ (.inl rfl) (by simp)
    | true =>
      refine ⟨.on s x .locked, .lock hr, ?_⟩
      show Signs env done (.on s x .locked) (takeSignupLocks s [driverLockKey x] [riderLockKey x] >>= f)
      unfold takeSignupLocks
      rw [bind_assoc]
      apply signs_attempt
      intro db'
      refine ⟨.on s x .locked, .calm trivial, ?_⟩
      split
      · exact hf _ _ (.inr rfl) (by simp)
      · exact hf _ _ (.inr rfl) (by simp)
      · exact hf _ _ (.inr rfl) fun _ => rfl

theorem exclusivityError_eq_none {clientType : EClientType} {riderExists driverExists : Bool} :
    exclusivityError clientType riderExists driverExists = none ↔
      riderExists = false ∧ driverExists = false := by
  cases clientType <;> cases riderExists <;> cases driverExists <;> simp [exclusivityError]

theorem signs_insertReturning {role : EClientType} {columns : ProfileColumns} {failure : String} :
    Signs env (fun l _ => Using s columns.msisdn l) (.on s columns.msisdn .checked)
      (insertReturning s role columns failure) := by
  apply signs_call
  intro db
  refine ⟨_, .insert, fun rows _ => ?_, fun _ => ⟨_, rfl⟩⟩
  cases rows.head? with
  | none => exact ⟨_, rfl⟩
  | some client => exact ⟨_, rfl⟩

/-- What follows the two searches comes to the INSERT only when both were empty. -/
theorem signs_searched {role clientType : EClientType} {columns : ProfileColumns} {failure : String}
    {riders drivers : Except ServiceError (List Client)} (hl : Using s columns.msisdn l)
    (hchecked : riders = .ok [] → drivers = .ok [] → l = .on s columns.msisdn .checked) :
    Signs env (fun l _ => Using s columns.msisdn l) l
      (Program.ofExcept riders >>= fun riderProfiles =>
        Program.ofExcept drivers >>= fun driverProfiles =>
          (match exclusivityError clientType (!riderProfiles.isEmpty) (!driverProfiles.isEmpty) with
            | some e => throw e
            | none => pure ()) >>= fun _ => insertReturning s role columns failure) := by
  cases riders with
  | error e => exact hl
  | ok riderProfiles =>
    cases drivers with
    | error e => exact hl
    | ok driverProfiles =>
      simp only [Program.ofExcept, Program.ret_bind]
      cases herror : exclusivityError clientType (!riderProfiles.isEmpty) (!driverProfiles.isEmpty) with
      | some e => exact hl
      | none =>
        obtain ⟨hriders, hdrivers⟩ := exclusivityError_eq_none.mp herror
        have hr : riderProfiles = [] := by simpa using hriders
        have hd : driverProfiles = [] := by simpa using hdrivers
        rw [hchecked (by rw [hr]) (by rw [hd])]
        exact signs_insertReturning

/-- The work of a signup, from the lock on. -/
theorem signs_work (s : SessionId) (role clientType : EClientType) (columns : ProfileColumns)
    (failure : String) : Signs env (fun l _ => Using s columns.msisdn l) (.on s columns.msisdn .locked) (do
      ensureMsisdnExclusivity s columns.msisdn clientType
      insertReturning s role columns failure) := by
  unfold ensureMsisdnExclusivity findRiderByPhone findDriverByPhone query
  simp only [bind_assoc]
  apply signs_attempt
  intro db
  by_cases hriders : (db.query env s (.findByPhone .rider columns.msisdn)).1 = .ok []
  · refine ⟨.on s columns.msisdn .sawRider, .sawRider hriders, ?_⟩
    apply signs_attempt
    intro db'
    by_cases hdrivers : (db'.query env s (.findByPhone .driver columns.msisdn)).1 = .ok []
    · exact ⟨.on s columns.msisdn .checked, .sawDriver hdrivers, signs_searched ⟨_, rfl⟩ fun _ _ => rfl⟩
    · exact ⟨.on s columns.msisdn .sawRider, .calm trivial,
        signs_searched ⟨_, rfl⟩ fun _ hd => absurd hd hdrivers⟩
  · refine ⟨.on s columns.msisdn .locked, .calm trivial, ?_⟩
    apply signs_attempt
    intro db'
    exact ⟨.on s columns.msisdn .locked, .calm trivial,
      signs_searched ⟨_, rfl⟩ fun hr _ => absurd hr hriders⟩

/-- The transaction ends, or its end is still to come. -/
theorem signs_workInTransaction {work : SignupService α}
    {f : Except ServiceError α × Bool → SignupService β}
    (hwork : Signs env (fun l _ => Using s x l) (.on s x .locked) work)
    (hf : ∀ l r, Using s x l → (r.2 = false → Resting s x l) → (∀ a, r.1 = .ok a → Resting s x l) →
      Signs env done l (f r)) :
    Signs env done (.on s x .locked) (workInTransaction s work >>= f) := by
  unfold workInTransaction query
  rw [bind_assoc]
  apply signs_attempt
  intro db
  refine ⟨.on s x .locked, .calm trivial, ?_⟩
  split
  · exact hf _ _ ⟨_, rfl⟩ (by simp) (by simp)
  · rw [bind_assoc]
    apply hwork.attempt
    rintro l r ⟨stage, rfl⟩
    cases r with
    | error e => exact hf _ _ ⟨_, rfl⟩ (by simp) (by simp)
    | ok result =>
      simp only [bind_assoc]
      apply signs_attempt
      intro db'
      refine ⟨.on s x .idle, .finish (.inl rfl), ?_⟩
      split
      · exact hf _ _ ⟨_, rfl⟩ (fun _ => .inl rfl) fun _ _ => .inl rfl
      · exact hf _ _ ⟨_, rfl⟩ (fun _ => .inl rfl) fun _ _ => .inl rfl

/-- Programs that keep to the locks and the session, with nothing inserted. -/
theorem signs_unlockAll {lockKeys : List String} (hl : Resting s x l) :
    Signs env (fun l _ => Resting s x l) l (unlockAll s lockKeys) := by
  induction lockKeys generalizing l with
  | nil => exact hl
  | cons lockKey lockKeys ih =>
    apply signs_call
    intro db
    refine ⟨.on s x .idle, ?_, fun _ _ => ih (.inl rfl), fun _ => .inl rfl⟩
    rcases hl with rfl | rfl
    · exact .unlock (.inl rfl)
    · exact .unlock (.inr rfl)

theorem signs_finishSignup {acquiredLocks : List String} {outcome : Except ServiceError β}
    (hl : Resting s x l) : Signs env (fun _ _ => True) l (finishSignup s acquiredLocks outcome) := by
  have hunlock : Signs env (fun l _ => Resting s x l) l
      (unlessReleased s (unlockAll s acquiredLocks.reverse)) := by
    apply signs_call
    intro db
    refine ⟨l, .isReleased, fun released _ => ?_, fun _ => hl⟩
    cases released with
    | true => exact hl
    | false => exact signs_unlockAll hl
  unfold finishSignup
  apply hunlock.attempt
  intro l' unlocked hl'
  have hend (l : SignupPhase) : Signs env (fun _ _ => True) l (Program.ofExcept (unlocked.bind fun _ => outcome)) := by
    cases unlocked with
    | error e => trivial
    | ok _ => cases outcome <;> trivial
  unfold unlessReleased
  rw [bind_assoc]
  apply signs_call
  intro db
  refine ⟨l', .isReleased, fun released _ => ?_, fun _ => trivial⟩
  cases released with
  | true => exact hend l'
  | false =>
    apply signs_call
    intro db'
    refine ⟨.outside, ?_, fun _ _ => hend .outside, fun _ => trivial⟩
    rcases hl' with rfl | rfl
    · exact .release (.inl rfl)
    · exact .release (.inr rfl)

/-- A whole signup, when its work keeps to the session. -/
theorem signs_concludeSignup {fallbackErrorMessage : String} {acquiredLocks : List String}
    {result : Except ServiceError β} {active : Bool} (hl : Using s x l)
    (hactive : active = false → Resting s x l) (hok : ∀ a, result = .ok a → Resting s x l) :
    Signs env (fun _ _ => True) l
      (concludeSignup s fallbackErrorMessage acquiredLocks result active) := by
  cases result with
  | ok a => exact signs_finishSignup (hok a rfl)
  | error e =>
    cases active with
    | false => exact signs_finishSignup (hactive rfl)
    | true =>
      obtain ⟨stage, rfl⟩ := hl
      apply signs_attempt
      intro db
      refine ⟨.on s x .idle, .finish (.inr rfl), ?_⟩
      split
      · exact signs_finishSignup (.inl rfl)
      · exact signs_finishSignup (.inl rfl)

theorem signs_executeWithSignupLock {fallbackErrorMessage : String} {work : SessionId → SignupService β}
    (hwork : ∀ s, Signs env (fun l _ => Using s x l) (.on s x .locked) (work s)) :
    Signs env (fun _ _ => True) .outside (executeWithSignupLock x fallbackErrorMessage work) := by
  unfold executeWithSignupLock
  apply signs_attempt
  intro db
  cases hr : (signupHandle env .connect db).1 with
  | error e => exact ⟨.outside, .refused hr, trivial⟩
  | ok s =>
    refine ⟨.on s x .idle, .connect hr, ?_⟩
    apply signs_takeSignupLocks
    rintro l ⟨acquiredLocks, refusal⟩ hl hlocked
    cases refusal with
    | some e =>
      show Signs env _ l (concludeSignup s fallbackErrorMessage acquiredLocks (.error e) false)
      exact signs_concludeSignup hl.using (fun _ => hl) fun _ _ => hl
    | none =>
      rw [hlocked rfl]
      exact signs_workInTransaction (hwork s) fun l r hl hactive hok => signs_concludeSignup hl hactive hok

theorem signs_encrypt {value : Option String} {f : Option String → SignupService β}
    (hf : ∀ encrypted, Signs env (fun _ _ => True) .outside (f encrypted)) :
    Signs env (fun _ _ => True) .outside (encrypt value >>= f) := by
  unfold encrypt
  cases value with
  | none => exact hf none
  | some text =>
    simp only
    split
    · exact hf (some text)
    · rw [bind_assoc]
      apply signs_call
      intro db
      exact ⟨.outside, .encrypt, fun encrypted _ => hf (some encrypted), fun _ => trivial⟩

theorem SignupOp.signs (env : SignupEnvironment) (op : SignupOp) :
    Signs env (fun _ _ => True) .outside op.program := by
  have hend {p : SignupService Client} (hp : Signs env (fun _ _ => True) .outside p) :
      Signs env (fun _ _ => True) .outside (p >>= fun _ => pure ()) :=
    hp.bind (fun _ _ _ => trivial) fun _ _ _ => trivial
  cases op with
  | signupRider dto =>
    apply hend
    apply signs_encrypt
    intro encryptedName
    exact signs_executeWithSignupLock fun s => signs_work s .rider .rider ⟨dto.msisdn, encryptedName, none, none⟩ _
  | signupDriver dto =>
    apply hend
    apply signs_encrypt
    intro encryptedDriverLicense
    apply signs_encrypt
    intro encryptedVehicleLicense
    apply signs_encrypt
    intro encryptedName
    exact signs_executeWithSignupLock fun s => signs_work s .driver .driver
      ⟨dto.msisdn, encryptedName, encryptedDriverLicense, encryptedVehicleLicense⟩ _
  | endSession s =>
    intro db _
    exact ⟨.outside, .endSession, trivial⟩

end Follows

abbrev SignupPool (ι : Type) :=
  Pool ι SignupCall SignupCall.Answer ServiceError Unit SignupDatabase

/-- All calls, before the first of them has been executed. -/
def signupCalls {ι : Type} (ops : ι → SignupOp) (db : SignupDatabase) : SignupPool ι :=
  Pool.start (fun i => (ops i).program) db

/-- In every run of signups that starts with at most one active profile for a phone
number, and with no rows of an open transaction, there is at every moment at most one. -/
theorem signup_exclusive {ι : Type} [DecidableEq ι] (env : SignupEnvironment) (ops : ι → SignupOp)
    (db : SignupDatabase) (msisdn : String) (hrest : ∀ s, db.inserted s = [])
    (hone : (db.activeProfiles msisdn).length ≤ 1) (sched : List ι) :
    (((signupCalls ops db).exec (signupHandle env) sched).store.activeProfiles msisdn).length ≤ 1 := by
  have hstart : Outline.Holds (fun _ => signupOutline env) (signupHandle env) (fun _ _ _ => True)
      (fun labels c => Exclusive env.hashtext c.store msisdn labels) (signupCalls ops db) := by
    refine ⟨fun _ => .outside, ⟨?_, ?_, fun _ => trivial, ?_, hone⟩, fun i => (ops i).signs env⟩
    · intro s x hx
      have hempty : (signupCalls ops db).store.inserted s = [] := hrest s
      rw [hempty] at hx
      exact absurd rfl hx
    · exact fun s _ _ => hrest s
    · intro i j s x y st st' hi
      cases hi
  have hrun : Outline.Holds (fun _ => signupOutline env) (signupHandle env) (fun _ _ _ => True)
      (fun labels c => Exclusive env.hashtext c.store msisdn labels)
      ((signupCalls ops db).exec (signupHandle env) sched) := by
    apply Outline.exec_holds (fun _ _ _ _ => trivial) ?_ hstart (Runs.meets_true _ _)
    intro labels c i call next l hex _ hi hmv
    rw [Pool.step_call _ hi]
    exact hex.move hmv
  obtain ⟨labels, hex, -⟩ := hrun
  exact hex.one

/-- No profiles, no locks, and unused sessions. -/
def SignupDatabase.empty : SignupDatabase where
  profiles := []
  nextId _ := 1
  locks := .empty
  sessions _ := ⟨.up, false, .none⟩
  answered := 0

/-- Every statement is executed, and every answer takes a connection of its own. -/
def SignupEnvironment.faultless : SignupEnvironment where
  hashtext lockKey := lockKey.length
  cipher _ value := some value
  connection n := n
  fault _ := .none
  noticed _ := false

/-- One phone number signs up as a rider and as a driver. -/
def riderAndDriver : Fin 2 → SignupOp
  | 0 => .signupRider ⟨"+62811", "A"⟩
  | 1 => .signupDriver ⟨"+62811", "A", "B1", "C1"⟩

def signedUpInTurn : List (Fin 2) := Pool.turns [(0, 14), (1, 16)]

theorem signup_exclusive_in_turn :
    (((signupCalls riderAndDriver .empty).exec (signupHandle .faultless) signedUpInTurn).store.activeProfiles
      "+62811").length ≤ 1 :=
  signup_exclusive .faultless riderAndDriver .empty "+62811" (fun _ => rfl) (by decide +kernel) signedUpInTurn

example : (((signupCalls riderAndDriver .empty).exec (signupHandle .faultless)
    signedUpInTurn).store.activeProfiles "+62811").map (·.role) = [.rider] := by decide +kernel

end NebLite
