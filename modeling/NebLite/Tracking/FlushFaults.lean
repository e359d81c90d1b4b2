import NebLite.Tracking.TripTracking
import NebLite.Atomic.Faults

/-! The flush of a ride with the statements of `persistFlush` one by one, and with
calls that fail. What is in the list has been serialised by `recordLocation` and
parses; it may still be a row that the database does not take. -/

namespace NebLite

open Atomic

inductive FlushCall where
  | tracking (c : TrackingCall)
  | connect
  | startTransaction
  | insertMany (entries : List TripTrack)
  | upsertSummaries (summaries : List TripSummaryUpsert)
  | commitTransaction
  | rollbackTransaction
  | release

abbrev FlushCall.Answer : FlushCall → Type
  | tracking c => c.Answer
  | _ => Unit

abbrev FlushService (α : Type) := Program FlushCall FlushCall.Answer ServiceError α

def flushCall (c : FlushCall) : FlushService c.Answer := .perform c

/-- A program of the tracking service. -/
def Flushing {α : Type} (p : TrackingService α) : FlushService α := p.lift .tracking fun _ a => a

/-- The shared state, and what the open transaction has written. -/
structure FlushWorld where
  tracking : TrackingWorld
  transaction : Option (List TripTrack × List TripSummaryUpsert)

def insertError : ServiceError := .error "invalid input syntax for type timestamp with time zone"

/-- Without an open transaction there is nothing to roll back; one that is open
when its connection is released is lost. -/
def flushHandle (env : Environment) (accepts : TripTrack → Bool) :
    Handler FlushCall FlushCall.Answer ServiceError FlushWorld
  | .tracking c, w => ((trackingHandle env c w.tracking).1, { w with tracking := (trackingHandle env c w.tracking).2 })
  | .connect, w => (.ok (), w)
  | .startTransaction, w => (.ok (), { w with transaction := some ([], []) })
  | .insertMany entries, w =>
    if entries.all accepts then
      (.ok (), { w with transaction := w.transaction.map fun t => (t.1 ++ entries, t.2) })
    else (.error insertError, w)
  | .upsertSummaries summaries, w =>
    (.ok (), { w with transaction := w.transaction.map fun t => (t.1, t.2 ++ summaries) })
  | .commitTransaction, w =>
    match w.transaction with
    | none => (.ok (), w)
    | some (entries, summaries) =>
      (.ok (),
        { tracking :=
            { w.tracking with
              tracks := w.tracking.tracks ++ entries
              summaries := summaries.foldl setSummary w.tracking.summaries }
          transaction := none })
  | .rollbackTransaction, w => (.ok (), { w with transaction := none })
  | .release, w => (.ok (), { w with transaction := none })

namespace Flush

/-- The transaction of `persistFlush`. -/
def insertBatch (entries : List TripTrack) (summaries : List TripSummaryUpsert) : FlushService Unit := do
  flushCall .connect
  flushCall .startTransaction
  if entries.length ≠ 0 then
    flushCall (.insertMany entries)
  if summaries.length ≠ 0 then
    flushCall (.upsertSummaries summaries)
  flushCall .commitTransaction

def persistFlush (entries : List TripTrack) (summaries : List TripSummaryUpsert) : FlushService Unit :=
  if entries.length = 0 ∧ summaries.length = 0 then pure ()
  else
    ((insertBatch entries summaries).catching fun e => do
      flushCall .rollbackTransaction
      throw e).finalizing (flushCall .release)

/-- `flushRide` from the persisted batch on. -/
def closeFlush (rideId : Id) : FlushService Unit := do
  let state ← Flushing (Tracked (getState rideId))
  if state.completed then
    let remaining ← flushCall (.tracking (.llenEvents rideId))
    if remaining = 0 then
      Flushing (cleanupRide rideId)

/-- `flushRide` without events. -/
def closeIdle (rideId : Id) : FlushService Unit := do
  let state ← Flushing (Tracked (getState rideId))
  if state.completed then
    Flushing (cleanupRide rideId)

def flushRide (rideId : Id) : FlushService Unit := do
  let eventPayloads ← flushCall (.tracking (.lrangeEvents rideId))
  if eventPayloads.isEmpty then
    return ← closeIdle rideId
  flushCall (.tracking (.delEvents rideId))
  persistFlush (eventPayloads.map (·.entry rideId)) ((eventPayloads.map (·.summary rideId)).foldl setSummary [])
  closeFlush rideId

/-- The part of `flushAll` that concerns one ride. -/
def flushAllRide (rideId : Id) : FlushService Unit := do
  let rideIds ← flushCall (.tracking .smembersActiveRides)
  if rideId ∈ rideIds then
    (flushRide rideId).catching fun _ => pure ()

end Flush

section Statements

variable (env : Environment) (accepts : TripTrack → Bool) (e : ServiceError)

/-- The calls of a flush, of which one may fail. -/
abbrev faultyFlush : Handler FlushCall FlushCall.Answer ServiceError (Failing FlushWorld) :=
  failing e (fun _ => true) (flushHandle env accepts)

variable {env accepts e} {β : Type} {c : FlushCall} {f : c.Answer → FlushService β} {w v : FlushWorld}

variable {left : Option ℕ} {k : ℕ}

/-- The call after `k` others is the one that fails. -/
theorem flushCall_fails (hleft : left = some k) :
    (flushCall c >>= f).run (faultyFlush env accepts e) ⟨w, left.map (· - k)⟩ = (.error e, ⟨w, none⟩) := by
  subst hleft
  rw [Option.map_some, Nat.sub_self]
  rfl

theorem flushCall_run (hleft : ∀ n, left = some n → k < n) :
    (flushCall c).run (faultyFlush env accepts e) ⟨w, left.map (· - k)⟩ =
      ((flushHandle env accepts c w).1, ⟨(flushHandle env accepts c w).2, left.map (· - (k + 1))⟩) := by
  refine (Program.run_perform _ c _).trans ?_
  cases left with
  | none => exact failing_none e _ (flushHandle env accepts) c w
  | some n =>
    have hn := hleft n rfl
    have hindex : n - k = n - (k + 1) + 1 := by omega
    rw [Option.map_some, Option.map_some, hindex]
    exact failing_succ e (flushHandle env accepts) w rfl _

/-- A call after `k` others that is not the one that fails. -/
theorem flushCall_ok {a : c.Answer} (hleft : ∀ n, left = some n → k < n)
    (hrun : flushHandle env accepts c w = (.ok a, v)) :
    (flushCall c >>= f).run (faultyFlush env accepts e) ⟨w, left.map (· - k)⟩ =
      (f a).run (faultyFlush env accepts e) ⟨v, left.map (· - (k + 1))⟩ := by
  apply Program.run_bind_ok
  rw [flushCall_run hleft, hrun]

theorem flushCall_error {d : ServiceError} (hleft : ∀ n, left = some n → k < n)
    (hrun : flushHandle env accepts c w = (.error d, v)) :
    (flushCall c >>= f).run (faultyFlush env accepts e) ⟨w, left.map (· - k)⟩ =
      (.error d, ⟨v, left.map (· - (k + 1))⟩) := by
  apply Program.run_bind_error
  rw [flushCall_run hleft, hrun]

end Statements

section Batch

variable {env : Environment} {accepts : TripTrack → Bool} {e : ServiceError} {t : TrackingWorld}
  {entries : List TripTrack} {summaries : List TripSummaryUpsert} {left : Option ℕ} {k : ℕ}

/-- The tables with a batch. -/
def TrackingWorld.withBatch (t : TrackingWorld) (entries : List TripTrack) (summaries : List TripSummaryUpsert) :
    TrackingWorld :=
  { t with tracks := t.tracks ++ entries, summaries := summaries.foldl setSummary t.summaries }

/-- The database takes every row of a batch, and the call that fails is not among the first `k`. -/
def Commits (accepts : TripTrack → Bool) (entries : List TripTrack) (left : Option ℕ) (k : ℕ) : Prop :=
  entries.all accepts = true ∧ ∀ n, left = some n → k ≤ n

theorem later_of_ne (h : ∀ n, left = some n → k ≤ n) (hk : left ≠ some k) : ∀ n, left = some n → k < n := by
  intro n hn
  have hle := h n hn
  have hne : n ≠ k := fun he => hk (he ▸ hn)
  omega

theorem not_commits {j : ℕ} (hj : j < k) (hleft : left = some j) : ¬ Commits accepts entries left k := by
  rintro ⟨-, h⟩
  have hle := h j hleft
  omega

variable (env accepts e t)

/-- The transaction after `k` calls. -/
theorem run_insertBatch (hk : ∀ n, left = some n → k ≤ n) (hentries : entries ≠ []) (hsummaries : summaries ≠ []) :
    (Commits accepts entries left (k + 5) ∧ (Flush.insertBatch entries summaries).run (faultyFlush env accepts e)
        ⟨⟨t, none⟩, left.map (· - k)⟩ =
          (.ok (), ⟨⟨t.withBatch entries summaries, none⟩, left.map (· - (k + 5))⟩)) ∨
      ¬ Commits accepts entries left (k + 5) ∧ ∃ d transaction left', (Flush.insertBatch entries summaries).run
        (faultyFlush env accepts e) ⟨⟨t, none⟩, left.map (· - k)⟩ = (.error d, ⟨⟨t, transaction⟩, left'⟩) := by
  have hlength : entries.length ≠ 0 ∧ summaries.length ≠ 0 := by simpa using ⟨hentries, hsummaries⟩
  unfold Flush.insertBatch
  rw [if_pos hlength.1, if_pos hlength.2]
  by_cases h0 : left = some k
  · exact .inr ⟨not_commits (by omega) h0, _, _, _, flushCall_fails h0⟩
  have hn0 := later_of_ne hk h0
  rw [flushCall_ok hn0 rfl]
  by_cases h1 : left = some (k + 1)
  · exact .inr ⟨not_commits (by omega) h1, _, _, _, flushCall_fails h1⟩
  have hn1 := later_of_ne hn0 h1
  rw [flushCall_ok hn1 rfl]
  by_cases h2 : left = some (k + 2)
  · exact .inr ⟨not_commits (by omega) h2, _, _, _, flushCall_fails h2⟩
  have hn2 := later_of_ne hn1 h2
  by_cases hall : entries.all accepts = true
  swap
  · have hinsert : flushHandle env accepts (.insertMany entries) ⟨t, some ([], [])⟩ =
        (.error insertError, ⟨t, some ([], [])⟩) := if_neg hall
    exact .inr ⟨fun h => hall h.1, _, _, _, flushCall_error hn2 hinsert⟩
  have hinsert : flushHandle env accepts (.insertMany entries) ⟨t, some ([], [])⟩ =
      (.ok (), ⟨t, some (entries, [])⟩) := if_pos hall
  rw [flushCall_ok hn2 hinsert]
  by_cases h3 : left = some (k + 3)
  · exact .inr ⟨not_commits (by omega) h3, _, _, _, flushCall_fails h3⟩
  have hn3 := later_of_ne hn2 h3
  rw [flushCall_ok hn3 rfl]
  by_cases h4 : left = some (k + 4)
  · refine .inr ⟨not_commits (by omega) h4, e, some (entries, summaries), none, ?_⟩
    rw [← bind_pure (flushCall .commitTransaction)]
    exact flushCall_fails h4
  have hn4 := later_of_ne hn3 h4
  exact .inl ⟨⟨hall, hn4⟩, flushCall_run hn4⟩

/-- The connection is released, and nothing else is stored. -/
theorem run_release (l : Option ℕ) :
    ∃ r l', (flushCall .release).run (faultyFlush env accepts e) ⟨⟨t, none⟩, l⟩ = (r, ⟨⟨t, none⟩, l'⟩) ∧
      (l = none → r = .ok () ∧ l' = none) := by
  rcases l with _ | _ | n
  · exact ⟨_, _, rfl, fun _ => ⟨rfl, rfl⟩⟩
  · exact ⟨_, _, rfl, fun h => nomatch h⟩
  · exact ⟨_, _, rfl, fun h => nomatch h⟩

/-- One failure at the most leaves either the rollback or the release. -/
theorem run_rollback (d : ServiceError) (transaction : Option (List TripTrack × List TripSummaryUpsert)) (l : Option ℕ) :
    ∃ d' l', ((Program.throw d : FlushService Unit).catching (fun e => do
        flushCall .rollbackTransaction
        throw e) |>.finalizing (flushCall .release)).run (faultyFlush env accepts e) ⟨⟨t, transaction⟩, l⟩ =
      (.error d', ⟨⟨t, none⟩, l'⟩) := by
  rcases l with _ | _ | _ | n
  · exact ⟨_, _, rfl⟩
  · exact ⟨_, _, rfl⟩
  · exact ⟨_, _, rfl⟩
  · exact ⟨_, _, rfl⟩

/-- A batch is stored as a whole or not at all, whichever call fails. -/
theorem run_persistFlush (hk : ∀ n, left = some n → k ≤ n) (hentries : entries ≠ []) (hsummaries : summaries ≠ []) :
    (Commits accepts entries left (k + 5) ∧ ∃ r left', (Flush.persistFlush entries summaries).run
        (faultyFlush env accepts e) ⟨⟨t, none⟩, left.map (· - k)⟩ =
          (r, ⟨⟨t.withBatch entries summaries, none⟩, left'⟩) ∧ (left = none → r = .ok () ∧ left' = none)) ∨
      ¬ Commits accepts entries left (k + 5) ∧ ∃ d left', (Flush.persistFlush entries summaries).run
        (faultyFlush env accepts e) ⟨⟨t, none⟩, left.map (· - k)⟩ = (.error d, ⟨⟨t, none⟩, left'⟩) := by
  have hsome : ¬ (entries.length = 0 ∧ summaries.length = 0) := by simp [hentries]
  unfold Flush.persistFlush
  rw [if_neg hsome, Program.run_finalizing, Program.run_catching]
  rcases run_insertBatch env accepts e t hk hentries hsummaries with
    ⟨hcommits, hrun⟩ | ⟨hno, d, transaction, l, hrun⟩
  · rw [hrun]
    obtain ⟨r, l', hrelease, hnone⟩ := run_release env accepts e (t.withBatch entries summaries)
      (left.map (· - (k + 5)))
    refine .inl ⟨hcommits, _, l', congrArg (fun x => (x.1.bind fun _ => .ok (), x.2)) hrelease, fun hleft => ?_⟩
    obtain ⟨rfl, rfl⟩ := hnone (by rw [hleft]; rfl)
    exact ⟨rfl, rfl⟩
  · rw [hrun]
    obtain ⟨d', l', hrollback⟩ := run_rollback env accepts e t d transaction l
    rw [Program.run_finalizing, Program.run_catching] at hrollback
    exact .inr ⟨hno, d', l', hrollback⟩

end Batch

section Close

/-- What a flush of ride `rid` still calls when its batch has been stored. -/
def FlushCall.Tidies (rid : Id) : FlushCall → Prop
  | .tracking (.service (.getTripState _)) | .tracking (.llenEvents _) | .tracking (.delState _)
  | .tracking (.sremActiveRide _) => True
  | .tracking (.delEvents rideId) => rideId = rid
  | _ => False

/-- `v` holds the events, pushes and rows of `w`, but that the list of ride `rid` may be emptied. -/
structure FlushWorld.Tidied (rid : Id) (w v : FlushWorld) : Prop where
  transaction : v.transaction = w.transaction
  tracks : v.tracking.tracks = w.tracking.tracks
  pushes : v.tracking.pushes = w.tracking.pushes
  others : ∀ j, j ≠ rid → v.tracking.queue j = w.tracking.queue j
  empty : w.tracking.queue rid = [] → v.tracking.queue rid = []

variable {env : Environment} {accepts : TripTrack → Bool} {rid : Id}

theorem FlushWorld.Tidied.refl (w : FlushWorld) : w.Tidied rid w := ⟨rfl, rfl, rfl, fun _ _ => rfl, id⟩

theorem FlushWorld.Tidied.trans {w v u : FlushWorld} (h : w.Tidied rid v) (h' : v.Tidied rid u) : w.Tidied rid u :=
  ⟨h'.transaction.trans h.transaction, h'.tracks.trans h.tracks, h'.pushes.trans h.pushes,
    fun j hj => (h'.others j hj).trans (h.others j hj), fun hq => h'.empty (h.empty hq)⟩

theorem FlushCall.Tidies.tidied {c : FlushCall} (hc : c.Tidies rid) (w : FlushWorld) :
    w.Tidied rid (flushHandle env accepts c w).2 := by
  cases c with
  | tracking c =>
    cases c with
    | service c =>
      cases c with
      | getTripState => exact .refl w
      | _ => exact hc.elim
    | llenEvents | delState | sremActiveRide => exact ⟨rfl, rfl, rfl, fun _ _ => rfl, id⟩
    | delEvents rideId =>
      obtain rfl : rideId = rid := hc
      refine ⟨rfl, rfl, rfl, fun j hj => Function.update_of_ne hj _ _, fun _ => ?_⟩
      exact Function.update_self rideId [] w.tracking.queue
    | _ => exact hc.elim
  | _ => exact hc.elim

theorem tidies_getState : (Flushing (Tracked (getState rid))).Calls (FlushCall.Tidies rid) :=
  ⟨trivial, fun r => by cases r <;> trivial⟩

theorem tidies_cleanupRide : (Flushing (cleanupRide rid)).Calls (FlushCall.Tidies rid) := by
  refine Program.Calls.lift ?_
  unfold cleanupRide
  refine Program.Calls.bind ((Program.calls_perform _).mpr trivial) fun _ => ?_
  exact Program.Calls.bind ((Program.calls_perform _).mpr rfl) fun _ => (Program.calls_perform _).mpr trivial

theorem tidies_closeIdle (rid : Id) : (Flush.closeIdle rid).Calls (FlushCall.Tidies rid) := by
  refine tidies_getState.bind fun state => ?_
  split
  · exact tidies_cleanupRide
  · trivial

theorem tidies_closeFlush (rid : Id) : (Flush.closeFlush rid).Calls (FlushCall.Tidies rid) := by
  refine tidies_getState.bind fun state => ?_
  split
  · refine Program.Calls.bind ((Program.calls_perform _).mpr trivial) fun remaining => ?_
    split
    · exact tidies_cleanupRide
    · trivial
  · trivial

theorem tidied_run (env : Environment) (accepts : TripTrack → Bool) {p : FlushService Unit} (hp : p.Calls (FlushCall.Tidies rid)) (e : ServiceError)
    (x : Failing FlushWorld) : x.store.Tidied rid (p.run (faultyFlush env accepts e) x).2.store :=
  hp.keeps_failing FlushWorld.Tidied.refl (fun _ _ _ => FlushWorld.Tidied.trans) (fun _ hc w => hc.tidied w) e x

end Close

section Flush

variable (accepts : TripTrack → Bool) (rid : Id) (left : Option ℕ)

/-- The rows of the events in the list of ride `rid`. -/
def FlushWorld.batch (w : FlushWorld) (rid : Id) : List TripTrack := (w.tracking.queue rid).map (·.entry rid)

/-- A flush that has nothing to do, or whose LRANGE or DEL fails. -/
def FlushWorld.Skips (w : FlushWorld) (rid : Id) (left : Option ℕ) : Prop :=
  w.tracking.queue rid = [] ∨ left = some 0 ∨ left = some 1

/-- What a flush of ride `rid` makes of `w`: the list stays, or it is emptied and
the batch is stored or lost. -/
structure FlushWorld.Flushed (w v : FlushWorld) : Prop where
  transaction : v.transaction = none
  pushes : v.tracking.pushes = w.tracking.pushes
  others : ∀ j, j ≠ rid → v.tracking.queue j = w.tracking.queue j
  skipped : w.Skips rid left → v.tracking.queue rid = w.tracking.queue rid ∧ v.tracking.tracks = w.tracking.tracks
  emptied : ¬ w.Skips rid left → v.tracking.queue rid = []
  stored : ¬ w.Skips rid left → Commits accepts (w.batch rid) left 7 →
    v.tracking.tracks = w.tracking.tracks ++ w.batch rid
  lost : ¬ w.Skips rid left → ¬ Commits accepts (w.batch rid) left 7 → v.tracking.tracks = w.tracking.tracks

variable {accepts rid left} {env : Environment} {e : ServiceError} {w : FlushWorld}

theorem FlushWorld.Flushed.of_skips {v : FlushWorld} (hs : w.Skips rid left) (ht : w.transaction = none)
    (h : w.Tidied rid v) (hq : v.tracking.queue rid = w.tracking.queue rid) : w.Flushed accepts rid left v :=
  ⟨h.transaction.trans ht, h.pushes, h.others, fun _ => ⟨hq, h.tracks⟩, fun hn => absurd hs hn,
    fun hn => absurd hs hn, fun hn => absurd hs hn⟩

theorem FlushWorld.Flushed.of_emptied {u : TrackingWorld} {v : FlushWorld} (hs : ¬ w.Skips rid left)
    (hqueue : u.queue = Function.update w.tracking.queue rid []) (hpushes : u.pushes = w.tracking.pushes)
    (hstored : Commits accepts (w.batch rid) left 7 → u.tracks = w.tracking.tracks ++ w.batch rid)
    (hlost : ¬ Commits accepts (w.batch rid) left 7 → u.tracks = w.tracking.tracks)
    (h : FlushWorld.Tidied rid ⟨u, none⟩ v) : w.Flushed accepts rid left v := by
  have hempty : u.queue rid = [] := by rw [hqueue, Function.update_self]
  refine ⟨h.transaction, h.pushes.trans hpushes, fun j hj => ?_, fun hn => absurd hn hs, fun _ => h.empty hempty,
    fun _ hc => h.tracks.trans (hstored hc), fun _ hc => h.tracks.trans (hlost hc)⟩
  rw [h.others j hj]
  show u.queue j = _
  rw [hqueue, Function.update_of_ne hj]

theorem foldl_setSummary_ne_nil {xs : List TripSummaryUpsert} (h : xs ≠ []) : xs.foldl setSummary [] ≠ [] := by
  have hgrows (l : List TripSummaryUpsert) (x : TripSummaryUpsert) : setSummary l x ≠ [] := by
    unfold setSummary
    split
    · next hany =>
      intro hnil
      rw [List.map_eq_nil_iff.mp hnil] at hany
      cases hany
    · simp
  have hkeeps (l : List TripSummaryUpsert) (x : TripSummaryUpsert) (rest : List TripSummaryUpsert) :
      rest.foldl setSummary (setSummary l x) ≠ [] := by
    induction rest generalizing l x with
    | nil => exact hgrows l x
    | cons y rest ih => exact ih _ y
  obtain ⟨x, rest, rfl⟩ := List.exists_cons_of_ne_nil h
  exact hkeeps [] x rest

theorem batch_ne_nil (h : w.tracking.queue rid ≠ []) : w.batch rid ≠ [] ∧
    ((w.tracking.queue rid).map (·.summary rid)).foldl setSummary [] ≠ [] :=
  ⟨by simpa [FlushWorld.batch] using h, foldl_setSummary_ne_nil (by simpa using h)⟩

variable (env accepts e rid left) in
theorem flushRide_cases (ht : w.transaction = none) :
    w.Flushed accepts rid left ((Flush.flushRide rid).run (faultyFlush env accepts e) ⟨w, left⟩).2.store ∧
      (left = none → ((Flush.flushRide rid).run (faultyFlush env accepts e) ⟨w, left⟩).1 = .ok () →
        w.tracking.queue rid = [] ∨ (w.batch rid).all accepts = true) := by
  obtain ⟨t, transaction⟩ := w
  obtain rfl : transaction = none := ht
  suffices hrun : ∀ l, l = left.map (· - 0) →
      FlushWorld.Flushed accepts rid left ⟨t, none⟩
          ((Flush.flushRide rid).run (faultyFlush env accepts e) ⟨⟨t, none⟩, l⟩).2.store ∧
        (left = none → ((Flush.flushRide rid).run (faultyFlush env accepts e) ⟨⟨t, none⟩, l⟩).1 = .ok () →
          t.queue rid = [] ∨ (FlushWorld.batch ⟨t, none⟩ rid).all accepts = true) by
    exact hrun left (by simp)
  rintro l rfl
  unfold Flush.flushRide
  by_cases h0 : left = some 0
  · rw [flushCall_fails h0]
    exact ⟨.of_skips (.inr (.inl h0)) rfl (.refl _) rfl, fun hn => by simp [h0] at hn⟩
  have hn0 : ∀ n, left = some n → 0 < n := later_of_ne (fun _ _ => Nat.zero_le _) h0
  have hlrange : flushHandle env accepts (.tracking (.lrangeEvents rid)) ⟨t, none⟩ = (.ok (t.queue rid), ⟨t, none⟩) := rfl
  rw [flushCall_ok hn0 hlrange]
  by_cases hq : t.queue rid = []
  · simp only [hq, List.isEmpty_nil, if_true]
    have htidied := tidied_run env accepts (tidies_closeIdle rid) e ⟨⟨t, none⟩, left.map (· - 1)⟩
    refine ⟨.of_skips (.inl hq) rfl htidied ?_, fun _ _ => .inl trivial⟩
    exact (htidied.empty hq).trans hq.symm
  have hsome : (t.queue rid).isEmpty = false := by simpa using hq
  simp only [hsome, Bool.false_eq_true, if_false, Nat.zero_add]
  by_cases h1 : left = some 1
  · rw [flushCall_fails h1]
    exact ⟨.of_skips (.inr (.inr h1)) rfl (.refl _) rfl, fun hn => by simp [h1] at hn⟩
  have hn1 : ∀ n, left = some n → 2 ≤ n := later_of_ne hn0 h1
  let u : TrackingWorld := { t with queue := Function.update t.queue rid [] }
  have hdel : flushHandle env accepts (.tracking (.delEvents rid)) ⟨t, none⟩ = (.ok (), ⟨u, none⟩) := rfl
  rw [flushCall_ok hn1 hdel]
  simp only [Nat.reduceAdd]
  have hskips : ¬ FlushWorld.Skips ⟨t, none⟩ rid left := by
    rintro (h | h | h)
    · exact hq h
    · exact h0 h
    · exact h1 h
  obtain ⟨hentries, hsummaries⟩ : (t.queue rid).map (·.entry rid) ≠ [] ∧
      ((t.queue rid).map (·.summary rid)).foldl setSummary [] ≠ [] := batch_ne_nil (w := ⟨t, none⟩) hq
  rcases run_persistFlush env accepts e u hn1 hentries hsummaries with ⟨hcommits, r, l, hrun, -⟩ | ⟨hno, d, l, hrun⟩
  · let v : TrackingWorld := u.withBatch ((t.queue rid).map (·.entry rid))
      (((t.queue rid).map (·.summary rid)).foldl setSummary [])
    have hflushed (x : FlushWorld) (hx : FlushWorld.Tidied rid ⟨v, none⟩ x) :
        FlushWorld.Flushed accepts rid left ⟨t, none⟩ x :=
      .of_emptied (u := v) hskips rfl rfl (fun _ => rfl) (fun hc => absurd hcommits hc) hx
    refine ⟨?_, fun _ _ => .inr hcommits.1⟩
    cases r with
    | error d =>
      rw [Program.run_bind_error _ hrun]
      exact hflushed _ (.refl _)
    | ok a =>
      rw [Program.run_bind_ok _ hrun]
      exact hflushed _ (tidied_run env accepts (tidies_closeFlush rid) e ⟨⟨v, none⟩, l⟩)
  · rw [Program.run_bind_error _ hrun]
    have hflushed : FlushWorld.Flushed accepts rid left ⟨t, none⟩ ⟨u, none⟩ :=
      .of_emptied (u := u) hskips rfl rfl (fun hc => absurd hc hno) (fun _ => rfl) (.refl _)
    exact ⟨hflushed, fun _ hok => nomatch hok⟩

/-- Without events a flush returns. -/
theorem flushRide_idle (hq : w.tracking.queue rid = []) :
    ((Flush.flushRide rid).run (flushHandle env accepts) w).1 = .ok () := by
  have hlrange : (flushCall (.tracking (.lrangeEvents rid))).run (flushHandle env accepts) w =
      (.ok (w.tracking.queue rid), w) := Program.run_perform _ _ _
  have hstate : (Flushing (Tracked (getState rid))).run (flushHandle env accepts) w =
      (.ok ((w.tracking.world.tripStates rid).getD (.initial rid)), w) := rfl
  unfold Flush.flushRide
  rw [Program.run_bind_ok _ hlrange]
  simp only [hq, List.isEmpty_nil, if_true]
  unfold Flush.closeIdle
  rw [Program.run_bind_ok _ hstate]
  split <;> rfl

end Flush

section Faultless

variable {env : Environment} {accepts : TripTrack → Bool} {rid : Id} {α : Type}

theorem run_flushing (p : TrackingService α) (w : FlushWorld) :
    (Flushing p).run (flushHandle env accepts) w =
      ((p.run (trackingHandle env) w.tracking).1, { w with tracking := (p.run (trackingHandle env) w.tracking).2 }) := by
  induction p generalizing w with
  | ret a => rfl
  | throw e => rfl
  | call op next ih =>
    have hreply : ((flushHandle env accepts (.tracking op) w).1.map fun a => a) = (trackingHandle env op w.tracking).1 := by
      have hsame : (flushHandle env accepts (.tracking op) w).1 = (trackingHandle env op w.tracking).1 := rfl
      rw [hsame]
      cases (trackingHandle env op w.tracking).1 <;> rfl
    show (Flushing (next ((flushHandle env accepts (.tracking op) w).1.map fun a => a))).run _ _ = _
    rw [hreply, ih]
    rfl

/-- With no failure and no row refused the flush is the one whose batch is a single call. -/
theorem flushRide_refines (t : TrackingWorld) (hall : (FlushWorld.batch ⟨t, none⟩ rid).all accepts = true) :
    (Flush.flushRide rid).run (flushHandle env accepts) ⟨t, none⟩ =
      (((flushRide rid).run (trackingHandle env) t).1, ⟨((flushRide rid).run (trackingHandle env) t).2, none⟩) := by
  have hcall (c : TrackingCall) (v : TrackingWorld) : (flushCall (.tracking c)).run (flushHandle env accepts) ⟨v, none⟩ =
      ((trackingHandle env c v).1, ⟨(trackingHandle env c v).2, none⟩) := Program.run_perform _ _ _
  have hplain (c : TrackingCall) (v : TrackingWorld) :
      (trackingCall c).run (trackingHandle env) v = trackingHandle env c v := Program.run_perform _ _ _
  have hstate (v : TrackingWorld) : (Flushing (Tracked (getState rid))).run (flushHandle env accepts) ⟨v, none⟩ =
      (.ok ((v.world.tripStates rid).getD (.initial rid)), ⟨v, none⟩) := rfl
  have hread (v : TrackingWorld) : (Tracked (getState rid)).run (trackingHandle env) v =
      (.ok ((v.world.tripStates rid).getD (.initial rid)), v) := rfl
  unfold Flush.flushRide flushRide
  rw [Program.run_bind_ok _ (hcall (.lrangeEvents rid) t), Program.run_bind_ok _ (hplain (.lrangeEvents rid) t)]
  simp only [trackingHandle]
  by_cases hq : t.queue rid = []
  · simp only [hq, List.isEmpty_nil, if_true, Flush.closeIdle]
    rw [Program.run_bind_ok _ (hstate t), Program.run_bind_ok _ (hread t)]
    cases ((t.world.tripStates rid).getD (.initial rid)).completed <;> rfl
  have hsome : (t.queue rid).isEmpty = false := by simpa using hq
  simp only [hsome, Bool.false_eq_true, if_false, Flush.closeFlush]
  obtain ⟨hentries, hsummaries⟩ : (t.queue rid).map (·.entry rid) ≠ [] ∧
      ((t.queue rid).map (·.summary rid)).foldl setSummary [] ≠ [] := batch_ne_nil (w := ⟨t, none⟩) hq
  let u : TrackingWorld := { t with queue := Function.update t.queue rid [] }
  let v : TrackingWorld := u.withBatch ((t.queue rid).map (·.entry rid))
    (((t.queue rid).map (·.summary rid)).foldl setSummary [])
  have hdel : (flushCall (.tracking (.delEvents rid))).run (flushHandle env accepts) ⟨t, none⟩ = (.ok (), ⟨u, none⟩) :=
    hcall (.delEvents rid) t
  have hdeleted : (trackingCall (.delEvents rid)).run (trackingHandle env) t = (.ok (), u) := hplain (.delEvents rid) t
  have hpersist : (Flush.persistFlush ((t.queue rid).map (·.entry rid))
      (((t.queue rid).map (·.summary rid)).foldl setSummary [])).run (flushHandle env accepts) ⟨u, none⟩ =
        (.ok (), ⟨v, none⟩) := by
    have hnever : ∀ n, (none : Option ℕ) = some n → 0 ≤ n := fun n _ => Nat.zero_le n
    have hfaulty := run_persistFlush env accepts insertError u hnever hentries hsummaries
    rw [Option.map_none, Program.run_failing_none] at hfaulty
    rcases hfaulty with ⟨-, r, left', hrun, hnone⟩ | ⟨hno, -⟩
    · obtain ⟨rfl, rfl⟩ := hnone rfl
      obtain ⟨hok, hstore⟩ := Prod.mk.inj hrun
      exact Prod.ext hok (Failing.mk.inj hstore).1
    · exact absurd ⟨hall, fun n hn => nomatch hn⟩ hno
  have hstored : (trackingCall (.persistFlush ((t.queue rid).map (·.entry rid))
      (((t.queue rid).map (·.summary rid)).foldl setSummary []))).run (trackingHandle env) u = (.ok (), v) :=
    Program.run_perform _ _ _
  rw [Program.run_bind_ok _ hdel, Program.run_bind_ok _ hdeleted]
  rw [Program.run_bind_ok _ hpersist, Program.run_bind_ok _ hstored, Program.run_bind_ok _ (hstate v),
    Program.run_bind_ok _ (hread v)]
  cases ((v.world.tripStates rid).getD (.initial rid)).completed with
  | false => rfl
  | true =>
    have hempty : v.queue rid = [] := by
      show Function.update t.queue rid [] rid = []
      rw [Function.update_self]
    simp only [if_true]
    rw [Program.run_bind_ok _ (hcall (.llenEvents rid) v), Program.run_bind_ok _ (hplain (.llenEvents rid) v)]
    simp only [trackingHandle, hempty, List.length_nil, if_true]
    exact run_flushing _ _

end Faultless

end NebLite
