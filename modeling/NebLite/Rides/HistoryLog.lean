import NebLite.Rides.Snapshots
import NebLite.Rides.RideRow
import NebLite.Rides.Matching
import Mathlib.Data.List.Chain

/-! The status history of a ride records exactly the changes of its status, over
sequential runs of the lifecycle operations. -/

namespace NebLite

open Atomic

/-- The statuses that may come after a status. -/
def ERideStatus.next : ERideStatus → List ERideStatus
  | .requested => [.candidatesComputed, .canceled]
  | .candidatesComputed => [.assigned, .canceled]
  | .assigned => [.accepted, .candidatesComputed, .completed, .canceled]
  | .accepted => [.candidatesComputed, .enroute, .completed, .canceled]
  | .enroute => [.tripStarted, .completed, .canceled]
  | .tripStarted => [.completed]
  | .nystart | .completed | .canceled => []

/-- The recorded changes of a ride, oldest first. -/
def World.historyOf (w : World) (rid : Id) : List (Option ERideStatus × ERideStatus) :=
  (w.history.filter (·.rideId = rid)).map fun h => (h.fromStatus, h.toStatus)

/-- The changes lead from nothing over REQUESTED to the status `s`, each one from where
the one before it led to. -/
structure StatusLog (log : List (Option ERideStatus × ERideStatus)) (s : ERideStatus) : Prop where
  first : log.head? = some (none, .requested)
  linked : log.IsChain fun a b => b.1 = some a.2
  last : log.getLast?.map (·.2) = some s
  lawful : ∀ e ∈ log.tail, ∃ σ, e.1 = some σ ∧ e.2 ∈ σ.next

theorem StatusLog.append {log : List (Option ERideStatus × ERideStatus)} {σ s : ERideStatus}
    (h : StatusLog log σ) (hs : s ∈ σ.next) : StatusLog (log ++ [(some σ, s)]) s := by
  have hne : log ≠ [] := by
    rintro rfl
    cases h.first
  refine ⟨?_, ?_, ?_, ?_⟩
  · rw [List.head?_append_of_ne_nil _ hne]
    exact h.first
  · rw [List.isChain_append]
    refine ⟨h.linked, List.isChain_singleton _, ?_⟩
    intro e he x hx
    have hlast := h.last
    rw [he, Option.map_some] at hlast
    rw [List.head?_cons, Option.mem_def, Option.some.injEq] at hx
    rw [← hx]
    exact hlast.symm
  · simp
  · intro e he
    rw [List.tail_append_of_ne_nil hne] at he
    rcases List.mem_append.mp he with he | he
    · exact h.lawful e he
    · rw [List.mem_singleton.mp he]
      exact ⟨σ, rfl, hs⟩

/-- What a creation records. -/
theorem statusLog_created : StatusLog [(none, .requested), (some .requested, .candidatesComputed)]
    .candidatesComputed := by
  refine ⟨rfl, ?_, rfl, ?_⟩
  · simp
  · intro e he
    rw [List.tail_cons, List.mem_singleton] at he
    rw [he]
    exact ⟨.requested, rfl, by decide⟩

/-- How far the record of a ride is while an operation runs: there is no ride, the
stored row is recorded, or its last change is not yet recorded. -/
inductive Ledger where
  | absent
  | settled (r : Ride)
  | owing (r : Ride) (σ : ERideStatus)

namespace Ledger

def Rest : Ledger → Prop
  | absent | settled _ => True
  | owing _ _ => False

/-- What the ledger says of the ride in the store `w`, when the operation began in `w₀`. -/
def Of (rid : Id) (w₀ w : World) : Ledger → Prop
  | absent => w.rides = w₀.rides ∧ w.history = w₀.history ∧ w₀.rides.find rid = none ∧ w₀.historyOf rid = []
  | settled r => w.rides.find rid = some r ∧ r.status ≠ .requested ∧ StatusLog (w.historyOf rid) r.status
  | owing r σ => w.rides.find rid = some r ∧ r.status ≠ .requested ∧ r.status ∈ σ.next ∧
      StatusLog (w.historyOf rid) σ

end Ledger

/-- Calls that leave the rides and the history. -/
def Call.Unrecorded : Call → Prop
  | .findRide _ | .findUnfinishedRide _ | .findCandidate _ _ | .findCandidates _ | .saveCandidate _
  | .requestRoute _ _ | .nearbyDrivers _ _ => True
  | op => op.Outside

/-- The calls of an operation on the ride, and the ledger after them. -/
inductive LedgerMove (rid : Id) (w : World) : Ledger → Call → Ledger → Prop
  | unrecorded {l op} : op.Unrecorded → LedgerMove rid w l op l
  | rewrite {r m} : m.id = rid → m.status = r.status →
      LedgerMove rid w (.settled r) (.updateRideRow m) (.settled (r.writeColumns m))
  | change {r m} : m.id = rid → m.status ≠ .requested → m.status ∈ r.status.next →
      LedgerMove rid w (.settled r) (.updateRideRow m) (.owing (r.writeColumns m) r.status)
  | record {r σ context} : LedgerMove rid w (.owing r σ)
      (.saveHistory ⟨rid, some σ, r.status, context⟩) (.settled r)
  | claim {r d} : r.driverId = none → LedgerMove rid w (.settled r) (.claimDriver rid d)
      (.settled { r with driverId := some d })
  | create {options n} : options.ride.status = .candidatesComputed →
      options.historyEntries = buildInitialHistoryEntries n → rid = w.rides.nextKey →
      (∀ d ∈ options.nearbyDrivers, d.driverId ≠ none) → LedgerMove rid w .absent (.insertRide options)
        (.settled (World.newRide options.ride options.now rid))
  | refuse {options} : rid = w.rides.nextKey → (∃ d ∈ options.nearbyDrivers, d.driverId = none) →
      LedgerMove rid w .absent (.insertRide options) .absent

/-- The operation keeps the record of its ride, and leaves the other rides alone. -/
def ledgerOutline (rid : Id) (w₀ : World) : Outline Ledger Call World where
  pre l w := l.Of rid w₀ w ∧
    ∀ k, k ≠ rid → w.rides.find k = w₀.rides.find k ∧ w.historyOf k = w₀.historyOf k
  move l op w l' := LedgerMove rid w l op l'

section Effects

variable {w w₀ : World} {rid : Id} {l l' : Ledger} {op : Call}

theorem Call.Unrecorded.tables (h : op.Unrecorded) (env : Environment) (w : World) :
    (handle env op w).2.rides = w.rides ∧ (handle env op w).2.history = w.history := by
  cases op with
  | saveCandidate n =>
    simp only [handle, World.saveCandidate]
    split <;> exact ⟨rfl, rfl⟩
  | _ => first | exact ⟨rfl, rfl⟩ | exact h.elim

theorem World.historyOf_congr {w w' : World} (h : w'.history = w.history) (k : Id) :
    w'.historyOf k = w.historyOf k := by
  unfold World.historyOf
  rw [h]

theorem historyOf_saved (w : World) (entry : RideStatusHistory) (k : Id) :
    ({ w with history := w.history ++ [entry] } : World).historyOf k =
      w.historyOf k ++ if entry.rideId = k then [(entry.fromStatus, entry.toStatus)] else [] := by
  unfold World.historyOf
  rw [List.filter_append, List.map_append]
  by_cases hk : entry.rideId = k
  · simp [hk]
  · simp [hk]

/-- An UPDATE of one ride leaves the other rows and the history. -/
theorem updateRideRow_frame (env : Environment) (w : World) (m : Ride) :
    (handle env (.updateRideRow m) w).2.history = w.history ∧
    ∀ k, k ≠ m.id → (handle env (.updateRideRow m) w).2.rides.find k = w.rides.find k := by
  simp only [handle, World.updateRideRow]
  cases hx : w.rides.find m.id with
  | none => exact ⟨rfl, fun _ _ => rfl⟩
  | some stored =>
    have hid : stored.id = m.id := Table.key_of_find hx
    exact ⟨rfl, fun k hk => Table.find_put_ne (by rw [← hid] at hk; exact hk)⟩

theorem updateRideRow_row (env : Environment) {r m : Ride} (hr : w.rides.find rid = some r)
    (hid : m.id = rid) : (handle env (.updateRideRow m) w).2.rides.find rid = some (r.writeColumns m) := by
  have hrid : r.id = rid := Table.key_of_find hr
  have hrow := find_handle env (.updateRideRow m) (r := r) (by rw [hrid]; exact hr)
  rwa [hrid, Call.onRide, if_pos (hid.trans hrid.symm)] at hrow

theorem claimDriver_frame (env : Environment) (w : World) (rid d : Id) :
    (handle env (.claimDriver rid d) w).2.history = w.history ∧
    ∀ k, k ≠ rid → (handle env (.claimDriver rid d) w).2.rides.find k = w.rides.find k := by
  simp only [handle, World.claimDriver]
  cases hx : w.rides.find rid with
  | none => exact ⟨rfl, fun _ _ => rfl⟩
  | some stored =>
    have hid : stored.id = rid := Table.key_of_find hx
    simp only
    split
    · exact ⟨rfl, fun _ _ => rfl⟩
    · exact ⟨rfl, fun k hk => Table.find_put_ne (by rw [← hid] at hk; exact hk)⟩

/-- Entries of the history are never taken back. -/
theorem handle_history (env : Environment) (op : Call) (w : World) :
    w.history <+: (handle env op w).2.history := by
  have hpersist (d : RidePaymentDetail) : (w.persistDetail d).2.history = w.history := by
    unfold World.persistDetail
    split <;> rfl
  have hpay (v : World) (rid : Id) (s : Option ERidePaymentStatus) (url : Option String) :
      (v.updatePaymentState rid s url).2.history = v.history := by
    unfold World.updatePaymentState
    split <;> rfl
  cases op with
  | saveHistory entry => exact List.prefix_append _ _
  | updateRideRow m =>
    rw [(updateRideRow_frame env w m).1]
  | claimDriver rid d =>
    rw [(claimDriver_frame env w rid d).1]
  | insertRide options =>
    by_cases hd : ∀ d ∈ options.nearbyDrivers, d.driverId ≠ none
    · simp only [handle]
      rw [insertRide_history hd]
      exact List.prefix_append _ _
    · simp only [handle]
      rw [insertRide_kept (by simpa using hd)]
  | saveCandidate c =>
    have hquiet : (Call.saveCandidate c).Unrecorded := trivial
    rw [(hquiet.tables env w).2]
  | updatePaymentState rid s url =>
    have hw := hpay w rid s url
    exact hw ▸ List.prefix_rfl
  | saveDetail d => exact hpersist d ▸ List.prefix_rfl
  | saveDetailAndOutbox d input => exact hpersist d ▸ List.prefix_rfl
  | saveDetailWithRideUpdate d update outbox now =>
    have hw : (w.saveDetailWithRideUpdate d update outbox now).2.history = w.history := by
      cases update with
      | none => cases outbox <;> exact hpersist d
      | some u =>
        have hu := (hpay (w.persistDetail d).2 u.rideId u.paymentStatus u.paymentUrl).trans (hpersist d)
        cases outbox <;> exact hu
    exact hw ▸ List.prefix_rfl
  | takePaymentJob id =>
    have hw : (w.takePaymentJob id).2.history = w.history := by
      unfold World.takePaymentJob
      split
      · split <;> rfl
      · rfl
    exact hw ▸ List.prefix_rfl
  | finishPaymentJob id ok =>
    have hw : (w.finishPaymentJob id ok).history = w.history := by
      unfold World.finishPaymentJob
      split <;> rfl
    exact hw ▸ List.prefix_rfl
  | _ => exact List.prefix_rfl

theorem run_history {α : Type} (env : Environment) (p : Service α) (w : World) :
    w.history <+: (p.run (handle env) w).2.history :=
  Program.keeps_of_handler (R := fun s t : World => s.history <+: t.history) (fun _ => List.prefix_rfl)
    (fun _ _ _ h h' => h.trans h') (handle_history env) p w

/-- A call of the operation keeps the ledger. -/
theorem LedgerMove.step (hm : LedgerMove rid w l op l') (env : Environment)
    (h : (ledgerOutline rid w₀).pre l w) : (ledgerOutline rid w₀).pre l' (handle env op w).2 := by
  obtain ⟨hof, hothers⟩ := h
  cases hm with
  | unrecorded hq =>
    obtain ⟨hr, hh⟩ := hq.tables env w
    have hlog (k : Id) := World.historyOf_congr hh k
    refine ⟨?_, fun k hk => by rw [hr, hlog]; exact hothers k hk⟩
    cases l with
    | absent => exact ⟨hr.trans hof.1, hh.trans hof.2.1, hof.2.2⟩
    | settled r =>
      unfold Ledger.Of
      rw [hr, hlog]
      exact hof
    | owing r σ =>
      unfold Ledger.Of
      rw [hr, hlog]
      exact hof
  | @rewrite r m hid hs =>
    obtain ⟨hr, hne, hlog⟩ := hof
    obtain ⟨hh, hframe⟩ := updateRideRow_frame env w m
    have hrow := updateRideRow_row env hr hid
    refine ⟨⟨hrow, ?_, ?_⟩, fun k hk => ?_⟩
    · exact fun he => hne (hs.symm.trans he)
    · rw [World.historyOf_congr hh]
      exact hs.symm ▸ hlog
    · rw [hframe k (hid.symm ▸ hk), World.historyOf_congr hh]
      exact hothers k hk
  | @change r m hid hne hs =>
    obtain ⟨hr, -, hlog⟩ := hof
    obtain ⟨hh, hframe⟩ := updateRideRow_frame env w m
    have hrow := updateRideRow_row env hr hid
    refine ⟨⟨hrow, hne, hs, ?_⟩, fun k hk => ?_⟩
    · rw [World.historyOf_congr hh]
      exact hlog
    · rw [hframe k (hid.symm ▸ hk), World.historyOf_congr hh]
      exact hothers k hk
  | record =>
    obtain ⟨hr, hne, hs, hlog⟩ := hof
    refine ⟨⟨hr, hne, ?_⟩, fun k hk => ⟨(hothers k hk).1, ?_⟩⟩
    · simp only [handle, historyOf_saved, if_true]
      exact hlog.append hs
    · simp only [handle, historyOf_saved, if_neg (Ne.symm hk), List.append_nil]
      exact (hothers k hk).2
  | @claim r d hd =>
    obtain ⟨hr, hne, hlog⟩ := hof
    have hid : r.id = rid := Table.key_of_find hr
    obtain ⟨hh, hframe⟩ := claimDriver_frame env w rid d
    have hrow := find_handle env (.claimDriver rid d) (r := r) (by rw [hid]; exact hr)
    rw [hid, Call.onRide, if_pos ⟨hid.symm, hd⟩] at hrow
    refine ⟨⟨hrow, hne, ?_⟩, fun k hk => ?_⟩
    · rw [World.historyOf_congr hh]
      exact hlog
    · rw [hframe k hk, World.historyOf_congr hh]
      exact hothers k hk
  | @create options n hs hentries hkey hd =>
    obtain ⟨hrides, hhistory, hnone, hempty⟩ := hof
    have hfind (k : Id) := congrArg (Table.find · k) (insertRide_rides (w := w) hd)
    have hlog (k : Id) : (handle env (.insertRide options) w).2.historyOf k = w.historyOf k ++
        if rid = k then [(none, .requested), (some .requested, .candidatesComputed)] else [] := by
      have hh : (handle env (.insertRide options) w).2.history = _ := insertRide_history hd
      unfold World.historyOf
      rw [hh, hentries, ← hkey]
      by_cases hk : rid = k
      · simp [hk, buildInitialHistoryEntries]
      · simp [hk, buildInitialHistoryEntries]
    refine ⟨⟨?_, ?_, ?_⟩, fun k hk => ⟨?_, ?_⟩⟩
    · refine (hfind rid).trans ?_
      rw [hkey]
      exact (Table.find_insert _).trans (if_pos rfl)
    · intro he
      cases hs.symm.trans he
    · rw [hlog, if_pos rfl, World.historyOf_congr hhistory, hempty]
      exact hs.symm ▸ statusLog_created
    · refine (hfind k).trans ?_
      refine (Table.find_insert _).trans ?_
      rw [if_neg (by rw [← hkey]; exact hk)]
      exact (hothers k hk).1
    · rw [hlog, if_neg (Ne.symm hk), List.append_nil]
      exact (hothers k hk).2
  | refuse hkey hd =>
    simp only [handle]
    rw [insertRide_kept hd]
    exact ⟨hof, hothers⟩

end Effects

/-- From ledger `l` the program keeps the record, and leaves nothing to be recorded. -/
abbrev Records {α : Type} (env : Environment) (rid : Id) (w₀ : World) (l : Ledger) (p : Service α) : Prop :=
  (ledgerOutline rid w₀).Follows (handle env) (fun l _ => l.Rest) l p

section Records

variable {env : Environment} {rid : Id} {w₀ : World} {l : Ledger} {r : Ride} {α β : Type}

theorem Call.Outside.unrecorded {op : Call} (h : op.Outside) : op.Unrecorded := by
  cases op <;> first | exact h | exact h.elim

theorem records_quiet {p : Service α} {f : α → Service β} (hp : p.Calls Call.Unrecorded) (hl : l.Rest)
    (hf : ∀ a, Records env rid w₀ l (f a)) : Records env rid w₀ l (p >>= f) :=
  Outline.Follows.quiet hp (fun _ _ hq _ => .unrecorded hq) (fun _ => hl) hf

theorem records_outside {p : Service α} {f : α → Service β} (hp : p.Calls Call.Outside) (hl : l.Rest)
    (hf : ∀ a, Records env rid w₀ l (f a)) : Records env rid w₀ l (p >>= f) :=
  records_quiet (hp.mono fun _ h => h.unrecorded) hl hf

theorem records_findById {f : Option Ride → Service β}
    (hf : r.id = rid → r.status ≠ .requested → Records env rid w₀ (.settled r) (f (some r))) :
    Records env rid w₀ (.settled r) (findById rid >>= f) := by
  apply Outline.Follows.perform
  rintro w ⟨⟨hr, hne, -⟩, -⟩
  refine ⟨.settled r, .unrecorded trivial, ?_⟩
  simpa [handle, hr] using hf (Table.key_of_find hr) hne

/-- Every operation begins by reading its ride, and refuses one that does not exist. -/
theorem records_opening {f : Option Ride → Service β} (hl : l.Rest) (hnone : ∃ e, f none = .throw e)
    (hsome : ∀ r, r.id = rid → r.status ≠ .requested → Records env rid w₀ (.settled r) (f (some r))) :
    Records env rid w₀ l (findById rid >>= f) := by
  cases l with
  | absent =>
    apply Outline.Follows.perform
    rintro w ⟨⟨hrides, -, hfind, -⟩, -⟩
    refine ⟨.absent, .unrecorded trivial, ?_⟩
    obtain ⟨e, he⟩ := hnone
    rw [← hrides] at hfind
    simp only [handle, hfind, Program.ofExcept_ok, Program.ret_bind, he]
    exact hl
  | settled r => exact records_findById (hsome r)
  | owing => exact hl.elim

theorem records_updateRide {m : Ride} {f : Ride → Service β} (hid : m.id = rid) (hs : m.status = r.status)
    (hf : ∀ x, x.id = rid → x.status = r.status → Records env rid w₀ (.settled x) (f x)) :
    Records env rid w₀ (.settled r) (updateRide m.changes >>= f) := by
  unfold updateRide
  have hc : m.changes.id = rid := hid
  simp only [bind_assoc, hc]
  apply records_findById
  intro hr _
  simp only [bind_assoc]
  apply Outline.Follows.perform
  rintro w ⟨⟨hfind, -⟩, -⟩
  refine ⟨_, .rewrite hid hs, ?_⟩
  simp only [handle, World.updateRideRow, merge_id, hid, hfind, Prod.map, Program.ofExcept_ok,
    Program.ret_bind, UpdateResult.length, Nat.reduceEqDiff, if_false, bind_assoc]
  apply records_findById
  intro hx _
  exact hf _ hx hs

theorem records_reread {σ : ERideStatus} {f : Option Ride → Service β}
    (hf : r.id = rid → Records env rid w₀ (.owing r σ) (f (some r))) :
    Records env rid w₀ (.owing r σ) (findById rid >>= f) := by
  apply Outline.Follows.perform
  rintro w ⟨⟨hr, -⟩, -⟩
  refine ⟨.owing r σ, .unrecorded trivial, ?_⟩
  simpa [handle, hr] using hf (Table.key_of_find hr)

/-- A transition changes the status and records the change. -/
theorem records_transition {allowed : List ERideStatus} {next : ERideStatus} {context : Option String}
    {f : Ride × Bool → Service β} (hnext : next ≠ .requested)
    (hlawful : r.status ∈ allowed → r.status ≠ next → next ∈ r.status.next)
    (hf : ∀ x changed, x.id = rid → x.status = (if r.status ∈ allowed then next else r.status) →
      Records env rid w₀ (.settled x) (f (x, changed))) :
    Records env rid w₀ (.settled r) (transitionRideStatus rid allowed next context >>= f) := by
  unfold transitionRideStatus
  simp only [bind_assoc]
  apply records_findById
  intro hr _
  simp only
  split
  · next hn => exact hf r false hr (by rw [if_neg hn])
  · next ha =>
    rw [not_not] at ha
    split
    · next he => exact hf r false hr (by rw [if_pos ha, he])
    · next hne =>
      unfold updateRide
      have hc : (withStatus r next context).changes.id = rid := hr
      simp only [bind_assoc, hc]
      apply records_findById
      intro _ _
      simp only [bind_assoc]
      apply Outline.Follows.perform
      rintro w ⟨⟨hfind, -⟩, -⟩
      refine ⟨_, .change hr hnext (hlawful ha hne), ?_⟩
      have hid : (withStatus r next context).id = rid := hr
      simp only [handle, World.updateRideRow, merge_id, hid, hfind, Prod.map, Program.ofExcept_ok,
        Program.ret_bind, UpdateResult.length, Nat.reduceEqDiff, if_false, bind_assoc]
      apply records_reread
      intro hx
      refine Outline.Follows.perform fun v _ => ⟨_, ?_, hf _ true hx (by rw [if_pos ha]; rfl)⟩
      rw [hx]
      exact .record

theorem lawful_of_mem {allowed : List ERideStatus} {next : ERideStatus}
    (h : ∀ σ ∈ allowed, σ ≠ next → next ∈ σ.next) (ha : r.status ∈ allowed) (hne : r.status ≠ next) :
    next ∈ r.status.next := h _ ha hne

/-- Reading the ride again at the end of an operation. -/
theorem records_refreshed {f : Option Ride → α} (hl : l.Rest) :
    Records env rid w₀ l (do let refreshed ← findById rid; return f refreshed) :=
  records_quiet (calls_call trivial) hl fun _ => hl

theorem unrecorded_saveMany {rows : List RideDriverCandidate} : (saveMany rows).Calls Call.Unrecorded :=
  calls_forM (fun _ => calls_call trivial) rows

theorem records_acceptClaimedRide {c : RideDriverCandidate} {now : Time} (hne : r.status ≠ .requested) :
    Records env rid w₀ (.settled r) (acceptClaimedRide rid c now) := by
  unfold acceptClaimedRide
  refine records_quiet (calls_call trivial) trivial fun _ => ?_
  apply records_transition (by decide)
  · intro ha _
    have hs : r.status = .candidatesComputed := by simpa [hne] using ha
    rw [hs]
    decide
  intro x _ hx hxs
  simp only [hx]
  apply records_transition (by decide)
  · intro ha _
    have hs : x.status = .assigned := by
      rw [hxs] at ha ⊢
      split at ha
      · next h => rw [if_pos h]
      · next h => rw [if_neg h]; simp_all
    rw [hs]
    decide
  intro y _ _ _
  exact records_outside outside_dispatch trivial fun _ => records_refreshed trivial

theorem records_superseded {c : RideDriverCandidate} {now : Time} {f : Unit → Service β} (hl : l.Rest)
    (hf : Records env rid w₀ l (f ())) : Records env rid w₀ l (markCandidateSuperseded r c now >>= f) := by
  unfold markCandidateSuperseded
  simp only [bind_assoc]
  refine records_quiet (calls_call trivial) hl fun _ => ?_
  exact records_outside outside_dispatch hl fun _ => hf

theorem records_acceptRideByDriver {d : Id} {now : Time} (hl : l.Rest) :
    Records env rid w₀ l (acceptRideByDriver rid d now) := by
  unfold acceptRideByDriver
  apply records_opening hl ⟨_, rfl⟩
  intro r hr hne
  subst hr
  simp only [↓Program.throw_seq]
  split
  · trivial
  split
  · trivial
  refine records_quiet (calls_call trivial) trivial fun o => ?_
  cases o with
  | none => trivial
  | some c =>
    simp only
    split
    · trivial
    split
    · trivial
    split
    · trivial
    cases hd : r.driverId with
    | some holder =>
      simp only
      split
      · exact records_superseded trivial trivial
      · exact records_acceptClaimedRide hne
    | none =>
      apply Outline.Follows.perform
      rintro w ⟨⟨hfind, -⟩, -⟩
      refine ⟨_, .claim hd, ?_⟩
      simp only [handle, World.claimDriver, hfind, hd, Program.ofExcept_ok, Program.ret_bind]
      split
      · exact records_acceptClaimedRide hne
      · next hno => exact absurd rfl hno

theorem records_rejectRideByDriver {d : Id} {reason : Option String} {now : Time} (hl : l.Rest) :
    Records env rid w₀ l (rejectRideByDriver rid d reason now) := by
  unfold rejectRideByDriver
  apply records_opening hl ⟨_, rfl⟩
  intro r hr _
  subst hr
  simp only [↓Program.throw_seq]
  split
  · trivial
  split
  · trivial
  split
  · trivial
  refine records_quiet (calls_call trivial) trivial fun o => ?_
  cases o with
  | none => trivial
  | some c =>
    simp only
    split
    · trivial
    split
    · trivial
    refine records_quiet (calls_call trivial) trivial fun _ => ?_
    split
    · apply records_updateRide (r := r) (m := { r with driverId := none }) rfl rfl
      intro x hx _
      rw [hx]
      apply records_transition (by decide)
      · exact lawful_of_mem (by decide)
      intro y _ hy _
      rw [pure_bind, hy]
      exact records_outside outside_dispatch trivial fun _ => records_refreshed trivial
    · rw [pure_bind]
      exact records_outside outside_dispatch trivial fun _ => records_refreshed trivial

theorem records_confirmDriverAcceptance {riderId : Id} {now : Time} (hl : l.Rest) :
    Records env rid w₀ l (confirmDriverAcceptance rid riderId now) := by
  unfold confirmDriverAcceptance
  apply records_opening hl ⟨_, rfl⟩
  intro r hr _
  subst hr
  simp only [↓Program.throw_seq]
  split
  · trivial
  cases r.driverId with
  | none => trivial
  | some d =>
    simp only
    split
    · trivial
    split
    · trivial
    split
    · trivial
    split
    · trivial
    refine records_quiet (calls_call trivial) trivial fun o => ?_
    cases o with
    | none => trivial
    | some c =>
      simp only
      split
      · trivial
      apply records_transition (by decide)
      · exact lawful_of_mem (by decide)
      intro x _ hx _
      refine records_quiet (calls_call trivial) trivial fun candidates => ?_
      refine records_quiet unrecorded_saveMany trivial fun _ => ?_
      refine records_outside outside_riderConfirmed trivial fun _ => ?_
      refine records_outside (calls_forM (fun _ => outside_dispatch) _) trivial fun _ => ?_
      rw [hx]
      exact records_refreshed trivial

theorem records_rejectDriverAcceptance {riderId : Id} {reason : Option String} {now : Time} (hl : l.Rest) :
    Records env rid w₀ l (rejectDriverAcceptance rid riderId reason now) := by
  unfold rejectDriverAcceptance
  apply records_opening hl ⟨_, rfl⟩
  intro r hr _
  subst hr
  simp only [↓Program.throw_seq]
  split
  · trivial
  cases r.driverId with
  | none => trivial
  | some d =>
    simp only
    split
    · trivial
    split
    · trivial
    split
    · trivial
    split
    · trivial
    refine records_quiet (calls_call trivial) trivial fun o => ?_
    cases o with
    | none => trivial
    | some c =>
      refine records_quiet (calls_call trivial) trivial fun _ => ?_
      apply records_updateRide (r := r) (m := { r with driverId := none }) rfl rfl
      intro x hx _
      apply records_transition (by decide)
      · exact lawful_of_mem (by decide)
      intro y _ hy _
      refine records_outside outside_dispatch trivial fun _ => ?_
      rw [hy]
      exact records_refreshed trivial

theorem records_cancelRide {requester : RequestingClient} {reason : Option String} {now : Time} (hl : l.Rest) :
    Records env rid w₀ l (cancelRide rid requester reason now) := by
  unfold cancelRide
  apply records_opening hl ⟨_, rfl⟩
  intro r hr _
  subst hr
  simp only [↓Program.throw_seq]
  split
  · trivial
  split
  · trivial
  split
  · trivial
  refine records_quiet (calls_call trivial) trivial fun _ => ?_
  apply records_transition (by decide)
  · exact lawful_of_mem (by decide)
  intro x _ hx _
  apply records_updateRide (r := x) (m := withCancellation x reason) hx rfl
  intro y _ _
  simp only
  refine records_quiet (calls_call trivial) trivial fun candidates => ?_
  have hid : (withCancellation x reason).id = r.id := hx
  rw [hid]
  split
  · refine records_quiet unrecorded_saveMany trivial fun _ => ?_
    refine records_outside (calls_forM (fun _ => outside_dispatch) _) trivial fun _ => ?_
    exact records_refreshed trivial
  · exact records_refreshed trivial

theorem records_startRide {driverId : Option Id} {location : ParticipantLocation} (hl : l.Rest) :
    Records env rid w₀ l (startRide env rid driverId location) := by
  unfold startRide
  cases driverId with
  | none => exact hl
  | some d =>
    apply records_opening hl ⟨_, rfl⟩
    intro r hr _
    subst hr
    simp only [↓Program.throw_seq]
    split
    · trivial
    split
    · trivial
    split
    · trivial
    split
    · trivial
    refine records_outside outside_atPickup trivial fun _ => ?_
    refine records_outside outside_recordLocation trivial fun _ => ?_
    apply records_transition (by decide)
    · exact lawful_of_mem (by decide)
    intro x changed hx _
    refine records_quiet (calls_call trivial) trivial fun refreshed => ?_
    simp only
    split
    · exact records_outside outside_both trivial fun _ => trivial
    · trivial

theorem records_completeRide {requester : RequestingClient} {location : ParticipantLocation}
    {discount : Option JsNumber} (hl : l.Rest) :
    Records env rid w₀ l (completeRide env rid requester location discount) := by
  unfold completeRide
  cases requester.id with
  | none => exact hl
  | some id =>
    apply records_opening hl ⟨_, rfl⟩
    intro r hr _
    subst hr
    simp only [↓Program.throw_seq]
    split
    · trivial
    split
    · trivial
    split
    · trivial
    refine records_outside outside_atDropoff trivial fun _ => ?_
    refine records_outside outside_recordLocation trivial fun _ => ?_
    refine records_outside (outside_getState.bind fun _ => by simp) trivial fun total => ?_
    refine records_quiet (by simp) trivial fun fare => ?_
    unfold settleRide
    apply records_transition (by decide)
    · exact lawful_of_mem (by decide)
    intro x _ hx _
    refine records_outside outside_markRideCompleted trivial fun _ => ?_
    apply records_updateRide (r := x) (m := withFare x fare) hx rfl
    intro y _ _
    refine records_quiet (calls_call trivial) trivial fun refreshed => ?_
    exact records_outside outside_both trivial fun _ => trivial

theorem records_recordTripLocation {requester : RequestingClient} {location : ParticipantLocation}
    (hl : l.Rest) : Records env rid w₀ l (recordTripLocation rid requester location) := by
  unfold recordTripLocation
  cases requester.id with
  | none => exact hl
  | some id =>
    apply records_opening hl ⟨_, rfl⟩
    intro r _ _
    simp only [↓Program.throw_seq]
    refine records_outside outside_ensureAccess trivial fun _ => ?_
    split
    · trivial
    split
    · trivial
    rcases requester.role with _ | _ | _
    · trivial
    · exact records_outside outside_recordLocation trivial fun _ => trivial
    · simp only
      split
      · trivial
      · exact records_outside outside_recordLocation trivial fun _ => trivial

theorem records_insertRide {options : RideCreationOptions} {n : ℕ}
    {f : Id × List RideDriverCandidate → Service β} (hs : options.ride.status = .candidatesComputed)
    (hentries : options.historyEntries = buildInitialHistoryEntries n) (hrid : rid = w₀.rides.nextKey)
    (hf : ∀ l created, l.Rest → Records env rid w₀ l (f created)) :
    Records env rid w₀ .absent (call (.insertRide options) >>= f) := by
  apply Outline.Follows.perform
  rintro w ⟨⟨hrides, -⟩, -⟩
  have hkey : rid = w.rides.nextKey := by rw [hrides, hrid]
  have hrest (l : Ledger) (hl : l.Rest) :
      Records env rid w₀ l (Program.ofExcept (handle env (.insertRide options) w).1 >>= f) := by
    cases (handle env (.insertRide options) w).1 with
    | error e => exact hl
    | ok created => exact hf l created hl
  by_cases hd : ∀ d ∈ options.nearbyDrivers, d.driverId ≠ none
  · exact ⟨_, .create hs hentries hkey hd, hrest _ trivial⟩
  · push Not at hd
    exact ⟨_, .refuse hkey hd, hrest _ trivial⟩

theorem records_createRideBody {rider : Id} {payload : CreateRideInput} {now : Time}
    (hrid : rid = w₀.rides.nextKey) :
    Records env rid w₀ .absent (createRideBody env rider payload now) := by
  unfold createRideBody
  refine records_quiet (calls_call trivial) trivial fun route => ?_
  refine records_quiet (calls_call trivial) trivial fun near => ?_
  simp only [↓Program.throw_seq]
  split
  · trivial
  unfold createRideWithDetails
  simp only [bind_assoc]
  apply records_insertRide rfl rfl hrid
  intro l created hl
  refine records_quiet (calls_call trivial) hl fun o => ?_
  cases o with
  | none => exact hl
  | some ride =>
    simp only [pure_bind]
    refine records_outside (calls_forM (fun _ => outside_dispatch) _) hl fun _ => ?_
    exact records_outside outside_dispatch hl fun _ => hl

theorem records_createRide {rider : Option Id} {payload : CreateRideInput} {now : Time}
    (hrid : rid = w₀.rides.nextKey) :
    Records env rid w₀ .absent (createRide env rider payload now) := by
  unfold createRide
  cases rider with
  | none => trivial
  | some rider =>
    refine records_quiet (calls_call trivial) trivial fun existing => ?_
    simp only [↓Program.throw_seq]
    split
    · trivial
    · exact (records_createRideBody hrid).catching (fun _ _ h => h) fun _ _ h => h

variable (env) in
/-- An operation on a ride keeps the record of that ride. -/
theorem LifecycleOp.records {op : LifecycleOp} (hop : op.ride = some rid) (hl : l.Rest) :
    Records env rid w₀ l (op.program env) := by
  have discard {α : Type} {p : Service α} (hp : Records env rid w₀ l p) :
      Records env rid w₀ l (p >>= fun _ => pure ()) :=
    hp.bind (fun _ _ h => h) fun _ _ h => h
  cases op <;> cases hop
  case acceptRideByDriver => exact discard (records_acceptRideByDriver hl)
  case rejectRideByDriver => exact discard (records_rejectRideByDriver hl)
  case confirmDriverAcceptance => exact discard (records_confirmDriverAcceptance hl)
  case rejectDriverAcceptance => exact discard (records_rejectDriverAcceptance hl)
  case cancelRide => exact discard (records_cancelRide hl)
  case startRide => exact discard (records_startRide hl)
  case completeRide => exact discard (records_completeRide hl)
  case recordTripLocation => exact records_recordTripLocation hl

end Records

/-- The history records of every ride how it came to its status, and nothing of a ride
that does not exist. -/
def World.Logged (w : World) : Prop :=
  ∀ rid, match w.rides.find rid with
    | none => w.historyOf rid = []
    | some r => r.status ≠ .requested ∧ StatusLog (w.historyOf rid) r.status

section Logged

variable {env : Environment} {w w' : World} {rid : Id} {l : Ledger}

theorem World.Logged.ledger (h : w.Logged) (rid : Id) :
    ∃ l : Ledger, l.Rest ∧ (ledgerOutline rid w).pre l w := by
  have hrid := h rid
  cases hr : w.rides.find rid with
  | none =>
    rw [hr] at hrid
    exact ⟨.absent, trivial, ⟨rfl, rfl, hr, hrid⟩, fun _ _ => ⟨rfl, rfl⟩⟩
  | some r =>
    rw [hr] at hrid
    exact ⟨.settled r, trivial, ⟨hr, hrid⟩, fun _ _ => ⟨rfl, rfl⟩⟩

/-- An operation that ends with nothing to record leaves every ride recorded. -/
theorem World.Logged.of_rest (h : w.Logged) (hl : l.Rest) (hpre : (ledgerOutline rid w).pre l w') :
    w'.Logged := by
  obtain ⟨hof, hothers⟩ := hpre
  intro k
  by_cases hk : k = rid
  · subst hk
    cases l with
    | absent =>
      obtain ⟨hrides, hhistory, hfind, hempty⟩ := hof
      rw [hrides, hfind]
      exact (World.historyOf_congr hhistory k).trans hempty
    | settled r =>
      obtain ⟨hfind, hr⟩ := hof
      rw [hfind]
      exact hr
    | owing => exact hl.elim
  · obtain ⟨hfind, hlog⟩ := hothers k hk
    rw [hfind, hlog]
    exact h k

theorem World.Logged.run {p : Service Unit} (h : w.Logged) (hp : Records env rid w l p)
    (hpre : (ledgerOutline rid w).pre l w) : (p.run (handle env) w).2.Logged := by
  have hmove (l : Ledger) (op : Call) (s : World) (l' : Ledger)
      (hs : (ledgerOutline rid w).pre l s) (hm : LedgerMove rid s l op l') :
      (ledgerOutline rid w).pre l' (handle env op s).2 := hm.step env hs
  obtain ⟨l', hrest, hafter⟩ := Outline.Follows.run hmove hp hpre
  exact h.of_rest hrest hafter

theorem World.Logged.step (h : w.Logged) (op : LifecycleOp) : (op.step env w).Logged := by
  cases hop : op.ride with
  | some rid =>
    obtain ⟨l, hl, hpre⟩ := h.ledger rid
    exact h.run (op.records env hop hl) hpre
  | none =>
    cases op with
    | createRide rider payload now =>
      have hnew : w.historyOf w.rides.nextKey = [] := by
        have hkey := h w.rides.nextKey
        rwa [Table.find_nextKey] at hkey
      have hpre : (ledgerOutline w.rides.nextKey w).pre .absent w :=
        ⟨⟨rfl, rfl, Table.find_nextKey, hnew⟩, fun _ _ => ⟨rfl, rfl⟩⟩
      have hrecords : Records env w.rides.nextKey w .absent (createRide env rider payload now) :=
        records_createRide rfl
      exact h.run (hrecords.bind (fun _ _ hl => hl) fun _ _ hl => hl) hpre
    | _ => cases hop

theorem World.Logged.initial (whitelist : List String) : (World.initial whitelist).Logged := by
  intro rid
  rfl

theorem World.Logged.after (h : w.Logged) (ops : List LifecycleOp) : (w.after env ops).Logged :=
  Runs.invariant (fun _ op h _ => h.step op) h (Runs.meets_true w ops)

end Logged

/-- After any run of lifecycle operations the history of a ride is the chain of the
changes that led to its stored status. -/
theorem history_records_status (env : Environment) (whitelist : List String) (ops : List LifecycleOp)
    {rid : Id} {r : Ride} (hr : ((World.initial whitelist).after env ops).rides.find rid = some r) :
    StatusLog (((World.initial whitelist).after env ops).historyOf rid) r.status := by
  have hlogged : ((World.initial whitelist).after env ops).Logged :=
    (World.Logged.initial whitelist).after ops
  have hrid := hlogged rid
  rw [hr] at hrid
  exact hrid.2

theorem history_records_status_accepted : ∃ r : Ride, r.status = .accepted ∧
    StatusLog (((World.initial []).after (.around [7, 8]) acceptedRun).historyOf 1) r.status := by
  have h : ∃ r, ((World.initial []).after (.around [7, 8]) acceptedRun).rides.find 1 = some r ∧
      r.status = .accepted := by decide +kernel
  obtain ⟨r, hr, hs⟩ := h
  exact ⟨r, hs, history_records_status (.around [7, 8]) [] acceptedRun hr⟩

end NebLite
