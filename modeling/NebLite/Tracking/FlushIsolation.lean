import NebLite.Tracking.RedisFlush

/-! The flushes of one `flushAll` do not meet: each ends, in every interleaving, with what it does
alone. -/

namespace NebLite

open Atomic

section Rows

variable {V : Type} [DecidableEq V] {i j : Id}

theorem filter_set (l : List (SummaryEntry V)) (x : SummaryEntry V) :
    (SummaryEntry.set l x).filter (·.rideId = j) =
      if x.rideId = j then SummaryEntry.set (l.filter (·.rideId = j)) x else l.filter (·.rideId = j) := by
  have hmap : (l.map fun y => if y.rideId = x.rideId ∧ y.clientRole = x.clientRole then x else y).filter (·.rideId = j) =
      (l.filter (·.rideId = j)).map fun y => if y.rideId = x.rideId ∧ y.clientRole = x.clientRole then x else y := by
    rw [List.filter_map]
    congr 1
    refine List.filter_congr fun y _ => ?_
    simp only [Function.comp_apply]
    split
    · next hkey => rw [hkey.1]
    · rfl
  unfold SummaryEntry.set
  by_cases hj : x.rideId = j
  · have hany : ((l.filter (·.rideId = j)).any fun y => y.rideId == x.rideId && y.clientRole == x.clientRole) =
        l.any fun y => y.rideId == x.rideId && y.clientRole == x.clientRole := by
      rw [List.any_filter]
      refine List.any_congr rfl fun y => ?_
      subst hj
      cases hkey : y.rideId == x.rideId <;> simp_all
    rw [if_pos hj, hany]
    split
    · exact hmap
    · rw [List.filter_append]
      simp [hj]
  · rw [if_neg hj]
    split
    · rw [hmap]
      refine (List.map_congr_left fun y hy => ?_).trans (List.map_id _)
      have hride : y.rideId = j := by simpa using (List.mem_filter.mp hy).2
      exact if_neg fun hkey => hj (hkey.1.symm.trans hride)
    · rw [List.filter_append]
      simp [hj]

/-- The upserts of ride `i` in the rows of ride `j`. -/
theorem filter_foldl_set {xs : List (SummaryEntry V)} (hxs : ∀ x ∈ xs, x.rideId = i) (l : List (SummaryEntry V)) :
    (xs.foldl SummaryEntry.set l).filter (·.rideId = j) =
      if j = i then xs.foldl SummaryEntry.set (l.filter (·.rideId = j)) else l.filter (·.rideId = j) := by
  induction xs generalizing l with
  | nil => simp
  | cons x xs ih =>
    have hx := hxs x List.mem_cons_self
    rw [List.foldl_cons, ih (fun y hy => hxs y (List.mem_cons_of_mem x hy)), filter_set, hx, List.foldl_cons]
    by_cases hj : j = i
    · rw [if_pos hj, if_pos hj.symm, if_pos hj]
    · rw [if_neg hj, if_neg fun he => hj he.symm, if_neg hj]

omit [DecidableEq V] in
theorem filter_rideEntries {entries : List (TrackEntry V)} (hentries : ∀ e ∈ entries, e.rideId = i) :
    entries.filter (·.rideId = j) = if j = i then entries else [] := by
  split
  · next hj => exact List.filter_eq_self.mpr fun e he => by simp [hentries e he, hj]
  · next hj => exact List.filter_eq_nil_iff.mpr fun e he => by simpa [hentries e he] using fun h => hj h.symm

end Rows

/-- The rows of a transaction are those of ride `i`. -/
def FlushTransaction.Owned {V : Type} (i : Id) : FlushTransaction V → Prop
  | running entries summaries => (∀ e ∈ entries, e.rideId = i) ∧ ∀ x ∈ summaries, x.rideId = i
  | _ => True

/-- The rows of a command are those of ride `i`. -/
def FlushCommand.About {V : Type} (i : Id) : FlushCommand V → Prop
  | insertMany entries => ∀ e ∈ entries, e.rideId = i
  | upsertSummaries summaries => ∀ x ∈ summaries, x.rideId = i
  | _ => True

/-- The commands of the flush of ride `i`. -/
def RideCommand.Own {V : Type} (i : Id) (c : RideCommand V) : Prop := c.rideId = i ∧ c.command.About i

namespace FlushStore

variable {V : Type} {i j : Id} {s : FlushStore V}

/-- Every flush has rows of its own ride in its transaction. -/
def Owned (s : FlushStore V) : Prop := ∀ i, (s.transaction i).Owned i

/-- The part of ride `i`. -/
abbrev part (i : Id) (s : FlushStore V) : RideStore V := s.ride i

theorem Owned.setTransaction (hs : s.Owned) {transaction : FlushTransaction V} (h : transaction.Owned i) :
    (s.setTransaction i transaction).Owned := by
  intro j
  unfold FlushStore.setTransaction
  by_cases hj : j = i
  · subst hj
    simpa only [Function.update_self] using h
  · simpa only [Function.update_of_ne hj] using hs j

section Changes

variable (i)

theorem local_setState (value : Option RedisValue) :
    Local part Owned Owned i fun s : FlushStore V => ((), s.setState i value) :=
  .change (fun r => { r with state := value }) (fun _ hs => hs)
    (fun s _ => by simp [part, ride, FlushStore.setState])
    fun j hj s _ => by simp [part, ride, FlushStore.setState, Function.update_of_ne hj]

theorem local_setEvents (value : Option RedisValue) :
    Local part Owned Owned i fun s : FlushStore V => ((), s.setEvents i value) :=
  .change (fun r => { r with events := value }) (fun _ hs => hs)
    (fun s _ => by simp [part, ride, FlushStore.setEvents])
    fun j hj s _ => by simp [part, ride, FlushStore.setEvents, Function.update_of_ne hj]

theorem local_deactivate : Local part Owned Owned i fun s : FlushStore V => ((), s.deactivate i) :=
  .change (fun r => { r with active := false }) (fun _ hs => hs)
    (fun s _ => by simp [part, ride, FlushStore.deactivate])
    fun j hj s _ => by simp [part, ride, FlushStore.deactivate, hj]

theorem local_counted : Local part Owned Owned i fun s : FlushStore V => ((), s.counted i) :=
  .change (fun r => { r with made := r.made + 1 }) (fun _ hs => hs)
    (fun s _ => by simp [part, ride, FlushStore.counted])
    fun j hj s _ => by simp [part, ride, FlushStore.counted, Function.update_of_ne hj]

theorem local_setTransaction {transaction : FlushTransaction V} (h : transaction.Owned i) :
    Local part Owned Owned i fun s : FlushStore V => ((), s.setTransaction i transaction) :=
  .change (fun r => { r with transaction }) (fun _ hs => hs.setTransaction h)
    (fun s _ => by simp [part, ride, FlushStore.setTransaction])
    fun j hj s _ => by simp [part, ride, FlushStore.setTransaction, Function.update_of_ne hj]

theorem local_addRows [DecidableEq V] {entries : List (TrackEntry V)} {summaries : List (SummaryEntry V)}
    (hentries : ∀ e ∈ entries, e.rideId = i) (hsummaries : ∀ x ∈ summaries, x.rideId = i) :
    Local part Owned Owned i fun s : FlushStore V => ((), s.addRows entries summaries) := by
  refine .change (fun r => { r with tracks := r.tracks ++ entries, summaries := summaries.foldl SummaryEntry.set r.summaries })
    (fun _ hs => hs) (fun s _ => ?_) fun j hj s _ => ?_
  · simp only [part, ride, addRows, List.filter_append, filter_rideEntries hentries, filter_foldl_set hsummaries, if_true]
  · simp only [part, ride, addRows, List.filter_append, filter_rideEntries hentries, filter_foldl_set hsummaries, if_neg hj,
      List.append_nil]

end Changes

theorem transaction_eq {s t : FlushStore V} (h : part i s = part i t) : s.transaction i = t.transaction i :=
  congrArg RideStore.transaction h

section Commands

variable [DecidableEq V] {entries : List (TrackEntry V)} {summaries : List (SummaryEntry V)}

/-- A statement with rows of the ride. -/
theorem local_write (taken : Bool) (hentries : ∀ e ∈ entries, e.rideId = i) (hsummaries : ∀ x ∈ summaries, x.rideId = i) :
    Local part Owned Owned i fun s : FlushStore V => s.write i taken entries summaries := by
  refine .of_value transaction_eq fun transaction hsome => ?_
  have hfails (e : ServiceError) : Local part Owned Owned i fun s : FlushStore V => ((.error e : Except _ Unit), s) :=
    Local.read fun _ => Except.error e
  have haborts : Local part Owned Owned i fun s : FlushStore V => ((), s.setTransaction i .failed) :=
    local_setTransaction i trivial
  cases transaction with
  | failed => exact (hfails transactionAborted).congr (fun _ hs => hs.1) fun s hs => by simp only [write, hs.2]
  | none =>
    cases taken with
    | true =>
      refine ((local_addRows i hentries hsummaries).answering (Except.ok ())).congr (fun _ hs => hs.1) fun s hs => ?_
      simp only [write, hs.2, if_true]
    | false => exact (hfails statementFailed).congr (fun _ hs => hs.1) fun s hs => by simp [write, hs.2]
  | running entries' summaries' =>
    cases taken with
    | true =>
      obtain ⟨s, hs, htransaction⟩ := hsome
      have howned := hs i
      rw [htransaction] at howned
      have hrows : (FlushTransaction.running (entries' ++ entries) (summaries' ++ summaries)).Owned i :=
        ⟨fun e he => (List.mem_append.mp he).elim (howned.1 e) (hentries e),
          fun x hx => (List.mem_append.mp hx).elim (howned.2 x) (hsummaries x)⟩
      refine ((local_setTransaction i hrows).answering (Except.ok ())).congr (fun _ hs => hs.1) fun s hs => ?_
      simp only [write, hs.2, if_true]
    | false =>
      refine (haborts.answering (Except.error statementFailed)).congr (fun _ hs => hs.1) fun s hs => ?_
      simp [write, hs.2]

theorem local_commit : Local part Owned Owned i fun s : FlushStore V => ((), s.commit i) := by
  refine .of_value transaction_eq fun transaction hsome => ?_
  have hends : Local part Owned Owned i fun s : FlushStore V => ((), s.setTransaction i .none) :=
    local_setTransaction i trivial
  cases transaction with
  | none => exact hends.congr (fun _ hs => hs.1) fun s hs => by simp only [commit, hs.2]
  | failed => exact hends.congr (fun _ hs => hs.1) fun s hs => by simp only [commit, hs.2]
  | running entries summaries =>
    obtain ⟨s, hs, htransaction⟩ := hsome
    have howned := hs i
    rw [htransaction] at howned
    refine ((local_addRows i howned.1 howned.2).after hends).congr (fun _ hs => hs.1) fun s hs => ?_
    simp only [commit, hs.2]

theorem local_perform (takes : FlushCommand V → Bool) {c : FlushCommand V} (hc : c.About i) :
    Local part Owned Owned i fun s : FlushStore V => s.perform i takes c := by
  have hends : Local part Owned Owned i fun s : FlushStore V => ((), s.setTransaction i .none) :=
    local_setTransaction i trivial
  have hdone {u : FlushStore V → FlushStore V} (hu : Local part Owned Owned i fun s => ((), u s)) :
      Local part Owned Owned i fun s => ((.ok () : Except ServiceError Unit), u s) := hu.answering _
  cases c with
  | lrangeEvents => exact Local.read fun r : RideStore V => RedisValue.lrange r.events
  | llenEvents => exact Local.read fun r : RideStore V => (RedisValue.lrange r.events).map List.length
  | delEvents => exact hdone (local_setEvents i none)
  | getState => exact Local.read fun r : RideStore V => RedisValue.get r.state
  | delState => exact hdone (local_setState i none)
  | sremActiveRide => exact hdone (local_deactivate i)
  | connect => exact hdone (Local.read fun _ => ())
  | startTransaction =>
    have hrows : (FlushTransaction.running ([] : List (TrackEntry V)) []).Owned i :=
      ⟨fun e he => absurd he List.not_mem_nil, fun x hx => absurd hx List.not_mem_nil⟩
    exact hdone (local_setTransaction i hrows)
  | insertMany entries => exact local_write _ hc fun x hx => absurd hx List.not_mem_nil
  | upsertSummaries summaries => exact local_write _ (fun e he => absurd he List.not_mem_nil) hc
  | commitTransaction => exact hdone local_commit
  | rollbackTransaction => exact hdone hends
  | release => exact hdone hends

omit [DecidableEq V] in
theorem local_refuse (c : FlushCommand V) : Local part Owned Owned i fun s : FlushStore V => ((), s.refuse i c) := by
  have hends : Local part Owned Owned i fun s : FlushStore V => ((), s.setTransaction i .none) :=
    local_setTransaction i trivial
  have hsame : Local part Owned Owned i fun s : FlushStore V => ((), s) := Local.read fun _ => ()
  have hfails : Local part Owned Owned i fun s : FlushStore V => ((), s.setTransaction i .failed) :=
    local_setTransaction i trivial
  cases c with
  | insertMany | upsertSummaries =>
    refine .of_value transaction_eq fun transaction _ => ?_
    cases transaction with
    | none => exact hsame.congr (fun _ hs => hs.1) fun s hs => by simp only [refuse, hs.2]
    | running | failed => exact hfails.congr (fun _ hs => hs.1) fun s hs => by simp only [refuse, hs.2]
  | commitTransaction | rollbackTransaction | release => exact hends
  | _ => exact hsame

end Commands

end FlushStore

section Separate

variable {V : Type} [DecidableEq V]

/-- The commands of a flush concern its own ride only. -/
theorem separate_rides (takes : FlushCommand V → Bool) (fault : Id → ℕ → CommandFault) :
    Separate (rideHandle takes fault) RideCommand.Own FlushStore.part FlushStore.Owned := by
  rintro i ⟨rideId, c⟩ ⟨hride, hc⟩
  obtain rfl : rideId = i := hride
  have hcounted := FlushStore.local_counted (V := V) rideId
  have hperform := hcounted.after (FlushStore.local_perform takes hc)
  have hrefuse := hcounted.after (FlushStore.local_refuse c)
  have hmade {s t : FlushStore V} (h : FlushStore.part rideId s = FlushStore.part rideId t) :
      fault rideId (s.made rideId) = fault rideId (t.made rideId) :=
    congrArg (fun r : RideStore V => fault rideId r.made) h
  refine .of_value hmade fun f _ => ?_
  cases f with
  | none => exact hperform.congr (fun _ hs => hs.1) fun s hs => by simp only [rideHandle, hs.2]
  | refused =>
    refine (hrefuse.answering (Except.error (.error "command failed"))).congr (fun _ hs => hs.1) fun s hs => ?_
    simp only [rideHandle, hs.2]
  | unanswered =>
    refine (hperform.answering (Except.error (.error "command timed out"))).congr (fun _ hs => hs.1) fun s hs => ?_
    simp only [rideHandle, hs.2]

end Separate

theorem mem_foldl_set {V : Type} [DecidableEq V] {xs l : List (SummaryEntry V)} {x : SummaryEntry V}
    (hx : x ∈ xs.foldl SummaryEntry.set l) : x ∈ l ∨ x ∈ xs := by
  induction xs generalizing l with
  | nil => exact .inl hx
  | cons y xs ih =>
    obtain hset | hrest := ih hx
    · unfold SummaryEntry.set at hset
      split at hset
      · obtain ⟨z, hz, rfl⟩ := List.mem_map.mp hset
        split
        · exact .inr List.mem_cons_self
        · exact .inl hz
      · obtain hl | hy := List.mem_append.mp hset
        · exact .inl hl
        · exact .inr (by simp [List.mem_singleton.mp hy])
    · exact .inr (List.mem_cons_of_mem y hrest)

namespace RedisFlush

section Own

variable {V : Type} {i : Id}

theorem own_send {c : FlushCommand V} (hc : c.About i) : (send i c).Calls (RideCommand.Own i) :=
  (Program.calls_perform _).mpr ⟨rfl, hc⟩

theorem own_persistFlush {entries : List (TrackEntry V)} {summaries : List (SummaryEntry V)}
    (hentries : ∀ e ∈ entries, e.rideId = i) (hsummaries : ∀ x ∈ summaries, x.rideId = i) :
    (persistFlush i entries summaries).Calls (RideCommand.Own i) := by
  have hinsert : (send i (.insertMany entries)).Calls (RideCommand.Own i) := own_send hentries
  have hupsert : (send i (.upsertSummaries summaries)).Calls (RideCommand.Own i) := own_send hsummaries
  unfold persistFlush
  split
  · exact Program.calls_pure _
  refine Program.Calls.finalizing ?_ (own_send (c := .release) trivial)
  refine (own_send (c := .connect) trivial).bind fun _ => ?_
  refine Program.Calls.catching ?_ fun e =>
    (own_send (c := .rollbackTransaction) trivial).bind fun _ => Program.calls_throw e
  refine (own_send (c := .startTransaction) trivial).bind fun _ => ?_
  have hcommit : (send i (.commitTransaction : FlushCommand V)).Calls (RideCommand.Own i) := own_send trivial
  cases entries.isEmpty with
  | true =>
    cases summaries.isEmpty with
    | true => exact hcommit
    | false => exact hupsert.bind fun _ => hcommit
  | false =>
    refine hinsert.bind fun _ => ?_
    cases summaries.isEmpty with
    | true => exact hcommit
    | false => exact hupsert.bind fun _ => hcommit

theorem own_cleanupRide : (cleanupRide i).Calls (RideCommand.Own (V := V) i) := by
  refine Program.Calls.bind (Program.Calls.attempt (own_send trivial)) fun state => ?_
  refine Program.Calls.bind (Program.Calls.attempt (own_send trivial)) fun events => ?_
  refine Program.Calls.bind (Program.Calls.attempt (own_send trivial)) fun active => ?_
  refine (Program.calls_ofExcept _).bind fun _ => ?_
  exact (Program.calls_ofExcept _).bind fun _ => Program.calls_ofExcept _

theorem own_getState [DecidableEq V] (json : TrackingJson V) : (getState json i).Calls (RideCommand.Own i) := by
  refine (own_send (c := .getState) trivial).bind fun payload => ?_
  cases payload with
  | none => exact Program.calls_pure _
  | some text => exact Program.calls_pure _

/-- A flush sends commands of its own ride only. -/
theorem own_flushRide [DecidableEq V] (json : TrackingJson V) (i : Id) :
    (flushRide json i).Calls (RideCommand.Own i) := by
  have hcleanup {completed : Bool} : (if completed then cleanupRide i else pure () : FlushProgram V Unit).Calls
      (RideCommand.Own i) := by
    cases completed with
    | true => exact own_cleanupRide
    | false => exact Program.calls_pure _
  refine Program.Calls.bind (own_send trivial) fun eventPayloads => ?_
  cases eventPayloads.isEmpty with
  | true =>
    refine (own_getState json).bind fun completed => ?_
    cases completed with
    | true => exact own_cleanupRide.bind fun _ => Program.calls_pure _
    | false => exact Program.calls_pure _
  | false =>
    refine Program.Calls.bind (own_send trivial) fun _ => ?_
    refine (own_persistFlush ?_ ?_).bind fun _ => ?_
    · intro e he
      obtain ⟨event, -, rfl⟩ := List.mem_map.mp he
      rfl
    · intro x hx
      obtain hnil | hx := mem_foldl_set hx
      · exact absurd hnil List.not_mem_nil
      · obtain ⟨event, -, rfl⟩ := List.mem_map.mp hx
        rfl
    · refine (own_getState json).bind fun completed => ?_
      cases completed with
      | true =>
        refine Program.Calls.bind (own_send trivial) fun remaining => ?_
        split
        · exact own_cleanupRide
        · exact Program.calls_pure _
      | false => exact Program.calls_pure _

theorem own_flushOne [DecidableEq V] (json : TrackingJson V) (rideIds : List Id) (i : Id) :
    (flushOne json i rideIds).Calls (RideCommand.Own i) := by
  unfold flushOne
  split
  · exact (own_flushRide json i).catching fun _ => Program.calls_pure _
  · exact Program.calls_pure _

end Own

section Bounds

variable {V α : Type} {i : Id} {n : ℕ}

theorem bounded_send {c : FlushCommand V} {f : c.Answer → FlushProgram V α} (hf : ∀ a, (f a).Bounded n) :
    (send i c >>= f).Bounded (n + 1) := by
  rw [Nat.add_comm]
  exact (Program.bounded_perform _).bind hf

theorem bounded_attempt {c : FlushCommand V} {f : Except ServiceError c.Answer → FlushProgram V α}
    (hf : ∀ r, (f r).Bounded n) : ((send i c).attempt >>= f).Bounded (n + 1) := by
  rw [Nat.add_comm]
  exact (Program.bounded_perform _).attempt.bind hf

theorem bounded_cleanupRide : (cleanupRide i : FlushProgram V Unit).Bounded 3 := by
  refine bounded_attempt fun state => bounded_attempt fun events => bounded_attempt fun active => ?_
  exact (Program.bounded_ofExcept state).bind fun _ =>
    (Program.bounded_ofExcept events).bind fun _ => Program.bounded_ofExcept active

theorem bounded_persistFlush (entries : List (TrackEntry V)) (summaries : List (SummaryEntry V)) :
    (persistFlush i entries summaries).Bounded 7 := by
  have hlast (c : FlushCommand V) : (send i c).Bounded 1 := Program.bounded_perform _
  have hrollback (e : ServiceError) : (do
      send i .rollbackTransaction
      throw e : FlushProgram V Unit).Bounded 1 := bounded_send (n := 0) fun _ => trivial
  have hcommit : (send i (.commitTransaction : FlushCommand V)).Bounded 1 := hlast _
  have hupsert : (send i (.upsertSummaries summaries) >>= fun _ => send i .commitTransaction).Bounded 2 :=
    bounded_send fun _ => hcommit
  unfold persistFlush
  split
  · trivial
  refine Program.Bounded.finalizing (n := 6) (m := 1) (bounded_send (n := 5) fun _ => ?_) (hlast .release)
  refine Program.Bounded.catching (n := 4) (m := 1) (bounded_send (n := 3) fun _ => ?_) hrollback
  cases entries.isEmpty with
  | true =>
    cases summaries.isEmpty with
    | true => exact hcommit.mono (by decide)
    | false => exact hupsert.mono (by decide)
  | false =>
    refine bounded_send (n := 2) fun _ => ?_
    cases summaries.isEmpty with
    | true => exact hcommit.mono (by decide)
    | false => exact hupsert

variable [DecidableEq V]

theorem bounded_getState (json : TrackingJson V) {f : Bool → FlushProgram V α} (hf : ∀ completed, (f completed).Bounded n) :
    (getState json i >>= f).Bounded (n + 1) := by
  have hget : (getState json i).Bounded (0 + 1) := by
    refine bounded_send fun payload => ?_
    cases payload <;> trivial
  exact (hget.bind hf).mono (by omega)

/-- A flush sends fourteen commands at most. -/
theorem bounded_flushRide (json : TrackingJson V) (i : Id) : (flushRide json i).Bounded 14 := by
  refine bounded_send fun eventPayloads => ?_
  cases eventPayloads.isEmpty with
  | true =>
    refine (bounded_getState (n := 3) json fun completed => ?_).mono (by decide)
    cases completed with
    | true => exact bounded_cleanupRide.bind (m := 0) fun _ => trivial
    | false => trivial
  | false =>
    refine bounded_send fun _ => Program.Bounded.bind (n := 7) (m := 5) (bounded_persistFlush _ _) fun _ => ?_
    refine bounded_getState json fun completed => ?_
    cases completed with
    | true =>
      refine bounded_send fun remaining => ?_
      split
      · exact bounded_cleanupRide
      · trivial
    | false => trivial

theorem bounded_flushOne (json : TrackingJson V) (rideIds : List Id) (i : Id) :
    (flushOne json i rideIds).Bounded (if i ∈ rideIds then 14 else 0) := by
  unfold flushOne
  split
  · exact (bounded_flushRide json i).catching (m := 0) fun _ => trivial
  · trivial

end Bounds

section FlushAll

variable {V : Type} [DecidableEq V] (json : TrackingJson V) (takes : FlushCommand V → Bool)
  (fault : Id → ℕ → CommandFault) (d : TripData V)

/-- `flushAll` after the commands of `sched`. -/
abbrev flushed (sched : List Id) : Pool Id (RideCommand V) RideCommand.Answer ServiceError Unit (FlushStore V) :=
  (flushAll json d).exec (rideHandle takes fault) sched

omit [DecidableEq V] in
theorem start_owned : d.start.Owned := fun _ => trivial

/-- The flush of one ride in `flushAll`, alone: the failure is caught, and its effect stays. -/
theorem run_flushOne (i : Id) (s : FlushStore V) :
    (flushOne json i d.active).run (rideHandle takes fault) s =
      (.ok (), if i ∈ d.active then ((flushRide json i).run (rideHandle takes fault) s).2 else s) := by
  unfold flushOne
  split
  · rw [Program.run_catching]
    rcases (flushRide json i).run (rideHandle takes fault) s with ⟨e | u, t⟩ <;> rfl
  · rfl

/-- A flush that has ended has returned, and has done to its ride what it does alone. -/
theorem ended_flushOne (sched : List Id) {i : Id}
    (hi : ((flushed json takes fault d sched).procs i).pending = none) :
    ((flushed json takes fault d sched).procs i).outcome = some (.ok ()) ∧
      (flushed json takes fault d sched).store.ride i =
        if i ∈ d.active then ((flushRide json i).run (rideHandle takes fault) d.start).2.ride i else d.start.ride i := by
  have hcalls : ∀ i, ((flushAll json d).procs i).Calls (RideCommand.Own i) := own_flushOne json d.active
  obtain ⟨houtcome, hpart⟩ := (separate_rides takes fault).exec_ended hcalls (start_owned d) sched hi
  have hrun : ((flushAll json d).procs i).run (rideHandle takes fault) (flushAll json d).store = _ :=
    run_flushOne json takes fault d i d.start
  rw [hrun] at houtcome hpart
  refine ⟨houtcome, hpart.trans ?_⟩
  split <;> rfl

theorem flushAll_ended {sched : List Id} (hturns : ∀ i ∈ d.active, 14 ≤ sched.count i) :
    (flushed json takes fault d sched).Ended := by
  intro i
  refine Pool.ended_of_turns (bounded_flushOne json d.active i) ?_
  split
  · next hi => exact hturns i hi
  · exact Nat.zero_le _

theorem flushAll_ne_error (sched : List Id) (e : ServiceError) :
    (flushed json takes fault d sched).all d.active ≠ some (.error e) := by
  intro h
  obtain ⟨i, -, hthrown⟩ := Pool.exists_of_all_error h
  have hended : ((flushed json takes fault d sched).procs i).pending = none := by rw [hthrown]; rfl
  have houtcome := (ended_flushOne json takes fault d sched hended).1
  rw [hthrown] at houtcome
  cases houtcome

/-- A ride that stays in the set is flushed, alone, as in the whole set. -/
theorem run_flushRide_keeping (kept : Id → Bool) {i : Id} (hi : kept i = true) :
    ((flushRide json i).run (rideHandle takes fault) { d with active := d.active.filter kept }.start).2.ride i =
      ((flushRide json i).run (rideHandle takes fault) d.start).2.ride i := by
  refine ((separate_rides takes fault).run_congr (own_flushRide json i) (start_owned _) (start_owned d) ?_).2
  have hactive : (d.active.filter kept).contains i = d.active.contains i := by simp [hi]
  simp only [FlushStore.part, FlushStore.ride, TripData.start, hactive]

end FlushAll

end RedisFlush

open RedisFlush

variable {V : Type} [DecidableEq V]

/-- The flushes of one `flushAll`, whose commands run in the order of `sched`: none of their failures
reaches `flushAll`, each ride ends as if it had been flushed alone, and as if any others had not been
in the set. -/
theorem flushAll_isolates (json : TrackingJson V) (takes : FlushCommand V → Bool) (fault : Id → ℕ → CommandFault)
    (d : TripData V) (sched : List Id) :
    (∀ e, (flushed json takes fault d sched).all d.active ≠ some (.error e)) ∧
      ((∀ i ∈ d.active, 14 ≤ sched.count i) → (flushed json takes fault d sched).Ended) ∧
      ((flushed json takes fault d sched).Ended →
        (flushed json takes fault d sched).all d.active = some (.ok ()) ∧
        (∀ i, (flushed json takes fault d sched).store.ride i =
          if i ∈ d.active then ((flushRide json i).run (rideHandle takes fault) d.start).2.ride i
          else d.start.ride i) ∧
        ∀ (kept : Id → Bool) (sched' : List Id),
          (flushed json takes fault { d with active := d.active.filter kept } sched').Ended →
          ∀ i ∈ d.active, kept i = true →
            (flushed json takes fault d sched).store.ride i =
              (flushed json takes fault { d with active := d.active.filter kept } sched').store.ride i) := by
  have hthrows := flushAll_ne_error json takes fault d sched
  refine ⟨hthrows, flushAll_ended json takes fault d, fun hended => ⟨Pool.all_of_ended hended hthrows, fun i => ?_, ?_⟩⟩
  · exact (ended_flushOne json takes fault d sched (hended i)).2
  · intro kept sched' hended' i hi hkept
    have hmem : i ∈ d.active.filter kept := List.mem_filter.mpr ⟨hi, hkept⟩
    have hwhole := (ended_flushOne json takes fault d sched (hended i)).2
    have hothers := (ended_flushOne json takes fault { d with active := d.active.filter kept } sched' (hended' i)).2
    rw [if_pos hi] at hwhole
    rw [if_pos hmem, run_flushRide_keeping json takes fault d kept hkept] at hothers
    exact hwhole.trans hothers.symm

def eventText : String :=
  "\x7b\"role\":\"driver\",\"clientId\":\"5\",\"longitude\":1,\"latitude\":2,\"recordedAt\":\"T\",\"distanceDeltaMeters\":3,\"totalDistanceMeters\":4\x7d"

def stateText : String := "\x7b\"completed\":true\x7d"

/-- What is read from these two texts, and from no other. -/
def twoTexts : TrackingJson String where
  undefined := "undefined"
  null := "null"
  driver := "driver"
  event text := if text = eventText then some ⟨"driver", "5", "1", "2", "T", "undefined", "3", "4"⟩ else none
  completed text := if text = stateText then some "true" else none
  truthy value := value != "false"
  newDate value := value
  isFinite _ := true

/-- A completed ride with an event and a text that does not parse, and one whose events are no list. -/
def twoRides : TripData String where
  state i := if i = 1 then some (.string stateText) else none
  events i := if i = 1 then some (.list [eventText, "oops"]) else if i = 2 then some .other else none
  active := [1, 2]
  tracks := []
  summaries := []

/-- The two flushes take turns. -/
def alternating : List Id := (List.replicate 14 [1, 2]).flatten

theorem flushAll_isolates_alternating :
    (flushed twoTexts (fun _ => true) (fun _ _ => .none) twoRides alternating).all [1, 2] = some (.ok ()) ∧
      (flushed twoTexts (fun _ => true) (fun _ _ => .none) twoRides alternating).store.ride 1 =
        ((flushRide twoTexts 1).run (rideHandle (fun _ => true) fun _ _ => .none) twoRides.start).2.ride 1 ∧
      (flushed twoTexts (fun _ => true) (fun _ _ => .none) twoRides alternating).store.ride 1 =
        (flushed twoTexts (fun _ => true) (fun _ _ => .none) { twoRides with active := twoRides.active.filter (· = 1) }
          alternating).store.ride 1 := by
  have hturns : ∀ i ∈ twoRides.active, 14 ≤ alternating.count i := by decide
  obtain ⟨-, hends, hended⟩ := flushAll_isolates twoTexts (fun _ => true) (fun _ _ => .none) twoRides alternating
  obtain ⟨hall, halone, hkept⟩ := hended (hends hturns)
  obtain ⟨-, hends', -⟩ := flushAll_isolates twoTexts (fun _ => true) (fun _ _ => .none)
    { twoRides with active := twoRides.active.filter (· = 1) } alternating
  exact ⟨hall, halone 1, hkept _ alternating (hends' (by decide)) 1 List.mem_cons_self rfl⟩

example : (((flushRide twoTexts 1).run (rideHandle (fun _ => true) fun _ _ => .none) twoRides.start).2.ride 1).tracks.map
    (·.clientId) = ["5"] := by decide +kernel

end NebLite
