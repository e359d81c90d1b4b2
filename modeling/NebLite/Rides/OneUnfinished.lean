import NebLite.Rides.Writes
import NebLite.Rides.Absorption

/-! When a rider has at most one unfinished ride under concurrent operations. -/

namespace NebLite

open Atomic

def Ride.Unfinished (rider : Id) (r : Ride) : Prop := r.riderId = rider ∧ ¬ r.status.Terminal

instance (rider : Id) (r : Ride) : Decidable (r.Unfinished rider) :=
  inferInstanceAs (Decidable (_ ∧ _))

/-- At most one ride of the rider has a status other than COMPLETED and CANCELED. -/
def World.UniqueUnfinished (w : World) (rider : Id) : Prop :=
  ∀ r ∈ w.rides.rows, ∀ x ∈ w.rides.rows, r.Unfinished rider → x.Unfinished rider → r.id = x.id

instance (w : World) (rider : Id) : Decidable (w.UniqueUnfinished rider) :=
  inferInstanceAs (Decidable (∀ r ∈ w.rides.rows, _))

/-- An UPDATE from a snapshot with status `σ` writes a terminal status: the snapshot has
one, or it is the operation's own transition that ends the ride. -/
def EndsRide (finish : Option (List ERideStatus × ERideStatus)) (wrote : Bool) (σ : ERideStatus) : Prop :=
  σ.Terminal ∨ wrote = false ∧ ∃ f ∈ finish, σ ∈ f.1

instance (finish : Option (List ERideStatus × ERideStatus)) (wrote : Bool) (σ : ERideStatus) :
    Decidable (EndsRide finish wrote σ) :=
  inferInstanceAs (Decidable (_ ∨ _ ∧ _))

/-- A ride is created for the rider, or an ended one of his reopened by an UPDATE that
goes back to an earlier read, only while he has no unfinished ride. -/
def OpensAlone {ι : Type} [DecidableEq ι] (ops : ι → LifecycleOp) (rider : Id)
    (c : Pool ι Call Call.Answer ServiceError Unit World) (i : ι) : Prop :=
  match (c.procs i).pending with
  | some (.insertRide options) => options.ride.riderId = rider →
      (∀ d ∈ options.nearbyDrivers, d.driverId ≠ none) → c.store.findUnfinishedRide rider = none
  | some (.updateRideRow m) => ∀ r ∈ c.store.rides.find m.id, r.riderId = rider → r.status.Terminal →
      (∃ σ ∈ (ReadLog.ofTrace i c.trace).reads[1]?,
        EndsRide (ops i).finish (ReadLog.ofTrace i c.trace).wrote σ) ∨
      c.store.findUnfinishedRide rider = none
  | _ => True

instance {ι : Type} [DecidableEq ι] (ops : ι → LifecycleOp) (rider : Id)
    (c : Pool ι Call Call.Answer ServiceError Unit World) (i : ι) : Decidable (OpensAlone ops rider c i) := by
  unfold OpensAlone
  induction (c.procs i).pending using Option.casesOn with
  | none => infer_instance
  | some op => induction op using Call.casesOn <;> infer_instance

theorem Justified.ends_iff {op : LifecycleOp} {wrote : Bool} {σ s : ERideStatus}
    (h : Justified op.finish wrote σ s) : s.Terminal ↔ EndsRide op.finish wrote σ := by
  unfold EndsRide
  cases h with
  | unchanged hn =>
    constructor
    · exact .inl
    · rintro (ht | ⟨hw, ⟨allowed, next⟩, hf, hm⟩)
      · exact ht
      · rcases hn allowed next hf with h | h
        · rw [hw] at h
          cases h
        · exact absurd hm h
  | onTheWay hf hσ hs =>
    refine iff_of_false hs ?_
    rintro (ht | ⟨-, f, hf', -⟩)
    · exact hσ ht
    · rw [hf] at hf'
      cases hf'
  | finishes hw hf hm =>
    refine iff_of_true ?_ (.inr ⟨hw, _, hf, hm⟩)
    cases op <;> simp only [LifecycleOp.finish, Option.some.injEq, Prod.mk.injEq, reduceCtorEq] at hf
    · exact .inr hf.2.symm
    · exact .inl hf.2.symm

section Rows

variable {w w' : World} {rider : Id}

theorem no_unfinished :
    w.findUnfinishedRide rider = none ↔ ∀ r ∈ w.rides.rows, ¬ r.Unfinished rider := by
  unfold World.findUnfinishedRide Ride.Unfinished ERideStatus.Terminal
  rw [Option.map_eq_none_iff, List.getLast?_eq_none_iff]
  unfold Table.select
  rw [List.filter_eq_nil_iff]
  simp

/-- An unfinished ride of the rider that was none before; the other rows are the same. -/
structure World.Opens (w : World) (rider : Id) (x : Ride) (w' : World) : Prop where
  opened : x ∈ w'.rides.rows ∧ x.Unfinished rider
  fresh : ∀ r ∈ w.rides.rows, r.Unfinished rider → r.id ≠ x.id
  others : ∀ r, r.id ≠ x.id → (r ∈ w'.rides.rows ↔ r ∈ w.rides.rows)

theorem World.Opens.one_iff {x : Ride} (h : w.Opens rider x w') :
    w'.UniqueUnfinished rider ↔ w.findUnfinishedRide rider = none := by
  rw [no_unfinished]
  constructor
  · intro hone r hr hu
    have hne := h.fresh r hr hu
    exact hne (hone r ((h.others r hne).mpr hr) x h.opened.1 hu h.opened.2)
  · intro hnone
    have hx (r : Ride) (hr : r ∈ w'.rides.rows) (hu : r.Unfinished rider) : r.id = x.id := by
      by_contra hne
      exact hnone r ((h.others r hne).mp hr) hu
    intro r hr y hy hu hv
    rw [hx r hr hu, hx y hy hv]

/-- Where every unfinished ride was one before, at most one stays at most one. -/
theorem World.UniqueUnfinished.mono (h : w.UniqueUnfinished rider)
    (hold : ∀ r ∈ w'.rides.rows, r.Unfinished rider → ∃ x ∈ w.rides.rows, x.Unfinished rider ∧ x.id = r.id) :
    w'.UniqueUnfinished rider := by
  intro r hr y hy hu hv
  obtain ⟨r₀, hr₀, hu₀, hid⟩ := hold r hr hu
  obtain ⟨y₀, hy₀, hv₀, hid'⟩ := hold y hy hv
  rw [← hid, ← hid']
  exact h r₀ hr₀ y₀ hy₀ hu₀ hv₀

/-- Where no ended ride of the rider is reopened, at most one unfinished stays at most one. -/
theorem World.UniqueUnfinished.handle (env : Environment) {op : Call} (h : w.UniqueUnfinished rider)
    (hop : ∀ options, op ≠ .insertRide options)
    (hrider : ∀ r ∈ w.rides.rows, (op.onRide r).riderId = r.riderId)
    (hended : ∀ r ∈ w.rides.rows, r.riderId = rider → r.status.Terminal → (op.onRide r).status.Terminal) :
    (handle env op w).2.UniqueUnfinished rider := by
  apply h.mono
  intro x hx hu
  obtain ⟨r, hr, rfl⟩ := (mem_handle env hop).mp hx
  have hr' : r.riderId = rider := (hrider r hr).symm.trans hu.1
  exact ⟨r, hr, ⟨hr', fun ht => hu.2 (hended r hr hr' ht)⟩, (op.onRide_id r).symm⟩

/-- An UPDATE that reopens an ended ride of the rider. -/
theorem updateRideRow_opens (env : Environment) {m r : Ride} (hr : w.rides.find m.id = some r)
    (hrider : m.riderId = rider) (hended : r.status.Terminal) (hs : ¬ m.status.Terminal) :
    w.Opens rider (r.writeColumns m) (handle env (.updateRideRow m) w).2 := by
  obtain ⟨hmem, hid⟩ := Table.find_some.mp hr
  have hno (options : RideCreationOptions) : Call.updateRideRow m ≠ .insertRide options := by simp
  have hrows {x : Ride} : x ∈ (handle env (.updateRideRow m) w).2.rides.rows ↔
      ∃ r ∈ w.rides.rows, (Call.updateRideRow m).onRide r = x := mem_handle env hno
  have hown : (Call.updateRideRow m).onRide r = r.writeColumns m := if_pos hid.symm
  have hother {x : Ride} (hne : x.id ≠ r.id) : (Call.updateRideRow m).onRide x = x :=
    if_neg fun he => hne (he.symm.trans hid.symm)
  refine ⟨⟨hrows.mpr ⟨r, hmem, hown⟩, hrider, hs⟩, ?_, ?_⟩
  · rintro x hx ⟨-, hx'⟩ he
    have hsame : w.rides.find r.id = some x := Table.find_some.mpr ⟨hx, he⟩
    have hfirst : w.rides.find r.id = some r := Table.find_some.mpr ⟨hmem, rfl⟩
    obtain rfl := Option.some.inj (hsame.symm.trans hfirst)
    exact hx' hended
  · intro x hne
    rw [hrows]
    constructor
    · rintro ⟨y, hy, rfl⟩
      have hy' : y.id ≠ r.id := fun he => hne (((Call.updateRideRow m).onRide_id y).trans he)
      rwa [hother hy']
    · exact fun hx => ⟨x, hx, hother hne⟩

/-- The creation of a ride that is not terminal adds it for its rider. -/
theorem insertRide_opens_ride {options : RideCreationOptions} (hs : ¬ options.ride.status.Terminal)
    (hd : ∀ d ∈ options.nearbyDrivers, d.driverId ≠ none) :
    w.Opens options.ride.riderId (World.newRide options.ride options.now w.rides.nextKey)
      (w.insertRide options).2 := by
  refine ⟨⟨?_, rfl, hs⟩, ?_, ?_⟩
  · rw [insertRide_rides hd]
    exact Table.mem_insert.mpr (.inr rfl)
  · intro r hr _
    exact (Table.key_lt_nextKey hr).ne
  · intro r hne
    rw [insertRide_rides hd]
    constructor
    · intro hr
      rcases Table.mem_insert.mp hr with hr | rfl
      · exact hr
      · exact absurd rfl hne
    · exact fun hr => Table.mem_insert.mpr (.inl hr)

/-- A creation for another rider, or one that fails, adds no unfinished ride of the rider. -/
theorem insertRide_old {options : RideCreationOptions}
    (h : options.ride.riderId ≠ rider ∨ ∃ d ∈ options.nearbyDrivers, d.driverId = none) :
    ∀ r ∈ (w.insertRide options).2.rides.rows, r.Unfinished rider →
      ∃ x ∈ w.rides.rows, x.Unfinished rider ∧ x.id = r.id := by
  intro r hr hu
  by_cases hd : ∀ d ∈ options.nearbyDrivers, d.driverId ≠ none
  · rw [insertRide_rides hd] at hr
    rcases Table.mem_insert.mp hr with hr | rfl
    · exact ⟨r, hr, hu, rfl⟩
    · rcases h with hne | ⟨d, hm, hnone⟩
      · exact absurd hu.1 hne
      · exact absurd hnone (hd d hm)
  · push Not at hd
    rw [insertRide_kept hd] at hr
    exact ⟨r, hr, hu, rfl⟩

end Rows

section Pool

variable {ι : Type} [DecidableEq ι] {env : Environment} {ops : ι → LifecycleOp} {rider : Id}
  {c : Pool ι Call Call.Answer ServiceError Unit World}

/-- Every process writes what its reads allow and justify, and the rides that it has
read still have the riders they had. -/
structure RidersKept (env : Environment) (ops : ι → LifecycleOp)
    (c : Pool ι Call Call.Answer ServiceError Unit World) : Prop where
  writes : AllWriteBack env ops c
  traced : ∀ i rid, (ops i).ride = some rid →
    Traced env rid (ops i).finish (ReadLog.ofTrace i c.trace) (c.procs i)
  riders : ∀ i, ∀ σ ∈ ridesRead c i, ∃ r, c.store.rides.find σ.id = some r ∧ r.riderId = σ.riderId

theorem RidersKept.start (w : World) : RidersKept env ops (Pool.start (lifecycleCalls env ops) w) where
  writes := AllWriteBack.start w
  traced _ _ h := LifecycleOp.traced env h
  riders _ _ h := nomatch h

/-- No call of a process changes the rider of a ride. -/
theorem RidersKept.onRide (h : RidersKept env ops c) {i : ι} {op : Call}
    {next : Except ServiceError op.Answer → Service Unit} (hi : c.procs i = .call op next) {r : Ride}
    (hr : c.store.rides.find r.id = some r) : (op.onRide r).riderId = r.riderId := by
  obtain he | ⟨_, he⟩ | ⟨_, _, he⟩ | ⟨m, rfl, hid, he⟩ := op.onRide_cases r
  · rw [he]
  · rw [he]
  · rw [he]
  · obtain ⟨-, σ, hσ, hid', hrider⟩ := h.writes.writes hi
    obtain ⟨x, hx, hxr⟩ := h.riders i σ hσ
    rw [hid', hid, hr] at hx
    obtain rfl := Option.some.inj hx
    rw [he]
    exact hrider.symm.trans hxr.symm

/-- A ride that a call has added to those read is a stored row. -/
theorem read_of_mem {l : List Ride} {op : Call} {w : World} {σ : Ride}
    (h : σ ∈ ridesAfter l ⟨op, (handle env op w).1⟩) (hl : σ ∉ l) : ∃ k, w.rides.find k = some σ := by
  cases op with
  | findRide k =>
    cases hk : w.rides.find k with
    | none =>
      simp only [ridesAfter, handle, hk] at h
      exact absurd h hl
    | some r =>
      simp only [ridesAfter, handle, hk, List.mem_cons] at h
      exact ⟨k, hk.trans (congrArg some (h.resolve_right hl).symm)⟩
  | _ => exact absurd h hl

theorem RidersKept.step (h : RidersKept env ops c) (i : ι) : RidersKept env ops (c.step (handle env) i) := by
  refine ⟨h.writes.step i, fun j rid hj => traced_step (h.traced j rid hj) i, fun j σ hσ => ?_⟩
  obtain ⟨-, hstep⟩ | ⟨op, next, hi, hstep⟩ := c.step_cases (handle env) i
  · rw [hstep] at hσ ⊢
    exact h.riders j σ hσ
  have hstore : (c.step (handle env) i).store = (handle env op c.store).2 := by rw [hstep]
  have hfound : ∃ r, c.store.rides.find σ.id = some r ∧ r.riderId = σ.riderId := by
    rw [ridesRead_step hi] at hσ
    split at hσ
    · by_cases hread : σ ∈ ridesRead c j
      · exact h.riders j σ hread
      · obtain ⟨k, hk⟩ := read_of_mem hσ hread
        obtain rfl : σ.id = k := Table.key_of_find hk
        exact ⟨σ, hk, rfl⟩
    · exact h.riders j σ hσ
  obtain ⟨r, hr, hrider⟩ := hfound
  have hid : r.id = σ.id := Table.key_of_find hr
  rw [← hid] at hr ⊢
  rw [hstore]
  exact ⟨_, find_handle env op hr, (h.onRide hi hr).trans hrider⟩

/-- From at most one unfinished ride exactly the steps that open a ride alone lead to
at most one. -/
theorem RidersKept.one_iff (h : RidersKept env ops c) (hone : c.store.UniqueUnfinished rider) (i : ι) :
    (c.step (handle env) i).store.UniqueUnfinished rider ↔ OpensAlone ops rider c i := by
  obtain ⟨hp, hstep⟩ | ⟨op, next, hi, hstep⟩ := c.step_cases (handle env) i
  · rw [hstep]
    exact iff_of_true hone (by simp [OpensAlone, hp])
  have hstore : (c.step (handle env) i).store = (handle env op c.store).2 := by rw [hstep]
  have hwrites := h.writes.writes hi
  rw [hstore]
  unfold OpensAlone
  rw [hi]
  by_cases hinsert : ∃ options, op = .insertRide options
  · obtain ⟨options, rfl⟩ := hinsert
    have hs : ¬ options.ride.status.Terminal := by
      rw [hwrites.2]
      decide
    by_cases hnew : options.ride.riderId = rider ∧ ∀ d ∈ options.nearbyDrivers, d.driverId ≠ none
    · obtain ⟨rfl, hd⟩ := hnew
      have hiff := (insertRide_opens_ride (w := c.store) hs hd).one_iff
      exact hiff.trans ⟨fun hn _ _ => hn, fun hn => hn rfl hd⟩
    · have hold : options.ride.riderId ≠ rider ∨ ∃ d ∈ options.nearbyDrivers, d.driverId = none := by
        by_contra hno
        push Not at hno
        exact hnew hno
      exact iff_of_true (hone.mono (insertRide_old hold)) fun hr hd => absurd ⟨hr, hd⟩ hnew
  have hrider (r : Ride) (hr : r ∈ c.store.rides.rows) : (op.onRide r).riderId = r.riderId :=
    h.onRide hi (Table.find_some.mpr ⟨hr, rfl⟩)
  have hkept := hone.handle env (fun o he => hinsert ⟨o, he⟩) hrider
  by_cases hupdate : ∃ m, op = .updateRideRow m
  · obtain ⟨m, rfl⟩ := hupdate
    obtain ⟨hride, -⟩ := hwrites
    have htraced := h.traced i m.id hride
    rw [hi] at htraced
    obtain ⟨_, ⟨-, hm⟩, -⟩ := htraced c.store trivial
    obtain ⟨-, current, σ, rest, hl, hj⟩ := hm m rfl
    have hends : (∃ σ ∈ (ReadLog.ofTrace i c.trace).reads[1]?,
        EndsRide (ops i).finish (ReadLog.ofTrace i c.trace).wrote σ) ↔ m.status.Terminal := by
      rw [hj.ends_iff, hl]
      simp
    simp only [Program.pending, hends]
    by_cases hopens : ∃ r ∈ c.store.rides.find m.id, r.riderId = rider ∧ r.status.Terminal ∧
        ¬ m.status.Terminal
    · obtain ⟨r, hr, hr', ht, hs⟩ := hopens
      have hmr : m.riderId = rider := by
        have hid : m.id = r.id := (Table.key_of_find hr).symm
        have hown := hrider r (Table.find_some.mp hr).1
        rw [Call.onRide, if_pos hid] at hown
        exact hown.trans hr'
      rw [(updateRideRow_opens env hr hmr ht hs).one_iff]
      constructor
      · exact fun hn _ _ _ _ => .inr hn
      · exact fun hok => (hok r hr hr' ht).resolve_left hs
    · refine iff_of_true (hkept fun r hr hr' ht => ?_) fun r hr hr' ht => ?_
      · simp only [Call.onRide]
        split
        · next he =>
          by_contra hs
          exact hopens ⟨r, Table.find_some.mpr ⟨hr, he.symm⟩, hr', ht, hs⟩
        · exact ht
      · by_contra hno
        exact hopens ⟨r, hr, hr', ht, fun hs => hno (.inl hs)⟩
  · refine iff_of_true (hkept fun r _ _ ht => ?_) ?_
    · rwa [onRide_status r fun m he => hupdate ⟨m, he⟩]
    · cases op with
      | insertRide options => exact absurd ⟨options, rfl⟩ hinsert
      | updateRideRow m => exact absurd ⟨m, rfl⟩ hupdate
      | _ => trivial

end Pool

/-- The rider has at most one unfinished ride at every moment exactly in the runs in which
a ride is opened for him only while he has none. -/
theorem one_unfinished_iff {ι : Type} [DecidableEq ι] (env : Environment) (ops : ι → LifecycleOp)
    (rider : Id) (w : World) (hw : w.UniqueUnfinished rider) (sched : List ι) :
    Runs.Always (Pool.step (handle env)) (fun c => c.store.UniqueUnfinished rider)
        (Pool.start (lifecycleCalls env ops) w) sched ↔
      Pool.Meets (handle env) (OpensAlone ops rider) (Pool.start (lifecycleCalls env ops) w) sched :=
  Runs.always_iff_meets (I := RidersKept env ops) (fun _ i h => h.step i)
    (fun _ i h hone => h.one_iff hone i) (RidersKept.start w) hw

/-- Rider 1 asks for two rides at once. -/
def createTwice (b : Bool) : LifecycleOp :=
  .createRide (some 1) ⟨⟨1, 1⟩, ⟨2, 2⟩, none, none⟩ (if b then 1 else 0)

theorem one_unfinished_in_turn :
    Runs.Always (Pool.step (handle (.around [7, 8]))) (fun c => c.store.UniqueUnfinished 1)
      (Pool.start (lifecycleCalls (.around [7, 8]) createTwice) (World.initial []))
      (List.replicate 20 false ++ List.replicate 20 true) :=
  (one_unfinished_iff (.around [7, 8]) createTwice 1 (World.initial []) (by decide +kernel)
    (List.replicate 20 false ++ List.replicate 20 true)).mpr (by decide +kernel)

/-- Both requests have passed the check before either inserts its ride. -/
theorem two_rides_created :
    (World.initial []).UniqueUnfinished 1 ∧
    ¬ Runs.Always (Pool.step (handle (.around [7, 8]))) (fun c => c.store.UniqueUnfinished 1)
      (Pool.start (lifecycleCalls (.around [7, 8]) createTwice) (World.initial []))
      ([false, true] ++ List.replicate 20 false ++ List.replicate 20 true) := by
  refine ⟨by decide +kernel, fun h => ?_⟩
  have hlast := h _ List.prefix_rfl
  revert hlast
  decide +kernel

end NebLite
