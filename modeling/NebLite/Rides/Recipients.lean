import NebLite.Rides.Hosting
import NebLite.Rides.Refusals

/-! To whom the operations of the lifecycle send notifications, whatever runs beside them. -/

namespace NebLite

open Atomic Knowledge

section Programs

variable {Op S T : Type} {Res : Op → Type} {H : Hosting Op Res S T} {known : List (PartyFact T)} {rid : Id} {α β : Type}

theorem polite_pure (a : α) : H.Polite known (pure a) := minds_pure trivial (List.nil_subset _)

theorem polite_throw (e : ServiceError) : H.Polite known (.throw e : Service α) := minds_throw e

theorem polite_mono {known' : List (PartyFact T)} {p : Service α} (hp : H.Polite known p) (hk : known ⊆ known') :
    H.Polite known' p :=
  (Knowledge.Minds.mono hp hk).imp (fun _ h => h) fun _ => List.nil_subset _

theorem polite_harmless {p : Service α} (hp : p.Calls Call.Harmless) {f : α → Service β}
    (hf : ∀ a, H.Polite known (f a)) : H.Polite known (p >>= f) :=
  (Hosting.polite_harmlessCalls hp).bind fun a _ => hf a

theorem polite_findById {f : Option Ride → Service β} (hnone : H.Polite known (f none))
    (hsome : ∀ r, r.id = rid → H.Polite (r.partyFacts ++ known) (f (some r))) :
    H.Polite known (findById rid >>= f) := by
  have hp : H.Minds known (findById rid) (fun o => ∀ r, o = some r → r.id = rid)
      fun o => o.elim [] Ride.partyFacts := by
    apply Hosting.minds_call id
    · exact fun w b h => .refl h.inv
    · intro w b o h ho
      have ho : w.rides.find rid = o := Except.ok.inj ho
      refine ⟨fun r hr => Table.key_of_find (ho.trans hr), fun g hg => ?_⟩
      cases o with
      | none => cases hg
      | some r =>
        obtain rfl : r.id = rid := Table.key_of_find ho
        rcases List.mem_cons.mp hg with rfl | hg
        · exact ⟨r, ho, rfl, rfl⟩
        · obtain ⟨d, hd, rfl⟩ := List.mem_map.mp hg
          exact h.inv.seated r.id r d ho (Option.mem_toList.mp hd)
  refine hp.bind fun o ho => ?_
  cases o with
  | none => exact hnone
  | some r => exact hsome r (ho r rfl)

theorem polite_findByRideAndDriver {d : Id} {f : Option RideDriverCandidate → Service β}
    (hnone : H.Polite known (f none))
    (hsome : ∀ c, c.rideId = rid → c.driverId = d → H.Polite (c.partyFacts ++ known) (f (some c))) :
    H.Polite known (findByRideAndDriver rid d >>= f) := by
  have hp : H.Minds known (findByRideAndDriver rid d)
      (fun o => ∀ c, o = some c → c.rideId = rid ∧ c.driverId = d)
      fun o => o.elim [] RideDriverCandidate.partyFacts := by
    apply Hosting.minds_call id
    · exact fun w b h => .refl h.inv
    · intro w b o h ho
      have ho : w.findCandidate rid d = o := Except.ok.inj ho
      refine ⟨fun c hc => (World.mem_of_findCandidate (ho.trans hc)).2, fun g hg => ?_⟩
      cases o with
      | none => cases hg
      | some c => exact holds_partyFacts (World.mem_of_findCandidate ho).1 g hg
  refine hp.bind fun o ho => ?_
  cases o with
  | none => exact hnone
  | some c => exact hsome c (ho c rfl).1 (ho c rfl).2

theorem polite_findCandidates {f : List RideDriverCandidate → Service β}
    (hf : ∀ cs : List RideDriverCandidate, (∀ c ∈ cs, c.rideId = rid) →
      H.Polite (cs.flatMap RideDriverCandidate.partyFacts ++ known) (f cs)) :
    H.Polite known (call (.findCandidates rid) >>= f) := by
  have hp : H.Minds known (call (.findCandidates rid))
      (fun cs => ∀ c ∈ cs, c.rideId = rid) fun cs => cs.flatMap RideDriverCandidate.partyFacts := by
    apply Hosting.minds_call id
    · exact fun w b h => .refl h.inv
    · intro w b cs h hcs
      obtain rfl : w.findCandidates rid = cs := Except.ok.inj hcs
      refine ⟨fun c hc => (mem_findCandidates.mp hc).2, fun g hg => ?_⟩
      obtain ⟨c, hc, hgc⟩ := List.mem_flatMap.mp hg
      exact holds_partyFacts (mem_findCandidates.mp hc).1 g hgc
  exact hp.bind fun cs hcs => hf cs hcs

theorem polite_saveCandidate {n : RideDriverCandidate} {f : Unit → Service β} (hn : n.partyFacts ⊆ known)
    (hf : H.Polite known (f ())) : H.Polite known (saveCandidate n >>= f) := by
  have hp : H.Polite known (saveCandidate n) := Hosting.minds_call id (fun _ _ h => respects_saveCandidate hn h)
    fun _ _ _ _ _ => ⟨trivial, fun _ h => by cases h⟩
  exact hp.bind fun _ _ => hf

theorem polite_saveMany {rows : List RideDriverCandidate} {f : Unit → Service β}
    (hrows : ∀ n ∈ rows, n.partyFacts ⊆ known) (hf : H.Polite known (f ())) :
    H.Polite known (saveMany rows >>= f) := by
  induction rows with
  | nil => exact hf
  | cons n rows ih =>
    change H.Polite known ((saveCandidate n >>= fun _ => saveMany rows) >>= f)
    rw [bind_assoc]
    apply polite_saveCandidate (hrows n List.mem_cons_self)
    exact ih fun x hx => hrows x (List.mem_cons_of_mem n hx)

theorem polite_dispatch {target : NotificationTarget} {targetId : Id} {event message : String} {ride : Ride}
    {extras : NotificationExtras} {f : Unit → Service β} (hride : ride.partyFacts ⊆ known)
    (hrider : target = .rider → targetId = ride.riderId)
    (hdriver : target = .driver → .invited ride.id targetId ∈ known)
    (hrow : ∀ c, extras.row = some c → c.rideId = ride.id ∧ c.partyFacts ⊆ known ∧
      (target = .driver → event ≠ "ride.rider.confirmed" → c.driverId = targetId))
    (hf : H.Polite known (f ())) :
    H.Polite known (dispatchNotification target targetId event ride message extras >>= f) := by
  have haddressed (w : World) (b : Beyond T) (h : (parties b).Knows known w) :
      Notification.Addressed w
      ⟨target, targetId, event, ride.id, ride.riderId, ride.driverId, ride.status, message, extras⟩ := by
    obtain ⟨r, hr, hparty, -⟩ : (PartyFact.booked (T := T) ride.id ride.riderId ride.pickup).Holds b w :=
      h.facts _ (hride List.mem_cons_self)
    refine ⟨⟨r, hr, hparty⟩, hrider, fun ht => h.facts _ (hdriver ht), fun d hd => ?_, fun c hc => ?_⟩
    · have hd : ride.driverId = some d := hd
      have hmem : PartyFact.invited (T := T) ride.id d ∈ ride.partyFacts := by simp [Ride.partyFacts, hd]
      exact h.facts _ (hride hmem)
    · obtain ⟨hid, hknown, hown⟩ := hrow c hc
      have hmem : PartyFact.invited (T := T) ride.id c.driverId ∈ c.partyFacts := by simp [RideDriverCandidate.partyFacts, hid]
      exact ⟨hid, h.facts _ (hknown hmem), hown⟩
  have hp : H.Polite known (dispatchNotification target targetId event ride message extras) :=
    Hosting.minds_call id (fun w b h => respects_emit h.inv (haddressed w b h))
      fun _ _ _ _ _ => ⟨trivial, fun _ h => by cases h⟩
  exact hp.bind fun _ _ => hf

/-- A notification of the rider, with a row of the ride. -/
theorem polite_toRider {event message : String} {ride : Ride} {c : RideDriverCandidate} {f : Unit → Service β}
    (hride : ride.partyFacts ⊆ known) (hc : c.partyFacts ⊆ known) (hid : c.rideId = ride.id)
    (hf : H.Polite known (f ())) :
    H.Polite known (dispatchNotification .rider ride.riderId event ride message (.candidate c) >>= f) := by
  apply polite_dispatch hride (fun _ => rfl) (fun h => by cases h) _ hf
  rintro x ⟨⟩
  exact ⟨hid, hc, fun h => by cases h⟩

/-- A notification of a driver, with its own row. -/
theorem polite_toDriver {event message : String} {ride : Ride} {c : RideDriverCandidate} {extras : NotificationExtras}
    {f : Unit → Service β} (hride : ride.partyFacts ⊆ known) (hc : c.partyFacts ⊆ known) (hid : c.rideId = ride.id)
    (hrow : extras.row = some c) (hf : H.Polite known (f ())) :
    H.Polite known (dispatchNotification .driver c.driverId event ride message extras >>= f) := by
  have hmem : PartyFact.invited (T := T) ride.id c.driverId ∈ c.partyFacts := by simp [RideDriverCandidate.partyFacts, hid]
  apply polite_dispatch hride (fun h => by cases h) (fun _ => hc hmem) _ hf
  intro x hx
  obtain rfl := Option.some.inj (hrow.symm.trans hx)
  exact ⟨hid, hc, fun _ _ => rfl⟩

theorem polite_both {ride : Ride} {riderEvent driverEvent riderMessage driverMessage : String}
    {extras : NotificationExtras} {f : Unit → Service β} (hride : ride.partyFacts ⊆ known) (hrow : extras.row = none)
    (hf : H.Polite known (f ())) :
    H.Polite known (notifyBoth ride riderEvent driverEvent riderMessage driverMessage extras >>= f) := by
  have hnone (c : RideDriverCandidate) (hc : extras.row = some c) : c.rideId = ride.id ∧ c.partyFacts ⊆ known ∧
      (NotificationTarget.rider = .driver → riderEvent ≠ "ride.rider.confirmed" → c.driverId = ride.riderId) := by
    cases hrow.symm.trans hc
  unfold notifyBoth
  cases hd : ride.driverId with
  | none => exact polite_dispatch hride (fun _ => rfl) (fun h => by cases h) hnone hf
  | some d =>
    have hmem : PartyFact.invited (T := T) ride.id d ∈ ride.partyFacts := by simp [Ride.partyFacts, hd]
    simp only [bind_assoc]
    apply polite_dispatch hride (fun _ => rfl) (fun h => by cases h) hnone
    apply polite_dispatch hride (fun h => by cases h) (fun _ => hride hmem) _ hf
    intro c hc
    cases hrow.symm.trans hc

/-- Drivers are told one after the other, each with its own row. -/
theorem polite_forM {cs : List RideDriverCandidate} {tell : RideDriverCandidate → Service Unit} {f : Unit → Service β}
    (htell : ∀ c ∈ cs, ∀ {g : Unit → Service β}, H.Polite known (g ()) → H.Polite known (tell c >>= g))
    (hf : H.Polite known (f ())) : H.Polite known (cs.forM tell >>= f) := by
  induction cs with
  | nil => exact hf
  | cons c cs ih =>
    change H.Polite known ((tell c >>= fun _ => cs.forM tell) >>= f)
    rw [bind_assoc]
    exact htell c List.mem_cons_self (ih fun x hx => htell x (List.mem_cons_of_mem c hx))

theorem append_subset_append (l m known : List (PartyFact T)) : l ++ known ⊆ l ++ (m ++ known) := fun _ hg =>
  (List.mem_append.mp hg).elim (List.mem_append_left _) fun hg => List.mem_append_right _ (List.mem_append_right _ hg)

theorem polite_updateRide {m : Ride} {f : Ride → Service β} (hm : m.partyFacts ⊆ known)
    (hf : ∀ r, r.id = m.id → H.Polite (r.partyFacts ++ known) (f r)) :
    H.Polite known (updateRide m.changes >>= f) := by
  unfold updateRide
  have hc : m.changes.id = m.id := rfl
  simp only [bind_assoc, hc]
  apply polite_findById (polite_throw _)
  intro cur _
  have hpickup : (mergeRideData cur m.changes).pickup = m.pickup := rfl
  have hmerged : (mergeRideData cur m.changes).partyFacts (T := T) = m.partyFacts := by
    simp only [Ride.partyFacts, merge_id, merge_riderId, merge_driverId, hpickup]
  have hwrite : H.Polite (cur.partyFacts ++ known) (call (.updateRideRow (mergeRideData cur m.changes))) := by
    apply Hosting.minds_call id
    · intro w b h
      apply respects_updateRideRow _ h
      rw [hmerged]
      exact List.subset_append_of_subset_right _ hm
    · exact fun _ _ _ _ _ => ⟨trivial, fun _ h => by cases h⟩
  simp only [bind_assoc]
  refine hwrite.bind fun rows _ => ?_
  simp only [List.nil_append, UpdateResult.length, Nat.reduceEqDiff, if_false, merge_id, bind_assoc]
  apply polite_findById (polite_throw _)
  intro x hx
  exact polite_mono (hf x hx) (append_subset_append _ _ _)

theorem polite_transition {allowed : List ERideStatus} {next : ERideStatus} {context : Option String}
    {f : Ride × Bool → Service β}
    (hf : ∀ r changed, r.id = rid → H.Polite (r.partyFacts ++ known) (f (r, changed))) :
    H.Polite known (transitionRideStatus rid allowed next context >>= f) := by
  unfold transitionRideStatus
  simp only [bind_assoc]
  apply polite_findById (polite_throw _)
  intro r hr
  simp only
  split
  · exact hf r false hr
  split
  · exact hf r false hr
  simp only [bind_assoc]
  apply polite_updateRide (m := withStatus r next context) (List.subset_append_left _ _)
  intro x hx
  apply polite_harmless (calls_call (c := .saveHistory _) trivial)
  intro _
  exact polite_mono (hf x true (hx.trans hr)) (append_subset_append _ _ _)

/-- Reading the ride again at the end of an operation. -/
theorem polite_refreshed {f : Option Ride → α} :
    H.Polite known (do let refreshed ← findById rid; return f refreshed) :=
  polite_findById (polite_pure _) fun _ _ => polite_pure _

end Programs

section Operations

variable {Op S T : Type} {Res : Op → Type} {H : Hosting Op Res S T} {env : Environment} {known : List (PartyFact T)} {rid : Id}

theorem polite_acceptClaimedRide {c : RideDriverCandidate} {now : Time} (hc : c.partyFacts ⊆ known)
    (hr : c.rideId = rid) : H.Polite known (acceptClaimedRide rid c now) := by
  unfold acceptClaimedRide
  apply polite_saveCandidate
  · exact hc
  apply polite_transition
  intro r _ hrid
  simp only [hrid]
  apply polite_transition
  intro x _ hx
  apply polite_toRider
  · exact List.subset_append_left _ _
  · exact fun f hf => List.mem_append_right _ (List.mem_append_right _ (hc hf))
  · exact hr.trans hx.symm
  · exact polite_refreshed

theorem polite_superseded {r : Ride} {c : RideDriverCandidate} {now : Time} {f : Unit → Service Ride}
    (hride : r.partyFacts ⊆ known) (hc : c.partyFacts ⊆ known) (hr : c.rideId = r.id) (hf : H.Polite known (f ())) :
    H.Polite known (markCandidateSuperseded r c now >>= f) := by
  unfold markCandidateSuperseded
  simp only [bind_assoc]
  apply polite_saveCandidate
  · exact hc
  exact polite_toDriver hride hc hr rfl hf

theorem polite_acceptRideByDriver {d : Id} {now : Time} : H.Polite known (acceptRideByDriver rid d now) := by
  unfold acceptRideByDriver
  apply polite_findById (polite_throw _)
  intro r hr
  subst hr
  simp only [↓Program.throw_seq]
  split
  · exact polite_throw _
  split
  · exact polite_throw _
  apply polite_findByRideAndDriver (polite_throw _)
  intro c hcr hcd
  simp only
  split
  · exact polite_throw _
  split
  · exact polite_throw _
  split
  · exact polite_pure _
  have hride : r.partyFacts ⊆ c.partyFacts ++ (r.partyFacts ++ known) := fun f hf => by simp [hf]
  have hc : c.partyFacts ⊆ c.partyFacts ++ (r.partyFacts ++ known) := List.subset_append_left _ _
  cases r.driverId with
  | some holder =>
    simp only
    split
    · exact polite_superseded hride hc hcr (polite_throw _)
    · exact polite_acceptClaimedRide hc hcr
  | none =>
    have hclaim : H.Polite (c.partyFacts ++ (r.partyFacts ++ known)) (call (.claimDriver r.id d)) := by
      apply Hosting.minds_call id
      · exact fun w b h => respects_claimDriver (by simp [RideDriverCandidate.partyFacts, hcr, hcd]) h
      · exact fun _ _ _ _ _ => ⟨trivial, fun _ h => by cases h⟩
    refine hclaim.bind fun claimed _ => ?_
    simp only [List.nil_append]
    split
    · exact polite_acceptClaimedRide hc hcr
    · apply polite_findById
      · simp only [Option.getD_none]
        split
        · exact polite_superseded hride hc hcr (polite_throw _)
        · exact polite_acceptClaimedRide hc hcr
      · intro x hx
        simp only [Option.getD_some]
        have hc : c.partyFacts ⊆ x.partyFacts ++ (c.partyFacts ++ (r.partyFacts ++ known)) := fun f hf => by simp [hf]
        split
        · exact polite_superseded (List.subset_append_left _ _) hc (hcr.trans hx.symm) (polite_throw _)
        · exact polite_acceptClaimedRide hc (hcr.trans hx.symm)

theorem partyFacts_without (r : Ride) :
    ({ r with driverId := none } : Ride).partyFacts (T := T) ⊆ r.partyFacts := by
  intro f hf
  obtain rfl := List.mem_singleton.mp hf
  exact List.mem_cons_self

theorem polite_rejectRideByDriver {d : Id} {reason : Option String} {now : Time} :
    H.Polite known (rejectRideByDriver rid d reason now) := by
  unfold rejectRideByDriver
  apply polite_findById (polite_throw _)
  intro r hr
  subst hr
  simp only [↓Program.throw_seq]
  split
  · exact polite_pure _
  split
  · exact polite_throw _
  split
  · exact polite_throw _
  apply polite_findByRideAndDriver (polite_throw _)
  intro c hcr hcd
  simp only
  split
  · exact polite_pure _
  split
  · exact polite_pure _
  have hride : r.partyFacts ⊆ c.partyFacts ++ (r.partyFacts ++ known) := fun f hf => by simp [hf]
  have hc : c.partyFacts ⊆ c.partyFacts ++ (r.partyFacts ++ known) := List.subset_append_left _ _
  apply polite_saveCandidate
  · exact hc
  split
  · apply polite_updateRide (m := { r with driverId := none }) (List.Subset.trans (partyFacts_without r) hride)
    intro x hx
    rw [hx]
    apply polite_transition
    intro y _ hy
    rw [pure_bind]
    apply polite_toRider
    · exact List.subset_append_left _ _
    · exact fun f hf => by simp [show f ∈ c.partyFacts from hf]
    · exact hcr.trans hy.symm
    · exact polite_refreshed
  · rw [pure_bind]
    apply polite_toRider hride
    · exact hc
    · exact hcr
    · exact polite_refreshed

theorem polite_confirmDriverAcceptance {riderId : Id} {now : Time} :
    H.Polite known (confirmDriverAcceptance rid riderId now) := by
  unfold confirmDriverAcceptance
  apply polite_findById (polite_throw _)
  intro r hr
  subst hr
  simp only [↓Program.throw_seq]
  split
  · exact polite_throw _
  cases r.driverId with
  | none => exact polite_throw _
  | some d =>
    simp only
    split
    · exact polite_throw _
    split
    · exact polite_pure _
    split
    · exact polite_throw _
    split
    · exact polite_pure _
    apply polite_findByRideAndDriver (polite_throw _)
    intro c hcr hcd
    simp only
    split
    · exact polite_throw _
    apply polite_transition
    intro x _ hx
    apply polite_findCandidates
    intro candidates hcandidates
    generalize hall : candidates.flatMap RideDriverCandidate.partyFacts ++
      (x.partyFacts ++ (c.partyFacts ++ (r.partyFacts ++ known))) = all
    have hride : x.partyFacts ⊆ all := by
      rw [← hall]
      exact fun f hf => by simp [hf]
    have hc : c.partyFacts ⊆ all := by
      rw [← hall]
      exact fun f hf => by simp [hf]
    have hrows (y : RideDriverCandidate) (hy : y ∈ candidates.filterMap (confirmedRow d now)) :
        y.partyFacts ⊆ all ∧ y.rideId = r.id := by
      obtain ⟨z, hz, hyz⟩ := List.mem_filterMap.mp hy
      obtain ⟨hid, hzr, hzd, -⟩ := confirmedRow_keeps d now z y hyz
      have hfacts : y.partyFacts (T := T) = z.partyFacts := by
        simp only [RideDriverCandidate.partyFacts, hid, hzr, hzd]
      refine ⟨?_, hzr.trans (hcandidates z hz)⟩
      rw [hfacts, ← hall]
      exact fun f hf => List.mem_append_left _ (List.mem_flatMap.mpr ⟨z, hz, hf⟩)
    apply polite_saveMany fun y hy => (hrows y hy).1
    have hrest : H.Polite all (do
        (candidates.filterMap (confirmedRow d now) |>.filter fun c => c.driverId ≠ d).forM (notifyCandidateSuperseded x)
        let refreshed ← findById x.id
        return refreshed.getD x) := by
      apply polite_forM _ polite_refreshed
      intro y hy g hg
      obtain ⟨hfacts, hyr⟩ := hrows y (List.mem_of_mem_filter hy)
      exact polite_toDriver hride hfacts (hyr.trans hx.symm) rfl hg
    unfold notifyRiderConfirmed
    cases hd : x.driverId with
    | none => exact hrest
    | some holder =>
      have hholder : PartyFact.invited (T := T) x.id holder ∈ x.partyFacts := by simp [Ride.partyFacts, hd]
      apply polite_dispatch hride (fun h => by cases h) (fun _ => hride hholder) _ hrest
      rintro y ⟨⟩
      exact ⟨hcr.trans hx.symm, hc, fun _ h => absurd rfl h⟩

theorem polite_rejectDriverAcceptance {riderId : Id} {reason : Option String} {now : Time} :
    H.Polite known (rejectDriverAcceptance rid riderId reason now) := by
  unfold rejectDriverAcceptance
  apply polite_findById (polite_throw _)
  intro r hr
  subst hr
  simp only [↓Program.throw_seq]
  split
  · exact polite_throw _
  cases r.driverId with
  | none => exact polite_throw _
  | some d =>
    simp only
    split
    · exact polite_pure _
    split
    · exact polite_throw _
    split
    · exact polite_throw _
    split
    · exact polite_throw _
    apply polite_findByRideAndDriver (polite_throw _)
    intro c hcr _
    have hride : r.partyFacts ⊆ c.partyFacts ++ (r.partyFacts ++ known) := fun f hf => by simp [hf]
    apply polite_saveCandidate
    · exact List.subset_append_left _ _
    apply polite_updateRide (m := { r with driverId := none }) (List.Subset.trans (partyFacts_without r) hride)
    intro x _
    apply polite_transition
    intro y _ hy
    refine polite_toDriver (List.subset_append_left _ _) ?_ (hcr.trans hy.symm) rfl polite_refreshed
    exact fun f hf => by simp [show f ∈ c.partyFacts from hf]

theorem polite_cancelRide {requester : RequestingClient} {reason : Option String} {now : Time} :
    H.Polite known (cancelRide rid requester reason now) := by
  unfold cancelRide
  apply polite_findById (polite_throw _)
  intro r hr
  subst hr
  simp only [↓Program.throw_seq]
  split
  · exact polite_throw _
  split
  · exact polite_throw _
  split
  · exact polite_pure _
  apply polite_harmless (calls_call (c := .removeRouteJob r.id) trivial)
  intro _
  apply polite_transition
  intro x _ hx
  have hsaved : (withCancellation x reason).partyFacts (T := T) = x.partyFacts := rfl
  have hride : (withCancellation x reason).partyFacts ⊆ x.partyFacts ++ (r.partyFacts ++ known) :=
    hsaved ▸ List.subset_append_left _ _
  apply polite_updateRide (m := withCancellation x reason) hride
  intro y _
  simp only
  apply polite_findCandidates
  intro candidates hcandidates
  generalize hall : candidates.flatMap RideDriverCandidate.partyFacts ++
    (y.partyFacts ++ (x.partyFacts ++ (r.partyFacts ++ known))) = all
  have hrows (z : RideDriverCandidate) (hz : z ∈ candidates.filterMap (canceledRow reason now)) :
      z.partyFacts ⊆ all ∧ z.rideId = (withCancellation x reason).id := by
    obtain ⟨c, hc, hzc⟩ := List.mem_filterMap.mp hz
    obtain ⟨hid, hcr, hcd, -⟩ := canceledRow_keeps reason now c z hzc
    have hfacts : z.partyFacts (T := T) = c.partyFacts := by
      simp only [RideDriverCandidate.partyFacts, hid, hcr, hcd]
    refine ⟨?_, hcr.trans (hcandidates c hc)⟩
    rw [hfacts, ← hall]
    exact fun f hf => List.mem_append_left _ (List.mem_flatMap.mpr ⟨c, hc, hf⟩)
  split
  · apply polite_saveMany fun z hz => (hrows z hz).1
    apply polite_forM _ polite_refreshed
    intro z hz g hg
    obtain ⟨hfacts, hzr⟩ := hrows z hz
    refine polite_toDriver ?_ hfacts hzr rfl hg
    rw [hsaved, ← hall]
    exact fun f hf => by simp [hf]
  · exact polite_refreshed

theorem Call.Asks.harmless {c : Call} (h : c.Asks) : c.Harmless := by
  cases c <;> trivial

theorem harmless_getState : (getState rid).Calls Call.Harmless :=
  Program.Calls.bind (calls_call trivial) fun _ => trivial

theorem harmless_recordLocation {clientId : Id} {role : EClientType} {location : ParticipantLocation} :
    (recordLocation rid clientId role location).Calls Call.Harmless := by
  refine harmless_getState.bind fun state => ?_
  have hd : (driverDistance state role location).Calls Call.Harmless := by
    unfold driverDistance
    split
    · exact Program.Calls.bind (calls_call trivial) fun _ => trivial
    · trivial
  refine hd.bind fun _ => ?_
  refine Program.Calls.bind (calls_call trivial) fun _ => ?_
  refine Program.Calls.bind (calls_call trivial) fun _ => ?_
  refine Program.Calls.bind (calls_call trivial) fun _ => ?_
  exact Program.Calls.bind (calls_call trivial) fun _ => trivial

theorem harmless_markRideCompleted : (markRideCompleted rid).Calls Call.Harmless := by
  refine harmless_getState.bind fun state => ?_
  split
  · exact Program.Calls.bind (calls_call trivial) fun _ => calls_call trivial
  · trivial

theorem polite_startRide {driverId : Option Id} {location : ParticipantLocation} :
    H.Polite known (startRide env rid driverId location) := by
  unfold startRide
  cases driverId with
  | none => exact polite_throw _
  | some d =>
    apply polite_findById (polite_throw _)
    intro r hr
    subst hr
    simp only [↓Program.throw_seq]
    split
    · exact polite_throw _
    split
    · exact polite_throw _
    split
    · exact polite_throw _
    split
    · exact polite_throw _
    apply polite_harmless (asks_atPickup.mono fun _ h => h.harmless)
    intro _
    apply polite_harmless harmless_recordLocation
    intro _
    apply polite_transition
    intro x changed _
    have hend (y : Ride) {all : List (PartyFact T)} (hy : y.partyFacts ⊆ all) : H.Polite all (do
        if changed = true then notifyRideStarted y
        return y) := by
      split
      · exact polite_both hy rfl (polite_pure _)
      · exact polite_pure _
    apply polite_findById
    · exact hend x (List.subset_append_left _ _)
    · exact fun y _ => hend y (List.subset_append_left _ _)

theorem polite_completeRide {requester : RequestingClient} {location : ParticipantLocation}
    {discount : Option JsNumber} : H.Polite known (completeRide env rid requester location discount) := by
  unfold completeRide
  cases requester.id with
  | none => exact polite_throw _
  | some id =>
    apply polite_findById (polite_throw _)
    intro r hr
    subst hr
    simp only [↓Program.throw_seq]
    split
    · exact polite_throw _
    split
    · exact polite_throw _
    split
    · exact polite_throw _
    apply polite_harmless (asks_atDropoff.mono fun _ h => h.harmless)
    intro _
    apply polite_harmless harmless_recordLocation
    intro _
    apply polite_harmless (harmless_getState.bind fun _ => by simp)
    intro total
    apply polite_harmless (by simp)
    intro fare
    unfold settleRide
    apply polite_transition
    intro x _ _
    apply polite_harmless harmless_markRideCompleted
    intro _
    apply polite_updateRide (m := withFare x fare) (List.subset_append_left _ _)
    intro y _
    have hend (z : Ride) {all : List (PartyFact T)} {summary : FareSummary} (hz : z.partyFacts ⊆ all) :
        H.Polite all (do
          notifyRideCompleted z summary
          return z) := polite_both hz rfl (polite_pure _)
    apply polite_findById
    · exact hend y (List.subset_append_left _ _)
    · exact fun z _ => hend z (List.subset_append_left _ _)

theorem polite_recordTripLocation {requester : RequestingClient} {location : ParticipantLocation} :
    H.Polite known (recordTripLocation rid requester location) := by
  unfold recordTripLocation
  cases requester.id with
  | none => exact polite_throw _
  | some id =>
    apply polite_findById (polite_throw _)
    intro r hr
    subst hr
    simp only [↓Program.throw_seq]
    have haccess : (ensureRequesterCanAccessRide r requester).Calls Call.Harmless := by
      unfold ensureRequesterCanAccessRide
      rcases requester with ⟨_ | id, _ | _ | _⟩ <;> simp only <;> first | trivial | (split <;> trivial)
    apply polite_harmless haccess
    intro _
    split
    · exact polite_throw _
    split
    · exact polite_throw _
    rcases requester.role with _ | _ | _
    · exact polite_throw _
    · exact polite_harmless harmless_recordLocation fun _ => polite_pure _
    · simp only
      split
      · exact polite_throw _
      · exact polite_harmless harmless_recordLocation fun _ => polite_pure _

theorem polite_createRide {rider : Option Id} {payload : CreateRideInput} {now : Time} :
    H.Polite known (createRide env rider payload now) := by
  have hbody (riderId : Id) : H.Polite known (createRideBody env riderId payload now) := by
    unfold createRideBody
    apply polite_harmless (calls_call (c := .requestRoute _ _) trivial)
    intro route
    refine Hosting.minds_nearbyDrivers.bind fun near _ => ?_
    simp only [↓Program.throw_seq]
    split
    · exact polite_throw _
    unfold createRideWithDetails
    simp only [bind_assoc]
    have hinsert (options : RideCreationOptions) (hpickup : options.ride.pickup = payload.pickup)
        (hnear : options.nearbyDrivers = near) :
        H.Minds (sightings payload.pickup near ++ known) (call (.insertRide options))
          (fun created => ∀ c ∈ created.2, c.rideId = created.1)
          fun created => created.2.flatMap RideDriverCandidate.partyFacts := by
      apply Hosting.minds_call id
      · intro w b h
        refine respects_insertRide h.inv fun driver hdriver d hd => ?_
        have hmem : PartyFact.sighted (T := T) payload.pickup d ∈ sightings payload.pickup near := by
          refine List.mem_filterMap.mpr ⟨driver, hnear ▸ hdriver, ?_⟩
          rw [hd]
          rfl
        rw [hpickup]
        exact h.facts _ (List.mem_append_left _ hmem)
      · intro w b created _ ha
        have ha : (w.insertRide options).1 = .ok created := ha
        obtain ⟨hcs, hrows⟩ := insertRide_candidates ha
        refine ⟨hcs, fun f hf => ?_⟩
        obtain ⟨c, hc, hfc⟩ := List.mem_flatMap.mp hf
        exact holds_partyFacts (hrows c hc) f hfc
    refine (hinsert _ rfl rfl).bind fun created hcreated => ?_
    apply polite_findById (polite_throw _)
    intro r hr
    simp only [pure_bind]
    apply polite_forM
    · intro c hc g hg
      refine polite_toDriver (List.subset_append_left _ _) (fun f hf => ?_) ((hcreated c hc).trans hr.symm) rfl hg
      exact List.mem_append_right _ (List.mem_append_left _ (List.mem_flatMap.mpr ⟨c, hc, hf⟩))
    · refine polite_dispatch (List.subset_append_left _ _) (fun _ => rfl) (fun h => by cases h) ?_ (polite_pure _)
      rintro c ⟨⟩
  unfold createRide
  cases rider with
  | none => exact polite_throw _
  | some rider =>
    apply polite_harmless (calls_call (c := .findUnfinishedRide _) trivial)
    intro existing
    simp only [↓Program.throw_seq]
    split
    · exact polite_throw _
    · exact (hbody rider).catching fun _ => polite_throw _

variable (env) in
/-- Every operation of the lifecycle minds the parties of the rides. -/
theorem LifecycleOp.polite (op : LifecycleOp) : H.Polite known (op.program env) := by
  have discard {α : Type} {p : Service α} (hp : H.Polite known p) : H.Polite known (p >>= fun _ => pure ()) :=
    hp.bind fun _ _ => polite_pure _
  cases op with
  | createRide => exact discard polite_createRide
  | acceptRideByDriver => exact discard polite_acceptRideByDriver
  | rejectRideByDriver => exact discard polite_rejectRideByDriver
  | confirmDriverAcceptance => exact discard polite_confirmDriverAcceptance
  | rejectDriverAcceptance => exact discard polite_rejectDriverAcceptance
  | cancelRide => exact discard polite_cancelRide
  | startRide => exact discard polite_startRide
  | completeRide => exact discard polite_completeRide
  | recordTripLocation => exact polite_recordTripLocation

end Operations

end NebLite
