import NebLite.Rides.Parties

/-! The operations on rides where the tables are one part of a larger store. Every call is one
step on the tables, but for the question which drivers are near. -/

namespace NebLite

open Atomic Knowledge

/-- The location service answers, from keys of its own. -/
def Call.Looks : Call → Prop
  | .nearbyDrivers _ _ => True
  | _ => False

/-- What is known of the parties of the rides on a store around the tables. -/
def hosted {S T : Type} (world : S → World) (beyond : S → Beyond T) : Knowledge (PartyFact T) S where
  inv s := (world s).AddressedAll (beyond s).seen
  holds f s := f.Holds (beyond s) (world s)

/-- That the drivers of a reply have been seen near its centre. -/
def sightings {T : Type} (centre : Coordinate) (drivers : List NearbyDriver) : List (PartyFact T) :=
  drivers.filterMap fun driver => driver.driverId.map (.sighted centre)

/-- A store around the tables, and how the calls are carried out on it. -/
structure Hosting (Op : Type) (Res : Op → Type) (S T : Type) where
  env : Environment
  handler : Handler Op Res ServiceError S
  implement : ∀ c : Call, Program Op Res ServiceError c.Answer
  world : S → World
  beyond : S → Beyond T
  carried : ∀ {c : Call} {known : List (PartyFact T)} {P : c.Answer → Prop} {learnt : c.Answer → List (PartyFact T)},
    ¬ c.Looks →
    (∀ w b, (parties b).Knows known w → (parties b).Respects w (handle env c w).2 ∧
      ∀ a, (handle env c w).1 = .ok a → P a ∧ ∀ f ∈ learnt a, f.Holds b (handle env c w).2) →
    (hosted world beyond).Minds handler known (implement c) P learnt
  looks : ∀ known centre limit, (hosted world beyond).Minds handler known (implement (.nearbyDrivers centre limit))
    (fun _ => True) (sightings centre)

/-- The tables alone, where any driver may be near. -/
def Hosting.tables (env : Environment) : Hosting Call Call.Answer World Empty where
  env
  handler := handle env
  implement := call
  world := id
  beyond _ := ⟨fun _ _ => True, Empty.elim⟩
  carried _ h := minds_perform (fun w hw => ⟨(h w _ ⟨hw.inv, hw.facts⟩).1.inv, (h w _ ⟨hw.inv, hw.facts⟩).1.facts⟩)
    fun w a hw ha => (h w _ ⟨hw.inv, hw.facts⟩).2 a ha
  looks known centre limit := by
    apply minds_perform
    · intro w hw
      have hlook : Call.Harmless (.nearbyDrivers centre limit) := trivial
      have hr : (parties (T := Empty) ⟨fun _ _ => True, Empty.elim⟩).Respects w
          (handle env (.nearbyDrivers centre limit) w).2 := hlook.respects hw.inv
      exact ⟨hr.inv, hr.facts⟩
    · intro w drivers _ _
      refine ⟨trivial, fun f hf => ?_⟩
      obtain ⟨driver, -, hd⟩ := List.mem_filterMap.mp hf
      obtain ⟨d, -, rfl⟩ := Option.map_eq_some_iff.mp hd
      trivial

namespace Hosting

variable {Op S T : Type} {Res : Op → Type} (H : Hosting Op Res S T)

/-- The program, carried out on the store, minds the parties of the rides. -/
abbrev Minds {α : Type} (known : List (PartyFact T)) (p : Service α) (P : α → Prop) (learnt : α → List (PartyFact T)) : Prop :=
  (hosted H.world H.beyond).Minds H.handler known (p.expand H.implement) P learnt

abbrev Polite {α : Type} (known : List (PartyFact T)) (p : Service α) : Prop :=
  H.Minds known p (fun _ => True) fun _ => []

variable {H} {known : List (PartyFact T)} {α β : Type} {p : Service α} {P : α → Prop} {learnt : α → List (PartyFact T)}
  {Q : β → Prop} {told : β → List (PartyFact T)}

theorem Minds.bind {f : α → Service β} (hp : H.Minds known p P learnt)
    (hf : ∀ a, P a → H.Minds (learnt a ++ known) (f a) Q told) : H.Minds known (p >>= f) Q told := by
  show Knowledge.Minds _ _ known ((p >>= f).expand H.implement) Q told
  rw [Program.expand_bind]
  exact Knowledge.Minds.bind hp hf

theorem Minds.catching {g : ServiceError → Service α} (hp : H.Minds known p P learnt)
    (hg : ∀ e, H.Minds known (g e) P learnt) : H.Minds known (p.catching g) P learnt := by
  show Knowledge.Minds _ _ known ((p.catching g).expand H.implement) P learnt
  rw [Program.expand_catching]
  exact Knowledge.Minds.catching hp hg

/-- A call on the tables, and what its answer tells. -/
theorem minds_call {c : Call} {P : c.Answer → Prop} {learnt : c.Answer → List (PartyFact T)} (hc : ¬ c.Looks)
    (hr : ∀ w b, (parties b).Knows known w → (parties b).Respects w (handle H.env c w).2)
    (ha : ∀ w b a, (parties b).Knows known w → (handle H.env c w).1 = .ok a →
      P a ∧ ∀ f ∈ learnt a, f.Holds b (handle H.env c w).2) : H.Minds known (call c) P learnt := by
  show Knowledge.Minds _ _ known ((call c).expand H.implement) P learnt
  rw [call, Program.expand_perform]
  exact H.carried hc fun w b hw => ⟨hr w b hw, fun a => ha w b a hw⟩

theorem minds_nearbyDrivers {centre : Coordinate} {limit : ℕ} :
    H.Minds known (call (.nearbyDrivers centre limit)) (fun _ => True) (sightings centre) := by
  show Knowledge.Minds _ _ known ((call (.nearbyDrivers centre limit)).expand H.implement) _ _
  rw [call, Program.expand_perform]
  exact H.looks known centre limit

theorem polite_harmlessCalls (hp : p.Calls Call.Harmless) : H.Polite known p := by
  apply minds_expand hp
  intro c hc
  by_cases hlooks : c.Looks
  · cases c with
    | nearbyDrivers centre limit => exact (H.looks known centre limit).imp (fun _ _ => trivial) fun _ => List.nil_subset _
    | _ => exact hlooks.elim
  · exact H.carried hlooks fun w b hw => ⟨hc.respects hw.inv, fun _ _ => ⟨trivial, fun f hf => by cases hf⟩⟩

end Hosting

end NebLite
