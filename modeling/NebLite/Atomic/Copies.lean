import Mathlib.Logic.Function.Basic

/-! Parties that hold copies of the rows of a table and are kept up to date by messages. -/

namespace Atomic

variable {P K V : Type}

/-- A party is told what a key holds. -/
structure Message (P K V : Type) where
  recipient : P
  key : K
  value : V

/-- What each party was last told of each key. -/
abbrev Copies (P K V : Type) := P → K → Option V

/-- Of every row, the parties that it concerns hold a copy. -/
def Current (concerns : V → P → Prop) (held : K → Option V) (c : Copies P K V) : Prop :=
  ∀ k v, held k = some v → ∀ p, concerns v p → c p k = some v

/-- The messages tell of the rows as they have become, and a row that has changed is told to all
that it concerns. -/
structure Announced (concerns : V → P → Prop) (before after : K → Option V) (ms : List (Message P K V)) :
    Prop where
  accurate : ∀ m ∈ ms, after m.key = some m.value
  complete : ∀ k v, after k = some v → before k ≠ some v → ∀ p, concerns v p →
    ∃ m ∈ ms, m.recipient = p ∧ m.key = k

/-- Where nothing changes, the messages only have to be accurate. -/
theorem Announced.unchanged {concerns : V → P → Prop} {held : K → Option V} {ms : List (Message P K V)}
    (h : ∀ m ∈ ms, held m.key = some m.value) : Announced concerns held held ms :=
  ⟨h, fun _ _ hafter hbefore => absurd hafter hbefore⟩

section Deliver

variable [DecidableEq P] [DecidableEq K]

namespace Copies

def receive (c : Copies P K V) (m : Message P K V) : Copies P K V :=
  Function.update c m.recipient (Function.update (c m.recipient) m.key (some m.value))

def deliver (c : Copies P K V) (ms : List (Message P K V)) : Copies P K V := ms.foldl receive c

theorem receive_self (c : Copies P K V) (m : Message P K V) : c.receive m m.recipient m.key = some m.value := by
  unfold receive
  rw [Function.update_self, Function.update_self]

theorem receive_of_ne (c : Copies P K V) {m : Message P K V} {p : P} {k : K} (h : ¬ (m.recipient = p ∧ m.key = k)) :
    c.receive m p k = c p k := by
  unfold receive
  by_cases hp : p = m.recipient
  · subst hp
    have hk : k ≠ m.key := fun hk => h ⟨rfl, hk.symm⟩
    rw [Function.update_self, Function.update_of_ne hk]
  · rw [Function.update_of_ne hp]

/-- Messages that agree on the key leave the party with their value, or with what it had. -/
theorem deliver_cases (c : Copies P K V) {ms : List (Message P K V)} {p : P} {k : K} {v : V}
    (h : ∀ m ∈ ms, m.recipient = p → m.key = k → m.value = v) :
    c.deliver ms p k = some v ∨
      c.deliver ms p k = c p k ∧ ∀ m ∈ ms, ¬ (m.recipient = p ∧ m.key = k) := by
  induction ms generalizing c with
  | nil => exact .inr ⟨rfl, fun _ hm => absurd hm List.not_mem_nil⟩
  | cons m ms ih =>
    have hrest := ih (c.receive m) fun x hx => h x (List.mem_cons_of_mem m hx)
    by_cases hm : m.recipient = p ∧ m.key = k
    · have hv : m.value = v := h m List.mem_cons_self hm.1 hm.2
      have hself : c.receive m p k = some v := by
        rw [← hm.1, ← hm.2, receive_self, hv]
      left
      obtain htold | ⟨hkept, -⟩ := hrest
      · exact htold
      · exact hkept.trans hself
    · obtain htold | ⟨hkept, hnone⟩ := hrest
      · exact .inl htold
      · refine .inr ⟨hkept.trans (receive_of_ne c hm), fun x hx => ?_⟩
        rcases List.mem_cons.mp hx with rfl | hx
        · exact hm
        · exact hnone x hx

end Copies

/-- Copies that were current are current after the announcements have been delivered. -/
theorem Current.deliver {concerns : V → P → Prop} {before after : K → Option V} {c : Copies P K V}
    {ms : List (Message P K V)} (h : Current concerns before c) (hms : Announced concerns before after ms) :
    Current concerns after (c.deliver ms) := by
  intro k v hv p hp
  have hagree : ∀ m ∈ ms, m.recipient = p → m.key = k → m.value = v := by
    intro m hm _ hk
    have hvalue := hms.accurate m hm
    rw [hk, hv] at hvalue
    exact (Option.some.inj hvalue).symm
  obtain htold | ⟨hkept, hnone⟩ := c.deliver_cases hagree
  · exact htold
  · rw [hkept]
    by_cases hbefore : before k = some v
    · exact h k v hbefore p hp
    · obtain ⟨m, hm, hto⟩ := hms.complete k v hv hbefore p hp
      exact absurd hto (hnone m hm)

end Deliver

end Atomic
