import NebLite.Atomic.Interleaving

/-! Transactions carried out statement by statement under row locks, amid other calls. A
statement of a transaction locks the row it finds until the transaction ends; until then what
it writes is a draft, and a call that would change the row has to wait. -/

namespace Atomic

variable {ι κ V Op σ : Type} {Res : Op → Type} {ε α : Type}

/-- A store with rows; a row that is put depends on nothing else in the store. -/
structure Rows (κ V σ : Type) where
  get : σ → κ → Option V
  put : κ → V → σ → σ
  get_put_ne : ∀ k v s l, l ≠ k → get (put k v s) l = get s l
  get_put_congr : ∀ k v s t, get s k = get t k → get (put k v s) k = get (put k v t) k

/-- Finds the row under a key, locks it and changes it. -/
structure RowStatement (κ V : Type) where
  key : κ
  change : V → V

/-- A statement answers with the row as it has found it. -/
abbrev RowTransaction (κ V ε α : Type) := Program (RowStatement κ V) (fun _ => Option V) ε α

namespace Rows

variable (rows : Rows κ V σ)

def alter : Handler (RowStatement κ V) (fun _ => Option V) ε σ := fun q s =>
  match rows.get s q.key with
  | none => (.ok none, s)
  | some v => (.ok (some v), rows.put q.key (q.change v) s)

/-- The transaction alone. An exception takes back what it has written. -/
def transact (p : RowTransaction κ V ε α) (s : σ) : Except ε α × σ :=
  match p.run rows.alter s with
  | (.ok a, t) => (.ok a, t)
  | (.error e, _) => (.error e, s)

/-- The store with the writes of a draft, of which the newest is first. -/
def overlay (draft : List (κ × V)) (s : σ) : σ := draft.foldr (fun w s => rows.put w.1 w.2 s) s

variable {rows} {s t : σ} {q : RowStatement κ V} {cont : Except ε (Option V) → RowTransaction κ V ε α}

theorem get_overlay_of_notMem {draft : List (κ × V)} {k : κ} (hk : k ∉ draft.map Prod.fst) :
    rows.get (rows.overlay draft s) k = rows.get s k := by
  induction draft with
  | nil => rfl
  | cons w draft ih =>
    have hne : k ≠ w.1 := fun he => hk (he ▸ List.mem_cons_self)
    have hrest := ih fun hm => hk (List.mem_cons_of_mem _ hm)
    exact (rows.get_put_ne w.1 w.2 _ k hne).trans hrest

/-- Under a draft a row depends on nothing but the row itself. -/
theorem get_overlay_congr {k : κ} (hk : rows.get s k = rows.get t k) (draft : List (κ × V)) :
    rows.get (rows.overlay draft s) k = rows.get (rows.overlay draft t) k := by
  induction draft with
  | nil => exact hk
  | cons w draft ih =>
    show rows.get (rows.put w.1 w.2 (rows.overlay draft s)) k = rows.get (rows.put w.1 w.2 (rows.overlay draft t)) k
    by_cases he : k = w.1
    · subst he
      exact rows.get_put_congr w.1 w.2 _ _ ih
    · rw [rows.get_put_ne w.1 w.2 _ k he, rows.get_put_ne w.1 w.2 _ k he, ih]

theorem run_alter_none (hq : rows.get s q.key = none) :
    (Program.call q cont).run rows.alter s = (cont (.ok none)).run rows.alter s := by
  simp only [Program.run, alter, hq]

theorem run_alter_some {v : V} (hq : rows.get s q.key = some v) :
    (Program.call q cont).run rows.alter s =
      (cont (.ok (some v))).run rows.alter (rows.put q.key (q.change v) s) := by
  simp only [Program.run, alter, hq]

theorem transact_ok {p : RowTransaction κ V ε α} {a : α} (hp : p.run rows.alter s = (.ok a, t)) :
    rows.transact p s = (.ok a, t) := by
  simp only [transact, hp]

theorem transact_error {p : RowTransaction κ V ε α} {e : ε} (hp : p.run rows.alter s = (.error e, t)) :
    rows.transact p s = (.error e, s) := by
  simp only [transact, hp]

end Rows

namespace RowTransaction

def statement (key : κ) (change : V → V) : RowTransaction κ V ε (Option V) := .perform ⟨key, change⟩

/-- A row that is not there is not locked either: a transaction that does not find a row that it
has not locked gives up. -/
def Settled : RowTransaction κ V ε α → List κ → Prop
  | .ret _, _ => True
  | .throw _, _ => True
  | .call q cont, held =>
    (q.key ∈ held ∨ ∃ e, cont (.ok none) = .throw e) ∧
      Settled (cont (.ok none)) held ∧ ∀ v, Settled (cont (.ok (some v))) (q.key :: held)

/-- Nothing is left but to roll back. -/
def Fails (p : RowTransaction κ V ε α) : Prop := ∃ e, p = .throw e

end RowTransaction

/-- A process, outside of any transaction or within the one that carries out its next call. -/
inductive Runner (κ V Op : Type) (Res : Op → Type) (ε α : Type) where
  | outside (p : Program Op Res ε α)
  | inside (op : Op) (next : Except ε (Res op) → Program Op Res ε α) (rest : RowTransaction κ V ε (Res op))
    (draft : List (κ × V))

namespace Runner

def locks : Runner κ V Op Res ε α → List κ
  | .outside _ => []
  | .inside _ _ _ draft => draft.map Prod.fst

/-- The process as a program of whole calls. A transaction that has given up counts as answered. -/
def whole : Runner κ V Op Res ε α → Program Op Res ε α
  | .outside p => p
  | .inside _ next (.throw e) _ => next (.error e)
  | .inside op next _ _ => .call op next

theorem whole_inside {op : Op} {next : Except ε (Res op) → Program Op Res ε α} {rest : RowTransaction κ V ε (Res op)}
    (hrest : ¬ rest.Fails) (draft : List (κ × V)) :
    (Runner.inside op next rest draft).whole = .call op next := by
  cases rest with
  | ret a => rfl
  | throw e => exact absurd ⟨e, rfl⟩ hrest
  | call q cont => rfl

end Runner

/-- What is committed, and where the processes stand. -/
structure Database (ι κ V Op : Type) (Res : Op → Type) (ε α σ : Type) where
  procs : ι → Runner κ V Op Res ε α
  store : σ

namespace Database

def start (procs : ι → Program Op Res ε α) (s : σ) : Database ι κ V Op Res ε α σ :=
  ⟨fun i => .outside (procs i), s⟩

variable [DecidableEq ι]

def becomes (d : Database ι κ V Op Res ε α σ) (i : ι) (r : Runner κ V Op Res ε α) (s : σ) :
    Database ι κ V Op Res ε α σ :=
  ⟨Function.update d.procs i r, s⟩

section Step

variable (rows : Rows κ V σ) (body : ∀ op, Option (RowTransaction κ V ε (Res op)))
  (h : Handler Op Res ε σ)

/-- What one process does next; `some e` is a failure, by which a transaction ends as well. A
call that would change a row that another process holds cannot be executed, nor can a
statement that finds one. -/
inductive Step (d : Database ι κ V Op Res ε α σ) : ι × Option ε → Database ι κ V Op Res ε α σ → Prop where
  | executes {i : ι} {op : Op} {next : Except ε (Res op) → Program Op Res ε α}
      (hi : d.procs i = .outside (.call op next)) (hop : body op = none)
      (hfree : ∀ j, j ≠ i → ∀ k ∈ (d.procs j).locks, rows.get (h op d.store).2 k = rows.get d.store k) :
      Step d (i, none) (d.becomes i (.outside (next (h op d.store).1)) (h op d.store).2)
  | begins {i : ι} {op : Op} {next : Except ε (Res op) → Program Op Res ε α} {p : RowTransaction κ V ε (Res op)}
      (hi : d.procs i = .outside (.call op next)) (hop : body op = some p) :
      Step d (i, none) (d.becomes i (.inside op next p []) d.store)
  | misses {i : ι} {op : Op} {next : Except ε (Res op) → Program Op Res ε α} {q : RowStatement κ V}
      {cont : Except ε (Option V) → RowTransaction κ V ε (Res op)} {draft : List (κ × V)}
      (hi : d.procs i = .inside op next (.call q cont) draft)
      (hq : rows.get (rows.overlay draft d.store) q.key = none) :
      Step d (i, none) (d.becomes i (.inside op next (cont (.ok none)) draft) d.store)
  | alters {i : ι} {op : Op} {next : Except ε (Res op) → Program Op Res ε α} {q : RowStatement κ V}
      {cont : Except ε (Option V) → RowTransaction κ V ε (Res op)} {draft : List (κ × V)} {v : V}
      (hi : d.procs i = .inside op next (.call q cont) draft)
      (hq : rows.get (rows.overlay draft d.store) q.key = some v)
      (hfree : ∀ j, j ≠ i → q.key ∉ (d.procs j).locks) :
      Step d (i, none)
        (d.becomes i (.inside op next (cont (.ok (some v))) ((q.key, q.change v) :: draft)) d.store)
  | commits {i : ι} {op : Op} {next : Except ε (Res op) → Program Op Res ε α} {a : Res op} {draft : List (κ × V)}
      (hi : d.procs i = .inside op next (.ret a) draft) :
      Step d (i, none) (d.becomes i (.outside (next (.ok a))) (rows.overlay draft d.store))
  | rollsBack {i : ι} {op : Op} {next : Except ε (Res op) → Program Op Res ε α} {e : ε} {draft : List (κ × V)}
      (hi : d.procs i = .inside op next (.throw e) draft) :
      Step d (i, none) (d.becomes i (.outside (next (.error e))) d.store)
  | fails {i : ι} {op : Op} {next : Except ε (Res op) → Program Op Res ε α} (e : ε)
      (hi : d.procs i = .outside (.call op next)) :
      Step d (i, some e) (d.becomes i (.outside (next (.error e))) d.store)
  | aborts {i : ι} {op : Op} {next : Except ε (Res op) → Program Op Res ε α} {rest : RowTransaction κ V ε (Res op)}
      {draft : List (κ × V)} (e : ε) (hi : d.procs i = .inside op next rest draft) (hrest : ¬ rest.Fails) :
      Step d (i, some e) (d.becomes i (.outside (next (.error e))) d.store)

/-- The database after a run of such steps. -/
inductive Reaches : Database ι κ V Op Res ε α σ → List (ι × Option ε) → Database ι κ V Op Res ε α σ → Prop where
  | refl (d : Database ι κ V Op Res ε α σ) : Reaches d [] d
  | step {d d' d'' : Database ι κ V Op Res ε α σ} {l : ι × Option ε} {ls : List (ι × Option ε)}
      (hstep : Step rows body h d l d') (hrest : Reaches d' ls d'') : Reaches d (l :: ls) d''

end Step

end Database

namespace Pool

variable [DecidableEq ι] (h : Handler Op Res ε σ)

/-- The next call of process `i` does nothing and fails. -/
def fail (c : Pool ι Op Res ε α σ) (i : ι) (e : ε) : Pool ι Op Res ε α σ :=
  match c.procs i with
  | .call op next =>
    { c with procs := Function.update c.procs i (next (.error e)), trace := (i, ⟨op, .error e⟩) :: c.trace }
  | _ => c

/-- A process executes its next call, or the call fails. -/
def attempt (c : Pool ι Op Res ε α σ) : ι × Option ε → Pool ι Op Res ε α σ
  | (i, none) => c.step h i
  | (i, some e) => c.fail i e

theorem foldl_attempt_answered {c : Pool ι Op Res ε α σ} {ls : List (ι × Option ε)} (hls : ∀ l ∈ ls, l.2 = none) :
    ls.foldl (attempt h) c = c.exec h (ls.map Prod.fst) := by
  induction ls generalizing c with
  | nil => rfl
  | cons l ls ih =>
    obtain ⟨i, fault⟩ := l
    obtain rfl : fault = none := hls _ List.mem_cons_self
    exact ih fun l hl => hls l (List.mem_cons_of_mem _ hl)

end Pool

namespace Database

/-- The pool of whole calls stands where the database stands. -/
structure Matches (d : Database ι κ V Op Res ε α σ) (c : Pool ι Op Res ε α σ) : Prop where
  store : c.store = d.store
  procs : ∀ i, c.procs i = (d.procs i).whole

theorem matches_start (procs : ι → Program Op Res ε α) (s : σ) :
    (start procs s : Database ι κ V Op Res ε α σ).Matches (Pool.start procs s) := ⟨rfl, fun _ => rfl⟩

section Matching

variable [DecidableEq ι] {h : Handler Op Res ε σ} {d : Database ι κ V Op Res ε α σ} {c : Pool ι Op Res ε α σ}
  {s : σ} {i : ι} {r : Runner κ V Op Res ε α}

theorem Matches.becomes {c' : Pool ι Op Res ε α σ} (hc : d.Matches c) (hstore : c'.store = s)
    (hprocs : c'.procs = Function.update c.procs i r.whole) : (d.becomes i r s).Matches c' := by
  refine ⟨hstore, fun j => ?_⟩
  rw [hprocs]
  show Function.update c.procs i r.whole j = (Function.update d.procs i r j).whole
  by_cases hj : j = i
  · subst hj
    rw [Function.update_self, Function.update_self]
  · rw [Function.update_of_ne hj, Function.update_of_ne hj, hc.procs j]

/-- A process that goes on as before is matched by no step. -/
theorem Matches.stays (hc : d.Matches c) (hr : (d.procs i).whole = r.whole) : (d.becomes i r d.store).Matches c := by
  refine hc.becomes hc.store ?_
  rw [← hr, ← hc.procs i, Function.update_eq_self]

/-- The next call is executed. -/
theorem Matches.called {op : Op} {next : Except ε (Res op) → Program Op Res ε α} {answer : Except ε (Res op)}
    (hc : d.Matches c) (hi : (d.procs i).whole = .call op next) (hop : h op d.store = (answer, s))
    (hr : r.whole = next answer) : (d.becomes i r s).Matches (c.step h i) := by
  have hstep := Pool.step_call h ((hc.procs i).trans hi)
  rw [hc.store, hop] at hstep
  rw [hstep]
  exact hc.becomes rfl (by rw [hr])

/-- The next call fails. -/
theorem Matches.failed {op : Op} {next : Except ε (Res op) → Program Op Res ε α} {e : ε}
    (hc : d.Matches c) (hi : (d.procs i).whole = .call op next) :
    (d.becomes i (.outside (next (.error e))) d.store).Matches (c.fail i e) := by
  have hfail : c.fail i e = { c with procs := Function.update c.procs i (next (.error e)),
                                     trace := (i, ⟨op, .error e⟩) :: c.trace } := by
    simp only [Pool.fail, (hc.procs i).trans hi]
  rw [hfail]
  exact hc.becomes hc.store rfl

end Matching

section Refinement

variable {rows : Rows κ V σ} {body : ∀ op, Option (RowTransaction κ V ε (Res op))}
  {h : Handler Op Res ε σ} {d d' : Database ι κ V Op Res ε α σ} {c : Pool ι Op Res ε α σ} {s t : σ} {i : ι}
  {r : Runner κ V Op Res ε α}

variable (rows body) in
/-- On every store that has the rows it holds as they are, a transaction does what its draft and
then what is left of it do. -/
def Sound (s : σ) : Runner κ V Op Res ε α → Prop
  | .outside _ => True
  | .inside op _ rest draft => rest.Settled (draft.map Prod.fst) ∧
      (rest.Fails ∨ ∃ p, body op = some p ∧ ∀ t, (∀ k ∈ draft.map Prod.fst, rows.get t k = rows.get s k) →
        p.run rows.alter t = rest.run rows.alter (rows.overlay draft t))

variable (rows body) in
structure Orderly (d : Database ι κ V Op Res ε α σ) : Prop where
  apart : ∀ i j, i ≠ j → ∀ k ∈ (d.procs i).locks, k ∉ (d.procs j).locks
  sound : ∀ i, Sound rows body d.store (d.procs i)

theorem orderly_start (procs : ι → Program Op Res ε α) (s : σ) :
    Orderly rows body (start procs s : Database ι κ V Op Res ε α σ) where
  apart _ _ _ _ hk := absurd hk List.not_mem_nil
  sound _ := trivial

theorem Sound.congr (hr : Sound rows body s r) (hs : ∀ k ∈ r.locks, rows.get t k = rows.get s k) :
    Sound rows body t r := by
  cases r with
  | outside p => trivial
  | inside op next rest draft =>
    obtain ⟨hsettled, hfails | ⟨p, hp, hrun⟩⟩ := hr
    · exact ⟨hsettled, .inl hfails⟩
    · refine ⟨hsettled, .inr ⟨p, hp, fun u hu => hrun u fun k hk => ?_⟩⟩
      rw [hu k hk, hs k hk]

variable [DecidableEq ι]

theorem Orderly.becomes (hd : Orderly rows body d) (hr : Sound rows body s r)
    (hlocks : ∀ k ∈ r.locks, k ∈ (d.procs i).locks ∨ ∀ j, j ≠ i → k ∉ (d.procs j).locks)
    (hs : ∀ j, j ≠ i → ∀ k ∈ (d.procs j).locks, rows.get s k = rows.get d.store k) :
    Orderly rows body (d.becomes i r s) := by
  have hself : (d.becomes i r s).procs i = r := Function.update_self ..
  have hother (j : ι) (hj : j ≠ i) : (d.becomes i r s).procs j = d.procs j := Function.update_of_ne hj ..
  have hnew (j : ι) (hj : j ≠ i) (k : κ) (hk : k ∈ r.locks) : k ∉ (d.procs j).locks := by
    obtain hheld | hfree := hlocks k hk
    · exact hd.apart i j (Ne.symm hj) k hheld
    · exact hfree j hj
  constructor
  · intro j l hjl k hk
    by_cases hj : j = i
    · subst hj
      rw [hself] at hk
      rw [hother l (Ne.symm hjl)]
      exact hnew l (Ne.symm hjl) k hk
    · rw [hother j hj] at hk
      by_cases hl : l = i
      · subst hl
        rw [hself]
        exact fun hmem => hnew j hj k hmem hk
      · rw [hother l hl]
        exact hd.apart j l hjl k hk
  · intro j
    by_cases hj : j = i
    · subst hj
      rwa [hself]
    · rw [hother j hj]
      exact (hd.sound j).congr (hs j hj)

/-- A transaction that goes on is matched by no step, and one that has just come to give up by
the whole call. -/
theorem Matches.proceeds {op : Op} {next : Except ε (Res op) → Program Op Res ε α}
    {p rest : RowTransaction κ V ε (Res op)} {draft : List (κ × V)} (hc : d.Matches c)
    (hi : (d.procs i).whole = .call op next) (hop : h op d.store = rows.transact p d.store)
    (hrun : p.run rows.alter d.store = rest.run rows.alter (rows.overlay draft d.store)) :
    ∃ ls : List (ι × Option ε), ls.Sublist [(i, none)] ∧
      (d.becomes i (.inside op next rest draft) d.store).Matches (ls.foldl (Pool.attempt h) c) := by
  by_cases hrest : rest.Fails
  · obtain ⟨e, rfl⟩ := hrest
    rw [Rows.transact_error hrun] at hop
    exact ⟨[(i, none)], List.Sublist.refl _, hc.called hi hop rfl⟩
  · refine ⟨[], List.nil_sublist _, hc.stays ?_⟩
    rw [hi, Runner.whole_inside hrest]

/-- A process that holds nothing any more. -/
theorem Orderly.released (hd : Orderly rows body d) (p : Program Op Res ε α)
    (hs : ∀ j, j ≠ i → ∀ k ∈ (d.procs j).locks, rows.get s k = rows.get d.store k) :
    Orderly rows body (d.becomes i (.outside p) s) :=
  hd.becomes trivial (fun _ hk => absurd hk List.not_mem_nil) hs

section Inside

variable {op : Op} {next : Except ε (Res op) → Program Op Res ε α} {q : RowStatement κ V}
  {cont : Except ε (Option V) → RowTransaction κ V ε (Res op)} {draft : List (κ × V)}

theorem Sound.underway (hr : Sound rows body s (.inside op next (.call q cont) draft)) :
    ∃ p, body op = some p ∧ ∀ t, (∀ k ∈ draft.map Prod.fst, rows.get t k = rows.get s k) →
      p.run rows.alter t = (Program.call q cont).run rows.alter (rows.overlay draft t) := by
  obtain ⟨-, ⟨e, he⟩ | hp⟩ := hr
  · cases he
  · exact hp

/-- A row that is held was found, so a transaction that misses one goes on as it would alone, or
gives up. -/
theorem Sound.misses (hr : Sound rows body s (.inside op next (.call q cont) draft))
    (hq : rows.get (rows.overlay draft s) q.key = none) :
    Sound rows body s (.inside op next (cont (.ok none)) draft) := by
  obtain ⟨p, hp, hrun⟩ := hr.underway
  obtain ⟨⟨hheld | hfails, hsettled, -⟩, -⟩ := hr
  · refine ⟨hsettled, .inr ⟨p, hp, fun t ht => ?_⟩⟩
    have hmiss : rows.get (rows.overlay draft t) q.key = none := by
      rw [Rows.get_overlay_congr (ht q.key hheld), hq]
    rw [hrun t ht, Rows.run_alter_none hmiss]
  · exact ⟨hsettled, .inl hfails⟩

theorem Sound.alters {v : V} (hr : Sound rows body s (.inside op next (.call q cont) draft))
    (hq : rows.get (rows.overlay draft s) q.key = some v) :
    Sound rows body s (.inside op next (cont (.ok (some v))) ((q.key, q.change v) :: draft)) := by
  obtain ⟨p, hp, hrun⟩ := hr.underway
  obtain ⟨⟨-, -, hsettled⟩, -⟩ := hr
  refine ⟨hsettled v, .inr ⟨p, hp, fun t ht => ?_⟩⟩
  have hfound : rows.get (rows.overlay draft t) q.key = some v := by
    rw [Rows.get_overlay_congr (ht q.key List.mem_cons_self), hq]
  rw [hrun t fun k hk => ht k (List.mem_cons_of_mem _ hk), Rows.run_alter_some hfound]
  rfl

end Inside

variable (hatomic : ∀ op p, body op = some p → ∀ s, h op s = rows.transact p s)
  (hsettled : ∀ op p, body op = some p → p.Settled [])

include hatomic hsettled

/-- One step of the database is one step of the pool of whole calls, or none. -/
theorem Step.matched {l : ι × Option ε} (hstep : Step rows body h d l d') (hd : Orderly rows body d)
    (hc : d.Matches c) :
    Orderly rows body d' ∧
      ∃ ls : List (ι × Option ε), ls.Sublist [l] ∧ d'.Matches (ls.foldl (Pool.attempt h) c) := by
  have hsame (i j : ι) (_ : j ≠ i) (k : κ) (_ : k ∈ (d.procs j).locks) : rows.get d.store k = rows.get d.store k := rfl
  cases hstep with
  | @executes i op next hi hop hfree =>
    have hwhole : (d.procs i).whole = .call op next := by rw [hi]; rfl
    refine ⟨hd.released _ hfree, [(i, none)], List.Sublist.refl _, ?_⟩
    exact hc.called hwhole rfl rfl
  | @begins i op next p hi hop =>
    have hwhole : (d.procs i).whole = .call op next := by rw [hi]; rfl
    refine ⟨hd.becomes ⟨hsettled op p hop, .inr ⟨p, hop, fun t _ => rfl⟩⟩ (fun k hk => absurd hk List.not_mem_nil)
      (hsame i), ?_⟩
    exact hc.proceeds hwhole (hatomic op p hop d.store) rfl
  | @misses i op next q cont draft hi hq =>
    have hwhole : (d.procs i).whole = .call op next := by rw [hi]; rfl
    have hsound := hd.sound i
    rw [hi] at hsound
    obtain ⟨p, hp, hrun⟩ := hsound.underway
    refine ⟨hd.becomes (hsound.misses hq) (fun k hk => .inl (by rwa [hi])) (hsame i), ?_⟩
    refine hc.proceeds hwhole (hatomic op p hp d.store) ?_
    rw [hrun d.store fun _ _ => rfl, Rows.run_alter_none hq]
  | @alters i op next q cont draft v hi hq hfree =>
    have hwhole : (d.procs i).whole = .call op next := by rw [hi]; rfl
    have hsound := hd.sound i
    rw [hi] at hsound
    obtain ⟨p, hp, hrun⟩ := hsound.underway
    refine ⟨hd.becomes (hsound.alters hq) (fun k hk => ?_) (hsame i), ?_⟩
    · rcases List.mem_cons.mp hk with rfl | hk
      · exact .inr hfree
      · exact .inl (by rwa [hi])
    · refine hc.proceeds hwhole (hatomic op p hp d.store) ?_
      rw [hrun d.store fun _ _ => rfl, Rows.run_alter_some hq]
      rfl
  | @commits i op next a draft hi =>
    have hwhole : (d.procs i).whole = .call op next := by rw [hi]; rfl
    have hsound := hd.sound i
    rw [hi] at hsound
    obtain ⟨-, ⟨e, he⟩ | ⟨p, hp, hrun⟩⟩ := hsound
    · cases he
    have hanswer : h op d.store = (.ok a, rows.overlay draft d.store) := by
      rw [hatomic op p hp, Rows.transact_ok (hrun d.store fun _ _ => rfl)]
    refine ⟨hd.released _ fun j hj k hk => ?_, [(i, none)], List.Sublist.refl _, hc.called hwhole hanswer rfl⟩
    have hheld := hd.apart j i hj k hk
    rw [hi] at hheld
    exact Rows.get_overlay_of_notMem hheld
  | @rollsBack i op next e draft hi =>
    refine ⟨hd.released _ (hsame i), [], List.nil_sublist _, ?_⟩
    exact hc.stays (by rw [hi]; rfl)
  | @fails i op next e hi =>
    have hwhole : (d.procs i).whole = .call op next := by rw [hi]; rfl
    refine ⟨hd.released _ (hsame i), [(i, some e)],
      List.Sublist.refl _, ?_⟩
    exact hc.failed hwhole
  | @aborts i op next rest draft e hi hrest =>
    have hwhole : (d.procs i).whole = .call op next := by rw [hi, Runner.whole_inside hrest]
    refine ⟨hd.released _ (hsame i), [(i, some e)],
      List.Sublist.refl _, ?_⟩
    exact hc.failed hwhole

/-- Every run of statements is a run of whole calls, with the same failures. -/
theorem Reaches.matched {ls : List (ι × Option ε)} (hrun : Reaches rows body h d ls d') (hd : Orderly rows body d)
    (hc : d.Matches c) :
    Orderly rows body d' ∧
      ∃ calls : List (ι × Option ε), calls.Sublist ls ∧ d'.Matches (calls.foldl (Pool.attempt h) c) := by
  induction hrun generalizing c with
  | refl d => exact ⟨hd, [], List.Sublist.refl _, hc⟩
  | step hstep hrest ih =>
    obtain ⟨hd', front, hfront, hc'⟩ := hstep.matched hatomic hsettled hd hc
    obtain ⟨hlast, back, hback, hmatch⟩ := ih hd' hc'
    refine ⟨hlast, front ++ back, hfront.append hback, ?_⟩
    rwa [List.foldl_append]

end Refinement

end Database

end Atomic
