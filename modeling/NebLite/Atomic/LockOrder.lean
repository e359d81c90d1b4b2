import NebLite.Atomic.RowLocks
import Mathlib.Data.DFinsupp.WellFounded
import Mathlib.Data.Prod.Lex
import Mathlib.Data.Set.Finite.Lemmas
import Mathlib.SetTheory.Ordinal.Family

/-! Transactions that lock their rows in ascending order never wait for each other for ever:
some process can always go on, and there is no endless run. -/

namespace Atomic

variable {ι κ V Op σ : Type} {Res : Op → Type} {ε α : Type}

/-- A row is locked again, or it comes after all that are locked. -/
def RowTransaction.Ascending [LT κ] : RowTransaction κ V ε α → List κ → Prop
  | .ret _, _ => True
  | .throw _, _ => True
  | .call q cont, held =>
    (q.key ∈ held ∨ ∀ k ∈ held, k < q.key) ∧
      Ascending (cont (.ok none)) held ∧ ∀ v, Ascending (cont (.ok (some v))) (q.key :: held)

namespace Runner

def Ended : Runner κ V Op Res ε α → Prop
  | .outside p => p.pending = none
  | .inside .. => False

def Ascending [LT κ] : Runner κ V Op Res ε α → Prop
  | .outside _ => True
  | .inside _ _ rest draft => rest.Ascending (draft.map Prod.fst)

end Runner

namespace Database

section Progress

variable [DecidableEq ι] {rows : Rows κ V σ} {body : ∀ op, Option (RowTransaction κ V ε (Res op))}
  {h : Handler Op Res ε σ} {d d' : Database ι κ V Op Res ε α σ} {i : ι}

variable (rows body h) in
/-- A transaction that cannot go on waits for a row that another process holds. -/
theorem exists_step_inside {op : Op} {next : Except ε (Res op) → Program Op Res ε α}
    {rest : RowTransaction κ V ε (Res op)} {draft : List (κ × V)} (hi : d.procs i = .inside op next rest draft) :
    (∃ d', Step rows body h d (i, none) d') ∨
      ∃ q cont, rest = .call q cont ∧ ∃ j, j ≠ i ∧ q.key ∈ (d.procs j).locks := by
  cases rest with
  | ret a => exact .inl ⟨_, .commits hi⟩
  | throw e => exact .inl ⟨_, .rollsBack hi⟩
  | call q cont =>
    cases hq : rows.get (rows.overlay draft d.store) q.key with
    | none => exact .inl ⟨_, .misses hi hq⟩
    | some v =>
      by_cases hfree : ∀ j, j ≠ i → q.key ∉ (d.procs j).locks
      · exact .inl ⟨_, .alters hi hq hfree⟩
      · push Not at hfree
        exact .inr ⟨q, cont, rfl, hfree⟩

/-- Where no row is locked every process that has not ended can go on. -/
theorem exists_step_unlocked (hi : ¬ (d.procs i).Ended) (hfree : ∀ j, (d.procs j).locks = []) :
    ∃ d', Step rows body h d (i, none) d' := by
  have hnone (j : ι) (k : κ) : k ∉ (d.procs j).locks := by
    rw [hfree j]
    exact List.not_mem_nil
  cases hproc : d.procs i with
  | inside op next rest draft =>
    obtain hstep | ⟨q, cont, -, j, -, hheld⟩ := exists_step_inside rows body h hproc
    · exact hstep
    · exact absurd hheld (hnone j q.key)
  | outside p =>
    rw [hproc] at hi
    cases p with
    | ret a => exact absurd rfl hi
    | throw e => exact absurd rfl hi
    | call op next =>
      cases hop : body op with
      | none => exact ⟨_, .executes hproc hop fun j _ k hk => absurd hk (hnone j k)⟩
      | some p => exact ⟨_, .begins hproc hop⟩

variable [LinearOrder κ]

theorem ascending_becomes {r : Runner κ V Op Res ε α} {s : σ} (hd : ∀ j, (d.procs j).Ascending) (hr : r.Ascending) :
    ∀ j, ((d.becomes i r s).procs j).Ascending := by
  intro j
  show (Function.update d.procs i r j).Ascending
  by_cases hj : j = i
  · subst hj
    rwa [Function.update_self]
  · rw [Function.update_of_ne hj]
    exact hd j

theorem ascending_released {s : σ} (hd : ∀ j, (d.procs j).Ascending) (p : Program Op Res ε α) :
    ∀ j, ((d.becomes i (.outside p) s).procs j).Ascending := by
  have hout : (Runner.outside p : Runner κ V Op Res ε α).Ascending := trivial
  exact ascending_becomes hd hout

theorem Step.ascending {l : ι × Option ε} (hstep : Step rows body h d l d')
    (hbody : ∀ op p, body op = some p → p.Ascending []) (hd : ∀ j, (d.procs j).Ascending) :
    ∀ j, (d'.procs j).Ascending := by
  cases hstep with
  | executes hi hop hfree => exact ascending_released hd _
  | @begins i op next p hi hop =>
    have hin : (Runner.inside op next p [] : Runner κ V Op Res ε α).Ascending := hbody op p hop
    exact ascending_becomes hd hin
  | @misses i op next q cont draft hi hq =>
    have hproc := hd i
    rw [hi] at hproc
    have hin : (Runner.inside op next (cont (.ok none)) draft : Runner κ V Op Res ε α).Ascending := hproc.2.1
    exact ascending_becomes hd hin
  | @alters i op next q cont draft v hi hq hfree =>
    have hproc := hd i
    rw [hi] at hproc
    have hin : (Runner.inside op next (cont (.ok (some v))) ((q.key, q.change v) :: draft) :
        Runner κ V Op Res ε α).Ascending := hproc.2.2 v
    exact ascending_becomes hd hin
  | commits hi => exact ascending_released hd _
  | rollsBack hi => exact ascending_released hd _
  | fails e hi => exact ascending_released hd _
  | aborts e hi hrest => exact ascending_released hd _

theorem Reaches.ascending {ls : List (ι × Option ε)} (hrun : Reaches rows body h d ls d')
    (hbody : ∀ op p, body op = some p → p.Ascending []) (hd : ∀ j, (d.procs j).Ascending) :
    ∀ j, (d'.procs j).Ascending := by
  induction hrun with
  | refl d => exact hd
  | step hstep hrest ih => exact ih (hstep.ascending hbody hd)

/-- The process that holds the last of the locked rows waits for none. -/
theorem exists_step [Finite ι] (hd : Orderly rows body d) (ha : ∀ j, (d.procs j).Ascending)
    (hi : ∃ i, ¬ (d.procs i).Ended) : ∃ i d', Step rows body h d (i, none) d' := by
  obtain ⟨i, hi⟩ := hi
  by_cases hfree : ∀ j, (d.procs j).locks = []
  · exact ⟨i, exists_step_unlocked hi hfree⟩
  · push Not at hfree
    obtain ⟨j, hj⟩ := hfree
    have hfinite : (⋃ j, {k | k ∈ (d.procs j).locks}).Finite := Set.finite_iUnion fun j => List.finite_toSet _
    obtain ⟨k, hk⟩ := List.exists_mem_of_ne_nil _ hj
    obtain ⟨last, hlast, hmax⟩ := Set.exists_max_image _ (fun k => k) hfinite ⟨k, Set.mem_iUnion.mpr ⟨j, hk⟩⟩
    obtain ⟨m, hm⟩ := Set.mem_iUnion.mp hlast
    have hm : last ∈ (d.procs m).locks := hm
    refine ⟨m, ?_⟩
    cases hproc : d.procs m with
    | outside p =>
      rw [hproc] at hm
      exact absurd hm List.not_mem_nil
    | inside op next rest draft =>
      obtain hstep | ⟨q, cont, rfl, l, hl, hheld⟩ := exists_step_inside rows body h hproc
      · exact hstep
      · have hle : q.key ≤ last := hmax q.key (Set.mem_iUnion.mpr ⟨l, hheld⟩)
        have hasc := ha m
        have hapart := hd.apart l m hl q.key hheld
        rw [hproc] at hm hasc hapart
        obtain hagain | hafter := hasc.1
        · exact absurd hagain hapart
        · exact absurd (hafter last hm) (not_lt_of_ge hle)

end Progress

end Database

/-- How many calls are left of a program at most, as an ordinal. -/
noncomputable def Program.height : Program Op Res ε α → Ordinal.{0}
  | .ret _ => 0
  | .throw _ => 0
  | .call _ next => ⨆ r, (next r).height + 1

theorem Program.height_next {op : Op} (next : Except ε (Res op) → Program Op Res ε α) (r : Except ε (Res op)) :
    (next r).height < (Program.call op next).height :=
  Ordinal.lt_iSup_add_one (fun r => (next r).height) r

section Height

variable (body : ∀ op, Option (RowTransaction κ V ε (Res op)))

/-- What the transaction of the next call takes, when it has not begun. -/
noncomputable def Program.ahead : Program Op Res ε α → Ordinal.{0}
  | .call op _ => (body op).elim 0 fun p => p.height + 1
  | _ => 0

noncomputable def Runner.height : Runner κ V Op Res ε α → Ordinal.{0} ×ₗ Ordinal.{0}
  | .outside p => toLex (p.height, p.ahead body)
  | .inside op next rest _ => toLex ((Program.call op next).height, rest.height)

variable {body}

theorem Runner.height_outside {op : Op} (next : Except ε (Res op) → Program Op Res ε α) (r : Except ε (Res op))
    (o : Ordinal.{0}) : (Runner.outside (next r)).height body < toLex ((Program.call op next).height, o) :=
  Prod.Lex.toLex_lt_toLex.mpr (.inl (Program.height_next next r))

theorem Runner.height_inside {op : Op} (next : Except ε (Res op) → Program Op Res ε α)
    {rest : RowTransaction κ V ε (Res op)} {draft : List (κ × V)} {o : Ordinal.{0}} (ho : rest.height < o) :
    (Runner.inside op next rest draft).height body < toLex ((Program.call op next).height, o) :=
  Prod.Lex.toLex_lt_toLex.mpr (.inr ⟨rfl, ho⟩)

namespace Database

variable [DecidableEq ι] {d d' : Database ι κ V Op Res ε α σ}

theorem height_becomes {i : ι} {r : Runner κ V Op Res ε α} (hr : r.height body < (d.procs i).height body) (s : σ) :
    (fun j => ((d.becomes i r s).procs j).height body) < fun j => (d.procs j).height body := by
  have hself : (d.becomes i r s).procs i = r := Function.update_self ..
  rw [Pi.lt_def]
  constructor
  · intro j
    by_cases hj : j = i
    · subst hj
      show ((d.becomes j r s).procs j).height body ≤ (d.procs j).height body
      rw [hself]
      exact le_of_lt hr
    · have hother : (d.becomes i r s).procs j = d.procs j := Function.update_of_ne hj ..
      show ((d.becomes i r s).procs j).height body ≤ (d.procs j).height body
      rw [hother]
  · exact ⟨i, by rwa [hself]⟩

variable {rows : Rows κ V σ} {h : Handler Op Res ε σ}

theorem Step.height {l : ι × Option ε} (hstep : Step rows body h d l d') :
    (fun j => (d'.procs j).height body) < fun j => (d.procs j).height body := by
  cases hstep with
  | executes hi hop hfree => exact height_becomes (by rw [hi]; exact Runner.height_outside _ _ _) _
  | @begins i op next p hi hop =>
    refine height_becomes ?_ _
    have hahead : (Program.call op next).ahead body = p.height + 1 := by rw [Program.ahead, hop]; rfl
    rw [hi]
    show _ < toLex ((Program.call op next).height, (Program.call op next).ahead body)
    rw [hahead]
    exact Runner.height_inside next (Order.lt_add_one_iff.mpr le_rfl)
  | misses hi hq => exact height_becomes (by rw [hi]; exact Runner.height_inside _ (Program.height_next _ _)) _
  | alters hi hq hfree => exact height_becomes (by rw [hi]; exact Runner.height_inside _ (Program.height_next _ _)) _
  | commits hi => exact height_becomes (by rw [hi]; exact Runner.height_outside _ _ _) _
  | rollsBack hi => exact height_becomes (by rw [hi]; exact Runner.height_outside _ _ _) _
  | fails e hi => exact height_becomes (by rw [hi]; exact Runner.height_outside _ _ _) _
  | aborts e hi hrest => exact height_becomes (by rw [hi]; exact Runner.height_outside _ _ _) _

theorem wellFounded_step [Finite ι] :
    WellFounded fun d' d : Database ι κ V Op Res ε α σ => ∃ l, Step rows body h d l d' := by
  have hheights : WellFounded fun f g : ι → Ordinal.{0} ×ₗ Ordinal.{0} => f < g := wellFounded_lt
  refine Subrelation.wf ?_ (InvImage.wf (fun d j => (d.procs j).height body) hheights)
  rintro d' d ⟨l, hstep⟩
  exact hstep.height

/-- Every run comes to an end. -/
theorem no_endless_run [Finite ι] (run : ℕ → Database ι κ V Op Res ε α σ) :
    ∃ n, ∀ l, ¬ Step rows body h (run n) l (run (n + 1)) := by
  by_contra hendless
  push Not at hendless
  have hfounded : WellFounded fun d' d : Database ι κ V Op Res ε α σ => ∃ l, Step rows body h d l d' :=
    wellFounded_step
  exact (wellFounded_iff_isEmpty_descending_chain.mp hfounded).false ⟨run, hendless⟩

end Database

end Height

end Atomic
