import NebLite.Atomic.Interleaving

/-! A row that processes read and write back as a whole. What a marked process writes
comes down to the row through the reads of the other processes, or is lost. -/

namespace Atomic

variable {ι Op : Type} {Res : Op → Type} {ε : Type}

/-- Whether the row descends from a marked write, and the last read of each process. -/
structure Descent (ι : Type) where
  row : Bool
  held : ι → Bool

namespace Descent

variable [DecidableEq ι] {reads writes : Op → Bool} {marked : ι → Bool}

variable (reads writes marked) in
def ofTrace : List (ι × Event Op Res ε) → Descent ι
  | [] => ⟨false, fun _ => false⟩
  | (i, e) :: trace =>
    let descent := ofTrace trace
    if reads e.1 then { descent with held := Function.update descent.held i descent.row }
    else if writes e.1 then { descent with row := marked i || descent.held i }
    else descent

variable {i : ι} {e : Event Op Res ε} {trace : List (ι × Event Op Res ε)}

theorem ofTrace_read (h : reads e.1 = true) : ofTrace reads writes marked ((i, e) :: trace) =
    { ofTrace reads writes marked trace with
      held := Function.update (ofTrace reads writes marked trace).held i (ofTrace reads writes marked trace).row } := by
  rw [ofTrace, if_pos h]

theorem ofTrace_write (hr : reads e.1 = false) (hw : writes e.1 = true) :
    ofTrace reads writes marked ((i, e) :: trace) =
      { ofTrace reads writes marked trace with
        row := marked i || (ofTrace reads writes marked trace).held i } := by
  rw [ofTrace, if_neg (by simp [hr]), if_pos hw]

theorem ofTrace_quiet (hr : reads e.1 = false) (hw : writes e.1 = false) :
    ofTrace reads writes marked ((i, e) :: trace) = ofTrace reads writes marked trace := by
  rw [ofTrace, if_neg (by simp [hr]), if_neg (by simp [hw])]

end Descent

end Atomic
