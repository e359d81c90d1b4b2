import Mathlib.Data.List.DropRight

/-! The text of an INSERT with numbered parameters: which parameters it refers to,
and what stands in the rows of its VALUES list. -/

namespace Atomic.SqlText

/-- The number at the head of a text. -/
def number (text : List Char) : ℕ := Nat.ofDigitChars 10 (text.takeWhile Char.isDigit) 0

/-- The parameters `$1`, `$2`, … of a text, from left to right. -/
def placeholders : List Char → List ℕ
  | [] => []
  | c :: rest =>
    if c = '$' ∧ rest.head?.any Char.isDigit then number rest :: placeholders rest
    else placeholders rest

def skipBlanks (text : List Char) : List Char := text.dropWhile Char.isWhitespace

def trim (text : List Char) : List Char := (skipBlanks text).rdropWhile Char.isWhitespace

/-- What a parenthesis at the head of a text encloses, and the text after it. -/
def group? : List Char → Option (List Char × List Char)
  | '(' :: rest =>
    if ')' ∈ rest then some (rest.takeWhile (· ≠ ')'), (rest.dropWhile (· ≠ ')')).tail) else none
  | _ => none

/-- The items between the commas. -/
def items (text : List Char) : List (List Char) := (text.splitOn ',').map trim

/-- The tuples at the head of a text, as long as a comma leads from one to the next.
The first argument bounds their number. -/
def tuples : ℕ → List Char → List (List (List Char))
  | 0, _ => []
  | bound + 1, text =>
    match group? (skipBlanks text) with
    | none => []
    | some (body, rest) =>
      items body ::
        match skipBlanks rest with
        | ',' :: more => tuples bound more
        | _ => []

/-- The columns and the cells of `INSERT INTO … (columns) VALUES (cells), …`. -/
def readInsert (text : List Char) : Option (List (List Char) × List (List (List Char))) :=
  (group? (text.dropWhile (· ≠ '('))).bind fun columns =>
    ((skipBlanks columns.2).dropPrefix? "VALUES".toList).map fun rest =>
      (items columns.1, tuples rest.length rest)

variable {Value : Type}

/-- The value of a cell `$n` or `$n::type`. -/
def cell? (cast : List Char → Value → Option Value) (parameters : List Value) :
    List Char → Option Value
  | '$' :: rest =>
    match number rest with
    | 0 => none
    | n + 1 =>
      match rest.dropWhile Char.isDigit with
      | [] => parameters[n]?
      | ':' :: ':' :: type => parameters[n]?.bind (cast type)
      | _ => none
  | _ => none

/-- A cell as a statement writes it; the type is empty where there is no cast. -/
structure Cell where
  parameter : ℕ
  type : List Char

def Cell.text (c : Cell) : List Char :=
  '$' :: Nat.toDigits 10 c.parameter ++ (if c.type = [] then [] else ':' :: ':' :: c.type)

def tupleText (cells : List Cell) : List Char :=
  '(' :: [',', ' '].intercalate (cells.map Cell.text) ++ [')']

/-- The letters of a type's name. -/
def Cell.Plain (c : Cell) : Prop := ∀ x ∈ c.type, x.isAlphanum

/-- The tuples of `count` entries whose columns have these types, numbered through. -/
def layout (types : List (List Char)) (count : ℕ) : List (List Cell) :=
  (List.range count).map fun i => types.mapIdx fun j type => ⟨i * types.length + j + 1, type⟩

/-- A text with its parameters, as a client sends it. -/
structure SqlStatement (Value : Type) where
  sql : String
  parameters : List Value

/-- The columns that an INSERT names and, row by row, the values of its cells. -/
def SqlStatement.insertion (cast : List Char → Value → Option Value) (s : SqlStatement Value) :
    Option (List String × List (List (Option Value))) :=
  (readInsert s.sql.toList).map fun r =>
    (r.1.map String.ofList, r.2.map fun row => row.map (cell? cast s.parameters))

section Numbers

variable {a b : List Char} {n : ℕ}

theorem number_digits (hb : b.head?.any Char.isDigit = false) : number (Nat.toDigits 10 n ++ b) = n := by
  have hdigits : ∀ c ∈ Nat.toDigits 10 n, c.isDigit := fun c hc =>
    Nat.isDigit_of_mem_toDigits (by omega) (by omega) hc
  have hnone : b.takeWhile Char.isDigit = [] := by
    cases b with
    | nil => rfl
    | cons c b => simpa [List.takeWhile_cons] using hb
  rw [number, List.takeWhile_append_of_pos hdigits, hnone, List.append_nil, Nat.ofDigitChars_ten_toDigits]

theorem dropWhile_digits (hb : b.head?.any Char.isDigit = false) :
    (Nat.toDigits 10 n ++ b).dropWhile Char.isDigit = b := by
  have hdigits : ∀ c ∈ Nat.toDigits 10 n, c.isDigit := fun c hc =>
    Nat.isDigit_of_mem_toDigits (by omega) (by omega) hc
  rw [List.dropWhile_append_of_pos hdigits]
  cases b with
  | nil => rfl
  | cons c b => simp_all

theorem head?_digits : (Nat.toDigits 10 n ++ b).head?.any Char.isDigit := by
  cases hd : Nat.toDigits 10 n with
  | nil => exact absurd hd Nat.toDigits_ne_nil
  | cons c cs =>
    have hc : c ∈ Nat.toDigits 10 n := by simp [hd]
    simpa using Nat.isDigit_of_mem_toDigits (by omega) (by omega) hc

@[simp] theorem placeholders_nil : placeholders [] = [] := rfl

theorem placeholders_cons_of_ne {c : Char} (hc : c ≠ '$') : placeholders (c :: a) = placeholders a := by
  simp [placeholders, hc]

theorem placeholders_append_of_notMem (ha : '$' ∉ a) : placeholders (a ++ b) = placeholders b := by
  induction a with
  | nil => rfl
  | cons c a ih =>
    rw [List.mem_cons, not_or] at ha
    rw [List.cons_append, placeholders_cons_of_ne (Ne.symm ha.1), ih ha.2]

theorem placeholders_of_notMem (ha : '$' ∉ a) : placeholders a = [] := by
  simpa using placeholders_append_of_notMem (b := []) ha

theorem dollar_notMem_digits : '$' ∉ Nat.toDigits 10 n := fun h => by
  have hdigit := Nat.isDigit_of_mem_toDigits (by omega) (by omega) h
  revert hdigit
  decide

end Numbers

section Cells

variable {c : Cell} {cells : List Cell} {a b : List Char}

theorem Cell.text_append (c : Cell) (b : List Char) : c.text ++ b =
    '$' :: (Nat.toDigits 10 c.parameter ++ ((if c.type = [] then [] else ':' :: ':' :: c.type) ++ b)) := by
  simp [Cell.text]

theorem Cell.Plain.notMem (hc : c.Plain) {x : Char} (hx : x.isAlphanum = false) (hd : x ≠ '$')
    (hcolon : x ≠ ':') : x ∉ c.text := by
  have hdigits : x ∉ Nat.toDigits 10 c.parameter := fun h => by
    have hdigit := Nat.isDigit_of_mem_toDigits (by omega) (by omega) h
    simp [Char.isAlphanum, hdigit] at hx
  have htype : x ∉ c.type := fun h => by simp [hc x h] at hx
  unfold Cell.text
  split
  · simp [hd, hdigits]
  · simp [hd, hdigits, htype, hcolon]

theorem Cell.Plain.text_append_tail (hc : c.Plain) (hb : b.head?.any Char.isDigit = false) :
    (((if c.type = [] then [] else ':' :: ':' :: c.type) ++ b).head?.any Char.isDigit = false) ∧
      placeholders ((if c.type = [] then [] else ':' :: ':' :: c.type) ++ b) = placeholders b := by
  by_cases ht : c.type = []
  · simp [ht, hb]
  · have htype : '$' ∉ c.type := fun h => by simpa using hc _ h
    rw [if_neg ht]
    refine ⟨rfl, placeholders_append_of_notMem ?_⟩
    simp [htype]

theorem placeholders_cell (hc : c.Plain) (hb : b.head?.any Char.isDigit = false) :
    placeholders (c.text ++ b) = c.parameter :: placeholders b := by
  obtain ⟨htail, hrest⟩ := hc.text_append_tail hb
  rw [Cell.text_append, placeholders, if_pos ⟨rfl, head?_digits⟩, number_digits htail,
    placeholders_append_of_notMem dollar_notMem_digits, hrest]

theorem placeholders_tuple (hcells : ∀ c ∈ cells, c.Plain) :
    placeholders (tupleText cells ++ b) = cells.map Cell.parameter ++ placeholders b := by
  have hjoin : placeholders ([',', ' '].intercalate (cells.map Cell.text) ++ ')' :: b) =
      cells.map Cell.parameter ++ placeholders b := by
    induction cells with
    | nil => exact placeholders_cons_of_ne (by decide)
    | cons c cells ih =>
      have hc := hcells c List.mem_cons_self
      have ih := ih fun d hd => hcells d (List.mem_cons_of_mem _ hd)
      cases cells with
      | nil =>
        simp only [List.map_cons, List.map_nil, List.intercalate_singleton, List.singleton_append]
        rw [placeholders_cell hc rfl, placeholders_cons_of_ne (by decide)]
      | cons d cells =>
        simp only [List.map_cons, List.intercalate_cons_cons, List.append_assoc, List.cons_append] at ih ⊢
        rw [placeholders_cell hc rfl, List.nil_append, placeholders_cons_of_ne (by decide),
          placeholders_cons_of_ne (by decide), ih]
  simp only [tupleText, List.cons_append, List.append_assoc, List.nil_append]
  rw [placeholders_cons_of_ne (by decide), hjoin]

theorem placeholders_tuples {rows : List (List Cell)} (hrows : ∀ row ∈ rows, ∀ c ∈ row, c.Plain) :
    placeholders ([',', ' '].intercalate (rows.map tupleText) ++ b) =
      (rows.flatMap fun row => row.map Cell.parameter) ++ placeholders b := by
  induction rows with
  | nil => rfl
  | cons row rows ih =>
    have hrow := hrows row List.mem_cons_self
    have ih := ih fun r hr => hrows r (List.mem_cons_of_mem _ hr)
    cases rows with
    | nil => simpa using placeholders_tuple hrow
    | cons r rows =>
      simp only [List.map_cons, List.intercalate_cons_cons, List.append_assoc, List.cons_append,
        List.flatMap_cons] at ih ⊢
      rw [placeholders_tuple hrow, List.nil_append, placeholders_cons_of_ne (by decide),
        placeholders_cons_of_ne (by decide), ih]

theorem skipBlanks_eq (hb : ∀ x ∈ a.head?, x.isWhitespace = false) : skipBlanks a = a := by
  cases a with
  | nil => rfl
  | cons x a => simp_all [skipBlanks]

theorem trim_eq (ha : ∀ x ∈ a, x.isWhitespace = false) : trim a = a := by
  rw [trim, skipBlanks_eq fun x hx => ha x (List.mem_of_mem_head? hx)]
  exact List.rdropWhile_eq_self_iff.mpr fun hne => by simp [ha _ (List.getLast_mem hne)]

theorem trim_blank : trim (' ' :: a) = trim a := rfl

theorem items_join {pieces : List (List Char)} (hne : pieces ≠ [])
    (hpieces : ∀ p ∈ pieces, ',' ∉ p ∧ ∀ x ∈ p, x.isWhitespace = false) :
    items ([',', ' '].intercalate pieces) = pieces := by
  have hspread : ∀ (p : List Char) (l : List (List Char)), [',', ' '].intercalate (p :: l) =
      [','].intercalate (p :: l.map (' ' :: ·)) := fun p l => by
    induction l generalizing p with
    | nil => simp
    | cons q l ih => simp [List.intercalate_cons_cons, ih, List.map_cons]
  obtain ⟨p, l, rfl⟩ := List.exists_cons_of_ne_nil hne
  have hcomma : ∀ q ∈ p :: l.map (' ' :: ·), ',' ∉ q := by
    intro q hq
    rcases List.mem_cons.mp hq with rfl | hq
    · exact (hpieces q List.mem_cons_self).1
    · obtain ⟨r, hr, rfl⟩ := List.mem_map.mp hq
      simpa using (hpieces r (List.mem_cons_of_mem _ hr)).1
  rw [items, hspread, List.splitOn_intercalate ',' hcomma (List.cons_ne_nil _ _), List.map_cons,
    trim_eq (hpieces p List.mem_cons_self).2, List.map_map]
  have hrest : ∀ q ∈ l, (trim ∘ (' ' :: ·)) q = q := fun q hq => by
    rw [Function.comp_apply, trim_blank, trim_eq (hpieces q (List.mem_cons_of_mem _ hq)).2]
  rw [List.map_congr_left hrest, List.map_id']

theorem group?_eq (ha : ')' ∉ a) : group? ('(' :: a ++ ')' :: b) = some (a, b) := by
  have htake : ∀ x ∈ a, decide (x ≠ ')') = true := fun x hx => by
    simpa using fun h : x = ')' => ha (h ▸ hx)
  simp only [group?, List.cons_append]
  rw [if_pos (by simp), List.takeWhile_append_of_pos htake, List.dropWhile_append_of_pos htake]
  simp

theorem Cell.Plain.nonblank (hc : c.Plain) : ∀ x ∈ c.text, x.isWhitespace = false := by
  intro x hx
  by_contra hw
  rw [Bool.not_eq_false] at hw
  have hcases : x = ' ' ∨ x = '\t' ∨ x = '\r' ∨ x = '\n' := by
    simpa [Char.isWhitespace, or_assoc] using hw
  rcases hcases with rfl | rfl | rfl | rfl <;>
    exact hc.notMem (by decide) (by decide) (by decide) hx

theorem notMem_intercalate {x : Char} {pieces : List (List Char)} (ha : x ∉ a)
    (hpieces : ∀ p ∈ pieces, x ∉ p) : x ∉ a.intercalate pieces := by
  induction pieces with
  | nil => simp
  | cons p pieces ih =>
    have hp := hpieces p List.mem_cons_self
    have ih := ih fun q hq => hpieces q (List.mem_cons_of_mem _ hq)
    cases pieces with
    | nil => simpa using hp
    | cons q pieces => simp [List.intercalate_cons_cons, ha, hp, ih]

theorem group?_tuple (hcells : ∀ c ∈ cells, c.Plain) : group? (skipBlanks (tupleText cells ++ b)) =
    some ([',', ' '].intercalate (cells.map Cell.text), b) := by
  have hclose : ')' ∉ [',', ' '].intercalate (cells.map Cell.text) := by
    refine notMem_intercalate (by decide) fun p hp => ?_
    obtain ⟨c, hc, rfl⟩ := List.mem_map.mp hp
    exact (hcells c hc).notMem (by decide) (by decide) (by decide)
  rw [skipBlanks_eq (by simp [tupleText])]
  simpa [tupleText] using group?_eq (b := b) hclose

theorem items_tuple (hne : cells ≠ []) (hcells : ∀ c ∈ cells, c.Plain) :
    items ([',', ' '].intercalate (cells.map Cell.text)) = cells.map Cell.text := by
  refine items_join (by simpa using hne) fun p hp => ?_
  obtain ⟨c, hc, rfl⟩ := List.mem_map.mp hp
  exact ⟨(hcells c hc).notMem (by decide) (by decide) (by decide), (hcells c hc).nonblank⟩

theorem tuples_blank {bound : ℕ} : tuples bound (' ' :: a) = tuples bound a := by
  cases bound <;> rfl

theorem tuples_join {rows : List (List Cell)} {bound : ℕ} (hne : rows ≠ [])
    (hrows : ∀ row ∈ rows, row ≠ [] ∧ ∀ c ∈ row, c.Plain) (hbound : rows.length ≤ bound)
    (hb : (skipBlanks b).head? ≠ some ',') :
    tuples bound ([',', ' '].intercalate (rows.map tupleText) ++ b) =
      rows.map fun row => row.map Cell.text := by
  induction rows generalizing bound with
  | nil => exact absurd rfl hne
  | cons row rows ih =>
    obtain ⟨bound, rfl⟩ : ∃ n, bound = n + 1 := ⟨bound - 1, by simp at hbound; omega⟩
    obtain ⟨hrow, hplain⟩ := hrows row List.mem_cons_self
    cases rows with
    | nil =>
      simp only [List.map_cons, List.map_nil, List.intercalate_singleton, tuples]
      rw [group?_tuple hplain]
      simp only [items_tuple hrow hplain, List.cons.injEq, true_and]
      cases hs : skipBlanks b with
      | nil => rfl
      | cons x rest =>
        have hx : x ≠ ',' := by simpa [hs] using hb
        simp [hx]
    | cons r rows =>
      have ih := @ih bound (List.cons_ne_nil _ _)
        (fun r hr => hrows r (List.mem_cons_of_mem _ hr)) (by simpa using hbound)
      simp only [List.map_cons, List.intercalate_cons_cons, List.append_assoc, List.cons_append,
        List.nil_append] at ih ⊢
      rw [tuples, group?_tuple hplain]
      simp only [items_tuple hrow hplain, List.cons.injEq, true_and]
      rw [skipBlanks_eq (by simp)]
      simpa only [tuples_blank] using ih

theorem cell?_text {cast : List Char → Value → Option Value} {parameters : List Value} {n : ℕ}
    {type : List Char} : cell? cast parameters (Cell.text ⟨n + 1, type⟩) =
      if type = [] then parameters[n]? else parameters[n]?.bind (cast type) := by
  by_cases ht : type = []
  · subst ht
    have hn := number_digits (b := []) (n := n + 1) rfl
    have hd := dropWhile_digits (b := []) (n := n + 1) rfl
    simp only [Cell.text, if_true, List.append_nil] at hn hd ⊢
    simp only [cell?, hn, hd]
  · have hn := number_digits (b := ':' :: ':' :: type) (n := n + 1) rfl
    have hd := dropWhile_digits (b := ':' :: ':' :: type) (n := n + 1) rfl
    simp only [Cell.text, if_neg ht, List.cons_append, cell?, hn, hd]

theorem length_le_join (rows : List (List Cell)) :
    rows.length ≤ ([',', ' '].intercalate (rows.map tupleText)).length := by
  induction rows with
  | nil => simp
  | cons row rows ih =>
    cases rows with
    | nil => simp [tupleText]
    | cons r rows =>
      simp only [List.map_cons, List.intercalate_cons_cons, List.length_append, List.length_cons] at ih ⊢
      omega

theorem readInsert_eq {before columns after : List Char} {rows : List (List Cell)}
    (hbefore : '(' ∉ before) (hcolumns : ')' ∉ columns) (hne : rows ≠ [])
    (hrows : ∀ row ∈ rows, row ≠ [] ∧ ∀ c ∈ row, c.Plain) (hafter : (skipBlanks after).head? ≠ some ',') :
    readInsert (before ++ '(' :: (columns ++ ')' :: ' ' :: ("VALUES".toList ++
      ' ' :: ([',', ' '].intercalate (rows.map tupleText) ++ after)))) =
        some (items columns, rows.map fun row => row.map Cell.text) := by
  have hskip : ∀ x ∈ before, decide (x ≠ '(') = true := fun x hx => by
    simpa using fun h : x = '(' => hbefore (h ▸ hx)
  have hlength : rows.length ≤
      (' ' :: ([',', ' '].intercalate (rows.map tupleText) ++ after)).length := by
    have hjoin := length_le_join rows
    simp only [List.length_cons, List.length_append]
    omega
  have hgroup := group?_eq (b := ' ' :: ("VALUES".toList ++
    ' ' :: ([',', ' '].intercalate (rows.map tupleText) ++ after))) hcolumns
  simp only [List.cons_append] at hgroup
  rw [readInsert, List.dropWhile_append_of_pos hskip, List.dropWhile_cons_of_neg (by simp), hgroup,
    Option.bind_some]
  have hkeyword : (skipBlanks (' ' :: ("VALUES".toList ++
      ' ' :: ([',', ' '].intercalate (rows.map tupleText) ++ after)))).dropPrefix? "VALUES".toList =
      some (' ' :: ([',', ' '].intercalate (rows.map tupleText) ++ after)) :=
    List.dropPrefix?_append_of_beq _ (beq_self_eq_true _)
  rw [hkeyword, Option.map_some, tuples_blank, tuples_join hne hrows hlength hafter]

end Cells

section Layout

variable {types : List (List Char)} {count : ℕ}

theorem layout_rows (count : ℕ) (htypes : types ≠ []) (hplain : ∀ type ∈ types, ∀ x ∈ type, x.isAlphanum) :
    ∀ row ∈ layout types count, row ≠ [] ∧ ∀ c ∈ row, c.Plain := by
  intro row hrow
  obtain ⟨i, -, rfl⟩ := List.mem_map.mp hrow
  refine ⟨by simpa using htypes, fun c hc => ?_⟩
  obtain ⟨j, hj, rfl⟩ := List.mem_mapIdx.mp hc
  exact hplain _ (List.getElem_mem hj)

theorem layout_parameters : ((layout types count).flatMap fun row => row.map Cell.parameter) =
    List.range' 1 (types.length * count) := by
  have hrow : ∀ offset, (types.mapIdx fun j type => (⟨offset + j + 1, type⟩ : Cell)).map Cell.parameter =
      List.range' (offset + 1) types.length := fun offset => by
    apply List.ext_getElem
    · simp
    · intro j _ _
      simp
      omega
  induction count with
  | zero => rfl
  | succ count ih =>
    have hlast : layout types (count + 1) = layout types count ++
        [types.mapIdx fun j type => ⟨count * types.length + j + 1, type⟩] := by
      simp [layout, List.range_succ]
    rw [hlast, List.flatMap_append, ih, List.flatMap_singleton, hrow, Nat.mul_succ, Nat.mul_comm count,
      Nat.add_comm _ 1, List.range'_append_1]

theorem getElem?_flatMap {α β : Type} {f : α → List β} {w : ℕ} {l : List α}
    (hf : ∀ a ∈ l, (f a).length = w) {i j : ℕ} (hi : i < l.length) (hj : j < w) :
    (l.flatMap f)[i * w + j]? = (f l[i])[j]? := by
  induction l generalizing i with
  | nil => simp at hi
  | cons a l ih =>
    have ha := hf a List.mem_cons_self
    cases i with
    | zero =>
      have hlt : j < (f a).length := by omega
      simp [List.getElem?_append_left hlt]
    | succ i =>
      have ih := ih (fun b hb => hf b (List.mem_cons_of_mem _ hb)) (i := i) (by simpa using hi)
      have hle : (f a).length ≤ (i + 1) * w + j := by
        rw [ha, Nat.succ_mul]
        omega
      have hsub : (i + 1) * w + j - (f a).length = i * w + j := by
        rw [ha, Nat.succ_mul]
        omega
      rw [List.flatMap_cons, List.getElem?_append_right hle, hsub, ih]
      rfl

theorem evaluate_layout {α : Type} {cast : List Char → Value → Option Value} {fields : α → List Value}
    {entries : List α} (hfields : ∀ e ∈ entries, (fields e).length = types.length) :
    ((layout types entries.length).map fun row =>
        (row.map Cell.text).map (cell? cast (entries.flatMap fields))) =
      entries.map fun e =>
        List.zipWith (fun type v => if type = [] then some v else cast type v) types (fields e) := by
  apply List.ext_getElem
  · simp [layout]
  · intro i hi _
    have hi' : i < entries.length := by simpa [layout] using hi
    have hlen := hfields entries[i] (List.getElem_mem hi')
    apply List.ext_getElem
    · simp [layout, hlen]
    · intro j hj _
      have hj' : j < types.length := by simpa [layout] using hj
      have hvalue := getElem?_flatMap hfields hi' hj'
      rw [List.getElem?_eq_getElem (by omega : j < (fields entries[i]).length)] at hvalue
      simp [layout, cell?_text, hvalue]

/-- An INSERT that writes one tuple for each entry, numbered through, and sends the
entries' fields one after the other. -/
theorem SqlStatement.insertion_eq {α : Type} (cast : List Char → Value → Option Value)
    (types : List (List Char)) {fields : α → List Value} {entries : List α} {s : SqlStatement Value}
    {before columns after : String} {values : List String} (hne : entries ≠ []) (htypes : types ≠ [])
    (hplain : ∀ type ∈ types, ∀ x ∈ type, x.isAlphanum)
    (hfields : ∀ e ∈ entries, (fields e).length = types.length)
    (hbefore : '(' ∉ before.toList ∧ '$' ∉ before.toList)
    (hcolumns : ')' ∉ columns.toList ∧ '$' ∉ columns.toList)
    (hafter : (skipBlanks after.toList).head? ≠ some ',' ∧ '$' ∉ after.toList)
    (hvalues : values.map String.toList = (layout types entries.length).map tupleText)
    (hsql : s.sql = before ++ "(" ++ columns ++ ") VALUES " ++ String.intercalate ", " values ++ after)
    (hparameters : s.parameters = entries.flatMap fields) :
    placeholders s.sql.toList = List.range' 1 (types.length * entries.length) ∧
      s.insertion cast = some ((items columns.toList).map String.ofList, entries.map fun e =>
        List.zipWith (fun type v => if type = [] then some v else cast type v) types (fields e)) := by
  have hrows := layout_rows entries.length htypes hplain
  have hlayout : layout types entries.length ≠ [] := by
    simpa [layout] using hne
  have htext : s.sql.toList = before.toList ++ '(' :: (columns.toList ++ ')' :: ' ' :: ("VALUES".toList ++
      ' ' :: ([',', ' '].intercalate ((layout types entries.length).map tupleText) ++ after.toList))) := by
    rw [hsql, ← hvalues]
    simp [String.toList_append, String.toList_intercalate]
  constructor
  · have hhead : '$' ∉ before.toList ++ '(' :: (columns.toList ++ ')' :: ' ' :: ("VALUES".toList ++ [' '])) := by
      simp [hbefore.2, hcolumns.2]
    have hskip := placeholders_append_of_notMem hhead
      (b := [',', ' '].intercalate ((layout types entries.length).map tupleText) ++ after.toList)
    simp only [List.append_assoc, List.cons_append, List.nil_append] at hskip
    rw [htext, hskip, placeholders_tuples fun row hrow => (hrows row hrow).2, layout_parameters,
      placeholders_of_notMem hafter.2, List.append_nil]
  · rw [SqlStatement.insertion, htext, readInsert_eq hbefore.1 hcolumns.1 hlayout hrows hafter.1,
      Option.map_some, hparameters, List.map_map]
    exact congrArg (fun rows => some (_, rows)) (evaluate_layout hfields)

/-- The texts of the tuples, given the text of one at every offset. -/
theorem values_layout {α : Type} {entries : List α} {row : ℕ → String}
    (hrow : ∀ offset, (row offset).toList =
      tupleText (types.mapIdx fun j type => ⟨offset + j + 1, type⟩)) :
    (entries.mapIdx fun index _ => row (index * types.length)).map String.toList =
      (layout types entries.length).map tupleText := by
  apply List.ext_getElem
  · simp [layout]
  · intro i _ _
    simp only [List.getElem_map, List.getElem_mapIdx, hrow, layout, List.getElem_range]

theorem toString_string (text : String) : toString text = text := rfl

end Layout

end Atomic.SqlText
