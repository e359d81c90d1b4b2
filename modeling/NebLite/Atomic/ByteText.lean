import Mathlib.Data.List.TakeWhile

/-! Bytes written as text: base64 and hexadecimal digits with decoders that tolerate other
characters, and UTF-8. A text is a list of UTF-16 code units. -/

namespace Atomic

abbrev CodeUnits := List UInt16

/-- A code of bytes by digits: the values of the characters, and the bytes of a list of values. -/
structure DigitCode where
  value : UInt16 → Option ℕ
  bytes : List ℕ → List UInt8

namespace DigitCode

variable (code : DigitCode)

def isDigit (unit : UInt16) : Bool := (code.value unit).isSome

/-- The decoder reads the digits up to the first other character. From there on it may leave out other
characters and read on, or stop, or miss some digits. -/
def Lenient (decode : CodeUnits → List UInt8) : Prop :=
  ∀ text, ∃ digits, (text.takeWhile code.isDigit).filterMap code.value <+: digits ∧
    digits.Sublist (text.filterMap code.value) ∧ decode text = code.bytes digits

def ignoring (text : CodeUnits) : List UInt8 := code.bytes (text.filterMap code.value)

def stopping (text : CodeUnits) : List UInt8 := code.bytes ((text.takeWhile code.isDigit).filterMap code.value)

variable {code}

theorem filterMap_takeWhile (text : CodeUnits) :
    (text.takeWhile code.isDigit).filterMap code.value <+: text.filterMap code.value :=
  (List.takeWhile_prefix code.isDigit).filterMap code.value

theorem lenient_ignoring : code.Lenient code.ignoring := fun text =>
  ⟨_, filterMap_takeWhile text, List.Sublist.refl _, rfl⟩

theorem lenient_stopping : code.Lenient code.stopping := fun text =>
  ⟨_, List.prefix_refl _, (filterMap_takeWhile text).sublist, rfl⟩

section Lenient

variable {decode : CodeUnits → List UInt8} (h : code.Lenient decode)

include h

/-- Digits with nothing but other characters after them are decoded in full. -/
theorem Lenient.exact {digits : List ℕ} {text : CodeUnits} (rest : CodeUnits)
    (htext : text.map code.value = digits.map some) (hrest : ∀ unit ∈ rest, code.value unit = none) :
    decode (text ++ rest) = code.bytes digits := by
  have hdigit : ∀ unit ∈ text, code.isDigit unit := fun unit hunit => by
    have hmem : code.value unit ∈ digits.map some := htext ▸ List.mem_map_of_mem hunit
    obtain ⟨d, -, hd⟩ := List.mem_map.mp hmem
    simp [isDigit, ← hd]
  have hvalues : text.filterMap code.value = digits := by
    have hid := congrArg (List.filterMap id) htext
    rw [List.filterMap_map, List.filterMap_map] at hid
    simpa using hid
  have htake : (text ++ rest).takeWhile code.isDigit = text := by
    rw [List.takeWhile_append_of_pos hdigit]
    cases rest with
    | nil => simp
    | cons unit rest =>
      have hunit := hrest unit List.mem_cons_self
      simp [isDigit, hunit]
  have hall : (text ++ rest).filterMap code.value = digits := by
    rw [List.filterMap_append, hvalues, List.filterMap_eq_nil_iff.mpr hrest, List.append_nil]
  obtain ⟨read, hprefix, hsub, hdecode⟩ := h (text ++ rest)
  rw [htake, hvalues] at hprefix
  rw [hall] at hsub
  rw [hdecode, hprefix.eq_of_length_le hsub.length_le]

/-- A text of nothing but digits is decoded in full. -/
theorem Lenient.of_digits {text : CodeUnits} (htext : ∀ unit ∈ text, code.isDigit unit) :
    ∃ digits : List ℕ, digits.length = text.length ∧ decode text = code.bytes digits := by
  have hvalues : text.map code.value = (text.map fun unit => (code.value unit).getD 0).map some := by
    rw [List.map_map]
    refine List.map_congr_left fun unit hunit => ?_
    obtain ⟨d, hd⟩ := Option.isSome_iff_exists.mp (htext unit hunit)
    simp [hd]
  have hdecode := h.exact [] hvalues nofun
  rw [List.append_nil] at hdecode
  exact ⟨_, List.length_map _, hdecode⟩

/-- The text yields no more digits than it has characters. -/
theorem Lenient.length_le (text : CodeUnits) :
    ∃ digits : List ℕ, digits.length ≤ text.length ∧ decode text = code.bytes digits := by
  obtain ⟨digits, -, hsub, hdecode⟩ := h text
  exact ⟨digits, hsub.length_le.trans (List.length_filterMap_le _ _), hdecode⟩

end Lenient

end DigitCode

namespace Base64

/-- The standard alphabet, and the one for URLs. -/
def value (unit : UInt16) : Option ℕ :=
  if 65 ≤ unit ∧ unit ≤ 90 then some (unit.toNat - 65)
  else if 97 ≤ unit ∧ unit ≤ 122 then some (unit.toNat - 71)
  else if 48 ≤ unit ∧ unit ≤ 57 then some (unit.toNat + 4)
  else if unit = 43 ∨ unit = 45 then some 62
  else if unit = 47 ∨ unit = 95 then some 63
  else none

def bytes : List ℕ → List UInt8
  | a :: b :: c :: d :: rest =>
    UInt8.ofNat (a * 4 + b / 16) :: UInt8.ofNat (b % 16 * 16 + c / 4) :: UInt8.ofNat (c % 4 * 64 + d) :: bytes rest
  | [a, b, c] => [UInt8.ofNat (a * 4 + b / 16), UInt8.ofNat (b % 16 * 16 + c / 4)]
  | [a, b] => [UInt8.ofNat (a * 4 + b / 16)]
  | _ => []

def code : DigitCode where
  value := value
  bytes := bytes

def letter (digit : ℕ) : UInt16 :=
  if digit < 26 then UInt16.ofNat (digit + 65)
  else if digit < 52 then UInt16.ofNat (digit + 71)
  else if digit < 62 then UInt16.ofNat (digit - 4)
  else if digit = 62 then 43
  else 47

def digits : List UInt8 → List ℕ
  | a :: b :: c :: rest =>
    a.toNat / 4 :: (a.toNat % 4 * 16 + b.toNat / 16) :: (b.toNat % 16 * 4 + c.toNat / 64) :: c.toNat % 64 :: digits rest
  | [a, b] => [a.toNat / 4, a.toNat % 4 * 16 + b.toNat / 16, b.toNat % 16 * 4]
  | [a] => [a.toNat / 4, a.toNat % 4 * 16]
  | [] => []

/-- Base64 of the standard alphabet, padded with `=` to groups of four. -/
def text (bytes : List UInt8) : CodeUnits :=
  (digits bytes).map letter ++ List.replicate ((3 - bytes.length % 3) % 3) 61

example : text [77, 97, 110, 77, 97] = [84, 87, 70, 117, 84, 87, 69, 61] := by decide

theorem value_letter : ∀ digit < 64, value (letter digit) = some digit := by decide

theorem digits_lt (bytes : List UInt8) : ∀ digit ∈ digits bytes, digit < 64 := by
  fun_induction digits bytes with
  | case1 a b c rest ih =>
    have ha := a.toNat_lt
    have hb := b.toNat_lt
    have hc := c.toNat_lt
    simp only [List.mem_cons, forall_eq_or_imp]
    exact ⟨by omega, by omega, by omega, by omega, ih⟩
  | case2 a b =>
    have ha := a.toNat_lt
    have hb := b.toNat_lt
    simp only [List.mem_cons, forall_eq_or_imp, List.not_mem_nil, false_imp_iff, implies_true, and_true]
    omega
  | case3 a =>
    have ha := a.toNat_lt
    simp only [List.mem_cons, forall_eq_or_imp, List.not_mem_nil, false_imp_iff, implies_true, and_true]
    omega
  | case4 => simp

theorem bytes_digits (data : List UInt8) : bytes (digits data) = data := by
  have hfirst (a b : UInt8) : a.toNat / 4 * 4 + (a.toNat % 4 * 16 + b.toNat / 16) / 16 = a.toNat := by
    have hb := b.toNat_lt
    omega
  have hsecond (a b c : UInt8) : (a.toNat % 4 * 16 + b.toNat / 16) % 16 * 16 + (b.toNat % 16 * 4 + c.toNat / 64) / 4 =
      b.toNat := by
    have hb := b.toNat_lt
    have hc := c.toNat_lt
    omega
  have hthird (b c : UInt8) : (b.toNat % 16 * 4 + c.toNat / 64) % 4 * 64 + c.toNat % 64 = c.toNat := by
    have hc := c.toNat_lt
    omega
  fun_induction digits data with
  | case1 a b c rest ih => simp only [bytes, ih, hfirst, hsecond, hthird, UInt8.ofNat_toNat]
  | case2 a b =>
    have hlast : (a.toNat % 4 * 16 + b.toNat / 16) % 16 * 16 + b.toNat % 16 * 4 / 4 = b.toNat := by
      have hb := b.toNat_lt
      omega
    simp only [bytes, hfirst, hlast, UInt8.ofNat_toNat]
  | case3 a =>
    have hlast : a.toNat / 4 * 4 + a.toNat % 4 * 16 / 16 = a.toNat := by omega
    simp only [bytes, hlast, UInt8.ofNat_toNat]
  | case4 => rfl

theorem length_bytes (digits : List ℕ) : (bytes digits).length = digits.length * 3 / 4 := by
  fun_induction bytes digits with
  | case1 a b c d rest ih =>
    simp only [List.length_cons, ih]
    omega
  | case2 => simp
  | case3 => simp
  | case4 digits h1 h2 h3 =>
    obtain _ | ⟨a, _ | ⟨b, _ | ⟨c, _ | ⟨d, rest⟩⟩⟩⟩ := digits
    · rfl
    · simp
    · exact absurd rfl (h3 a b)
    · exact absurd rfl (h2 a b c)
    · exact absurd rfl (h1 a b c d rest)

theorem length_read_le {read : CodeUnits → List UInt8} (h : code.Lenient read) (text : CodeUnits) :
    (read text).length ≤ text.length * 3 / 4 := by
  obtain ⟨digits, hdigits, hread⟩ := h.length_le text
  have hlength : (read text).length = digits.length * 3 / 4 :=
    (congrArg List.length hread).trans (length_bytes digits)
  omega

/-- Every lenient decoder reads the standard text back. -/
theorem decode_text {decode : CodeUnits → List UInt8} (h : code.Lenient decode) (data : List UInt8) :
    decode (text data) = data := by
  have hletters : ((digits data).map letter).map code.value = (digits data).map some := by
    rw [List.map_map]
    exact List.map_congr_left fun digit hdigit => value_letter digit (digits_lt data digit hdigit)
  have hpadding : ∀ unit ∈ List.replicate ((3 - data.length % 3) % 3) (61 : UInt16), code.value unit = none := by
    intro unit hunit
    rw [List.eq_of_mem_replicate hunit]
    decide
  exact (h.exact _ hletters hpadding).trans (bytes_digits data)

end Base64

namespace Hex

/-- Digits in lower and in upper case. -/
def value (unit : UInt16) : Option ℕ :=
  if 48 ≤ unit ∧ unit ≤ 57 then some (unit.toNat - 48)
  else if 97 ≤ unit ∧ unit ≤ 102 then some (unit.toNat - 87)
  else if 65 ≤ unit ∧ unit ≤ 70 then some (unit.toNat - 55)
  else none

def bytes : List ℕ → List UInt8
  | a :: b :: rest => UInt8.ofNat (a * 16 + b) :: bytes rest
  | _ => []

def code : DigitCode where
  value := value
  bytes := bytes

def letter (digit : ℕ) : UInt16 := if digit < 10 then UInt16.ofNat (digit + 48) else UInt16.ofNat (digit + 87)

def digits (data : List UInt8) : List ℕ := data.flatMap fun byte => [byte.toNat / 16, byte.toNat % 16]

/-- Two lower-case digits for each byte. -/
def text (data : List UInt8) : CodeUnits := (digits data).map letter

/-- The text has the digits of the bytes, in either case. -/
def Spells (text : CodeUnits) (data : List UInt8) : Prop := text.map value = (digits data).map some

theorem value_letter : ∀ digit < 16, value (letter digit) = some digit := by decide

theorem digits_lt (data : List UInt8) : ∀ digit ∈ digits data, digit < 16 := by
  intro digit hdigit
  obtain ⟨byte, -, hbyte⟩ := List.mem_flatMap.mp hdigit
  have hlt := byte.toNat_lt
  simp only [List.mem_cons, List.not_mem_nil, or_false] at hbyte
  omega

theorem length_digits (data : List UInt8) : (digits data).length = 2 * data.length := by
  induction data with
  | nil => rfl
  | cons byte data ih =>
    have hcons : digits (byte :: data) = byte.toNat / 16 :: byte.toNat % 16 :: digits data := rfl
    simp only [hcons, List.length_cons, ih]
    omega

theorem bytes_digits (data : List UInt8) : bytes (digits data) = data := by
  induction data with
  | nil => rfl
  | cons byte data ih =>
    have hcons : digits (byte :: data) = byte.toNat / 16 :: byte.toNat % 16 :: digits data := rfl
    have hbyte : byte.toNat / 16 * 16 + byte.toNat % 16 = byte.toNat := by omega
    rw [hcons, bytes, ih, hbyte, UInt8.ofNat_toNat]

theorem length_bytes (digits : List ℕ) : (bytes digits).length = digits.length / 2 := by
  fun_induction bytes digits with
  | case1 a b rest ih =>
    simp only [List.length_cons, ih]
    omega
  | case2 digits h =>
    obtain _ | ⟨a, _ | ⟨b, rest⟩⟩ := digits
    · rfl
    · simp
    · exact absurd rfl (h a b rest)

theorem length_read_le {read : CodeUnits → List UInt8} (h : code.Lenient read) (text : CodeUnits) :
    (read text).length ≤ text.length / 2 := by
  obtain ⟨digits, hdigits, hread⟩ := h.length_le text
  have hlength : (read text).length = digits.length / 2 := (congrArg List.length hread).trans (length_bytes digits)
  omega

theorem spells_text (data : List UInt8) : Spells (text data) data := by
  unfold Spells text
  rw [List.map_map]
  exact List.map_congr_left fun digit hdigit => value_letter digit (digits_lt data digit hdigit)

theorem Spells.length {text : CodeUnits} {data : List UInt8} (h : Spells text data) :
    text.length = 2 * data.length := by
  have hlength := congrArg List.length h
  rwa [List.length_map, List.length_map, length_digits] at hlength

theorem decode_spelled {decode : CodeUnits → List UInt8} (h : code.Lenient decode) {text : CodeUnits}
    {data : List UInt8} (htext : Spells text data) : decode text = data := by
  have hexact := h.exact [] htext nofun
  rw [List.append_nil] at hexact
  exact hexact.trans (bytes_digits data)

/-- A hexadecimal digit is one of base64 too. -/
theorem isDigit_base64 {unit : UInt16} (h : code.isDigit unit) : Base64.code.isDigit unit := by
  change (value unit).isSome at h
  change (Base64.value unit).isSome
  unfold value at h
  unfold Base64.value
  grind

theorem Spells.isDigit {text : CodeUnits} {data : List UInt8} (h : Spells text data) :
    ∀ unit ∈ text, code.isDigit unit := by
  intro unit hunit
  have hmem : value unit ∈ (digits data).map some := h ▸ List.mem_map_of_mem hunit
  obtain ⟨digit, -, hdigit⟩ := List.mem_map.mp hmem
  exact Option.isSome_iff_exists.mpr ⟨digit, hdigit.symm⟩

/-- A decoder of base64 takes four hexadecimal digits for three bytes. -/
theorem Spells.length_base64 {read : CodeUnits → List UInt8} (hread : Base64.code.Lenient read) {text : CodeUnits}
    {data : List UInt8} (h : Spells text data) : (read text).length = 2 * data.length * 3 / 4 := by
  obtain ⟨digits, hdigits, hbytes⟩ := hread.of_digits fun unit hunit => isDigit_base64 (h.isDigit unit hunit)
  have hlength := Base64.length_bytes digits
  rw [hdigits, h.length] at hlength
  exact (congrArg List.length hbytes).trans hlength

end Hex

namespace Utf8

def isHigh (unit : UInt16) : Bool := 0xD800 ≤ unit && unit ≤ 0xDBFF

def isLow (unit : UInt16) : Bool := 0xDC00 ≤ unit && unit ≤ 0xDFFF

/-- The code point of one unit; half of a pair becomes U+FFFD. -/
def ofUnit (unit : UInt16) : List UInt8 :=
  let point := unit.toNat
  if point < 0x80 then [UInt8.ofNat point]
  else if point < 0x800 then [UInt8.ofNat (0xC0 + point / 64), UInt8.ofNat (0x80 + point % 64)]
  else if isHigh unit || isLow unit then [0xEF, 0xBF, 0xBD]
  else
    [UInt8.ofNat (0xE0 + point / 4096), UInt8.ofNat (0x80 + point / 64 % 64), UInt8.ofNat (0x80 + point % 64)]

/-- The code point of a pair. -/
def ofPair (high low : UInt16) : List UInt8 :=
  let point := 0x10000 + (high.toNat - 0xD800) * 1024 + (low.toNat - 0xDC00)
  [UInt8.ofNat (0xF0 + point / 262144), UInt8.ofNat (0x80 + point / 4096 % 64),
    UInt8.ofNat (0x80 + point / 64 % 64), UInt8.ofNat (0x80 + point % 64)]

def bytes : CodeUnits → List UInt8
  | [] => []
  | [unit] => ofUnit unit
  | high :: low :: rest =>
    if isHigh high && isLow low then ofPair high low ++ bytes rest
    else ofUnit high ++ bytes (low :: rest)

example : bytes [0x61, 0xE9, 0x20AC, 0xD83D, 0xDE00, 0xD83D] =
    [0x61, 0xC3, 0xA9, 0xE2, 0x82, 0xAC, 0xF0, 0x9F, 0x98, 0x80, 0xEF, 0xBF, 0xBD] := by decide

theorem length_ofUnit (unit : UInt16) :
    unit < 0x80 ∧ (ofUnit unit).length = 1 ∨ ¬ unit < 0x80 ∧ 2 ≤ (ofUnit unit).length := by
  unfold ofUnit
  by_cases hascii : unit < 0x80
  · have hpoint : unit.toNat < 0x80 := UInt16.lt_iff_toNat_lt.mp hascii
    simp [hascii, hpoint]
  · have hpoint : ¬ unit.toNat < 0x80 := fun h => hascii (UInt16.lt_iff_toNat_lt.mpr h)
    simp only [hascii, hpoint, if_false]
    split
    · simp
    · split <;> simp

theorem isHigh_not_ascii {unit : UInt16} (h : isHigh unit) : ¬ unit < 0x80 := by
  unfold isHigh at h
  grind

/-- A text of ASCII takes one byte for each unit, every other text takes more. -/
theorem length_bytes (text : CodeUnits) :
    (∀ unit ∈ text, unit < 0x80) ∧ (bytes text).length = text.length ∨
      ¬ (∀ unit ∈ text, unit < 0x80) ∧ text.length < (bytes text).length := by
  fun_induction bytes text with
  | case1 => simp
  | case2 unit =>
    obtain ⟨h, hlength⟩ | ⟨h, hlength⟩ := length_ofUnit unit
    · exact .inl ⟨by simpa using h, hlength⟩
    · exact .inr ⟨by simpa using h, hlength⟩
  | case3 high low rest hpair ih =>
    have hhigh : ¬ high < 0x80 := isHigh_not_ascii (Bool.and_eq_true_iff.mp hpair).1
    refine .inr ⟨fun h => hhigh (h high List.mem_cons_self), ?_⟩
    have hpairLength : (ofPair high low).length = 4 := rfl
    simp only [List.length_append, List.length_cons, hpairLength]
    omega
  | case4 high low rest hpair ih =>
    simp only [List.length_append, List.length_cons, List.forall_mem_cons] at ih ⊢
    obtain ⟨h, hlength⟩ | ⟨h, hlength⟩ := length_ofUnit high
    · obtain ⟨hrest, ih⟩ | ⟨hrest, ih⟩ := ih
      · exact .inl ⟨⟨h, hrest⟩, by omega⟩
      · exact .inr ⟨fun hall => hrest hall.2, by omega⟩
    · exact .inr ⟨fun hall => h hall.1, by omega⟩

theorem length_bytes_eq_iff (text : CodeUnits) : (bytes text).length = text.length ↔ ∀ unit ∈ text, unit < 0x80 := by
  obtain ⟨hascii, hlength⟩ | ⟨hascii, hlength⟩ := length_bytes text
  · exact ⟨fun _ => hascii, fun _ => hlength⟩
  · exact ⟨fun h => absurd h hlength.ne', fun h => absurd h hascii⟩

end Utf8

end Atomic
