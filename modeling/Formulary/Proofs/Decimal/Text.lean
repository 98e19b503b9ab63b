import Formulary.Proofs.Decimal.Number
import Formulary.Decimal.Text

namespace Formulary

/-! The written form of a decimal reads back as a decimal of the same number. -/

namespace Digits

def AllDigits (text : List Char) : Prop := ∀ c ∈ text, isDigit c = true

theorem AllDigits.append {text other : List Char} (first : AllDigits text)
    (second : AllDigits other) : AllDigits (text ++ other) := by
  intro c member
  rcases List.mem_append.mp member with member | member
  · exact first c member
  · exact second c member

theorem ne_of_isDigit {c other : Char} (digit : isDigit c = true)
    (excluded : isDigit other = false) : c ≠ other := by
  rintro rfl
  rw [digit] at excluded
  cases excluded

theorem unmarked_of_isDigit {c : Char} (digit : isDigit c = true) :
    (!(c == 'e' || c == 'E')) = true := by
  simp [ne_of_isDigit digit (rfl : isDigit 'e' = false),
    ne_of_isDigit digit (rfl : isDigit 'E' = false)]

theorem allDigits_ofNat (n : Nat) : AllDigits (ofNat n) := fun _ member =>
  Nat.isDigit_of_mem_toDigits (by decide) (by decide) member

theorem ofNat_ne_nil (n : Nat) : ofNat n ≠ [] := Nat.toDigits_ne_nil

@[simp] theorem value_ofNat (n : Nat) : value (ofNat n) = n := Nat.ofDigitChars_ten_toDigits

theorem value_append (text other : List Char) :
    value (text ++ other) = 10 ^ other.length * value text + value other :=
  (Nat.ofDigitChars_append 0).trans Nat.ofDigitChars_eq_ofDigitChars_zero

end Digits

namespace Decimal

open Digits

theorem allDigits_zeros (count : Nat) : AllDigits (zeros count) := by
  intro c member
  rw [(List.mem_replicate.mp member).2]
  rfl

@[simp] theorem length_zeros (count : Nat) : (zeros count).length = count :=
  List.length_replicate

@[simp] theorem value_zeros (count : Nat) : value (zeros count) = 0 :=
  (Nat.ofDigitChars_replicate_zero (b := 10)).trans (Nat.mul_zero _)

/-- A point with the digits behind it, when there are any. -/
def pointed : List Char → List Char
  | [] => []
  | fraction => '.' :: fraction

/-- An exponent with its sign, when there is any. -/
def powerChars (power : Int) : List Char :=
  if power = 0 then []
  else if power < 0 then 'E' :: '-' :: Digits.ofNat power.natAbs
  else 'e' :: '+' :: Digits.ofNat power.natAbs

/-- The parts of a number text. -/
structure Numeral where
  whole : List Char
  fraction : List Char
  power : Int
  whole_ne_nil : whole ≠ []
  whole_digits : AllDigits whole
  fraction_digits : AllDigits fraction

namespace Numeral

def chars (n : Numeral) : List Char := n.whole ++ (pointed n.fraction ++ powerChars n.power)

def decimal (n : Numeral) : Decimal :=
  ⟨value (n.whole ++ n.fraction), n.fraction.length - n.power⟩

/-- Scale and exponent are small enough to be read. -/
structure Fits (n : Numeral) : Prop where
  scale : scaleFits n.decimal.scale = true
  power : -(2 ^ 127) ≤ n.power ∧ n.power < 2 ^ 127

end Numeral

section Reading

variable {digits whole fraction : List Char}

theorem readDigits_eq (all : AllDigits digits) (some_ : digits ≠ []) :
    readDigits digits = some (value digits) := by
  obtain ⟨first, rest, rfl⟩ := List.exists_cons_of_ne_nil some_
  have others : ∀ c ∈ rest, isDigit c = true := fun c member =>
    all c (List.mem_cons_of_mem _ member)
  have passes : (isDigit first && rest.all fun c => isDigit c || c == '_') = true := by
    simp +contextual [all first List.mem_cons_self, others]
  rw [readDigits, if_pos passes, List.filter_eq_self.mpr others]

theorem readSigned_eq (all : AllDigits digits) (some_ : digits ≠ []) :
    readSigned digits = some (value digits : Int) := by
  unfold readSigned
  split
  · cases all '-' List.mem_cons_self
  · cases all '+' List.mem_cons_self
  · rw [readDigits_eq all some_]
    rfl

theorem readPoint_eq (whole_digits : AllDigits whole) (some_ : whole ≠ [])
    (fraction_digits : AllDigits fraction) :
    readPoint (whole ++ pointed fraction) =
      some ((value (whole ++ fraction) : Int), fraction.length) := by
  have before : ∀ c ∈ whole, (c != '.') = true := fun c member =>
    bne_iff_ne.mpr (ne_of_isDigit (whole_digits c member) rfl)
  have plain : ∀ c ∈ fraction, (c != '_') = true := fun c member =>
    bne_iff_ne.mpr (ne_of_isDigit (fraction_digits c member) rfl)
  unfold readPoint
  rw [List.takeWhile_append_of_pos before, List.dropWhile_append_of_pos before]
  cases fraction with
  | nil => simp [pointed, readSigned_eq whole_digits some_]
  | cons first rest =>
    simp [pointed, readSigned_eq (whole_digits.append fraction_digits),
      List.filter_eq_self.mpr plain]

theorem readExponent_powerChars {power : Int} (nonzero : power ≠ 0)
    (bound : -(2 ^ 127) ≤ power ∧ power < 2 ^ 127) :
    ∃ mark signed, powerChars power = mark :: signed ∧ (mark = 'e' ∨ mark = 'E') ∧
      readExponent signed = some power := by
  have all := allDigits_ofNat power.natAbs
  have read := readDigits_eq all (ofNat_ne_nil _)
  have digits : (Digits.ofNat power.natAbs).all isDigit = true := List.all_eq_true.mpr all
  have within : (-(2 ^ 127) ≤ power && power < 2 ^ 127) = true := by simpa using bound
  rw [value_ofNat] at read
  unfold powerChars
  rw [if_neg nonzero]
  split
  · next negative =>
      have signed : readSigned ('-' :: Digits.ofNat power.natAbs) = some power := by
        rw [readSigned, read]
        exact congrArg some (show -(power.natAbs : Int) = power by omega)
      refine ⟨_, _, rfl, .inr rfl, ?_⟩
      simp only [readExponent, digits, signed, if_true, within]
  · next positive =>
      have signed : readSigned ('+' :: Digits.ofNat power.natAbs) = some power := by
        rw [readSigned, read]
        exact congrArg some (show (power.natAbs : Int) = power by omega)
      refine ⟨_, _, rfl, .inl rfl, ?_⟩
      simp only [readExponent, digits, signed, if_true, within]

end Reading

theorem mem_pointed {c : Char} {fraction : List Char} (member : c ∈ pointed fraction) :
    c = '.' ∨ c ∈ fraction := by
  cases fraction with
  | nil => cases member
  | cons => exact List.mem_cons.mp member

theorem parseChars?_numeral {n : Numeral} (fits : n.Fits) :
    parseChars? n.chars = some n.decimal := by
  have base : ∀ c ∈ n.whole ++ pointed n.fraction, (!(c == 'e' || c == 'E')) = true := by
    intro c member
    rcases List.mem_append.mp member with member | member
    · exact unmarked_of_isDigit (n.whole_digits c member)
    · rcases mem_pointed member with rfl | member
      · rfl
      · exact unmarked_of_isDigit (n.fraction_digits c member)
  have point := readPoint_eq n.whole_digits n.whole_ne_nil n.fraction_digits
  have scale : scaleFits (n.fraction.length - n.power) = true := fits.scale
  unfold parseChars? Numeral.chars
  rw [← List.append_assoc]
  simp only [List.takeWhile_append_of_pos base, List.dropWhile_append_of_pos base]
  by_cases zero : n.power = 0
  · have nothing : powerChars n.power = [] := if_pos zero
    simp only [nothing, List.takeWhile_nil, List.dropWhile_nil, List.append_nil, point,
      Numeral.decimal]
    rw [zero] at scale ⊢
    exact if_pos scale
  · obtain ⟨mark, signed, written, marks, read⟩ := readExponent_powerChars zero fits.power
    have stop : (!(mark == 'e' || mark == 'E')) = false := by rcases marks with rfl | rfl <;> rfl
    simp only [written, List.takeWhile_cons, List.dropWhile_cons, stop, Bool.false_eq_true,
      if_false, List.append_nil, point, read, scale, if_true, Numeral.decimal]

theorem powerChars_of_neg {power : Int} (negative : power < 0) :
    powerChars power = 'E' :: (toString power).toList := by
  rw [powerChars, if_neg (by omega), if_pos negative, Int.toString_eq_repr, Int.repr_eq_if,
    if_neg (by omega), String.toList_append, Nat.toList_repr]
  congr 3
  omega

theorem powerChars_of_pos {power : Int} (positive : 0 < power) :
    powerChars power = 'e' :: '+' :: (toString power).toList := by
  rw [powerChars, if_neg (by omega), if_neg (by omega), Int.toString_eq_repr, Int.repr_eq_if,
    if_pos (by omega), Nat.toList_repr]
  congr 3
  omega

theorem pointed_of_ne_nil {fraction : List Char} (some_ : fraction ≠ []) :
    pointed fraction = '.' :: fraction := by
  obtain ⟨first, rest, rfl⟩ := List.exists_cons_of_ne_nil some_
  rfl

/-- The text is a number text for the number that the decimal denotes. -/
def Writes (text : List Char) (d : Decimal) : Prop :=
  ∃ n : Numeral, text = n.chars ∧ n.Fits ∧ n.decimal.toRat = d.toRat

section Layout

variable {digits : List Char} {scale : Int} {d : Decimal}

theorem Writes.same (n : Numeral) (same : n.decimal = d) (fits : scaleFits d.scale = true)
    (power : -(2 ^ 63) ≤ n.power ∧ n.power ≤ 2 ^ 63) : Writes n.chars d :=
  ⟨n, rfl, ⟨same ▸ fits, by omega⟩, congrArg toRat same⟩

theorem writes_small {first : Char} {rest : List Char} (all : AllDigits (first :: rest))
    (fits : scaleFits scale = true) (small : rest.length < scale) :
    Writes ([first] ++ (pointed rest ++ 'E' :: (toString (rest.length - scale)).toList))
      ⟨value (first :: rest), scale⟩ := by
  have bound : -(2 ^ 63) ≤ scale ∧ scale < 2 ^ 63 := by simpa [scaleFits] using fits
  have one : AllDigits [first] := fun c member =>
    all c (List.mem_cons.mpr (.inl (List.mem_singleton.mp member)))
  have others : AllDigits rest := fun c member => all c (List.mem_cons_of_mem _ member)
  rw [← powerChars_of_neg (by omega)]
  refine .same ⟨[first], rest, rest.length - scale, by simp, one, others⟩ ?_ fits (by simp; omega)
  simp [Numeral.decimal]

theorem writes_large (all : AllDigits digits) (some_ : digits ≠ [])
    (fits : scaleFits scale = true) (large : scale < 0) :
    Writes (digits ++ 'e' :: '+' :: (toString (-scale)).toList) ⟨value digits, scale⟩ := by
  have bound : -(2 ^ 63) ≤ scale ∧ scale < 2 ^ 63 := by simpa [scaleFits] using fits
  rw [← powerChars_of_pos (by omega)]
  refine .same ⟨digits, [], -scale, some_, all, by simp [AllDigits]⟩ ?_ fits (by simp; omega)
  simp [Numeral.decimal]

theorem writes_integer (all : AllDigits digits) (some_ : digits ≠ []) (integer : scale ≤ 0) :
    Writes (digits ++ zeros (-scale).toNat) ⟨value digits, scale⟩ := by
  refine ⟨⟨digits ++ zeros (-scale).toNat, [], 0, by simp [some_],
    all.append (allDigits_zeros _), by simp [AllDigits]⟩, ?_, ⟨?_, ?_⟩, ?_⟩
  · simp [Numeral.chars, pointed, powerChars]
  · simp [Numeral.decimal, scaleFits]
  · simp
  · have moved := ten_pow_toNat_mul integer
    simp only [zero_sub, neg_zero, zpow_zero, mul_one] at moved
    simp only [Numeral.decimal, List.append_nil, value_append, value_zeros, length_zeros, toRat_mk,
      List.length_nil, Nat.cast_zero, sub_zero, neg_zero, zpow_zero, mul_one, add_zero, ← moved]
    push_cast
    ring

theorem writes_split (all : AllDigits digits) (fits : scaleFits scale = true)
    (positive : 0 < scale) (short : scale.toNat < digits.length) :
    Writes (digits.take (digits.length - scale.toNat) ++
      '.' :: digits.drop (digits.length - scale.toNat)) ⟨value digits, scale⟩ := by
  have behind : digits.drop (digits.length - scale.toNat) ≠ [] := by
    simp only [ne_eq, List.drop_eq_nil_iff]
    omega
  have front : digits.take (digits.length - scale.toNat) ≠ [] := by
    simp only [ne_eq, List.take_eq_nil_iff, not_or]
    exact ⟨by omega, List.length_pos_iff.mp (by omega)⟩
  rw [← pointed_of_ne_nil behind, ← List.append_nil (pointed _)]
  refine .same ⟨_, _, 0, front, fun c member => all c (List.mem_of_mem_take member),
    fun c member => all c (List.mem_of_mem_drop member)⟩ ?_ fits (by simp)
  simp only [Numeral.decimal, List.take_append_drop, List.length_drop, Decimal.mk.injEq, true_and]
  omega

theorem writes_padded (all : AllDigits digits) (some_ : digits ≠ [])
    (fits : scaleFits scale = true) (long : digits.length ≤ scale.toNat) :
    Writes ('0' :: '.' :: zeros (scale.toNat - digits.length) ++ digits)
      ⟨value digits, scale⟩ := by
  have positive : 0 < digits.length := List.length_pos_iff.mpr some_
  have behind : zeros (scale.toNat - digits.length) ++ digits ≠ [] :=
    List.append_ne_nil_of_right_ne_nil _ some_
  have text : '0' :: '.' :: zeros (scale.toNat - digits.length) ++ digits =
      ['0'] ++ (pointed (zeros (scale.toNat - digits.length) ++ digits) ++ powerChars 0) := by
    simp [pointed_of_ne_nil behind, powerChars]
  rw [text]
  refine .same ⟨['0'], _, 0, by simp, by simp [AllDigits, isDigit],
    (allDigits_zeros _).append all⟩ ?_ fits (by simp)
  have zero : value ['0'] = 0 := rfl
  simp only [Numeral.decimal, value_append, value_zeros, zero, List.length_append, length_zeros,
    Decimal.mk.injEq]
  omega

theorem writes_layout (all : AllDigits digits) (some_ : digits ≠ [])
    (fits : scaleFits scale = true) : Writes (layout digits scale) ⟨value digits, scale⟩ := by
  simp only [layout]
  by_cases small : 0 < scale ∧ leadingZeroLimit < scale - digits.length
  · rw [if_pos (by simpa using small)]
    obtain ⟨first, rest, rfl⟩ := List.exists_cons_of_ne_nil some_
    simp only [leadingZeroLimit, List.length_cons, Nat.cast_add, Nat.cast_one] at small
    have written := writes_small all fits (by omega)
    simp only [List.length_cons, Nat.cast_add, Nat.cast_one, add_sub_cancel_right]
    cases rest <;> exact written
  rw [if_neg (by simpa using small)]
  by_cases large : trailingZeroLimit < -scale
  · rw [if_pos large]
    simp only [trailingZeroLimit] at large
    exact writes_large all some_ fits (by omega)
  rw [if_neg large]
  by_cases integer : scale ≤ 0
  · rw [if_pos integer]
    exact writes_integer all some_ integer
  rw [if_neg integer]
  by_cases short : scale.toNat < digits.length
  · rw [if_pos short]
    exact writes_split all fits (by omega) short
  · rw [if_neg short]
    exact writes_padded all some_ fits (by omega)

end Layout

theorem writes_chars {d : Decimal} (positive : d.isNegative = false)
    (fits : scaleFits d.scale = true) : Writes d.chars d := by
  unfold chars
  split
  · next zero =>
      refine ⟨⟨['0'], [], 0, by simp, by simp [AllDigits, isDigit], by simp [AllDigits]⟩, rfl,
        ⟨by decide, by simp⟩, ?_⟩
      rw [isZero_iff.mp zero]
      simp [Numeral.decimal, value, valueOf]
  · have written := writes_layout (allDigits_ofNat d.mantissa.natAbs) (ofNat_ne_nil _) fits
    have mantissa : (d.mantissa.natAbs : Int) = d.mantissa := by
      simp only [isNegative, decide_eq_false_iff_not] at positive
      omega
    simpa [positive, mantissa] using written

end Decimal

end Formulary
