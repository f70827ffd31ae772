import SongPreview.Layout
import Mathlib.Data.Nat.Log
import Mathlib.Data.Rat.Cast.Order
import Mathlib.Tactic.Linarith
import Mathlib.Tactic.NormNum
import Mathlib.Tactic.Positivity
import Mathlib.Tactic.Ring

/-!
# Sizes as they are printed

A byte count is printed in one of three units, with one decimal in the larger two. Here a printed
size is read back, digit by digit. Below 2^53 it is the nearest that its last digit allows, and a
larger count is never printed as a smaller size, also where the unit changes and where a count is
first cut to 53 binary digits.
-/

namespace SongPreview.Layout

variable {num den a b q n m : Nat}

/-! ### Rounding -/

/-- A natural number is as near to a quotient as a natural number can be, and even if it lies half
a unit away. -/
structure Nearest (num den q : Nat) : Prop where
  not_above : 2 * (q * den) ≤ 2 * num + den
  not_below : 2 * num ≤ 2 * (q * den) + den
  even_of_tie : 2 * (q * den) = 2 * num + den ∨ 2 * num = 2 * (q * den) + den → Even q

theorem nearest_roundQuotient (num : Nat) (hden : 0 < den) :
    Nearest num den (roundQuotient num den) := by
  have hdivision : num / den * den + num % den = num := Nat.div_add_mod' num den
  have hrest := Nat.mod_lt num hden
  have hnext : (num / den + 1) * den = num / den * den + den := Nat.succ_mul _ _
  simp only [roundQuotient]
  split_ifs with hlow hhigh
  · exact ⟨by omega, by omega, by omega⟩
  · exact ⟨by omega, by omega, by omega⟩
  · rcases Nat.mod_two_eq_zero_or_one (num / den) with heven | hodd
    · rw [heven, Nat.add_zero]
      exact ⟨by omega, by omega, fun _ => Nat.even_iff.mpr heven⟩
    · rw [hodd]
      exact ⟨by omega, by omega, fun _ => Nat.even_iff.mpr (by omega)⟩

/-- Rounding keeps the order: two numbers that are rounded against it would both lie half a unit
away, and be even neighbours. -/
theorem roundQuotient_mono (hden : 0 < den) (hle : a ≤ b) :
    roundQuotient a den ≤ roundQuotient b den := by
  obtain ⟨hnot, -, heven⟩ := nearest_roundQuotient a hden
  obtain ⟨-, hnot', heven'⟩ := nearest_roundQuotient b hden
  generalize roundQuotient a den = p at *
  generalize roundQuotient b den = q at *
  by_contra hlt
  obtain ⟨k, rfl⟩ := Nat.exists_eq_add_of_lt (not_le.mp hlt)
  have hprod : (q + k + 1) * den = q * den + k * den + den := by ring
  have hnone : k * den = 0 := by omega
  obtain rfl : k = 0 := by simpa [hden.ne'] using hnone
  obtain ⟨r, hr⟩ := heven (.inl (by omega))
  obtain ⟨t, ht⟩ := heven' (.inr (by omega))
  omega

/-- A multiple is not rounded. -/
theorem roundQuotient_mul (q : Nat) (hden : 0 < den) : roundQuotient (q * den) den = q := by
  simp [roundQuotient, hden]

/-! ### Cutting to 53 binary digits -/

/-- The unit of the last of the 53 binary digits that a number keeps. -/
def lastUnit (n : Nat) : Nat :=
  2 ^ (Nat.log2 n + 1 - 53)

theorem roundTo53_eq (n : Nat) : roundTo53 n = roundQuotient n (lastUnit n) * lastUnit n :=
  rfl

theorem lastUnit_pos (n : Nat) : 0 < lastUnit n :=
  Nat.two_pow_pos _

theorem roundTo53_of_lt (h : n < 2 ^ 53) : roundTo53 n = n := by
  have hunit : lastUnit n = 1 := by
    rw [lastUnit]
    by_cases hzero : n = 0
    · subst hzero
      decide
    · have := (Nat.log2_lt hzero).mpr h
      rw [show Nat.log2 n + 1 - 53 = 0 by omega, Nat.pow_zero]
  rw [roundTo53_eq, hunit, Nat.mul_one]
  simpa using roundQuotient_mul n Nat.one_pos

/-- A multiple of the last unit above a number is also above what is left of it. -/
theorem roundTo53_le (h : n ≤ q * lastUnit n) : roundTo53 n ≤ q * lastUnit n := by
  have hle := roundQuotient_mono (lastUnit_pos n) h
  rw [roundQuotient_mul q (lastUnit_pos n)] at hle
  exact Nat.mul_le_mul_right _ hle

/-- A multiple of the last unit below a number is also below what is left of it. -/
theorem le_roundTo53 (h : q * lastUnit n ≤ n) : q * lastUnit n ≤ roundTo53 n := by
  have hle := roundQuotient_mono (lastUnit_pos n) h
  rw [roundQuotient_mul q (lastUnit_pos n)] at hle
  exact Nat.mul_le_mul_right _ hle

/-- Cutting keeps the order. Where the longer number has more binary digits than are kept, a power
of two stands between the two numbers, and neither is cut to the other side of it. -/
theorem roundTo53_mono (h : m ≤ n) : roundTo53 m ≤ roundTo53 n := by
  have hlog : Nat.log2 m ≤ Nat.log2 n := by
    rw [Nat.log2_eq_log_two, Nat.log2_eq_log_two]
    exact Nat.log_mono_right h
  by_cases hsame : Nat.log2 m + 1 - 53 = Nat.log2 n + 1 - 53
  · have hunit : lastUnit m = lastUnit n := congrArg (2 ^ ·) hsame
    rw [roundTo53_eq, roundTo53_eq, hunit]
    exact Nat.mul_le_mul_right _ (roundQuotient_mono (lastUnit_pos n) h)
  · have hn : n ≠ 0 := by
      rintro rfl
      exact hsame (by rw [Nat.le_zero.mp h])
    have habove : m ≤ 2 ^ 53 * lastUnit m := by
      rw [lastUnit, ← Nat.pow_add]
      exact (Nat.lt_log2_self.trans_le (Nat.pow_le_pow_right (by decide) (by omega))).le
    have hbelow : 2 ^ 52 * lastUnit n ≤ n := by
      rw [lastUnit, ← Nat.pow_add, show 52 + (Nat.log2 n + 1 - 53) = Nat.log2 n by omega]
      exact Nat.log2_self_le hn
    calc roundTo53 m ≤ 2 ^ 53 * lastUnit m := roundTo53_le habove
      _ ≤ 2 ^ 52 * lastUnit n := by
        rw [lastUnit, lastUnit, ← Nat.pow_add, ← Nat.pow_add]
        exact Nat.pow_le_pow_right (by decide) (by omega)
      _ ≤ roundTo53 n := le_roundTo53 hbelow

/-! ### Reading a size back -/

/-- A printed size: its digits as one number, how many of them stand behind the point, and the
bytes of its unit. -/
structure Size where
  digits : Nat
  places : Nat
  unit : Nat
  deriving DecidableEq

namespace Size

/-- The bytes of a unit by its name. -/
def unitOf? (name : List Char) : Option Nat :=
  [("B".toList, 1), ("KiB".toList, 1024), ("MiB".toList, 1024 * 1024)].lookup name

/-- Reads a size: digits, perhaps a point and more digits, a blank and a unit. -/
def read? (s : String) : Option Size := do
  let text := s.toList
  let whole := text.takeWhile Char.isDigit
  let (decimals, rest) :=
    match text.dropWhile Char.isDigit with
    | '.' :: behind => (behind.takeWhile Char.isDigit, behind.dropWhile Char.isDigit)
    | rest => ([], rest)
  match rest with
  | ' ' :: name => do
    let unit ← unitOf? name
    if whole = [] then none
    else some ⟨Nat.ofDigitChars 10 (whole ++ decimals) 0, decimals.length, unit⟩
  | _ => none

/-- What one unit of the last printed digit stands for. -/
def step (s : Size) : ℚ :=
  s.unit / 10 ^ s.places

/-- The bytes that a size stands for. -/
def bytes (s : Size) : ℚ :=
  s.digits * s.step

end Size

/-- The size that is printed for a byte count. -/
def sizeOf (n : Nat) : Size :=
  if n < 1024 then ⟨n, 0, 1⟩
  else if n < 1024 * 1024 then ⟨roundQuotient (n * 10) 1024, 1, 1024⟩
  else ⟨roundQuotient (roundTo53 n * 10) (1024 * 1024), 1, 1024 * 1024⟩

/-- The digits of a number in front of something else are all taken. -/
theorem span_toDigits (n : Nat) {c : Char} (hc : c.isDigit = false) (rest : List Char) :
    (Nat.toDigits 10 n ++ c :: rest).takeWhile Char.isDigit = Nat.toDigits 10 n ∧
      (Nat.toDigits 10 n ++ c :: rest).dropWhile Char.isDigit = c :: rest := by
  have hdigits : ∀ d ∈ Nat.toDigits 10 n, d.isDigit = true := fun _ hd =>
    Nat.isDigit_of_mem_toDigits (by decide) (by decide) hd
  rw [List.takeWhile_append_of_pos hdigits, List.dropWhile_append_of_pos hdigits]
  simp [hc]

section

variable {name : List Char} {unit : Nat} (hunit : Size.unitOf? name = some unit)
include hunit

theorem read_whole (n : Nat) :
    Size.read? (toString n ++ String.ofList (' ' :: name)) = some ⟨n, 0, unit⟩ := by
  have htext : (toString n ++ String.ofList (' ' :: name)).toList =
      Nat.toDigits 10 n ++ ' ' :: name := by
    simp
  obtain ⟨htake, hdrop⟩ := span_toDigits n (by decide : ' '.isDigit = false) name
  simp only [Size.read?, htext, htake, hdrop]
  simp [Nat.toDigits_ne_nil, hunit]

theorem read_tenths (n : Nat) :
    Size.read? (tenths n ++ String.ofList (' ' :: name)) = some ⟨n, 1, unit⟩ := by
  have hlt : n % 10 < 10 := Nat.mod_lt n (by decide)
  have htext : (tenths n ++ String.ofList (' ' :: name)).toList =
      Nat.toDigits 10 (n / 10) ++ '.' :: (Nat.toDigits 10 (n % 10) ++ ' ' :: name) := by
    simp [tenths, Nat.toDigits_of_lt_base hlt]
  obtain ⟨htake, hdrop⟩ := span_toDigits (n / 10) (by decide : '.'.isDigit = false)
    (Nat.toDigits 10 (n % 10) ++ ' ' :: name)
  obtain ⟨htake', hdrop'⟩ := span_toDigits (n % 10) (by decide : ' '.isDigit = false) name
  have hplaces : (Nat.toDigits 10 (n % 10)).length = 1 := by
    rw [Nat.toDigits_of_lt_base hlt, List.length_singleton]
  have hdigits :
      Nat.ofDigitChars 10 (Nat.toDigits 10 (n / 10) ++ Nat.toDigits 10 (n % 10)) 0 = n := by
    rw [Nat.toDigits_of_lt_base hlt, Nat.ofDigitChars_append, Nat.ofDigitChars_ten_toDigits,
      Nat.ofDigitChars_cons_digitChar_of_lt_ten hlt, Nat.ofDigitChars_nil, Nat.div_add_mod]
  simp only [Size.read?, htext, htake, hdrop, htake', hdrop', hplaces, hdigits]
  simp [Nat.toDigits_ne_nil, hunit]

end

theorem read_formatSize (n : Nat) : Size.read? (formatSize n) = some (sizeOf n) := by
  rw [formatSize, sizeOf]
  split_ifs
  · exact read_whole (show Size.unitOf? "B".toList = some 1 from rfl) n
  · exact read_tenths (show Size.unitOf? "KiB".toList = some 1024 from rfl) _
  · exact read_tenths (show Size.unitOf? "MiB".toList = some (1024 * 1024) from rfl) _

/-! ### Sizes of counts -/

theorem bytes_tenths (q unit : Nat) : (Size.mk q 1 unit).bytes = q * unit / 10 := by
  simp only [Size.bytes, Size.step]
  ring

/-- A nearest number of tenths is off by half a tenth at most, and by as much only if it is
even. -/
theorem Nearest.accurate {unit : Nat} (h : Nearest (n * 10) unit q) :
    |(Size.mk q 1 unit).bytes - n| ≤ (Size.mk q 1 unit).step / 2 ∧
      (|(Size.mk q 1 unit).bytes - n| = (Size.mk q 1 unit).step / 2 → Even q) := by
  obtain ⟨hnot, hnot', heven⟩ := h
  have hstep : (Size.mk q 1 unit).step = unit / 10 := by simp [Size.step]
  have hnot : (2 * (q * unit) : ℚ) ≤ 2 * (n * 10) + unit := by exact_mod_cast hnot
  have hnot' : (2 * (n * 10) : ℚ) ≤ 2 * (q * unit) + unit := by exact_mod_cast hnot'
  rw [bytes_tenths, hstep]
  refine ⟨abs_le.mpr ⟨by linarith, by linarith⟩, fun htie => heven ?_⟩
  have hpos : (0 : ℚ) ≤ unit / 10 / 2 := by positivity
  rcases (abs_eq hpos).mp htie with hhigh | hlow
  · have hsame : (2 * (q * unit) : ℚ) = 2 * (n * 10) + unit := by linarith
    exact .inl (by exact_mod_cast hsame)
  · have hsame : (2 * (n * 10) : ℚ) = 2 * (q * unit) + unit := by linarith
    exact .inr (by exact_mod_cast hsame)

theorem sizeOf_accurate (h : n < 2 ^ 53) :
    |(sizeOf n).bytes - n| ≤ (sizeOf n).step / 2 ∧
      (|(sizeOf n).bytes - n| = (sizeOf n).step / 2 → Even (sizeOf n).digits) ∧
      (n < 1024 → (sizeOf n).bytes = n) := by
  rw [sizeOf]
  split_ifs with hsmall hmiddle
  · simp [Size.bytes, Size.step]
  · have hnear := (nearest_roundQuotient (n * 10) (by decide : 0 < 1024)).accurate
    exact ⟨hnear.1, hnear.2, fun hlt => absurd hlt hsmall⟩
  · have hnear := (nearest_roundQuotient (n * 10) (by decide : 0 < 1024 * 1024)).accurate
    rw [roundTo53_of_lt h]
    exact ⟨hnear.1, hnear.2, fun hlt => absurd hlt hsmall⟩

/-- Tenths of a unit go up with the number that is rounded to them. -/
theorem bytes_tenths_mono {unit : Nat} (hunit : 0 < unit) (h : m ≤ n) :
    (Size.mk (roundQuotient (m * 10) unit) 1 unit).bytes ≤
      (Size.mk (roundQuotient (n * 10) unit) 1 unit).bytes := by
  have hle : (roundQuotient (m * 10) unit : ℚ) ≤ roundQuotient (n * 10) unit := by
    exact_mod_cast roundQuotient_mono hunit (Nat.mul_le_mul_right 10 h)
  rw [bytes_tenths, bytes_tenths]
  have := mul_le_mul_of_nonneg_right hle (Nat.cast_nonneg (α := ℚ) unit)
  linarith

/-- A whole number of units is printed as it is. -/
theorem bytes_whole {unit : Nat} (hunit : 0 < unit) (k : Nat) :
    (Size.mk (roundQuotient (k * unit * 10) unit) 1 unit).bytes = k * unit := by
  rw [show k * unit * 10 = k * 10 * unit by ring, roundQuotient_mul _ hunit, bytes_tenths]
  push_cast
  ring

/-- What reaches a whole number of units is not printed below it. -/
theorem le_bytes {unit : Nat} (hunit : 0 < unit) {k : Nat} (h : k * unit ≤ n) :
    (k * unit : ℚ) ≤ (Size.mk (roundQuotient (n * 10) unit) 1 unit).bytes :=
  bytes_whole hunit k ▸ bytes_tenths_mono hunit h

/-- What does not go beyond a whole number of units is not printed above it. -/
theorem bytes_le {unit : Nat} (hunit : 0 < unit) {k : Nat} (h : n ≤ k * unit) :
    (Size.mk (roundQuotient (n * 10) unit) 1 unit).bytes ≤ k * unit :=
  bytes_whole hunit k ▸ bytes_tenths_mono hunit h

theorem sizeOf_mono (h : m ≤ n) : (sizeOf m).bytes ≤ (sizeOf n).bytes := by
  have hcount : (m : ℚ) ≤ n := by exact_mod_cast h
  have hwhole (k : Nat) : (Size.mk k 0 1).bytes = k := by simp [Size.bytes, Size.step]
  -- whole units stand at both boundaries
  have hkib (hn : 1024 ≤ n) :
      (1024 : ℚ) ≤ (Size.mk (roundQuotient (n * 10) 1024) 1 1024).bytes := by
    simpa using le_bytes (k := 1) (by decide : 0 < 1024) (by omega)
  have hmib (hn : 1024 * 1024 ≤ n) : (1024 * 1024 : ℚ) ≤
      (Size.mk (roundQuotient (roundTo53 n * 10) (1024 * 1024)) 1 (1024 * 1024)).bytes := by
    have hcut := roundTo53_mono hn
    rw [roundTo53_of_lt (by decide)] at hcut
    have hunit : 0 < 1024 * 1024 := by decide
    exact le_trans (by norm_num) (le_bytes hunit (k := 1) (by omega))
  rw [sizeOf, sizeOf]
  split_ifs with hm hn hn' hm' hn hn' hn hn'
  · rwa [hwhole, hwhole]
  · rw [hwhole]
    have hlt : (m : ℚ) < 1024 := by exact_mod_cast hm
    exact hlt.le.trans (hkib (by omega))
  · rw [hwhole]
    have hlt : (m : ℚ) < 1024 := by exact_mod_cast hm
    exact hlt.le.trans (le_trans (by norm_num) (hmib (by omega)))
  · omega
  · exact bytes_tenths_mono (by decide) h
  · have hle := bytes_le (k := 1024) (by decide : 0 < 1024) hm'.le
    exact hle.trans (le_trans (by norm_num) (hmib (by omega)))
  · omega
  · omega
  · exact bytes_tenths_mono (by decide) (roundTo53_mono h)

/-- **Sizes are accurate and in order.** Every byte count is printed as a size that can be read
back: in bytes without decimals below 1024, and with one decimal in the larger of the other two
units that the count reaches. Below 2^53 it stands for the count up to half a unit of its last
digit, which is even in a tie, and below 1024 it is the count itself. No count is printed as a
larger size than a larger count. -/
theorem sizes_accurate_in_order :
    (∀ n, ∃ size, Size.read? (formatSize n) = some size ∧
      size.unit = (if n < 1024 then 1 else if n < 1024 ^ 2 then 1024 else 1024 ^ 2) ∧
      size.places = (if n < 1024 then 0 else 1) ∧
      (n < 2 ^ 53 → |size.bytes - n| ≤ size.step / 2 ∧
        (|size.bytes - n| = size.step / 2 → Even size.digits)) ∧
      (n < 1024 → size.bytes = n)) ∧
    ∀ m n, m ≤ n → ∃ smaller larger, Size.read? (formatSize m) = some smaller ∧
      Size.read? (formatSize n) = some larger ∧ smaller.bytes ≤ larger.bytes := by
  refine ⟨fun n => ⟨sizeOf n, read_formatSize n, ?_, ?_, ?_, ?_⟩, fun m n h =>
    ⟨sizeOf m, sizeOf n, read_formatSize m, read_formatSize n, sizeOf_mono h⟩⟩
  · rw [sizeOf, ← Nat.pow_two]
    split_ifs <;> rfl
  · rw [sizeOf]
    split_ifs <;> rfl
  · exact fun h => ⟨(sizeOf_accurate h).1, (sizeOf_accurate h).2.1⟩
  · exact fun h => (sizeOf_accurate (h.trans (by decide))).2.2 h

/-- A tie goes to the even digit, and the last count below a mebibyte is printed like it. -/
theorem tie_and_boundary :
    (1280 < 2 ^ 53 ∧ ∃ size, Size.read? (formatSize 1280) = some size ∧
      |size.bytes - 1280| ≤ size.step / 2 ∧ size = ⟨12, 1, 1024⟩) ∧
    (1048575 ≤ 1048576 ∧ ∃ smaller larger, Size.read? (formatSize 1048575) = some smaller ∧
      Size.read? (formatSize 1048576) = some larger ∧ smaller.bytes ≤ larger.bytes ∧
      smaller = ⟨10240, 1, 1024⟩ ∧ larger = ⟨10, 1, 1024 ^ 2⟩) := by
  obtain ⟨haccurate, horder⟩ := sizes_accurate_in_order
  have htie : Size.read? (formatSize 1280) = some ⟨12, 1, 1024⟩ := by decide +kernel
  have hbelow : Size.read? (formatSize 1048575) = some ⟨10240, 1, 1024⟩ := by decide +kernel
  have hmebi : Size.read? (formatSize 1048576) = some ⟨10, 1, 1024 ^ 2⟩ := by decide +kernel
  obtain ⟨size, hread, -, -, hnear, -⟩ := haccurate 1280
  obtain ⟨smaller, larger, hsmaller, hlarger, hle⟩ := horder 1048575 1048576 (by decide)
  refine ⟨⟨by decide, size, hread, (hnear (by decide)).1, ?_⟩,
    by decide, smaller, larger, hsmaller, hlarger, hle, ?_, ?_⟩
  · exact Option.some.inj (hread.symm.trans htie)
  · exact Option.some.inj (hsmaller.symm.trans hbelow)
  · exact Option.some.inj (hlarger.symm.trans hmebi)

end SongPreview.Layout
