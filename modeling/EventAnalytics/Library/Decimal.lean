import Mathlib.Algebra.Order.Field.Basic
import Mathlib.Data.Rat.Cast.Order
import Mathlib.Tactic.FieldSimp
import Mathlib.Tactic.Linarith
import Mathlib.Tactic.Positivity
import Mathlib.Tactic.Ring

/-! Decimal arithmetic without signs: division to 28 digits, columns of a fixed
scale, and numerals. -/
namespace EventAnalytics.Library

/-- `coefficient * 10 ^ exponent`. -/
structure Decimal where
  coefficient : Nat
  exponent : Int
  deriving DecidableEq, Repr

/-- `n / d`, rounded to the nearest integer and to the even one of two. -/
def halfEven (n d : Nat) : Nat :=
  if 2 * (n % d) < d then n / d
  else if d < 2 * (n % d) then n / d + 1
  else n / d + n / d % 2

/-- `n / d`, rounded to the nearest integer and to the larger one of two. -/
def halfUp (n d : Nat) : Nat :=
  (2 * n + d) / (2 * d)

theorem halfEven_near {n d : Nat} (hd : 0 < d) :
    2 * (halfEven n d * d) ≤ 2 * n + d ∧ 2 * n ≤ 2 * (halfEven n d * d) + d := by
  have hn : n / d * d + n % d = n := Nat.div_add_mod' n d
  have hmod := Nat.mod_lt n hd
  unfold halfEven
  split
  · omega
  · split
    · rw [Nat.add_mul]
      omega
    · rcases Nat.mod_two_eq_zero_or_one (n / d) with hq | hq <;> rw [hq]
      · simp only [Nat.add_zero]
        omega
      · rw [Nat.add_mul]
        omega

theorem halfEven_le {n d q : Nat} (hd : 0 < d) (h : n ≤ q * d) : halfEven n d ≤ q := by
  obtain ⟨hle, -⟩ := halfEven_near (n := n) hd
  by_contra hlt
  have hnext : (q + 1) * d ≤ halfEven n d * d := Nat.mul_le_mul_right d (by omega)
  rw [Nat.add_mul] at hnext
  omega

theorem halfEven_mul {d : Nat} (hd : 0 < d) (q : Nat) : halfEven (q * d) d = q := by
  simp [halfEven, hd]

theorem halfUp_mul {d : Nat} (hd : 0 < d) (q : Nat) : halfUp (q * d) d = q := by
  have hsplit : 2 * (q * d) + d = d + q * (2 * d) := by ring
  rw [halfUp, hsplit, Nat.add_mul_div_right _ _ (by omega), Nat.div_eq_of_lt (by omega), zero_add]

theorem halfUp_le {n d q : Nat} (hd : 0 < d) (h : n ≤ q * d) : halfUp n d ≤ q := by
  have hsplit : 2 * n + d ≤ d + q * (2 * d) := by
    calc 2 * n + d ≤ 2 * (q * d) + d := by omega
      _ = d + q * (2 * d) := by ring
  refine (Nat.div_le_div_right hsplit).trans ?_
  rw [Nat.add_mul_div_right _ _ (by omega), Nat.div_eq_of_lt (by omega), zero_add]

namespace Decimal

def value (x : Decimal) : ℚ :=
  x.coefficient * (10 : ℚ) ^ x.exponent

theorem value_neg (c p : Nat) : value ⟨c, -(p : Int)⟩ = c / 10 ^ p := by
  simp [value, zpow_neg, div_eq_mul_inv]

theorem value_nonneg (x : Decimal) : 0 ≤ x.value :=
  mul_nonneg (Nat.cast_nonneg _) (zpow_nonneg (by norm_num) _)

def width (n : Nat) : Nat :=
  (Nat.toDigits 10 n).length

theorem width_mono {a b : Nat} (hab : a ≤ b) : width a ≤ width b := by
  have hpos : 0 < width b := Nat.length_toDigits_pos
  have hb : b < 10 ^ width b := (Nat.length_toDigits_le_iff (by omega) hpos).mp le_rfl
  exact (Nat.length_toDigits_le_iff (by omega) hpos).mpr (by omega)

def precision : Nat := 28

/-- Trailing zeros are dropped while the exponent is negative. -/
def strip (coefficient : Nat) : Nat → Decimal
  | 0 => ⟨coefficient, 0⟩
  | places + 1 =>
    if coefficient % 10 = 0 then strip (coefficient / 10) places
    else ⟨coefficient, -(places + 1 : Nat)⟩

theorem value_strip (c p : Nat) : (strip c p).value = c / 10 ^ p := by
  induction p generalizing c with
  | zero => simp [strip, value]
  | succ p ih =>
      unfold strip
      split
      · rename_i hzero
        obtain ⟨q, rfl⟩ := Nat.dvd_of_mod_eq_zero hzero
        rw [ih, Nat.mul_div_cancel_left _ (by omega), pow_succ]
        push_cast
        field_simp
      · exact value_neg c (p + 1)

/-- By which power of ten to scale `a / b` for an integral part of 28 digits. -/
def shift (a b : Nat) : Int :=
  let guess : Int := precision - 1 + width b - width a
  if a * 10 ^ guess.toNat < b * 10 ^ (-guess).toNat * 10 ^ (precision - 1) then guess + 1
  else guess

/-- `Decimal(a) / Decimal(b)`: 28 digits, rounded half to even; an exact quotient has
no more places than it needs. -/
def div (a b : Nat) : Decimal :=
  let n := a * 10 ^ (shift a b).toNat
  let d := b * 10 ^ (-shift a b).toNat
  if a = 0 then ⟨0, 0⟩
  else if 0 ≤ shift a b ∧ n % d = 0 then strip (n / d) (shift a b).toNat
  else if halfEven n d = 10 ^ precision then ⟨10 ^ (precision - 1), 1 - shift a b⟩
  else ⟨halfEven n d, -shift a b⟩

theorem le_shift {a b : Nat} (hab : a ≤ b) : 27 ≤ shift a b := by
  have hwidth := width_mono hab
  unfold shift precision
  simp only
  split <;> omega

/-- A quotient of at most one has at least 27 places, and is rounded in the last. -/
theorem value_div {a b : Nat} (hab : a ≤ b) (hb : 0 < b) :
    ∃ s, 27 ≤ s ∧ (div a b).value = halfEven (a * 10 ^ s) b / 10 ^ s := by
  have hshift := le_shift hab
  obtain ⟨s, hs⟩ := Int.eq_ofNat_of_zero_le (show 0 ≤ shift a b by omega)
  refine ⟨s, by omega, ?_⟩
  unfold div
  simp only [hs, Int.toNat_natCast, Int.toNat_neg_natCast, pow_zero, Nat.mul_one]
  split
  · rename_i ha
    subst ha
    simp [value, halfEven, hb]
  · split
    · rename_i hexact
      obtain ⟨q, hq⟩ := Nat.dvd_of_mod_eq_zero hexact.2
      rw [value_strip, hq, Nat.mul_div_cancel_left _ hb, mul_comm b q, halfEven_mul hb]
    · split
      · rename_i hcarry
        rw [hcarry, value, precision, zpow_sub₀ (by norm_num)]
        simp only [zpow_natCast]
        push_cast
        ring
      · exact value_neg _ s

theorem div_le_one {a b : Nat} (hab : a ≤ b) (hb : 0 < b) : (div a b).value ≤ 1 := by
  obtain ⟨s, -, hvalue⟩ := value_div hab hb
  have hle : halfEven (a * 10 ^ s) b ≤ 10 ^ s := by
    apply halfEven_le hb
    rw [mul_comm (10 ^ s)]
    exact Nat.mul_le_mul_right _ hab
  rw [hvalue, div_le_one₀ (by positivity)]
  exact_mod_cast hle

/-- A quotient that is rounded to `p` places is the exact one. -/
theorem div_places_iff {a b p : Nat} (hab : a ≤ b) (hb : 0 < b) (hsmall : b * 10 ^ p < 10 ^ 27) :
    (∃ k : Nat, (div a b).value = k / 10 ^ p) ↔ b ∣ a * 10 ^ p := by
  obtain ⟨s, hs, hvalue⟩ := value_div hab hb
  have hpow : 10 ^ 27 ≤ 10 ^ s := Nat.pow_le_pow_right (by omega) hs
  rw [hvalue]
  constructor
  · rintro ⟨k, hk⟩
    have hcross : halfEven (a * 10 ^ s) b * 10 ^ p = k * 10 ^ s := by
      rw [div_eq_div_iff (by positivity) (by positivity)] at hk
      exact_mod_cast hk
    obtain ⟨hle, hge⟩ := halfEven_near (n := a * 10 ^ s) hb
    generalize halfEven (a * 10 ^ s) b = h at hcross hle hge
    refine ⟨k, le_antisymm ?_ ?_⟩
    · by_contra hlt
      have hlt : b * k + 1 ≤ a * 10 ^ p := by omega
      have hscaled := Nat.mul_le_mul_right (10 ^ s) hlt
      have hge := Nat.mul_le_mul_right (10 ^ p) hge
      nlinarith
    · by_contra hlt
      have hlt : a * 10 ^ p + 1 ≤ b * k := by omega
      have hscaled := Nat.mul_le_mul_right (10 ^ s) hlt
      have hle := Nat.mul_le_mul_right (10 ^ p) hle
      nlinarith
  · rintro ⟨k, hk⟩
    have hp : p ≤ s := by
      by_contra hlt
      have hpow' : 10 ^ s ≤ 10 ^ p := Nat.pow_le_pow_right (by omega) (by omega)
      have hone : 10 ^ p ≤ b * 10 ^ p := Nat.le_mul_of_pos_left _ hb
      omega
    obtain ⟨t, rfl⟩ := Nat.exists_eq_add_of_le hp
    refine ⟨k, ?_⟩
    have hexact : a * 10 ^ (p + t) = k * 10 ^ t * b := by
      rw [pow_add, ← mul_assoc, hk]
      ring
    rw [hexact, halfEven_mul hb, pow_add]
    push_cast
    field_simp

/-- `int(x)`. -/
def floor (x : Decimal) : Nat :=
  x.coefficient * 10 ^ x.exponent.toNat / 10 ^ (-x.exponent).toNat

def exponentText (e : Int) : List Char :=
  (if e < 0 then '-' else '+') :: Nat.toDigits 10 e.natAbs

/-- `str(x)`: a plain numeral, or one with an exponent if the number is so small that
it would begin with many zeros. -/
def text (x : Decimal) : List Char :=
  let digits := Nat.toDigits 10 x.coefficient
  let left : Int := x.exponent + digits.length
  let dot : Int := if x.exponent ≤ 0 ∧ -6 < left then left else 1
  let mantissa :=
    if dot ≤ 0 then '0' :: '.' :: (List.replicate (-dot).toNat '0' ++ digits)
    else if digits.length ≤ dot then digits ++ List.replicate (dot - digits.length).toNat '0'
    else digits.take dot.toNat ++ '.' :: digits.drop dot.toNat
  mantissa ++ if left = dot then [] else 'E' :: exponentText (left - dot)

/-- The exponent of a numeral; `none` is a syntax error. -/
def exponentOf : List Char → Option Int
  | [] => some 0
  | 'E' :: '-' :: digits =>
    if digits ≠ [] ∧ digits.all Char.isDigit then some (-(Nat.ofDigitChars 10 digits 0 : Int))
    else none
  | 'E' :: '+' :: digits =>
    if digits ≠ [] ∧ digits.all Char.isDigit then some (Nat.ofDigitChars 10 digits 0) else none
  | _ => none

/-- `Decimal(text)`, for texts without sign and blanks; `none` is a syntax error. -/
def ofText (text : List Char) : Option Decimal :=
  let mantissa := text.takeWhile (· ≠ 'E')
  let integral := mantissa.takeWhile (· ≠ '.')
  let fraction := (mantissa.dropWhile (· ≠ '.')).drop 1
  if integral ++ fraction ≠ [] ∧ (integral ++ fraction).all Char.isDigit then
    (exponentOf (text.dropWhile (· ≠ 'E'))).map fun e =>
      ⟨Nat.ofDigitChars 10 (integral ++ fraction) 0, e - fraction.length⟩
  else none

def numeral (integral fraction : List Char) (e : Int) : List Char :=
  integral ++ (if fraction = [] then [] else '.' :: fraction) ++
    if e = 0 then [] else 'E' :: exponentText e

theorem isDigit_toDigits (n : Nat) : (Nat.toDigits 10 n).all Char.isDigit = true :=
  List.all_eq_true.mpr fun _ hc => Nat.isDigit_of_mem_toDigits (by omega) (by omega) hc

theorem exponentOf_exponentText (e : Int) : exponentOf ('E' :: exponentText e) = some e := by
  have hvalue : Nat.ofDigitChars 10 (Nat.toDigits 10 e.natAbs) 0 = e.natAbs :=
    Nat.ofDigitChars_toDigits (by omega) (by omega)
  unfold exponentText
  split
  · simp only [exponentOf, ne_eq, Nat.toDigits_ne_nil, not_false_eq_true, isDigit_toDigits,
      and_self, if_true, hvalue, Option.some.injEq]
    omega
  · simp only [exponentOf, ne_eq, Nat.toDigits_ne_nil, not_false_eq_true, isDigit_toDigits,
      and_self, if_true, hvalue, Option.some.injEq]
    omega

theorem ne_of_isDigit {c d : Char} (hc : c.isDigit = true) (hd : d.isDigit = false) : c ≠ d := by
  rintro rfl
  rw [hc] at hd
  cases hd

theorem ofText_numeral {integral fraction : List Char} (hne : integral ≠ [])
    (hdigits : (integral ++ fraction).all Char.isDigit = true) (e : Int) :
    ofText (numeral integral fraction e) =
      some ⟨Nat.ofDigitChars 10 (integral ++ fraction) 0, e - fraction.length⟩ := by
  have hdigit : ∀ c ∈ integral ++ fraction, c.isDigit = true := List.all_eq_true.mp hdigits
  have hmantissa : ∀ c ∈ integral ++ (if fraction = [] then [] else '.' :: fraction), c ≠ 'E' := by
    intro c hc
    have hcases : c ∈ integral ++ fraction ∨ c = '.' := by
      split at hc
      · exact .inl (List.mem_append_left _ (by simpa using hc))
      · simp only [List.mem_append, List.mem_cons] at hc ⊢
        tauto
    rcases hcases with hc | rfl
    · exact ne_of_isDigit (hdigit c hc) (by decide)
    · decide
  have hintegral : ∀ c ∈ integral, decide (c ≠ '.') = true := fun c hc =>
    decide_eq_true (ne_of_isDigit (hdigit c (List.mem_append_left _ hc)) (by decide))
  have htake : (numeral integral fraction e).takeWhile (· ≠ 'E') =
      integral ++ (if fraction = [] then [] else '.' :: fraction) := by
    rw [numeral, List.takeWhile_append_of_pos fun c hc => decide_eq_true (hmantissa c hc)]
    by_cases he : e = 0 <;> simp [he]
  have hdrop : (numeral integral fraction e).dropWhile (· ≠ 'E') =
      if e = 0 then [] else 'E' :: exponentText e := by
    rw [numeral, List.dropWhile_append_of_pos fun c hc => decide_eq_true (hmantissa c hc)]
    by_cases he : e = 0 <;> simp [he]
  have hexponent : exponentOf (if e = 0 then [] else 'E' :: exponentText e) = some e := by
    split
    · rename_i hzero
      rw [hzero]
      rfl
    · exact exponentOf_exponentText e
  have hfirst : (integral ++ (if fraction = [] then [] else '.' :: fraction)).takeWhile
      (· ≠ '.') = integral := by
    rw [List.takeWhile_append_of_pos hintegral]
    split <;> simp
  have hrest : ((integral ++ (if fraction = [] then [] else '.' :: fraction)).dropWhile
      (· ≠ '.')).drop 1 = fraction := by
    rw [List.dropWhile_append_of_pos hintegral]
    split <;> simp_all
  unfold ofText
  simp only [htake, hdrop, hexponent, hfirst, hrest, hdigits]
  simp [hne]

theorem text_eq_numeral (x : Decimal) :
    ∃ integral fraction e, x.text = numeral integral fraction e ∧ integral ≠ [] ∧
      (integral ++ fraction).all Char.isDigit = true ∧
      Nat.ofDigitChars 10 (integral ++ fraction) 0 = x.coefficient ∧
      e - fraction.length = x.exponent := by
  have hdigits := isDigit_toDigits x.coefficient
  have hne : Nat.toDigits 10 x.coefficient ≠ [] := Nat.toDigits_ne_nil
  have hpos : 0 < (Nat.toDigits 10 x.coefficient).length := List.length_pos_iff.mpr hne
  have hvalue : Nat.ofDigitChars 10 (Nat.toDigits 10 x.coefficient) 0 = x.coefficient :=
    Nat.ofDigitChars_toDigits (by omega) (by omega)
  unfold text
  generalize Nat.toDigits 10 x.coefficient = digits at hdigits hne hpos hvalue
  simp only
  generalize hdot : (if x.exponent ≤ 0 ∧ -6 < x.exponent + digits.length then
    x.exponent + (digits.length : Int) else 1) = dot
  have hleft : dot = x.exponent + digits.length ∧ x.exponent ≤ 0 ∨ dot = 1 := by
    split at hdot
    · exact .inl ⟨hdot.symm, by omega⟩
    · exact .inr hdot.symm
  by_cases hsmall : dot ≤ 0
  · refine ⟨['0'], List.replicate (-dot).toNat '0' ++ digits, 0, ?_, by simp, ?_, ?_, ?_⟩
    · simp [numeral, hsmall, hne]
      omega
    · simp [hdigits]
    · simp [Nat.ofDigitChars_cons, Nat.ofDigitChars_append, hvalue]
    · simp
      omega
  · by_cases hlarge : digits.length ≤ dot
    · refine ⟨digits, [], x.exponent + digits.length - dot, ?_, hne, by simpa using hdigits,
        by simpa using hvalue, ?_⟩
      · have hzeros : (dot - digits.length).toNat = 0 := by omega
        simp only [numeral, if_neg hsmall, if_pos hlarge, hzeros, List.replicate_zero, if_true,
          List.append_nil, sub_eq_zero]
      · simp
        omega
    · have hsplit := List.take_append_drop dot.toNat digits
      refine ⟨digits.take dot.toNat, digits.drop dot.toNat, x.exponent + digits.length - dot,
        ?_, ?_, ?_, ?_, ?_⟩
      · have hfraction : digits.drop dot.toNat ≠ [] := by
          rw [ne_eq, List.drop_eq_nil_iff]
          omega
        simp only [numeral, if_neg hsmall, if_neg hlarge, if_neg hfraction, sub_eq_zero]
      · rw [ne_eq, List.take_eq_nil_iff, not_or]
        exact ⟨by omega, hne⟩
      · rwa [hsplit]
      · rwa [hsplit]
      · rw [List.length_drop]
        omega

/-- `Decimal(str(x)) == x`, with the same digits. -/
theorem ofText_text (x : Decimal) : ofText x.text = some x := by
  obtain ⟨integral, fraction, e, htext, hne, hdigits, hvalue, he⟩ := x.text_eq_numeral
  rw [htext, ofText_numeral hne hdigits, hvalue, he]

/-- A text that reads as a number. -/
structure Numeral where
  text : List Char
  valid : (ofText text).isSome = true
  deriving DecidableEq

/-- `str(x)`. -/
def str (x : Decimal) : Numeral :=
  ⟨x.text, by rw [ofText_text]; rfl⟩

/-- `Decimal(text)`. -/
def Numeral.decimal (n : Numeral) : Decimal :=
  (ofText n.text).get n.valid

@[simp] theorem decimal_str (x : Decimal) : x.str.decimal = x := by
  simp [Numeral.decimal, str, ofText_text]

example : (div 1 3).text = "0.3333333333333333333333333333".toList ∧
    (div 1 40000000).text = "2.5E-8".toList ∧ (div 7 8).text = "0.875".toList := by
  decide +kernel

end Decimal

/-- A column `INTEGER` without sign. -/
structure Int4 where
  value : Nat
  fits : value < 2147483648
  deriving DecidableEq

/-- `none` is out of range. -/
def Int4.store (n : Nat) : Option Int4 :=
  if h : n < 2147483648 then some ⟨n, h⟩ else none

theorem Int4.value_store {n : Nat} {x : Int4} (hstore : store n = some x) : x.value = n := by
  unfold store at hstore
  split at hstore <;> cases hstore
  rfl

/-- A column `NUMERIC(precision, scale)` without sign: `unscaled * 10 ^ -scale`. -/
structure Numeric (precision scale : Nat) where
  unscaled : Nat
  fits : unscaled < 10 ^ precision
  deriving DecidableEq

namespace Numeric

variable {precision scale : Nat}

/-- What the column reads as. -/
def decimal (x : Numeric precision scale) : Decimal :=
  ⟨x.unscaled, -(scale : Int)⟩

/-- What the column stores of a number, rounded half up; `none` is an overflow. -/
def store (precision scale : Nat) (x : Decimal) : Option (Numeric precision scale) :=
  let e := x.exponent + scale
  let unscaled := halfUp (x.coefficient * 10 ^ e.toNat) (10 ^ (-e).toNat)
  if h : unscaled < 10 ^ precision then some ⟨unscaled, h⟩ else none

theorem scaled_eq {x : Decimal} {k : Nat} (hx : x.value = k / 10 ^ scale) :
    x.coefficient * 10 ^ (x.exponent + scale).toNat =
      k * 10 ^ (-(x.exponent + scale)).toNat := by
  have hten : (10 : ℚ) ≠ 0 := by norm_num
  have hscaled : (x.coefficient : ℚ) * 10 ^ (x.exponent + scale) = k := by
    rw [zpow_add₀ hten, ← mul_assoc, zpow_natCast]
    exact (eq_div_iff (by positivity)).mp hx
  obtain ⟨m, hm | hm⟩ := (x.exponent + scale).eq_nat_or_neg
  · rw [hm] at hscaled ⊢
    rw [zpow_natCast] at hscaled
    simp only [Int.toNat_natCast, Int.toNat_neg_natCast, pow_zero, mul_one]
    exact_mod_cast hscaled
  · rw [hm] at hscaled ⊢
    rw [zpow_neg, zpow_natCast, mul_inv_eq_iff_eq_mul₀ (by positivity)] at hscaled
    simp only [neg_neg, Int.toNat_natCast, Int.toNat_neg_natCast, pow_zero, mul_one]
    exact_mod_cast hscaled

theorem store_isSome {x : Decimal} (hx : x.value ≤ 1) (hscale : scale < precision) :
    (store precision scale x).isSome := by
  have hscaled : x.coefficient * 10 ^ (x.exponent + scale).toNat ≤
      10 ^ scale * 10 ^ (-(x.exponent + scale)).toNat := by
    have hpow : (x.coefficient : ℚ) * 10 ^ (x.exponent + scale) ≤ 10 ^ scale := by
      rw [zpow_add₀ (by norm_num), ← mul_assoc, zpow_natCast]
      exact mul_le_of_le_one_left (by positivity) hx
    obtain ⟨m, hm | hm⟩ := (x.exponent + scale).eq_nat_or_neg
    · rw [hm] at hpow ⊢
      rw [zpow_natCast] at hpow
      simp only [Int.toNat_natCast, Int.toNat_neg_natCast, pow_zero, mul_one]
      exact_mod_cast hpow
    · rw [hm] at hpow ⊢
      rw [zpow_neg, zpow_natCast, mul_inv_le_iff₀ (by positivity)] at hpow
      simp only [neg_neg, Int.toNat_natCast, Int.toNat_neg_natCast, pow_zero, mul_one]
      exact_mod_cast hpow
  have hunscaled : halfUp (x.coefficient * 10 ^ (x.exponent + scale).toNat)
      (10 ^ (-(x.exponent + scale)).toNat) < 10 ^ precision :=
    (halfUp_le (Nat.pow_pos (by omega)) hscaled).trans_lt (Nat.pow_lt_pow_right (by omega) hscale)
  unfold store
  simp only [hunscaled, dif_pos]
  rfl

theorem store_natCast_isSome {n : Nat} (hn : n * 10 ^ scale < 10 ^ precision) :
    (store precision scale ⟨n, 0⟩).isSome := by
  have hunscaled : halfUp (n * 10 ^ scale) 1 = n * 10 ^ scale := by
    rw [← Nat.mul_one (n * 10 ^ scale), halfUp_mul Nat.one_pos, Nat.mul_one]
  simp [store, hunscaled, hn]

/-- The column keeps a number if and only if it has no more places than the column. -/
theorem store_value_iff {x : Decimal} {y : Numeric precision scale}
    (hstore : store precision scale x = some y) :
    y.decimal.value = x.value ↔ ∃ k : Nat, x.value = k / 10 ^ scale := by
  have hy : y.decimal.value = y.unscaled / 10 ^ scale := Decimal.value_neg _ _
  constructor
  · intro hkept
    exact ⟨y.unscaled, hkept ▸ hy⟩
  · rintro ⟨k, hk⟩
    have hunscaled : y.unscaled = k := by
      unfold store at hstore
      simp only [scaled_eq hk, halfUp_mul (Nat.pow_pos (by omega : 0 < 10))] at hstore
      split at hstore
      · cases hstore
        rfl
      · cases hstore
    rw [hy, hk, hunscaled]

theorem floor_store {n : Nat} {y : Numeric precision scale}
    (hstore : store precision scale ⟨n, 0⟩ = some y) : y.decimal.floor = n := by
  have hwhole : halfUp (n * 10 ^ scale) 1 = n * 10 ^ scale := by
    simpa using halfUp_mul Nat.one_pos (n * 10 ^ scale)
  unfold store at hstore
  simp only [zero_add, Int.toNat_natCast, Int.toNat_neg_natCast, pow_zero, hwhole] at hstore
  split at hstore
  · cases hstore
    simp [decimal, Decimal.floor]
  · cases hstore

end Numeric

end EventAnalytics.Library
