import Mathlib.Algebra.Order.Field.Rat
import Mathlib.Algebra.Order.Floor.Ring
import Mathlib.Data.Nat.Digits.Lemmas
import Mathlib.Data.Rat.Floor
import Mathlib.Tactic.Common
import Mathlib.Tactic.Linarith
import Mathlib.Tactic.Positivity
import Mathlib.Tactic.Ring

/-! # Numbers written in decimal

Numbers are printed with a fixed number of places and scanned as far as they go. A
number that was printed is scanned as the number it was rounded to, and the rest of
the text is left.
-/

namespace AdaptiveSignal.Foundation

/-! ## Printing -/

/-- The digits of a number, filled up with zeros. -/
def padded (places n : ℕ) : List Char :=
  ((Nat.digits 10 n ++ List.replicate (places - (Nat.digits 10 n).length) 0).map
    Nat.digitChar).reverse

def decimal (n : ℕ) : List Char := padded 1 n

def formatInt (n : ℤ) : List Char :=
  (if n < 0 then ['-'] else []) ++ decimal n.natAbs

/-- The nearest integer, the even one of two. -/
def roundHalfEven (q : ℚ) : ℤ :=
  if q - ⌊q⌋ < 1 / 2 then ⌊q⌋
  else if 1 / 2 < q - ⌊q⌋ then ⌊q⌋ + 1
  else if ⌊q⌋ % 2 = 0 then ⌊q⌋
  else ⌊q⌋ + 1

/-- The digits of a number without its sign and its point. -/
def scaled (places : ℕ) (q : ℚ) : ℕ := (roundHalfEven (|q| * 10 ^ places)).toNat

def formatFixed (places : ℕ) (q : ℚ) : List Char :=
  let n := scaled places q
  (if q < 0 then ['-'] else []) ++ decimal (n / 10 ^ places) ++
    if places = 0 then [] else '.' :: padded places (n % 10 ^ places)

/-- The number that is printed. -/
def roundTo (places : ℕ) (q : ℚ) : ℚ :=
  (if q < 0 then -1 else 1) * (scaled places q / 10 ^ places)

/-! ## Scanning -/

def isSpace (c : Char) : Bool := c.toNat = 32 || 9 ≤ c.toNat && c.toNat ≤ 13

def isDigit (c : Char) : Bool := 48 ≤ c.toNat && c.toNat ≤ 57

def skipSpace (s : List Char) : List Char := s.dropWhile isSpace

def digitValue (c : Char) : ℕ := c.toNat - 48

/-- The number that a sequence of digits stands for. -/
def digitsValue (digits : List Char) : ℕ :=
  Nat.ofDigits 10 (digits.map digitValue).reverse

/-- Whether there is a minus sign, and what follows the sign. -/
def scanSign : List Char → Bool × List Char
  | '-' :: s => (true, s)
  | '+' :: s => (false, s)
  | s => (false, s)

def scanSigned (s : List Char) : Option (ℤ × List Char) :=
  let (negative, s) := scanSign s
  let digits := s.takeWhile isDigit
  if digits = [] then none
  else some ((if negative then -1 else 1) * digitsValue digits, s.dropWhile isDigit)

/-- An integer after any space. -/
def scanInt (s : List Char) : Option (ℤ × List Char) := scanSigned (skipSpace s)

def scanFraction : List Char → List Char × List Char
  | '.' :: s => (s.takeWhile isDigit, s.dropWhile isDigit)
  | s => ([], s)

def scanExponent : List Char → Option (ℤ × List Char)
  | 'e' :: s => scanSigned s
  | 'E' :: s => scanSigned s
  | s => some (0, s)

/-- A decimal number after any space. -/
def scanDecimal (s : List Char) : Option (ℚ × List Char) :=
  let (negative, s) := scanSign (skipSpace s)
  let whole := s.takeWhile isDigit
  let (fraction, s) := scanFraction (s.dropWhile isDigit)
  if whole = [] ∧ fraction = [] then none
  else
    (scanExponent s).map fun (exponent, s) =>
      ((if negative then -1 else 1) *
        (digitsValue whole + digitsValue fraction / 10 ^ fraction.length) * 10 ^ exponent, s)

def scanDecimals : ℕ → List Char → Option (List ℚ)
  | 0, _ => some []
  | count + 1, s => do
      let (q, s) ← scanDecimal s
      let qs ← scanDecimals count s
      return q :: qs

/-! ## What was printed is scanned -/

theorem digitChar_facts {d : ℕ} (hd : d < 10) :
    isDigit (Nat.digitChar d) = true ∧ digitValue (Nat.digitChar d) = d := by
  have hall : ∀ d < 10, isDigit (Nat.digitChar d) = true ∧ digitValue (Nat.digitChar d) = d := by
    decide
  exact hall d hd

theorem padded_digits (places n : ℕ) : ∀ c ∈ padded places n, isDigit c = true := by
  intro c hc
  obtain ⟨d, hd, rfl⟩ := List.mem_map.mp (List.mem_reverse.mp hc)
  apply (digitChar_facts _).1
  rcases List.mem_append.mp hd with hd | hd
  · exact Nat.digits_lt_base (by decide) hd
  · rw [List.eq_of_mem_replicate hd]
    decide

theorem digitsValue_padded (places n : ℕ) : digitsValue (padded places n) = n := by
  have hvalues : ∀ d ∈ Nat.digits 10 n ++
      List.replicate (places - (Nat.digits 10 n).length) 0,
      digitValue (Nat.digitChar d) = d := by
    intro d hd
    apply (digitChar_facts _).2
    rcases List.mem_append.mp hd with hd | hd
    · exact Nat.digits_lt_base (by decide) hd
    · rw [List.eq_of_mem_replicate hd]
      decide
  have hmap : ((Nat.digits 10 n ++ List.replicate (places - (Nat.digits 10 n).length) 0).map
      Nat.digitChar).map digitValue =
        Nat.digits 10 n ++ List.replicate (places - (Nat.digits 10 n).length) 0 := by
    rw [List.map_map]
    exact (List.map_congr_left hvalues).trans (List.map_id _)
  rw [digitsValue, padded, List.map_reverse, List.reverse_reverse, hmap,
    Nat.ofDigits_append_replicate_zero, Nat.ofDigits_digits]

theorem length_padded {places n : ℕ} (hn : n < 10 ^ places) :
    (padded places n).length = places := by
  have hlength : (Nat.digits 10 n).length ≤ places :=
    (Nat.digits_length_le_iff (by decide) n).mpr hn
  simp only [padded, List.length_reverse, List.length_map, List.length_append,
    List.length_replicate]
  omega

theorem decimal_ne_nil (n : ℕ) : decimal n ≠ [] := by
  intro hnil
  have hlength := congrArg List.length hnil
  simp only [decimal, padded, List.length_reverse, List.length_map, List.length_append,
    List.length_replicate, List.length_nil] at hlength
  omega

theorem decimal_digits (n : ℕ) : ∀ c ∈ decimal n, isDigit c = true := padded_digits 1 n

theorem digitsValue_decimal (n : ℕ) : digitsValue (decimal n) = n := digitsValue_padded 1 n

theorem isDigit_of_isSpace {c : Char} (hc : isSpace c = true) : isDigit c = false := by
  simp only [isSpace, isDigit, Bool.or_eq_true, Bool.and_eq_true, decide_eq_true_eq,
    Bool.and_eq_false_iff, decide_eq_false_iff_not] at hc ⊢
  omega

/-- The text is over, or goes on with a space. -/
def Ends (rest : List Char) : Prop := ∀ c ∈ rest.head?, isSpace c = true

theorem ends_nil : Ends [] := by
  intro c hc
  cases hc

variable {rest : List Char}

theorem takeWhile_digits {digits : List Char} (hdigits : ∀ c ∈ digits, isDigit c = true)
    (hrest : ∀ c ∈ rest.head?, isDigit c = false) :
    (digits ++ rest).takeWhile isDigit = digits ∧ (digits ++ rest).dropWhile isDigit = rest := by
  have hstop : rest.takeWhile isDigit = [] ∧ rest.dropWhile isDigit = rest := by
    cases rest with
    | nil => exact ⟨rfl, rfl⟩
    | cons c rest =>
        have hc := hrest c rfl
        exact ⟨by simp [hc], by simp [hc]⟩
  rw [List.takeWhile_append_of_pos hdigits, List.dropWhile_append_of_pos hdigits, hstop.1, hstop.2]
  exact ⟨List.append_nil digits, rfl⟩

theorem Ends.head_not_digit (h : Ends rest) : ∀ c ∈ rest.head?, isDigit c = false :=
  fun c hc => isDigit_of_isSpace (h c hc)

theorem Ends.scanExponent (h : Ends rest) : scanExponent rest = some (0, rest) := by
  unfold Foundation.scanExponent
  split
  · exact absurd (h 'e' rfl) (by decide)
  · exact absurd (h 'E' rfl) (by decide)
  · rfl

theorem Ends.scanFraction (h : Ends rest) : scanFraction rest = ([], rest) := by
  unfold Foundation.scanFraction
  split
  · exact absurd (h '.' rfl) (by decide)
  · rfl

/-- A digit is neither a space nor a sign. -/
theorem scanSign_digit {c : Char} (hc : isDigit c = true) (s : List Char) :
    scanSign (skipSpace (c :: s)) = (false, c :: s) ∧ scanSign (c :: s) = (false, c :: s) := by
  have hspace : isSpace c = false := by
    by_contra hspace
    rw [isDigit_of_isSpace (by simpa using hspace)] at hc
    cases hc
  have hsign : scanSign (c :: s) = (false, c :: s) := by
    unfold scanSign
    split
    · rename_i heq
      rw [(List.cons.inj heq).1] at hc
      exact absurd hc (by decide)
    · rename_i heq
      rw [(List.cons.inj heq).1] at hc
      exact absurd hc (by decide)
    · rfl
  exact ⟨by rw [skipSpace, List.dropWhile_cons_of_neg (by simp [hspace]), hsign], hsign⟩

/-- The sign in front of digits. -/
theorem scanSign_digits (negative : Bool) {digits : List Char} (hne : digits ≠ [])
    (hdigits : ∀ c ∈ digits, isDigit c = true) (s : List Char) :
    scanSign (skipSpace ((if negative then ['-'] else []) ++ (digits ++ s))) =
      (negative, digits ++ s) := by
  cases negative with
  | true => rfl
  | false =>
      obtain ⟨c, digits, rfl⟩ := List.exists_cons_of_ne_nil hne
      exact (scanSign_digit (hdigits c List.mem_cons_self) (digits ++ s)).1

/-- A number ends before anything but a digit. -/
theorem scanInt_formatInt_of_head (n : ℤ) (hrest : ∀ c ∈ rest.head?, isDigit c = false) :
    scanInt (formatInt n ++ rest) = some (n, rest) := by
  have hformat : formatInt n ++ rest =
      (if decide (n < 0) then ['-'] else []) ++ (decimal n.natAbs ++ rest) := by
    simp [formatInt]
  have hdigits := takeWhile_digits (decimal_digits n.natAbs) hrest
  have hsign := scanSign_digits (decide (n < 0)) (decimal_ne_nil n.natAbs)
    (decimal_digits n.natAbs) rest
  simp only [scanInt, scanSigned, hformat, hsign]
  rw [hdigits.1, hdigits.2, if_neg (decimal_ne_nil n.natAbs), digitsValue_decimal]
  by_cases hn : n < 0
  · have habs : -1 * (n.natAbs : ℤ) = n := by omega
    simp only [hn, decide_true, if_true, habs]
  · have habs : 1 * (n.natAbs : ℤ) = n := by omega
    simp only [hn, decide_false, Bool.false_eq_true, if_false, habs]

theorem scanInt_formatInt (n : ℤ) (hrest : Ends rest) :
    scanInt (formatInt n ++ rest) = some (n, rest) :=
  scanInt_formatInt_of_head n hrest.head_not_digit

/-- The digits after the point, and what they stand for. -/
theorem scanFraction_padded (places n : ℕ) (hrest : Ends rest) :
    ∃ fraction, scanFraction ((if places = 0 then [] else '.' :: padded places (n % 10 ^ places)) ++
        rest) = (fraction, rest) ∧
      (digitsValue fraction : ℚ) / 10 ^ fraction.length = (n % 10 ^ places : ℕ) / 10 ^ places := by
  by_cases hplaces : places = 0
  · subst hplaces
    refine ⟨[], by simpa using hrest.scanFraction, ?_⟩
    simp [digitsValue, Nat.mod_one]
  · have hdigits := takeWhile_digits (padded_digits places (n % 10 ^ places)) hrest.head_not_digit
    refine ⟨padded places (n % 10 ^ places), ?_, ?_⟩
    · rw [if_neg hplaces, List.cons_append, scanFraction, hdigits.1, hdigits.2]
    · rw [digitsValue_padded, length_padded (Nat.mod_lt _ (Nat.pow_pos (by decide)))]

theorem scanDecimal_formatFixed (places : ℕ) (q : ℚ) (hrest : Ends rest) :
    scanDecimal (formatFixed places q ++ rest) = some (roundTo places q, rest) := by
  set n := scaled places q with hn
  obtain ⟨fraction, hfraction, hvalue⟩ := scanFraction_padded places n hrest
  set tail := (if places = 0 then [] else '.' :: padded places (n % 10 ^ places)) ++ rest with htail
  have hformat : formatFixed places q ++ rest =
      (if decide (q < 0) then ['-'] else []) ++ (decimal (n / 10 ^ places) ++ tail) := by
    simp [formatFixed, ← hn, htail]
  have hpoint : ∀ c ∈ tail.head?, isDigit c = false := by
    rw [htail]
    split_ifs with hplaces
    · exact hrest.head_not_digit
    · intro c hc
      rw [← Option.some.inj hc]
      decide
  have hsign := scanSign_digits (decide (q < 0)) (decimal_ne_nil (n / 10 ^ places))
    (decimal_digits _) tail
  have hwhole := takeWhile_digits (decimal_digits (n / 10 ^ places)) hpoint
  have hparts : ((n / 10 ^ places : ℕ) : ℚ) + (n % 10 ^ places : ℕ) / 10 ^ places =
      n / 10 ^ places := by
    have hpow : (10 : ℚ) ^ places ≠ 0 := by positivity
    have hdiv : ((10 ^ places * (n / 10 ^ places) + n % 10 ^ places : ℕ) : ℚ) = n := by
      rw [Nat.div_add_mod]
    push_cast at hdiv
    rw [eq_div_iff hpow, add_mul, div_mul_cancel₀ _ hpow, ← hdiv]
    ring
  rw [hformat, scanDecimal, hsign]
  simp only [hwhole, hfraction, hrest.scanExponent, decimal_ne_nil, false_and, if_false,
    Option.map_some, hvalue, digitsValue_decimal, zpow_zero, mul_one, hparts, roundTo, ← hn,
    decide_eq_true_eq]

/-! ## Rounding -/

theorem roundHalfEven_eq {x : ℚ} {n : ℤ} (hx : |x - n| < 1 / 2) : roundHalfEven x = n := by
  obtain ⟨hlow, hhigh⟩ := abs_lt.mp hx
  unfold roundHalfEven
  by_cases hn : (n : ℚ) ≤ x
  · have hfloor : ⌊x⌋ = n := Int.floor_eq_iff.mpr ⟨hn, by linarith⟩
    rw [hfloor, if_pos (by linarith)]
  · have hfloor : ⌊x⌋ = n - 1 :=
      Int.floor_eq_iff.mpr ⟨by push_cast; linarith, by push_cast; linarith⟩
    rw [hfloor, if_neg (by push_cast; linarith), if_pos (by push_cast; linarith)]
    omega

theorem roundHalfEven_le_ceil (x : ℚ) : roundHalfEven x ≤ ⌊x⌋ + 1 := by
  unfold roundHalfEven
  split_ifs <;> omega

/-- A number close to one with so many places is rounded to that. -/
theorem roundTo_eq {places : ℕ} {q : ℚ} {k : ℤ} (hk : |q * 10 ^ places - k| < 1 / 2) :
    roundTo places q = k / 10 ^ places := by
  have hpow : (0 : ℚ) < 10 ^ places := by positivity
  obtain ⟨hlow, hhigh⟩ := abs_lt.mp hk
  by_cases hq : q < 0
  · have hneg : |q| * 10 ^ places = -(q * 10 ^ places) := by rw [abs_of_neg hq]; ring
    have hround : roundHalfEven (|q| * 10 ^ places) = -k := by
      apply roundHalfEven_eq
      rw [hneg, abs_lt]
      push_cast
      constructor <;> linarith
    have hscaled : q * 10 ^ places < 0 := mul_neg_of_neg_of_pos hq hpow
    have hknonneg : 0 ≤ -k := by
      have hlt : (k : ℚ) < 1 := by linarith
      have : k < 1 := by exact_mod_cast hlt
      omega
    have hcast : ((scaled places q : ℕ) : ℚ) = -k := by
      rw [scaled, hround]
      exact_mod_cast Int.toNat_of_nonneg hknonneg
    rw [roundTo, if_pos hq, hcast]
    ring
  · have hq : 0 ≤ q := not_lt.mp hq
    have hround : roundHalfEven (|q| * 10 ^ places) = k := by
      rw [abs_of_nonneg hq]
      exact roundHalfEven_eq hk
    have hscaled : 0 ≤ q * 10 ^ places := mul_nonneg hq hpow.le
    have hknonneg : 0 ≤ k := by
      have hlt : (-1 : ℚ) < k := by linarith
      have : -1 < k := by exact_mod_cast hlt
      omega
    have hcast : ((scaled places q : ℕ) : ℚ) = k := by
      rw [scaled, hround]
      exact_mod_cast Int.toNat_of_nonneg hknonneg
    rw [roundTo, if_neg (not_lt.mpr hq), hcast, one_mul]

theorem roundTo_zero_intCast (n : ℤ) : roundTo 0 n = n := by
  rw [roundTo_eq (k := n) (by norm_num)]
  simp

theorem exists_roundTo (places : ℕ) (q : ℚ) : ∃ k : ℤ, roundTo places q = k / 10 ^ places := by
  by_cases hq : q < 0
  · exact ⟨-scaled places q, by rw [roundTo, if_pos hq]; push_cast; ring⟩
  · exact ⟨scaled places q, by rw [roundTo, if_neg hq, one_mul]; push_cast; rfl⟩

theorem formatFixed_zero {q : ℚ} (hq : 0 ≤ q) : formatFixed 0 q = decimal (scaled 0 q) := by
  simp [formatFixed, not_lt.mpr hq]

theorem roundTo_zero {q : ℚ} (hq : 0 ≤ q) : roundTo 0 q = scaled 0 q := by
  simp [roundTo, not_lt.mpr hq]

theorem scaled_le {places : ℕ} {q : ℚ} {bound : ℕ} (hq : |q| ≤ bound) :
    scaled places q ≤ bound * 10 ^ places + 1 := by
  have hround := roundHalfEven_le_ceil (|q| * 10 ^ places)
  have hfloor : ⌊|q| * 10 ^ places⌋ ≤ bound * 10 ^ places := by
    apply Int.floor_le_iff.mpr
    push_cast
    linarith [mul_le_mul_of_nonneg_right hq (show (0 : ℚ) ≤ 10 ^ places by positivity)]
  rw [scaled]
  apply Int.toNat_le.mpr
  push_cast
  omega

/-! ## The characters of a number -/

def isNumeral (c : Char) : Bool := isDigit c || c = '-' || c = '.'

theorem decimal_numeral (n : ℕ) : ∀ c ∈ decimal n, isNumeral c = true := by
  intro c hc
  simp [isNumeral, decimal_digits n c hc]

theorem formatInt_numeral (n : ℤ) : ∀ c ∈ formatInt n, isNumeral c = true := by
  intro c hc
  rcases List.mem_append.mp hc with hc | hc
  · split_ifs at hc
    · rw [List.mem_singleton.mp hc]
      decide
    · exact absurd hc List.not_mem_nil
  · exact decimal_numeral _ c hc

theorem formatFixed_numeral (places : ℕ) (q : ℚ) :
    ∀ c ∈ formatFixed places q, isNumeral c = true := by
  intro c hc
  rcases List.mem_append.mp hc with hc | hc
  · rcases List.mem_append.mp hc with hc | hc
    · split_ifs at hc
      · rw [List.mem_singleton.mp hc]
        decide
      · exact absurd hc List.not_mem_nil
    · exact decimal_numeral _ c hc
  · split_ifs at hc
    · exact absurd hc List.not_mem_nil
    · rcases List.mem_cons.mp hc with rfl | hc
      · decide
      · simp [isNumeral, padded_digits _ _ c hc]

theorem length_decimal_le {n places : ℕ} (hplaces : 0 < places) (hn : n < 10 ^ places) :
    (decimal n).length ≤ places := by
  have hlength : (Nat.digits 10 n).length ≤ places :=
    (Nat.digits_length_le_iff (by decide) n).mpr hn
  simp only [decimal, padded, List.length_reverse, List.length_map, List.length_append,
    List.length_replicate]
  omega

theorem length_formatInt_le {n : ℤ} {places : ℕ} (hplaces : 0 < places)
    (hn : n.natAbs < 10 ^ places) :
    (formatInt n).length ≤ places + 1 := by
  have hlength := length_decimal_le hplaces hn
  rw [formatInt, List.length_append]
  split_ifs <;> simp only [List.length_cons, List.length_nil] <;> omega

theorem length_formatFixed_le {places wholes : ℕ} {q : ℚ} {bound : ℕ} (hwholes : 0 < wholes)
    (hq : |q| ≤ bound) (hbound : bound + 1 < 10 ^ wholes) :
    (formatFixed places q).length ≤ wholes + places + 2 := by
  have hpow : 0 < 10 ^ places := Nat.pow_pos (by decide)
  have hdiv : scaled places q / 10 ^ places < 10 ^ wholes := by
    calc scaled places q / 10 ^ places
        ≤ (bound + 1) * 10 ^ places / 10 ^ places := by
          apply Nat.div_le_div_right
          have hscaled : scaled places q ≤ bound * 10 ^ places + 1 := scaled_le hq
          linarith [Nat.succ_le_of_lt hpow]
      _ = bound + 1 := Nat.mul_div_cancel _ hpow
      _ < 10 ^ wholes := hbound
  have hwhole := length_decimal_le hwholes hdiv
  have hfraction := length_padded (Nat.mod_lt (scaled places q) hpow)
  simp only [formatFixed, List.length_append]
  split_ifs <;> simp only [List.length_cons, List.length_nil, hfraction] <;> omega

theorem digitsValue_append (first last : List Char) :
    digitsValue (first ++ last) = digitsValue first * 10 ^ last.length + digitsValue last := by
  rw [digitsValue, List.map_append, List.reverse_append, Nat.ofDigits_append, List.length_reverse,
    List.length_map, digitsValue, digitsValue]
  ring

/-- A number that is cut short is at most a tenth. -/
theorem digitsValue_shorter {n : ℕ} {cut : List Char} (hcut : cut <+: decimal n)
    (hproper : cut ≠ decimal n) : 10 * digitsValue cut ≤ n := by
  obtain ⟨more, hmore⟩ := hcut
  have hne : more ≠ [] := by
    rintro rfl
    exact hproper (by rw [← hmore, List.append_nil])
  have hvalue : digitsValue cut * 10 ^ more.length + digitsValue more = n := by
    rw [← digitsValue_append, hmore, digitsValue_decimal]
  have hten : 10 ≤ 10 ^ more.length :=
    Nat.le_self_pow (Nat.ne_of_gt (List.length_pos_of_ne_nil hne)) 10
  calc 10 * digitsValue cut = digitsValue cut * 10 := Nat.mul_comm _ _
    _ ≤ digitsValue cut * 10 ^ more.length := Nat.mul_le_mul_left _ hten
    _ ≤ n := by omega

/-! ## Several numbers -/

theorem scanDecimal_space (s : List Char) : scanDecimal (' ' :: s) = scanDecimal s := rfl

theorem scanDecimal_digits {digits : List Char} (hne : digits ≠ [])
    (hdigits : ∀ c ∈ digits, isDigit c = true) (hrest : Ends rest) :
    scanDecimal (digits ++ rest) = some (↑(digitsValue digits), rest) := by
  have hsign := scanSign_digits false hne hdigits rest
  have hwhole := takeWhile_digits hdigits hrest.head_not_digit
  simp only [Bool.false_eq_true, if_false, List.nil_append] at hsign
  rw [scanDecimal, hsign]
  simp only [hwhole, hrest.scanFraction, hrest.scanExponent, hne, false_and, if_false,
    Option.map_some, Bool.false_eq_true]
  simp [digitsValue]

theorem scanDecimal_decimal (n : ℕ) (hrest : Ends rest) :
    scanDecimal (decimal n ++ rest) = some (↑n, rest) := by
  rw [scanDecimal_digits (decimal_ne_nil n) (decimal_digits n) hrest, digitsValue_decimal]

/-- Numbers with a space in front of each. -/
def spaced (ns : List ℕ) : List Char := ns.flatMap fun n => ' ' :: decimal n

theorem length_spaced_le {ns : List ℕ} {bound : ℕ} (h : ∀ n ∈ ns, (decimal n).length ≤ bound) :
    (spaced ns).length ≤ ns.length * (bound + 1) := by
  induction ns with
  | nil => simp [spaced]
  | cons n ns ih =>
      have hn := h n List.mem_cons_self
      have hns := ih fun m hm => h m (List.mem_cons_of_mem _ hm)
      have hlength : (spaced (n :: ns)).length = (decimal n).length + 1 + (spaced ns).length := by
        rw [spaced, List.flatMap_cons, List.length_append, List.length_cons]
        rfl
      rw [hlength, List.length_cons, Nat.add_mul]
      omega

theorem spaced_chars {ns : List ℕ} {c : Char} (hc : c ∈ spaced ns) :
    c = ' ' ∨ isNumeral c = true := by
  obtain ⟨n, _, hc⟩ := List.mem_flatMap.mp hc
  exact (List.mem_cons.mp hc).imp_right (decimal_numeral n c)

theorem ends_spaced (ns : List ℕ) (hrest : Ends rest) : Ends (spaced ns ++ rest) := by
  cases ns with
  | nil => exact hrest
  | cons n ns =>
      intro c hc
      rw [← Option.some.inj hc]
      decide

theorem scanDecimals_succ {count : ℕ} {s : List Char} {q : ℚ} (h : scanDecimal s = some (q, rest)) :
    scanDecimals (count + 1) s = (scanDecimals count rest).map fun qs => q :: qs := by
  rw [scanDecimals, h]
  cases hqs : scanDecimals count rest <;> simp [hqs]

theorem scanDecimals_spaced (ns : List ℕ) (hrest : Ends rest) :
    scanDecimals ns.length (spaced ns ++ rest) = some (ns.map fun n : ℕ => (n : ℚ)) := by
  induction ns with
  | nil => rfl
  | cons n ns ih =>
      have hhead : spaced (n :: ns) ++ rest = ' ' :: (decimal n ++ (spaced ns ++ rest)) := by
        simp [spaced]
      have hscan := scanDecimal_decimal n (ends_spaced ns hrest)
      rw [hhead, List.length_cons, scanDecimals_succ ((scanDecimal_space _).trans hscan), ih]
      rfl

theorem Ends.of_cut {ns : List ℕ} {cut more : List Char} (h : spaced ns = cut ++ more) :
    Ends cut := by
  intro c hc
  cases cut with
  | nil => cases hc
  | cons d cut =>
      cases ns with
      | nil => cases h
      | cons n ns =>
          rw [← Option.some.inj hc, ← (List.cons.inj h).1]
          decide

theorem scanDecimals_nil {count : ℕ} {qs : List ℚ} (h : scanDecimals count [] = some qs) :
    count = 0 ∧ qs = [] := by
  cases count with
  | zero => exact ⟨rfl, (Option.some.inj h).symm⟩
  | succ count => cases h

/-- Digits of a number that are not all of them. -/
theorem digitsValue_cut {n : ℕ} {cut last : List Char} (hcut : cut ≠ []) (hlast : last ≠ [])
    (h : decimal n = cut ++ last) : 0 < n ∧ 10 * digitsValue cut ≤ n := by
  constructor
  · by_contra hsmall
    have hshort := length_decimal_le one_pos (show n < 10 ^ 1 by omega)
    have hlength := congrArg List.length h
    have hcut := List.length_pos_of_ne_nil hcut
    have hlast := List.length_pos_of_ne_nil hlast
    rw [List.length_append] at hlength
    omega
  · apply digitsValue_shorter ⟨last, h.symm⟩
    intro heq
    rw [← heq] at h
    exact hlast (List.self_eq_append_right.mp h)

/-- The numbers of a text that is cut short: they are whole, and the last is at most a
tenth. -/
theorem scanDecimals_cut {ns : List ℕ} {cut : List Char} {qs : List ℚ} (hcut : cut <+: spaced ns)
    (hproper : cut ≠ spaced ns) (hqs : scanDecimals ns.length cut = some qs) :
    ∃ before d n, ns = before ++ [n] ∧ 0 < n ∧ 10 * d ≤ n ∧
      qs = (before ++ [d]).map fun n : ℕ => (n : ℚ) := by
  induction ns generalizing cut qs with
  | nil => exact absurd (List.prefix_nil.mp hcut) hproper
  | cons n ns ih =>
      have hspaced : spaced (n :: ns) = ' ' :: (decimal n ++ spaced ns) := by simp [spaced]
      rw [hspaced] at hcut hproper
      cases cut with
      | nil => exact absurd (scanDecimals_nil hqs).1 (Nat.succ_ne_zero _)
      | cons c cut =>
          obtain ⟨more, heq⟩ := hcut
          rw [List.cons_append] at heq
          obtain ⟨rfl, hmore⟩ := List.cons.inj heq
          by_cases hinside : ∃ last, decimal n = cut ++ last ∧ last ≠ []
          · -- The text ends inside the first number.
            obtain ⟨last, hlast, hne⟩ := hinside
            by_cases hnil : cut = []
            · rw [hnil] at hqs
              cases hqs
            · have hdigits : ∀ c ∈ cut, isDigit c = true := fun c hc =>
                decimal_digits n c (hlast ▸ List.mem_append_left _ hc)
              have hscan := scanDecimal_digits hnil hdigits ends_nil
              rw [List.append_nil] at hscan
              rw [List.length_cons, scanDecimals_succ ((scanDecimal_space _).trans hscan)] at hqs
              obtain ⟨qs', hqs', rfl⟩ := Option.map_eq_some_iff.mp hqs
              obtain ⟨hlength, rfl⟩ := scanDecimals_nil hqs'
              obtain ⟨hpos, hle⟩ := digitsValue_cut hnil hne hlast
              rw [List.length_eq_zero_iff.mp hlength]
              exact ⟨[], digitsValue cut, n, rfl, hpos, hle, rfl⟩
          · obtain ⟨rest, hcut, hrest⟩ : ∃ rest, cut = decimal n ++ rest ∧
                spaced ns = rest ++ more := by
              rcases List.append_eq_append_iff.mp hmore with ⟨last, hlast, hmore⟩ | hsplit
              · have hnil : last = [] := by
                  by_contra hne
                  exact hinside ⟨last, hlast, hne⟩
                subst hnil
                exact ⟨[], by rw [hlast, List.append_nil, List.append_nil], hmore.symm⟩
              · exact hsplit
            have hscan := scanDecimal_decimal n (Ends.of_cut hrest)
            rw [hcut, List.length_cons,
              scanDecimals_succ ((scanDecimal_space _).trans hscan)] at hqs
            obtain ⟨qs', hqs', rfl⟩ := Option.map_eq_some_iff.mp hqs
            obtain ⟨before, d, m, rfl, hpos, hle, rfl⟩ := ih ⟨more, hrest.symm⟩
              (fun hall => hproper (by rw [hcut, hall])) hqs'
            exact ⟨n :: before, d, m, rfl, hpos, hle, rfl⟩

end AdaptiveSignal.Foundation
