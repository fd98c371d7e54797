import AccelProfile.Json.Scan
import AccelProfile.Proofs.ShortestDecimal

/-!
# Texts of numbers read back

A number is written as digits, a point with more digits behind it, and an exponent, where
the last two can be missing. However a style lays out the digits of a decimal, the text is
of this form and stands for the same number. The readers of this form take the digits as
far as they go; so a text reads back, whatever follows it that is not part of a number.

With the shortest decimal of a double in between, both the texts of a document and those of
a table read back to the very double that they were made from.
-/

namespace AccelProfile

open Double Float.Model

namespace Decimal

/-- Either sign is the sign of a number that is or is not negative. -/
theorem exists_signOf (sign : UnpackedFloat.Sign) : ∃ negative, sign = signOf negative := by
  cases sign with
  | positive => exact ⟨false, rfl⟩
  | negative => exact ⟨true, rfl⟩

/-- A text does not start with a digit. -/
def NoDigit (text : List Char) : Prop :=
  ∀ c, text.head? = some c → c.isDigit = false

theorem takeWhile_digits {digits rest : List Char} (all : ∀ c ∈ digits, c.isDigit = true)
    (ends : NoDigit rest) : (digits ++ rest).takeWhile Char.isDigit = digits := by
  rw [List.takeWhile_append_of_pos all]
  cases rest with
  | nil => simp
  | cons c rest => simp [ends c rfl]

theorem dropWhile_digits {digits rest : List Char} (all : ∀ c ∈ digits, c.isDigit = true)
    (ends : NoDigit rest) : (digits ++ rest).dropWhile Char.isDigit = rest := by
  rw [List.dropWhile_append_of_pos all]
  cases rest with
  | nil => rfl
  | cons c rest => simp [ends c rfl]

theorem isDigit_of_mem_toDigits {n : Nat} {c : Char} (inside : c ∈ Nat.toDigits 10 n) :
    c.isDigit = true :=
  Nat.isDigit_of_mem_toDigits (by decide) (by decide) inside

/-- The digits of a positive number do not start with a zero. -/
theorem head?_toDigits {n : Nat} (positive : 0 < n) : (Nat.toDigits 10 n).head? ≠ some '0' := by
  induction n using Nat.strongRecOn with
  | ind n ih =>
    by_cases small : n < 10
    · have single : ∀ n < 10, 0 < n → [n.digitChar].head? ≠ some '0' := by decide
      rw [Nat.toDigits_of_lt_base small]
      exact single n small positive
    · rw [Nat.toDigits_of_base_le (by decide) (by omega),
        List.head?_append_of_ne_nil _ Nat.toDigits_ne_nil]
      exact ih (n / 10) (by omega) (by omega)

/-- A number as it is written: the digits in front of the point, those behind it, and the
exponent. -/
structure Spelling where
  whole : List Char
  /-- No digits here means that there is no point. -/
  places : List Char
  power : Option Int

namespace Spelling

/-- The text of an exponent. -/
def powerText : Option Int → List Char
  | none => []
  | some power => 'e' :: (if power < 0 then '-' else '+') :: Nat.toDigits 10 power.natAbs

/-- The text of the digits behind the point. -/
def placesText : List Char → List Char
  | [] => []
  | places => '.' :: places

/-- The text. -/
def text (spelling : Spelling) : List Char :=
  spelling.whole ++ (placesText spelling.places ++ powerText spelling.power)

/-- The number that it stands for. -/
def number (spelling : Spelling) : Scaled :=
  ⟨Nat.ofDigitChars 10 (spelling.whole ++ spelling.places) 0,
    spelling.power.getD 0 - spelling.places.length⟩

/-- Whether all digits are digits and a leading zero stands alone. -/
structure Valid (spelling : Spelling) : Prop where
  nonempty : spelling.whole ≠ []
  wholeDigits : ∀ c ∈ spelling.whole, c.isDigit = true
  placesDigits : ∀ c ∈ spelling.places, c.isDigit = true
  leading : spelling.whole.head? = some '0' → spelling.whole = ['0']

/-- A text is made of digits, points, signs and marks of an exponent. -/
theorem mem_text {spelling : Spelling} (valid : spelling.Valid) {c : Char}
    (inside : c ∈ spelling.text) : c.isDigit = true ∨ c ∈ ['.', 'e', '-', '+'] := by
  rcases List.mem_append.1 inside with whole | behind
  · exact .inl (valid.wholeDigits c whole)
  rcases List.mem_append.1 behind with places | power
  · cases digits : spelling.places with
    | nil => simp [placesText, digits] at places
    | cons first others =>
      have isPlaces : placesText spelling.places = '.' :: spelling.places := by
        rw [digits]
        rfl
      rw [isPlaces] at places
      rcases List.mem_cons.1 places with rfl | digit
      · exact .inr (by decide)
      · exact .inl (valid.placesDigits c digit)
  · cases isPower : spelling.power with
    | none => simp [powerText, isPower] at power
    | some exponent =>
      rw [isPower, powerText] at power
      rcases List.mem_cons.1 power with rfl | power
      · exact .inr (by decide)
      rcases List.mem_cons.1 power with rfl | digit
      · right
        split <;> decide
      · exact .inl (isDigit_of_mem_toDigits digit)

/-- A text does not go on with anything that could be part of a number. -/
def Ends (rest : List Char) : Prop :=
  ∀ c, rest.head? = some c → c ∉ ['.', 'e', 'E'] ∧ c.isDigit = false

theorem Ends.noDigit {rest : List Char} (ends : Ends rest) : NoDigit rest :=
  fun c first => (ends c first).2

/-- Behind the digits, neither a digit nor a point follows. -/
theorem head?_powerText {power : Option Int} {rest : List Char} (ends : Ends rest) {c : Char}
    (first : (powerText power ++ rest).head? = some c) : c ≠ '.' ∧ c.isDigit = false := by
  cases power with
  | none =>
    obtain ⟨noMark, noDigit⟩ := ends c first
    refine ⟨?_, noDigit⟩
    rintro rfl
    exact noMark (by decide)
  | some power =>
    cases first
    decide

theorem noDigit_placesText {places : List Char} {rest : List Char} (ends : NoDigit rest) :
    NoDigit (placesText places ++ rest) := by
  cases places with
  | nil => exact ends
  | cons first others =>
    intro c isFirst
    cases isFirst
    rfl

/-- The exponent that is read is the one that was written. -/
theorem exponent_powerText (power : Option Int) {rest : List Char} (ends : Ends rest) :
    Scan.exponent (powerText power ++ rest) = some (power, rest) := by
  cases power with
  | none =>
    rw [powerText, List.nil_append, Scan.exponent.eq_def]
    split
    · next found => exact absurd (by decide) (ends 'e' rfl).1
    · next found => exact absurd (by decide) (ends 'E' rfl).1
    · rfl
  | some power =>
    have digits : ∀ c ∈ Nat.toDigits 10 power.natAbs, c.isDigit = true :=
      fun c => isDigit_of_mem_toDigits
    obtain ⟨first, others, isDigits⟩ :=
      List.exists_cons_of_ne_nil (Nat.toDigits_ne_nil (n := power.natAbs) (b := 10))
    have value : Nat.ofDigitChars 10 (Nat.toDigits 10 power.natAbs) 0 = power.natAbs :=
      Nat.ofDigitChars_ten_toDigits
    by_cases negative : power < 0
    · simp only [powerText, if_pos negative, List.cons_append, Scan.exponent,
        takeWhile_digits digits ends.noDigit, dropWhile_digits digits ends.noDigit]
      rw [isDigits] at value ⊢
      have isPower : -(power.natAbs : Int) = power := by omega
      simp only [value, if_true, isPower]
    · simp only [powerText, if_neg negative, List.cons_append, Scan.exponent,
        takeWhile_digits digits ends.noDigit, dropWhile_digits digits ends.noDigit]
      rw [isDigits] at value ⊢
      have isPower : (power.natAbs : Int) = power := by omega
      simp only [value, Bool.false_eq_true, if_false, isPower]

/-- The digits behind the point that are read are those that were written. -/
theorem fraction_placesText {places : List Char} (digits : ∀ c ∈ places, c.isDigit = true)
    {rest : List Char} (ends : ∀ c, rest.head? = some c → c ≠ '.' ∧ c.isDigit = false) :
    Scan.fraction (placesText places ++ rest) = some (places, rest) := by
  have noDigit : NoDigit rest := fun c first => (ends c first).2
  cases places with
  | nil =>
    rw [placesText, List.nil_append, Scan.fraction.eq_def]
    split
    · next found => exact absurd rfl (ends '.' rfl).1
    · rfl
  | cons first others =>
    simp only [placesText, List.cons_append, Scan.fraction]
    rw [← List.cons_append, takeWhile_digits digits noDigit, dropWhile_digits digits noDigit]

/-- A text that was written is read as its number: a whole number if it has neither a point
nor an exponent, and a double otherwise. -/
theorem magnitude_text {spelling : Spelling} (valid : spelling.Valid) (negative : Bool)
    {rest : List Char} (ends : Ends rest) :
    Scan.magnitude negative (spelling.text ++ rest) =
      some (if spelling.places = [] ∧ spelling.power = none then
          Scan.ofWhole negative (Nat.ofDigitChars 10 spelling.whole 0)
        else Scan.ofDouble (nearest negative spelling.number), rest) := by
  have behindWhole : NoDigit (placesText spelling.places ++ (powerText spelling.power ++ rest)) :=
    noDigit_placesText fun c first => (head?_powerText ends first).2
  have alone : ¬ (spelling.whole = [] ∨
      spelling.whole.head? = some '0' ∧ 1 < spelling.whole.length) := by
    rintro (empty | ⟨zero, long⟩)
    · exact valid.nonempty empty
    · rw [valid.leading zero] at long
      simp at long
  rw [Scan.magnitude, text, List.append_assoc, List.append_assoc,
    takeWhile_digits valid.wholeDigits behindWhole, dropWhile_digits valid.wholeDigits behindWhole]
  simp only [if_neg alone, fraction_placesText valid.placesDigits fun c => head?_powerText ends,
    Option.bind_eq_bind, Option.bind_some, exponent_powerText spelling.power ends]
  by_cases plain : spelling.places = [] ∧ spelling.power = none
  · rw [if_pos plain, if_pos plain]
    rfl
  · rw [if_neg plain, if_neg plain]
    rfl

/-- A text is read as its number where no sign and nothing behind it is allowed. -/
theorem readScaled?_text {spelling : Spelling} (valid : spelling.Valid) :
    readScaled? spelling.text = some spelling.number := by
  have nothing : Ends [] := fun c first => by cases first
  have noDigit : NoDigit (powerText spelling.power) := by
    rw [← List.append_nil (powerText spelling.power)]
    exact fun c first => (head?_powerText nothing first).2
  have places : takePlaces (placesText spelling.places ++ powerText spelling.power) =
      (spelling.places, powerText spelling.power) := by
    cases digits : spelling.places with
    | nil => cases power : spelling.power <;> rfl
    | cons first others =>
      have all := digits ▸ valid.placesDigits
      rw [placesText, List.cons_append, takePlaces, takeWhile_digits all noDigit,
        dropWhile_digits all noDigit]
      simp
  have power : readPower? (powerText spelling.power) = some (spelling.power.getD 0) := by
    cases isPower : spelling.power with
    | none => rfl
    | some power =>
      have digits : (Nat.toDigits 10 power.natAbs).all Char.isDigit = true :=
        List.all_eq_true.2 fun c => isDigit_of_mem_toDigits
      have value : Nat.ofDigitChars 10 (Nat.toDigits 10 power.natAbs) 0 = power.natAbs :=
        Nat.ofDigitChars_ten_toDigits
      by_cases negative : power < 0
      · simp [powerText, negative, readPower?, takeSign, digits, value, abs_of_neg negative]
      · have natural : 0 ≤ power := by omega
        simp [powerText, negative, readPower?, takeSign, digits, value, natural]
  have nonempty : spelling.whole ++ spelling.places ≠ [] := by
    simp [valid.nonempty]
  rw [readScaled?, text, takeWhile_digits valid.wholeDigits (noDigit_placesText noDigit),
    dropWhile_digits valid.wholeDigits (noDigit_placesText noDigit), places]
  simp only [if_neg nonempty, power, Option.map_some]
  rfl

/-- A spelling has this text and stands for this number. Where whole numbers are marked by
zeros behind a point, it does not look like a whole number. -/
structure Writes (spelling : Spelling) (number : Scaled) (zeros : Nat) (text : List Char) :
    Prop where
  valid : spelling.Valid
  text_eq : spelling.text = text
  value_eq : spelling.number.value = number.value
  marked : spelling.places = [] → spelling.power = none → zeros = 0

end Spelling

open Spelling

section

variable {digits : List Char} {places : Int}

/-- The number that digits stand for when the point stands behind so many of them. -/
def pointed (digits : List Char) (places : Int) : Scaled :=
  ⟨Nat.ofDigitChars 10 digits 0, places - digits.length⟩

theorem isDigit_of_mem_zeros {count : Nat} {c : Char} (inside : c ∈ List.replicate count '0') :
    c.isDigit = true := by
  rw [List.eq_of_mem_replicate inside]
  rfl

/-- The point in front of the digits, with zeros in between. -/
theorem writes_before (nonempty : digits ≠ []) (all : ∀ c ∈ digits, c.isDigit = true)
    (before : places ≤ 0) (zeros : Nat) :
    Writes ⟨['0'], List.replicate (-places).toNat '0' ++ digits, none⟩ (pointed digits places) zeros
      ('0' :: '.' :: (List.replicate (-places).toNat '0' ++ digits)) where
  valid := by
    refine ⟨by simp, by simp, ?_, fun _ => rfl⟩
    intro c inside
    exact (List.mem_append.1 inside).elim isDigit_of_mem_zeros (all c)
  text_eq := by
    obtain ⟨first, others, isCons⟩ := List.exists_cons_of_ne_nil
      (List.append_ne_nil_of_right_ne_nil (List.replicate (-places).toNat '0') nonempty)
    simp [Spelling.text, isCons, placesText, powerText]
  value_eq := by
    have coefficient : Nat.ofDigitChars 10
        (['0'] ++ (List.replicate (-places).toNat '0' ++ digits)) 0 =
        Nat.ofDigitChars 10 digits 0 := by
      rw [Nat.ofDigitChars_append, Nat.ofDigitChars_append, Nat.ofDigitChars_replicate_zero]
      rfl
    have power : (none : Option Int).getD 0 -
        ((List.replicate (-places).toNat '0' ++ digits).length : Int) =
        places - digits.length := by
      rw [List.length_append, List.length_replicate, Option.getD_none]
      omega
    simp only [Spelling.number, coefficient, power, pointed]
  marked := by
    intro none
    simp [nonempty] at none

/-- The point behind the digits, with zeros in between and behind the point. -/
theorem writes_after (nonempty : digits ≠ []) (all : ∀ c ∈ digits, c.isDigit = true)
    (noZero : digits.head? ≠ some '0') {filled : Nat} (after : places = digits.length + filled)
    (zeros : Nat) :
    Writes ⟨digits ++ List.replicate filled '0', List.replicate zeros '0', none⟩
      (pointed digits places) zeros
      (digits ++ List.replicate filled '0' ++ placesText (List.replicate zeros '0')) where
  valid := by
    refine ⟨by simp [nonempty], ?_, fun c => isDigit_of_mem_zeros, ?_⟩
    · intro c inside
      exact (List.mem_append.1 inside).elim (all c) isDigit_of_mem_zeros
    · intro leading
      rw [List.head?_append_of_ne_nil _ nonempty] at leading
      exact absurd leading noZero
  text_eq := by simp [Spelling.text, powerText]
  value_eq := by
    have power : places - digits.length = (filled : Int) := by omega
    simp only [Spelling.number, Scaled.value, pointed, power, Nat.ofDigitChars_append,
      Nat.ofDigitChars_replicate_zero, List.length_replicate, Option.getD_none, zero_sub,
      Nat.cast_mul, Nat.cast_pow, Nat.cast_ofNat, zpow_natCast, zpow_neg]
    field_simp
  marked := by simp

/-- The point among the digits. -/
theorem writes_among (all : ∀ c ∈ digits, c.isDigit = true)
    (noZero : digits.head? ≠ some '0') (positive : 0 < places) (inner : places < digits.length)
    (zeros : Nat) :
    Writes ⟨digits.take places.toNat, digits.drop places.toNat, none⟩ (pointed digits places) zeros
      (digits.take places.toNat ++ '.' :: digits.drop places.toNat) where
  valid := by
    refine ⟨?_, fun c inside => all c (List.mem_of_mem_take inside),
      fun c inside => all c (List.mem_of_mem_drop inside), ?_⟩
    · rw [ne_eq, List.take_eq_nil_iff]
      rintro (none | empty)
      · omega
      · rw [empty, List.length_nil] at inner
        omega
    · intro leading
      rw [List.head?_take, if_neg (by omega)] at leading
      exact absurd leading noZero
  text_eq := by
    obtain ⟨first, others, isCons⟩ : ∃ first others, digits.drop places.toNat = first :: others :=
      List.exists_cons_of_ne_nil (by simp; omega)
    simp [Spelling.text, isCons, placesText, powerText]
  value_eq := by
    have power : (none : Option Int).getD 0 - ((digits.drop places.toNat).length : Int) =
        places - digits.length := by
      rw [List.length_drop, Option.getD_none]
      omega
    simp only [Spelling.number, List.take_append_drop, power, pointed]
  marked := by
    intro none
    rw [List.drop_eq_nil_iff] at none
    omega

/-- A point placed by the number of digits in front of it. -/
theorem writes_placePoint (nonempty : digits ≠ []) (all : ∀ c ∈ digits, c.isDigit = true)
    (noZero : digits.head? ≠ some '0') (places : Int) (zeros : Nat) :
    ∃ spelling : Spelling, spelling.Writes (pointed digits places) zeros
      (placePoint digits places (placesText (List.replicate zeros '0'))) := by
  rw [placePoint]
  split
  · next before => exact ⟨_, writes_before nonempty all before zeros⟩
  · next positive =>
    split
    · next after => exact ⟨_, writes_after nonempty all noZero (by omega) zeros⟩
    · next inner => exact ⟨_, writes_among all noZero (by omega) (by omega) zeros⟩

/-- The point behind the first digit, and an exponent. -/
theorem writes_withExponent (nonempty : digits ≠ []) (all : ∀ c ∈ digits, c.isDigit = true)
    (noZero : digits.head? ≠ some '0') (places : Int) (zeros : Nat) :
    ∃ spelling : Spelling, spelling.Writes (pointed digits places) zeros
      (withExponent digits (places - 1)) := by
  obtain ⟨first, others, rfl⟩ := List.exists_cons_of_ne_nil nonempty
  refine ⟨⟨[first], others, some (places - 1)⟩, ⟨by simp, ?_, ?_, ?_⟩, ?_, ?_, by simp⟩
  · intro c inside
    exact all c (List.mem_cons.2 (.inl (List.mem_singleton.1 inside)))
  · exact fun c inside => all c (List.mem_cons_of_mem first inside)
  · intro leading
    exact absurd leading noZero
  · cases others <;> simp [Spelling.text, withExponent, placesText, powerText]
  · have power : places - 1 - (others.length : Int) = places - (first :: others).length := by
      rw [List.length_cons]
      omega
    simp only [Spelling.number, Option.getD_some, List.singleton_append, power, pointed]

end

/-- Whatever style it is written in, the text of a decimal spells it. -/
theorem writes_spell {style : Style} {zeros : Nat}
    (ending : style.wholeEnding = placesText (List.replicate zeros '0'))
    {number : Scaled} (positive : 0 < number.coefficient) :
    ∃ spelling : Spelling, spelling.Writes number zeros (style.spell number) := by
  have nonempty : Nat.toDigits 10 number.coefficient ≠ [] := Nat.toDigits_ne_nil
  have all : ∀ c ∈ Nat.toDigits 10 number.coefficient, c.isDigit = true :=
    fun c => isDigit_of_mem_toDigits
  have noZero := head?_toDigits positive
  have same : pointed (Nat.toDigits 10 number.coefficient)
      ((Nat.toDigits 10 number.coefficient).length + number.power) = number := by
    simp [pointed, Nat.ofDigitChars_ten_toDigits]
  rw [Style.spell, ending]
  split
  · obtain ⟨spelling, writes⟩ := writes_placePoint nonempty all noZero
      ((Nat.toDigits 10 number.coefficient).length + number.power) zeros
    rw [same] at writes
    exact ⟨spelling, writes⟩
  · obtain ⟨spelling, writes⟩ := writes_withExponent nonempty all noZero
      ((Nat.toDigits 10 number.coefficient).length + number.power) zeros
    rw [same] at writes
    exact ⟨spelling, writes⟩

/-- The text of a finite double is a sign and a spelling of digits that read as the
double. -/
theorem text_spelled (style : Style) (zeros : Nat)
    (ending : style.wholeEnding = placesText (List.replicate zeros '0')) {x : Float}
    (finite : x.isFinite = true) :
    ∃ (negative : Bool) (spelling : Spelling), spelling.Valid ∧
      style.text x = signText (signOf negative) ++ spelling.text ∧
      nearest negative spelling.number = x ∧
      (spelling.places = [] → spelling.power = none → zeros = 0) := by
  have same := ofParts_unpack x
  have isFinite : x.toModel.unpack.isFinite = true := finite
  rw [Style.text]
  cases parts : x.toModel.unpack with
  | notANumber => simp [parts, UnpackedFloat.isFinite] at isFinite
  | infinity sign => simp [parts, UnpackedFloat.isFinite] at isFinite
  | zero sign =>
    obtain ⟨negative, rfl⟩ := exists_signOf sign
    rw [parts] at same
    refine ⟨negative, ⟨['0'], List.replicate zeros '0', none⟩,
      ⟨by simp, by simp, fun c => isDigit_of_mem_zeros, fun _ => rfl⟩, ?_, ?_, by simp⟩
    · simp [Spelling.text, powerText, ending]
    · have zero : Nat.ofDigitChars 10 (['0'] ++ List.replicate zeros '0') 0 = 0 := by
        rw [Nat.ofDigitChars_append, Nat.ofDigitChars_replicate_zero]
        rfl
      rw [Spelling.number, zero, nearest_zero, same]
  | finite sign mantissa exponent positive =>
    obtain ⟨negative, rfl⟩ := exists_signOf sign
    have canonical := canonical_of_unpack parts
    have inside := contains_shortest mantissa exponent style.tie
    obtain ⟨spelling, writes⟩ := writes_spell ending (coefficient_pos_of_contains canonical inside)
    rw [parts] at same
    refine ⟨negative, spelling, writes.valid, ?_, ?_, writes.marked⟩
    · rw [writes.text_eq]
    · rw [← writes.value_eq] at inside
      rw [nearest_eq canonical inside, same]

end Decimal

namespace Scan

open Decimal Decimal.Spelling

/-- A number is read as its sign and its magnitude. -/
theorem number_signText {negative : Bool} {spelling : Spelling} (valid : spelling.Valid)
    (rest : List Char) :
    number (signText (signOf negative) ++ spelling.text ++ rest) =
      magnitude negative (spelling.text ++ rest) := by
  obtain ⟨first, others, isCons⟩ := List.exists_cons_of_ne_nil valid.nonempty
  cases negative with
  | true => rfl
  | false =>
    have digit : first.isDigit = true := valid.wholeDigits first (by simp [isCons])
    rw [signOf, if_neg (by decide), signText, List.nil_append, number.eq_def]
    split
    · next text rest same =>
      rw [Spelling.text, isCons] at same
      cases same
      exact absurd digit (by decide)
    · rfl

/-- The text of a finite double is scanned as that double. -/
theorem number_doubleText {x : Float} (finite : x.isFinite = true) {rest : List Char}
    (ends : Ends rest) : number (jsonStyle.text x ++ rest) = some (.num (.float x), rest) := by
  obtain ⟨negative, spelling, valid, text, same, marked⟩ :=
    text_spelled jsonStyle 1 rfl finite
  have isDouble : ¬ (spelling.places = [] ∧ spelling.power = none) := by
    rintro ⟨noPlaces, noPower⟩
    exact absurd (marked noPlaces noPower) (by decide)
  rw [text, number_signText valid, magnitude_text valid negative ends, if_neg isDouble, same,
    ofDouble, if_pos finite]

/-- The digits of a whole number, with no point and no exponent. -/
theorem valid_toDigits (n : Nat) : Spelling.Valid ⟨Nat.toDigits 10 n, [], none⟩ where
  nonempty := Nat.toDigits_ne_nil
  wholeDigits := fun c => isDigit_of_mem_toDigits
  placesDigits := by simp
  leading := by
    intro zero
    rcases Nat.eq_zero_or_pos n with rfl | positive
    · rfl
    · exact absurd zero (head?_toDigits positive)

/-- The text of a whole number is scanned as that number, as long as it fits the words. -/
theorem number_wholeText {value : Int} (least : -0x8000000000000000 ≤ value)
    (most : value ≤ maxWord) {rest : List Char} (ends : Ends rest) :
    number ((Number.int value).text ++ rest) = some (.num (.int value), rest) := by
  have digits : Nat.ofDigitChars 10 (Nat.toDigits 10 value.natAbs) 0 = value.natAbs :=
    Nat.ofDigitChars_ten_toDigits
  have text : (Number.int value).text =
      signText (signOf (decide (value < 0))) ++
        Spelling.text ⟨Nat.toDigits 10 value.natAbs, [], none⟩ := by
    by_cases negative : value < 0 <;>
      simp [Number.text, Spelling.text, placesText, powerText, signOf, signText, negative]
  rw [text, number_signText (valid_toDigits _), magnitude_text (valid_toDigits _) _ ends,
    if_pos ⟨rfl, rfl⟩, digits, ofWhole]
  by_cases negative : value < 0
  · have inside : ¬ (value.natAbs = 0 ∨ 0x8000000000000000 < value.natAbs) := by omega
    have same : -(value.natAbs : Int) = value := by omega
    rw [if_pos (decide_eq_true negative), if_neg inside, same]
  · have inside : ¬ maxWord < value.natAbs := by omega
    have same : (value.natAbs : Int) = value := by omega
    rw [if_neg (by simpa using negative), if_neg inside, same]

end Scan

namespace Decimal

open Spelling

theorem toLower_of_isDigit {c : Char} (digit : c.isDigit = true) : c.toLower = c := by
  simp only [Char.isDigit, Bool.and_eq_true, decide_eq_true_eq] at digit
  have noLetter : ¬ (c.val ≥ 'A'.val ∧ c.val ≤ 'Z'.val) := by
    rintro ⟨large, -⟩
    exact absurd (UInt32.le_trans large digit.2) (by decide)
  rw [Char.toLower, dif_neg noLetter]

/-- The text of a finite double in a table reads as that double. -/
theorem read?_reportText {x : Float} (finite : x.isFinite = true) :
    read? (reportStyle.text x) = some x := by
  obtain ⟨negative, spelling, valid, text, same, -⟩ :=
    text_spelled reportStyle 0 rfl finite
  obtain ⟨first, others, isCons⟩ := List.exists_cons_of_ne_nil valid.nonempty
  have digit : first.isDigit = true := valid.wholeDigits first (by simp [isCons])
  have spelled : spelling.text = first :: (others ++ (placesText spelling.places ++
      powerText spelling.power)) := by
    rw [Spelling.text, isCons, List.cons_append]
  have sign : takeSign (reportStyle.text x) = (negative, spelling.text) := by
    rw [text]
    cases negative with
    | true => rfl
    | false =>
      rw [signOf, if_neg (by decide), signText, List.nil_append, spelled, takeSign.eq_def]
      split
      · next found => cases found; exact absurd digit (by decide)
      · next found => cases found; exact absurd digit (by decide)
      · rfl
  -- a name of a value that is not finite starts with a letter
  have noName {name : List Char} (letter : name.head?.any Char.isDigit = false) :
      spelling.text.map Char.toLower ≠ name := by
    rintro rfl
    have lower : first.toLower = first := toLower_of_isDigit digit
    rw [spelled] at letter
    simp [lower, digit] at letter
  rw [read?, sign]
  simp only [readScaled?_text valid, Option.map_some, same]
  rw [if_neg, if_neg]
  · rintro (name | name)
    · exact noName (by decide) name
    · exact noName (by decide) name
  · exact noName (by decide)

end Decimal

end AccelProfile
