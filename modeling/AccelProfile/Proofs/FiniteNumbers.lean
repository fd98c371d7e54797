import AccelProfile.Proofs.LaidTexts

/-!
# What is read is finite

A double that is read from a document is finite: a number with a point or an exponent is
checked for it, and a whole number that fits the words is near enough to a double of its
own, since every whole number of at most 1023 bits lies in the span of one. So all numbers
that a scan finds read back, whatever the text.
-/

namespace AccelProfile

namespace Double

open Decimal (Span)
open Float.Model (UnpackedFloat)

/-- A number of 53 bits in front of the point, in places of a double, lies in the span of one of its
two neighbours. -/
theorem exists_contains_of_leading {number : ℚ} (exponent : Int) (lowest : -1074 ≤ exponent)
    (highest : exponent ≤ 970) (leading : 2 ^ 52 ≤ number / 2 ^ exponent)
    (fits : number / 2 ^ exponent < 2 ^ 53) :
    ∃ mantissa exponent, Canonical mantissa exponent ∧
      (Span.ofDouble mantissa exponent).Contains number := by
  obtain ⟨whole, isWhole⟩ : ∃ whole, ⌊number / 2 ^ exponent⌋₊ = whole := ⟨_, rfl⟩
  have notLess : (whole : ℚ) ≤ number / 2 ^ exponent :=
    isWhole ▸ Nat.floor_le (le_trans (by norm_num) leading)
  have notMore : number / 2 ^ exponent < whole + 1 := isWhole ▸ Nat.lt_floor_add_one _
  have wholeLeads : 2 ^ 52 ≤ whole := isWhole ▸ Nat.le_floor (by exact_mod_cast leading)
  have wholeFits : whole < 2 ^ 53 := by
    have : (whole : ℚ) < 2 ^ 53 := lt_of_le_of_lt notLess fits
    exact_mod_cast this
  by_cases down : 4 * (number / 2 ^ exponent) < 4 * whole + 2 ∨
      4 * (number / 2 ^ exponent) = 4 * whole + 2 ∧ whole % 2 = 0
  · refine ⟨whole, exponent, ⟨by omega, wholeFits, lowest, by omega, .inl wholeLeads⟩, ?_⟩
    have low : ((Span.ofDouble whole exponent).low : ℚ) < 4 * whole := by
      have : (Span.ofDouble whole exponent).low < 4 * whole := by
        simp only [Span.ofDouble]
        split <;> omega
      exact_mod_cast this
    rw [contains_ofDouble_iff]
    split
    · next even =>
      exact ⟨by linarith, by rcases down with below | ⟨half, -⟩ <;> linarith⟩
    · next odd =>
      exact ⟨by linarith, down.resolve_right fun half => odd half.2⟩
  · simp only [not_or, not_lt, not_and] at down
    obtain ⟨half, notEven⟩ := down
    by_cases carries : whole + 1 = 2 ^ 53
    · -- the upper neighbour is a power of two, with a last place twice as large
      refine ⟨2 ^ 52, exponent + 1, ⟨by decide, by decide, by omega, by omega, .inl le_rfl⟩, ?_⟩
      have low : (Span.ofDouble (2 ^ 52) (exponent + 1)).low = 2 ^ 54 - 1 := by
        simp only [Span.ofDouble]
        rw [if_pos (by omega)]
        decide
      have isWhole : (whole : ℚ) + 1 = 2 ^ 53 := by exact_mod_cast carries
      have places : number / 2 ^ (exponent + 1) = number / 2 ^ exponent / 2 := by
        rw [zpow_add_one₀ (by norm_num), div_mul_eq_div_div]
      rw [contains_ofDouble_iff, if_pos (by decide), low, places]
      push_cast
      constructor <;> linarith
    · refine ⟨whole + 1, exponent, ⟨by omega, by omega, lowest, by omega, .inl (by omega)⟩, ?_⟩
      have low : (Span.ofDouble (whole + 1) exponent).low = 4 * whole + 2 := by
        simp only [Span.ofDouble]
        rw [if_neg (by omega)]
        omega
      rw [contains_ofDouble_iff, low]
      push_cast
      split
      · exact ⟨half, by linarith⟩
      · next odd =>
        have notHalf : 4 * (number / 2 ^ exponent) ≠ 4 * whole + 2 := fun equal =>
          notEven equal (by omega)
        exact ⟨lt_of_le_of_ne half notHalf.symm, by linarith⟩

/-- Each number that is neither very small nor very large lies in the span of a double. -/
theorem exists_contains_of_normal {number : ℚ} (notTiny : 2 ^ (-1022 : Int) ≤ number)
    (notHuge : number < 2 ^ (1023 : Int)) :
    ∃ mantissa exponent, Canonical mantissa exponent ∧
      (Span.ofDouble mantissa exponent).Contains number := by
  have positive : 0 < number := lt_of_lt_of_le (zpow_pos (by norm_num) _) notTiny
  obtain ⟨power, isPower⟩ : ∃ power, Int.log 2 number = power := ⟨_, rfl⟩
  have below : (2 : ℚ) ^ power ≤ number :=
    isPower ▸ Int.zpow_log_le_self (by decide) positive
  have above : number < (2 : ℚ) ^ (power + 1) :=
    isPower ▸ Int.lt_zpow_succ_log_self (by decide) number
  have least : -1022 < power + 1 :=
    (zpow_lt_zpow_iff_right₀ (by norm_num)).1 (lt_of_le_of_lt notTiny above)
  have most : power < 1023 :=
    (zpow_lt_zpow_iff_right₀ (by norm_num)).1 (lt_of_le_of_lt below notHuge)
  have unit : (0 : ℚ) < 2 ^ (power - 52) := zpow_pos (by norm_num) _
  apply exists_contains_of_leading (power - 52) (by omega) (by omega)
  · rw [le_div_iff₀ unit, ← zpow_natCast, ← zpow_add₀ (by norm_num)]
    exact le_of_eq_of_le (congrArg _ (by omega)) below
  · rw [div_lt_iff₀ unit, ← zpow_natCast, ← zpow_add₀ (by norm_num)]
    exact lt_of_lt_of_eq above (congrArg _ (by omega))

/-- Each whole number that is not too large lies in the span of a double. -/
theorem exists_contains {n : Nat} (positive : 0 < n) (small : n.log2 < 1023) :
    ∃ mantissa exponent, Canonical mantissa exponent ∧
      (Span.ofDouble mantissa exponent).Contains (n : ℚ) := by
  apply exists_contains_of_normal
  · calc (2 : ℚ) ^ (-1022 : Int) ≤ 2 ^ (0 : Int) := zpow_le_zpow_right₀ (by norm_num) (by norm_num)
      _ ≤ n := by exact_mod_cast positive
  · have below : n < 2 ^ (n.log2 + 1) := Nat.lt_log2_self
    calc (n : ℚ) < 2 ^ (n.log2 + 1) := by exact_mod_cast below
      _ = 2 ^ ((n.log2 + 1 : Nat) : Int) := (zpow_natCast 2 _).symm
      _ ≤ 2 ^ (1023 : Int) := zpow_le_zpow_right₀ (by norm_num) (by omega)

/-- The parts of a finite double make up a finite double. -/
theorem isFinite_ofParts {sign : UnpackedFloat.Sign} {mantissa : Nat} {exponent : Int}
    (canonical : Canonical mantissa exponent) :
    (ofParts (.finite sign mantissa exponent canonical.positive)).isFinite = true := by
  change (Float.Model.pack _).unpack.isFinite = true
  rw [unpack_pack canonical.positive canonical]
  rfl

/-- The double nearest to a whole number is finite. -/
theorem isFinite_nearest {n : Nat} (small : n.log2 < 1023) (negative : Bool) :
    (Decimal.nearest negative ⟨n, 0⟩).isFinite = true := by
  rcases Nat.eq_zero_or_pos n with rfl | positive
  · rw [nearest_zero]
    cases negative <;> rfl
  · obtain ⟨mantissa, exponent, canonical, inside⟩ := exists_contains positive small
    have value : Decimal.Scaled.value ⟨n, 0⟩ = n := by simp [Decimal.Scaled.value]
    rw [← value] at inside
    rw [nearest_eq canonical inside]
    exact isFinite_ofParts canonical

/-- A whole number becomes the double nearest to it. -/
theorem ofInt_eq_nearest (value : Int) :
    Float.ofInt value = Decimal.nearest (decide (value < 0)) ⟨value.natAbs, 0⟩ := by
  cases value with
  | ofNat n =>
    have natural : ¬ Int.ofNat n < 0 := by simp
    rw [Decimal.nearest, decide_eq_false natural]
    rfl
  | negSucc n =>
    rw [Decimal.nearest, decide_eq_true (Int.negSucc_lt_zero n)]
    rfl

end Double

/-- A number that reads back is finite as a double. -/
theorem Number.isFinite_toFloat {number : Number} (readable : number.Readable) :
    number.toFloat.isFinite = true := by
  cases number with
  | float value => exact readable
  | int value =>
    obtain ⟨least, most⟩ := readable
    have small : value.natAbs < 2 ^ 64 := by
      rw [maxWord] at most
      omega
    have bits : value.natAbs.log2 < 1023 := by
      rcases Nat.eq_zero_or_pos value.natAbs with zero | positive
      · rw [zero]
        decide
      · exact Nat.lt_trans ((Nat.log2_lt (Nat.ne_of_gt positive)).2 small) (by decide)
    rw [Number.toFloat, Double.ofInt_eq_nearest]
    exact Double.isFinite_nearest bits _

namespace Scan

mutual

/-- All numbers of a scan read back. -/
def Readable : Scan → Prop
  | .num value => value.Readable
  | .arr items _ => ReadableItems items
  | .obj members _ => ReadableMembers members
  | .null | .bool _ | .str _ | .unreadable | .broken => True

/-- All numbers of the items read back. -/
def ReadableItems : List Scan → Prop
  | [] => True
  | item :: others => Readable item ∧ ReadableItems others

/-- All numbers of the members read back. -/
def ReadableMembers : List (Option String × Scan) → Prop
  | [] => True
  | (_, value) :: others => Readable value ∧ ReadableMembers others

end

theorem readable_ofDouble (value : Float) : (ofDouble value).Readable := by
  rw [ofDouble]
  split
  · next finite => exact finite
  · trivial

theorem readable_ofWhole (negative : Bool) (magnitude : Nat) :
    (ofWhole negative magnitude).Readable := by
  rw [ofWhole]
  split
  · split
    · exact readable_ofDouble _
    · next inside =>
      refine ⟨by omega, ?_⟩
      rw [maxWord]
      omega
  · split
    · exact readable_ofDouble _
    · next inside => exact ⟨by omega, by omega⟩

theorem readable_number {text behind : List Char} {found : Scan}
    (isNumber : number text = some (found, behind)) : found.Readable := by
  have ofMagnitude {negative : Bool} {digits : List Char}
      (isMagnitude : magnitude negative digits = some (found, behind)) : found.Readable := by
    simp only [magnitude, Option.bind_eq_bind] at isMagnitude
    split at isMagnitude
    · cases isMagnitude
    · obtain ⟨⟨places, rest⟩, -, isMagnitude⟩ := Option.bind_eq_some_iff.1 isMagnitude
      obtain ⟨⟨power, rest⟩, -, isMagnitude⟩ := Option.bind_eq_some_iff.1 isMagnitude
      split at isMagnitude <;> cases isMagnitude
      · exact readable_ofWhole _ _
      · exact readable_ofDouble _
  rw [number.eq_def] at isNumber
  split at isNumber
  · exact ofMagnitude isNumber
  · exact ofMagnitude isNumber

/-- A literal is read as its value or not at all. -/
theorem readable_literal (value : Scan) (readable : value.Readable) (rest text : List Char) :
    (literal rest value text).1.Readable := by
  rw [literal]
  split
  · exact readable
  · trivial

/-- All numbers that a scan finds read back, however far it gets. -/
theorem readable_scan (fuel : Nat) :
    (∀ text, (value fuel text).1.Readable) ∧ (∀ text, ReadableItems (items fuel text).1) ∧
      ∀ text, ReadableMembers (members fuel text).1 := by
  induction fuel with
  | zero => exact ⟨fun _ => trivial, fun _ => trivial, fun _ => trivial⟩
  | succ fuel ih =>
    obtain ⟨ofValue, ofItems, ofMembers⟩ := ih
    refine ⟨?_, ?_, ?_⟩
    · intro text
      rw [value.eq_def]
      dsimp only
      split
      · exact readable_literal .null trivial _ _
      · exact readable_literal (.bool true) trivial _ _
      · exact readable_literal (.bool false) trivial _ _
      · split <;> trivial
      · split
        · trivial
        · exact ofItems _
      · split
        · trivial
        · exact ofMembers _
      · split
        · next isNumber => exact readable_number isNumber
        · trivial
    · intro text
      have ofItem := ofValue text
      rw [items.eq_def]
      dsimp only
      split
      · next found =>
        rw [found] at ofItem
        exact ⟨ofItem, trivial⟩
      · next found =>
        rw [found] at ofItem
        split
        · exact ⟨ofItem, ofItems _⟩
        · exact ⟨ofItem, trivial⟩
        · exact ⟨ofItem, trivial⟩
    · intro text
      rw [members.eq_def]
      dsimp only
      split
      · split
        · trivial
        · split
          · next rest _ =>
            have ofMember := ofValue (skipBlank rest)
            split
            · next found =>
              rw [found] at ofMember
              exact ⟨ofMember, trivial⟩
            · next found =>
              rw [found] at ofMember
              split
              · exact ⟨ofMember, ofMembers _⟩
              · exact ⟨ofMember, trivial⟩
              · exact ⟨ofMember, trivial⟩
          · exact ⟨trivial, trivial⟩
      · trivial

/-- All numbers of a document read back, whether it is one or not. -/
theorem readable_ofText (text : List Char) : (ofText text).root.Readable :=
  (readable_scan (2 * text.length + 2)).1 (skipBlank text)

mutual

/-- All numbers of a value that was scanned read back if those of the scan do. -/
theorem readable_of_toJson? : ∀ {scan : Scan} {limit : Nat} {json : Json}, scan.Readable →
    toJson? limit scan = some json → json.Readable
  | .null, _, _, _, isValue | .bool _, _, _, _, isValue | .str _, _, _, _, isValue => by
    cases isValue
    trivial
  | .num _, _, _, readable, isValue => by
    cases isValue
    exact readable
  | .arr items true, limit + 1, _, readable, isValue => by
    rw [toJson?, Option.map_eq_some_iff] at isValue
    obtain ⟨found, isItems, rfl⟩ := isValue
    exact readable_of_toItems? readable isItems
  | .obj members true, limit + 1, _, readable, isValue => by
    rw [toJson?, Option.map_eq_some_iff] at isValue
    obtain ⟨found, isMembers, rfl⟩ := isValue
    exact readable_of_toMembers? readable isMembers

theorem readable_of_toItems? : ∀ {items : List Scan} {limit : Nat} {found : List Json},
    ReadableItems items → toItems? limit items = some found → Json.ReadableItems found
  | [], _, _, _, isItems => by
    cases isItems
    trivial
  | _ :: _, limit, _, ⟨readable, readableOthers⟩, isItems => by
    simp only [toItems?, Option.bind_eq_bind, Option.bind_eq_some_iff] at isItems
    obtain ⟨item, isItem, others, isOthers, isList⟩ := isItems
    cases isList
    exact ⟨readable_of_toJson? readable isItem, readable_of_toItems? readableOthers isOthers⟩

theorem readable_of_toMembers? : ∀ {members : List (Option String × Scan)} {limit : Nat}
    {found : List (String × Json)}, ReadableMembers members →
    toMembers? limit members = some found → Json.ReadableMembers found
  | [], _, _, _, isMembers => by
    cases isMembers
    trivial
  | (some _, _) :: _, limit, _, ⟨readable, readableOthers⟩, isMembers => by
    simp only [toMembers?, Option.bind_eq_bind, Option.bind_eq_some_iff] at isMembers
    obtain ⟨value, isValue, others, isOthers, isList⟩ := isMembers
    cases isList
    exact ⟨readable_of_toJson? readable isValue, readable_of_toMembers? readableOthers isOthers⟩

end

end Scan

/-- All numbers of a value that was parsed read back. -/
theorem Json.readable_of_parse {text : List Char} {json : Json}
    (parsed : Json.parse text = some json) : json.Readable := by
  rw [Json.parse] at parsed
  split at parsed
  · exact Scan.readable_of_toJson? (Scan.readable_ofText text) parsed
  · cases parsed

end AccelProfile
