import AccelProfile.Proofs.NumberTexts
import Mathlib.Data.List.TakeWhile

/-!
# Fronts of tokens

A token is read up to its end and no further: what was read is a front of the text, and in front of
any other rest that front is read as the same token. Of a number this is true as long as the rest
does not go on with it. So where a number ends behind its digits, its fraction or its exponent, it
has to be told that the part behind it, which may be empty, does not start with a character that the
part before it would have taken.
-/

namespace AccelProfile.Scan

open Decimal (NoDigit takeWhile_digits dropWhile_digits)
open Decimal.Spelling (Ends)

/-! ## Strings and literals -/

/-- A string is read up to its closing quote, whatever follows. -/
theorem string_front {progress : Progress} {text behind : List Char} {found : Option String}
    (isString : string progress text = some (found, behind)) :
    ∃ front, text = front ++ behind ∧
      ∀ rest, string progress (front ++ rest) = some (found, rest) := by
  fun_induction string progress text with
  | case1 => cases isString
  | case2 progress rest =>
    cases isString
    exact ⟨['"'], rfl, fun _ => rfl⟩
  | case3 => cases isString
  | case4 progress a b c d rest unit isWord ih =>
    obtain ⟨front, rfl, reads⟩ := ih isString
    refine ⟨'\\' :: 'u' :: a :: b :: c :: d :: front, rfl, fun rest => ?_⟩
    simp only [List.cons_append, string, isWord, reads]
  | case5 => cases isString
  | case6 progress letter rest noUnit c isEscape ih =>
    obtain ⟨front, rfl, reads⟩ := ih isString
    have short : letter ≠ 'u' := by
      rintro rfl
      cases isEscape
    refine ⟨'\\' :: letter :: front, rfl, fun rest => ?_⟩
    rw [List.cons_append, List.cons_append, string]
    · simp only [isEscape, reads]
    · rintro a b c d rest rfl
      exact absurd rfl short
  | case7 => cases isString
  | case8 progress c rest noQuote noUnit noEscape plain ih =>
    obtain ⟨front, rfl, reads⟩ := ih isString
    have noMark : c ≠ '\\' := fun isMark => plain (.inr isMark)
    refine ⟨c :: front, rfl, fun rest => ?_⟩
    rw [List.cons_append, string]
    · rw [if_neg plain, reads]
    · exact noQuote
    · exact fun _ _ _ _ _ isMark => absurd isMark noMark
    · exact fun _ _ isMark => absurd isMark noMark

/-- A literal is read up to its last letter. -/
theorem literal_front {letters text behind : List Char} {value found : Scan}
    (isLiteral : literal letters value text = (found, some behind)) :
    found = value ∧ text = letters ++ behind := by
  rw [literal] at isLiteral
  split at isLiteral
  · next isPrefix =>
    cases isLiteral
    exact ⟨rfl, (List.isPrefixOf?_eq_some_iff_append_eq.1 isPrefix).symm⟩
  · cases isLiteral

theorem literal_append (letters : List Char) (value : Scan) (rest : List Char) :
    literal letters value (letters ++ rest) = (value, some rest) := by
  rw [literal, List.isPrefixOf?_eq_some_iff_append_eq.2 rfl]

/-! ## Numbers -/

/-- A point and the digits behind it are read as far as the digits go. -/
theorem fraction_front {text behind places : List Char}
    (isFraction : fraction text = some (places, behind)) :
    ∃ front, text = front ++ behind ∧ (∀ c, front.head? = some c → c = '.') ∧
      ∀ rest, (∀ c, rest.head? = some c → c ≠ '.' ∧ c.isDigit = false) →
        fraction (front ++ rest) = some (places, rest) := by
  rw [fraction.eq_def] at isFraction
  split at isFraction
  · next digits =>
    split at isFraction
    · cases isFraction
    · next some =>
      cases isFraction
      refine ⟨'.' :: digits.takeWhile Char.isDigit, ?_, ?_, fun rest ends => ?_⟩
      · rw [List.cons_append, List.takeWhile_append_dropWhile]
      · rintro _ ⟨⟩
        rfl
      · have all : ∀ c ∈ digits.takeWhile Char.isDigit, c.isDigit = true :=
          fun c => List.mem_takeWhile_imp
        have noDigit : NoDigit rest := fun c first => (ends c first).2
        simp only [List.cons_append, fraction, takeWhile_digits all noDigit,
          dropWhile_digits all noDigit]
  · cases isFraction
    refine ⟨[], rfl, (fun _ first => by cases first), fun rest ends => ?_⟩
    rw [List.nil_append, fraction.eq_def]
    split
    · exact absurd rfl (ends '.' rfl).1
    · rfl

/-- Whether a minus stands in front of a text, and the text behind either sign. -/
def splitSign : List Char → Bool × List Char
  | '-' :: rest => (true, rest)
  | '+' :: rest => (false, rest)
  | rest => (false, rest)

/-- A sign is read if one is there, and in front of digits it is the same one. -/
theorem splitSign_front (text : List Char) :
    ∃ sign, text = sign ++ (splitSign text).2 ∧
      ∀ first rest, first.isDigit = true →
        splitSign (sign ++ first :: rest) = ((splitSign text).1, first :: rest) := by
  rw [splitSign.eq_def]
  split
  · exact ⟨['-'], rfl, fun _ _ _ => rfl⟩
  · exact ⟨['+'], rfl, fun _ _ _ => rfl⟩
  · refine ⟨[], rfl, fun first rest isDigit => ?_⟩
    rw [List.nil_append, splitSign.eq_def]
    split
    · next minus => exact absurd isDigit (by rw [(List.cons.inj minus).1]; decide)
    · next plus => exact absurd isDigit (by rw [(List.cons.inj plus).1]; decide)
    · rfl

/-- Behind the mark of an exponent there may be a sign, and then there are digits. -/
theorem exponent_mark {mark : Char} (isMark : mark = 'e' ∨ mark = 'E') (rest : List Char) :
    exponent (mark :: rest) =
      match (splitSign rest).2.takeWhile Char.isDigit with
      | [] => none
      | digits =>
        let value : Int := Nat.ofDigitChars 10 digits 0
        some (some (if (splitSign rest).1 then -value else value),
          (splitSign rest).2.dropWhile Char.isDigit) := by
  by_cases minus : ∃ others, rest = '-' :: others
  · obtain ⟨others, rfl⟩ := minus
    rcases isMark with rfl | rfl <;> rfl
  by_cases plus : ∃ others, rest = '+' :: others
  · obtain ⟨others, rfl⟩ := plus
    rcases isMark with rfl | rfl <;> rfl
  have noMinus : ∀ others, rest ≠ '-' :: others := fun others isMinus => minus ⟨others, isMinus⟩
  have noPlus : ∀ others, rest ≠ '+' :: others := fun others isPlus => plus ⟨others, isPlus⟩
  have unsigned : splitSign rest = (false, rest) := by
    rw [splitSign.eq_def]
    split
    · exact absurd rfl (noMinus _)
    · exact absurd rfl (noPlus _)
    · rfl
  rw [unsigned]
  rcases isMark with rfl | rfl
  all_goals
    rw [exponent] <;> first | rfl | assumption

/-- An exponent is read as far as its digits go. -/
theorem exponent_front {text behind : List Char} {power : Option Int}
    (isExponent : exponent text = some (power, behind)) :
    ∃ front, text = front ++ behind ∧ (∀ c, front.head? = some c → c = 'e' ∨ c = 'E') ∧
      ∀ rest, Ends rest → exponent (front ++ rest) = some (power, rest) := by
  by_cases marked : ∃ mark rest, (mark = 'e' ∨ mark = 'E') ∧ text = mark :: rest
  · obtain ⟨mark, signed, isMark, rfl⟩ := marked
    rw [exponent_mark isMark] at isExponent
    obtain ⟨sign, isSigned, signs⟩ := splitSign_front signed
    split at isExponent
    · cases isExponent
    · next some =>
      cases isExponent
      obtain ⟨first, others, isCons⟩ := List.exists_cons_of_ne_nil some
      have all : ∀ c ∈ first :: others, c.isDigit = true := fun c inside =>
        List.mem_takeWhile_imp (isCons ▸ inside)
      refine ⟨mark :: (sign ++ first :: others), ?_, ?_, fun rest ends => ?_⟩
      · rw [← isCons, List.cons_append, List.append_assoc, List.takeWhile_append_dropWhile,
          ← isSigned]
      · rintro _ ⟨⟩
        exact isMark
      · have takes := takeWhile_digits all ends.noDigit
        have drops := dropWhile_digits all ends.noDigit
        rw [List.cons_append] at takes drops
        rw [List.cons_append, List.append_assoc, List.cons_append, exponent_mark isMark,
          signs first _ (all first List.mem_cons_self), isCons]
        simp only [takes, drops]
  · have none : ∀ rest, (∀ mark others, (mark = 'e' ∨ mark = 'E') → rest ≠ mark :: others) →
        exponent rest = some (none, rest) := by
      intro rest unmarked
      rw [exponent.eq_def]
      split
      · exact absurd rfl (unmarked 'e' _ (.inl rfl))
      · exact absurd rfl (unmarked 'E' _ (.inr rfl))
      · rfl
    rw [none text fun mark others isMark isText => marked ⟨mark, others, isMark, isText⟩]
      at isExponent
    cases isExponent
    refine ⟨[], rfl, (fun _ first => by cases first), fun rest ends => none rest ?_⟩
    rintro mark others isMark rfl
    have noMark := (ends mark rfl).1
    rcases isMark with rfl | rfl <;> exact noMark (by decide)

/-- A number without its sign is read as far as it goes. -/
theorem magnitude_front {negative : Bool} {text behind : List Char} {found : Scan}
    (isMagnitude : magnitude negative text = some (found, behind)) :
    ∃ first others, text = first :: (others ++ behind) ∧ first.isDigit = true ∧
      ∀ rest, Ends rest → magnitude negative (first :: (others ++ rest)) = some (found, rest) := by
  simp only [magnitude, Option.bind_eq_bind] at isMagnitude
  split at isMagnitude
  · cases isMagnitude
  · next alone =>
    obtain ⟨⟨places, afterPlaces⟩, isFraction, isMagnitude⟩ := Option.bind_eq_some_iff.1 isMagnitude
    obtain ⟨⟨power, afterPower⟩, isExponent, isMagnitude⟩ := Option.bind_eq_some_iff.1 isMagnitude
    dsimp only at isExponent isMagnitude
    obtain ⟨point, isPoint, startsPoint, readsPoint⟩ := fraction_front isFraction
    obtain ⟨mark, isMark, startsMark, readsMark⟩ := exponent_front isExponent
    obtain ⟨first, others, isCons⟩ := List.exists_cons_of_ne_nil (fun empty => alone (.inl empty))
    have all : ∀ c ∈ first :: others, c.isDigit = true := fun c inside =>
      List.mem_takeWhile_imp (isCons ▸ inside)
    have isBehind : afterPower = behind := by
      split at isMagnitude <;> cases isMagnitude <;> rfl
    subst isBehind
    refine ⟨first, others ++ (point ++ mark), ?_, all first List.mem_cons_self, fun rest ends => ?_⟩
    · have parts := List.takeWhile_append_dropWhile (p := Char.isDigit) (l := text)
      rw [isCons, isPoint, isMark] at parts
      simp only [List.append_assoc]
      exact parts.symm
    · -- neither a digit nor a point follows the digits behind the point
      have behindPoint : ∀ c, (mark ++ rest).head? = some c → c ≠ '.' ∧ c.isDigit = false := by
        intro c isFirst
        cases mark with
        | nil =>
          obtain ⟨noMark, noDigit⟩ := ends c isFirst
          exact ⟨fun isPoint => noMark (by simp [isPoint]), noDigit⟩
        | cons letter letters =>
          cases isFirst
          rcases startsMark _ rfl with rfl | rfl <;> exact ⟨by decide, by decide⟩
      have behindWhole : NoDigit (point ++ (mark ++ rest)) := by
        intro c isFirst
        cases point with
        | nil => exact (behindPoint c isFirst).2
        | cons letter letters =>
          cases isFirst
          rw [startsPoint _ rfl]
          decide
      have takes := takeWhile_digits all behindWhole
      have drops := dropWhile_digits all behindWhole
      rw [List.cons_append] at takes drops
      rw [isCons] at alone isMagnitude
      rw [List.append_assoc, List.append_assoc, magnitude, takes, drops]
      simp only [if_neg alone, readsPoint _ behindPoint, readsMark rest ends, Option.bind_eq_bind,
        Option.bind_some]
      split at isMagnitude
      · next whole =>
        cases isMagnitude
        rw [if_pos whole]
        rfl
      · next double =>
        cases isMagnitude
        rw [if_neg double]
        rfl

/-- A number is read as far as it goes. -/
theorem number_front {text behind : List Char} {found : Scan}
    (isNumber : number text = some (found, behind)) :
    ∃ first others, text = first :: (others ++ behind) ∧ (first = '-' ∨ first.isDigit = true) ∧
      ∀ rest, Ends rest → number (first :: (others ++ rest)) = some (found, rest) := by
  rw [number.eq_def] at isNumber
  split at isNumber
  · obtain ⟨first, others, rfl, -, reads⟩ := magnitude_front isNumber
    exact ⟨'-', first :: others, rfl, .inl rfl, reads⟩
  · obtain ⟨first, others, rfl, isDigit, reads⟩ := magnitude_front isNumber
    refine ⟨first, others, rfl, .inr isDigit, fun rest ends => ?_⟩
    rw [number]
    · exact reads rest ends
    · rintro tail ⟨⟩
      exact absurd isDigit (by decide)

end AccelProfile.Scan
