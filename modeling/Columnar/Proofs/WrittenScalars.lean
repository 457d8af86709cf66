import Columnar.Proofs.EncodedText
import Columnar.Proofs.StoredScalars
import Columnar.Proofs.WrittenMoments

namespace Columnar

namespace Decimal

open Text

/-- The digits behind the point, less the zeros at their end. -/
def fractionOf (unscaled : Int) : List Char :=
  ((paddedDigits places (unscaled.natAbs % unit)).reverse.dropWhile (· = '0')).reverse

/-- The literal that is written of a value: a minus, digits, and a point with digits, as far as they are needed. -/
def printed (unscaled : Int) : Literal where
  sign := if unscaled < 0 then some true else none
  whole := digits (unscaled.natAbs / unit)
  fraction := if (fractionOf unscaled).isEmpty then none else some (fractionOf unscaled)

theorem print_eq (unscaled : Int) : print unscaled = (printed unscaled).text := by
  have signs : (if unscaled < 0 then ['-'] else []) = Literal.signText (printed unscaled).sign := by
    unfold printed
    split <;> rfl
  have parts : (if (fractionOf unscaled).isEmpty then digits (unscaled.natAbs / unit)
      else digits (unscaled.natAbs / unit) ++ '.' :: fractionOf unscaled) = (printed unscaled).unsigned := by
    unfold printed Literal.unsigned
    dsimp only
    split
    next => exact (List.append_nil _).symm
    next => rfl
  rw [Literal.text, ← signs, ← parts]
  rfl

theorem behind_printed (unscaled : Int) : (printed unscaled).behind = fractionOf unscaled := by
  unfold printed Literal.behind
  dsimp only
  split
  next none => exact (List.isEmpty_iff.mp none).symm
  next => rfl

theorem exists_zeros (text : List Char) : ∃ count, text = List.replicate count '0' ++ text.dropWhile (· = '0') := by
  induction text with
  | nil => exact ⟨0, rfl⟩
  | cons c rest ih =>
    by_cases zero : c = '0'
    · subst zero
      obtain ⟨count, same⟩ := ih
      refine ⟨count + 1, ?_⟩
      rw [List.dropWhile_cons_of_pos (by decide), List.replicate_succ, List.cons_append, ← same]
    · refine ⟨0, ?_⟩
      rw [List.dropWhile_cons_of_neg (by simp [zero]), List.replicate_zero, List.nil_append]

/-- The zeros that are left out of the fraction add nothing to its value. -/
theorem fractionOf_spec (unscaled : Int) : (fractionOf unscaled).length ≤ places ∧
    (∀ c ∈ fractionOf unscaled, isDigit c = true) ∧
    digitsValue (fractionOf unscaled) * 10 ^ (places - (fractionOf unscaled).length) = unscaled.natAbs % unit := by
  have small : unscaled.natAbs % unit < 10 ^ places := Nat.mod_lt _ (by decide)
  obtain ⟨count, zeros⟩ := exists_zeros (paddedDigits places (unscaled.natAbs % unit)).reverse
  have padded : paddedDigits places (unscaled.natAbs % unit) = fractionOf unscaled ++ List.replicate count '0' := by
    rw [fractionOf, ← List.reverse_replicate (n := count), ← List.reverse_append, ← zeros, List.reverse_reverse]
  have length := length_paddedDigits (by decide) small
  have value := digitsValue_paddedDigits places (unscaled.natAbs % unit)
  rw [padded, List.length_append, List.length_replicate] at length
  rw [padded, digitsValue_append, digitsValue_zeros, List.length_replicate, Nat.add_zero] at value
  have rest : places - (fractionOf unscaled).length = count := by omega
  refine ⟨by omega, fun c member => ?_, by rw [rest, value]⟩
  have inside : c ∈ paddedDigits places (unscaled.natAbs % unit) := by
    rw [padded]
    exact List.mem_append_left _ member
  exact isDigit_of_mem_paddedDigits inside

theorem printed_formed (unscaled : Int) : (printed unscaled).WellFormed := by
  obtain ⟨short, digitsFraction, _⟩ := fractionOf_spec unscaled
  rw [← behind_printed] at short digitsFraction
  exact ⟨fun _ => isDigit_of_mem_digits, digitsFraction, .inl (digits_ne_nil _), short⟩

theorem units_printed (unscaled : Int) : (printed unscaled).units = unscaled.natAbs := by
  obtain ⟨_, _, value⟩ := fractionOf_spec unscaled
  have whole : digitsValue (printed unscaled).whole = unscaled.natAbs / unit := digitsValue_digits _
  rw [Literal.units, behind_printed, value, whole, Nat.mul_comm, Nat.div_add_mod]

/-- What is written of a decimal value is read as that value, if its magnitude is one that can be read. -/
theorem parse?_print (unscaled : Int) :
    parse? (print unscaled) = if greatest < unscaled.natAbs then none else some unscaled := by
  rw [parse?, print_eq, Literal.parse_text (printed_formed unscaled), units_printed]
  split
  · rfl
  · refine congrArg some ?_
    unfold printed Literal.minus
    by_cases negative : unscaled < 0
    · simp only [negative, if_true, decide_true]
      omega
    · simp only [negative, if_false, reduceCtorEq, decide_false, Bool.false_eq_true]
      omega

theorem trim_print (unscaled : Int) : trim (print unscaled) = print unscaled := by
  obtain ⟨_, digitsFraction, _⟩ := fractionOf_spec unscaled
  have solid : Solid (printed unscaled).unsigned := by
    unfold printed Literal.unsigned
    dsimp only
    split
    · exact (List.append_nil (digits _)).symm ▸ solid_digits _
    · exact (solid_digits _).append ((solid_of_digits digitsFraction).cons (by decide))
  rw [print_eq, Literal.text]
  unfold Literal.signText
  split
  · exact solid.trim_eq
  · exact (solid.cons (by decide)).trim_eq
  · exact (solid.cons (by decide)).trim_eq

end Decimal

namespace Scalar

open Text

variable {type : ColumnType} {value : Scalar} {stored : Bytes} {length : Nat}

theorem parse_boolean (v : Bool) (length : Nat) : parse .boolean (print (boolean v)) length = .ok (boolean v) := by
  cases v <;> rfl

theorem parseInteger?_signedDigits {kind : IntKind} {v : Int} (fits : kind.Fits v) :
    parseInteger? kind (signedDigits v) = some v := by
  have read : (if kind = .unsigned then parseUnsigned? (signedDigits v) else parseInt? (signedDigits v)) =
      some v := by
    split
    next unsigned =>
      subst unsigned
      exact parseUnsigned?_signedDigits (IntKind.unsigned_fits_iff.mp fits).1
    next => exact parseInt?_signedDigits v
  rw [parseInteger?, read, Option.filter_some, if_pos (decide_eq_true fits)]

theorem parse_integer {kind : IntKind} {v : Int} (fits : kind.Fits v) (length : Nat) :
    parse (.integer kind) (print (integer kind v)) length = .ok (integer kind v) := by
  rw [parse_eq_ok_iff rfl, print, String.toList_ofList, trim_signedDigits, found?, parseInteger?_signedDigits fits,
    Option.map_some]

/-- The least decimal value is the one whose magnitude is too great to be read. -/
theorem parse_decimal {unscaled : Int} (fits : IntKind.large.Fits unscaled) (length : Nat) :
    parse .decimal (print (decimal unscaled)) length = .ok (decimal unscaled) ↔ unscaled ≠ IntKind.large.least := by
  have first : IntKind.large.least = -(Decimal.greatest : Int) - 1 := by decide
  obtain ⟨lower, upper⟩ := decimal_fits_iff.mp fits
  rw [parse_eq_ok_iff rfl, print, String.toList_ofList, Decimal.trim_print, found?, Decimal.parse?_print, first]
  by_cases least : unscaled = -(Decimal.greatest : Int) - 1
  · rw [if_pos (by omega), Option.map_none]
    exact ⟨nofun, fun other => absurd least other⟩
  · rw [if_neg (by omega), Option.map_some]
    exact ⟨fun _ => least, fun _ => rfl⟩

theorem parse_date {day : Int} (covered : Calendar.inRange day = true) (length : Nat) :
    parse .date (print (date day)) length = .ok (date day) := by
  rw [parse_eq_ok_iff rfl, print, String.toList_ofList, (Calendar.solid_printDate day).trim_eq, found?,
    Calendar.parseDate?_printDate covered, Option.map_some]

theorem parse_datetime {moment : Moment} (covered : moment.Covered) (micro : moment.Micro) (length : Nat) :
    parse .datetime (print (datetime moment)) length = .ok (datetime moment) := by
  rw [parse_eq_ok_iff rfl, print, String.toList_ofList, Calendar.trim_printMoment, found?,
    Calendar.parseMoment?_printMoment covered.day covered.second_lt micro.1, Option.map_some]

theorem resize_length (stored : Bytes) : resize stored.length stored = stored := by
  rw [resize, List.take_length, Nat.sub_self, List.replicate_zero, List.append_nil]

theorem parse_text {kind : TextKind} (text : List Char)
    (sized : kind = .char → length = 0 ∨ (encodeUtf8 text).length = length) :
    parse (.text kind) (print (bytes (encodeUtf8 text))) length = .ok (bytes (encodeUtf8 text)) := by
  have whole : (print (bytes (encodeUtf8 text))).toList = text := by
    rw [print, String.toList_ofList, decodeUtf8Lossy_encodeUtf8]
  -- From here on only the characters of what is printed matter.
  generalize print (bytes (encodeUtf8 text)) = written at whole
  subst whole
  cases kind with
  | char =>
    change Except.ok
      (bytes (if length = 0 then encodeUtf8 written.toList else resize length (encodeUtf8 written.toList))) = _
    rcases sized rfl with rfl | rfl
    · rw [if_pos rfl]
    · rw [resize_length, ite_self]
  | varchar | string => rfl

/-- What is written of a value that was read from storage is read as that value, unless it is the least decimal.
Byte strings have to be text, and those of a declared length as long as it says. -/
theorem parse_print_iff (type : ColumnType) (exact : ∀ kind, type ≠ .float kind)
    (read : ofStorage type stored = .ok value)
    (encoded : ∀ kind, type = .text kind → ∃ text, stored = encodeUtf8 text)
    (sized : type = .text .char → length = 0 ∨ stored.length = length) :
    parse type value.print length = .ok value ↔ value ≠ decimal IntKind.large.least := by
  have storable := storable_of_ofStorage exact read
  cases type with
  | boolean =>
    cases value with
    | boolean v => exact ⟨fun _ => nofun, fun _ => parse_boolean v length⟩
    | _ => cases storable
  | integer kind =>
    cases value with
    | integer other v =>
      obtain ⟨rfl, fits⟩ := storable
      exact ⟨fun _ => nofun, fun _ => parse_integer fits length⟩
    | _ => cases storable
  | decimal =>
    cases value with
    | decimal unscaled =>
      rw [parse_decimal storable, Ne, Ne, decimal.injEq]
    | _ => cases storable
  | date =>
    cases value with
    | date day => exact ⟨fun _ => nofun, fun _ => parse_date storable length⟩
    | _ => cases storable
  | datetime =>
    cases value with
    | datetime moment => exact ⟨fun _ => nofun, fun _ => parse_datetime storable.1 storable.2 length⟩
    | _ => cases storable
  | text kind =>
    obtain ⟨text, same⟩ := encoded kind rfl
    obtain rfl : value = bytes stored := (Except.ok.inj read).symm
    subst same
    exact ⟨fun _ => nofun, fun _ => parse_text text fun char => sized (congrArg _ char)⟩
  | float kind | array | sketch | object => cases storable

/-- The stored form of the least decimal value. -/
def leastDecimal : Bytes := List.replicate 15 0 ++ [128]

theorem ofStorage_leastDecimal : ofStorage .decimal leastDecimal = .ok (decimal IntKind.large.least) := rfl

theorem ofStorage_aboveLeast :
    ofStorage .decimal (1 :: List.replicate 14 0 ++ [128]) = .ok (decimal (IntKind.large.least + 1)) := rfl

theorem parse_print_iff_edges :
    parse .decimal (decimal (IntKind.large.least + 1)).print 0 = .ok (decimal (IntKind.large.least + 1)) ∧
      parse (.text .char) (bytes [0xC3, 0xA9]).print 2 = .ok (bytes [0xC3, 0xA9]) := by
  have chars : ofStorage (.text .char) [0xC3, 0xA9] = .ok (bytes [0xC3, 0xA9]) := rfl
  constructor
  · exact (parse_print_iff .decimal nofun ofStorage_aboveLeast nofun nofun).mpr (by decide)
  · exact (parse_print_iff (.text .char) nofun chars (fun _ _ => ⟨['é'], by decide⟩) fun _ => .inr rfl).mpr nofun

/-- The least decimal value cannot be read from its own text. -/
theorem leastDecimal_not_read : ofStorage .decimal leastDecimal = .ok (decimal IntKind.large.least) ∧
    parse .decimal (decimal IntKind.large.least).print 0 ≠ .ok (decimal IntKind.large.least) :=
  ⟨ofStorage_leastDecimal, fun survives => (parse_decimal (by decide) 0).mp survives rfl⟩

end Scalar

end Columnar
