import Columnar.Proofs.DecimalTexts
import Columnar.Proofs.Outcome
import Columnar.Proofs.ReadMoments
import Columnar.Scalar.Storage
import Columnar.Scalar.Text

namespace Columnar

namespace Bytes

theorem natCast_room (width : Nat) : ((256 ^ width : Nat) : Int) = 256 ^ width := Int.natCast_pow 256 width

/-- A number that is not negative is read back if there is room for it. -/
theorem toNat_ofInt {width : Nat} {v : Int} (natural : 0 ≤ v) (small : v < 256 ^ width) :
    (toNat (ofInt width v) : Int) = v := by
  rw [ofInt, toNat_ofNat, Int.emod_eq_of_lt natural small, Nat.mod_eq_of_lt, Int.toNat_of_nonneg natural]
  rw [← natCast_room] at small
  omega

/-- A number is read back from its two's complement if there is room for it. -/
theorem toInt_ofInt {width : Nat} {v : Int} (lower : -(256 ^ width) ≤ 2 * v) (upper : 2 * v < 256 ^ width) :
    toInt (ofInt width v) = v := by
  have stored : (toNat (ofInt width v) : Int) = v % 256 ^ width := by
    have positive : 0 < 256 ^ width := Nat.pow_pos (by decide)
    have natural := Int.emod_nonneg v (b := 256 ^ width) (by rw [← natCast_room]; omega)
    have small := Int.emod_lt_of_pos v (b := 256 ^ width) (by rw [← natCast_room]; omega)
    rw [ofInt, toNat_ofNat, Nat.mod_eq_of_lt, Int.toNat_of_nonneg natural]
    rw [← natCast_room] at small natural ⊢
    omega
  unfold toInt
  rw [length_ofInt]
  rw [← natCast_room] at lower upper stored ⊢
  by_cases negative : v < 0
  · have wrapped : v % (256 ^ width : Nat) = v + (256 ^ width : Nat) := by
      rw [← Int.add_emod_right, Int.emod_eq_of_lt (by omega) (by omega)]
    rw [if_neg (by omega), stored, wrapped]
    omega
  · have same : v % (256 ^ width : Nat) = v := Int.emod_eq_of_lt (by omega) (by omega)
    rw [if_pos (by omega), stored, same]

theorem toInt_bounds (stored : Bytes) :
    -(256 ^ stored.length) ≤ 2 * toInt stored ∧ 2 * toInt stored < 256 ^ stored.length := by
  have small := toNat_lt stored
  unfold toInt
  rw [← natCast_room]
  split <;> omega

end Bytes

namespace IntKind

variable {kind : IntKind} {v : Int} {stored : Bytes}

theorem fits_iff (signed : kind ≠ unsigned) :
    kind.Fits v ↔ -(256 ^ kind.width) ≤ 2 * v ∧ 2 * v < 256 ^ kind.width := by
  cases kind with
  | unsigned => exact absurd rfl signed
  | _ =>
    simp only [Fits, least, greatest, width, Nat.reduceMul, Nat.reduceSub]
    omega

theorem unsigned_fits_iff : unsigned.Fits v ↔ 0 ≤ v ∧ v < 256 ^ unsigned.width := by
  simp only [Fits, least, greatest, width, Nat.reduceMul]
  omega

theorem toInt_ofInt (kind : IntKind) (signed : kind ≠ unsigned) (fits : kind.Fits v) :
    Bytes.toInt (Bytes.ofInt kind.width v) = v := by
  obtain ⟨lower, upper⟩ := (fits_iff signed).mp fits
  exact Bytes.toInt_ofInt lower upper

theorem fits_toInt (signed : kind ≠ unsigned) (length : stored.length = kind.width) :
    kind.Fits (Bytes.toInt stored) := by
  have bounds := Bytes.toInt_bounds stored
  rw [length] at bounds
  exact (fits_iff signed).mpr bounds

theorem toNat_ofInt (fits : unsigned.Fits v) : (Bytes.toNat (Bytes.ofInt unsigned.width v) : Int) = v := by
  obtain ⟨natural, small⟩ := unsigned_fits_iff.mp fits
  exact Bytes.toNat_ofInt natural small

theorem fits_toNat (length : stored.length = unsigned.width) : unsigned.Fits (Bytes.toNat stored) := by
  have small := Bytes.toNat_lt stored
  rw [length] at small
  refine unsigned_fits_iff.mpr ⟨Int.natCast_nonneg _, ?_⟩
  rw [← Bytes.natCast_room]
  exact Int.ofNat_lt.mpr small

/-- The days that the calendar covers are stored in four bytes. -/
theorem fits_of_inRange {day : Int} (covered : Calendar.inRange day = true) : int.Fits day := by
  obtain ⟨lower, upper⟩ := Calendar.inRange_iff.mp covered
  refine (fits_iff (by decide)).mpr ?_
  rw [width]
  omega

end IntKind

namespace Moment

/-- A moment has whole microseconds and is not in a leap second. -/
def Micro (moment : Moment) : Prop := moment.nano < 1000000000 ∧ moment.nano % 1000 = 0

instance (moment : Moment) : Decidable moment.Micro := inferInstanceAs (Decidable (_ ∧ _))

variable {moment : Moment}

/-- Microseconds name a moment of the calendar without a leap second. -/
theorem ofMicros?_eq_some {micros : Int} (read : ofMicros? micros = some moment) : moment.Covered ∧
    moment.Micro := by
  unfold ofMicros? at read
  rw [Int.fdiv_eq_ediv_of_nonneg _ (by decide)] at read
  dsimp only at read
  split at read
  next covered =>
    cases read
    refine ⟨⟨covered, ?_⟩, ?_, ?_⟩
    all_goals dsimp only; omega
  next => cases read

theorem micros_eq (micro : moment.Micro) :
    moment.micros = (moment.day * 86400 + moment.second) * 1000000 + (moment.nano / 1000 : Nat) := by
  have whole : (moment.day * 86400 + moment.second) * 1000000000 + moment.nano =
      1000 * ((moment.day * 86400 + moment.second) * 1000000 + (moment.nano / 1000 : Nat)) := by
    have := micro.2
    omega
  rw [micros, whole, Int.mul_tdiv_cancel_left _ (by decide)]

/-- The microseconds are stored in eight bytes. -/
theorem micros_fits (covered : moment.Covered) (micro : moment.Micro) : IntKind.big.Fits moment.micros := by
  obtain ⟨first, last⟩ := Calendar.inRange_iff.mp covered.day
  have second := covered.second_lt
  have small := micro.1
  refine (IntKind.fits_iff (by decide)).mpr ?_
  rw [micros_eq micro, IntKind.width]
  omega

/-- The microseconds of such a moment name it. -/
theorem ofMicros?_micros (covered : moment.Covered) (micro : moment.Micro) :
    ofMicros? moment.micros = some moment := by
  obtain ⟨day, second, nano⟩ := moment
  obtain ⟨inRange, within⟩ := covered
  have total := micros_eq micro
  obtain ⟨small, whole⟩ := micro
  dsimp only at *
  have days : (micros ⟨day, second, nano⟩).fdiv 86400000000 = day := by
    rw [Int.fdiv_eq_ediv_of_nonneg _ (by decide)]
    omega
  have rest : (micros ⟨day, second, nano⟩ - day * 86400000000).toNat = second * 1000000 + nano / 1000 := by omega
  have seconds : (second * 1000000 + nano / 1000) / 1000000 = second := by omega
  have nanos : (second * 1000000 + nano / 1000) % 1000000 * 1000 = nano := by omega
  simp only [ofMicros?, days, rest, seconds, nanos, inRange, if_true]

end Moment

namespace Scalar

/-- A value that a column of a type has room for. Floats are left out. -/
def Storable : ColumnType → Scalar → Prop
  | .boolean, boolean _ => True
  | .integer kind, integer other value => other = kind ∧ kind.Fits value
  | .decimal, decimal unscaled => IntKind.large.Fits unscaled
  | .date, date day => Calendar.inRange day = true
  | .datetime, datetime moment => moment.Covered ∧ moment.Micro
  | .text _, bytes _ => True
  | _, _ => False

variable {type : ColumnType} {value : Scalar} {stored : Bytes}

theorem ofStorage_eq_ok (read : ofStorage type stored = .ok value) :
    (∀ size, type.fixedSize? = some size → stored.length = size) ∧ ofBytes type stored = .ok value := by
  unfold ofStorage at read
  split at read
  next size fixed =>
    split at read
    next same =>
      refine ⟨fun other found => ?_, read⟩
      cases fixed.symm.trans found
      exact same
    next => cases read
  next free => exact ⟨fun size fixed => (nomatch free.symm.trans fixed), read⟩

theorem ofBytes_signed {kind : IntKind} (signed : kind ≠ .unsigned) (stored : Bytes) :
    ofBytes (.integer kind) stored = .ok (integer kind (Bytes.toInt stored)) := by
  cases kind with
  | unsigned => exact absurd rfl signed
  | _ => rfl

/-- What is read from storage has room in its column. -/
theorem storable_of_ofStorage (exact : ∀ kind, type ≠ .float kind) (read : ofStorage type stored = .ok value) :
    Storable type value := by
  obtain ⟨length, read⟩ := ofStorage_eq_ok read
  cases type with
  | boolean =>
    cases read
    exact trivial
  | integer kind =>
    by_cases signed : kind = .unsigned
    · subst signed
      cases read
      exact ⟨rfl, IntKind.fits_toNat (length _ rfl)⟩
    · rw [ofBytes_signed signed] at read
      cases read
      exact ⟨rfl, IntKind.fits_toInt signed (length _ rfl)⟩
  | float kind => exact absurd rfl (exact kind)
  | decimal =>
    cases read
    exact IntKind.fits_toInt (by decide) (length _ rfl)
  | date =>
    unfold ofBytes at read
    dsimp only at read
    split at read
    next covered =>
      cases read
      exact covered
    next => cases read
  | datetime =>
    unfold ofBytes at read
    dsimp only at read
    split at read
    next moment found =>
      cases read
      exact Moment.ofMicros?_eq_some found
    next => cases read
  | text kind =>
    cases read
    exact trivial
  | array | sketch | object => cases read

theorem ofStorage_of_length (type : ColumnType) {size : Nat} (fixed : type.fixedSize? = some size)
    (length : stored.length = size) : ofStorage type stored = ofBytes type stored := by
  rw [ofStorage, fixed]
  exact if_pos length

/-- A value that has room in its column is read back from what is stored of it. -/
theorem ofStorage_of_storable (storable : Storable type value) : ofStorage type value.storage = .ok value := by
  cases type with
  | boolean =>
    cases value with
    | boolean value => cases value <;> rfl
    | _ => cases storable
  | integer kind =>
    cases value with
    | integer other value =>
      obtain ⟨rfl, fits⟩ := storable
      rw [storage, ofStorage_of_length (.integer other) rfl (Bytes.length_ofInt _ value)]
      by_cases signed : other = .unsigned
      · subst signed
        rw [ofBytes, IntKind.toNat_ofInt fits]
      · rw [ofBytes_signed signed, IntKind.toInt_ofInt other signed fits]
    | _ => cases storable
  | decimal =>
    cases value with
    | decimal unscaled =>
      have same : Bytes.toInt (Bytes.ofInt 16 unscaled) = unscaled :=
        IntKind.toInt_ofInt .large (by decide) storable
      rw [storage, ofStorage_of_length .decimal rfl (Bytes.length_ofInt 16 unscaled), ofBytes, same]
    | _ => cases storable
  | date =>
    cases value with
    | date day =>
      have same : Bytes.toInt (Bytes.ofInt 4 day) = day :=
        IntKind.toInt_ofInt .int (by decide) (IntKind.fits_of_inRange storable)
      rw [storage, ofStorage_of_length .date rfl (Bytes.length_ofInt 4 day), ofBytes, same]
      exact if_pos storable
    | _ => cases storable
  | datetime =>
    cases value with
    | datetime moment =>
      obtain ⟨covered, micro⟩ := storable
      have same : Bytes.toInt (Bytes.ofInt 8 moment.micros) = moment.micros :=
        IntKind.toInt_ofInt .big (by decide) (Moment.micros_fits covered micro)
      rw [storage, ofStorage_of_length .datetime rfl (Bytes.length_ofInt 8 moment.micros), ofBytes, same,
        Moment.ofMicros?_micros covered micro]
    | _ => cases storable
  | text kind =>
    cases value with
    | bytes value => rfl
    | _ => cases storable
  | float kind | array | sketch | object => cases storable

/-- Exactly the values that have room in their column survive it. -/
theorem ofStorage_storage_iff (exact : ∀ kind, type ≠ .float kind) :
    ofStorage type value.storage = .ok value ↔ Storable type value :=
  ⟨storable_of_ofStorage exact, ofStorage_of_storable⟩

theorem parseInteger?_fits {kind : IntKind} {text : List Char} {v : Int} (read : parseInteger? kind text = some v) :
    kind.Fits v := by
  obtain ⟨_, fits⟩ := Option.filter_eq_some_iff.mp read
  exact of_decide_eq_true fits

theorem decimal_fits_iff {unscaled : Int} :
    IntKind.large.Fits unscaled ↔ -(Decimal.greatest : Int) - 1 ≤ unscaled ∧ unscaled ≤ Decimal.greatest := by
  have least : IntKind.large.least = -(Decimal.greatest : Int) - 1 := by decide
  have greatest : IntKind.large.greatest = Decimal.greatest := by decide
  rw [IntKind.Fits, least, greatest]

theorem parseDecimal?_fits {text : List Char} {unscaled : Int} (read : Decimal.parse? text = some unscaled) :
    IntKind.large.Fits unscaled := by
  have small := Decimal.natAbs_le_of_parse (toOption_eq_some read)
  rw [decimal_fits_iff]
  omega

/-- What is found in a text without white space around it. Byte strings are not looked for. -/
def found? (type : ColumnType) (trimmed : List Char) : Option Scalar :=
  match type with
  | .boolean => (parseBoolean? trimmed).map boolean
  | .integer kind => (parseInteger? kind trimmed).map (integer kind)
  | .float kind => (kind.format.parse? trimmed).map (float kind)
  | .decimal => (Decimal.parse? trimmed).map decimal
  | .date => (Calendar.parseDate? trimmed).map date
  | .datetime => (Calendar.parseMoment? trimmed).map datetime
  | .text _ | .array | .sketch | .object => none

theorem ok_of_found_iff {result : Option Scalar} {error : ValueError} :
    (match result with | some value => Except.ok value | none => .error error) = .ok value ↔
    result = some value := by
  cases result with
  | none => exact ⟨nofun, nofun⟩
  | some found => rw [Except.ok.injEq, Option.some.injEq]

/-- Values of one width are parsed by what is found in their text. -/
theorem parse_eq_ok_iff (fixed : type.fixedSize?.isSome = true) (text : String) (length : Nat) :
    parse type text length = .ok value ↔ found? type (Text.trim text.toList) = some value := by
  cases type with
  | text kind | array | sketch | object => cases fixed
  | _ => exact ok_of_found_iff

/-- What is read from a text has room in its column, but for a moment that is not a whole microsecond. -/
theorem storable_of_parse {text : String} {length : Nat} (exact : ∀ kind, type ≠ .float kind)
    (read : parse type text length = .ok value) (micro : ∀ moment, value = datetime moment → moment.Micro) :
    Storable type value := by
  cases type with
  | boolean =>
    obtain ⟨v, _, rfl⟩ := Option.map_eq_some_iff.mp ((parse_eq_ok_iff rfl text length).mp read)
    exact trivial
  | integer kind =>
    obtain ⟨v, found, rfl⟩ := Option.map_eq_some_iff.mp ((parse_eq_ok_iff rfl text length).mp read)
    exact ⟨rfl, parseInteger?_fits found⟩
  | float kind => exact absurd rfl (exact kind)
  | decimal =>
    obtain ⟨v, found, rfl⟩ := Option.map_eq_some_iff.mp ((parse_eq_ok_iff rfl text length).mp read)
    exact parseDecimal?_fits found
  | date =>
    obtain ⟨v, found, rfl⟩ := Option.map_eq_some_iff.mp ((parse_eq_ok_iff rfl text length).mp read)
    exact Calendar.parseDate?_inRange found
  | datetime =>
    obtain ⟨v, found, rfl⟩ := Option.map_eq_some_iff.mp ((parse_eq_ok_iff rfl text length).mp read)
    exact ⟨Calendar.parseMoment?_covered found, micro v rfl⟩
  | text kind =>
    cases kind with
    | char | varchar | string =>
      cases read
      exact trivial
  | array | sketch | object => cases read

theorem Storable.micro {moment : Moment} (storable : Storable type (datetime moment)) : moment.Micro := by
  cases type with
  | datetime => exact storable.2
  | _ => cases storable

/-- A value that was read from storage survives it. One that was read from a text does exactly if it is not a moment
with a part of a microsecond or in a leap second. -/
theorem survives_storage (type : ColumnType) (exact : ∀ kind, type ≠ .float kind) :
    (∀ stored, ofStorage type stored = .ok value → ofStorage type value.storage = .ok value) ∧
    ∀ text length, parse type text length = .ok value →
      (ofStorage type value.storage = .ok value ↔ ∀ moment, value = datetime moment → moment.Micro) := by
  refine ⟨fun stored read => ofStorage_of_storable (storable_of_ofStorage exact read), fun text length read => ?_⟩
  rw [ofStorage_storage_iff exact]
  constructor
  · rintro storable moment rfl
    exact storable.micro
  · exact storable_of_parse exact read

/-- One microsecond into the last second before the epoch. -/
def beforeEpoch : Scalar := datetime ⟨-1, 86399, 1000⟩

theorem parse_beforeEpoch : parse .datetime "1969-12-31 23:59:59.000001" 0 = .ok beforeEpoch := by
  rw [parse_eq_ok_iff rfl]
  decide

theorem survives_storage_beforeEpoch : parse .datetime "1969-12-31 23:59:59.000001" 0 = .ok beforeEpoch ∧
    ofStorage .datetime beforeEpoch.storage = .ok beforeEpoch := by
  refine ⟨parse_beforeEpoch, ((survives_storage .datetime nofun).2 _ _ parse_beforeEpoch).mpr ?_⟩
  rintro moment ⟨⟩
  decide

/-- The tenth of a microsecond behind the epoch is read from a text and stored as the epoch. -/
theorem tenthMicro_lost : parse .datetime "1970-01-01 00:00:00.0000001" 0 = .ok (datetime ⟨0, 0, 100⟩) ∧
    ofStorage .datetime (datetime ⟨0, 0, 100⟩).storage = .ok (datetime ⟨0, 0, 0⟩) ∧
    ofStorage .datetime (datetime ⟨0, 0, 100⟩).storage ≠ .ok (datetime ⟨0, 0, 100⟩) := by
  have stored : ofStorage .datetime (datetime ⟨0, 0, 100⟩).storage = .ok (datetime ⟨0, 0, 0⟩) := rfl
  refine ⟨?_, stored, fun survives => ?_⟩
  · rw [parse_eq_ok_iff rfl]
    decide
  · rw [stored] at survives
    exact absurd (Except.ok.inj survives) (by decide)

end Scalar

end Columnar
