import Mathlib.Data.Nat.Digits.Defs
import Columnar.Proofs.ScalarOrder
import Columnar.Proofs.StoredScalars

namespace Columnar

/-- The highest bit of some bytes, of which the last one is the most significant. -/
def Bytes.highBit (stored : Bytes) : Bool := stored.getLast?.any fun last => 128 ≤ last.toNat

/-- The number that bytes stand for, the least significant of them first. The highest bit of a signed one counts
negative. -/
def Bytes.number (signed : Bool) (stored : Bytes) : Int :=
  (Nat.ofDigits 256 (stored.map UInt8.toNat) : Nat) - if signed && stored.highBit then 256 ^ stored.length else 0

namespace Bytes

theorem ofDigits_eq_toNat (stored : Bytes) : Nat.ofDigits 256 (stored.map UInt8.toNat) = toNat stored := by
  induction stored with
  | nil => rfl
  | cons b rest ih => rw [List.map_cons, Nat.ofDigits_cons, ih, toNat]

theorem number_unsigned (stored : Bytes) : number false stored = toNat stored := by
  rw [number, ofDigits_eq_toNat, Bool.false_and, if_neg Bool.false_ne_true, Int.sub_zero]

/-- The highest bit is set in the upper half of the numbers. -/
theorem highBit_iff (stored : Bytes) : stored.highBit = true ↔ 256 ^ stored.length ≤ 2 * toNat stored := by
  induction stored with
  | nil => simp [highBit, toNat]
  | cons b rest ih =>
    have small := b.toNat_lt
    cases rest with
    | nil =>
      have lone : highBit [b] = decide (128 ≤ b.toNat) := rfl
      rw [lone, decide_eq_true_iff, List.length_singleton, toNat, toNat]
      omega
    | cons next more =>
      have same : highBit (b :: next :: more) = highBit (next :: more) :=
        congrArg (Option.any _) List.getLast?_cons_cons
      have room : 256 ^ (next :: more).length = 256 * 256 ^ more.length := Nat.pow_succ'
      have value : toNat (b :: next :: more) = b.toNat + 256 * toNat (next :: more) := rfl
      rw [same, ih, value, List.length_cons (a := b), Nat.pow_succ', room]
      omega

theorem number_signed (stored : Bytes) : number true stored = toInt stored := by
  have high := highBit_iff stored
  rw [number, toInt, ofDigits_eq_toNat, Bool.true_and]
  by_cases half : 2 * toNat stored < 256 ^ stored.length
  · rw [if_neg (fun bit => absurd (high.mp bit) (Nat.not_le.mpr half)), if_pos half, Int.sub_zero]
  · rw [if_pos (high.mpr (Nat.le_of_not_lt half)), if_neg half]

end Bytes

/-- Whether the numbers of a type may be negative. Other types have no numbers, or floats. -/
def ColumnType.signed? : ColumnType → Option Bool
  | integer kind => some (kind ≠ .unsigned)
  | decimal | date | datetime => some true
  | boolean | float _ | text _ | array | sketch | object => none

/-- Numbers of two digits are compared by the higher digit, then by the lower one. -/
theorem compare_digits {base low below : Nat} (small : low < base) (small' : below < base) (high above : Int) :
    Ord.compare (high * base + low) (above * base + below) =
      (Ord.compare high above).then (Ord.compare low below) := by
  rcases Int.lt_trichotomy high above with less | rfl | greater
  · have steps : (high + 1) * base ≤ above * base := Int.mul_le_mul_of_nonneg_right less (Int.natCast_nonneg base)
    rw [Int.add_mul, Int.one_mul] at steps
    rw [compare_lt_iff_lt.mpr less, compare_lt_iff_lt.mpr (by omega)]
    rfl
  · have same : Ord.compare high high = .eq := compare_eq_iff_eq.mpr rfl
    rw [same, Ordering.eq_then, ← compare_natCast]
    rcases Nat.lt_trichotomy low below with less | rfl | greater
    · rw [compare_lt_iff_lt.mpr (by omega), compare_lt_iff_lt.mpr (by omega)]
    · rw [compare_eq_iff_eq.mpr rfl, compare_eq_iff_eq.mpr rfl]
    · rw [compare_gt_iff_gt.mpr (by omega), compare_gt_iff_gt.mpr (by omega)]
  · have steps : (above + 1) * base ≤ high * base :=
      Int.mul_le_mul_of_nonneg_right greater (Int.natCast_nonneg base)
    rw [Int.add_mul, Int.one_mul] at steps
    rw [compare_gt_iff_gt.mpr greater, compare_gt_iff_gt.mpr (by omega)]
    rfl

namespace Moment

variable {moment other : Moment}

theorem compare_micros (covered : moment.Covered) (micro : moment.Micro) (covered' : other.Covered)
    (micro' : other.Micro) : moment.compare other = Ord.compare moment.micros other.micros := by
  have nanos : Ord.compare moment.nano other.nano = Ord.compare (moment.nano / 1000) (other.nano / 1000) := by
    have whole := micro.2
    have whole' := micro'.2
    rcases Nat.lt_trichotomy moment.nano other.nano with less | same | greater
    · rw [compare_lt_iff_lt.mpr less, compare_lt_iff_lt.mpr (by omega)]
    · rw [same, compare_eq_iff_eq.mpr rfl, compare_eq_iff_eq.mpr rfl]
    · rw [compare_gt_iff_gt.mpr greater, compare_gt_iff_gt.mpr (by omega)]
  have micros : moment.nano / 1000 < 1000000 := Nat.div_lt_of_lt_mul micro.1
  have micros' : other.nano / 1000 < 1000000 := Nat.div_lt_of_lt_mul micro'.1
  have seconds := compare_digits covered.second_lt covered'.second_lt moment.day other.day
  rw [micros_eq micro, micros_eq micro', compare, nanos]
  have all := compare_digits micros micros' (moment.day * 86400 + moment.second) (other.day * 86400 + other.second)
  exact all.symm ▸ seconds.symm ▸ (Ordering.then_assoc ..).symm

/-- The moment that some microseconds name has so many of them. -/
theorem micros_of_ofMicros? {micros : Int} (read : ofMicros? micros = some moment) : moment.micros = micros := by
  obtain ⟨_, micro⟩ := ofMicros?_eq_some read
  rw [micros_eq micro]
  unfold ofMicros? at read
  rw [Int.fdiv_eq_ediv_of_nonneg _ (by decide)] at read
  dsimp only at read
  split at read
  · cases read
    dsimp only
    omega
  · cases read

end Moment

namespace Scalar

/-- A float that is not a number. -/
def isNaN : Scalar → Bool
  | float kind bits => kind.format.isNaN bits
  | _ => false

variable {a b c : Scalar} {type : ColumnType} {signed : Bool} {stored : Bytes}

section Kinds

/-- A value of each kind but null. -/
def samples : List Scalar :=
  boolean false :: [IntKind.tiny, .small, .int, .unsigned, .big, .large].map (integer · 0) ++
    [float .single 0, float .double 0, decimal 0, date 0, datetime ⟨0, 0, 0⟩, bytes []]

/-- The line of a value is told by the name of its kind. -/
theorem line?_eq_find? (number : a.isNaN = false) : a.line? = samples.find? (·.kindName = a.kindName) := by
  cases a with
  | integer kind value => cases kind <;> rfl
  | float kind bits =>
    rw [line?, if_neg (by simpa [isNaN] using number)]
    cases kind <;> rfl
  | _ => rfl

theorem map_kindName_line? (known : a ≠ null) (number : a.isNaN = false) :
    a.line?.map kindName = some a.kindName := by
  cases a with
  | null => exact absurd rfl known
  | float kind bits =>
    rw [line?, if_neg (by simpa [isNaN] using number)]
    rfl
  | _ => rfl

theorem isSome_line? (known : a ≠ null) (number : a.isNaN = false) : a.line?.isSome = true := by
  have named := congrArg Option.isSome (map_kindName_line? known number)
  rwa [Option.isSome_map] at named

theorem line?_eq_iff (known : a ≠ null) (known' : b ≠ null) (number : a.isNaN = false) (number' : b.isNaN = false) :
    a.line? = b.line? ↔ a.kindName = b.kindName := by
  constructor
  · intro shared
    have named := congrArg (Option.map kindName) shared
    rw [map_kindName_line? known number, map_kindName_line? known' number'] at named
    exact Option.some.inj named
  · intro named
    rw [line?_eq_find? number, line?_eq_find? number', named]

/-- Two values can be compared exactly if they are of one kind. -/
theorem isSome_compare_iff (known : a ≠ null) (known' : b ≠ null) (number : a.isNaN = false)
    (number' : b.isNaN = false) : (a.compare b).isSome = true ↔ a.kindName = b.kindName := by
  rw [compare_eq known known', ← line?_eq_iff known known' number number', isSome_line? known number]
  split <;> simp_all

end Kinds

theorem isLe_self (number : a.isNaN = false) : a.isLe a = true := by
  by_cases known : a = null
  · subst known
    rfl
  · exact isLe_refl (isSome_line? known number)

/-- The number that a value is stored as. -/
def count : Scalar → Int
  | integer _ value => value
  | decimal unscaled => unscaled
  | date day => day
  | datetime moment => moment.micros
  | _ => 0

theorem count_of_ofStorage (numeric : type.signed? = some signed) (read : ofStorage type stored = .ok a) :
    a.count = stored.number signed := by
  obtain ⟨_, read⟩ := ofStorage_eq_ok read
  cases type with
  | integer kind =>
    by_cases unsigned : kind = .unsigned
    · subst unsigned
      cases numeric
      cases read
      exact (Bytes.number_unsigned stored).symm
    · rw [ofBytes_signed unsigned] at read
      cases read
      obtain rfl : decide (kind ≠ .unsigned) = signed := Option.some.inj numeric
      rw [decide_eq_true unsigned, Bytes.number_signed, count]
  | decimal =>
    cases numeric
    cases read
    exact (Bytes.number_signed stored).symm
  | date =>
    cases numeric
    unfold ofBytes at read
    dsimp only at read
    split at read
    · cases read
      exact (Bytes.number_signed stored).symm
    · cases read
  | datetime =>
    cases numeric
    unfold ofBytes at read
    dsimp only at read
    split at read
    next moment found =>
      cases read
      rw [count, Moment.micros_of_ofMicros? found, Bytes.number_signed]
    next => cases read
  | boolean | float kind | text kind | array | sketch | object => cases numeric

/-- Values of a type that has numbers are compared as these. -/
theorem compare_count (numeric : type.signed?.isSome = true) (storable : Storable type a)
    (storable' : Storable type b) : a.compare b = some (Ord.compare a.count b.count) := by
  cases type with
  | integer kind =>
    cases a <;> cases storable
    cases b <;> cases storable'
    subst_vars
    exact if_pos rfl
  | decimal =>
    cases a <;> cases storable
    cases b <;> cases storable'
    rfl
  | date =>
    cases a <;> first | cases storable | skip
    cases b <;> first | cases storable' | skip
    rfl
  | datetime =>
    cases a <;> cases storable
    cases b <;> cases storable'
    exact congrArg some (Moment.compare_micros ‹_› ‹_› ‹_› ‹_›)
  | boolean | float kind | text kind | array | sketch | object => cases numeric

/-- Within a kind the order is total. -/
theorem isLe_or_isLe (number : a.isNaN = false) (number' : b.isNaN = false) (named : a.kindName = b.kindName) :
    a.isLe b = true ∨ b.isLe a = true := by
  by_cases known : a = null
  · exact .inl (isLe_iff.mpr (.inl known))
  by_cases known' : b = null
  · exact .inr (isLe_iff.mpr (.inl known'))
  obtain ⟨order, compared⟩ :=
    Option.isSome_iff_exists.mp ((isSome_compare_iff known known' number number').mpr named)
  rw [isLe, isLe, compare_swap (a := a), compared]
  cases order <;> simp

theorem null_compare (known : a ≠ null) : null.compare a = some .lt := by
  cases a with
  | null => exact absurd rfl known
  | _ => rfl

/-- Values that are not NaN are ordered partially, as they are equal: null first, and each kind on a line of its
own. Numbers read from storage are ordered as the bytes count them. -/
theorem compare_laws :
    (∀ a b c : Scalar, a.isNaN = false → b.isNaN = false → c.isNaN = false →
      a.isLe a = true ∧ (a.isLe b = true → b.isLe c = true → a.isLe c = true) ∧
      (a.isLe b = true → b.isLe a = true → a.eqv b = true) ∧ (a.eqv b = true ↔ a.compare b = some .eq) ∧
      b.compare a = (a.compare b).map Ordering.swap ∧ (a ≠ null → null.compare a = some .lt) ∧
      (a ≠ null → b ≠ null → ((a.compare b).isSome = true ↔ a.kindName = b.kindName)) ∧
      (a.kindName = b.kindName → a.isLe b = true ∨ b.isLe a = true)) ∧
    ∀ (type : ColumnType) (signed : Bool), type.signed? = some signed → ∀ (stored stored' : Bytes) (a b : Scalar),
      ofStorage type stored = .ok a → ofStorage type stored' = .ok b →
      a.compare b = some (Ord.compare (stored.number signed) (stored'.number signed)) := by
  refine ⟨fun a b c number number' _ => ?_, fun type signed numeric stored stored' a b read read' => ?_⟩
  · exact ⟨isLe_self number, isLe_trans, fun before behind => eqv_iff_isLe.mpr ⟨before, behind⟩, eqv_iff,
      compare_swap, null_compare, fun known known' => isSome_compare_iff known known' number number',
        isLe_or_isLe number number'⟩
  · have exact : ∀ kind, type ≠ .float kind := by
      rintro kind rfl
      cases numeric
    rw [compare_count (Option.isSome_of_mem numeric) (storable_of_ofStorage exact read)
      (storable_of_ofStorage exact read'), count_of_ofStorage numeric read, count_of_ofStorage numeric read']

/-- The zeros of both signs are equal, and the same four bytes are the last unsigned number and the last negative
one. -/
theorem compare_laws_signs :
    (float .double (2 ^ 63)).eqv (float .double 0) = true ∧ (null).compare (float .double 0) = some .lt ∧
      (bytes [255]).compare (float .double 0) = none ∧
      (integer .unsigned 4294967295).compare (integer .unsigned 1) = some .gt ∧
      (integer .int (-1)).compare (integer .int 1) = some .lt ∧
      (datetime ⟨-1, 86399, 999999000⟩).compare (datetime ⟨0, 0, 0⟩) = some .lt := by
  obtain ⟨laws, numbers⟩ := compare_laws
  have zeros := laws (float .double (2 ^ 63)) (float .double 0) (float .double 0) (by decide) (by decide)
    (by decide)
  have first := laws (float .double 0) (float .double 0) (float .double 0) (by decide) (by decide) (by decide)
  have apart := laws (bytes [255]) (float .double 0) (float .double 0) (by decide) (by decide) (by decide)
  refine ⟨zeros.2.2.1 (by decide) (by decide), first.2.2.2.2.2.1 (by decide), ?_, ?_, ?_, ?_⟩
  · rw [← Option.not_isSome_iff_eq_none, apart.2.2.2.2.2.2.1 (by decide) (by decide)]
    decide
  · exact numbers (.integer .unsigned) false rfl [255, 255, 255, 255] [1, 0, 0, 0] _ _ (by decide) (by decide)
  · exact numbers (.integer .int) true rfl [255, 255, 255, 255] [1, 0, 0, 0] _ _ (by decide) (by decide)
  · exact numbers .datetime true rfl (List.replicate 8 255) (List.replicate 8 0) _ _ (by decide) (by decide)

end Scalar

end Columnar
