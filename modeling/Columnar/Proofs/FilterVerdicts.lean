import Columnar.Proofs.ZoneVerdicts

namespace Columnar

/-- Of a number only the bits that have room are stored. -/
theorem Bytes.ofNat_mod (width n : Nat) : ofNat width (n % 256 ^ width) = ofNat width n := by
  have stored := ofNat_toNat (ofNat width n)
  rwa [length_ofNat, toNat_ofNat] at stored

namespace FloatFormat

variable (format : FloatFormat)

/-- The zero of a sign. -/
def zero (negative : Bool) : Nat := if negative then format.signBit else 0

@[simp] theorem isNegative_zero (negative : Bool) : format.isNegative (format.zero negative) = negative := by
  cases negative <;> simp [isNegative, zero, signBit, Nat.div_self (Nat.two_pow_pos _)]

@[simp] theorem magnitude_zero (negative : Bool) : format.magnitude (format.zero negative) = 0 := by
  cases negative <;> simp [magnitude, zero, signBit]

end FloatFormat

namespace FloatKind

variable {kind : FloatKind} {a b bits : Nat}

theorem width_format (kind : FloatKind) :
    256 ^ kind.width = 2 ^ (kind.format.exponentBits + kind.format.fractionBits) * 2 := by
  cases kind <;> rfl

/-- What is stored of a float tells its sign and its magnitude and nothing else. -/
theorem storage_congr (sign : kind.format.isNegative a = kind.format.isNegative b)
    (magnitude : kind.format.magnitude a = kind.format.magnitude b) :
    (Scalar.float kind a).storage = (Scalar.float kind b).storage := by
  have top (n : Nat) : n / 2 ^ (kind.format.exponentBits + kind.format.fractionBits) % 2 =
      if kind.format.isNegative n = true then 1 else 0 := by
    simp only [FloatFormat.isNegative, decide_eq_true_eq]
    split <;> omega
  rw [Scalar.storage, Scalar.storage, ← Bytes.ofNat_mod, ← Bytes.ofNat_mod kind.width b, width_format, Nat.mod_mul,
    Nat.mod_mul, top, top, sign]
  exact congrArg (fun rest => Bytes.ofNat kind.width (rest + _)) magnitude

theorem storage_zero (none : kind.format.magnitude bits = 0) :
    (Scalar.float kind bits).storage =
    (Scalar.float kind (kind.format.zero (kind.format.isNegative bits))).storage :=
  storage_congr (by simp) (by simp [none])

theorem zero_lt (kind : FloatKind) (negative : Bool) : kind.format.zero negative < 256 ^ kind.width := by
  cases kind <;> cases negative <;> decide

theorem hash_zero (kind : FloatKind) (negative : Bool) :
    Hash.ofBytes (Scalar.float kind (kind.format.zero negative)).storage =
      match kind, negative with
      | .single, false => 4246796580750024372
      | .single, true => 9380524276503839603
      | .double, false => 3803688792395291579
      | .double, true => 4558309869707674848 := by
  cases kind <;> cases negative <;> cbv

theorem hash_zero_ne (kind : FloatKind) (negative : Bool) :
    Hash.ofBytes (Scalar.float kind (kind.format.zero negative)).storage / BloomFilter.half ≠
      Hash.ofBytes (Scalar.float kind (kind.format.zero (!negative))).storage / BloomFilter.half := by
  rw [hash_zero, hash_zero]
  cases kind <;> cases negative <;> decide

end FloatKind

namespace Scalar

/-- The zero of the other sign. -/
def otherZero? : Scalar → Option Scalar
  | float kind bits =>
    if kind.format.magnitude bits =
      0 then some (float kind (kind.format.zero (!kind.format.isNegative bits))) else none
  | _ => none

/-- A value that can be stored in a column of a type. -/
def OfType (type : ColumnType) (value : Scalar) : Prop := ∃ stored, ofStorage type stored = .ok value

variable {value operand zero : Scalar} {type : ColumnType}

theorem otherZero_eq_some : operand.otherZero? = some zero ↔ ∃ kind bits, operand = float kind bits ∧
    kind.format.magnitude bits = 0 ∧ zero = float kind (kind.format.zero (!kind.format.isNegative bits)) := by
  cases operand with
  | float kind bits => simp [otherZero?, eq_comm]
  | _ => simp [otherZero?]

theorem eqv_float {value : Scalar} {kind : FloatKind} {bits : Nat} :
    value.eqv (float kind bits) = true ↔ ∃ found, value = float kind found ∧ kind.format.isNaN found = false ∧
      kind.format.isNaN bits = false ∧ kind.format.place found = kind.format.place bits := by
  cases value with
  | float other found =>
    by_cases same : other = kind
    · subst same
      simp [eqv, FloatFormat.compare, and_assoc]
    · simp [eqv, same]
  | _ => simp [eqv]

/-- Values that are equal are stored alike, but for zeros of different signs. -/
theorem storage_of_eqv (same : value.eqv operand = true) :
    value.storage = operand.storage ∨ ∃ zero, operand.otherZero? = some zero ∧ value.storage = zero.storage := by
  cases operand with
  | float kind bits =>
    obtain ⟨found, rfl, _, _, places⟩ := eqv_float.mp same
    unfold FloatFormat.place at places
    by_cases sign : kind.format.isNegative found = kind.format.isNegative bits
    · refine .inl (FloatKind.storage_congr sign ?_)
      rw [sign] at places
      split at places <;> omega
    · -- Only zero is the same with either sign.
      have signs : kind.format.isNegative found = !kind.format.isNegative bits := Bool.eq_not.mpr sign
      have none : kind.format.magnitude found = 0 ∧ kind.format.magnitude bits = 0 := by
        rw [signs] at places
        cases negative : kind.format.isNegative bits <;> simp [negative] at places <;> omega
      refine .inr ⟨_, otherZero_eq_some.mpr ⟨kind, bits, rfl, none.2, rfl⟩, ?_⟩
      rw [FloatKind.storage_zero none.1, signs]
  | _ => cases value <;> simp_all [eqv]

theorem eqv_of_otherZero (other : operand.otherZero? = some zero) :
    operand.isNull = false ∧ zero.isNull = false ∧ zero.eqv operand = true := by
  obtain ⟨kind, bits, rfl, none, rfl⟩ := otherZero_eq_some.mp other
  refine ⟨rfl, rfl, eqv_float.mpr ⟨_, rfl, ?_, ?_, ?_⟩⟩
  · simp [FloatFormat.isNaN]
  · simp [FloatFormat.isNaN, none]
  · simp [FloatFormat.place, none]

theorem ofType_float {kind : FloatKind} {bits : Nat} :
    (float kind bits).OfType type ↔ type = .float kind ∧ bits < 256 ^ kind.width := by
  constructor
  · rintro ⟨stored, read⟩
    unfold ofStorage at read
    split at read
    next size fixed =>
      split at read
      next width =>
        cases type with
        | float other =>
          cases read
          cases fixed
          exact ⟨rfl, width ▸ Bytes.toNat_lt stored⟩
        | integer other => cases other <;> simp [ofBytes] at read
        | date | datetime =>
          simp only [ofBytes] at read
          split at read <;> simp at read
        | _ => simp [ofBytes] at read
      next => cases read
    next none => cases type <;> simp_all [ofBytes, ColumnType.fixedSize?]
  · rintro ⟨rfl, below⟩
    refine ⟨Bytes.ofNat kind.width bits, ?_⟩
    simp [ofStorage, ColumnType.fixedSize?, ofBytes, Bytes.toNat_ofNat, Nat.mod_eq_of_lt below]

/-- A column that has a value equal to a zero may have the zero of the other sign. -/
theorem ofType_of_eqv (typed : value.OfType type) (same : value.eqv operand = true)
    (other : operand.otherZero? = some zero) : zero.OfType type := by
  obtain ⟨kind, bits, rfl, _, rfl⟩ := otherZero_eq_some.mp other
  obtain ⟨found, rfl, _⟩ := eqv_float.mp same
  exact ofType_float.mpr ⟨(ofType_float.mp typed).1, kind.zero_lt _⟩

end Scalar

namespace BloomFilter

/-- A filter has been given the values of a page: it tells whether one is null, and holds the hashes of the
others. -/
structure Summarises (filter : BloomFilter) (values : List Scalar) : Prop where
  created : create filter.blocks filter.hasNull = .ok filter
  null_iff : filter.hasNull = true ↔ .null ∈ values
  holds : ∀ value ∈ values, value.isNull = false → filter.holdsHash (Hash.ofBytes value.storage) = true

/-- No filter tells two hashes apart. -/
def Alike (hash other : Nat) : Prop := hash / half = other / half ∧ bitsOf hash = bitsOf other

instance (hash other : Nat) : Decidable (Alike hash other) := inferInstanceAs (Decidable (_ ∧ _))

/-- The block of a filter that tells of a hash. -/
def block (filter : BloomFilter) (hash : Nat) : Nat :=
  Bytes.toNat ((filter.blocks.drop (blockSize * blockOf (filter.blocks.length / blockSize) hash)).take blockSize)

/-- A block with the bits of a list. -/
def setBits : List Nat → Nat
  | [] => 0
  | bit :: rest => 2 ^ bit ||| setBits rest

/-- A filter with as many blocks as hashes can name, to which one hash has been added. -/
def ofHash (hash : Nat) : BloomFilter where
  blocks := List.replicate (blockSize * (hash / half)) 0 ++ Bytes.ofNat blockSize (setBits (bitsOf hash)) ++
    List.replicate (blockSize * (half - 1 - hash / half)) 0
  hasNull := false

variable {filter : BloomFilter} {hash other : Nat}

theorem holdsHash_iff : filter.holdsHash hash = true ↔ ∀ bit ∈ bitsOf hash,
    (filter.block hash).testBit bit = true := by
  rw [holdsHash, List.all_eq_true]
  rfl

theorem Alike.holdsHash (alike : Alike hash other) : filter.holdsHash hash = filter.holdsHash other := by
  rw [BloomFilter.holdsHash, BloomFilter.holdsHash, blockOf, blockOf, alike.1, alike.2]

theorem testBit_setBits (bits : List Nat) (bit : Nat) : (setBits bits).testBit bit = true ↔ bit ∈ bits := by
  induction bits with
  | nil => simp [setBits]
  | cons first rest ih =>
    simp only [setBits, Nat.testBit_or, Bool.or_eq_true, Nat.testBit_two_pow, decide_eq_true_eq, ih, List.mem_cons]
    exact or_congr_left eq_comm

theorem mem_bitsOf {bit : Nat} : bit ∈ bitsOf hash ↔
    ∃ salt word, salts[word]? = some salt ∧ bit = 32 * word + hash * salt % half / (half / 32) := by
  simp only [bitsOf, List.mem_map, Prod.exists, List.mem_zipIdx_iff_getElem?]
  exact exists₂_congr fun salt word => and_congr_right fun _ => eq_comm

/-- A hash sets one bit in each of the eight words. -/
theorem bit_word (hash salt word : Nat) : (32 * word + hash * salt % half / (half / 32)) / 32 = word := by
  have below : hash * salt % half < half := Nat.mod_lt _ (by decide)
  simp only [half] at *
  omega

theorem bitsOf_lt {bit : Nat} (member : bit ∈ bitsOf hash) : bit < 256 := by
  obtain ⟨salt, word, found, rfl⟩ := mem_bitsOf.mp member
  have within : word < 8 := (List.getElem?_eq_some_iff.mp found).1
  have place := bit_word hash salt word
  omega

theorem bitsOf_eq (within : ∀ bit ∈ bitsOf other, bit ∈ bitsOf hash) : bitsOf other = bitsOf hash := by
  refine List.map_congr_left ?_
  rintro ⟨salt, word⟩ member
  have found := List.mem_zipIdx_iff_getElem?.mp member
  obtain ⟨salt', word', found', same⟩ := mem_bitsOf.mp (within _ (mem_bitsOf.mpr ⟨salt, word, found, rfl⟩))
  have words : word = word' := by rw [← bit_word other salt word, same, bit_word]
  subst words
  cases found.symm.trans found'
  exact same

theorem toNat_replicate (n : Nat) : Bytes.toNat (List.replicate n 0) = 0 := by
  induction n with
  | zero => rfl
  | succ n ih => simp [List.replicate_succ, Bytes.toNat, ih]

theorem length_ofHash (small : hash < half * half) : (ofHash hash).blocks.length = blockSize * half := by
  have upper : hash / half < half := Nat.div_lt_of_lt_mul small
  simp only [ofHash, List.length_append, List.length_replicate, Bytes.length_ofNat, blockSize]
  omega

theorem setBits_lt : setBits (bitsOf hash) < 256 ^ blockSize := by
  have bits : 256 ^ blockSize = 2 ^ (8 * blockSize) := by decide
  rw [bits]
  refine Nat.lt_pow_two_of_testBit _ fun bit large => ?_
  rw [Bool.eq_false_iff, ne_eq, testBit_setBits]
  intro member
  exact absurd (bitsOf_lt member) (Nat.not_lt_of_le large)

theorem block_ofHash (small : hash < half * half) :
    (ofHash hash).block other = if other / half = hash / half then setBits (bitsOf hash) else 0 := by
  have named : blockOf half other = other / half := Nat.mul_div_cancel _ (by decide)
  rw [block, length_ofHash small, Nat.mul_div_cancel_left half (by decide), named, ofHash]
  dsimp only
  rw [List.append_assoc]
  rcases Nat.lt_trichotomy (other / half) (hash / half) with before | same | behind
  · have skip : blockSize * (hash / half) =
        blockSize * (other / half) + (blockSize + blockSize * (hash / half - other / half - 1)) := by
      simp only [blockSize]
      omega
    rw [if_neg (by omega), skip, ← List.replicate_append_replicate, List.append_assoc,
      List.drop_left' List.length_replicate, ← List.replicate_append_replicate, List.append_assoc,
      List.take_left' List.length_replicate, toNat_replicate]
  · rw [if_pos same, same, List.drop_left' List.length_replicate, List.take_left' (Bytes.length_ofNat ..),
      Bytes.toNat_ofNat]
    exact Nat.mod_eq_of_lt setBits_lt
  · have skip : blockSize * (other / half) =
        blockSize * (hash / half) + (blockSize + blockSize * (other / half - hash / half - 1)) := by
      simp only [blockSize]
      omega
    rw [if_neg (by omega), skip, ← List.drop_drop, List.drop_left' List.length_replicate, ← List.drop_drop,
      List.drop_left' (Bytes.length_ofNat ..), List.drop_replicate, List.take_replicate, toNat_replicate]

/-- The filter holds the hash and no other that any filter can tell from it. -/
theorem holdsHash_ofHash (small : hash < half * half) : (ofHash hash).holdsHash other = true ↔
    Alike other hash := by
  rw [holdsHash_iff, block_ofHash small]
  by_cases same : other / half = hash / half
  · simp only [same, if_true, testBit_setBits]
    constructor
    · exact fun within => ⟨same, bitsOf_eq within⟩
    · rintro ⟨_, bits⟩ bit member
      rwa [← bits]
  · refine iff_of_false (fun held => ?_) fun alike => same alike.1
    have first : 32 * 0 + other * 0x47b6137b % half / (half / 32) ∈ bitsOf other := mem_bitsOf.mpr ⟨_, 0, rfl, rfl⟩
    have set := held _ first
    rw [if_neg same, Nat.zero_testBit] at set
    cases set

theorem hash_lt (stored : Bytes) : Hash.ofBytes stored < half * half := UInt64.toNat_lt _

theorem ofHash_summarises {value : Scalar} (known : value.isNull = false) :
    (ofHash (Hash.ofBytes value.storage)).Summarises [value] := by
  have small := hash_lt value.storage
  refine ⟨?_, ?_, ?_⟩
  · have length := length_ofHash small
    refine if_neg ?_
    rw [List.isEmpty_iff_length_eq_zero, length, Nat.mul_mod_right]
    decide
  · refine iff_of_false nofun fun null => ?_
    cases List.mem_singleton.mp null
    cases known
  · intro other member _
    cases List.mem_singleton.mp member
    exact (holdsHash_ofHash small).mpr ⟨rfl, rfl⟩

theorem mayHold_eq {value : Scalar} (known : value.isNull = false) :
    filter.mayHold value = filter.holdsHash (Hash.ofBytes value.storage) := by
  rw [mayHold, if_neg (by simp [known])]
  rfl

end BloomFilter

namespace Predicate

/-- The operands that values are compared with: of several operands equality takes the first, membership all. -/
def compared (op : CompareOp) (operands : List Scalar) : List Scalar :=
  if op = .eq then operands.take 1 else operands

/-- The value of a row is null, or equal to one of some values other than null. -/
def Sought (op : CompareOp) (wanted : List Scalar) (value : Scalar) : Prop :=
  match op with
  | .isNull => value.isNull = true
  | _ => value.isNull = false ∧ ∃ operand ∈ wanted, operand.isNull = false ∧ value.eqv operand = true

/-- Where a filter of a page rules a comparison out, no value of the page is one of the wanted ones. -/
def FilterTells (type : ColumnType) (op : CompareOp) (operands wanted : List Scalar) : Prop :=
  ∀ values filter, (∀ value ∈ values, value = .null ∨ value.OfType type) → BloomFilter.Summarises filter values →
    mayMatchFilter filter (.comparison op operands) = false → ∀ value ∈ values, ¬Sought op wanted value

/-- For each zero that is wanted the filter is asked, by one operand or another, for the hash of the zero of the
other sign too. -/
def AsksBothZeros (type : ColumnType) (operands wanted : List Scalar) : Prop :=
  ∀ operand ∈ wanted, ∀ zero, operand.otherZero? = some zero → zero.OfType type →
    ∃ other ∈ operands, other.isNull = false ∧
      BloomFilter.Alike (Hash.ofBytes other.storage) (Hash.ofBytes zero.storage)

variable {type : ColumnType} {op : CompareOp} {operands wanted : List Scalar} {operand zero value : Scalar}
  {filter : BloomFilter}

theorem fulfils_iff_sought (uses : usesBloomFilter (.comparison op operands) = true) (value : Scalar) :
    fulfils op operands value = true ↔ Sought op (compared op operands) value := by
  cases op with
  | isNull => rfl
  | oneOf => simp [fulfils, Sought, compared, CompareOp.relates]
  | eq => cases operands <;> simp [fulfils, Sought, compared, CompareOp.relates]
  | _ => cases uses

theorem sought_iff (uses : usesBloomFilter (.comparison op operands) = true) (kind : op ≠ .isNull) :
    Sought op wanted value ↔
      value.isNull = false ∧ ∃ operand ∈ wanted, operand.isNull = false ∧ value.eqv operand = true := by
  cases op with
  | eq | oneOf => rfl
  | isNull => exact absurd rfl kind
  | _ => cases uses

/-- A filter rules out a comparison other than with null if it does not hold any operand. -/
theorem mayMatchFilter_eq_false (uses : usesBloomFilter (.comparison op operands) = true) (kind : op ≠ .isNull) :
    mayMatchFilter filter (.comparison op operands) = false ↔ ∀ operand ∈ operands,
      filter.mayHold operand = false := by
  cases op with
  | eq | oneOf => simp [mayMatchFilter]
  | isNull => exact absurd rfl kind
  | _ => cases uses

theorem filterTells_isNull : FilterTells type .isNull operands wanted := by
  intro values filter _ summarises verdict value member null
  have missing : filter.hasNull = false := verdict
  have held := summarises.null_iff.mpr (Scalar.isNull_iff.mp null ▸ member)
  rw [missing] at held
  cases held

theorem filterTells_of_asksBothZeros (uses : usesBloomFilter (.comparison op operands) = true) (kind : op ≠ .isNull)
    (among : wanted ⊆ operands) (asks : AsksBothZeros type operands wanted) :
    FilterTells type op operands wanted := by
  intro values filter typed summarises verdict value member sought
  rw [mayMatchFilter_eq_false uses kind] at verdict
  obtain ⟨known, operand, want, some, same⟩ := (sought_iff uses kind).mp sought
  have held := summarises.holds value member known
  rcases Scalar.storage_of_eqv same with stored | ⟨zero, other, stored⟩
  · have missing := verdict operand (among want)
    rw [BloomFilter.mayHold_eq some, ← stored, held] at missing
    cases missing
  · have fits : value.OfType type := by
      refine (typed value member).resolve_left ?_
      rintro rfl
      cases known
    obtain ⟨asked, also, valued, alike⟩ := asks operand want zero other (Scalar.ofType_of_eqv fits same other)
    have missing := verdict asked also
    rw [BloomFilter.mayHold_eq valued, alike.holdsHash, ← stored, held] at missing
    cases missing

theorem asksBothZeros_of_filterTells (uses : usesBloomFilter (.comparison op operands) = true) (kind : op ≠ .isNull)
    (tells : FilterTells type op operands wanted) : AsksBothZeros type operands wanted := by
  intro operand want zero other typed
  obtain ⟨some, known, same⟩ := Scalar.eqv_of_otherZero other
  by_contra apart
  -- A page that has nothing but the other zero is told to have nothing.
  refine tells [zero] (BloomFilter.ofHash (Hash.ofBytes zero.storage)) (by simpa using .inr typed)
    (BloomFilter.ofHash_summarises known) ?_ zero List.mem_cons_self
    ((sought_iff uses kind).mpr ⟨known, operand, want, some, same⟩)
  rw [mayMatchFilter_eq_false uses kind]
  intro asked also
  rw [Bool.eq_false_iff]
  intro held
  cases null : asked.isNull with
  | true =>
    rw [BloomFilter.mayHold, if_pos null] at held
    cases held
  | false =>
    rw [BloomFilter.mayHold_eq null, BloomFilter.holdsHash_ofHash (BloomFilter.hash_lt _)] at held
    exact apart ⟨asked, also, null, held⟩

/-- Filters can tell the zeros of the two signs apart. -/
theorem not_alike_of_otherZero (other : operand.otherZero? = some zero) :
    ¬BloomFilter.Alike (Hash.ofBytes operand.storage) (Hash.ofBytes zero.storage) := by
  obtain ⟨kind, bits, rfl, none, rfl⟩ := Scalar.otherZero_eq_some.mp other
  rw [FloatKind.storage_zero none]
  exact fun alike => kind.hash_zero_ne _ alike.1

/-- Where a filter rules a comparison out, no row has a value that is wanted, be it of the operands that the
comparison looks at or of all, exactly if the filter is asked for both zeros where one is wanted. A single operand
never asks for both. -/
theorem filterTells_iff (type : ColumnType) (op : CompareOp) (operands : List Scalar)
    (uses : usesBloomFilter (.comparison op operands) = true) :
    (∀ value, fulfils op operands value = true ↔ Sought op (compared op operands) value) ∧
    compared op operands ⊆ operands ∧
    (∀ wanted, wanted ⊆ operands →
      (FilterTells type op operands wanted ↔ op = .isNull ∨ AsksBothZeros type operands wanted)) ∧
    ∀ operand, operands = [operand] →
      (FilterTells type op operands operands ↔
        op = .isNull ∨ ∀ zero, operand.otherZero? = some zero → ¬zero.OfType type) := by
  have tells (wanted : List Scalar) (among : wanted ⊆ operands) :
      FilterTells type op operands wanted ↔ op = .isNull ∨ AsksBothZeros type operands wanted := by
    by_cases null : op = .isNull
    · subst null
      exact iff_of_true filterTells_isNull (.inl rfl)
    · rw [or_iff_right null]
      exact ⟨asksBothZeros_of_filterTells uses null, filterTells_of_asksBothZeros uses null among⟩
  have among : compared op operands ⊆ operands := by
    unfold compared
    split
    · exact List.take_subset 1 operands
    · exact List.Subset.refl operands
  refine ⟨fulfils_iff_sought uses, among, tells, ?_⟩
  rintro operand rfl
  rw [tells _ (List.Subset.refl _)]
  refine or_congr_right ⟨?_, ?_⟩
  · intro asks zero other typed
    obtain ⟨asked, also, _, alike⟩ := asks operand List.mem_cons_self zero other typed
    cases List.mem_singleton.mp also
    exact not_alike_of_otherZero other alike
  · intro apart asked also zero other typed
    cases List.mem_singleton.mp also
    exact absurd typed (apart zero other)

/-- Zero of either sign, and null. -/
def bothZeros : List Scalar := [.float .double 0, .null, .float .double (FloatFormat.double.zero true)]

/-- Zero is told right if it is asked for with both signs. -/
theorem filterTells_bothZeros : usesBloomFilter (.comparison .oneOf bothZeros) = true ∧
    FilterTells (.float .double) .oneOf bothZeros bothZeros := by
  obtain ⟨_, _, tells, _⟩ := filterTells_iff (.float .double) .oneOf bothZeros rfl
  refine ⟨rfl, (tells bothZeros (List.Subset.refl _)).mpr (.inr ?_)⟩
  intro operand want zero other _
  simp only [bothZeros, List.mem_cons, List.not_mem_nil, or_false] at want
  rcases want with rfl | rfl | rfl
  · obtain rfl : .float .double (FloatFormat.double.zero true) = zero := Option.some.inj other
    exact ⟨_, by simp [bothZeros], rfl, rfl, rfl⟩
  · cases other
  · obtain rfl : .float .double 0 = zero := Option.some.inj other
    exact ⟨_, by simp [bothZeros], rfl, rfl, rfl⟩

/-- A filter that has been given the positive zero rules out that a value equals the negative one. -/
theorem negativeZero_not_filterTells : ∃ filter, BloomFilter.Summarises filter [.float .double 0] ∧
    mayMatchFilter filter (.comparison .eq [.float .double (FloatFormat.double.zero true)]) = false ∧
    (Scalar.float .double 0).OfType (.float .double) ∧
    fulfils .eq [.float .double (FloatFormat.double.zero true)] (.float .double 0) = true := by
  refine ⟨⟨[0, 2, 0, 0, 0, 0, 0, 4, 0, 32, 0, 0, 0, 0, 0, 2, 16, 0, 0, 0, 0, 0, 0, 16, 0, 64, 0, 0, 0, 64, 0, 0],
    false⟩, ⟨by decide, by decide, ?_⟩, by cbv, ⟨List.replicate 8 0, by decide⟩, by decide⟩
  intro value member _
  cases List.mem_singleton.mp member
  cbv

end Predicate

end Columnar
