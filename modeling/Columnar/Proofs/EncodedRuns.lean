import Columnar.Proofs.CursorReads
import Columnar.Proofs.RunSegments

namespace Columnar

/-- The bits of some bytes are counted from the lowest one of the first byte. -/
def Bytes.bit (data : Bytes) (place : Nat) : Bool := (data.getD (place / 8) 0).toNat.testBit (place % 8)

theorem Bytes.testBit_toNat (data : Bytes) (place : Nat) : (toNat data).testBit place = data.bit place := by
  induction data generalizing place with
  | nil => simp [toNat, bit]
  | cons b rest ih =>
    have parts : b.toNat + 256 * toNat rest = 2 ^ 8 * toNat rest + b.toNat := Nat.add_comm ..
    rw [toNat, parts, Nat.testBit_two_pow_mul_add _ b.toNat_lt]
    split
    · rename_i first
      rw [bit, Nat.div_eq_of_lt first, Nat.mod_eq_of_lt first, List.getD_cons_zero]
    · have byte : place / 8 = (place - 8) / 8 + 1 := by omega
      have offset : place % 8 = (place - 8) % 8 := by omega
      rw [ih, bit, bit, byte, offset, List.getD_cons_succ]

namespace Segment

variable {width : Nat} {segment : Segment} {segments : List Segment} {stored stream : Bytes}

/-- Bytes hold what belongs behind the header of a piece: the bytes of the one value, or the bits of all the values,
each from the lowest up and right behind those of the value before. -/
def Holds (width : Nat) (stored : Bytes) : Segment → Prop
  | repeated value _ => stored.length = (width + 7) / 8 ∧ Bytes.toNat stored = value
  | packed values => stored.length = values.length / 8 * width ∧
      ∀ place (within : place < values.length), ∀ bit < width,
        stored.bit (width * place + bit) = values[place].testBit bit

/-- A stream consists of the pieces, each behind its header. -/
inductive Encoded (width : Nat) : List Segment → Bytes → Prop
  | nil : Encoded width [] []
  | cons {segment : Segment} {segments : List Segment} {stored behind : Bytes} :
      segment.Holds width stored → Encoded width segments behind →
      Encoded width (segment :: segments) (Run.writeHeader segment.header ++ stored ++ behind)

theorem testBit_ofDigits {values : List Nat} (small : ∀ value ∈ values, value < 2 ^ width) {place bit : Nat}
    (within : place < values.length) (below : bit < width) :
    (Nat.ofDigits (2 ^ width) values).testBit (width * place + bit) = values[place].testBit bit := by
  induction values generalizing place with
  | nil => exact absurd within (Nat.not_lt_zero place)
  | cons value rest ih =>
    obtain ⟨first, others⟩ := List.forall_mem_cons.mp small
    rw [Nat.ofDigits_cons, Nat.add_comm, Nat.testBit_two_pow_mul_add _ first]
    cases place with
    | zero => rw [Nat.mul_zero, Nat.zero_add, if_pos below, List.getElem_cons_zero]
    | succ place =>
      have behind : ¬width * (place + 1) + bit < width := by rw [Nat.mul_succ]; omega
      have left : width * (place + 1) + bit - width = width * place + bit := by rw [Nat.mul_succ]; omega
      rw [if_neg behind, left, ih others (Nat.lt_of_succ_lt_succ within), List.getElem_cons_succ]

/-- A number is made of digits exactly if it has their bits and no others. -/
theorem eq_ofDigits_iff {values : List Nat} (positive : 0 < width)
    (small : ∀ value ∈ values, value < 2 ^ width) {n : Nat} (bound : n < 2 ^ (width * values.length)) :
    n = Nat.ofDigits (2 ^ width) values ↔
      ∀ place (within : place < values.length), ∀ bit < width,
        n.testBit (width * place + bit) = values[place].testBit bit := by
  constructor
  · rintro rfl place within bit below
    exact testBit_ofDigits small within below
  · intro same
    have digits : Nat.ofDigits (2 ^ width) values < 2 ^ (width * values.length) := by
      rw [Nat.pow_mul]
      exact Nat.ofDigits_lt_base_pow_length (Nat.one_lt_two_pow (Nat.ne_of_gt positive)) small
    refine Nat.eq_of_testBit_eq fun place => ?_
    by_cases within : place < width * values.length
    · have value : place / width < values.length := Nat.div_lt_of_lt_mul within
      have below : place % width < width := Nat.mod_lt place positive
      rw [← Nat.div_add_mod place width, same _ value _ below, testBit_ofDigits small value below]
    · have beyond : 2 ^ (width * values.length) ≤ 2 ^ place :=
        Nat.pow_le_pow_right (by decide) (Nat.le_of_not_lt within)
      rw [Nat.testBit_lt_two_pow (Nat.lt_of_lt_of_le bound beyond),
        Nat.testBit_lt_two_pow (Nat.lt_of_lt_of_le digits beyond)]

/-- Only one sequence of bytes holds a piece. -/
theorem Fits.holds_iff (fits : segment.Fits width) (positive : 0 < width) :
    segment.Holds width stored ↔ stored = segment.body width := by
  cases segment with
  | repeated value count =>
    rw [Holds, body, Bytes.toNat_eq_iff]
    constructor
    · rintro ⟨length, _, same⟩
      rw [same, length]
    · rintro rfl
      rw [Bytes.length_ofNat]
      exact ⟨rfl, lt_pow_bytes fits.1, rfl⟩
  | packed values =>
    have digits (size : stored.length = values.length / 8 * width) :
        Bytes.toNat stored = Nat.ofDigits (2 ^ width) values ↔
          ∀ place (within : place < values.length), ∀ bit < width,
            stored.bit (width * place + bit) = values[place].testBit bit := by
      have bound := Bytes.toNat_lt stored
      rw [size, pow_packed_bytes fits.2.1, ← Nat.pow_mul] at bound
      simp only [eq_ofDigits_iff positive fits.1 bound, Bytes.testBit_toNat]
    rw [Holds]
    constructor
    · rintro ⟨size, same⟩
      rw [body, (Bytes.toNat_eq_iff.mp ((digits size).mpr same)).2, size]
    · rintro rfl
      have size : ((packed values).body width).length = values.length / 8 * width := Bytes.length_ofNat ..
      exact ⟨size, (digits size).mp (fits.toNat_body_packed positive)⟩

theorem encoded_iff (fits : ∀ segment ∈ segments, segment.Fits width) (positive : 0 < width) :
    Encoded width segments stream ↔ stream = segments.flatMap (write width) := by
  constructor
  · intro encoded
    induction encoded with
    | nil => rfl
    | cons holds _ ih =>
      obtain ⟨first, others⟩ := List.forall_mem_cons.mp fits
      rw [List.flatMap_cons, write, ← ih others, (first.holds_iff positive).mp holds]
  · rintro rfl
    induction segments with
    | nil => exact .nil
    | cons segment rest ih =>
      obtain ⟨first, others⟩ := List.forall_mem_cons.mp fits
      exact .cons ((first.holds_iff positive).mpr rfl) (ih others)

/-- Pieces can be encoded, and of any stream that they are encoded as the first values are decoded, as many as are
asked for or as there are. No more can be asked for than there can be room for. -/
theorem decode_encoded (positive : 0 < width) (most : width ≤ 32)
    (fits : ∀ segment ∈ segments, segment.Fits width) : (∃ stream, Encoded width segments stream) ∧
      ∀ stream, Encoded width segments stream → ∀ count, Run.decode width count stream =
        if count < Run.unstorable then .ok ((segments.flatMap values).take count) else .error .outOfStorage := by
  refine ⟨⟨_, (encoded_iff fits positive).mpr rfl⟩, fun stream encoded count => ?_⟩
  by_cases storable : count < Run.unstorable
  · rw [if_pos storable, (encoded_iff fits positive).mp encoded, decode_flatMap_write fits positive most storable]
  · rw [if_neg storable, Run.decode, if_neg (Nat.not_lt.mpr most), if_pos (Nat.not_lt.mp storable)]

/-- Three times a five, a run of no values, and a group of eight. -/
def threePieces : List Segment := [.repeated 5 3, .repeated 2 0, .packed [1, 2, 3, 4, 5, 6, 7, 0]]

theorem decode_encoded_three :
    (∃ stream, Encoded 3 threePieces stream) ∧
      (∀ stream, Encoded 3 threePieces stream → ∀ count, Run.decode 3 count stream =
        if count < Run.unstorable then .ok ((threePieces.flatMap values).take count) else .error .outOfStorage) ∧
      Encoded 3 threePieces [6, 5, 0, 2, 3, 0xD1, 0x58, 0x1F] ∧
      Run.decode 3 4 [6, 5, 0, 2, 3, 0xD1, 0x58, 0x1F] = .ok [5, 5, 5, 1] := by
  have fits : ∀ segment ∈ threePieces, segment.Fits 3 := by simp [threePieces, Fits]
  have stream : Encoded 3 threePieces [6, 5, 0, 2, 3, 0xD1, 0x58, 0x1F] := (encoded_iff fits (by decide)).mpr (by
    simp [threePieces, write, Run.writeHeader, body, header, Nat.ofDigits, Bytes.ofNat])
  obtain ⟨encoded, decoded⟩ := decode_encoded (by decide) (by decide) fits
  exact ⟨encoded, decoded, stream, decoded _ stream 4⟩

/-- Three times a five, of which more are asked for than there can be room for. -/
theorem threeFives_not_decoded :
    (∀ segment ∈ [repeated 5 3], segment.Fits 3) ∧ Encoded 3 [repeated 5 3] [6, 5] ∧
      Run.decode 3 (2 ^ 61) [6, 5] ≠ .ok (([repeated 5 3].flatMap values).take (2 ^ 61)) := by
  have fits : ∀ segment ∈ [repeated 5 3], segment.Fits 3 := by simp [Fits]
  have stream : Encoded 3 [repeated 5 3] [6, 5] := (encoded_iff fits (by decide)).mpr (by
    simp [write, Run.writeHeader, body, header, Bytes.ofNat])
  refine ⟨fits, stream, fun decoded => ?_⟩
  have stops : Run.decode 3 (2 ^ 61) [6, 5] = .error .outOfStorage := rfl
  cases stops.symm.trans decoded

end Segment

end Columnar
