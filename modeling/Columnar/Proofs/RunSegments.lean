import Mathlib.Data.Nat.Digits.Lemmas
import Columnar.Proofs.BitStreams

namespace Columnar

namespace Run

/-- A number as it is written in groups of seven bits, the lowest group first. -/
def writeHeader (n : Nat) : Bytes :=
  if n < 128 then [UInt8.ofNat n] else UInt8.ofNat (128 + n % 128) :: writeHeader (n / 128)

theorem writeHeader_ne_nil (n : Nat) : writeHeader n ≠ [] := by
  rw [writeHeader]
  split <;> simp

/-- A written number is read back in front of anything, as long as its groups, behind so many others, fit 64
bits. -/
theorem readHeader_writeHeader {n group : Nat} (fits : n * 128 ^ group < 2 ^ 64) (within : group ≤ 9)
    (rest : Bytes) : readHeader group (writeHeader n ++ rest) = .ok (n, rest) := by
  induction n using Nat.strongRecOn generalizing group with
  | ind n ih =>
    -- Nine groups have 63 bits, which leaves a single one to the tenth.
    have last : group = 9 → n < 2 := by
      rintro rfl
      omega
    rw [writeHeader]
    split
    · rename_i small
      have byte : (UInt8.ofNat n).toNat = n := by rw [UInt8.toNat_ofNat']; omega
      have single : ¬(group = 9 ∧ 1 < UInt8.ofNat n) := by
        rw [UInt8.lt_iff_toNat_lt, byte]
        rintro ⟨ninth, many⟩
        exact absurd (last ninth) (Nat.not_lt.mpr many)
      have ends : UInt8.ofNat n < 128 := by rwa [UInt8.lt_iff_toNat_lt, byte]
      rw [List.singleton_append, readHeader, if_neg single, if_pos ends, byte]
    · rename_i large
      have byte : (UInt8.ofNat (128 + n % 128)).toNat = 128 + n % 128 := by rw [UInt8.toNat_ofNat']; omega
      have early : group ≠ 9 := fun ninth => by have := last ninth; omega
      have goesOn : ¬UInt8.ofNat (128 + n % 128) < 128 := by
        rw [UInt8.lt_iff_toNat_lt, byte]
        exact Nat.not_lt.mpr (Nat.le_add_right 128 _)
      have room : n / 128 * 128 ^ (group + 1) < 2 ^ 64 := by
        rw [Nat.pow_succ', ← Nat.mul_assoc]
        exact Nat.lt_of_le_of_lt (Nat.mul_le_mul_right _ (Nat.div_mul_le_self n 128)) fits
      have parts : (128 + n % 128) % 128 + 128 * (n / 128) = n := by omega
      rw [List.cons_append, readHeader, if_neg (fun both => early both.1), if_neg goesOn,
        ih (n / 128) (by omega) room (by omega), byte]
      exact congrArg (fun number => Except.ok (number, rest)) parts

theorem readHeader_zero_writeHeader {n : Nat} (fits : n < 2 ^ 64) (rest : Bytes) :
    readHeader 0 (writeHeader n ++ rest) = .ok (n, rest) :=
  readHeader_writeHeader (by rwa [Nat.pow_zero, Nat.mul_one]) (Nat.zero_le 9) rest

/-- Behind a header a run is read, unless the stream ends there. -/
theorem next_writeHeader {header : Nat} (fits : header < 2 ^ 64) (width : Nat) {rest : Bytes} (some : rest ≠ []) :
    next width (writeHeader header ++ rest) =
      let size := if header % 2 = 1 then header / 2 * width else (width + 7) / 8
      .ok (.some (if header % 2 = 1 then packed (rest.take size) else repeated (Bytes.toNat (rest.take size))
        (header / 2), rest.drop size)) := by
  have filled : (writeHeader header ++ rest).isEmpty = false := by simp [writeHeader_ne_nil]
  have ahead : rest.isEmpty = false := List.isEmpty_eq_false_iff.mpr some
  rw [next]
  simp only [filled, readHeader_zero_writeHeader fits, ahead, Bool.false_eq_true, if_false]

theorem next_writeHeader_end {header : Nat} (fits : header < 2 ^ 64) (width : Nat) :
    next width (writeHeader header) = .ok none := by
  have filled : (writeHeader header).isEmpty = false := List.isEmpty_eq_false_iff.mpr (writeHeader_ne_nil header)
  have read := readHeader_zero_writeHeader fits []
  rw [List.append_nil] at read
  rw [next]
  simp only [filled, read, Bool.false_eq_true, if_false, List.isEmpty_nil, if_true]

theorem unpack_ofDigits {width : Nat} {values : List Nat} (small : ∀ value ∈ values, value < 2 ^ width) :
    unpack width values.length (Nat.ofDigits (2 ^ width) values) = values := by
  induction values with
  | nil => rfl
  | cons value rest ih =>
    obtain ⟨first, others⟩ := List.forall_mem_cons.mp small
    rw [List.length_cons, unpack, Nat.ofDigits_cons, Nat.add_mul_mod_self_left, Nat.mod_eq_of_lt first,
      Nat.add_mul_div_left _ _ (Nat.two_pow_pos width), Nat.div_eq_of_lt first, Nat.zero_add, ih others]

end Run

/-- A piece of a hybrid stream: one value many times, or groups of eight values that are packed bit by bit. -/
inductive Segment where
  | repeated (value count : Nat)
  | packed (values : List Nat)
  deriving Repr

namespace Segment

open Run (next)

def values : Segment → List Nat
  | repeated value count => List.replicate count value
  | packed values => values

/-- The values have no more bits than the width, and a header can hold the number of them, or of their groups. -/
def Fits (width : Nat) : Segment → Prop
  | repeated value count => value < 2 ^ width ∧ count < 2 ^ 63
  | packed values => (∀ value ∈ values, value < 2 ^ width) ∧ values.length % 8 = 0 ∧ values.length / 8 < 2 ^ 63

def header : Segment → Nat
  | repeated _ count => 2 * count
  | packed values => 2 * (values.length / 8) + 1

/-- The bytes behind the header. The first of some packed values has the lowest bits. -/
def body (width : Nat) : Segment → Bytes
  | repeated value _ => Bytes.ofNat ((width + 7) / 8) value
  | packed values => Bytes.ofNat (values.length / 8 * width) (Nat.ofDigits (2 ^ width) values)

def write (width : Nat) (segment : Segment) : Bytes := Run.writeHeader segment.header ++ segment.body width

/-- The run that a piece is read as. -/
def run (width : Nat) : Segment → Run
  | repeated value count => .repeated value count
  | packed values => .packed ((packed values).body width)

variable {width : Nat} {segment : Segment}

theorem Fits.header_lt (fits : segment.Fits width) : segment.header < 2 ^ 64 := by
  cases segment with
  | repeated value count =>
    have := fits.2
    rw [header]
    omega
  | packed values =>
    have := fits.2.2
    rw [header]
    omega

/-- A value of so many bits fits the bytes that these take. -/
theorem lt_pow_bytes {value : Nat} (small : value < 2 ^ width) : value < 256 ^ ((width + 7) / 8) := by
  have bits : (2 : Nat) ^ width ≤ 2 ^ (8 * ((width + 7) / 8)) := Nat.pow_le_pow_right (by decide) (by omega)
  rw [Nat.pow_mul] at bits
  exact Nat.lt_of_lt_of_le small bits

/-- A piece is read back in front of anything, unless nothing follows its header. -/
theorem Fits.next_write (fits : segment.Fits width) {rest : Bytes} (some : segment.body width ++ rest ≠ []) :
    next width (segment.write width ++ rest) = .ok (.some (segment.run width, rest)) := by
  rw [write, List.append_assoc, Run.next_writeHeader fits.header_lt width some]
  cases segment with
  | repeated value count =>
    have even : 2 * count % 2 ≠ 1 := by omega
    have half : 2 * count / 2 = count := by omega
    have size : (Bytes.ofNat ((width + 7) / 8) value).length = (width + 7) / 8 := Bytes.length_ofNat ..
    simp only [header, body, run, even, half, if_false, List.take_left' size, List.drop_left' size,
      Bytes.toNat_ofNat, Nat.mod_eq_of_lt (lt_pow_bytes fits.1)]
  | packed values =>
    have odd : (2 * (values.length / 8) + 1) % 2 = 1 := by omega
    have half : (2 * (values.length / 8) + 1) / 2 = values.length / 8 := by omega
    have size : (Bytes.ofNat (values.length / 8 * width) (Nat.ofDigits (2 ^ width) values)).length =
        values.length / 8 * width := Bytes.length_ofNat ..
    simp only [header, body, run, odd, half, if_true, List.take_left' size, List.drop_left' size]

/-- Whole groups of values have as many bits as the bytes they are packed in. -/
theorem pow_packed_bytes {values : List Nat} (groups : values.length % 8 = 0) :
    256 ^ (values.length / 8 * width) = (2 ^ width) ^ values.length := by
  have whole : 8 * (values.length / 8) = values.length := Nat.mul_div_cancel' (Nat.dvd_of_mod_eq_zero groups)
  calc 256 ^ (values.length / 8 * width) = 2 ^ (8 * (values.length / 8 * width)) := (Nat.pow_mul 2 8 _).symm
    _ = (2 ^ width) ^ values.length := by rw [← Nat.mul_assoc, whole, Nat.mul_comm, Nat.pow_mul]

theorem Fits.toNat_body_packed {values : List Nat} (fits : (packed values).Fits width) (positive : 0 < width) :
    Bytes.toNat ((packed values).body width) = Nat.ofDigits (2 ^ width) values := by
  have room : Nat.ofDigits (2 ^ width) values < 256 ^ (values.length / 8 * width) := by
    rw [pow_packed_bytes fits.2.1]
    exact Nat.ofDigits_lt_base_pow_length (Nat.one_lt_two_pow (Nat.ne_of_gt positive)) fits.1
  rw [body, Bytes.toNat_ofNat, Nat.mod_eq_of_lt room]

/-- Of the run of a piece as many values are taken as asked for. -/
theorem Fits.values_run (fits : segment.Fits width) (positive : 0 < width) (most : Nat) :
    (segment.run width).values width most = segment.values.take most := by
  cases segment with
  | repeated value count => rw [run, Run.values, values, List.take_replicate, Nat.min_comm]
  | packed values =>
    have length : ((packed values).body width).length = values.length / 8 * width := Bytes.length_ofNat ..
    have all : 8 * (values.length / 8 * width) / width = values.length := by
      rw [← Nat.mul_assoc, Nat.mul_div_cancel' (Nat.dvd_of_mod_eq_zero fits.2.1), Nat.mul_div_cancel _ positive]
    rw [run, Run.values, length, all, fits.toNat_body_packed positive, ← Run.unpack_take,
      Run.unpack_ofDigits fits.1, Segment.values]

/-- A piece of which only the header is written has no values. -/
theorem Fits.values_of_body_nil (fits : segment.Fits width) (positive : 0 < width)
    (nothing : segment.body width = []) : segment.values = [] := by
  have length := congrArg List.length nothing
  cases segment with
  | repeated value count =>
    rw [body, Bytes.length_ofNat, List.length_nil] at length
    omega
  | packed values =>
    obtain ⟨_, groups, _⟩ := fits
    rw [body, Bytes.length_ofNat, List.length_nil, Nat.mul_eq_zero] at length
    have length : values.length = 0 := by omega
    exact List.length_eq_zero_iff.mp length

/-- A stream gives the first values of the pieces it is written from, however they are cut. -/
theorem decodeFrom_flatMap_write {segments : List Segment} (fits : ∀ segment ∈ segments, segment.Fits width)
    (positive : 0 < width) (count : Nat) :
    Run.decodeFrom width count (segments.flatMap (write width)) = .ok ((segments.flatMap values).take count) := by
  induction segments generalizing count with
  | nil => rw [List.flatMap_nil, Run.decodeFrom_of_none rfl, List.flatMap_nil, List.take_nil]
  | cons segment rest ih =>
    obtain ⟨first, others⟩ := List.forall_mem_cons.mp fits
    rw [List.flatMap_cons, List.flatMap_cons]
    by_cases ended : segment.body width ++ rest.flatMap (write width) = []
    · obtain ⟨nothing, behind⟩ := List.append_eq_nil_iff.mp ended
      have last : rest = [] := by
        cases rest with
        | nil => rfl
        | cons other more =>
          rw [List.flatMap_cons, write, List.append_assoc] at behind
          exact absurd (List.append_eq_nil_iff.mp behind).1 (Run.writeHeader_ne_nil _)
      subst last
      rw [List.flatMap_nil, List.flatMap_nil, List.append_nil, List.append_nil, write, nothing, List.append_nil,
        Run.decodeFrom_of_none (Run.next_writeHeader_end first.header_lt width),
        first.values_of_body_nil positive nothing, List.take_nil]
    · rw [Run.decodeFrom_of_some (first.next_write ended), ih others, first.values_run positive, List.take_append,
        List.length_take]
      have left : count - min count segment.values.length = count - segment.values.length := by omega
      rw [left]
      rfl

theorem decode_flatMap_write {segments : List Segment} (fits : ∀ segment ∈ segments, segment.Fits width)
    (positive : 0 < width) (most : width ≤ 32) {count : Nat} (storable : count < Run.unstorable) :
    Run.decode width count (segments.flatMap (write width)) = .ok ((segments.flatMap values).take count) := by
  rw [Run.decode, if_neg (Nat.not_lt.mpr most), if_neg (Nat.not_le.mpr storable), if_neg (Nat.ne_of_gt positive),
    decodeFrom_flatMap_write fits positive]

end Segment

end Columnar
