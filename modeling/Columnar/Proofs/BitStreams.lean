import Columnar.Proofs.Outcome
import Columnar.Runs

namespace Columnar.Run

/-- The values of a run of single bits. A packed run has eight in a byte, the least significant first. -/
def bits : Run → List Nat
  | repeated value count => List.replicate count value
  | packed data => data.flatMap fun b => (List.range 8).map fun place => b.toNat / 2 ^ place % 2

/-- The runs of a stream in order, with the values of repeated runs as they are stored. -/
inductive Stored (width : Nat) : Bytes → List Run → Prop
  | done {input : Bytes} : next width input = .ok none → Stored width input []
  | run {input rest : Bytes} {first : Run} {others : List Run} :
      next width input = .ok (some (first, rest)) → Stored width rest others → Stored width input (first :: others)

/-- Among the first values of some runs there is one of more than a bit: a repeated run that is not empty starts
there. -/
def Wide (count : Nat) (stored : List Run) : Prop :=
  ∃ front value length back, stored = front ++ repeated value length :: back ∧
    0 < length ∧ (front.flatMap bits).length < count ∧ 1 < value

variable {input : Bytes} {runs stored : List Run}

theorem unpack_take (width count most n : Nat) :
    (unpack width count n).take most = unpack width (min count most) n := by
  induction count generalizing most n with
  | zero => simp [unpack]
  | succ count ih =>
    cases most with
    | zero => simp [unpack]
    | succ most => rw [Nat.succ_min_succ, unpack, unpack, List.take_succ_cons, ih]

theorem unpack_eq_map (width count n : Nat) :
    unpack width count n = (List.range count).map fun place => n / 2 ^ (width * place) % 2 ^ width := by
  induction count generalizing n with
  | zero => rfl
  | succ count ih =>
    rw [unpack, ih, List.range_succ_eq_map, List.map_cons, List.map_map, Nat.mul_zero, Nat.pow_zero, Nat.div_one]
    refine congrArg (_ :: ·) (List.map_congr_left fun place _ => ?_)
    rw [Function.comp_apply, Nat.mul_succ, Nat.add_comm, Nat.pow_add, Nat.div_div_eq_div_mul]

/-- The bits of some bytes are those of the first byte, then those of the others. -/
theorem unpack_bytes (data : Bytes) : unpack 1 (8 * data.length) (Bytes.toNat data) = (packed data).bits := by
  induction data with
  | nil => rfl
  | cons b rest ih =>
    have length : 8 * (b :: rest).length = 8 + 8 * rest.length := by rw [List.length_cons]; omega
    have head (place : Nat) (within : place < 8) :
        (b.toNat + 256 * Bytes.toNat rest) / 2 ^ (1 * place) % 2 ^ 1 = b.toNat / 2 ^ place % 2 := by
      rcases place with _ | _ | _ | _ | _ | _ | _ | _ | place <;>
        simp only [Nat.reduceMul, Nat.reducePow, Nat.reduceAdd] <;> omega
    have tail (place : Nat) :
        (b.toNat + 256 * Bytes.toNat rest) / 2 ^ (1 * (8 + place)) % 2 ^ 1 =
          Bytes.toNat rest / 2 ^ (1 * place) % 2 ^ 1 := by
      have small := b.toNat_lt
      rw [Nat.mul_add, Nat.pow_add, ← Nat.div_div_eq_div_mul]
      have high : (b.toNat + 256 * Bytes.toNat rest) / 2 ^ (1 * 8) = Bytes.toNat rest := by omega
      rw [high]
    rw [bits, List.flatMap_cons, ← bits, ← ih, length, unpack_eq_map, unpack_eq_map, List.range_add,
      List.map_append, List.map_map, Bytes.toNat]
    congr 1
    · exact List.map_congr_left fun place member => head place (List.mem_range.mp member)
    · exact List.map_congr_left fun place _ => tail place

theorem values_eq_take (run : Run) (most : Nat) : run.values 1 most = run.bits.take most := by
  cases run with
  | repeated value count => rw [values, bits, List.take_replicate, Nat.min_comm]
  | packed data => rw [values, Nat.div_one, ← unpack_take, unpack_bytes]

theorem bits_lowBit (run : Run) : run.lowBit.bits = run.bits.map (· % 2) := by
  cases run with
  | repeated value count => rw [lowBit, bits, bits, List.map_replicate]
  | packed data => simp only [lowBit, bits, List.map_flatMap, List.map_map, Function.comp_def, Nat.mod_mod]

theorem flatMap_bits_lowBit (stored : List Run) :
    (stored.map lowBit).flatMap bits = (stored.flatMap bits).map (· % 2) := by
  simp only [List.flatMap_map, List.map_flatMap, bits_lowBit]

/-- A stream that splits into runs of bits is a stream of runs of which the lowest bits are given. -/
theorem exists_stored (split : bitRuns input = .ok runs) : ∃ stored, Stored 1 input stored ∧
    runs = stored.map lowBit := by
  fun_induction bitRuns input generalizing runs with
  | case1 => cases split
  | case2 input step =>
    cases split
    exact ⟨[], .done step, rfl⟩
  | case3 input first rest step _ ih =>
    obtain ⟨others, below, rfl⟩ := map_eq_ok split
    obtain ⟨stored, holds, rfl⟩ := ih below
    exact ⟨first :: stored, .run step holds, rfl⟩

theorem values_zero (width : Nat) (run : Run) : run.values width 0 = [] := by
  cases run with
  | repeated value count => rw [values, Nat.min_zero, List.replicate_zero]
  | packed data => rw [values, Nat.min_zero, unpack]

theorem decodeFrom_of_none {width : Nat} (step : next width input = .ok none) (count : Nat) :
    decodeFrom width count input = .ok [] := by
  rw [decodeFrom]
  split
  · rfl
  · split <;> simp_all

theorem decodeFrom_of_some {width : Nat} {rest : Bytes} {first : Run}
    (step : next width input = .ok (some (first, rest))) (count : Nat) : decodeFrom width count input =
      (decodeFrom width (count - (first.values width count).length) rest).map (first.values width count ++ ·) := by
  by_cases none : count = 0
  · subst none
    rw [values_zero, Nat.zero_sub, decodeFrom, decodeFrom, if_pos rfl, if_pos rfl]
    rfl
  · rw [decodeFrom, if_neg none]
    split <;> simp_all

/-- Decoding gives the first values of the runs, as many as are asked for. -/
theorem Stored.decode_eq (holds : Stored 1 input stored) {count : Nat} (storable : count < unstorable) :
    decode 1 count input = .ok ((stored.flatMap bits).take count) := by
  rw [decode, if_neg (by decide), if_neg (Nat.not_le.mpr storable), if_neg (by decide)]
  clear storable
  induction holds generalizing count with
  | done step => rw [decodeFrom_of_none step, List.flatMap_nil, List.take_nil]
  | @run input rest first others step below ih =>
    rw [decodeFrom_of_some step, ih, values_eq_take, List.flatMap_cons, List.take_append, List.length_take]
    have left : count - min count first.bits.length = count - first.bits.length := by omega
    rw [left]
    rfl

theorem wide_cons {first : Run} {others : List Run} {count : Nat} :
    Wide count (first :: others) ↔
      (∃ value length, first = repeated value length ∧ 0 < length ∧ 0 < count ∧ 1 < value) ∨
        Wide (count - first.bits.length) others := by
  constructor
  · rintro ⟨front, value, length, back, parts, filled, within, wide⟩
    cases front with
    | nil =>
      cases parts
      exact .inl ⟨value, length, rfl, filled, within, wide⟩
    | cons run front =>
      cases parts
      rw [List.flatMap_cons, List.length_append] at within
      exact .inr ⟨front, value, length, back, rfl, filled, by omega, wide⟩
  · rintro (⟨value, length, rfl, filled, within, wide⟩ | ⟨front, value, length, back, rfl, filled, within, wide⟩)
    · exact ⟨[], value, length, others, rfl, filled, within, wide⟩
    · refine ⟨first :: front, value, length, back, rfl, filled, ?_, wide⟩
      rw [List.flatMap_cons, List.length_append]
      omega

theorem exists_wide_bit {first : Run} {count : Nat} :
    (∃ bit ∈ first.bits.take count, 1 < bit) ↔
      ∃ value length, first = repeated value length ∧ 0 < length ∧ 0 < count ∧ 1 < value := by
  cases first with
  | repeated value length =>
    simp only [bits, List.take_replicate, List.mem_replicate, repeated.injEq]
    constructor
    · rintro ⟨bit, ⟨filled, rfl⟩, wide⟩
      exact ⟨_, _, ⟨rfl, rfl⟩, by omega, by omega, wide⟩
    · rintro ⟨_, _, ⟨rfl, rfl⟩, filled, within, wide⟩
      exact ⟨value, ⟨by omega, rfl⟩, wide⟩
  | packed data =>
    simp only [reduceCtorEq, false_and, exists_false, iff_false]
    rintro ⟨bit, member, wide⟩
    obtain ⟨b, _, member⟩ := List.mem_flatMap.mp (List.mem_of_mem_take member)
    obtain ⟨place, _, rfl⟩ := List.mem_map.mp member
    omega

/-- Some first value of a stream has more than one bit exactly if a repeated run that starts there has. -/
theorem wide_iff (stored : List Run) (count : Nat) :
    Wide count stored ↔ ∃ bit ∈ (stored.flatMap bits).take count, 1 < bit := by
  induction stored generalizing count with
  | nil => simp [Wide]
  | cons first others ih =>
    rw [wide_cons, ih, ← exists_wide_bit, List.flatMap_cons, List.take_append]
    simp only [List.mem_append, or_and_right, exists_or]

theorem map_mod_eq_self_iff {values : List Nat} : values.map (· % 2) = values ↔ ¬∃ value ∈ values, 1 < value := by
  induction values with
  | nil => simp
  | cons value rest ih =>
    rw [List.map_cons, List.cons.injEq, ih]
    simp only [List.mem_cons, exists_eq_or_imp, not_or]
    exact and_congr_left fun _ => by omega

/-- As many values of a stream of single bits that splits into runs can be decoded as there can be room for. They
agree with the runs in their lowest bits, and altogether exactly if none of the values has more than one bit. -/
theorem decode_eq_bits_iff (split : bitRuns input = .ok runs) (count : Nat) :
    ∃ stored, Stored 1 input stored ∧ runs = stored.map lowBit ∧
      ((∃ values, decode 1 count input = .ok values) ↔ count < unstorable) ∧
      ∀ values, decode 1 count input = .ok values →
        values.map (· % 2) = (runs.flatMap bits).take count ∧
        (values = (runs.flatMap bits).take count ↔ ¬Wide count stored) := by
  obtain ⟨stored, holds, rfl⟩ := exists_stored split
  have low : ((stored.flatMap bits).take count).map (· % 2) = ((stored.map lowBit).flatMap bits).take count := by
    rw [flatMap_bits_lowBit, List.map_take]
  refine ⟨stored, holds, rfl, ⟨?_, fun storable => ⟨_, holds.decode_eq storable⟩⟩, fun values run => ?_⟩
  · rintro ⟨_, run⟩
    exact storable_of_decode run
  · cases (holds.decode_eq (storable_of_decode run)).symm.trans run
    refine ⟨low, ?_⟩
    rw [← low, wide_iff, ← map_mod_eq_self_iff]
    exact eq_comm

/-- Two rows of value one, then the bits of one byte. -/
def mixedStream : Bytes := [4, 1, 3, 0xA5]

theorem bitRuns_mixedStream : bitRuns mixedStream = .ok [repeated 1 2, packed [0xA5]] := by cbv

theorem decode_eq_bits_iff_mixed :
    bitRuns mixedStream = .ok [repeated 1 2, packed [0xA5]] ∧ ∃ stored values, Stored 1 mixedStream stored ∧
      [repeated 1 2, packed [0xA5]] = stored.map lowBit ∧ decode 1 9 mixedStream = .ok values ∧
      values.map (· % 2) = [1, 1, 1, 0, 1, 0, 0, 1, 0] ∧
      (values = [1, 1, 1, 0, 1, 0, 0, 1, 0] ↔ ¬Wide 9 stored) := by
  obtain ⟨stored, holds, split, storable, agrees⟩ := decode_eq_bits_iff bitRuns_mixedStream 9
  obtain ⟨values, run⟩ := storable.mpr (by decide)
  exact ⟨bitRuns_mixedStream, stored, values, holds, split, run, agrees values run⟩

/-- A row of a repeated value that has only its second bit set. -/
def wideStream : Bytes := [2, 2]

/-- The run of the value stands for a clear bit, and decoding gives the value as it is. -/
theorem wideStream_not_bits :
    ∃ runs values, bitRuns wideStream = .ok runs ∧ decode 1 1 wideStream = .ok values ∧
      values ≠ (runs.flatMap bits).take 1 :=
  ⟨[repeated 0 1], [2], by cbv, by cbv, by decide⟩

end Columnar.Run
