import Columnar.Proofs.BitStreams

namespace Columnar.Run

/-- What is decoded of a stream: nothing where no more values are asked for or where it ends, else the first values
of its next run and then those of the rest. -/
inductive Decoded (width : Nat) : Nat → Bytes → List Nat → Prop
  | enough {input : Bytes} : Decoded width 0 input []
  | ended {input : Bytes} {count : Nat} : next width input = .ok none → Decoded width count input []
  | run {input rest : Bytes} {count : Nat} {first : Run} {others : List Nat} :
      next width input = .ok (some (first, rest)) →
      Decoded width (count - (first.values width count).length) rest others →
      Decoded width count input (first.values width count ++ others)

variable {width count fewer more : Nat} {input : Bytes} {values : List Nat}

theorem decodeFrom_eq_ok_iff : decodeFrom width count input = .ok values ↔ Decoded width count input values := by
  constructor
  · intro decoded
    fun_induction decodeFrom width count input generalizing values with
    | case1 input =>
      cases decoded
      exact .enough
    | case2 => cases decoded
    | case3 count input _ step =>
      cases decoded
      exact .ended step
    | case4 count input _ first rest step =>
      rename_i ih
      obtain ⟨others, below, rfl⟩ := map_eq_ok decoded
      exact .run step (ih below)
  · intro decoded
    induction decoded with
    | enough => rw [decodeFrom, if_pos rfl]
    | ended step => exact decodeFrom_of_none step _
    | run step _ ih =>
      rw [decodeFrom_of_some step, ih]
      rfl

/-- Of a run the first values are the same however many are asked for. -/
theorem take_values (first : Run) (le : fewer ≤ count) :
    (first.values width count).take fewer = first.values width fewer := by
  cases first with
  | repeated value length =>
    have least : min fewer (min length count) = min length fewer := by omega
    rw [Run.values, Run.values, List.take_replicate, least]
  | packed data =>
    have least : min (min (8 * data.length / width) count) fewer = min (8 * data.length / width) fewer := by omega
    rw [Run.values, Run.values, unpack_take, least]

theorem length_values_le (first : Run) (width count : Nat) : (first.values width count).length ≤ count := by
  cases first with
  | repeated value length =>
    rw [Run.values, List.length_replicate]
    exact Nat.min_le_right length count
  | packed data =>
    rw [Run.values, unpack_eq_map, List.length_map, List.length_range]
    exact Nat.min_le_right _ count

/-- A run that has fewer values than asked for has given all of them. -/
theorem values_of_short {first : Run} (short : (first.values width count).length < count) (le : count ≤ more) :
    first.values width more = first.values width count := by
  have cut : (first.values width more).take count = first.values width count := take_values first le
  have all : (first.values width more).length < count := by
    rw [← cut, List.length_take] at short
    omega
  rw [← cut, List.take_of_length_le (Nat.le_of_lt all)]

namespace Decoded

theorem length_le (decoded : Decoded width count input values) : values.length ≤ count := by
  induction decoded with
  | enough => exact Nat.le_refl 0
  | ended _ => exact Nat.zero_le _
  | @run _ _ count first _ _ _ ih =>
    have most := length_values_le first width count
    rw [List.length_append]
    omega

/-- Asking for fewer values neither reads past the cut nor changes what is in front of it. -/
theorem take (decoded : Decoded width count input values) (le : fewer ≤ count) :
    Decoded width fewer input (values.take fewer) := by
  induction decoded generalizing fewer with
  | enough =>
    rw [List.take_nil, Nat.le_zero.mp le]
    exact .enough
  | ended step =>
    rw [List.take_nil]
    exact .ended step
  | @run _ rest count first others step _ ih =>
    have cut : (first.values width count).take fewer = first.values width fewer := take_values first le
    have left : fewer - (first.values width fewer).length = fewer - (first.values width count).length := by
      rw [← cut, List.length_take]
      omega
    rw [List.take_append, cut]
    refine .run step ?_
    rw [left]
    exact ih (Nat.sub_le_sub_right le _)

/-- A stream that gives fewer values than asked for has ended, so that it gives no more. -/
theorem grow (decoded : Decoded width count input values) (short : values.length < count) (le : count ≤ more) :
    Decoded width more input values := by
  induction decoded generalizing more with
  | enough => exact absurd short (Nat.lt_irrefl 0)
  | ended step => exact .ended step
  | @run _ rest count first others step _ ih =>
    rw [List.length_append] at short
    have same : first.values width more = first.values width count := values_of_short (by omega) le
    rw [← same] at short ih ⊢
    exact .run step (ih (by omega) (Nat.sub_le_sub_right le _))

end Decoded

/-- Asking for fewer values of a stream only cuts the answer. There are never more values than asked for, and where
there are fewer the stream has no others, however many can be asked for. -/
theorem decode_cut (decoded : decode width count input = .ok values) :
    values.length ≤ count ∧ (∀ fewer ≤ count, decode width fewer input = .ok (values.take fewer)) ∧
      (values.length < count → ∀ more ≥ count, decode width more input =
        if more < unstorable then .ok values else .error .outOfStorage) := by
  have storable := storable_of_decode decoded
  unfold decode at decoded ⊢
  rw [if_neg (Nat.not_le.mpr storable)] at decoded
  have below (fewer : Nat) (le : fewer ≤ count) : ¬unstorable ≤ fewer :=
    Nat.not_le.mpr (Nat.lt_of_le_of_lt le storable)
  by_cases wide : 32 < width
  · rw [if_pos wide] at decoded
    cases decoded
  · rw [if_neg wide] at decoded
    simp only [if_neg wide]
    by_cases none : width = 0
    · rw [if_pos none] at decoded
      cases decoded
      simp only [if_pos none, List.length_replicate, Nat.lt_irrefl, false_implies, Nat.le_refl, true_and, and_true]
      intro fewer le
      rw [if_neg (below fewer le), List.take_replicate, Nat.min_eq_left le]
    · rw [if_neg none, decodeFrom_eq_ok_iff] at decoded
      simp only [if_neg none]
      refine ⟨decoded.length_le, fun fewer le => ?_, fun short more le => ?_⟩
      · rw [if_neg (below fewer le)]
        exact decodeFrom_eq_ok_iff.mpr (decoded.take le)
      · by_cases room : more < unstorable
        · rw [if_pos room, if_neg (Nat.not_le.mpr room)]
          exact decodeFrom_eq_ok_iff.mpr (decoded.grow short le)
        · rw [if_neg room, if_pos (Nat.not_lt.mp room)]

/-- Three times a five, eight values of three bits, and a header that goes on for more than 64 bits. -/
def brokenStream : Bytes := [6, 5, 3, 0xD1, 0x58, 0x1F] ++ List.replicate 11 0xFF

/-- The values in front of what is broken, which an answer cut inside the second run does not reach; and a stream
that ends behind its only run. -/
theorem decode_cut_broken :
    decode 3 11 brokenStream = .ok [5, 5, 5, 1, 2, 3, 4, 5, 6, 7, 0] ∧
      decode 3 5 brokenStream = .ok [5, 5, 5, 1, 2] ∧ decode 3 12 brokenStream = .error .runHeaderOverflow ∧
      decode 3 5 [6, 5] = .ok [5, 5, 5] ∧ decode 3 1000000 [6, 5] = .ok [5, 5, 5] := by
  have broken : decode 3 11 brokenStream = .ok [5, 5, 5, 1, 2, 3, 4, 5, 6, 7, 0] := by cbv
  have ended : decode 3 5 [6, 5] = .ok [5, 5, 5] := by cbv
  exact ⟨broken, (decode_cut broken).2.1 5 (by decide), by cbv, ended,
    (decode_cut ended).2.2 (by decide) 1000000 (by decide)⟩

end Columnar.Run
