import Columnar.Bytes
import Columnar.Error

namespace Columnar

/-- A run of a hybrid stream: one value many times, or values packed bit by bit. -/
inductive Run where
  | repeated (value count : Nat)
  | packed (data : Bytes)
  deriving DecidableEq, Repr

namespace Error

def runHeaderOverflow : Error := ofCause (.encoding "a run header exceeds 64 bits")

def invalidRunWidth (bits : Nat) : Error := corruption s!"invalid hybrid RLE bit width {bits}"

end Error

namespace Run

/-- A number in groups of seven bits, the lowest group first; all bytes but the last have their high bit set. The
tenth group has a single bit. A number that the data cuts off ends there. -/
def readHeader (group : Nat) : Bytes → Except Error (Nat × Bytes)
  | [] => .ok (0, [])
  | b :: rest =>
    if group = 9 ∧ 1 < b then .error .runHeaderOverflow
    else if b < 128 then .ok (b.toNat, rest)
    else (readHeader (group + 1) rest).map fun (high, rest) => (b.toNat % 128 + 128 * high, rest)

theorem readHeader_length {group n : Nat} {input rest : Bytes} (read : readHeader group input = .ok (n, rest))
    (nonempty : input ≠ []) : rest.length < input.length := by
  induction input generalizing group n rest with
  | nil => exact absurd rfl nonempty
  | cons b tail ih =>
    unfold readHeader at read
    split at read
    · cases read
    · split at read
      · simp only [Except.ok.injEq, Prod.mk.injEq] at read
        simp [← read.2]
      · cases below : readHeader (group + 1) tail with
        | error e => simp [below, Except.map] at read
        | ok found =>
          simp only [below, Except.map, Except.ok.injEq, Prod.mk.injEq] at read
          rw [← read.2]
          cases tail with
          | nil => simp only [readHeader, Except.ok.injEq] at below; simp [← below]
          | cons c more => have := ih below (by simp); simp only [List.length_cons] at *; omega

/-- The next run of a stream. A stream ends where it has no bytes left, also right behind a header; a packed run
that goes beyond the end is cut there. -/
def next (bits : Nat) (input : Bytes) : Except Error (Option (Run × Bytes)) :=
  if input.isEmpty then .ok none
  else match readHeader 0 input with
    | .error error => .error error
    | .ok (header, rest) =>
      if rest.isEmpty then .ok none
      else
        let size := if header % 2 = 1 then header / 2 * bits else (bits + 7) / 8
        let run := if header % 2 = 1 then packed (rest.take size) else repeated (Bytes.toNat (rest.take size))
          (header / 2)
        .ok (some (run, rest.drop size))

theorem next_length {bits : Nat} {input rest : Bytes} {run : Run}
    (step : next bits input = .ok (some (run, rest))) : rest.length < input.length := by
  unfold next at step
  split at step
  · cases step
  · rename_i nonempty
    split at step
    · cases step
    · rename_i header tail read
      split at step
      · cases step
      · simp only [Except.ok.injEq, Option.some.injEq, Prod.mk.injEq] at step
        have := readHeader_length read (by simpa using nonempty)
        rw [← step.2, List.length_drop]
        omega

/-- The first `count` numbers of `bits` bits each in a number. -/
def unpack (bits : Nat) : Nat → Nat → List Nat
  | 0, _ => []
  | count + 1, n => n % 2 ^ bits :: unpack bits count (n / 2 ^ bits)

/-- At most `most` values of a run. A packed run has as many values as fit its bytes. -/
def values (bits most : Nat) : Run → List Nat
  | repeated value count => List.replicate (min count most) value
  | packed data => unpack bits (min (8 * data.length / bits) most) (Bytes.toNat data)

def decodeFrom (bits count : Nat) (input : Bytes) : Except Error (List Nat) :=
  if count = 0 then .ok []
  else match step : next bits input with
    | .error error => .error error
    | .ok none => .ok []
    | .ok (some (run, rest)) =>
      have := next_length step
      let found := run.values bits count
      (decodeFrom bits (count - found.length) rest).map (found ++ ·)
termination_by input.length

/-- The number of values that no storage has room for, at four bytes each. -/
def unstorable : Nat := 2 ^ 61

/-- The first values of a stream, at most `count` of them. Room for all of them is made before the stream is looked
at. Values of no bits are zeros and need no stream. -/
def decode (bits count : Nat) (input : Bytes) : Except Error (List Nat) :=
  if 32 < bits then .error (.invalidRunWidth bits)
  else if unstorable ≤ count then .error .outOfStorage
  else if bits = 0 then .ok (List.replicate count 0)
  else decodeFrom bits count input

/-- Whatever is decoded, its room was not more than storage can have. -/
theorem storable_of_decode {bits count : Nat} {input : Bytes} {found : List Nat}
    (run : decode bits count input = .ok found) : count < unstorable := by
  unfold decode at run
  split at run
  · cases run
  · split at run
    · cases run
    · rename_i few
      exact Nat.not_le.mp few

/-- Of a repeated value only the lowest bit counts. -/
def lowBit : Run → Run
  | repeated value count => repeated (value % 2) count
  | packed data => packed data

/-- The runs of a stream of single bits. -/
def bitRuns (input : Bytes) : Except Error (List Run) :=
  match step : next 1 input with
  | .error error => .error error
  | .ok none => .ok []
  | .ok (some (run, rest)) =>
    have := next_length step
    (bitRuns rest).map (run.lowBit :: ·)
termination_by input.length

end Run

end Columnar
