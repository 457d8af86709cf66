import Mathlib.Data.List.Chain
import Mathlib.Tactic.Common
import Columnar.Proofs.BitStreams
import Columnar.Proofs.NullRuns

namespace Columnar

namespace NullRun

/-- Neighbours differ. -/
def Alternating (runs : List NullRun) : Prop := runs.IsChain fun run other => other.isNull ≠ run.isNull

theorem Alternating.join {others : List NullRun} (alternating : Alternating others) (run : NullRun) :
    Alternating (NullRun.join run others) := by
  unfold NullRun.join
  split
  · exact alternating
  · cases others with
    | nil => exact .singleton run
    | cons other rest =>
      dsimp only
      split
      · rename_i same
        cases alternating with
        | singleton => exact .singleton _
        | cons_cons apart later => exact .cons_cons (same ▸ apart) later
      · rename_i apart
        exact .cons_cons apart alternating

theorem alternating_foldr_join (runs : List NullRun) : Alternating (runs.foldr join []) := by
  induction runs with
  | nil => exact .nil
  | cons run rest ih => exact ih.join run

theorem Alternating.drop {runs : List NullRun} (alternating : Alternating runs) (count : Nat) :
    Alternating (NullRun.drop count runs) := by
  induction runs generalizing count with
  | nil => exact .nil
  | cons run rest ih =>
    unfold NullRun.drop
    split
    · cases alternating with
      | singleton => exact .singleton _
      | cons_cons apart later => exact .cons_cons apart later
    · exact ih (List.IsChain.tail alternating) _

theorem drop_eq_nil {runs : List NullRun} {count : Nat} (beyond : rows runs ≤ count) :
    NullRun.drop count runs = [] := by
  induction runs generalizing count with
  | nil => rfl
  | cons run rest ih =>
    have parts : rows (run :: rest) = run.length + rows rest := rfl
    unfold NullRun.drop
    rw [if_neg (by omega), ih (by omega)]

theorem head?_expand {run : NullRun} (some : 0 < run.length) (rest : List NullRun) :
    (expand (run :: rest)).head? = .some run.isNull := by
  rw [expand_cons, List.head?_append, List.head?_replicate, if_neg (Nat.ne_of_gt some)]
  rfl

/-- The first of alternating runs is as long as the rows are like the first one. -/
theorem takeWhile_expand {run : NullRun} {rest : List NullRun} (filled : Filled (run :: rest))
    (alternating : Alternating (run :: rest)) :
    ((expand (run :: rest)).takeWhile (· = run.isNull)).length = run.length := by
  have later : (expand rest).takeWhile (· = run.isNull) = [] := by
    cases rest with
    | nil => rfl
    | cons other others =>
      obtain ⟨behind, parts⟩ := List.head?_eq_some_iff.mp (head?_expand (filled other (by simp)) others)
      have apart : other.isNull ≠ run.isNull := by
        cases alternating with
        | cons_cons apart _ => exact apart
      rw [parts, List.takeWhile_cons_of_neg (by simpa using apart)]
  rw [expand_cons, List.takeWhile_append_of_pos (by simp), later]
  simp

/-- The rows of the runs of some bits are null where the bit is set. -/
theorem expand_ofBits (run : Run) : expand (ofBits run) = run.bits.map (· == 1) := by
  have same (bit : Nat) : decide (bit = 1) = (bit == 1) := rfl
  cases run with
  | repeated value count => simp [ofBits, Run.bits, same]
  | packed data =>
    rw [ofBits, Run.unpack_bytes]
    induction (Run.packed data).bits with
    | nil => rfl
    | cons bit rest ih => simpa [same] using ih

theorem expand_flatMap_ofBits (runs : List Run) :
    expand (runs.flatMap ofBits) = (runs.flatMap Run.bits).map (· == 1) := by
  induction runs with
  | nil => rfl
  | cons run rest ih =>
    have parts : expand (ofBits run ++ rest.flatMap ofBits) = expand (ofBits run) ++ expand (rest.flatMap ofBits) :=
      List.flatMap_append
    rw [List.flatMap_cons, List.flatMap_cons, List.map_append, parts, ih, expand_ofBits]

end NullRun

/-- A call on the null map of a page. -/
inductive NullCall where
  | nextRun (most : Nat)
  | skip (count : Nat)
  | rewind
  deriving Repr

namespace NullCall

/-- The place that a call leaves. -/
def after (cursor : NullCursor) : NullCall → NullCursor
  | nextRun most => (cursor.nextRun most).2
  | skip count => (cursor.skip count).2
  | rewind => cursor.rewind

/-- The place that calls leave, one after the other. -/
def afterAll (cursor : NullCursor) (calls : List NullCall) : NullCursor := calls.foldl after cursor

end NullCall

namespace NullCursor

open NullRun

/-- The number of rows from one on that are null, or not, as it is. -/
def stretch (flags : List Bool) (row : Nat) : Nat :=
  ((flags.drop row).takeWhile fun flag => flags[row]? = some flag).length

/-- What a cursor tells of the rows from its place on is what their flags say, and it goes where it tells. -/
structure Tells (cursor : NullCursor) (flags : List Bool) : Prop where
  within : cursor.position ≤ flags.length
  ended : ∀ most, 0 < most → ((cursor.nextRun most).1 = none ↔ cursor.position = flags.length)
  run : ∀ most found, 0 < most → (cursor.nextRun most).1 = some found →
    flags[cursor.position]? = some found.isNull ∧ found.length = min most (stretch flags cursor.position) ∧
      (cursor.nextRun most).2.position = cursor.position + found.length
  skip : ∀ count, (cursor.skip count).1 = ((flags.drop cursor.position).take count).count true ∧
    (cursor.skip count).2.position = min (cursor.position + count) flags.length
  rewind : cursor.rewind.position = 0

variable {cursor : NullCursor} {row : Nat}

/-- Passing rows ends behind the last one where there are too few. -/
theorem skip_atRow_min (within : row ≤ (expand cursor.runs).length) (count : Nat) :
    (cursor.atRow row).skip count = ((((expand cursor.runs).drop row).take count).count true,
      cursor.atRow (min (row + count) (expand cursor.runs).length)) := by
  rcases Nat.le_total (row + count) (expand cursor.runs).length with enough | short
  · rw [skip_atRow enough, Nat.min_eq_left enough]
  · have passed : rows (NullRun.take count (NullRun.drop row cursor.runs)) = (expand cursor.runs).length - row := by
      rw [rows_take, ← length_expand, expand_drop, List.length_drop]
      omega
    have place : row + ((expand cursor.runs).length - row) = (expand cursor.runs).length := by omega
    have behind : NullRun.drop (row + count) cursor.runs = [] := drop_eq_nil (by rwa [length_expand] at short)
    have ahead : NullRun.drop (expand cursor.runs).length cursor.runs = [] := drop_eq_nil (by rw [length_expand])
    rw [Nat.min_eq_right short]
    simp only [NullCursor.skip, atRow, passed, drop_drop, ← count_expand, expand_take, expand_drop, behind,
      ahead, place]

/-- The run at a row is null as the row is, and as long as those behind it are. -/
theorem nextRun_atRow (filled : Filled cursor.runs) (alternating : Alternating cursor.runs)
    (within : row ≤ (expand cursor.runs).length) (most : Nat) :
    (cursor.atRow row).nextRun most = match (expand cursor.runs)[row]? with
      | none => (none, cursor.atRow row)
      | some flag =>
        let length := min most (stretch (expand cursor.runs) row)
        (some ⟨flag, length⟩, cursor.atRow (row + length)) := by
  have rest : expand (NullRun.drop row cursor.runs) = (expand cursor.runs).drop row := expand_drop row cursor.runs
  have filled' := filled.drop row
  have alternating' := alternating.drop row
  have first : (expand cursor.runs)[row]? = (expand (NullRun.drop row cursor.runs)).head? := by
    rw [rest, List.head?_drop]
  rw [first, nextRun]
  cases ahead : NullRun.drop row cursor.runs with
  | nil => simp [atRow, ahead]
  | cons run others =>
    rw [ahead] at rest filled' alternating'
    have head : (expand (run :: others)).head? = .some run.isNull := head?_expand (filled' run (by simp)) others
    have flag : (expand cursor.runs)[row]? = .some run.isNull := by rw [first, ahead, head]
    have length : stretch (expand cursor.runs) row = run.length := by
      have like : (fun flag => decide ((expand cursor.runs)[row]? = .some flag)) = fun flag =>
          decide (flag = run.isNull) := by
        funext other
        simp [flag, eq_comm]
      rw [stretch, like, ← rest, takeWhile_expand filled' alternating']
    have there : row + run.length ≤ (expand cursor.runs).length := by
      have rows := congrArg List.length rest
      rw [length_expand, List.length_drop] at rows
      have parts : NullRun.rows (run :: others) = run.length + NullRun.rows others := rfl
      omega
    have place : (cursor.atRow row).ahead = run :: others := ahead
    rw [place, head]
    dsimp only
    rw [skip_atRow (by omega), length, Nat.min_comm]

/-- At every row a cursor over filled runs that alternate tells what the flags of the rows say. -/
theorem tells_atRow (filled : Filled cursor.runs) (alternating : Alternating cursor.runs)
    (within : row ≤ (expand cursor.runs).length) : (cursor.atRow row).Tells (expand cursor.runs) where
  within := within
  ended most some := by
    rw [nextRun_atRow filled alternating within]
    cases flag : (expand cursor.runs)[row]? with
    | none =>
      have beyond := List.getElem?_eq_none_iff.mp flag
      exact iff_of_true rfl (Nat.le_antisymm within beyond)
    | some value =>
      obtain ⟨inside, _⟩ := List.getElem?_eq_some_iff.mp flag
      exact iff_of_false nofun (Nat.ne_of_lt inside)
  run most found some told := by
    rw [nextRun_atRow filled alternating within] at told ⊢
    rw [atRow_position]
    cases flag : (expand cursor.runs)[row]? with
    | none =>
      rw [flag] at told
      cases told
    | some value =>
      rw [flag] at told
      cases told
      exact ⟨rfl, rfl, rfl⟩
  skip count := by
    rw [skip_atRow_min within]
    exact ⟨rfl, rfl⟩
  rewind := rfl

/-- Calls take a cursor from row to row of its page. -/
theorem after_atRow (filled : Filled cursor.runs) (alternating : Alternating cursor.runs)
    (within : row ≤ (expand cursor.runs).length) (call : NullCall) :
    ∃ place, place ≤ (expand cursor.runs).length ∧ NullCall.after (cursor.atRow row) call = cursor.atRow place := by
  cases call with
  | nextRun most =>
    rw [NullCall.after, nextRun_atRow filled alternating within]
    cases flag : (expand cursor.runs)[row]? with
    | none => exact ⟨row, within, rfl⟩
    | some value =>
      refine ⟨_, ?_, rfl⟩
      have most' : stretch (expand cursor.runs) row ≤ ((expand cursor.runs).drop row).length :=
        (List.takeWhile_sublist _).length_le
      rw [List.length_drop] at most'
      omega
  | skip count =>
    rw [NullCall.after, skip_atRow_min within]
    exact ⟨_, Nat.min_le_right .., rfl⟩
  | rewind => exact ⟨0, Nat.zero_le _, rewind_eq_atRow filled⟩

theorem afterAll_atRow (filled : Filled cursor.runs) (alternating : Alternating cursor.runs)
    (within : row ≤ (expand cursor.runs).length) (calls : List NullCall) :
    ∃ place, place ≤ (expand cursor.runs).length ∧ NullCall.afterAll (cursor.atRow row) calls =
      cursor.atRow place := by
  induction calls generalizing row with
  | nil => exact ⟨row, within, rfl⟩
  | cons call rest ih =>
    obtain ⟨mid, inside, moved⟩ := after_atRow filled alternating within call
    obtain ⟨place, ends, left⟩ := ih inside
    refine ⟨place, ends, ?_⟩
    rw [← left, ← moved]
    rfl

/-- Flags that a cursor tells of at every row that it can be skipped to are those of the rows. -/
theorem Tells.unique {flags other : List Bool} (start : cursor.position = 0) (length : other.length = flags.length)
    (tells : ∀ calls, (NullCall.afterAll cursor calls).Tells flags)
    (tells' : ∀ calls, (NullCall.afterAll cursor calls).Tells other) : other = flags := by
  refine List.ext_getElem? fun row => ?_
  rcases Nat.lt_or_ge row flags.length with inside | beyond
  · have place : (NullCall.afterAll cursor [.skip row]).position = row := by
      have moved := ((tells []).skip row).2
      have first : (NullCall.afterAll cursor []).position = 0 := start
      rw [first] at moved
      exact moved.trans (by omega)
    cases found : ((NullCall.afterAll cursor [.skip row]).nextRun 1).1 with
    | none =>
      have ended := ((tells [.skip row]).ended 1 (by decide)).mp found
      omega
    | some run =>
      have flag := ((tells [.skip row]).run 1 run (by decide) found).1
      have flag' := ((tells' [.skip row]).run 1 run (by decide) found).1
      rw [place] at flag flag'
      rw [flag, flag']
  · rw [List.getElem?_eq_none beyond, List.getElem?_eq_none (by omega)]

/-- A stored null map whose runs can be told apart is read if they cover the page. -/
theorem ofBytes_eq {stored : Bytes} {runs : List Run} (split : Run.bitRuns stored = .ok runs) (rows : Nat) :
    ofBytes stored rows =
      if (runs.flatMap Run.bits).length < rows then .error (.shortNullMap (runs.flatMap Run.bits).length rows)
      else
        let joined := (NullRun.take rows (runs.flatMap NullRun.ofBits)).foldr NullRun.join []
        .ok ⟨joined, joined, 0⟩ := by
  have covered : NullRun.rows (NullRun.take rows (runs.flatMap NullRun.ofBits)) =
      min rows (runs.flatMap Run.bits).length := by
    rw [rows_take, ← length_expand, expand_flatMap_ofBits, List.length_map]
  simp only [ofBytes, split, bind, Except.bind, covered]
  split
  · rename_i short
    rw [if_pos (by omega), Nat.min_eq_right (by omega)]
    rfl
  · rename_i enough
    rw [if_neg (by omega)]
    rfl

/-- The runs of a null map that is read alternate, and they are the first bits of what is stored. -/
theorem ofBytes_runs {stored : Bytes} {rows : Nat} (read : ofBytes stored rows = .ok cursor) :
    ∃ runs, Run.bitRuns stored = .ok runs ∧ rows ≤ (runs.flatMap Run.bits).length ∧ Alternating cursor.runs ∧
      expand cursor.runs = ((runs.flatMap Run.bits).take rows).map (· == 1) := by
  obtain ⟨runs, split, _⟩ := bind_eq_ok read
  rw [ofBytes_eq split] at read
  split at read
  · cases read
  · rename_i enough
    cases read
    refine ⟨runs, split, Nat.le_of_not_lt enough, alternating_foldr_join _, ?_⟩
    rw [expand_foldr_join, expand_take, expand_flatMap_ofBits, List.map_take]

/-- A null map that is read is a cursor over the first bits of its runs, whatever calls it is moved by, and over no
other flags. One whose runs are too short for the page is corrupt. -/
theorem ofBytes_tells (stored : Bytes) (rows : Nat) :
    (∀ cursor, ofBytes stored rows = .ok cursor → ∃ runs flags, Run.bitRuns stored = .ok runs ∧
        flags = ((runs.flatMap Run.bits).take rows).map (· == 1) ∧ flags.length = rows ∧
        cursor.nullCount = flags.count true ∧ (∀ calls, (NullCall.afterAll cursor calls).Tells flags) ∧
        ∀ other : List Bool, other.length = rows → (∀ calls, (NullCall.afterAll cursor calls).Tells other) →
          other = flags) ∧
      ∀ runs, Run.bitRuns stored = .ok runs → (runs.flatMap Run.bits).length < rows →
        ∃ error, ofBytes stored rows = .error error ∧ error.cause = .corruption := by
  refine ⟨fun cursor read => ?_, fun runs split short => ?_⟩
  · obtain ⟨start, filled, length⟩ := ofBytes_spec read
    obtain ⟨runs, split, _, alternating, flags⟩ := ofBytes_runs read
    have tells (calls : List NullCall) : (NullCall.afterAll cursor calls).Tells (expand cursor.runs) := by
      obtain ⟨place, within, left⟩ := afterAll_atRow filled alternating (Nat.zero_le _) calls
      rw [start, left]
      exact tells_atRow filled alternating within
    refine ⟨runs, expand cursor.runs, split, flags, length, (count_expand cursor.runs).symm, tells, ?_⟩
    intro other same tells'
    exact Tells.unique (by rw [start]; rfl) (same.trans length.symm) tells tells'
  · exact ⟨_, (ofBytes_eq split rows).trans (if_pos short), rfl⟩

/-- Two null rows, then the bits of one byte of which six belong to the page. -/
def mixedNulls : Bytes := [4, 1, 3, 8]

theorem ofBytes_tells_mixed :
    (∃ cursor, ofBytes mixedNulls 8 = .ok cursor ∧ ∀ calls,
      (NullCall.afterAll cursor calls).Tells [true, true, false, false, false, true, false, false]) ∧
      ∃ error, ofBytes mixedNulls 11 = .error error ∧ error.cause = .corruption := by
  have split : Run.bitRuns mixedNulls = .ok [.repeated 1 2, .packed [8]] := by cbv
  obtain ⟨cursor, read⟩ : ∃ cursor, ofBytes mixedNulls 8 = .ok cursor := ⟨_, by cbv⟩
  obtain ⟨runs, flags, split', same, _, _, tells, _⟩ := (ofBytes_tells mixedNulls 8).1 cursor read
  cases split.symm.trans split'
  subst same
  exact ⟨⟨cursor, read, tells⟩, (ofBytes_tells mixedNulls 11).2 _ split (by decide)⟩

end NullCursor

end Columnar
