import Columnar.NullMap

namespace Columnar

theorem total_append (a b : List Nat) : total (a ++ b) = total a + total b := by
  induction a with
  | nil => simp [total]
  | cons n rest ih => simp only [List.cons_append, total, ih]; omega

theorem total_le_of_sublist {a b : List Nat} (sub : a.Sublist b) : total a ≤ total b := by
  induction sub with
  | slnil => exact Nat.le_refl _
  | cons n _ ih => exact Nat.le_trans ih (Nat.le_add_left _ n)
  | cons_cons n _ ih => exact Nat.add_le_add_left ih n

namespace NullRun

/-- The rows of some runs one by one: whether they are null. -/
def expand (runs : List NullRun) : List Bool := runs.flatMap fun run => List.replicate run.length run.isNull

/-- No run is empty. -/
def Filled (runs : List NullRun) : Prop := ∀ run ∈ runs, 0 < run.length

@[simp] theorem expand_nil : expand [] = [] := rfl

@[simp] theorem expand_cons (run : NullRun) (rest : List NullRun) :
    expand (run :: rest) = List.replicate run.length run.isNull ++ expand rest := rfl

theorem length_expand (runs : List NullRun) : (expand runs).length = rows runs := by
  induction runs with
  | nil => rfl
  | cons run rest ih =>
    simp only [expand_cons, List.length_append, List.length_replicate, ih]
    rfl

theorem count_expand (runs : List NullRun) : (expand runs).count true = nulls runs := by
  induction runs with
  | nil => rfl
  | cons run rest ih =>
    rw [expand_cons, List.count_append, ih]
    cases isNull : run.isNull with
    | false => simp [nulls, isNull, List.count_replicate]
    | true => simp [nulls, isNull, rows, total]

theorem expand_take (count : Nat) (runs : List NullRun) : expand (take count runs) = (expand runs).take count := by
  induction runs generalizing count with
  | nil => simp [take]
  | cons run rest ih =>
    unfold take
    split
    · rename_i none
      simp [none]
    · simp only [expand_cons, ih, List.take_append, List.take_replicate, List.length_replicate, Nat.min_comm]

theorem expand_drop (count : Nat) (runs : List NullRun) : expand (drop count runs) = (expand runs).drop count := by
  induction runs generalizing count with
  | nil => simp [drop]
  | cons run rest ih =>
    unfold drop
    split
    · rename_i within
      simp only [expand_cons, List.drop_append, List.drop_replicate, List.length_replicate]
      rw [Nat.sub_eq_zero_of_le (Nat.le_of_lt within), List.drop_zero]
    · rename_i beyond
      simp only [expand_cons, ih, List.drop_append, List.drop_replicate, List.length_replicate]
      rw [Nat.sub_eq_zero_of_le (Nat.le_of_not_lt beyond), List.replicate_zero, List.nil_append]

theorem rows_take (count : Nat) (runs : List NullRun) : rows (take count runs) = min count (rows runs) := by
  rw [← length_expand, expand_take, List.length_take, length_expand]

theorem Filled.drop_zero {runs : List NullRun} (filled : Filled runs) : drop 0 runs = runs := by
  cases runs with
  | nil => rfl
  | cons run rest =>
    unfold drop
    rw [if_pos (filled run List.mem_cons_self), Nat.sub_zero]

theorem drop_drop (first second : Nat) (runs : List NullRun) :
    drop second (drop first runs) = drop (first + second) runs := by
  induction runs generalizing first with
  | nil => rfl
  | cons run rest ih =>
    by_cases within : first < run.length
    · rw [drop, if_pos within, drop, drop]
      by_cases both : second < run.length - first
      · rw [if_pos both, if_pos (by omega), Nat.sub_sub]
      · rw [if_neg both, if_neg (by omega)]
        congr 1
        simp only
        omega
    · rw [drop, if_neg within, ih, drop, if_neg (by omega)]
      congr 1
      omega

theorem Filled.take {runs : List NullRun} (filled : Filled runs) (count : Nat) :
    Filled (NullRun.take count runs) := by
  induction runs generalizing count with
  | nil => simp [NullRun.take, Filled]
  | cons run rest ih =>
    unfold NullRun.take
    split
    · simp [Filled]
    · rename_i some
      intro found member
      rcases List.mem_cons.mp member with rfl | later
      · have := filled run List.mem_cons_self
        simp only
        omega
      · exact ih (fun run within => filled run (List.mem_cons_of_mem _ within)) _ found later

theorem Filled.drop {runs : List NullRun} (filled : Filled runs) (count : Nat) :
    Filled (NullRun.drop count runs) := by
  induction runs generalizing count with
  | nil => simp [NullRun.drop, Filled]
  | cons run rest ih =>
    have later : Filled rest := fun other member => filled other (List.mem_cons_of_mem _ member)
    unfold NullRun.drop
    split
    · intro found member
      rcases List.mem_cons.mp member with rfl | within
      · simp only
        omega
      · exact later found within
    · exact ih later _

/-- Runs that are joined stay the same rows. -/
theorem expand_join (run : NullRun) (others : List NullRun) :
    expand (join run others) = expand (run :: others) := by
  unfold join
  split
  · rename_i none
    simp [none]
  · cases others with
    | nil => rfl
    | cons other rest =>
      simp only
      split
      · rename_i same
        simp only [expand_cons, same, ← List.append_assoc, List.replicate_append_replicate]
      · rfl

theorem Filled.join {others : List NullRun} (filled : Filled others) (run : NullRun) :
    Filled (NullRun.join run others) := by
  unfold NullRun.join
  split
  · exact filled
  · rename_i some
    have positive : 0 < run.length := Nat.pos_of_ne_zero some
    cases others with
    | nil => simpa [Filled] using positive
    | cons other rest =>
      have later : ∀ found ∈ rest, 0 < found.length := fun found within =>
        filled found (List.mem_cons_of_mem _ within)
      simp only
      split
      · intro found member
        rcases List.mem_cons.mp member with rfl | within
        · simp only; omega
        · exact later found within
      · intro found member
        rcases List.mem_cons.mp member with rfl | within
        · exact positive
        · exact filled found within

theorem expand_foldr_join (runs : List NullRun) : expand (runs.foldr join []) = expand runs := by
  induction runs with
  | nil => rfl
  | cons run rest ih => rw [List.foldr_cons, expand_join, expand_cons, ih, expand_cons]

theorem filled_foldr_join (runs : List NullRun) : Filled (runs.foldr join []) := by
  induction runs with
  | nil => simp [Filled]
  | cons run rest ih => exact Filled.join ih run

end NullRun

namespace NullCursor

open NullRun

/-- The same null map at a row of its page. -/
def atRow (cursor : NullCursor) (row : Nat) : NullCursor := ⟨cursor.runs, NullRun.drop row cursor.runs, row⟩

@[simp] theorem atRow_runs (cursor : NullCursor) (row : Nat) : (cursor.atRow row).runs = cursor.runs := rfl

@[simp] theorem atRow_position (cursor : NullCursor) (row : Nat) : (cursor.atRow row).position = row := rfl

@[simp] theorem atRow_atRow (cursor : NullCursor) (row other : Nat) :
    (cursor.atRow row).atRow other = cursor.atRow other := rfl

theorem rewind_eq_atRow {cursor : NullCursor} (filled : Filled cursor.runs) : cursor.rewind = cursor.atRow 0 := by
  simp only [rewind, atRow, filled.drop_zero]

/-- Passing rows that are there counts their nulls and ends behind them. -/
theorem skip_atRow {cursor : NullCursor} {row count : Nat} (within : row + count ≤ (expand cursor.runs).length) :
    (cursor.atRow row).skip count =
      ((((expand cursor.runs).drop row).take count).count true, cursor.atRow (row + count)) := by
  have passed : rows (NullRun.take count (NullRun.drop row cursor.runs)) = count := by
    rw [rows_take, ← length_expand, expand_drop, List.length_drop]
    omega
  simp only [skip, atRow, passed, drop_drop, ← count_expand, expand_take, expand_drop]

/-- A stored null map that is read has a run for every stretch of rows and covers the page. -/
theorem ofBytes_spec {stored : Bytes} {rows : Nat} {cursor : NullCursor} (read : ofBytes stored rows = .ok cursor) :
    cursor = cursor.atRow 0 ∧ Filled cursor.runs ∧ (expand cursor.runs).length = rows := by
  unfold ofBytes at read
  cases runs : Run.bitRuns stored with
  | error error => simp [runs, bind, Except.bind] at read
  | ok found =>
    simp only [runs, bind, Except.bind, pure, Except.pure, throw, throwThe, MonadExceptOf.throw] at read
    split at read
    · cases read
    · rename_i covers
      cases read
      have filled := filled_foldr_join (NullRun.take rows (found.flatMap NullRun.ofBits))
      refine ⟨?_, filled, ?_⟩
      · simp only [atRow, filled.drop_zero]
      · rw [expand_foldr_join, length_expand]
        rw [rows_take] at covers ⊢
        omega

end NullCursor

end Columnar
