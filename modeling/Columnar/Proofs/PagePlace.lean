import Mathlib.Tactic.Common
import Columnar.DataPage
import Columnar.Proofs.Action
import Columnar.Proofs.NullRuns

namespace Columnar

open Columnar.Action

theorem ValueCursor.seek_apply (index : Nat) (cursor : ValueCursor) :
    ValueCursor.seek index cursor =
      if index ≤ cursor.count then .ok () { cursor with index } else .error (.seekBeyondValues index cursor.count)
        cursor := by
  unfold ValueCursor.seek
  by_cases there : index ≤ cursor.count
  · simp [there, Nat.not_lt.mpr there]
  · simp [there, Nat.lt_of_not_le there]

namespace DataPage

variable {σ : Type}

/-- The rows of a page one by one: whether they are null. -/
def nullFlags (page : DataPage) : List Bool :=
  page.nulls.elim (List.replicate page.rows false) fun nulls => NullRun.expand nulls.runs

/-- The number of rows in front of a row that have a value. -/
def valuesBefore (page : DataPage) (row : Nat) : Nat := (page.nullFlags.take row).count false

/-- A page with the null map, when there is one, has runs of rows and covers its rows with them. -/
def Sound (page : DataPage) : Prop :=
  ∀ nulls ∈ page.nulls, NullRun.Filled nulls.runs ∧ (NullRun.expand nulls.runs).length = page.rows

/-- The same page at other places: that of the rows, that of the null map, and that of the values. -/
def placed (page : DataPage) (offset nulls index : Nat) : DataPage :=
  { page with offset, values := { page.values with index }, nulls := page.nulls.map (·.atRow nulls) }

/-- The same page at a row, with the null map and the values where they belong. -/
def atRow (page : DataPage) (row : Nat) : DataPage := page.placed row row (page.valuesBefore row)

section Places

variable (page : DataPage) (offset nulls index row : Nat)

@[simp] theorem placed_rows : (page.placed offset nulls index).rows = page.rows := rfl

@[simp] theorem placed_offset : (page.placed offset nulls index).offset = offset := rfl

@[simp] theorem placed_values : (page.placed offset nulls index).values = ⟨page.values.values, index⟩ := rfl

theorem placed_index : (page.placed offset nulls index).values.index = index := rfl

@[simp] theorem placed_nulls : (page.placed offset nulls index).nulls = page.nulls.map (·.atRow nulls) := rfl

@[simp] theorem placed_placed (offset' nulls' index' : Nat) :
    (page.placed offset nulls index).placed offset' nulls' index' = page.placed offset' nulls' index' := by
  simp only [placed, Option.map_map]
  congr

@[simp] theorem placed_nullFlags : (page.placed offset nulls index).nullFlags = page.nullFlags := by
  cases stored : page.nulls <;> simp [nullFlags, stored]

@[simp] theorem placed_valuesBefore : (page.placed offset nulls index).valuesBefore row =
    page.valuesBefore row := by
  simp only [valuesBefore, placed_nullFlags]

@[simp] theorem placed_atRow : (page.placed offset nulls index).atRow row = page.atRow row := by
  simp only [atRow, placed_placed, placed_valuesBefore]

@[simp] theorem valuesBefore_zero : page.valuesBefore 0 = 0 := rfl

end Places

theorem Sound.length_nullFlags {page : DataPage} (sound : page.Sound) : page.nullFlags.length = page.rows := by
  cases stored : page.nulls with
  | none => simp [nullFlags, stored]
  | some nulls => simpa [nullFlags, stored] using (sound nulls stored).2

/-- Between two rows the values advance by the rows that are not null. -/
theorem valuesBefore_add (page : DataPage) (row count : Nat) :
    page.valuesBefore (row + count) = page.valuesBefore row + ((page.nullFlags.drop row).take count).count
      false := by
  simp only [valuesBefore, List.take_add, List.count_append]

theorem valuesBefore_mono (page : DataPage) {row later : Nat} (order : row ≤ later) :
    page.valuesBefore row ≤ page.valuesBefore later := by
  obtain ⟨count, rfl⟩ := Nat.exists_eq_add_of_le order
  rw [valuesBefore_add]
  exact Nat.le_add_right ..

/-- A page without a null map has a value for each row. -/
theorem valuesBefore_of_noNulls {page : DataPage} (none : page.nulls = none) {row : Nat}
    (within : row ≤ page.rows) : page.valuesBefore row = row := by
  simp [valuesBefore, nullFlags, none, List.take_replicate, Nat.min_eq_left within]

theorem count_nulls_add (flags : List Bool) : flags.count true + flags.count false = flags.length := by
  induction flags with
  | nil => rfl
  | cons flag rest ih => cases flag <;> simp <;> omega

/-- A null map that is read is at the first row of its page and covers the page. -/
theorem readNulls_spec {footer : DataFooter} {body : Bytes} {found : Option NullCursor}
    (read : readNulls footer body = .ok found) :
    ∀ nulls ∈ found, nulls = nulls.atRow 0 ∧ NullRun.Filled nulls.runs ∧
      (NullRun.expand nulls.runs).length = footer.rows := by
  unfold readNulls at read
  simp only [bind, Except.bind, pure, Except.pure, throw, throwThe, MonadExceptOf.throw] at read
  split at read
  · cases read
  · split at read
    · cases read
      simp
    · split at read
      · cases read
      · rename_i nulls stored
        cases read
        intro other member
        split at member
        · cases member
        · cases member
          exact NullCursor.ofBytes_spec stored

/-- A page that has been opened is at its first row. -/
theorem ofPage_spec {page : Page} {span : PageSpan} {coding : Coding} {dictionary : Action σ Dictionary}
    {state after : σ} {opened : DataPage} (run : ofPage page span coding dictionary state = .ok opened after) :
    opened = opened.atRow 0 ∧ opened.Sound ∧ opened.page = span.page ∧ opened.first = span.first ∧
      opened.rows = span.rows := by
  unfold ofPage at run
  obtain ⟨footer, _, _, run⟩ := bind_ok run
  dsimp only at run
  split at run
  · simp at run
  · rename_i fits
    obtain ⟨nulls, _, readMap, run⟩ := bind_ok run
    obtain ⟨values, _, _, run⟩ := bind_ok run
    cases run
    have covered := readNulls_spec (lift_eq_ok readMap).1
    refine ⟨?_, fun found member => (covered found member).2, rfl, by tauto, by tauto⟩
    cases nulls with
    | none => rfl
    | some found =>
      have start := (covered found rfl).1
      simp only [atRow, placed, Option.map_some, valuesBefore_zero, ← start]

/-- The value a seek makes for: counted from the start of the page where the null map has to go back or there is
none, and otherwise from wherever the values are. -/
def seekTarget (page : DataPage) (nulls index row : Nat) : Nat :=
  if page.nulls = none ∨ row < nulls then page.valuesBefore row
  else index + (page.valuesBefore row - page.valuesBefore nulls)

/-- Where the values are behind those of the rows before the place of the null map, a seek makes for the values in
front of its row. -/
theorem seekTarget_inStep {page : DataPage} {nulls index : Nat} (row : Nat)
    (inStep : page.nulls.isSome → index = page.valuesBefore nulls) :
    page.seekTarget nulls index row = page.valuesBefore row := by
  unfold seekTarget
  split
  · rfl
  · rename_i ahead
    simp only [not_or, Nat.not_lt] at ahead
    obtain rfl := inStep (Option.isSome_iff_ne_none.mpr ahead.1)
    have := page.valuesBefore_mono ahead.2
    omega

/-- Passing rows in the null map tells how far the values advance. -/
theorem Sound.skip_values {page : DataPage} (sound : page.Sound) {nulls : NullCursor}
    (stored : page.nulls = some nulls) {row count : Nat} (within : row + count ≤ page.rows) :
    ∃ skipped, (nulls.atRow row).skip count = (skipped, nulls.atRow (row + count)) ∧
      count - skipped = page.valuesBefore (row + count) - page.valuesBefore row ∧ skipped ≤ count := by
  have covers := (sound nulls stored).2
  have flags : page.nullFlags = NullRun.expand nulls.runs := by simp [nullFlags, stored]
  refine ⟨_, NullCursor.skip_atRow (by omega), ?_⟩
  have parts := count_nulls_add (((NullRun.expand nulls.runs).drop row).take count)
  rw [List.length_take, List.length_drop, covers, Nat.min_eq_left (by omega)] at parts
  rw [valuesBefore_add, flags]
  omega

theorem seekValues_placed (page : DataPage) (offset nulls index target : Nat) :
    onValues (ValueCursor.seek target) (page.placed offset nulls index) =
      if target ≤ page.values.count then .ok () (page.placed offset nulls target)
      else .error (.seekBeyondValues target page.values.count) (page.placed offset nulls index) := by
  rw [onValues, onPart, ValueCursor.seek_apply]
  by_cases there : target ≤ page.values.count
  · rw [if_pos there, if_pos (show target ≤ (page.placed offset nulls index).values.count from there)]
    rfl
  · rw [if_neg there, if_neg (show ¬target ≤ (page.placed offset nulls index).values.count from there)]
    rfl

theorem settleValues_placed (page : DataPage) (offset nulls index row target : Nat) :
    (do onValues (ValueCursor.seek target); modify fun page => { page with offset := row } : Action DataPage Unit)
        (page.placed offset nulls index) =
      if target ≤ page.values.count then .ok () (page.placed row nulls target)
      else .error (.seekBeyondValues target page.values.count) (page.placed offset nulls index) := by
  rw [bind_apply, seekValues_placed]
  by_cases there : target ≤ page.values.count
  · simp only [there, if_true]
    rfl
  · simp only [there, if_false]

/-- A seek inside the page moves everything to the row, provided that the page has the value it makes for. -/
theorem Sound.seek_placed {page : DataPage} (sound : page.Sound) (offset nulls index : Nat) {row : Nat}
    (within : row ≤ page.rows) :
    DataPage.seek row (page.placed offset nulls index) =
      if page.seekTarget nulls index row ≤ page.values.count then
        .ok () (page.placed row row (page.seekTarget nulls index row))
      else
        .error (.seekBeyondValues (page.seekTarget nulls index row) page.values.count)
          (page.placed offset row index) := by
  have known : ¬(page.placed offset nulls index).rows < row := Nat.not_lt.mpr within
  cases stored : page.nulls with
  | none =>
    have target : page.seekTarget nulls index row = row := by
      rw [seekTarget, if_pos (Or.inl stored), valuesBefore_of_noNulls stored within]
    have anywhere : page.placed offset nulls index = page.placed offset row index := by
      simp only [placed, stored, Option.map_none]
    rw [DataPage.seek, bind_apply, get_apply]
    simp only [ite_run, known, if_false, placed_nulls, stored, Option.map_none]
    rw [anywhere, target, settleValues_placed]
  | some cursor =>
    -- whether the null map goes back or on, it ends at the row, and the values make for the target
    have moved (start before : Nat) (order : start ≤ row)
        (target : before + (page.valuesBefore row - page.valuesBefore start) = page.seekTarget nulls index row) :
        ∃ skipped, (cursor.atRow start).skip (row - start) = (skipped, cursor.atRow row) ∧
          before + (row - start) - skipped = page.seekTarget nulls index row := by
      obtain ⟨count, same, values, bound⟩ :=
        sound.skip_values stored (show start + (row - start) ≤ page.rows by omega)
      rw [Nat.add_sub_cancel' order] at same values
      exact ⟨count, same, by omega⟩
    have put : { page.placed offset nulls index with nulls := some (cursor.atRow row) } =
        page.placed offset row index := by
      simp only [placed, stored, Option.map_some]
    rw [DataPage.seek, bind_apply, get_apply]
    simp only [ite_run, known, if_false, placed_nulls, stored, Option.map_some]
    rw [bind_apply, set_apply]
    by_cases back : row < nulls
    · have target : 0 + (page.valuesBefore row - page.valuesBefore 0) = page.seekTarget nulls index row := by
        simp only [seekTarget, back, or_true, if_true, valuesBefore_zero]
        omega
      obtain ⟨skipped, place, value⟩ := moved 0 0 (Nat.zero_le row) target
      have rewind : (cursor.atRow nulls).rewind = cursor.atRow 0 :=
        NullCursor.rewind_eq_atRow (sound cursor stored).1
      simp only [NullCursor.atRow_position, back, if_true, rewind, place, value]
      rw [put, settleValues_placed]
    · have target : index + (page.valuesBefore row - page.valuesBefore nulls) =
        page.seekTarget nulls index row := by
        simp [seekTarget, back, stored]
      obtain ⟨skipped, place, value⟩ := moved nulls index (Nat.le_of_not_lt back) target
      simp only [NullCursor.atRow_position, back, if_false, placed_index, place, value]
      rw [put, settleValues_placed]

/-- From a row to another one, where the page has the values in front of it. -/
theorem Sound.seek_atRow {page : DataPage} (sound : page.Sound) (start : Nat) {row : Nat} (within : row ≤ page.rows)
    (enough : page.valuesBefore row ≤ page.values.count) :
    DataPage.seek row (page.atRow start) = .ok () (page.atRow row) := by
  rw [atRow, sound.seek_placed start start _ within, seekTarget_inStep row fun _ => rfl, if_pos enough, atRow]

end DataPage

end Columnar
