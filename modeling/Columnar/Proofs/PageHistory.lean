import Mathlib
import Columnar.Proofs.PageReads
import Columnar.Sink.Buffers

namespace Columnar

open Columnar.Action

/-- A call on a page that is open. Each read has a sink of its own, which may be of any kind. -/
inductive PageCall : Type 1 where
  | seek (row : Nat)
  | next {σ : Type} [Sink σ] (count : Nat) (sink : σ)

namespace DataPage

/-- The null map is at the row of the page, and the values are behind those of the rows before it. -/
structure Aligned (page : DataPage) : Prop where
  nulls : ∀ nulls ∈ page.nulls, nulls.position = page.offset
  values : page.values.index = page.valuesBefore page.offset

/-- A page that has been opened, with all its places somewhere on the page. -/
def Within (opened page : DataPage) : Prop :=
  ∃ offset nulls index, page = opened.placed offset nulls index ∧ offset ≤ opened.rows ∧ nulls ≤ opened.rows ∧
    index ≤ opened.values.count

theorem atRow_aligned (page : DataPage) (row : Nat) : (page.atRow row).Aligned where
  nulls := by simp [atRow]
  values := by simp only [atRow, placed_index, placed_offset, placed_valuesBefore]

/-- A page is aligned at the row where a seek on the page that has been opened would take it. -/
theorem placed_aligned_iff {page : DataPage} {offset nulls index : Nat} :
    (page.placed offset nulls index).Aligned ↔
      (page.nulls.isSome → nulls = offset) ∧ index = page.valuesBefore offset := by
  constructor
  · rintro ⟨place, value⟩
    refine ⟨fun some => ?_, by simpa only [placed_index, placed_offset, placed_valuesBefore] using value⟩
    obtain ⟨cursor, stored⟩ := Option.isSome_iff_exists.mp some
    exact place (cursor.atRow nulls) (by simp [stored])
  · rintro ⟨place, rfl⟩
    refine ⟨fun cursor member => ?_, by simp only [placed_index, placed_offset, placed_valuesBefore]⟩
    simp only [placed_nulls, Option.mem_def, Option.map_eq_some_iff] at member
    obtain ⟨found, stored, rfl⟩ := member
    exact place (by simp [stored])

end DataPage

namespace PageCall

/-- What a call does to the page, whatever it does to the sink. -/
def run : PageCall → Action DataPage Unit
  | seek row => DataPage.seek row
  | next count sink => fun page =>
    match DataPage.next count (page, sink) with
    | .ok _ (after, _) => .ok () after
    | .error error (after, _) => .error error after

/-- The page that a call leaves, whether or not it succeeds. -/
def after (page : DataPage) (call : PageCall) : DataPage := (call.run.run page).2

/-- The page that calls leave, one after the other. -/
def afterAll (page : DataPage) (calls : List PageCall) : DataPage := calls.foldl after page

/-- A call that leaves its page out of step: a seek to a row of the page behind more values than the page has, where
there is a null map to move first, or a read that fails behind a null map or having passed values. -/
def Slips (page : DataPage) : PageCall → Prop
  | seek row => page.nulls.isSome ∧ row ≤ page.rows ∧ page.values.count < page.valuesBefore row
  | next count sink =>
    (∃ error left, DataPage.next count (page, sink) = .error error left) ∧
      (page.nulls.isSome ∨ page.Passes (page.readable count) sink)

theorem after_of_ok {page left : DataPage} {call : PageCall} {value : Unit} (run : call.run page = .ok value left) :
    call.after page = left := by
  simp only [after, Action.run, run]

theorem after_of_error {page left : DataPage} {call : PageCall} {error : Error}
    (run : call.run page = .error error left) : call.after page = left := by
  simp only [after, Action.run, run]

theorem after_seek_ok {page left : DataPage} {row : Nat} (run : DataPage.seek row page = .ok () left) :
    (PageCall.seek row).after page = left :=
  after_of_ok run

theorem after_seek_error {page left : DataPage} {row : Nat} {error : Error}
    (run : DataPage.seek row page = .error error left) : (PageCall.seek row).after page = left :=
  after_of_error run

theorem run_next_ok {σ : Type} [Sink σ] {page left : DataPage} {count : Nat} {sink rest : σ} {read : RowsRead}
    (run : DataPage.next count (page, sink) = .ok read (left, rest)) :
    (next count sink).run page = .ok () left := by
  simp only [PageCall.run, run]

theorem run_next_error {σ : Type} [Sink σ] {page left : DataPage} {count : Nat} {sink rest : σ} {error : Error}
    (run : DataPage.next count (page, sink) = .error error (left, rest)) :
    (next count sink).run page = .error error left := by
  simp only [PageCall.run, run]

theorem after_next {σ : Type} [Sink σ] (page : DataPage) (count : Nat) (sink : σ) :
    (next count sink).after page = (leftBy (DataPage.next count) (page, sink)).1 := by
  simp only [after, Action.run, run, leftBy]
  cases DataPage.next count (page, sink) <;> rfl

end PageCall

namespace DataPage

variable {opened page : DataPage}

theorem Within.ofStart (start : opened = opened.atRow 0) : Within opened opened :=
  ⟨0, 0, 0, start, Nat.zero_le _, Nat.zero_le _, Nat.zero_le _⟩

theorem seek_beyond {row : Nat} (beyond : page.rows < row) :
    DataPage.seek row page = .error (.seekBeyondPage row page.rows) page := by
  rw [DataPage.seek, bind_apply, get_apply]
  simp only [beyond, if_true]
  rfl

theorem seek_placed_beyond {offset nulls index row : Nat} (beyond : ¬row ≤ opened.rows) :
    DataPage.seek row (opened.placed offset nulls index) =
      .error (.seekBeyondPage row opened.rows) (opened.placed offset nulls index) := by
  have short : (opened.placed offset nulls index).rows < row := Nat.lt_of_not_le beyond
  exact seek_beyond short

/-- Whatever a call comes to, the places of the page stay on the page. -/
theorem Within.after (sound : opened.Sound) (within : Within opened page) (call : PageCall) :
    Within opened (call.after page) := by
  obtain ⟨offset, nulls, index, rfl, known, place, value⟩ := within
  cases call with
  | seek row =>
    by_cases inside : row ≤ opened.rows
    · have moved := sound.seek_placed offset nulls index inside
      split at moved
      · rename_i there
        rw [PageCall.after_seek_ok moved]
        exact ⟨_, _, _, rfl, inside, inside, there⟩
      · rw [PageCall.after_seek_error moved]
        exact ⟨_, _, _, rfl, known, inside, value⟩
    · rw [PageCall.after_seek_error (seek_placed_beyond inside)]
      exact ⟨_, _, _, rfl, known, place, value⟩
  | next count sink =>
    cases outcome : DataPage.next count (opened.placed offset nulls index, sink) with
    | ok read left =>
      rw [PageCall.after_of_ok (PageCall.run_next_ok outcome)]
      cases stored : opened.nulls with
      | none =>
        obtain ⟨same, most⟩ := next_ok_noNulls stored outcome
        exact ⟨_, _, _, same, by omega, place, by omega⟩
      | some cursor =>
        obtain ⟨same, row, most⟩ := sound.next_ok_nulls stored value place outcome
        exact ⟨_, _, _, same, by omega, row, most⟩
    | error error left =>
      rw [PageCall.after_of_error (PageCall.run_next_error outcome)]
      cases stored : opened.nulls with
      | none =>
        obtain ⟨passed, same, most, _⟩ := next_error_noNulls stored outcome
        exact ⟨_, _, _, same, known, place, by omega⟩
      | some cursor =>
        obtain ⟨_, _, same, row, most, _⟩ := sound.next_error_nulls stored value place outcome
        exact ⟨_, _, _, same, known, row, most⟩

/-- From a page that is in step a seek makes for the values in front of its row. -/
theorem Aligned.seekTarget_eq {offset nulls index row : Nat}
    (aligned : (opened.placed offset nulls index).Aligned) :
    opened.seekTarget nulls index row = opened.valuesBefore row := by
  obtain ⟨place, rfl⟩ := placed_aligned_iff.mp aligned
  exact seekTarget_inStep row fun some => by rw [place some]

/-- A seek leaves a page that is in step so exactly if it does not slip: where the page has too few values, the null
map has been moved before that is found out. -/
theorem Aligned.after_seek_iff (sound : opened.Sound) {offset nulls index : Nat}
    (value : index ≤ opened.values.count) (aligned : (opened.placed offset nulls index).Aligned) (row : Nat) :
    (PageCall.after (opened.placed offset nulls index) (.seek row)).Aligned ↔
      ¬PageCall.Slips (opened.placed offset nulls index) (.seek row) := by
  have slips : PageCall.Slips (opened.placed offset nulls index) (.seek row) ↔
      opened.nulls.isSome ∧ row ≤ opened.rows ∧ opened.values.count < opened.valuesBefore row := by
    simp only [PageCall.Slips, placed_nulls, Option.isSome_map, placed_rows, placed_valuesBefore]
    rfl
  rw [slips]
  by_cases inside : row ≤ opened.rows
  · have moved := sound.seek_placed offset nulls index inside
    rw [aligned.seekTarget_eq] at moved
    obtain ⟨inStep, rfl⟩ := placed_aligned_iff.mp aligned
    split at moved
    · rename_i there
      rw [PageCall.after_seek_ok moved, placed_aligned_iff]
      simp [there]
    · rename_i missing
      rw [PageCall.after_seek_error moved, placed_aligned_iff]
      have elsewhere : row ≠ offset := by
        rintro rfl
        exact missing value
      simp only [Nat.lt_of_not_le missing, inside, and_true, elsewhere, imp_false]
  · rw [PageCall.after_seek_error (seek_placed_beyond inside)]
    simp only [inside, false_and, and_false, not_false_eq_true, iff_true]
    exact aligned

/-- A read leaves a page that is in step so exactly if it does not slip. -/
theorem Aligned.after_next_iff {σ : Type} [Sink σ] (sound : opened.Sound) {offset nulls index : Nat}
    (known : offset ≤ opened.rows) (place : nulls ≤ opened.rows) (value : index ≤ opened.values.count)
    (aligned : (opened.placed offset nulls index).Aligned) (count : Nat) (sink : σ) :
    (PageCall.after (opened.placed offset nulls index) (.next count sink)).Aligned ↔
      ¬PageCall.Slips (opened.placed offset nulls index) (.next count sink) := by
  obtain ⟨inStep, rfl⟩ := placed_aligned_iff.mp aligned
  cases outcome : DataPage.next count (opened.placed offset nulls (opened.valuesBefore offset), sink) with
  | ok read left =>
    rw [PageCall.after_of_ok (PageCall.run_next_ok outcome)]
    have stays : ¬PageCall.Slips (opened.placed offset nulls (opened.valuesBefore offset)) (.next count sink) := by
      rintro ⟨⟨error, other, fails⟩, _⟩
      cases outcome.symm.trans fails
    refine iff_of_true ?_ stays
    cases stored : opened.nulls with
    | none =>
      obtain ⟨same, most⟩ := next_ok_noNulls stored outcome
      rw [same, placed_aligned_iff]
      refine ⟨by simp [stored], ?_⟩
      rw [valuesBefore_of_noNulls stored known, valuesBefore_of_noNulls stored (by omega)]
    | some cursor =>
      obtain ⟨same, row, most⟩ := sound.next_ok_nulls stored value place outcome
      obtain rfl : nulls = offset := inStep (by simp [stored])
      rw [same, placed_aligned_iff]
      refine ⟨fun _ => rfl, ?_⟩
      have := opened.valuesBefore_mono (Nat.le_add_right nulls (min count (opened.rows - nulls)))
      omega
  | error error left =>
    rw [PageCall.after_of_error (PageCall.run_next_error outcome)]
    cases stored : opened.nulls with
    | none =>
      obtain ⟨passed, same, most, passes⟩ := next_error_noNulls stored outcome
      have slips : PageCall.Slips (opened.placed offset nulls (opened.valuesBefore offset)) (.next count sink) ↔
          0 < passed := by
        simp only [PageCall.Slips, outcome, ← passes, placed_nulls, stored]
        simp
      rw [same, placed_aligned_iff, slips]
      simp only [stored, Option.isSome_none, Bool.false_eq_true, false_implies, true_and]
      omega
    | some cursor =>
      obtain ⟨place', index', same, row, most, behind⟩ := sound.next_error_nulls stored value place outcome
      have slips : PageCall.Slips (opened.placed offset nulls (opened.valuesBefore offset)) (.next count sink) :=
        ⟨⟨error, left, outcome⟩, Or.inl (by simp [stored])⟩
      refine iff_of_false ?_ (not_not_intro slips)
      rw [same, placed_aligned_iff]
      rintro ⟨unmoved, _⟩
      have := behind (inStep (by simp [stored]))
      have := unmoved (by simp [stored])
      omega

/-- A call on a page that is in step leaves it so exactly if it does not slip. -/
theorem Aligned.after_iff (sound : opened.Sound) (within : Within opened page) (aligned : page.Aligned)
    (call : PageCall) : (call.after page).Aligned ↔ ¬call.Slips page := by
  obtain ⟨offset, nulls, index, rfl, known, place, value⟩ := within
  cases call with
  | seek row => exact aligned.after_seek_iff sound value row
  | next count sink => exact aligned.after_next_iff sound known place value count sink

theorem Within.afterAll (sound : opened.Sound) (within : Within opened page) (calls : List PageCall) :
    Within opened (PageCall.afterAll page calls) := by
  induction calls generalizing page with
  | nil => exact within
  | cons call rest ih => exact ih (within.after sound call)

/-- Pages stay in step along some calls exactly if none of the calls slips. -/
theorem Aligned.afterAll_iff (sound : opened.Sound) (within : Within opened page) (aligned : page.Aligned)
    (calls : List PageCall) :
    (∀ before, before <+: calls → (PageCall.afterAll page before).Aligned) ↔
      ∀ before call, before ++ [call] <+: calls → ¬call.Slips (PageCall.afterAll page before) := by
  constructor
  · intro inStep before call reached
    have start := inStep before ((List.prefix_append before [call]).trans reached)
    have stop := inStep _ reached
    rw [PageCall.afterAll, List.foldl_append] at stop
    exact (start.after_iff sound (within.afterAll sound before) call).mp stop
  · intro noSlip before
    induction before using List.reverseRecOn with
    | nil => exact fun _ => aligned
    | append_singleton before call ih =>
      intro reached
      have start := ih ((List.prefix_append before [call]).trans reached)
      rw [PageCall.afterAll, List.foldl_append]
      exact (start.after_iff sound (within.afterAll sound before) call).mpr (noSlip before call reached)

/-- A seek that succeeds from any place takes the page to the row exactly if it goes back in the null map, or if
there is none, or if the values are behind those of the rows before the place of the null map. -/
theorem Sound.seek_ok_iff (sound : opened.Sound) {offset nulls index row : Nat} {left : DataPage}
    (run : DataPage.seek row (opened.placed offset nulls index) = .ok () left) :
    left = opened.atRow row ↔ (opened.nulls.isSome → nulls ≤ row → index = opened.valuesBefore nulls) := by
  have inside : row ≤ opened.rows := by
    by_contra beyond
    rw [seek_placed_beyond beyond] at run
    cases run
  rw [sound.seek_placed offset nulls index inside] at run
  split at run
  · cases run
    have same : opened.placed row row (opened.seekTarget nulls index row) = opened.atRow row ↔
        opened.seekTarget nulls index row = opened.valuesBefore row := by
      constructor
      · intro equal
        exact congrArg (·.values.index) equal
      · intro equal
        rw [equal]
        rfl
    rw [same, seekTarget]
    split
    · rename_i back
      refine iff_of_true rfl fun some order => ?_
      rcases back with none | back
      · simp [none] at some
      · exact absurd order (Nat.not_le_of_lt back)
    · rename_i ahead
      simp only [not_or, Nat.not_lt] at ahead
      have order := opened.valuesBefore_mono ahead.2
      simp only [Option.isSome_iff_ne_none, ne_eq, ahead.1, ahead.2, not_false_eq_true, true_implies]
      omega
  · cases run

/-- A page that has been opened stays in step along some calls exactly if none of the calls slips. A seek that
succeeds after any calls takes it to the row exactly if it goes back in the null map, or if there is none, or if the
values are behind those of the rows before the place of the null map. -/
theorem ofPage_inStep_iff {σ : Type} {page : Page} {span : PageSpan} {coding : Coding}
    {dictionary : Action σ Dictionary} {state after : σ} {opened : DataPage}
    (run : ofPage page span coding dictionary state = .ok opened after) (calls : List PageCall) :
    ((∀ before, before <+: calls → (PageCall.afterAll opened before).Aligned) ↔
        ∀ before call, before ++ [call] <+: calls → ¬call.Slips (PageCall.afterAll opened before)) ∧
      ∀ row left, DataPage.seek row (PageCall.afterAll opened calls) = .ok () left →
        (left = opened.atRow row ↔
          ∀ nulls ∈ (PageCall.afterAll opened calls).nulls, nulls.position ≤ row →
            (PageCall.afterAll opened calls).values.index = opened.valuesBefore nulls.position) := by
  obtain ⟨start, sound, _⟩ := ofPage_spec run
  have within : Within opened opened := Within.ofStart start
  have aligned : opened.Aligned := by
    rw [start]
    exact atRow_aligned opened 0
  refine ⟨aligned.afterAll_iff sound within calls, fun row left moved => ?_⟩
  obtain ⟨offset, nulls, index, same, _⟩ := within.afterAll sound calls
  rw [same] at moved ⊢
  rw [sound.seek_ok_iff moved, placed_nulls, placed_index]
  cases stored : opened.nulls <;> simp

/-- A page of five strings, the third of which is null. The code of the second one has no word. -/
def brokenWords : Page := ⟨[1, 3, 3, 0x68, 4, 0, 3, 4], .data (.ofStored 0 5 2 0)⟩

def brokenWordsSpan : PageSpan := ⟨0, 0, 5, ⟨0, 0⟩⟩

def brokenWordsOpened : DataPage where
  page := 0
  first := 0
  rows := 5
  firstItem := 0
  size := 8
  values := ⟨.coded [0, 5, 1, 2] ⟨[[97], [98], [99]]⟩, 0⟩
  nulls := some ⟨[⟨false, 2⟩, ⟨true, 1⟩, ⟨false, 2⟩], [⟨false, 2⟩, ⟨true, 1⟩, ⟨false, 2⟩], 0⟩
  rows_lt := by decide

def noStrings : BytesBuffer := { type := .text .string, nullable := true }

theorem ofPage_inStep_brokenWords :
    ofPage brokenWords brokenWordsSpan .words (pure ⟨[[97], [98], [99]]⟩) () = .ok brokenWordsOpened () ∧
      ((∀ before, before <+: [PageCall.seek 3] → (PageCall.afterAll brokenWordsOpened before).Aligned) ↔
        ∀ before call, before ++ [call] <+: [PageCall.seek 3] →
          ¬call.Slips (PageCall.afterAll brokenWordsOpened before)) :=
  have opened : ofPage brokenWords brokenWordsSpan .words (pure ⟨[[97], [98], [99]]⟩) () =
      .ok brokenWordsOpened () := by
    cbv
  ⟨opened, (ofPage_inStep_iff opened [.seek 3]).1⟩

/-- The read that meets the broken code leaves the null map behind the second row and the values before the first.
From there a seek to the fourth row succeeds, and what is read next is the string of the first row. -/
theorem brokenWords_slips :
    ofPage brokenWords brokenWordsSpan .words (pure ⟨[[97], [98], [99]]⟩) () = .ok brokenWordsOpened () ∧
      ¬(PageCall.afterAll brokenWordsOpened [.next 2 noStrings]).Aligned ∧
      ∃ left, DataPage.seek 3 (PageCall.afterAll brokenWordsOpened [.next 2 noStrings]) = .ok () left ∧
        (∃ after, DataPage.next 1 (left, noStrings) = .ok ⟨1, false⟩ after ∧ after.2.rows = [some [97]]) ∧
        ∃ after, DataPage.next 1 (brokenWordsOpened.atRow 3, noStrings) = .ok ⟨1, false⟩ after ∧
          after.2.rows = [some [98]] := by
  refine ⟨by cbv, ?_, brokenWordsOpened.placed 3 3 0, by cbv, ⟨_, by cbv, by cbv⟩, ⟨_, by cbv, by cbv⟩⟩
  have failed : PageCall.afterAll brokenWordsOpened [.next 2 noStrings] = brokenWordsOpened.placed 0 2 0 := by cbv
  intro aligned
  rw [failed, placed_aligned_iff] at aligned
  exact absurd (aligned.1 rfl) (by decide)

end DataPage

end Columnar
