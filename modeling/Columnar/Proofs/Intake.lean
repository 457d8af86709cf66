import Mathlib.Tactic.Common
import Columnar.Proofs.Slots
import Columnar.Sink.Buffers

namespace Columnar

open Columnar.Action

section

variable {α β : Type} (f : α → Option β)

theorem mapM_cons_some (first : α) (rest : List α) :
    (first :: rest).mapM f = (f first).bind fun row => (rest.mapM f).map (row :: ·) := by
  rw [List.mapM_cons]
  cases f first <;> cases rest.mapM f <;> rfl

theorem mapM_append_some (first rest : List α) :
    (first ++ rest).mapM f = (first.mapM f).bind fun rows => (rest.mapM f).map (rows ++ ·) := by
  rw [List.mapM_append]
  cases first.mapM f <;> cases rest.mapM f <;> rfl

theorem mapM_eq_none_of_mem {value : α} {list : List α} (member : value ∈ list) (refused : f value = none) :
    list.mapM f = none := by
  induction list with
  | nil => cases member
  | cons first rest ih =>
    rw [mapM_cons_some]
    rcases List.mem_cons.mp member with rfl | later
    · rw [refused, Option.bind_none]
    · rw [ih later]
      cases f first <;> rfl

theorem mapM_replicate_some {count : Nat} (some : 0 < count) (value : α) :
    (List.replicate count value).mapM f = (f value).map (List.replicate count) := by
  induction count with
  | zero => exact absurd some (Nat.lt_irrefl 0)
  | succ count ih =>
    rw [List.replicate_succ, mapM_cons_some]
    rcases Nat.eq_zero_or_pos count with rfl | more
    · cases f value <;> rfl
    · rw [ih more]
      cases f value <;> rfl

end

section

variable {α β : Type} {f : α → Option β}

theorem mapM_eq_some_iff {list : List α} {rows : List β} : list.mapM f = some rows ↔
    list.map f = rows.map some := by
  induction list generalizing rows with
  | nil => cases rows <;> simp
  | cons first rest ih =>
    rw [mapM_cons_some]
    cases rows with
    | nil => cases f first <;> cases rest.mapM f <;> simp
    | cons row others =>
      rw [List.map_cons, List.map_cons, List.cons.injEq, ← ih]
      cases f first <;> cases rest.mapM f <;> simp

/-- What is taken of a part of a list is that part of what is taken of the list. -/
theorem mapM_slice {list : List α} {rows : List β} (taken : list.mapM f = some rows) (start count : Nat) :
    ((list.drop start).take count).mapM f = some ((rows.drop start).take count) := by
  rw [mapM_eq_some_iff] at taken ⊢
  rw [List.map_take, List.map_drop, taken, List.map_take, List.map_drop]

theorem any_of_mapM {list : List α} {rows : List β} (taken : list.mapM f = some rows) {p : α → Bool} {q : β → Bool}
    (same : ∀ value row, f value = some row → p value = q row) : list.any p = rows.any q := by
  rw [mapM_eq_some_iff] at taken
  induction list generalizing rows with
  | nil => cases rows with
    | nil => rfl
    | cons row others => cases taken
  | cons first rest ih =>
    cases rows with
    | nil => cases taken
    | cons row others =>
      obtain ⟨here, there⟩ := List.cons.inj taken
      rw [List.any_cons, List.any_cons, same first row here, ih there]

end

/-- Some elements of a list that are all there. -/
theorem range'_map_getElem? {α : Type} {list : List α} {index count : Nat} (within : index + count ≤ list.length) :
    (List.range' index count).map (list[·]?) = ((list.drop index).take count).map some := by
  induction count generalizing index with
  | zero => simp
  | succ count ih =>
    have there : index < list.length := by omega
    rw [List.range'_succ, List.map_cons, ih (by omega), List.drop_eq_getElem_cons there, List.take_succ_cons,
      List.map_cons, List.getElem?_eq_getElem there]

namespace PageValues

theorem slots_packed {width index count : Nat} {data : Bytes} (within : index + count ≤ data.length / width) :
    (List.range' index count).map (packed width data).slot =
      (Bytes.pieces width count ((data.drop (index * width)).take (count * width))).map Slot.value := by
  induction count generalizing index with
  | zero => rfl
  | succ count ih =>
    have there : index < data.length / width := by omega
    have first : ((data.drop (index * width)).take ((count + 1) * width)).take width =
        (data.drop (index * width)).take width := by
      rw [List.take_take, Nat.min_eq_left (Nat.le_mul_of_pos_left width (Nat.succ_pos count))]
    have rest : ((data.drop (index * width)).take ((count + 1) * width)).drop width =
        (data.drop ((index + 1) * width)).take (count * width) := by
      rw [List.drop_take, List.drop_drop, ← Nat.succ_mul, Nat.succ_mul count, Nat.add_sub_cancel]
    rw [List.range'_succ, List.map_cons, Bytes.pieces, List.map_cons, first, rest, ih (by omega)]
    simp [slot, there]

theorem slots_flags {values : Bytes} {index count : Nat} (within : index + count ≤ values.length) :
    (List.range' index count).map (flags values).slot =
      (Bytes.pieces 1 count ((values.drop index).take count)).map Slot.value := by
  induction count generalizing index with
  | zero => rfl
  | succ count ih =>
    have there : index < values.length := by omega
    have pieces : (values.drop index).take (count + 1) = values[index] :: (values.drop (index + 1)).take count := by
      rw [List.drop_eq_getElem_cons there, List.take_succ_cons]
    rw [List.range'_succ, List.map_cons, ih (by omega), pieces]
    simp [slot, there, Bytes.pieces]

theorem slots_strings {values : List Bytes} {index count : Nat} (within : index + count ≤ values.length) :
    (List.range' index count).map (strings values).slot = ((values.drop index).take count).map Slot.value := by
  have slice := congrArg (List.map fun stored => Option.elim stored Slot.missing Slot.value)
    (range'_map_getElem? within)
  rwa [List.map_map, List.map_map] at slice

theorem slots_coded {codes : List Nat} {dictionary : Dictionary} {index count : Nat}
    (within : index + count ≤ codes.length) :
    (List.range' index count).map (coded codes dictionary).slot =
      ((codes.drop index).take count).map fun code => (dictionary.words[code]?).elim .missing .value := by
  have slice :=
    congrArg (List.map fun code : Option Nat => (code.bind (dictionary.words[·]?)).elim Slot.missing Slot.value)
    (range'_map_getElem? within)
  rwa [List.map_map, List.map_map] at slice

end PageValues

/-- Storage has room for the rows of a page. -/
theorem DataPage.lt_limit (page : DataPage) {count : Nat} (within : count ≤ page.rows) : count < Room.limit :=
  Nat.lt_trans (Nat.lt_of_le_of_lt within page.rows_lt) (by decide)

/-- How a sink takes in stored rows: what the row of a stored value or of a null looks like there, and when the sink
refuses it. A sink that is given packed values is given values of one width. -/
structure Intake (σ ρ : Type) [Sink σ] where
  /-- The sink has the shape that the rows need. -/
  Fits : σ → Prop
  rows : σ → List ρ
  width : Option Nat
  /-- It is given byte strings too. -/
  texts : Bool
  value : Bytes → Option ρ
  null : Option ρ
  pushFixed : ∀ size ∈ width, ∀ sink, Fits sink → ∀ (count : Nat) (values : Bytes), values.length = count * size →
    Meets (Sink.pushFixed values count sink) ((Bytes.pieces size count values).mapM value)
      fun more _ after => Fits after ∧ rows after = rows sink ++ more
  pushBytes : texts → ∀ sink, Fits sink → ∀ stored : Bytes,
    Meets (Sink.pushBytes stored sink) (value stored) fun row _ after => Fits after ∧
    rows after = rows sink ++ [row]
  pushNulls : ∀ sink, Fits sink → ∀ count, 0 < count → count < Room.limit →
    Meets (Sink.pushNulls count sink) null
      fun row _ after => Fits after ∧ rows after = rows sink ++ List.replicate count row

namespace Intake

variable {σ ρ : Type} [Sink σ] (intake : Intake σ ρ)

/-- The row that a stored row becomes. -/
def take : Slot → Option ρ
  | .missing => none
  | .null => intake.null
  | .value stored => intake.value stored

/-- The sink is given values of a page as it takes them. -/
def Suits : PageValues → Prop
  | .packed width _ => intake.width = some width
  | .flags _ => intake.width = some 1
  | .strings _ | .coded .. => intake.texts

/-- Rows have been appended to what was there. -/
def Grown (sink : σ) (more : List ρ) (after : σ) : Prop := intake.Fits after ∧
    intake.rows after = intake.rows sink ++ more

variable {intake}

theorem Grown.trans {sink mid after : σ} {more others : List ρ} (first : intake.Grown sink more mid)
    (second : intake.Grown mid others after) : intake.Grown sink (more ++ others) after :=
  ⟨second.1, by rw [second.2, first.2, List.append_assoc]⟩

theorem Grown.refl {sink : σ} (fits : intake.Fits sink) : intake.Grown sink [] sink :=
  ⟨fits, (List.append_nil _).symm⟩

theorem pushAll_meets (texts : intake.texts) (stored : List Bytes) {sink : σ} (fits : intake.Fits sink) :
    Meets (Sink.pushAll stored sink) (stored.mapM intake.value) fun more _ after =>
      intake.Grown sink more after := by
  induction stored generalizing sink with
  | nil => exact ⟨[], rfl, Grown.refl fits⟩
  | cons first rest ih =>
    rw [mapM_cons_some]
    refine Meets.bind (intake.pushBytes texts sink fits first) fun row _ mid grown => ?_
    exact (ih grown.1).map _ _ fun more _ after later => Grown.trans grown later

theorem pushWords_meets (texts : intake.texts) (dictionary : Dictionary) (codes : List Nat) {sink : σ}
    (fits : intake.Fits sink) :
    Meets (ValueCursor.pushWords dictionary codes sink)
      (codes.mapM fun code => (dictionary.words[code]?).bind intake.value)
      fun more _ after => intake.Grown sink more after := by
  induction codes generalizing sink with
  | nil => exact ⟨[], rfl, Grown.refl fits⟩
  | cons code rest ih =>
    rw [mapM_cons_some, ValueCursor.pushWords]
    cases known : dictionary.words[code]? with
    | none => exact rfl
    | some word =>
      refine Meets.bind (intake.pushBytes texts sink fits word) fun row _ mid grown => ?_
      exact (ih grown.1).map _ _ fun more _ after later => Grown.trans grown later

/-- Values are appended one by one, up to the first that is refused. -/
theorem push_meets {values : PageValues} (suits : intake.Suits values) {index count : Nat}
    (within : index + count ≤ values.count) {sink : σ} (fits : intake.Fits sink) :
    Meets (ValueCursor.push values index count sink) (((List.range' index count).map values.slot).mapM intake.take)
      fun more _ after => intake.Grown sink more after := by
  cases values with
  | packed width data =>
    rw [PageValues.slots_packed within, List.mapM_map]
    refine intake.pushFixed width suits sink fits count _ ?_
    have := Nat.mul_le_of_le_div width (index + count) data.length within
    rw [Nat.add_mul] at this
    simp only [List.length_take, List.length_drop]
    omega
  | flags values =>
    rw [PageValues.slots_flags within, List.mapM_map]
    refine intake.pushFixed 1 suits sink fits count _ ?_
    have : index + count ≤ values.length := within
    simp only [List.length_take, List.length_drop]
    omega
  | strings values =>
    rw [PageValues.slots_strings within, List.mapM_map]
    exact pushAll_meets suits _ fits
  | coded codes dictionary =>
    have words : (intake.take ∘ fun code : Nat => (dictionary.words[code]?).elim .missing .value) =
        fun code => (dictionary.words[code]?).bind intake.value := by
      funext code
      cases known : dictionary.words[code]? <;> simp [known] <;> rfl
    rw [PageValues.slots_coded within, List.mapM_map, words]
    exact pushWords_meets suits dictionary _ fits

section Reading

variable {page : DataPage} (suits : intake.Suits page.values.values)

include suits

theorem readValues_meets (offset nulls : Nat) {index : Nat} (count : Nat) (inside : index ≤ page.values.count)
    {sink : σ} (fits : intake.Fits sink) :
    Meets (DataPage.readValues count (page.placed offset nulls index, sink))
      (((List.range' index count).map page.values.values.slot).mapM intake.take)
      fun more _ after => after.1 = page.placed offset nulls (index + count) ∧ index + count ≤ page.values.count ∧
        intake.Grown sink more after.2 := by
  by_cases enough : index + count ≤ page.values.count
  · have pushed := push_meets suits enough fits
    cases push : ValueCursor.push page.values.values index count sink with
    | ok value after =>
      obtain ⟨more, same, grown⟩ := pushed.of_ok push
      rw [DataPage.readValues_of_push (by omega) push, same]
      exact ⟨more, rfl, rfl, enough, grown⟩
    | error error after =>
      rw [push] at pushed
      cases run : DataPage.readValues count (page.placed offset nulls index, sink) with
      | ok value left =>
        obtain ⟨_, _, taken⟩ := DataPage.readValues_ok run
        cases push.symm.trans taken
      | error error left => exact pushed
  · have missing : Slot.missing ∈ (List.range' index count).map page.values.values.slot := by
      have beyond : page.values.values.slot page.values.count = .missing := PageValues.slot_beyond (Nat.le_refl _)
      rw [← beyond]
      refine List.mem_map_of_mem (List.mem_range'_1.mpr ⟨inside, ?_⟩)
      exact Nat.lt_of_not_le enough
    rw [mapM_eq_none_of_mem intake.take missing rfl]
    cases run : DataPage.readValues count (page.placed offset nulls index, sink) with
    | ok value left =>
      obtain ⟨_, most, _⟩ := DataPage.readValues_ok run
      omega
    | error error left => exact rfl

theorem readRuns_meets (sound : page.Sound) (offset nulls : Nat) {index : Nat} {runs : List NullRun}
    (filled : NullRun.Filled runs) (within : nulls + NullRun.rows runs ≤ page.rows)
    (inside : index ≤ page.values.count) {sink : σ} (fits : intake.Fits sink) :
    Meets (DataPage.readRuns runs (page.placed offset nulls index, sink))
      ((page.values.values.slotsFrom index (NullRun.expand runs)).mapM intake.take)
      fun more hasNull after => intake.Grown sink more after.2 ∧ hasNull = (NullRun.expand runs).any id := by
  induction runs generalizing nulls index sink with
  | nil => exact ⟨[], rfl, Grown.refl fits, rfl⟩
  | cons first rest ih =>
    have rows : NullRun.rows (first :: rest) = first.length + NullRun.rows rest := rfl
    have positive : 0 < first.length := filled first List.mem_cons_self
    have later : NullRun.Filled rest := fun other member => filled other (List.mem_cons_of_mem _ member)
    rw [rows] at within
    rw [NullRun.expand_cons, PageValues.slotsFrom_append, mapM_append_some, DataPage.readRuns, bind_apply,
      sound.passNulls_placed offset index (by omega)]
    have onward {value : Nat} (most : value ≤ page.values.count) {more : List ρ} {mid : σ}
        (grown : intake.Grown sink more mid) :
        Meets ((do return first.isNull || (← DataPage.readRuns rest) : Action (DataPage × σ) Bool)
            (page.placed offset (nulls + first.length) value, mid))
          (((page.values.values.slotsFrom value (NullRun.expand rest)).mapM intake.take).map (more ++ ·))
          fun all hasNull after => intake.Grown sink all after.2 ∧
            hasNull = (List.replicate first.length first.isNull ++ NullRun.expand rest).any id := by
      refine ((ih (nulls + first.length) later (by omega) most grown.1).map (more ++ ·) (fun all hasNull after =>
        intake.Grown sink all after.2 ∧ hasNull = (NullRun.expand rest).any id)
        fun _ _ _ found => ⟨grown.trans found.1, found.2⟩).andThen fun _ _ _ found => ⟨_, _, rfl, found.1, ?_⟩
      rw [found.2, List.any_append]
      cases first.isNull <;> simp [Nat.pos_iff_ne_zero.mp positive]
    dsimp only
    cases isNull : first.isNull with
    | true =>
      rw [isNull] at onward
      simp only [if_true, PageValues.slotsFrom_nulls]
      rw [mapM_replicate_some intake.take positive, List.count_replicate]
      have few : first.length < Room.limit := page.lt_limit (by omega)
      have pushed := (intake.pushNulls sink fits first.length positive few).map (List.replicate first.length)
        (fun more _ after => intake.Grown sink more after) fun _ _ _ grown => grown
      refine (pushed.rewrap (page.placed offset (nulls + first.length) index, ·)
        (fun more _ after => after.1 = page.placed offset (nulls + first.length) index ∧
          intake.Grown sink more after.2) fun _ _ _ grown => ⟨rfl, grown⟩).bind fun more _ mid grown => ?_
      obtain ⟨reached, mid⟩ := mid
      obtain ⟨rfl, grown⟩ := grown
      exact onward inside grown
    | false =>
      rw [isNull] at onward
      simp only [Bool.false_eq_true, if_false, PageValues.slotsFrom_values]
      rw [List.count_replicate]
      refine (readValues_meets suits offset (nulls + first.length) first.length inside fits).bind
        fun more _ mid grown => ?_
      obtain ⟨reached, mid⟩ := mid
      obtain ⟨rfl, most, grown⟩ := grown
      exact onward most grown

/-- A read from a row of a page appends the rows from there on that the sink takes, and stops behind them. -/
theorem next_meets (sound : page.Sound) {row : Nat} (count : Nat) (within : row ≤ page.rows)
    (inside : page.valuesBefore row ≤ page.values.count) {sink : σ} (fits : intake.Fits sink) :
    Meets (DataPage.next count (page.atRow row, sink)) (((page.slots.drop row).take count).mapM intake.take)
      fun more read after => after.1 = page.atRow (row + min count (page.rows - row)) ∧
        page.valuesBefore (row + min count (page.rows - row)) ≤ page.values.count ∧ intake.Grown sink more after.2 ∧
        read = ⟨min count (page.rows - row), ((page.slots.drop row).take count).any Slot.isNull⟩ := by
  have readable : (page.atRow row).readable count = min count (page.rows - row) := rfl
  have slice : (page.slots.drop row).take count =
      page.values.values.slotsFrom (page.valuesBefore row)
        ((page.nullFlags.drop row).take (min count (page.rows - row))) := by
    rw [← DataPage.slots_slice, ← List.take_take, ← sound.length_slots, ← List.length_drop, List.take_length]
  have passed := page.valuesBefore_add row (min count (page.rows - row))
  rw [slice, PageValues.any_isNull_slotsFrom]
  cases stored : page.nulls with
  | none =>
    have flags : (page.nullFlags.drop row).take (min count (page.rows - row)) =
        List.replicate (min count (page.rows - row)) false := by
      simp [DataPage.nullFlags, stored]
    rw [flags, List.count_replicate_self] at passed
    rw [DataPage.next_noNulls (by simp [DataPage.atRow, stored]), readable, flags, PageValues.slotsFrom_values]
    refine (readValues_meets suits row row (min count (page.rows - row)) inside fits).andThen
      fun more _ mid found => ⟨_, _, rfl, ?_⟩
    obtain ⟨reached, mid⟩ := mid
    obtain ⟨rfl, most, grown⟩ := found
    rw [DataPage.atRow, passed]
    refine ⟨?_, most, grown, by simp⟩
    simp [DataPage.placed, stored]
  | some nulls =>
    obtain ⟨rows, flags⟩ := sound.rows_ahead stored row (min count (page.rows - row))
    rw [Nat.min_eq_left (Nat.min_le_right ..)] at rows
    have filled : NullRun.Filled (NullRun.take (min count (page.rows - row)) (nulls.atRow row).ahead) :=
      ((sound nulls stored).1.drop row).take _
    have has : (page.atRow row).nulls = some (nulls.atRow row) := by simp [DataPage.atRow, stored]
    rw [DataPage.next_nulls has, readable, ← flags]
    have runs := readRuns_meets suits sound row row filled (by omega) inside fits
    refine (runs.and fun _ _ run => sound.readRuns_ok (by omega) inside run).andThen ?_
    rintro more hasNull ⟨reached, mid⟩ ⟨⟨grown, same⟩, placed, most⟩
    rw [rows, flags, ← passed] at placed
    rw [flags, ← passed] at most
    obtain rfl := placed
    refine ⟨⟨_, hasNull⟩, (page.atRow (row + min count (page.rows - row)), mid), ?_, rfl, most, grown, by rw [same]⟩
    rw [rows]
    dsimp only
    rw [if_neg (Nat.lt_irrefl _)]
    rfl

end Reading

end Intake

end Columnar
