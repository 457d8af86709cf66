import Columnar.Proofs.PageReads

namespace Columnar

open Columnar.Action

/-- What stands in a row of a page as it is stored: no value where the page or its dictionary ends too early. -/
inductive Slot where
  | missing
  | null
  | value (stored : Bytes)
  deriving DecidableEq, Repr

def Slot.isNull : Slot → Bool
  | null => true
  | missing | value _ => false

namespace PageValues

/-- The stored value at an index. -/
def slot (values : PageValues) (index : Nat) : Slot :=
  let stored := match values with
    | packed width data => if index < data.length / width
      then some ((data.drop (index * width)).take width) else none
    | flags values => values[index]?.map ([·])
    | strings values => values[index]?
    | coded codes dictionary => codes[index]?.bind (dictionary.words[·]?)
  stored.elim .missing .value

/-- The rows with some null flags, where the values from an index on belong to those that are not null. -/
def slotsFrom (values : PageValues) : Nat → List Bool → List Slot
  | _, [] => []
  | index, true :: rest => .null :: values.slotsFrom index rest
  | index, false :: rest => values.slot index :: values.slotsFrom (index + 1) rest

theorem slot_beyond {values : PageValues} {index : Nat} (beyond : values.count ≤ index) :
    values.slot index = .missing := by
  cases values with
  | packed width data =>
    have : ¬index < data.length / width := Nat.not_lt.mpr beyond
    simp [slot, this]
  | flags values => simp [slot, List.getElem?_eq_none (show values.length ≤ index from beyond)]
  | strings values => simp [slot, List.getElem?_eq_none (show values.length ≤ index from beyond)]
  | coded codes dictionary => simp [slot, List.getElem?_eq_none (show codes.length ≤ index from beyond)]

theorem slotsFrom_append (values : PageValues) (index : Nat) (flags others : List Bool) :
    values.slotsFrom index (flags ++ others) =
      values.slotsFrom index flags ++ values.slotsFrom (index + flags.count false) others := by
  induction flags generalizing index with
  | nil => rfl
  | cons flag rest ih =>
    cases flag with
    | true => simp [slotsFrom, ih]
    | false =>
      simp only [List.cons_append, slotsFrom, ih, List.count_cons_self]
      rw [Nat.add_right_comm, Nat.add_assoc]

@[simp] theorem length_slotsFrom (values : PageValues) (index : Nat) (flags : List Bool) :
    (values.slotsFrom index flags).length = flags.length := by
  induction flags generalizing index with
  | nil => rfl
  | cons flag rest ih => cases flag <;> simp [slotsFrom, ih]

theorem slotsFrom_drop (values : PageValues) (index count : Nat) (flags : List Bool) :
    (values.slotsFrom index flags).drop count =
      values.slotsFrom (index + (flags.take count).count false) (flags.drop count) := by
  rcases Nat.le_total count flags.length with within | beyond
  · have parts := values.slotsFrom_append index (flags.take count) (flags.drop count)
    rw [List.take_append_drop] at parts
    rw [parts, List.drop_left' (by simp [within])]
  · rw [List.drop_eq_nil_of_le (by simpa using beyond), List.drop_eq_nil_of_le beyond]
    rfl

theorem slotsFrom_take (values : PageValues) (index count : Nat) (flags : List Bool) :
    (values.slotsFrom index flags).take count = values.slotsFrom index (flags.take count) := by
  rcases Nat.le_total count flags.length with within | beyond
  · have parts := values.slotsFrom_append index (flags.take count) (flags.drop count)
    rw [List.take_append_drop] at parts
    rw [parts, List.take_left' (by simp [within])]
  · rw [List.take_of_length_le (by simpa using beyond), List.take_of_length_le beyond]

theorem isNull_slot (values : PageValues) (index : Nat) : (values.slot index).isNull = false := by
  unfold slot
  dsimp only
  generalize (match values with
    | packed width data => if index < data.length / width
      then some ((data.drop (index * width)).take width) else none
    | flags values => values[index]?.map ([·])
    | strings values => values[index]?
    | coded codes dictionary => codes[index]?.bind (dictionary.words[·]?)) = stored
  cases stored <;> rfl

theorem any_isNull_slotsFrom (values : PageValues) (index : Nat) (flags : List Bool) :
    (values.slotsFrom index flags).any Slot.isNull = flags.any id := by
  induction flags generalizing index with
  | nil => rfl
  | cons flag rest ih =>
    cases flag with
    | true => rfl
    | false => rw [slotsFrom, List.any_cons, List.any_cons, isNull_slot, ih, id]

theorem slotsFrom_nulls (values : PageValues) (index count : Nat) :
    values.slotsFrom index (List.replicate count true) = List.replicate count .null := by
  induction count with
  | zero => rfl
  | succ count ih => simp [List.replicate_succ, slotsFrom, ih]

theorem slotsFrom_values (values : PageValues) (index count : Nat) :
    values.slotsFrom index (List.replicate count false) = (List.range' index count).map values.slot := by
  induction count generalizing index with
  | zero => rfl
  | succ count ih => simp [List.replicate_succ, slotsFrom, ih, List.range'_succ]

theorem slot_mem_slotsFrom (values : PageValues) {index place : Nat} {flags : List Bool}
    (before : place < flags.count false) : values.slot (index + place) ∈ values.slotsFrom index flags := by
  induction flags generalizing index place with
  | nil => cases before
  | cons flag rest ih =>
    cases flag with
    | true => exact List.mem_cons_of_mem _ (ih (by simpa using before))
    | false =>
      cases place with
      | zero => exact List.mem_cons_self
      | succ place =>
        have later : values.slot (index + 1 + place) ∈ values.slotsFrom (index + 1) rest :=
          ih (by simpa using before)
        rw [Nat.add_right_comm, Nat.add_assoc] at later
        exact List.mem_cons_of_mem _ later

end PageValues

namespace DataPage

/-- The rows of a page as they are stored. -/
def slots (page : DataPage) : List Slot := page.values.values.slotsFrom 0 page.nullFlags

theorem Sound.length_slots {page : DataPage} (sound : page.Sound) : page.slots.length = page.rows := by
  rw [slots, PageValues.length_slotsFrom, sound.length_nullFlags]

/-- Some rows of a page, from where the values in front of them have been counted. -/
theorem slots_slice (page : DataPage) (row count : Nat) :
    (page.slots.drop row).take count =
      page.values.values.slotsFrom (page.valuesBefore row) ((page.nullFlags.drop row).take count) := by
  rw [slots, PageValues.slotsFrom_drop, PageValues.slotsFrom_take, Nat.zero_add]
  rfl

/-- A page that misses no row has the values in front of every row. -/
theorem valuesBefore_le {page : DataPage} (full : Slot.missing ∉ page.slots) (row : Nat) :
    page.valuesBefore row ≤ page.values.count := by
  by_contra short
  have fewer : (page.nullFlags.take row).count false ≤ page.nullFlags.count false :=
    List.Sublist.count_le _ (List.take_sublist ..)
  have member : page.values.values.slot (0 + page.values.count) ∈ page.slots :=
    PageValues.slot_mem_slotsFrom page.values.values (Nat.lt_of_lt_of_le (Nat.lt_of_not_le short) fewer)
  have missing : page.values.values.slot (0 + page.values.count) = .missing :=
    PageValues.slot_beyond (Nat.le_of_eq (Nat.zero_add page.values.count).symm)
  exact full (missing ▸ member)

end DataPage

end Columnar
