import Columnar.Proofs.AppendedRows
import Columnar.Proofs.ArrayRows
import Columnar.Proofs.HeldRows
import Columnar.Sink.Packed

namespace Columnar

open Columnar.Action

theorem Bytes.flatten_pieces {width count : Nat} {values : Bytes} (enough : count * width ≤ values.length) :
    (Bytes.pieces width count values).flatten = values.take (count * width) := by
  induction count generalizing values with
  | zero => rw [Nat.zero_mul, List.take_zero]; rfl
  | succ count ih =>
    rw [Nat.succ_mul] at enough
    have rest : count * width ≤ (values.drop width).length := by
      rw [List.length_drop]
      omega
    rw [Bytes.pieces, List.flatten_cons, ih rest, Nat.succ_mul, Nat.add_comm, List.take_add]

/-- The rows that a push brings, where values of one width are so wide. -/
def PushCall.rows (width : Nat) : PushCall → List (Option Bytes)
  | fixed values count => (Bytes.pieces width count values).map some
  | bytes value => [some value]
  | nulls count => List.replicate count none
  | repeated value count => List.replicate count (if value.isNull then none else some value.storage)

/-- The rows that a push brings, together with those before them, can be counted with 64 bits, and so can the bytes
of values of one width. -/
def PushCall.Fits (width held : Nat) : PushCall → Prop
  | fixed _ count => count * width < 2 ^ 64
  | bytes _ => True
  | nulls count => held + count < 2 ^ 64
  | repeated value count => value.isNull = true → held + count < 2 ^ 64

instance (width held : Nat) (call : PushCall) : Decidable (call.Fits width held) :=
  match call with
  | .fixed _ count => inferInstanceAs (Decidable (count * width < 2 ^ 64))
  | .bytes _ => .isTrue trivial
  | .nulls count => inferInstanceAs (Decidable (held + count < 2 ^ 64))
  | .repeated value count => inferInstanceAs (Decidable (value.isNull = true → held + count < 2 ^ 64))

/-- A call that fills a column or empties it. -/
inductive BufferCall where
  | push (call : PushCall)
  | clear

namespace BufferCall

def run {σ : Type} [Column σ] : BufferCall → Action σ Unit
  | push call => call.run
  | clear => modify Column.clear

def runAll {σ : Type} [Column σ] : List BufferCall → Action σ Unit
  | [] => pure ()
  | call :: rest => do
    call.run
    runAll rest

/-- The rows that are listed after a call. -/
def onto (width : Nat) (held : List (Option Bytes)) : BufferCall → List (Option Bytes)
  | push call => held ++ call.rows width
  | clear => []

/-- The rows that some calls have appended since the last of them that clears. -/
def appended (width : Nat) (calls : List BufferCall) : List (Option Bytes) := calls.foldl (onto width) []

def Fits (width held : Nat) : BufferCall → Prop
  | push call => call.Fits width held
  | clear => True

/-- Each of some calls brings rows that can be counted behind those that are there by then. -/
def FitAll (width : Nat) : (held : List (Option Bytes)) → List BufferCall → Prop
  | _, [] => True
  | held, call :: rest => call.Fits width held.length ∧ FitAll width (call.onto width held) rest

instance (width held : Nat) (call : BufferCall) : Decidable (call.Fits width held) :=
  match call with
  | push call => inferInstanceAs (Decidable (call.Fits width held))
  | clear => .isTrue trivial

def decideFitAll (width : Nat) : (held : List (Option Bytes)) → (calls : List BufferCall) →
    Decidable (FitAll width held calls)
  | _, [] => .isTrue trivial
  | held, call :: rest =>
    have := decideFitAll width (call.onto width held) rest
    inferInstanceAs (Decidable (call.Fits width held.length ∧ FitAll width (call.onto width held) rest))

instance (width : Nat) (held : List (Option Bytes)) (calls : List BufferCall) :
    Decidable (FitAll width held calls) :=
  decideFitAll width held calls

end BufferCall

namespace Column

/-- A column reads back as some rows. -/
structure Reads {σ : Type} [Column σ] (scalar : Bytes → Except Error Scalar) (rows : List (Option Bytes))
    (column : σ) : Prop where
  length : Sink.length column = rows.length
  isNull : ∀ (row : Nat) (inside : row < rows.length), Column.isNull column row = rows[row].isNone
  value : ∀ (row : Nat) (inside : row < rows.length), Column.value column row = rows[row].elim (.ok .null) scalar
  beyond : ∀ row, rows.length ≤ row → Column.value column row = .error (.noSuchRow row rows.length)

/-- What it takes for columns to be lists: pushes that succeed append their rows to those held before, as long as
these can be counted. -/
structure Lists {σ : Type} [Column σ] (scalar : Bytes → Except Error Scalar) (width : Nat)
    (holds : List (Option Bytes) → σ → Prop) : Prop where
  push : ∀ {call : PushCall} {rows : List (Option Bytes)} {column after : σ}, holds rows column →
    call.Fits width rows.length → call.run column = .ok () after → holds (rows ++ call.rows width) after
  clear : ∀ {rows : List (Option Bytes)} {column : σ}, holds rows column → holds [] (Column.clear column)
  reads : ∀ {rows : List (Option Bytes)} {column : σ}, holds rows column → Reads scalar rows column

/-- After calls that succeed a column reads back as the rows that they have appended since the last of them that
clears, and no push that succeeds changes what is read of the rows before it. The rows have to be so few that they
can be counted. -/
def AppendsOnly {σ : Type} [Column σ] (scalar : Bytes → Except Error Scalar) (width : Nat) (fresh : σ) : Prop :=
  ∀ calls column, BufferCall.FitAll width [] calls → BufferCall.runAll calls fresh = .ok () column →
    Reads scalar (BufferCall.appended width calls) column ∧
      ∀ (call : PushCall) after, call.Fits width (Sink.length column) → call.run column = .ok () after →
        ∀ row < Sink.length column,
          Column.isNull after row = Column.isNull column row ∧ Column.value after row = Column.value column row

section Lists

variable {σ : Type} [Column σ] {scalar : Bytes → Except Error Scalar} {width : Nat}
  {holds : List (Option Bytes) → σ → Prop} {rows : List (Option Bytes)} {column after : σ}

theorem Lists.run (lists : Lists scalar width holds) (held : holds rows column) {call : BufferCall}
    (fits : call.Fits width rows.length) (runs : call.run column = .ok () after) :
    holds (call.onto width rows) after := by
  cases call with
  | push call => exact lists.push held fits runs
  | clear =>
    cases runs
    exact lists.clear held

theorem Lists.runAll (lists : Lists scalar width holds) (held : holds rows column) {calls : List BufferCall}
    (fit : BufferCall.FitAll width rows calls) (runs : BufferCall.runAll calls column = .ok () after) :
    holds (calls.foldl (BufferCall.onto width) rows) after := by
  induction calls generalizing rows column with
  | nil =>
    cases runs
    exact held
  | cons call rest ih =>
    obtain ⟨_, mid, first, others⟩ := bind_ok runs
    exact ih (lists.run held fit.1 first) fit.2 others

theorem Reads.append {more : List (Option Bytes)} (before : Reads scalar rows column)
    (behind : Reads scalar (rows ++ more) after) {row : Nat} (inside : row < Sink.length column) :
    Column.isNull after row = Column.isNull column row ∧ Column.value after row = Column.value column row := by
  rw [before.length] at inside
  have within : row < (rows ++ more).length := by
    rw [List.length_append]
    omega
  have same : (rows ++ more)[row] = rows[row] := List.getElem_append_left inside
  constructor
  · rw [behind.isNull row within, before.isNull row inside, same]
  · rw [behind.value row within, before.value row inside, same]

theorem Lists.appendsOnly (lists : Lists scalar width holds) {fresh : σ} (empty : holds [] fresh) :
    AppendsOnly scalar width fresh := by
  intro calls column fit runs
  have held := lists.runAll empty fit runs
  refine ⟨lists.reads held, fun call after fits push row inside => ?_⟩
  rw [(lists.reads held).length] at fits
  exact (lists.reads held).append (lists.reads (lists.push held fits push)) inside

/-- Columns that do what other columns do, and that read back alike, are lists too. -/
theorem Lists.image (lists : Lists scalar width holds) {τ : Type} [Column τ] {layout : σ → τ}
    (push : ∀ {call : PushCall} {rows column}, holds rows column → call.Fits width rows.length →
      call.run (layout column) = rewrap layout (call.run column))
    (clear : ∀ column, Column.clear (layout column) = layout (Column.clear column))
    (reads : ∀ rows column, holds rows column → Reads scalar rows (layout column)) :
    Lists scalar width fun rows laid => ∃ column, holds rows column ∧ layout column = laid where
  push := by
    rintro call rows _ after ⟨column, held, rfl⟩ fits runs
    obtain ⟨inner, runs', same⟩ := rewrap_eq_ok ((push held fits).symm.trans runs)
    exact ⟨inner, lists.push held fits runs', same⟩
  clear := by
    rintro rows _ ⟨column, held, rfl⟩
    exact ⟨Column.clear column, lists.clear held, (clear column).symm⟩
  reads := by
    rintro rows _ ⟨column, held, rfl⟩
    exact reads rows column held

end Lists

end Column

theorem ColumnType.fixedSize_pos {type : ColumnType} {width : Nat} (size : type.fixedSize? = some width) :
    0 < width := by
  have positive : type.fixedSize?.all (0 < ·) = true := by
    cases type with
    | integer kind => cases kind <;> rfl
    | float kind => cases kind <;> rfl
    | _ => rfl
  rw [size] at positive
  exact of_decide_eq_true positive

namespace FixedBuffer

/-- What is made of stored bytes of a type. -/
def scalar (type : ColumnType) (stored : Bytes) : Except Error Scalar :=
  (Scalar.ofStorage type stored).mapError Error.ofValue

/-- A row of the width of the values, or a null where there may be nulls. -/
def Admits (width : Nat) (nullable : Bool) : Option Bytes → Prop
  | none => nullable = true
  | some stored => stored.length = width

/-- A buffer of a type holds some rows. -/
structure Listing (type : ColumnType) (width : Nat) (nullable : Bool) (rows : List (Option Bytes))
    (buffer : FixedBuffer) : Prop where
  kind : (intake type width nullable).Fits buffer
  rows_eq : buffer.rows = rows
  admits : ∀ row ∈ rows, Admits width nullable row

variable {type : ColumnType} {width : Nat} {nullable : Bool} {rows : List (Option Bytes)}
  {buffer after : FixedBuffer}

theorem Listing.append (listing : Listing type width nullable rows buffer) {more : List (Option Bytes)}
    (admits : ∀ row ∈ more, Admits width nullable row) (runs : FixedBuffer.append more buffer = .ok () after) :
    Listing type width nullable (rows ++ more) after := by
  cases runs
  refine ⟨listing.kind, congrArg (· ++ more) listing.rows_eq, fun row member => ?_⟩
  exact (List.mem_append.mp member).elim (listing.admits row) (admits row)

/-- Nulls that can be counted are made room for. -/
theorem Listing.grows (listing : Listing type width nullable rows buffer) {count : Nat}
    (few : rows.length + count < 2 ^ 64) :
    Room.cut buffer.rows.length count = none := Room.cut_eq_none_of_sum (listing.rows_eq ▸ few)

theorem Listing.pushNulls (listing : Listing type width nullable rows buffer) {count : Nat}
    (few : rows.length + count < 2 ^ 64) (runs : FixedBuffer.pushNulls count buffer = .ok () after) :
    Listing type width nullable (rows ++ List.replicate count none) after := by
  cases allowed : buffer.nullable with
  | false =>
    rw [pushNulls_refused allowed] at runs
    cases runs
  | true =>
    rw [pushNulls_append allowed (listing.grows few)] at runs
    refine listing.append (fun row member => ?_) runs
    obtain rfl := List.eq_of_mem_replicate member
    exact listing.kind.2.2.symm.trans allowed

theorem Listing.push (listing : Listing type width nullable rows buffer) {call : PushCall}
    (fits : call.Fits width rows.length) (runs : call.run buffer = .ok () after) :
    Listing type width nullable (rows ++ call.rows width) after := by
  obtain ⟨ofType, ofWidth, may⟩ := listing.kind
  cases call with
  | fixed values count =>
    change FixedBuffer.pushFixed values count buffer = _ at runs
    obtain rfl := ofWidth
    rcases Nat.lt_or_ge values.length (count * buffer.width) with short | enough
    · rw [FixedBuffer.pushFixed_short short fits] at runs
      cases runs
    · rw [FixedBuffer.pushFixed_append enough] at runs
      refine listing.append (fun row member => ?_) runs
      obtain ⟨piece, piece_mem, rfl⟩ := List.mem_map.mp member
      exact length_of_mem_pieces enough piece_mem
  | bytes value =>
    change FixedBuffer.pushBytes value buffer = _ at runs
    rw [FixedBuffer.pushBytes, bind_apply, get_apply] at runs
    dsimp only at runs
    rw [ofWidth] at runs
    split at runs
    · cases runs
    · rename_i size
      refine listing.append (fun row member => ?_) runs
      obtain rfl := List.mem_singleton.mp member
      exact not_not.mp size
  | nulls count => exact listing.pushNulls fits runs
  | repeated value count =>
    change FixedBuffer.pushRepeated value count buffer = _ at runs
    rw [FixedBuffer.pushRepeated, bind_apply, get_apply] at runs
    dsimp only at runs
    rw [ofWidth] at runs
    rw [PushCall.rows]
    split at runs
    · rename_i isNull
      rw [if_pos isNull]
      exact listing.pushNulls (fits isNull) runs
    · rename_i filled
      rw [if_neg filled]
      split at runs
      · cases runs
      · rename_i size
        refine listing.append (fun row member => ?_) runs
        obtain rfl := List.eq_of_mem_replicate member
        exact not_not.mp size

theorem Listing.clear (listing : Listing type width nullable rows buffer) :
    Listing type width nullable [] buffer.clear :=
  ⟨listing.kind, rfl, nofun⟩

theorem Listing.reads (listing : Listing type width nullable rows buffer) :
    Column.Reads (scalar type) rows buffer := by
  obtain ⟨⟨rfl, rfl, rfl⟩, rfl, _⟩ := listing
  refine ⟨rfl, fun row inside => ?_, fun row inside => ?_, fun row beyond => ?_⟩
  · change buffer.isNull row = _
    rw [FixedBuffer.isNull, List.getElem?_eq_getElem inside]
    cases buffer.rows[row] <;> simp
  · change buffer.value row = _
    rw [FixedBuffer.value, List.getElem?_eq_getElem inside]
    cases buffer.rows[row] <;> rfl
  · change buffer.value row = _
    rw [FixedBuffer.value, List.getElem?_eq_none beyond]

theorem lists (type : ColumnType) (width : Nat) (nullable : Bool) :
    Column.Lists (scalar type) width (Listing type width nullable) where
  push listing fits runs := listing.push fits runs
  clear listing := listing.clear
  reads listing := listing.reads

end FixedBuffer

namespace BytesBuffer

/-- A buffer of a type holds some rows. -/
structure Listing (type : ColumnType) (nullable : Bool) (rows : List (Option Bytes)) (buffer : BytesBuffer) :
    Prop where
  kind : (intake type nullable).Fits buffer
  rows_eq : buffer.rows = rows
  admits : none ∈ rows → nullable = true

variable {type : ColumnType} {nullable : Bool} {rows : List (Option Bytes)} {buffer after : BytesBuffer}

theorem Listing.append (listing : Listing type nullable rows buffer) {value : Bytes} {count : Nat}
    (runs : BytesBuffer.append value count buffer = .ok () after) :
    Listing type nullable (rows ++ List.replicate count (some value)) after := by
  cases runs
  refine ⟨listing.kind, congrArg (· ++ List.replicate count (some value)) listing.rows_eq, fun member => ?_⟩
  rcases List.mem_append.mp member with before | new
  · exact listing.admits before
  · cases List.eq_of_mem_replicate new

/-- Nulls that can be counted are made room for. -/
theorem Listing.grows (listing : Listing type nullable rows buffer) {count : Nat}
    (few : rows.length + count < 2 ^ 64) :
    Room.cut buffer.rows.length count = none := Room.cut_eq_none_of_sum (listing.rows_eq ▸ few)

theorem Listing.pushNulls (listing : Listing type nullable rows buffer) {count : Nat}
    (few : rows.length + count < 2 ^ 64) (runs : BytesBuffer.pushNulls count buffer = .ok () after) :
    Listing type nullable (rows ++ List.replicate count none) after := by
  obtain ⟨ofType, may⟩ := listing.kind
  cases nullable with
  | false =>
    rw [pushNulls_refused may] at runs
    cases runs
  | true =>
    rw [pushNulls_append may (listing.grows few)] at runs
    cases runs
    exact ⟨⟨ofType, may⟩, congrArg (· ++ List.replicate count none) listing.rows_eq, fun _ => rfl⟩

theorem Listing.push (listing : Listing type nullable rows buffer) {call : PushCall} {width : Nat}
    (fits : call.Fits width rows.length) (runs : call.run buffer = .ok () after) :
    Listing type nullable (rows ++ call.rows width) after := by
  cases call with
  | fixed values count => cases runs
  | bytes value => exact listing.append runs
  | nulls count => exact listing.pushNulls fits runs
  | repeated value count =>
    cases value with
    | null => exact listing.pushNulls (fits rfl) runs
    | bytes stored => exact listing.append runs
    | _ => cases runs

theorem Listing.reads (listing : Listing type nullable rows buffer) :
    Column.Reads (fun stored => .ok (.bytes stored)) rows buffer := by
  obtain ⟨_, rfl, _⟩ := listing
  refine ⟨rfl, fun row inside => ?_, fun row inside => ?_, fun row beyond => ?_⟩
  · change buffer.isNull row = _
    rw [BytesBuffer.isNull, List.getElem?_eq_getElem inside]
    cases buffer.rows[row] <;> simp
  · change buffer.value row = _
    rw [BytesBuffer.value, List.getElem?_eq_getElem inside]
    cases buffer.rows[row] <;> rfl
  · change buffer.value row = _
    rw [BytesBuffer.value, List.getElem?_eq_none beyond]

theorem lists (type : ColumnType) (nullable : Bool) (width : Nat) :
    Column.Lists (fun stored => .ok (.bytes stored)) width (Listing type nullable) where
  push listing fits runs := listing.push fits runs
  clear listing := ⟨listing.kind, rfl, nofun⟩
  reads listing := listing.reads

end BytesBuffer

section Slots

variable {slot : Option Bytes → Bytes} {rows : List (Option Bytes)}

/-- The bytes of the rows from one on stand behind those of the rows before it. -/
theorem drop_slots (slot : Option Bytes → Bytes) (rows : List (Option Bytes)) (row : Nat) :
    (rows.flatMap slot).drop (total ((rows.take row).map fun row => (slot row).length)) =
    (rows.drop row).flatMap slot := by
  induction rows generalizing row with
  | nil =>
    rw [List.take_nil, List.drop_nil]
    exact List.drop_nil
  | cons first rest ih =>
    cases row with
    | zero => rfl
    | succ row =>
      rw [List.take_succ_cons, List.map_cons, total, List.flatMap_cons, List.drop_length_add_append, ih,
        List.drop_succ_cons]

theorem take_drop_slots (slot : Option Bytes → Bytes) {row : Nat} (inside : row < rows.length) :
    ((rows.flatMap slot).drop (total ((rows.take row).map fun row => (slot row).length))).take
      (slot rows[row]).length = slot rows[row] := by
  rw [drop_slots, List.drop_eq_getElem_cons inside, List.flatMap_cons, List.take_left']
  rfl

theorem length_slots (slot : Option Bytes → Bytes) (rows : List (Option Bytes)) :
    (rows.flatMap slot).length = total (rows.map fun row => (slot row).length) := by
  induction rows with
  | nil => rfl
  | cons first rest ih => rw [List.flatMap_cons, List.length_append, ih, List.map_cons, total]

theorem total_uniform {width : Nat} (rows : List (Option Bytes))
    (uniform : ∀ row ∈ rows, (slot row).length = width) :
    total (rows.map fun row => (slot row).length) = rows.length * width := by
  induction rows with
  | nil => rw [List.length_nil, Nat.zero_mul]; rfl
  | cons first rest ih =>
    rw [List.map_cons, total, uniform first List.mem_cons_self,
      ih fun row member => uniform row (List.mem_cons_of_mem _ member),
      List.length_cons, Nat.succ_mul, Nat.add_comm]

/-- The flags of some rows, where there may be nulls. -/
def nullFlags (nullable : Bool) (rows : List (Option Bytes)) : Option (List Bool) :=
  if nullable then some (rows.map Option.isNone) else none

theorem nullFlags_append (nullable : Bool) (rows more : List (Option Bytes)) :
    nullFlags nullable (rows ++ more) = (nullFlags nullable rows).map (· ++ more.map Option.isNone) := by
  cases nullable with
  | false => rfl
  | true => exact congrArg some List.map_append

/-- The flags tell the nulls, as there are none where there are no flags. -/
theorem any_nullFlags {nullable : Bool} (may : none ∈ rows → nullable = true) {row : Nat}
    (inside : row < rows.length) :
    ((nullFlags nullable rows).any fun flags => flags.getD row false) = rows[row].isNone := by
  cases nullable with
  | true =>
    change (rows.map Option.isNone).getD row false = _
    rw [List.getD_eq_getElem?_getD, List.getElem?_map, List.getElem?_eq_getElem inside]
    rfl
  | false =>
    cases same : rows[row] with
    | none => exact absurd (may (same ▸ List.getElem_mem inside)) Bool.false_ne_true
    | some stored => rfl

end Slots

namespace FixedBuffer

/-- The bytes in the place of a row: zeros where it is null. -/
def slot (width : Nat) (row : Option Bytes) : Bytes := row.getD (List.replicate width 0)

/-- The rows of a buffer as they are laid out. -/
def packed (buffer : FixedBuffer) : PackedColumn where
  type := buffer.type
  width := buffer.width
  bytes := buffer.rows.flatMap (slot buffer.width)
  nulls := nullFlags buffer.nullable buffer.rows

variable {buffer : FixedBuffer}

/-- Values are appended to what is laid out as they are to the rows. -/
theorem append_packed (buffer : FixedBuffer) (values : List Bytes) :
    rewrap packed (FixedBuffer.append (values.map some) buffer) =
      .ok () (buffer.packed.append values.flatten values.length) := by
  have slots : (values.map some).flatMap (slot buffer.width) = values.flatten := by
    rw [List.flatMap_map]
    exact List.flatMap_id'
  have flags : (values.map some).map Option.isNone = List.replicate values.length false := by
    rw [List.map_map]
    exact List.map_const' ..
  have bytes : (buffer.rows ++ values.map some).flatMap (slot buffer.width) =
      buffer.rows.flatMap (slot buffer.width) ++ values.flatten := by
    rw [List.flatMap_append, slots]
  have nulls : nullFlags buffer.nullable (buffer.rows ++ values.map some) =
      (nullFlags buffer.nullable buffer.rows).map (· ++ List.replicate values.length false) := by
    rw [nullFlags_append, flags]
  exact congrArg₂ (fun bytes nulls =>
    EStateM.Result.ok () (⟨buffer.type, buffer.width, bytes, nulls⟩ : PackedColumn))
    bytes nulls

theorem pushNulls_packed {count : Nat} (grows : Room.cut buffer.rows.length count = none) :
    PackedColumn.pushNulls count buffer.packed = rewrap packed (FixedBuffer.pushNulls count buffer) := by
  obtain ⟨type, width, nullable, rows, room⟩ := buffer
  cases nullable with
  | false => rfl
  | true =>
    have grows' : Room.cut (rows.map Option.isNone).length count = none := by rwa [List.length_map]
    rw [pushNulls_append rfl grows, PackedColumn.pushNulls, bind_apply, get_apply]
    simp only [packed, nullFlags, if_true, grows']
    have zeros : (List.replicate count none).flatMap (slot width) = List.replicate (count * width) 0 := by
      rw [List.flatMap_replicate]
      exact List.flatten_replicate_replicate
    have bytes : (rows ++ List.replicate count none).flatMap (slot width) =
        rows.flatMap (slot width) ++ List.replicate (count * width) 0 := by
      rw [List.flatMap_append, zeros]
    have nulls : (rows ++ List.replicate count none).map Option.isNone =
        rows.map Option.isNone ++ List.replicate count true := by
      rw [List.map_append, List.map_replicate]
      rfl
    exact (congrArg₂ (fun bytes flags => EStateM.Result.ok () (⟨type, width, bytes, some flags⟩ : PackedColumn))
      bytes nulls).symm

theorem pushFixed_packed {values : Bytes} {count : Nat}
    (fits : count * buffer.width ≤ values.length ∨ count * buffer.width < 2 ^ 64) :
    PackedColumn.pushFixed values count buffer.packed =
      rewrap packed (FixedBuffer.pushFixed values count buffer) := by
  have width : buffer.packed.width = buffer.width := rfl
  rw [PackedColumn.pushFixed, bind_apply, get_apply]
  dsimp only
  rw [width]
  rcases Nat.lt_or_ge values.length (count * buffer.width) with short | enough
  · have few := fits.resolve_left (Nat.not_le.mpr short)
    rw [FixedBuffer.pushFixed_short short few, Bytes.sizeFor_of_lt few, if_pos short]
    rfl
  · rw [FixedBuffer.pushFixed_append enough, append_packed, Bytes.flatten_pieces enough, Bytes.length_pieces,
      Bytes.sizeFor_of_le enough, if_neg (Nat.not_lt.mpr enough), if_neg fun short => Nat.not_lt.mpr enough short.2]
    rfl

theorem pushFixed_one {value : Bytes} (size : value.length = buffer.width) :
    FixedBuffer.pushFixed value 1 buffer = FixedBuffer.append [some value] buffer := by
  have whole : Bytes.pieces buffer.width 1 value = [value] := by
    rw [Bytes.pieces, Bytes.pieces, List.take_of_length_le (Nat.le_of_eq size)]
  rw [FixedBuffer.pushFixed_append (by omega), whole]
  rfl

/-- A push does to what is laid out what it does to the rows: it succeeds or fails alike, and leads to the same
rows. -/
theorem run_packed {call : PushCall} (fits : call.Fits buffer.width buffer.rows.length) :
    call.run buffer.packed = rewrap packed (call.run buffer) := by
  have width : buffer.packed.width = buffer.width := rfl
  cases call with
  | fixed values count => exact pushFixed_packed (.inr fits)
  | bytes value =>
    change PackedColumn.pushBytes value buffer.packed = rewrap packed (FixedBuffer.pushBytes value buffer)
    rw [PackedColumn.pushBytes, FixedBuffer.pushBytes, bind_apply, bind_apply, get_apply, get_apply]
    dsimp only
    rw [width]
    by_cases size : value.length = buffer.width
    · rw [if_neg (not_not.mpr size), if_neg (not_not.mpr size), ← pushFixed_one size]
      exact pushFixed_packed (.inl (Nat.le_of_eq (by rw [Nat.one_mul, size])))
    · rw [if_pos size, if_pos size]
      rfl
  | nulls count => exact pushNulls_packed (Room.cut_eq_none_of_sum fits)
  | repeated value count =>
    change PackedColumn.pushRepeated value count buffer.packed =
      rewrap packed (FixedBuffer.pushRepeated value count buffer)
    rw [PackedColumn.pushRepeated, FixedBuffer.pushRepeated, bind_apply, bind_apply, get_apply, get_apply]
    dsimp only
    rw [width]
    by_cases isNull : value.isNull
    · rw [if_pos isNull, if_pos isNull]
      exact pushNulls_packed (Room.cut_eq_none_of_sum (fits isNull))
    · rw [if_neg isNull, if_neg isNull]
      by_cases size : value.storage.length = buffer.width
      · have each : List.replicate count (some value.storage) = (List.replicate count value.storage).map some :=
          List.map_replicate.symm
        rw [if_neg (not_not.mpr size), if_neg (not_not.mpr size), each, append_packed, List.length_replicate]
        rfl
      · rw [if_pos size, if_pos size]
        rfl

theorem clear_packed (buffer : FixedBuffer) : buffer.packed.clear = buffer.clear.packed := by
  obtain ⟨type, width, nullable, rows, room⟩ := buffer
  cases nullable <;> rfl

/-- What is laid out reads back as the rows do. -/
theorem Listing.reads_packed {type : ColumnType} {width : Nat} {nullable : Bool} {rows : List (Option Bytes)}
    (positive : 0 < width) (listing : Listing type width nullable rows buffer) :
    Column.Reads (scalar type) rows buffer.packed := by
  obtain ⟨⟨rfl, rfl, rfl⟩, rfl, admits⟩ := listing
  have uniform (row : Option Bytes) (member : row ∈ buffer.rows) :
      (slot buffer.width row).length = buffer.width := by
    cases row with
    | none => exact List.length_replicate
    | some stored => exact admits _ member
  have length : buffer.packed.length = buffer.rows.length := by
    change (buffer.rows.flatMap (slot buffer.width)).length / buffer.width = _
    rw [length_slots, total_uniform _ uniform, Nat.mul_div_cancel _ positive]
  have nulls (row : Nat) (inside : row < buffer.rows.length) : buffer.packed.isNull row = buffer.rows[row].isNone :=
    any_nullFlags (fun member => admits none member) inside
  refine ⟨length, nulls, fun row inside => ?_, fun row beyond => ?_⟩
  · have place : total ((buffer.rows.take row).map fun row => (slot buffer.width row).length) =
      row * buffer.width := by
      rw [total_uniform _ fun row member => uniform row (List.mem_of_mem_take member), List.length_take,
        Nat.min_eq_left (Nat.le_of_lt inside)]
    have stored := take_drop_slots (slot buffer.width) inside
    rw [place, uniform _ (List.getElem_mem inside)] at stored
    change buffer.packed.value row = _
    rw [PackedColumn.value, length, if_neg (Nat.not_le.mpr inside), nulls row inside]
    change (if buffer.rows[row].isNone = true then _ else
      (Scalar.ofStorage buffer.type
        ((buffer.rows.flatMap (slot buffer.width)).drop (row * buffer.width) |>.take buffer.width)).mapError _) = _
    rw [stored]
    cases buffer.rows[row] <;> rfl
  · change buffer.packed.value row = _
    rw [PackedColumn.value, length, if_pos beyond]

end FixedBuffer

namespace BytesBuffer

/-- The bytes of a row: none where it is null. -/
def slot (row : Option Bytes) : Bytes := row.getD []

/-- The rows of a buffer as they are laid out. -/
def fenced (buffer : BytesBuffer) : FencedColumn where
  type := buffer.type
  bytes := buffer.rows.flatMap slot
  fences := OffsetBuffer.fencesOf (buffer.rows.map fun row => (slot row).length)
  nulls := nullFlags buffer.nullable buffer.rows

variable {buffer : BytesBuffer}

/-- Rows behind others are laid out behind them. -/
theorem fenced_append (buffer : BytesBuffer) (more : List (Option Bytes)) (room : Nat) :
    fenced { buffer with rows := buffer.rows ++ more, room } =
      { buffer.fenced with
        bytes := buffer.fenced.bytes ++ more.flatMap slot
        fences := buffer.fenced.fences ++
          OffsetBuffer.runningSums buffer.fenced.bytes.length (more.map fun row => (slot row).length)
        nulls := buffer.fenced.nulls.map (· ++ more.map Option.isNone) } := by
  have bytes : (buffer.rows ++ more).flatMap slot = buffer.fenced.bytes ++ more.flatMap slot := List.flatMap_append
  have fences : OffsetBuffer.fencesOf ((buffer.rows ++ more).map fun row => (slot row).length) =
      buffer.fenced.fences ++
        OffsetBuffer.runningSums buffer.fenced.bytes.length (more.map fun row => (slot row).length) := by
    rw [List.map_append, OffsetBuffer.fencesOf, OffsetBuffer.runningSums_append, Nat.zero_add, ← length_slots]
    rfl
  exact (FencedColumn.mk.injEq ..).mpr ⟨rfl, bytes, fences, nullFlags_append ..⟩

theorem appendEach_fenced (value : Bytes) (count : Nat) (buffer : BytesBuffer) (room : Nat) :
    buffer.fenced.appendEach value count =
      fenced { buffer with rows := buffer.rows ++ List.replicate count (some value), room } := by
  induction count generalizing buffer with
  | zero =>
    rw [List.replicate_zero, List.append_nil]
    rfl
  | succ count ih =>
    have one : buffer.fenced.append value = fenced { buffer with rows := buffer.rows ++ [some value] } := by
      rw [fenced_append, FencedColumn.append, List.length_append]
      simp [slot, OffsetBuffer.runningSums]
    rw [FencedColumn.appendEach, one, ih, List.append_assoc]
    rfl

theorem append_fenced (value : Bytes) (count : Nat) (buffer : BytesBuffer) :
    (modify (FencedColumn.appendEach value count) : Action FencedColumn PUnit) buffer.fenced =
      rewrap fenced (BytesBuffer.append value count buffer) :=
  congrArg (EStateM.Result.ok ()) (appendEach_fenced ..)

theorem pushNulls_fenced {count : Nat} (grows : Room.cut buffer.rows.length count = none) :
    FencedColumn.pushNulls count buffer.fenced = rewrap fenced (BytesBuffer.pushNulls count buffer) := by
  rw [FencedColumn.pushNulls, bind_apply, get_apply]
  cases may : buffer.nullable with
  | false =>
    have none : buffer.fenced.nulls = none := by
      rw [fenced, may]
      rfl
    rw [pushNulls_refused may]
    simp only [none]
    rfl
  | true =>
    have flags : buffer.fenced.nulls = some (buffer.rows.map Option.isNone) := by
      rw [fenced, may]
      rfl
    have empty : (List.replicate count none).flatMap slot = [] := by
      rw [List.flatMap_replicate]
      exact List.flatten_replicate_nil
    have grown := fenced_append buffer (List.replicate count none) (buffer.reserve count).room
    rw [empty, List.append_nil, List.map_replicate, List.map_replicate, flags] at grown
    have ends : OffsetBuffer.runningSums buffer.fenced.bytes.length (List.replicate count (slot none).length) =
        List.replicate count buffer.fenced.bytes.length := OffsetBuffer.runningSums_zeros ..
    rw [ends] at grown
    have grows' : Room.cut (buffer.rows.map Option.isNone).length count = none := by rwa [List.length_map]
    rw [pushNulls_append may grows]
    simp only [flags, grows']
    exact congrArg (EStateM.Result.ok ()) grown.symm

/-- A push does to what is laid out what it does to the rows. -/
theorem run_fenced {call : PushCall} {width : Nat} (fits : call.Fits width buffer.rows.length) :
    call.run buffer.fenced = rewrap fenced (call.run buffer) := by
  cases call with
  | fixed values count => rfl
  | bytes value => exact append_fenced value 1 buffer
  | nulls count => exact pushNulls_fenced (Room.cut_eq_none_of_sum fits)
  | repeated value count =>
    cases value with
    | null => exact pushNulls_fenced (Room.cut_eq_none_of_sum (fits rfl))
    | bytes stored => exact append_fenced stored count buffer
    | _ => rfl

theorem clear_fenced (buffer : BytesBuffer) : buffer.fenced.clear = buffer.clear.fenced := by
  obtain ⟨type, nullable, rows, room⟩ := buffer
  cases nullable <;> rfl

theorem fence_fenced (buffer : BytesBuffer) {row : Nat} (within : row ≤ buffer.rows.length) :
    buffer.fenced.fence row = total ((buffer.rows.take row).map fun row => (slot row).length) := by
  have inside : row ≤ (buffer.rows.map fun row => (slot row).length).length := by rwa [List.length_map]
  have found := OffsetBuffer.getElem?_runningSums 0 inside
  change (OffsetBuffer.fencesOf (buffer.rows.map fun row => (slot row).length)).getD row 0 = _
  rw [List.getD_eq_getElem?_getD, OffsetBuffer.fencesOf, found, Option.getD_some, Nat.zero_add, List.map_take]

/-- What is laid out reads back as the rows do. -/
theorem Listing.reads_fenced {type : ColumnType} {nullable : Bool} {rows : List (Option Bytes)}
    (listing : Listing type nullable rows buffer) :
    Column.Reads (fun stored => .ok (.bytes stored)) rows buffer.fenced := by
  obtain ⟨⟨rfl, rfl⟩, rfl, admits⟩ := listing
  have length : buffer.fenced.length = buffer.rows.length := by
    rw [FencedColumn.length]
    change (OffsetBuffer.fencesOf _).length - 1 = _
    rw [OffsetBuffer.fencesOf, List.length_cons, OffsetBuffer.length_runningSums, List.length_map,
      Nat.add_sub_cancel]
  have nulls (row : Nat) (inside : row < buffer.rows.length) : buffer.fenced.isNull row = buffer.rows[row].isNone :=
    any_nullFlags admits inside
  refine ⟨length, nulls, fun row inside => ?_, fun row beyond => ?_⟩
  · have raw : buffer.fenced.raw row = slot buffer.rows[row] := by
      have next : (buffer.rows.take (row + 1)).map (fun row => (slot row).length) =
          (buffer.rows.take row).map (fun row => (slot row).length) ++ [(slot buffer.rows[row]).length] := by
        rw [List.take_succ_eq_append_getElem inside, List.map_append]
        rfl
      have width : buffer.fenced.fence (row + 1) - buffer.fenced.fence row = (slot buffer.rows[row]).length := by
        rw [fence_fenced buffer inside, fence_fenced buffer (Nat.le_of_lt inside), next, total_append,
          Nat.add_sub_cancel_left]
        rfl
      rw [FencedColumn.raw, width, fence_fenced buffer (Nat.le_of_lt inside)]
      exact take_drop_slots slot inside
    change buffer.fenced.value row = _
    rw [FencedColumn.value, length, if_neg (Nat.not_le.mpr inside), nulls row inside, raw]
    cases buffer.rows[row] <;> rfl
  · change buffer.fenced.value row = _
    rw [FencedColumn.value, length, if_pos beyond]

end BytesBuffer

namespace Column

/-- Columns of values of one width, and columns of byte strings, whether their rows are held one by one or laid out,
are lists to which rows are only appended, as long as these can be counted. -/
theorem fresh_appendsOnly (type : ColumnType) (nullable : Bool) :
    (∀ width, type.fixedSize? = some width → ∃ buffer column, FixedBuffer.create type nullable = .ok buffer ∧
      PackedColumn.create type nullable = .ok column ∧ AppendsOnly (FixedBuffer.scalar type) width buffer ∧
      AppendsOnly (FixedBuffer.scalar type) width column) ∧
    ∀ width, AppendsOnly (fun stored => .ok (.bytes stored)) width ({ type, nullable } : BytesBuffer) ∧
      AppendsOnly (fun stored => .ok (.bytes stored)) width (FencedColumn.create type nullable) := by
  constructor
  · intro width size
    have positive := ColumnType.fixedSize_pos size
    have empty : FixedBuffer.Listing type width nullable [] { type, width, nullable } :=
      ⟨⟨rfl, rfl, rfl⟩, rfl, List.forall_mem_nil _⟩
    have lists := FixedBuffer.lists type width nullable
    refine ⟨{ type, width, nullable }, { type, width, nulls := noFlags nullable }, ?_, ?_,
      lists.appendsOnly empty, ?_⟩
    · rw [FixedBuffer.create, size]
    · rw [PackedColumn.create, size]
    · have runs {call : PushCall} {rows buffer} (listing : FixedBuffer.Listing type width nullable rows buffer)
          (fits : call.Fits width rows.length) :
          call.run buffer.packed = rewrap FixedBuffer.packed (call.run buffer) :=
        FixedBuffer.run_packed (by rwa [listing.kind.2.1, listing.rows_eq])
      have images := lists.image runs FixedBuffer.clear_packed fun _ _ listing => listing.reads_packed positive
      exact images.appendsOnly ⟨_, empty, rfl⟩
  · intro width
    have empty : BytesBuffer.Listing type nullable [] { type, nullable } :=
      ⟨⟨rfl, rfl⟩, rfl, fun member => absurd member List.not_mem_nil⟩
    have lists := BytesBuffer.lists type nullable width
    refine ⟨lists.appendsOnly empty, ?_⟩
    have runs {call : PushCall} {rows buffer} (listing : BytesBuffer.Listing type nullable rows buffer)
        (fits : call.Fits width rows.length) :
        call.run buffer.fenced = rewrap BytesBuffer.fenced (call.run buffer) :=
      BytesBuffer.run_fenced (listing.rows_eq.symm ▸ fits)
    have images := lists.image runs BytesBuffer.clear_fenced fun _ _ listing => listing.reads_fenced
    exact images.appendsOnly ⟨_, empty, rfl⟩

/-- Two values of a slice that goes on behind them, a null, and after a clear a value, a null and one value
twice. -/
def mixedCalls : List BufferCall := [
  .push (.fixed [1, 0, 2, 0, 9] 2), .push (.nulls 1), .clear, .push (.bytes [3, 0]), .push (.nulls 1),
  .push (.repeated (.integer .small 7) 2)]

/-- A string twice, a null and the empty string. -/
def stringCalls : List BufferCall := [.push (.repeated (.bytes [97, 98]) 2), .push (.nulls 1), .push (.bytes [])]

theorem fresh_appendsOnly_mixed : (ColumnType.integer .small).fixedSize? = some 2 ∧
    (∃ fresh column, PackedColumn.create (.integer .small) true = .ok fresh ∧
      BufferCall.runAll mixedCalls fresh = .ok () column ∧
      Reads (FixedBuffer.scalar (.integer .small)) [some [3, 0], none, some [7, 0], some [7, 0]] column) ∧
    ∃ column, BufferCall.runAll stringCalls (FencedColumn.create (.text .varchar) true) = .ok () column ∧
      column.fences = [0, 2, 4, 4, 4] ∧
      Reads (fun stored => .ok (.bytes stored)) [some [97, 98], some [97, 98], none, some []] column := by
  obtain ⟨_, fresh, _, made, _, lists⟩ := (fresh_appendsOnly (.integer .small) true).1 2 rfl
  have strings := ((fresh_appendsOnly (.text .varchar) true).2 0).2
  cases made
  exact ⟨rfl, ⟨_, _, rfl, rfl, (lists mixedCalls _ (by decide) rfl).1⟩, _, rfl, rfl,
    (strings stringCalls _ (by decide) rfl).1⟩

/-- So many nulls that they cannot be counted behind a row erase it. Of so many values that their bytes cannot be
counted none is appended, although none of them is there. -/
theorem nulls_erase :
    (∃ fresh column after, PackedColumn.create (.integer .small) true = .ok fresh ∧
      BufferCall.runAll [.push (.fixed [7, 0] 1)] fresh = .ok () column ∧
      PushCall.run (.nulls (2 ^ 64 - 1)) column = .ok () after ∧
      Column.value column 0 = .ok (.integer .small 7) ∧ Column.value after 0 = .error (.noSuchRow 0 0)) ∧
    ∃ fresh, PackedColumn.create (.integer .small) false = .ok fresh ∧
      BufferCall.runAll [.push (.fixed [] (2 ^ 63))] fresh = .ok () fresh ∧ Sink.length fresh = 0 :=
  ⟨⟨_, _, _, rfl, rfl, rfl, rfl, rfl⟩, _, rfl, rfl, rfl⟩

end Column

end Columnar
