import Mathlib.Data.List.Nodup
import Columnar.Proofs.CreatedColumns

namespace Columnar

/-- Values of a type can be laid out in a way that is not left to the type. -/
def ColumnType.Supports (type : ColumnType) : Encoding → Prop
  | .plain => True
  | .rle => type = .boolean
  | .dict => type.isText = true
  | .default | .unknown => False

/-- The metadata of a leaf with so many rows contradicts nothing: its values can be read, its indexes are known and
of different kinds, and its rows can be found. -/
structure LeafMeta.WellFormed (column : LeafMeta) (rows : Nat) : Prop where
  hasCodec : column.type.hasCodec = true
  supports : column.type.Supports (column.encoding.forType column.type)
  codec_ne : column.codec ≠ .unknown
  index_ne : .unknown ∉ column.indexes
  kinds_nodup : (column.indexes.map IndexMeta.kind).Nodup
  listed : rows = 0 ∨ ∃ root single, .ordinal root single ∈ column.indexes

theorem LeafMeta.WellFormed.type_ne {column : LeafMeta} {rows : Nat} (sound : column.WellFormed rows) :
    column.type ≠ .array := by
  intro nested
  have codec := sound.hasCodec
  rw [nested] at codec
  cases codec

/-- The metadata of a column with so many rows contradicts nothing. An array has as many children as its nullability
asks for, and all but its items are leaves. The rows of the children are their own. -/
inductive ColumnMeta.WellFormed : ColumnMeta → Nat → Prop
  | leaf {own : LeafMeta} {children : List ColumnMeta} {rows : Nat} (flat : own.type ≠ .array)
      (sound : own.WellFormed rows) : WellFormed ⟨own, children⟩ rows
  | array {own : LeafMeta} {item lengths : ColumnMeta} {rows : Nat} (nested : own.type = .array)
      (strict : own.isNullable = false) (items : item.WellFormed item.own.rows)
      (flatLengths : lengths.own.type ≠ .array) (soundLengths : lengths.own.WellFormed lengths.own.rows) :
      WellFormed ⟨own, [item, lengths]⟩ rows
  | nullable {own : LeafMeta} {item lengths flags : ColumnMeta} {rows : Nat} (nested : own.type = .array)
      (nullable : own.isNullable = true) (items : item.WellFormed item.own.rows)
      (flatLengths : lengths.own.type ≠ .array) (soundLengths : lengths.own.WellFormed lengths.own.rows)
      (flatFlags : flags.own.type ≠ .array) (soundFlags : flags.own.WellFormed flags.own.rows) :
      WellFormed ⟨own, [item, lengths, flags]⟩ rows

theorem map_error_ok_iff {α : Type} (f : Error → Error) (result : Except Error α) :
    (∃ value, result.mapError f = .ok value) ↔ ∃ value, result = .ok value := by
  cases result <;> simp [Except.mapError]

theorem Coding.resolve_ok_iff (type : ColumnType) (encoding : Encoding) :
    (∃ coding, resolve type encoding = .ok coding) ↔
      type.hasCodec = true ∧ type.Supports (encoding.forType type) := by
  unfold resolve
  cases type.hasCodec with
  | false => simp
  | true =>
    cases encoding.forType type with
    | rle =>
      by_cases boolean : type = .boolean <;> simp [boolean, ColumnType.Supports]
    | dict => cases text : type.isText <;> simp [ColumnType.Supports, text]
    | _ => simp [ColumnType.Supports]

namespace LeafIndexes

variable {columnId : Nat} {file : String} {found : LeafIndexes} {index : IndexMeta} {indexes : List IndexMeta}

/-- An index of the kind cannot be added: there is one, or the kind is not known. -/
def refuses (found : LeafIndexes) : IndexMeta → Bool
  | .ordinal .. => found.ordinal.isSome
  | .zoneMap .. => found.zones.isSome
  | .bitmap .. => found.bitmap.isSome
  | .bloomFilter _ => found.filters.isSome
  | .unknown => true

theorem add_ok_iff (columnId : Nat) (file : String) (found : LeafIndexes) (index : IndexMeta) :
    (∃ after, found.add columnId file index = .ok after) ↔ found.refuses index = false := by
  cases index with
  | unknown => simp [add, refuses]
  | _ =>
    simp only [add, refuses]
    split <;> simp_all

/-- An index that has been added stands in the way of others of its kind. -/
theorem refuses_add {after : LeafIndexes} (added : found.add columnId file index = .ok after) (other : IndexMeta) :
    after.refuses other = (found.refuses other || decide (index.kind = other.kind)) := by
  cases index with
  | unknown => cases added
  | _ =>
    simp only [add] at added
    split at added
    · cases added
    · cases added
      cases other <;> simp [refuses, IndexMeta.kind]

/-- Indexes can be added one after the other where none is of a kind that is there, nor of a kind of another one. -/
theorem addAll_ok_iff (columnId : Nat) (file : String) (found : LeafIndexes) (indexes : List IndexMeta) :
    (∃ after, indexes.foldlM (add columnId file) found = .ok after) ↔
      (∀ index ∈ indexes, found.refuses index = false) ∧ (indexes.map IndexMeta.kind).Nodup := by
  induction indexes generalizing found with
  | nil => simp [pure, Except.pure]
  | cons first rest ih =>
    rw [List.foldlM_cons, List.forall_mem_cons, List.map_cons, List.nodup_cons, ← add_ok_iff columnId file]
    cases added : found.add columnId file first with
    | error error => simp [bind, Except.bind]
    | ok next =>
      have apart : first.kind ∉ rest.map IndexMeta.kind ↔ ∀ index ∈ rest, ¬first.kind = index.kind := by
        simp only [List.mem_map, not_exists, not_and, eq_comm]
      have onward := ih next
      simp only [refuses_add added, Bool.or_eq_false_iff, decide_eq_false_iff_not, forall_and] at onward
      refine onward.trans ?_
      rw [apart]
      simp [and_assoc]

theorem refuses_addAll {after : LeafIndexes} (added : indexes.foldlM (add columnId file) found = .ok after)
    (other : IndexMeta) :
    after.refuses other = true ↔ found.refuses other = true ∨ ∃ index ∈ indexes, index.kind = other.kind := by
  induction indexes generalizing found with
  | nil =>
    cases added
    simp
  | cons first rest ih =>
    rw [List.foldlM_cons] at added
    obtain ⟨next, one, added⟩ := bind_eq_ok added
    rw [ih added, refuses_add one]
    simp [or_assoc]

theorem ofMeta_ok_iff (column : LeafMeta) (file : String) : (∃ found, ofMeta column file = .ok found) ↔
    .unknown ∉ column.indexes ∧ (column.indexes.map IndexMeta.kind).Nodup := by
  have known : (∀ index ∈ column.indexes, refuses {} index = false) ↔ .unknown ∉ column.indexes := by
    constructor
    · intro taken member
      cases taken _ member
    · intro absent index member
      cases index with
      | unknown => exact absurd member absent
      | _ => rfl
  rw [← known]
  exact addAll_ok_iff column.columnId file {} column.indexes

/-- A list of data pages is found where one is named. -/
theorem ofMeta_ordinal {column : LeafMeta} {found : LeafIndexes} (made : ofMeta column file = .ok found) :
    found.ordinal.isSome = true ↔ ∃ root single, .ordinal root single ∈ column.indexes := by
  have named := refuses_addAll made (.ordinal ⟨0, 0⟩ false)
  refine named.trans ?_
  constructor
  · rintro (none | ⟨index, member, same⟩)
    · cases none
    · cases index with
      | ordinal root single => exact ⟨root, single, member⟩
      | _ => simp [IndexMeta.kind] at same
  · rintro ⟨root, single, member⟩
    exact .inr ⟨_, member, rfl⟩

end LeafIndexes

/-- A leaf can be read exactly where its metadata is well-formed. -/
theorem LeafReader.create_ok_iff (options : ReaderOptions) (column : LeafMeta) (rows : Nat) (file : String)
    (key : LeafKey) : (∃ reader, create options column rows file key = .ok reader) ↔ column.WellFormed rows := by
  have resolved := (map_error_ok_iff (Error.note s!"could not open column {column.columnId} of {file}") _).trans
    (Coding.resolve_ok_iff column.type column.encoding)
  have indexed := LeafIndexes.ofMeta_ok_iff column file
  constructor
  · rintro ⟨reader, created⟩
    unfold create at created
    obtain ⟨coding, fits, created⟩ := bind_eq_ok created
    dsimp only at created
    split at created
    · cases created
    · rename_i codec
      obtain ⟨indexes, made, created⟩ := bind_eq_ok created
      split at created
      · cases created
      · rename_i listed
        obtain ⟨hasCodec, supports⟩ := resolved.mp ⟨coding, fits⟩
        obtain ⟨known, distinct⟩ := indexed.mp ⟨indexes, made⟩
        refine ⟨hasCodec, supports, codec, known, distinct, ?_⟩
        rw [← LeafIndexes.ofMeta_ordinal made]
        by_contra unlisted
        obtain ⟨some, none⟩ := not_or.mp unlisted
        exact listed ⟨by simpa using none, Nat.pos_of_ne_zero some⟩
  · rintro ⟨hasCodec, supports, codec, known, distinct, listed⟩
    obtain ⟨coding, fits⟩ := resolved.mpr ⟨hasCodec, supports⟩
    obtain ⟨indexes, made⟩ := indexed.mpr ⟨known, distinct⟩
    rw [← LeafIndexes.ofMeta_ordinal made] at listed
    unfold create
    rw [fits]
    have complete : ¬(indexes.ordinal.isNone = true ∧ 0 < rows) := by
      rintro ⟨none, some⟩
      rcases listed with rfl | there
      · exact Nat.lt_irrefl 0 some
      · rw [Option.isNone_iff_eq_none.mp none] at there
        cases there
    simp only [bind, Except.bind, codec, made, complete, if_false]
    exact ⟨_, rfl⟩

namespace ColumnReader

variable {options : ReaderOptions} {file : String} {column : ColumnMeta} {rows : Nat} {key : LeafKey}

theorem createLeaf_ok_iff (options : ReaderOptions) (own : LeafMeta) (file role : String) (key : LeafKey) :
    (∃ reader, createLeaf options own file role key = .ok reader) ↔ own.type ≠ .array ∧
      own.WellFormed own.rows := by
  rw [← LeafReader.create_ok_iff options own own.rows file key, createLeaf]
  split
  · rename_i nested
    simp [nested]
  · rename_i flat
    simp [flat]

/-- What can be read is nullable where the metadata says so. -/
theorem isNullable_of_create {reader : ColumnReader} (created : create options file column rows key = .ok reader) :
    reader.isNullable = column.own.isNullable := by
  cases reader with
  | leaf reader =>
    obtain ⟨same, _⟩ := create_spec (create_leaf created).2
    exact congrArg LeafMeta.isNullable same
  | array items lengths flags =>
    have nested := (create_array created).1
    obtain ⟨own, children⟩ := column
    unfold create at created
    simp only [show own.type = .array from nested, ne_eq, not_true_eq_false, if_false] at created
    split at created
    · rename_i strict
      obtain ⟨_, _, created⟩ := bind_eq_ok created
      obtain ⟨_, _, created⟩ := bind_eq_ok created
      cases created
      exact strict.symm
    · rename_i nullable
      obtain ⟨_, _, created⟩ := bind_eq_ok created
      obtain ⟨_, _, created⟩ := bind_eq_ok created
      obtain ⟨_, _, created⟩ := bind_eq_ok created
      cases created
      exact nullable.symm
    · cases created

theorem wellFormed_of_create {reader : ColumnReader} (created : create options file column rows key = .ok reader) :
    column.WellFormed rows := by
  have nullable := isNullable_of_create created
  have child {own : LeafMeta} {key : LeafKey} {reader : LeafReader}
      (made : LeafReader.create options own own.rows file key = .ok reader) : own.type ≠ .array ∧
      own.WellFormed own.rows := by
    have sound := (LeafReader.create_ok_iff _ _ _ _ _).mp ⟨reader, made⟩
    exact ⟨sound.type_ne, sound⟩
  induction reader generalizing column rows key with
  | leaf reader =>
    obtain ⟨flat, created⟩ := create_leaf created
    obtain ⟨own, children⟩ := column
    exact .leaf flat ((LeafReader.create_ok_iff _ _ _ _ _).mp ⟨reader, created⟩)
  | array items lengths flags ih =>
    obtain ⟨nested, item, measure, rest, children, inside, measured, marked⟩ := create_array created
    have sound := ih inside (isNullable_of_create inside)
    obtain ⟨flatLengths, soundLengths⟩ := child measured
    obtain ⟨own, others⟩ := column
    obtain rfl : others = item :: measure :: rest := children
    rcases marked with ⟨rfl, rfl⟩ | ⟨marks, reader, rfl, rfl, marked⟩
    · exact .array nested nullable.symm sound flatLengths soundLengths
    · obtain ⟨flatFlags, soundFlags⟩ := child marked
      exact .nullable nested nullable.symm sound flatLengths soundLengths flatFlags soundFlags

theorem create_of_wellFormed (sound : column.WellFormed rows) (key : LeafKey) :
    ∃ reader, create options file column rows key = .ok reader := by
  induction sound generalizing key with
  | @leaf own children rows flat sound =>
    obtain ⟨reader, created⟩ := (LeafReader.create_ok_iff options own rows file key).mpr sound
    unfold create
    simp only [flat, ne_eq, not_false_eq_true, if_true, created]
    exact ⟨_, rfl⟩
  | @array own item lengths rows nested strict items flatLengths soundLengths ih =>
    obtain ⟨inner, read⟩ := ih (key ++ [.items])
    obtain ⟨measure, measured⟩ :=
      (createLeaf_ok_iff options lengths.own file "lengths" (key ++ [.lengths])).mpr ⟨flatLengths, soundLengths⟩
    unfold create
    simp only [nested, strict, ne_eq, not_true_eq_false, if_false, read, measured, bind, Except.bind]
    exact ⟨_, rfl⟩
  | @nullable own item lengths flags rows nested nullable items flatLengths soundLengths flatFlags soundFlags ih =>
    obtain ⟨inner, read⟩ := ih (key ++ [.items])
    obtain ⟨measure, measured⟩ :=
      (createLeaf_ok_iff options lengths.own file "lengths" (key ++ [.lengths])).mpr ⟨flatLengths, soundLengths⟩
    obtain ⟨mark, marked⟩ :=
      (createLeaf_ok_iff options flags.own file "null flags" (key ++ [.flags])).mpr ⟨flatFlags, soundFlags⟩
    unfold create
    simp only [nested, nullable, ne_eq, not_true_eq_false, if_false, read, measured, marked, bind, Except.bind]
    exact ⟨_, rfl⟩

/-- A column can be read exactly where its metadata is well-formed, whatever the options, the file and the place of
the column in others. It has as many rows as is said, or as it has lengths where it is an array. -/
theorem create_ok_iff_wellFormed (options : ReaderOptions) (file : String) (column : ColumnMeta) (rows : Nat)
    (key : LeafKey) : ((∃ reader, create options file column rows key = .ok reader) ↔ column.WellFormed rows) ∧
      ∀ reader, create options file column rows key = .ok reader →
        (column.own.type ≠ .array → reader.rows = rows) ∧
        (column.own.type = .array → ∃ item lengths rest, column.children = item :: lengths :: rest ∧
          reader.rows = lengths.own.rows) := by
  refine ⟨⟨fun ⟨reader, created⟩ => wellFormed_of_create created, fun sound => create_of_wellFormed sound key⟩, ?_⟩
  intro reader created
  cases reader with
  | leaf reader =>
    obtain ⟨flat, made⟩ := create_leaf created
    exact ⟨fun _ => (create_spec made).2.1, fun nested => absurd nested flat⟩
  | array items lengths flags =>
    obtain ⟨nested, item, measure, rest, children, _, measured, _⟩ := create_array created
    exact ⟨fun flat => absurd nested flat, fun _ => ⟨item, measure, rest, children, (create_spec measured).2.1⟩⟩

end ColumnReader

end Columnar
