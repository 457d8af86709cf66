import Mathlib.Data.List.Forall2
import Columnar.ColumnMeta.Reading
import Columnar.ColumnMeta.Writing
import Columnar.Proofs.WrittenValues

namespace Columnar

open Json Text

variable {depth : Nat}

namespace Extent

variable {extent : Extent}

/-- The numbers of an extent are words of 64 and 32 bits. -/
def Fits (extent : Extent) : Prop := extent.offset < 2 ^ 64 ∧ extent.size < 2 ^ 32

def value (extent : Extent) : Value :=
  .object [("offset".toList, .number (.natural extent.offset)), ("size".toList, .number (.natural extent.size))]

theorem Fits.written (fits : extent.Fits) :
    Written (readRecord (some fields) {} Draft.finish) extent.write extent :=
  .record (.cons rfl (.bind_pure (.natural fits.1 (by decide)))
    (.cons rfl (.bind_pure (.natural fits.2 (by decide))) .nil)) rfl

theorem Fits.writtenValue (fits : extent.Fits) : Written (readValue (depth + 1)) extent.write extent.value :=
  Trees.written (.cons ⟨rfl, .naturalValue fits.1⟩ (.cons ⟨rfl, .naturalValue (fits.2.trans (by decide))⟩ .nil))

theorem Fits.ofValue_value (fits : extent.Fits) : ofValue extent.value = .ok extent := by
  have members : extent.value.record ["offset", "size"] =
      .ok [some (.number (.natural extent.offset)), some (.number (.natural extent.size))] := rfl
  simp only [ofValue, members, Value.required, Value.natural, if_pos fits.1, if_pos fits.2, bind, Except.bind]
  rfl

end Extent

namespace ZoneMap

def value (zone : ZoneMap) : Value :=
  .object [("min".toList, .string zone.min.toList), ("max".toList, .string zone.max.toList),
    ("has_null".toList, .boolean zone.hasNull), ("has_not_null".toList, .boolean zone.hasValue),
    ("pass_all".toList, .boolean zone.passAll)]

theorem writtenValue (zone : ZoneMap) : Written (readValue (depth + 1)) zone.write zone.value :=
  Trees.written (.cons ⟨rfl, .stringValue _⟩ (.cons ⟨rfl, .stringValue _⟩ (.cons ⟨rfl, .booleanValue _⟩
    (.cons ⟨rfl, .booleanValue _⟩ (.cons ⟨rfl, .booleanValue _⟩ .nil)))))

theorem ofValue_value (zone : ZoneMap) : ofValue zone.value = .ok zone := by
  have members : zone.value.record ["min", "max", "has_null", "has_not_null", "pass_all"] =
      .ok [some (.string zone.min.toList), some (.string zone.max.toList), some (.boolean zone.hasNull),
        some (.boolean zone.hasValue), some (.boolean zone.passAll)] := rfl
  simp only [ofValue, members, Value.orElse, Value.text, Value.truth, String.ofList_toList, bind, Except.bind]
  rfl

end ZoneMap

namespace IndexMeta

variable {index : IndexMeta}

/-- The places that an index tells of fit into words. -/
def Fits : IndexMeta → Prop
  | ordinal root _ => root.Fits
  | zoneMap _ pages => pages.Fits
  | bitmap words bitmaps => words.Fits ∧ bitmaps.Fits
  | bloomFilter filters => filters.Fits
  | unknown => True

theorem foldl_members (values : List (List Char × Value)) (draft : IndexDraft) :
    values.foldl (fun draft entry => { draft with members := (entry.1, entry.2) :: draft.members }) draft =
      { draft with members := values.reverse ++ draft.members } := by
  induction values generalizing draft with
  | nil => rfl
  | cons entry values ih => rw [List.foldl_cons, ih, List.reverse_cons, List.append_assoc]; rfl

/-- An index is read from its kind and its other members. -/
theorem written_of_trees {name : String} {members : List (String × List Char)} {values : List (List Char × Value)}
    (trees : Trees depth members values) (others : ∀ entry ∈ values, entry.1 ≠ "kind".toList)
    (made : ofValue (.ofName name.toList) (.object values) = .ok index) :
    Written (read (depth + 1)) (writeObject (("kind", writeString name.toList) :: members)) index := by
  refine ⟨⟨0x7B, _, encodeUtf8_writeObject _, by decide, by decide, by decide⟩, fun rest _ => ?_⟩
  have all : Members (IndexDraft.startMember depth) {} (("kind", writeString name.toList) :: members)
      ⟨some (.ofName name.toList), values.reverse⟩ := by
    have behind : Members (IndexDraft.startMember depth) _ members _ :=
      trees.all (fun (draft : IndexDraft) name value => { draft with members := (name, value) :: draft.members })
        (fun entry member draft => if_pos (others entry member)) ⟨some (.ofName name.toList), []⟩
    rw [foldl_members, List.append_nil] at behind
    exact .cons rfl (Written.map (f := fun name => ({ kind := some (.ofName name) } : IndexDraft))
      (.string name.toList)) behind
  generalize ("kind", writeString name.toList) :: members = whole at all
  have run := all.readMembers_joined true rest
  rw [joined, if_pos rfl] at run
  rw [encodeUtf8_writeObject, List.cons_append, List.append_assoc, List.singleton_append]
  simp [read, skipSpace_cons (show isSpace 0x7B = false by decide), run, readObjectEnd_close, made, bind,
    Except.bind]

/-- The members of an index besides its kind. -/
def values : IndexMeta → List (List Char × Value)
  | ordinal root single => [("root_page".toList, root.value), ("is_root_data_page".toList, .boolean single)]
  | zoneMap whole pages => [("segment_zone_map".toList, whole.value), ("page_zone_maps".toList, pages.value)]
  | bitmap words bitmaps => [("dict_column".toList, words.value), ("bitmap_column".toList, bitmaps.value)]
  | bloomFilter filters => [("bloom_filters".toList, filters.value)]
  | unknown => []

theorem Fits.ofValue_values (fits : index.Fits) : ofValue (.ofName index.kind.toList) (.object index.values) =
    .ok index := by
  unfold kind
  cases index with
  | ordinal root single =>
    have members : (Value.object (ordinal root single).values).record ["root_page", "is_root_data_page"] =
        .ok [some root.value, some (.boolean single)] := rfl
    rw [show IndexKind.ofName "ordinal".toList = .ordinal by decide]
    simp only [ofValue, members, Value.required, Value.orElse, Value.truth, Extent.Fits.ofValue_value fits, bind,
      Except.bind]
    rfl
  | zoneMap whole pages =>
    have members : (Value.object (zoneMap whole pages).values).record ["segment_zone_map", "page_zone_maps"] =
        .ok [some whole.value, some pages.value] := rfl
    rw [show IndexKind.ofName "zone_map".toList = .zoneMap by decide]
    simp only [ofValue, members, Value.required, ZoneMap.ofValue_value, Extent.Fits.ofValue_value fits, bind,
      Except.bind]
    rfl
  | bitmap words bitmaps =>
    have members : (Value.object (bitmap words bitmaps).values).record ["dict_column", "bitmap_column"] =
        .ok [some words.value, some bitmaps.value] := rfl
    rw [show IndexKind.ofName "bitmap".toList = .bitmap by decide]
    simp only [ofValue, members, Value.required, Extent.Fits.ofValue_value fits.1,
      Extent.Fits.ofValue_value fits.2, bind, Except.bind]
    rfl
  | bloomFilter filters =>
    have members : (Value.object (bloomFilter filters).values).record ["bloom_filters"] =
      .ok [some filters.value] := rfl
    rw [show IndexKind.ofName "bloom_filter".toList = .bloomFilter by decide]
    simp only [ofValue, members, Value.required, Extent.Fits.ofValue_value fits, bind, Except.bind]
    rfl
  | unknown => rfl

theorem Fits.written (fits : index.Fits) : Written (read (depth + 2)) index.write index := by
  have whole {members : List (String × List Char)} (trees : Trees (depth + 1) members index.values) :
      Written (read (depth + 2)) (writeObject (("kind", writeString index.kind.toList) :: members)) index := by
    refine written_of_trees trees ?_ fits.ofValue_values
    cases index <;> simp [values]
  cases index with
  | ordinal root single =>
    exact whole (.cons ⟨rfl, Extent.Fits.writtenValue fits⟩ (.cons ⟨rfl, .booleanValue single⟩ .nil))
  | zoneMap summary pages =>
    exact whole (.cons ⟨rfl, summary.writtenValue⟩ (.cons ⟨rfl, Extent.Fits.writtenValue fits⟩ .nil))
  | bitmap words bitmaps =>
    exact whole (.cons ⟨rfl, Extent.Fits.writtenValue fits.1⟩ (.cons ⟨rfl, Extent.Fits.writtenValue fits.2⟩ .nil))
  | bloomFilter filters => exact whole (.cons ⟨rfl, Extent.Fits.writtenValue fits⟩ .nil)
  | unknown => exact whole .nil

end IndexMeta

theorem ColumnType.ofName?_name (type : ColumnType) : ofName? (String.ofList type.name.toList) = some type := by
  rw [String.ofList_toList]
  cases type with
  | integer kind => cases kind <;> rfl
  | float kind => cases kind <;> rfl
  | text kind => cases kind <;> rfl
  | _ => rfl

theorem Encoding.ofName_name (encoding : Encoding) : ofName encoding.name.toList = encoding := by
  cases encoding <;> rfl

theorem Codec.ofName_name (codec : Codec) : ofName codec.name.toList = codec := by
  cases codec <;> rfl

/-- The numbers of a leaf are words of 32 and 64 bits, also those in its indexes. -/
structure LeafMeta.Fits (own : LeafMeta) : Prop where
  columnId : own.columnId < 2 ^ 32
  length : own.length < 2 ^ 32
  rows : own.rows < 2 ^ 64
  indexes : ∀ index ∈ own.indexes, index.Fits
  dictionary : ∀ extent ∈ own.dictionary, extent.Fits

namespace ColumnMeta

/-- All numbers in a column and in its children are words. -/
inductive Fits : ColumnMeta → Prop
  | mk {own children} : own.Fits → (∀ child ∈ children, child.Fits) → Fits ⟨own, children⟩

mutual

/-- How many levels of children there are below a column. -/
def nesting : ColumnMeta → Nat
  | ⟨_, children⟩ => nestingAll children

def nestingAll : List ColumnMeta → Nat
  | [] => 0
  | child :: rest => max (child.nesting + 1) (nestingAll rest)

end

theorem nesting_lt_of_mem {child : ColumnMeta} {children : List ColumnMeta} (member : child ∈ children) :
    child.nesting < nestingAll children := by
  induction children with
  | nil => cases member
  | cons first rest ih =>
    rw [nestingAll]
    rcases List.mem_cons.mp member with rfl | member
    · omega
    · have below := ih member
      omega

theorem writeAll_eq (children : List ColumnMeta) : writeAll children = children.map write := by
  induction children with
  | nil => rfl
  | cons child rest ih => rw [writeAll, ih, List.map_cons]

/-- What is read of a column before its children. -/
def Draft.ofLeaf (own : LeafMeta) : Draft where
  columnId := some own.columnId
  type := some own.type
  encoding := some own.encoding
  codec := some own.codec
  length := some own.length
  isNullable := some own.isNullable
  rows := some own.rows
  indexes := if own.indexes.isEmpty then none else some own.indexes
  dictionary := own.dictionary.map some

variable {own : LeafMeta} {child? : Option (Reader ColumnMeta)}

theorem fields_distinct : ((fields depth child?).map RecordField.name).Nodup := by simp [fields]

/-- A column goes on with the field at a place. -/
theorem cons_field {α : Type} {field : RecordField Draft} {state final : Draft} {text : List Char} {value : α}
    {read : Reader α} {put : α → Draft} {members : List (String × List Char)} (place : Nat)
    (there : (fields depth child?)[place]? = some field) (absent : field.present state = false)
    (reads : field.read state = read >>= fun value => pure (put value)) (written : Written read text value)
    (others : Members (startMember (fields depth child?)) (put value) members final) :
    Members (startMember (fields depth child?)) state ((field.name, text) :: members) final := by
  refine .cons (startMember_of_mem fields_distinct (List.mem_of_getElem? there) absent) ?_ others
  rw [reads]
  exact written.bind_pure

theorem members_indexes (fits : own.Fits) :
    Members (startMember (fields (depth + 3) child?)) { Draft.ofLeaf own with indexes := none, dictionary := none }
      (if own.indexes.isEmpty then [] else [("indexes", writeList (own.indexes.map IndexMeta.write))])
      { Draft.ofLeaf own with dictionary := none } := by
  cases none : own.indexes.isEmpty with
  | true =>
    rw [if_pos rfl, Draft.ofLeaf, if_pos none]
    exact .nil
  | false =>
    have items : List.Forall₂ (Written (IndexMeta.read (depth + 2))) (own.indexes.map IndexMeta.write)
        own.indexes := by
      rw [List.forall₂_map_left_iff]
      exact List.forall₂_same.mpr fun index member => (fits.indexes index member).written
    rw [if_neg Bool.false_ne_true, Draft.ofLeaf, if_neg (by simp [none])]
    refine cons_field 7 rfl rfl rfl (.list items) ?_
    exact .nil

theorem members_dictionary (fits : own.Fits) :
    Members (startMember (fields (depth + 3) child?)) { Draft.ofLeaf own with dictionary := none }
      (match own.dictionary with
        | some extent => [("dict_page", extent.write)]
        | none => []) (Draft.ofLeaf own) := by
  rw [Draft.ofLeaf]
  cases stored : own.dictionary with
  | none => exact .nil
  | some extent =>
    refine cons_field 8 rfl rfl rfl (.optional (fits.dictionary extent stored).written) ?_
    exact .nil

theorem members_own (fits : own.Fits) :
    Members (startMember (fields (depth + 3) child?)) {} own.members (Draft.ofLeaf own) := by
  have type : Written (readChoice (depth + 3 ≠ 0) fun name => ColumnType.ofName? (String.ofList name))
      (writeString own.type.name.toList) own.type := .choice _ own.type.ofName?_name
  have encoding : Written (readChoice (depth + 3 ≠ 0) fun name => some (Encoding.ofName name))
      (writeString own.encoding.name.toList) own.encoding := .choice _ (by rw [Encoding.ofName_name])
  have codec : Written (readChoice (depth + 3 ≠ 0) fun name => some (Codec.ofName name))
      (writeString own.codec.name.toList) own.codec := .choice _ (by rw [Codec.ofName_name])
  have fixed : Members (startMember (fields (depth + 3) child?)) {} [("column_id", digits own.columnId),
      ("type", writeString own.type.name.toList), ("encoding", writeString own.encoding.name.toList),
      ("compression", writeString own.codec.name.toList), ("length", digits own.length),
      ("is_nullable", writeBoolean own.isNullable), ("num_rows", digits own.rows)]
      { Draft.ofLeaf own with indexes := none, dictionary := none } := by
    refine cons_field 0 rfl rfl rfl (.natural fits.columnId (by decide)) ?_
    refine cons_field 1 rfl rfl rfl type ?_
    refine cons_field 2 rfl rfl rfl encoding ?_
    refine cons_field 3 rfl rfl rfl codec ?_
    refine cons_field 4 rfl rfl rfl (.natural fits.length (by decide)) ?_
    refine cons_field 5 rfl rfl rfl (.boolean own.isNullable) ?_
    refine cons_field 6 rfl rfl rfl (.natural fits.rows (by decide)) ?_
    exact .nil
  exact (fixed.append (members_indexes fits)).append (members_dictionary fits)

theorem finish_ofLeaf (own : LeafMeta) (children : Option (List ColumnMeta)) :
    Draft.finish { Draft.ofLeaf own with children } = some ⟨own, children.getD []⟩ := by
  have indexes : (if own.indexes.isEmpty then none else some own.indexes).getD [] = own.indexes := by
    cases own.indexes <;> rfl
  have dictionary : (own.dictionary.map some).getD none = own.dictionary := by cases own.dictionary <;> rfl
  simp only [Draft.finish, Draft.ofLeaf, Option.bind_eq_bind, Option.bind_some, Option.getD_some, indexes,
    dictionary]
  rfl

/-- A column is read back with the levels of brackets that it takes: two for itself and its list of children, and at
the bottom four with the list of indexes, an index and a zone map in it. -/
theorem Fits.written {column : ColumnMeta} (fits : column.Fits) (deep : 2 * column.nesting + 4 ≤ depth) :
    Written (read depth) column.write column := by
  induction fits generalizing depth with
  | @mk own children fitsOwn _ ih =>
    obtain ⟨depth, rfl⟩ := Nat.exists_eq_add_of_le' (show 4 ≤ depth by omega)
    rw [nesting] at deep
    have front : Members (startMember (fields (depth + 3) (some (read (depth + 2))))) {}
        own.members (Draft.ofLeaf own) :=
      members_own fitsOwn
    cases children with
    | nil =>
      rw [write]
      exact .record (front.append .nil) (finish_ofLeaf own none)
    | cons child rest =>
      rw [write]
      have items : List.Forall₂ (Written (read (depth + 2))) ((child :: rest).map write) (child :: rest) := by
        rw [List.forall₂_map_left_iff]
        refine List.forall₂_same.mpr fun next member => ih next member ?_
        have below := nesting_lt_of_mem member
        omega
      have back : Members (startMember (fields (depth + 3) (some (read (depth + 2))))) (Draft.ofLeaf own)
          [("children", writeList (child.write :: writeAll rest))]
          { Draft.ofLeaf own with children := some (child :: rest) } := by
        rw [writeAll_eq]
        refine cons_field 9 rfl rfl rfl (.list items) ?_
        exact .nil
      exact .record (front.append back) (finish_ofLeaf own (some (child :: rest)))

variable {column : ColumnMeta}

/-- What is written of a column is read back as that column, where its numbers are words and its children do not
nest too deep. -/
theorem ofJson_toJson (fits : column.Fits) (shallow : column.nesting < 60) :
    ofJson (encodeUtf8 column.toJson.toList) = .ok column := by
  have run := (fits.written (show 2 * column.nesting + 4 ≤ levels by rw [levels]; omega)).reads [] endsValue_nil
  rw [List.append_nil] at run
  rw [toJson, String.toList_ofList, ofJson, readDocument, run]
  rfl

/-- Texts with the greatest numbers, bounds that have to be escaped, and an index of each kind. -/
def boundedTexts : LeafMeta where
  columnId := 2 ^ 32 - 1
  type := .text .char
  encoding := .unknown
  codec := .lz4Frame
  length := 2 ^ 32 - 1
  isNullable := true
  rows := 2 ^ 64 - 1
  indexes :=
    [.ordinal ⟨2 ^ 64 - 1, 2 ^ 32 - 1⟩ true, .unknown,
      .zoneMap { min := "\"\\\n\x1f", max := "é€😀", passAll := true } ⟨0, 1⟩,
      .bitmap ⟨1, 2⟩ ⟨3, 4⟩, .bloomFilter ⟨5, 6⟩]
  dictionary := some ⟨7, 8⟩

def listedTexts : ColumnMeta := ⟨{ columnId := 0, type := .array, rows := 0 }, [⟨boundedTexts, []⟩,
  ⟨{ columnId := 1, type := .integer .int, rows := 0 }, []⟩]⟩

theorem ofJson_toJson_listedTexts : listedTexts.Fits ∧ listedTexts.nesting < 60 ∧
    ofJson (encodeUtf8 listedTexts.toJson.toList) = .ok listedTexts := by
  have texts : boundedTexts.Fits := by
    refine ⟨by decide, by decide, by decide, ?_, ?_⟩
    · rintro index member
      simp only [boundedTexts, List.mem_cons, List.not_mem_nil, or_false] at member
      rcases member with rfl | rfl | rfl | rfl | rfl <;> simp [IndexMeta.Fits, Extent.Fits]
    · rintro extent ⟨⟩
      exact ⟨by decide, by decide⟩
  have plain (columnId : Nat) (type : ColumnType) (small : columnId < 2 ^ 32) :
      LeafMeta.Fits { columnId, type, rows := 0 } :=
    ⟨small, Nat.two_pow_pos 32, Nat.two_pow_pos 64, nofun, nofun⟩
  have fits : listedTexts.Fits := by
    refine .mk (plain 0 .array (by decide)) fun child member => ?_
    simp only [List.mem_cons, List.not_mem_nil, or_false] at member
    rcases member with rfl | rfl
    · exact .mk texts nofun
    · exact .mk (plain 1 (.integer .int) (by decide)) nofun
  have shallow : listedTexts.nesting < 60 := by decide
  exact ⟨fits, shallow, ofJson_toJson fits shallow⟩

end ColumnMeta

end Columnar
