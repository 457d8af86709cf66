import Mathlib.Data.List.Nodup
import Columnar.Proofs.ColumnReads
import Columnar.Proofs.LeafScan

namespace Columnar

/-- A value of the type takes one byte, where all its values have the same width. -/
def ColumnType.FlagSized (type : ColumnType) : Prop := ∀ width, type.fixedSize? = some width → width = 1

namespace ColumnReader

variable {options : ReaderOptions} {file : String} {column : ColumnMeta} {rows : Nat} {key : LeafKey}

/-- The null flags of all arrays are stored in some types. -/
def FlagsIn (allowed : ColumnType → Prop) : ColumnReader → Prop
  | leaf _ => True
  | array items _ flags => items.FlagsIn allowed ∧ ∀ reader ∈ flags, allowed reader.column.type

theorem FlagsIn.imp {allowed other : ColumnType → Prop} {reader : ColumnReader} (flags : reader.FlagsIn allowed)
    (weaker : ∀ type, allowed type → other type) : reader.FlagsIn other := by
  induction reader with
  | leaf reader => exact trivial
  | array items lengths marks ih => exact ⟨ih flags.1, fun reader held => weaker _ (flags.2 reader held)⟩

theorem create_leaf {reader : LeafReader} (created : create options file column rows key = .ok (leaf reader)) :
    column.own.type ≠ .array ∧ LeafReader.create options column.own rows file key = .ok reader := by
  obtain ⟨own, children⟩ := column
  unfold create at created
  by_cases flat : own.type = .array
  · simp only [flat, ne_eq, not_true_eq_false, if_false] at created
    split at created
    · obtain ⟨_, _, created⟩ := bind_eq_ok created
      obtain ⟨_, _, created⟩ := bind_eq_ok created
      cases created
    · obtain ⟨_, _, created⟩ := bind_eq_ok created
      obtain ⟨_, _, created⟩ := bind_eq_ok created
      obtain ⟨_, _, created⟩ := bind_eq_ok created
      cases created
    · cases created
  · simp only [flat, ne_eq, not_false_eq_true, if_true] at created
    obtain ⟨other, found, same⟩ := map_eq_ok created
    cases same
    exact ⟨flat, found⟩

theorem createLeaf_spec {leaf : LeafMeta} {role : String} {reader : LeafReader}
    (created : createLeaf options leaf file role key = .ok reader) :
    LeafReader.create options leaf leaf.rows file key = .ok reader := by
  unfold createLeaf at created
  split at created
  · cases created
  · exact created

/-- The children of an array that is checked are checked too. -/
theorem create_array {items : ColumnReader} {lengths : LeafReader} {flags : Option LeafReader}
    (created : create options file column rows key = .ok (array items lengths flags)) :
    column.own.type = .array ∧ ∃ item measure rest, column.children = item :: measure :: rest ∧
      create options file item item.own.rows (key ++ [.items]) = .ok items ∧
      LeafReader.create options measure.own measure.own.rows file (key ++ [.lengths]) = .ok lengths ∧
      (rest = [] ∧ flags = none ∨ ∃ marks reader, rest = [marks] ∧ flags = some reader ∧
        LeafReader.create options marks.own marks.own.rows file (key ++ [.flags]) = .ok reader) := by
  obtain ⟨own, children⟩ := column
  unfold create at created
  by_cases flat : own.type = .array
  · simp only [flat, ne_eq, not_true_eq_false, if_false] at created
    split at created
    · obtain ⟨_, inner, created⟩ := bind_eq_ok created
      obtain ⟨_, measured, created⟩ := bind_eq_ok created
      cases created
      exact ⟨flat, _, _, _, rfl, inner, createLeaf_spec measured, .inl ⟨rfl, rfl⟩⟩
    · obtain ⟨_, inner, created⟩ := bind_eq_ok created
      obtain ⟨_, measured, created⟩ := bind_eq_ok created
      obtain ⟨_, marked, created⟩ := bind_eq_ok created
      cases created
      exact ⟨flat, _, _, _, rfl, inner, createLeaf_spec measured, .inr ⟨_, _, rfl, rfl, createLeaf_spec marked⟩⟩
    · cases created
  · simp only [flat, ne_eq, not_false_eq_true, if_true] at created
    obtain ⟨_, _, same⟩ := map_eq_ok created
    cases same

end ColumnReader

theorem OffsetBuffer.create_eq_ok {type : ColumnType} {buffer : OffsetBuffer} (created : create type = .ok buffer) :
    buffer = { type } ∧ type.fixedSize? = some (widthOf type) := by
  unfold create at created
  split at created
  · rename_i known
    cases created
    refine ⟨rfl, ?_⟩
    rcases known with rfl | rfl | rfl <;> rfl
  · cases created

/-- A batch made for an array column is one for its items, behind the places before all rows. -/
theorem Batch.ofColumn_array {column item measure : ColumnMeta} {rest : List ColumnMeta}
    (type : column.own.type = .array) (children : column.children = item :: measure :: rest) {fresh : Batch}
    (made : ofColumn column = .ok fresh) : ∃ inner flags, ofColumn item = .ok inner ∧
      OffsetBuffer.create measure.own.type = .ok { type := measure.own.type } ∧
      fresh = .array { offsets := { type := measure.own.type }, flags } inner ∧
      (rest = [] ∧ flags = none ∨
        ∃ marks, rest = [marks] ∧ flags = some { type := .boolean, width := 1, nullable := false }) := by
  obtain ⟨own, others⟩ := column
  obtain rfl : others = item :: measure :: rest := children
  unfold ofColumn at made
  simp only [show own.type = .array from type] at made
  obtain ⟨inner, known, made⟩ := bind_eq_ok made
  split at made
  · obtain ⟨_, none, made⟩ := bind_eq_ok made
    obtain ⟨offsets, typed, made⟩ := bind_eq_ok made
    cases none
    cases made
    obtain ⟨rfl, _⟩ := OffsetBuffer.create_eq_ok typed
    exact ⟨inner, _, known, typed, rfl, .inl ⟨rfl, rfl⟩⟩
  · obtain ⟨_, some, made⟩ := bind_eq_ok made
    obtain ⟨offsets, typed, made⟩ := bind_eq_ok made
    cases some
    cases made
    obtain ⟨rfl, _⟩ := OffsetBuffer.create_eq_ok typed
    exact ⟨inner, _, known, typed, rfl, .inr ⟨_, rfl, rfl⟩⟩
  · cases made

/-- Lengths are stored in the width in which they are taken. -/
theorem suits_lengths {type : ColumnType} {encoding : Encoding} {coding : Coding}
    (found : Coding.resolve type encoding = .ok coding)
    (size : type.fixedSize? = some (OffsetBuffer.widthOf type)) :
    LeafCursor.Suits (OffsetBuffer.intake type) coding := by
  have fits := Coding.resolve_spec found
  rintro values kind
  cases coding with
  | packed width =>
    cases values <;> cases kind
    exact size.symm.trans fits
  | bits => exact absurd (Option.some.inj (size.symm.trans fits)) (OffsetBuffer.widthOf_ne_one type)
  | strings => cases size.symm.trans fits.1
  | words => cases size.symm.trans fits.1

/-- Flags of a byte each, and flags that are byte strings, are taken as they are stored. -/
theorem suits_flags {type : ColumnType} {encoding : Encoding} {coding : Coding}
    (found : Coding.resolve type encoding = .ok coding) (sized : type.FlagSized) :
    LeafCursor.Suits (FixedBuffer.intake .boolean 1 false) coding := by
  have fits := Coding.resolve_spec found
  rintro values kind
  cases coding with
  | packed width =>
    cases values <;> cases kind
    exact congrArg some (sized _ fits).symm
  | bits =>
    cases values <;> cases kind
    exact rfl
  | strings =>
    cases values <;> cases kind
    exact rfl
  | words => cases values <;> cases kind <;> exact rfl

/-- The leaves of a column that is checked hold what a batch made for it takes, and the batch has no rows yet. -/
theorem ColumnReader.create_suited {options : ReaderOptions} {file : String} {column : ColumnMeta} {rows : Nat}
    {key : LeafKey} {reader : ColumnReader} (created : create options file column rows key = .ok reader)
    {fresh : Batch} (made : Batch.ofColumn column = .ok fresh) (flags : reader.FlagsIn ColumnType.FlagSized) :
    reader.Suited ∧ reader.Takes fresh ∧ fresh.rowValues = [] := by
  induction reader generalizing column rows key fresh with
  | leaf reader =>
    obtain ⟨flat, created⟩ := create_leaf created
    obtain ⟨same, _, _, resolved⟩ := create_spec created
    obtain ⟨_, suits⟩ := suits_of_resolve resolved column.own.isNullable
    obtain ⟨empty, fits, _⟩ := Batch.ofColumn_fits flat made
    rw [← same] at suits fits
    refine ⟨suits, fits, ?_⟩
    rw [Batch.rowValues_of_fits fits, empty]
    rfl
  | array items lengths flags ih =>
    obtain ⟨type, item, measure, rest, children, inside, measured, marked⟩ := create_array created
    obtain ⟨inner, buffer, madeItems, typed, rfl, held⟩ := Batch.ofColumn_array type children made
    obtain ⟨sizedItems, sized⟩ := flags
    obtain ⟨suited, takes, empty⟩ := ih inside madeItems sizedItems
    obtain ⟨same, _, _, resolved⟩ := create_spec measured
    have lengthsSuit := suits_lengths resolved (OffsetBuffer.create_eq_ok typed).2
    rw [← same] at typed lengthsSuit
    have elements : inner.rowValues.length = total [] := by
      rw [empty]
      rfl
    have typeSame : measure.own.type = lengths.column.type := by rw [same]
    rcases marked with ⟨rfl, rfl⟩ | ⟨marks, reader, rfl, rfl, marked⟩
    · obtain ⟨_, rfl⟩ | ⟨_, several, _⟩ := held
      · have counts : ArrayRows.Counts ⟨{ type := measure.own.type }, none, []⟩ lengths.column.type false [] [] :=
          ⟨typeSame, rfl, rfl, rfl⟩
        refine ⟨⟨suited, typed, lengthsSuit, ?_⟩, ⟨takes, [], [], counts, rfl, elements⟩, rfl⟩
        rintro other same
        cases same
      · cases several
    · obtain ⟨none, _⟩ | ⟨_, _, rfl⟩ := held
      · cases none
      · obtain ⟨sameFlags, _, _, resolvedFlags⟩ := create_spec marked
        have sized := sized reader rfl
        rw [sameFlags] at sized
        have counts : ArrayRows.Counts
            ⟨{ type := measure.own.type }, some { type := .boolean, width := 1, nullable := false }, []⟩
            lengths.column.type true [] [] := ⟨typeSame, rfl, rfl, ⟨rfl, rfl, rfl⟩, rfl⟩
        refine ⟨⟨suited, typed, lengthsSuit, ?_⟩, ⟨takes, [], [], counts, rfl, elements⟩, rfl⟩
        rintro other same
        cases same
        exact suits_flags resolvedFlags sized

/-- No two leaves of a column have the same key. -/
theorem ColumnReader.create_keys {options : ReaderOptions} {file : String} {column : ColumnMeta} {rows : Nat}
    {key : LeafKey} {reader : ColumnReader} (created : create options file column rows key = .ok reader) :
    (reader.leaves.map (·.access.key)).Nodup ∧ ∀ leaf ∈ reader.leaves, key <+: leaf.access.key := by
  induction reader generalizing column rows key with
  | leaf reader =>
    obtain ⟨_, created⟩ := create_leaf created
    obtain ⟨_, _, same, _⟩ := create_spec created
    refine ⟨by simp [leaves], fun leaf member => ⟨[], ?_⟩⟩
    rw [List.append_nil, List.mem_singleton.mp member, same]
  | array items lengths flags ih =>
    obtain ⟨_, item, measure, rest, _, inside, measured, marked⟩ := create_array created
    obtain ⟨distinct, below⟩ := ih inside
    obtain ⟨_, _, measuredKey, _⟩ := create_spec measured
    have markedKey : ∀ reader ∈ flags, reader.access.key = key ++ [.flags] := by
      rintro reader held
      rcases marked with ⟨_, rfl⟩ | ⟨marks, other, _, rfl, marked⟩
      · cases held
      · cases held
        exact (create_spec marked).2.2.1
    have apart (child : Child) (other : child ≠ .items) : ∀ leaf ∈ items.leaves,
        leaf.access.key ≠ key ++ [child] := by
      intro leaf member same
      have front := below leaf member
      rw [same, List.prefix_append_right_inj, List.cons_prefix_cons] at front
      exact other front.1.symm
    refine ⟨?_, ?_⟩
    · rw [leaves, List.map_append, List.map_cons, List.nodup_append]
      refine ⟨distinct, ?_, ?_⟩
      · cases flags with
        | none => simp
        | some reader =>
          rw [measuredKey]
          simp [markedKey reader rfl]
      · rintro _ member _ other rfl
        obtain ⟨leaf, member, same⟩ := List.mem_map.mp member
        rcases List.mem_cons.mp other with found | other
        · exact apart .lengths (by decide) leaf member (same.trans (found.trans measuredKey))
        · obtain ⟨reader, held, found⟩ := List.mem_map.mp other
          have key := markedKey reader (Option.mem_toList.mp held)
          exact apart .flags (by decide) leaf member (same.trans (found.symm.trans key))
    · intro leaf member
      rcases List.mem_append.mp member with inner | member
      · exact (List.prefix_append key _).trans (below leaf inner)
      · rcases List.mem_cons.mp member with rfl | member
        · rw [measuredKey]
          exact List.prefix_append ..
        · rw [markedKey leaf (Option.mem_toList.mp member)]
          exact List.prefix_append ..

/-- A session that has loaded nothing serves all leaves of a column. -/
theorem ColumnReader.serves_of_create {options : ReaderOptions} {file : String} {column : ColumnMeta} {rows : Nat}
    {key : LeafKey} {reader : ColumnReader} (created : create options file column rows key = .ok reader)
    (store : PageStore) (sourced : Session.Sourced reader.leaves store) (log : List LogLine) :
    Session.Serves store.image reader.leaves { store, log } :=
  Session.serves_of_fresh sourced log fun _ member _ other same =>
    List.inj_on_of_nodup_map (create_keys created).1 member other same

end Columnar
