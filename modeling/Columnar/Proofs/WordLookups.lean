import Mathlib.Tactic.Common
import Columnar.BitmapIndex
import Columnar.Proofs.Action
import Columnar.Proofs.RowBitmaps
import Columnar.Proofs.RowSets
import Columnar.Proofs.ScalarOrder

namespace Columnar

namespace WordCursor

theorem seek_eq (word : Bytes) (cursor : WordCursor) : WordCursor.seek word cursor =
    match cursor.index.seek word with
    | .ok (ordinal, exact) => .ok exact { cursor with ordinal }
    | .error error => .error error cursor := by
  simp only [WordCursor.seek, Action.bind_apply, Action.get_apply]
  cases cursor.index.seek word <;> rfl

end WordCursor

namespace BitmapIndex

variable {words bitmaps : List Bytes} {index : BitmapIndex} {word probe : Bytes} {place : Nat}

theorem sorted_iff : sorted words = true ↔ words.Pairwise (· < ·) := by
  fun_induction sorted words with
  | case1 a b rest ih =>
    rw [Bool.and_eq_true, decide_eq_true_eq, Scalar.compareBytes_eq_lt, ih, List.pairwise_cons (a := a)]
    refine and_congr_left fun ascending => ⟨fun first => List.forall_mem_cons.mpr ⟨first, fun later there => ?_⟩,
      fun ahead => ahead b List.mem_cons_self⟩
    exact List.lt_trans first (List.rel_of_pairwise_cons ascending there)
  | case2 words single =>
    cases words with
    | nil => simp
    | cons first rest =>
      cases rest with
      | nil => simp
      | cons second others => exact absurd rfl (single first second others)

/-- The bitmaps are those of the words, and one more where there are nulls. -/
theorem create_eq_ok_iff : create words bitmaps = .ok index ↔
    index = ⟨words, bitmaps⟩ ∧ words.Pairwise (· < ·) ∧ bitmaps.length = words.length + index.hasNull.toNat := by
  have nulls : hasNull ⟨words, bitmaps⟩ = decide (words.length < bitmaps.length) := rfl
  constructor
  · intro created
    rw [create] at created
    split at created
    · rename_i counts
      split at created
      · rename_i ascending
        cases created
        refine ⟨rfl, sorted_iff.mp ascending, ?_⟩
        rw [nulls]
        rcases counts with even | more
        · simp [even]
        · simp [more]
      · cases created
    · cases created
  · rintro ⟨rfl, ascending, counts⟩
    have flag := Bool.toNat_le (hasNull ⟨words, bitmaps⟩)
    rw [create, if_pos (by omega), if_pos (sorted_iff.mpr ascending)]

/-- What a search for a word comes to: the least word from that one on, or a failure that leaves the place as it
was, where all words are less. -/
inductive Sought (index : BitmapIndex) (probe : Bytes) (place : Nat) : EStateM.Result Error WordCursor Bool → Prop
  | found {landed : Nat} {word : Bytes} (there : index.words[landed]? = some word) (reaches : probe ≤ word)
      (least : ∀ other ∈ index.words, probe ≤ other → word ≤ other) :
      Sought index probe place (.ok (decide (word = probe)) ⟨index, landed⟩)
  | behind {error : Error} (all : ∀ word ∈ index.words, word < probe) (notFound : error.isNotFound = true) :
      Sought index probe place (.error error ⟨index, place⟩)

/-- A row is in the bitmap of a word. -/
def Holds (index : BitmapIndex) (word : Bytes) (row : Nat) : Prop :=
  ∃ place rows, index.words[place]? = some word ∧ index.rowsAt place = .ok rows ∧ row ∈ rows

/-- The bitmaps of the words can be decoded, whatever that of the nulls is like. -/
def Decodes (index : BitmapIndex) : Prop := ∀ place < index.words.length, ∃ rows, index.rowsAt place = .ok rows

theorem rowsAt_eq (inside : place < index.words.length) : index.rowsAt place = index.bitmap place := by
  rw [rowsAt, if_neg (Nat.not_le_of_lt inside)]

theorem unite_cons {part : RowBitmap} (decoded : index.bitmap place = .ok part) (rows : RowBitmap)
    (rest : List Nat) : index.unite rows (place :: rest) = index.unite (rows.union part) rest := by
  rw [unite, decoded]
  rfl

/-- Where all bitmaps of a list of places can be decoded, they are put together. -/
theorem unite_spec {places : List Nat} (decodes : ∀ place ∈ places, ∃ part, index.bitmap place = .ok part)
    (rows : RowBitmap) : ∃ all, index.unite rows places = .ok all ∧
      ∀ row, row ∈ all ↔ row ∈ rows ∨ ∃ place ∈ places, ∃ part, index.bitmap place = .ok part ∧ row ∈ part := by
  induction places generalizing rows with
  | nil => exact ⟨rows, rfl, by simp⟩
  | cons first rest ih =>
    obtain ⟨⟨part, decoded⟩, later⟩ := List.forall_mem_cons.mp decodes
    obtain ⟨all, united, exactly⟩ := ih later (rows.union part)
    refine ⟨all, (unite_cons decoded rows rest).trans united, fun row => ?_⟩
    simp only [exactly, RowBitmap.mem_union, List.mem_cons, exists_eq_or_imp, decoded, Except.ok.injEq,
      exists_eq_left', or_assoc]

/-- The bitmaps from one place up to another are put together, but none behind those of the words. -/
theorem rowsBetween_spec (decodes : index.Decodes) (start stop : Nat) : ∃ rows,
    index.rowsBetween start stop = .ok rows ∧
    ∀ row, row ∈ rows ↔ ∃ place word, start ≤ place ∧ place < stop ∧ index.words[place]? = some word ∧
      ∃ part, index.rowsAt place = .ok part ∧ row ∈ part := by
  have between (place : Nat) : place ∈ List.range' start (min stop index.words.length - start) ↔
      start ≤ place ∧ place < stop ∧ place < index.words.length := by
    rw [List.mem_range'_1]
    omega
  have parts : ∀ place ∈ List.range' start (min stop index.words.length - start),
      ∃ part, index.bitmap place = .ok part := fun place there => by
    obtain ⟨-, -, inside⟩ := (between place).mp there
    rw [← rowsAt_eq inside]
    exact decodes place inside
  obtain ⟨rows, united, exactly⟩ := unite_spec parts {}
  refine ⟨rows, united, fun row => ?_⟩
  rw [exactly, or_iff_right RowBitmap.not_mem_empty]
  constructor
  · rintro ⟨place, there, part, decoded, member⟩
    obtain ⟨from', before, inside⟩ := (between place).mp there
    exact ⟨place, _, from', before, List.getElem?_eq_getElem inside, part, (rowsAt_eq inside).trans decoded, member⟩
  · rintro ⟨place, word, from', before, there, part, decoded, member⟩
    obtain ⟨inside, -⟩ := List.getElem?_eq_some_iff.mp there
    exact ⟨place, (between place).mpr ⟨from', before, inside⟩, part, (rowsAt_eq inside).symm.trans decoded, member⟩

section Ascending

variable (ascending : index.words.Pairwise (· < ·))
include ascending

/-- The words in front of a place are exactly those in front of the word that was looked for. -/
theorem lt_lowerBound (there : index.words[place]? = some word) : place < index.lowerBound probe ↔
    word < probe := by
  have falls : Falls (fun other => Scalar.compareBytes other probe = .lt) index.words :=
    ascending.imp fun order passed => by
      rw [decide_eq_true_eq, Scalar.compareBytes_eq_lt] at *
      exact List.lt_trans order passed
  rw [lowerBound, lt_partitionPoint falls there, decide_eq_true_eq, Scalar.compareBytes_eq_lt]

theorem lowerBound_le (there : index.words[place]? = some word) : index.lowerBound probe ≤ place ↔
    probe ≤ word := by
  rw [← Nat.not_lt, lt_lowerBound ascending there, List.not_lt]

/-- The words from one up to another lie between the places where searches for them end. -/
theorem mem_rowsBetween (decodes : index.Decodes) (low : Bytes) (stop : Nat) (before : Bytes → Prop)
    (stops : ∀ place word, index.words[place]? = some word → (place < stop ↔ before word)) :
    ∃ rows, index.rowsBetween (index.lowerBound low) stop = .ok rows ∧
      ∀ row, row ∈ rows ↔ ∃ word, low ≤ word ∧ before word ∧ index.Holds word row := by
  obtain ⟨rows, read, exactly⟩ := rowsBetween_spec decodes (index.lowerBound low) stop
  refine ⟨rows, read, fun row => (exactly row).trans ⟨?_, ?_⟩⟩
  · rintro ⟨place, word, onward, ahead, there, part, decoded, member⟩
    exact ⟨word, (lowerBound_le ascending there).mp onward, (stops place word there).mp ahead, place, part,
      there, decoded, member⟩
  · rintro ⟨word, onward, ahead, place, part, there, decoded, member⟩
    exact ⟨place, word, (lowerBound_le ascending there).mpr onward, (stops place word there).mpr ahead, there, part,
      decoded, member⟩

/-- A search comes to the least word from the given one on, or it fails and stays. -/
theorem sought_seek (probe : Bytes) (place : Nat) :
    index.Sought probe place (WordCursor.seek probe ⟨index, place⟩) := by
  rw [WordCursor.seek_eq, BitmapIndex.seek]
  cases there : index.words[index.lowerBound probe]? with
  | some word =>
    have reaches : probe ≤ word := (lowerBound_le ascending there).mp (Nat.le_refl _)
    refine .found there reaches fun other member onward => ?_
    obtain ⟨later, at'⟩ := List.mem_iff_getElem?.mp member
    have found : index.lowerBound word ≤ index.lowerBound probe :=
      (lowerBound_le ascending there).mpr (List.le_refl _)
    exact (lowerBound_le ascending at').mp (Nat.le_trans found ((lowerBound_le ascending at').mpr onward))
  | none =>
    refine .behind (fun word member => ?_) rfl
    obtain ⟨before, at'⟩ := List.mem_iff_getElem?.mp member
    have inside := (List.getElem?_eq_some_iff.mp at').1
    have outside := List.getElem?_eq_none_iff.mp there
    exact (lt_lowerBound ascending at').mp (by omega)

end Ascending

end BitmapIndex

namespace WordCursor

variable {index : BitmapIndex} {cursor after : WordCursor} {probe : Bytes} {exact : Bool}

/-- The cursors that searches lead to from the first word of an index. -/
inductive Reached (index : BitmapIndex) : WordCursor → Prop
  | start : Reached index { index }
  | seek {cursor : WordCursor} (probe : Bytes) (reached : Reached index cursor) :
      Reached index (Action.leftBy (WordCursor.seek probe) cursor)

theorem preserves_index (probe : Bytes) :
    Action.Preserves (fun cursor => cursor.index = index) (WordCursor.seek probe) := by
  intro cursor same
  rw [Action.leftBy, Action.run, seek_eq]
  cases cursor.index.seek probe <;> exact same

/-- No search leaves the index. -/
theorem Reached.index_eq (reached : Reached index cursor) : cursor.index = index := by
  induction reached with
  | start => rfl
  | seek probe reached ih => exact preserves_index probe _ ih

theorem eq_of_seek (run : WordCursor.seek probe cursor = .ok exact after) :
    after = ⟨cursor.index, cursor.index.lowerBound probe⟩ := by
  rw [seek_eq, BitmapIndex.seek] at run
  split at run
  · rename_i found
    split at found <;> cases found
    cases run
    rfl
  · cases run

end WordCursor

namespace BitmapIndex

variable {words bitmaps : List Bytes} {index : BitmapIndex}

/-- What searches and reads of an index come to. -/
structure LooksUp (index : BitmapIndex) : Prop where
  ascending : index.words.Pairwise (· < ·)
  counted : index.bitmaps.length = index.words.length + index.hasNull.toNat
  sought : ∀ cursor probe, WordCursor.Reached index cursor →
    index.Sought probe cursor.ordinal (WordCursor.seek probe cursor)
  /-- From where one search ends up to where another ends are the rows of the words from the one up to the other. -/
  between : index.Decodes → ∀ start start' low high first last found found',
    WordCursor.Reached index start → WordCursor.seek low start = .ok found first →
    WordCursor.Reached index start' → WordCursor.seek high start' = .ok found' last →
    ∃ rows, index.rowsBetween first.ordinal last.ordinal = .ok rows ∧
      ∀ row, row ∈ rows.toList ↔ ∃ word, low ≤ word ∧ word < high ∧ index.Holds word row
  /-- Up to any place behind the words are the rows of all words from the one on, and no null rows. -/
  onward : index.Decodes → ∀ start low first found stop,
    WordCursor.Reached index start → WordCursor.seek low start = .ok found first → index.words.length ≤ stop →
    ∃ rows, index.rowsBetween first.ordinal stop = .ok rows ∧
      ∀ row, row ∈ rows.toList ↔ ∃ word, low ≤ word ∧ index.Holds word row

/-- What is checked when an index is created is all that its lookups rely on. -/
theorem looksUp_of_create (created : create words bitmaps = .ok index) :
    index = ⟨words, bitmaps⟩ ∧ index.LooksUp := by
  obtain ⟨whole, ascending, counts⟩ := create_eq_ok_iff.mp created
  have ordered : index.words.Pairwise (· < ·) := by rwa [whole]
  refine ⟨whole, ordered, by rwa [whole] at counts ⊢, ?_, ?_, ?_⟩
  · rintro ⟨walked, place⟩ probe reached
    obtain rfl : walked = index := reached.index_eq
    exact sought_seek ordered probe place
  · intro decodes start start' low high first last found found' reached run reached' run'
    rw [WordCursor.eq_of_seek run, WordCursor.eq_of_seek run', reached.index_eq, reached'.index_eq]
    exact mem_rowsBetween ordered decodes low _ (· < high) fun place word there => lt_lowerBound ordered there
  · intro decodes start low first found stop reached run past
    have all (place : Nat) (word : Bytes) (there : index.words[place]? = some word) : place < stop ↔ True :=
      iff_true_intro (Nat.lt_of_lt_of_le (List.getElem?_eq_some_iff.mp there).1 past)
    rw [WordCursor.eq_of_seek run, reached.index_eq]
    obtain ⟨rows, read, exactly⟩ := mem_rowsBetween ordered decodes low stop (fun _ => True) all
    refine ⟨rows, read, fun row => (exactly row).trans ?_⟩
    simp only [true_and]

/-- An index of four words, with nulls in row 1. -/
def letters : BitmapIndex where
  words := [[2], [4, 1], [7], [9, 1]]
  bitmaps :=
    [[0x3A, 0x30, 0, 0, 1, 0, 0, 0, 0, 0, 1, 0, 16, 0, 0, 0, 2, 0, 5, 0],
      [0x3A, 0x30, 0, 0, 1, 0, 0, 0, 0, 0, 0, 0, 16, 0, 0, 0, 3, 0],
      [0x3A, 0x30, 0, 0, 1, 0, 0, 0, 0, 0, 1, 0, 16, 0, 0, 0, 0, 0, 4, 0],
      [0x3A, 0x30, 0, 0, 1, 0, 0, 0, 0, 0, 0, 0, 16, 0, 0, 0, 6, 0],
      [0x3A, 0x30, 0, 0, 1, 0, 0, 0, 0, 0, 0, 0, 16, 0, 0, 0, 1, 0]]

/-- Two searches with one cursor end at the second and at the fourth word, neither of them the one that is looked
for. -/
theorem looksUp_of_create_letters :
    create letters.words letters.bitmaps = .ok letters ∧
    letters.rowsBetween 1 3 = .ok ⟨[⟨0, [0, 3, 4]⟩]⟩ ∧
    ∀ row, row ∈ [0, 3, 4] ↔ ∃ word, [3] ≤ word ∧ word < [9] ∧ letters.Holds word row := by
  have created : create letters.words letters.bitmaps = .ok letters := by rfl
  have decodes : letters.Decodes := fun place inside => match place, inside with
    | 0, _ | 1, _ | 2, _ | 3, _ => ⟨_, rfl⟩
  have first : WordCursor.seek [3] { index := letters } = .ok false ⟨letters, 1⟩ :=
    (WordCursor.seek_eq ..).trans (by cbv)
  have last : WordCursor.seek [9] ⟨letters, 1⟩ = .ok false ⟨letters, 3⟩ := (WordCursor.seek_eq ..).trans (by cbv)
  have moved : WordCursor.Reached letters ⟨letters, 1⟩ := Action.leftBy_ok first ▸ .seek [3] .start
  have second : letters.bitmap 1 = .ok ⟨[⟨0, [3]⟩]⟩ := rfl
  have third : letters.bitmap 2 = .ok ⟨[⟨0, [0, 4]⟩]⟩ := rfl
  have read : letters.rowsBetween 1 3 = .ok ⟨[⟨0, [0, 3, 4]⟩]⟩ := by
    refine (unite_cons second {} [2]).trans ((unite_cons third _ []).trans ?_)
    cbv
  obtain ⟨rows, read', exactly⟩ :=
    (looksUp_of_create created).2.between decodes _ _ _ _ _ _ _ _ .start first moved last
  obtain rfl : _ = rows := Except.ok.inj (read.symm.trans read')
  exact ⟨created, read, exactly⟩

end BitmapIndex

end Columnar
