import Mathlib
import Columnar.Proofs.Action
import Columnar.Proofs.PrefixedWords
import Columnar.ValueCursor

namespace Columnar

/-- Bytes are entries one behind the other: four bytes with the length of a byte string, the least significant
first, then the byte string itself. -/
inductive Bytes.Entries : List Bytes → Bytes → Prop
  | nil : Entries [] []
  | cons {size word behind : Bytes} {words : List Bytes} :
      size.length = 4 → toNat size = word.length → Entries words behind →
      Entries (word :: words) (size ++ word ++ behind)

/-- Entries are byte strings as they are written, each short enough for its length to be written. -/
theorem Bytes.entries_iff {words : List Bytes} {stored : Bytes} :
    Entries words stored ↔ (∀ word ∈ words, word.length < 256 ^ 4) ∧ stored = words.flatMap prefixed := by
  constructor
  · intro entries
    induction entries with
    | nil => exact ⟨List.forall_mem_nil _, rfl⟩
    | @cons size word behind words width length _ ih =>
      obtain ⟨small, same⟩ := toNat_eq_iff.mp length
      rw [width] at small same
      exact ⟨List.forall_mem_cons.mpr ⟨small, ih.1⟩, by rw [List.flatMap_cons, prefixed, ← same, ← ih.2]⟩
  · rintro ⟨small, rfl⟩
    induction words with
    | nil => exact .nil
    | cons word rest ih =>
      obtain ⟨first, others⟩ := List.forall_mem_cons.mp small
      refine .cons (length_ofNat 4 word.length) ?_ (ih others)
      rw [toNat_ofNat, Nat.mod_eq_of_lt first]

theorem Cursor.allPrefixed_eq_ok_iff_entries {position : Nat} {stored : Bytes} {words : List Bytes} :
    allPrefixed ⟨position, stored⟩ = .ok words ↔ Bytes.Entries words stored :=
  allPrefixed_eq_ok_iff.trans Bytes.entries_iff.symm

section Refused

variable {cursor : Cursor} {error : Error}

theorem Read.isCorruption_of_bytes {count : Nat} (refused : bytes count cursor = .error error) :
    error.isCorruption = true := by
  unfold bytes at refused
  split at refused
  · cases refused
    rfl
  · cases refused

theorem Read.isCorruption_of_prefixed (refused : prefixed cursor = .error error) : error.isCorruption = true := by
  cases counted : bytes 4 cursor with
  | error damage =>
    have stops : natural 4 cursor = .error damage := by rw [natural, ← bind_pure_comp, bind_of_error counted]
    rw [prefixed, bind_of_error stops] at refused
    cases refused
    exact isCorruption_of_bytes counted
  | ok found =>
    obtain ⟨size, behind⟩ := found
    have length : natural 4 cursor = .ok (Bytes.toNat size, behind) := by
      rw [natural, ← bind_pure_comp, bind_of_ok counted]
      rfl
    rw [prefixed, bind_of_ok length] at refused
    exact isCorruption_of_bytes refused

/-- Bytes that are not entries are refused as damage, wherever the reading stops. -/
theorem Cursor.isCorruption_of_allPrefixed (refused : cursor.allPrefixed = .error error) :
    error.isCorruption = true := by
  fun_induction allPrefixed cursor with
  | case1 => cases refused
  | case2 cursor _ damage failed =>
    cases refused
    exact Read.isCorruption_of_prefixed failed
  | case3 cursor _ word next _ _ ih =>
    cases later : next.allPrefixed with
    | ok words =>
      rw [later] at refused
      cases refused
    | error damage =>
      rw [later] at refused
      cases refused
      exact ih later
  | case4 => cases refused

end Refused

/-- A code stands for the word at its place, and one behind all words for none. -/
theorem ValueCursor.pushWords_one {σ : Type} [Sink σ] (dictionary : Dictionary) (code : Nat) :
    (pushWords dictionary [code] : Action σ Unit) =
      (dictionary.words[code]?).elim (throw (.unknownCode code dictionary.words.length)) Sink.pushBytes := by
  rw [pushWords]
  cases dictionary.words[code]? with
  | none => rfl
  | some word => exact bind_pure (Sink.pushBytes word)

/-- A section of byte strings is read exactly if it consists of entries, which only one list of byte strings has,
and it is written again as it was. Any other section is damaged. So a dictionary is read exactly from as many
entries as it is said to have, and its codes stand for them in order. -/
theorem PageValues.ofStrings_exact (stored : Bytes) :
    (∀ words, Bytes.Entries words stored →
      ofStrings stored = .ok (strings words) ∧ (strings words).count = words.length ∧
        words.flatMap Bytes.prefixed = stored ∧ ∀ others, Bytes.Entries others stored → others = words) ∧
    ((∀ words, ¬Bytes.Entries words stored) → ∃ error, ofStrings stored = .error error ∧
    error.isCorruption = true) ∧ ∀ count, ((∃ dictionary, Dictionary.ofBody stored count 0 = .ok dictionary) ↔
        ∃ words, Bytes.Entries words stored ∧ words.length = count) ∧
      ∀ dictionary, Dictionary.ofBody stored count 0 = .ok dictionary →
        Bytes.Entries dictionary.words stored ∧ ∀ (σ : Type) [Sink σ] (code : Nat),
          (∀ word, dictionary.words[code]? = some word →
            (ValueCursor.pushWords dictionary [code] : Action σ Unit) = Sink.pushBytes word) ∧
          (count ≤ code → (ValueCursor.pushWords dictionary [code] : Action σ Unit) =
            throw (.unknownCode code count)) := by
  have read (words : List Bytes) : Cursor.allPrefixed ⟨0, stored⟩ = .ok words ↔ Bytes.Entries words stored :=
    Cursor.allPrefixed_eq_ok_iff_entries
  have made (count : Nat) (dictionary : Dictionary) : Dictionary.ofBody stored count 0 = .ok dictionary ↔
      dictionary.words.length = count ∧ Bytes.Entries dictionary.words stored := by
    rw [Dictionary.ofBody_eq_ok_iff, Bytes.entries_iff]
    exact and_iff_right rfl
  refine ⟨fun words entries => ⟨?_, rfl, (Bytes.entries_iff.mp entries).2.symm, fun others entries' => ?_⟩,
    fun none => ?_,
    fun count => ⟨⟨?_, ?_⟩, fun dictionary parsed => ?_⟩⟩
  · rw [ofStrings, (read words).mpr entries]
    rfl
  · have same := ((read others).mpr entries').symm.trans ((read words).mpr entries)
    exact Except.ok.inj same
  · cases parsed : Cursor.allPrefixed ⟨0, stored⟩ with
    | ok words => exact absurd ((read words).mp parsed) (none words)
    | error error => exact ⟨error, by rw [ofStrings, parsed]; rfl, Cursor.isCorruption_of_allPrefixed parsed⟩
  · rintro ⟨dictionary, parsed⟩
    obtain ⟨all, entries⟩ := (made count dictionary).mp parsed
    exact ⟨dictionary.words, entries, all⟩
  · rintro ⟨words, entries, all⟩
    exact ⟨⟨words⟩, (made count ⟨words⟩).mpr ⟨all, entries⟩⟩
  · obtain ⟨rfl, entries⟩ := (made count dictionary).mp parsed
    refine ⟨entries, fun σ _ code => ⟨fun word known => ?_, fun beyond => ?_⟩⟩
    · rw [ValueCursor.pushWords_one, known, Option.elim_some]
    · rw [ValueCursor.pushWords_one, List.getElem?_eq_none beyond, Option.elim_none]

/-- The words "ab", "" and "c". -/
def threeEntries : Bytes := [2, 0, 0, 0, 97, 98, 0, 0, 0, 0, 1, 0, 0, 0, 99]

theorem PageValues.ofStrings_exact_three :
    Bytes.Entries [[97, 98], [], [99]] threeEntries ∧
      ofStrings threeEntries = .ok (strings [[97, 98], [], [99]]) ∧
      (∃ dictionary, Dictionary.ofBody threeEntries 3 0 = .ok dictionary) ∧
      (¬∃ dictionary, Dictionary.ofBody threeEntries 2 0 = .ok dictionary) ∧
      ∃ error, ofStrings (threeEntries ++ [5, 0, 0]) = .error error ∧ error.isCorruption = true := by
  have entries : Bytes.Entries [[97, 98], [], [99]] threeEntries := Bytes.entries_iff.mpr ⟨by decide, by decide⟩
  obtain ⟨whole, _, dictionaries⟩ := ofStrings_exact threeEntries
  obtain ⟨read, _, _, only⟩ := whole _ entries
  refine ⟨entries, read, (dictionaries 3).1.mpr ⟨_, entries, rfl⟩, fun fewer => ?_, (ofStrings_exact _).2.1
    fun words cut => ?_⟩
  · obtain ⟨words, entries', two⟩ := (dictionaries 2).1.mp fewer
    rw [only words entries'] at two
    cases two
  · have parsed : Cursor.allPrefixed ⟨0, threeEntries ++ [5, 0, 0]⟩ = .ok words :=
      Cursor.allPrefixed_eq_ok_iff_entries.mpr cut
    have refused : Cursor.allPrefixed ⟨0, threeEntries ++ [5, 0, 0]⟩ = .error (.endOfPage 4 15 3) := by cbv
    cases refused.symm.trans parsed

end Columnar
