import Mathlib
import Columnar.Proofs.PageReads
import Columnar.Proofs.PrefixedWords
import Columnar.Proofs.RunSegments
import Columnar.Sink.Room

namespace Columnar

open Columnar.Action

/-- A call on the values of a page. Each read has a sink of its own, which may be of any kind. -/
inductive ValueCall : Type 1 where
  | seek (index : Nat)
  | next {σ : Type} [Sink σ] (count : Nat) (sink : σ)

/-- What a page shows to calls: how many values it has, what a read of some of them pushes, and whether it passes
them before. -/
structure PageValues.Alike (values other : PageValues) : Prop where
  count : values.count = other.count
  flags : values.areFlags = other.areFlags
  push : ∀ {σ : Type} [Sink σ] (index count : Nat),
    (ValueCursor.push values index count : Action σ Unit) = ValueCursor.push other index count

namespace ValueCall

/-- What a call tells: whether it succeeds, and of a read also how many values it found and what became of the
sink. -/
def Answer : ValueCall → Type
  | seek _ => Except Error Unit
  | @next σ _ _ _ => Except Error Nat × σ

def run : (call : ValueCall) → ValueCursor → call.Answer × ValueCursor
  | seek index, cursor => (ValueCursor.seek index).run cursor
  | next count sink, cursor =>
    let (found, after, rest) := (ValueCursor.next count).run (cursor, sink)
    ((found, rest), after)

/-- The place that calls leave, one after the other. -/
def afterAll (cursor : ValueCursor) (calls : List ValueCall) : ValueCursor :=
  calls.foldl (fun cursor call => (call.run cursor).2) cursor

/-- What a call tells after others on a page that has just been opened, and the place it leaves. -/
def told (values : PageValues) (before : List ValueCall) (call : ValueCall) : call.Answer × Nat :=
  let (answer, after) := call.run (afterAll { values } before)
  (answer, after.index)

variable {values other : PageValues}

/-- At one place of pages that are alike a call tells the same, and it goes to the same place. -/
theorem run_alike (alike : values.Alike other) (index : Nat) (call : ValueCall) :
    call.run ⟨other, index⟩ = ((call.run ⟨values, index⟩).1, ⟨other, (call.run ⟨values, index⟩).2.index⟩) := by
  cases call with
  | seek target =>
    have count : ValueCursor.count ⟨other, index⟩ = ValueCursor.count ⟨values, index⟩ := alike.count.symm
    simp only [run, Action.run, ValueCursor.seek_apply, count]
    by_cases there : target ≤ ValueCursor.count ⟨values, index⟩
    · simp only [there, if_true]
      rfl
    · simp only [there, if_false]
      rfl
  | @next σ _ count sink =>
    have found : ValueCursor.found other index count = ValueCursor.found values index count := by
      rw [ValueCursor.found, ValueCursor.found, alike.count]
    have pushes := congrFun (alike.push (σ := σ) index (ValueCursor.found values index count)) sink
    simp only [run, Action.run]
    cases pushed : ValueCursor.push values index (ValueCursor.found values index count) sink with
    | ok value rest =>
      rw [ValueCursor.next_of_accepted pushed]
      rw [pushed, ← found] at pushes
      rw [ValueCursor.next_of_accepted pushes.symm, found]
    | error error rest =>
      rw [ValueCursor.next_of_refused pushed]
      rw [pushed, ← found] at pushes
      rw [ValueCursor.next_of_refused pushes.symm, found, alike.flags]

/-- Calls leave their page as it is, apart from the place. -/
theorem run_values (values : PageValues) (index : Nat) (call : ValueCall) :
    (call.run ⟨values, index⟩).2 = ⟨values, (call.run ⟨values, index⟩).2.index⟩ :=
  congrArg Prod.snd (run_alike ⟨rfl, rfl, fun _ _ => rfl⟩ index call)

theorem afterAll_alike (alike : values.Alike other) (calls : List ValueCall) (index : Nat) :
    ∃ place, afterAll ⟨values, index⟩ calls = ⟨values, place⟩ ∧ afterAll ⟨other, index⟩ calls = ⟨other, place⟩ := by
  induction calls generalizing index with
  | nil => exact ⟨index, rfl, rfl⟩
  | cons call rest ih =>
    obtain ⟨place, same, twin⟩ := ih (call.run ⟨values, index⟩).2.index
    refine ⟨place, ?_, ?_⟩
    · rw [afterAll, List.foldl_cons, run_values]
      exact same
    · rw [afterAll, List.foldl_cons, run_alike alike]
      exact twin

/-- No sequence of calls tells pages apart that are alike. -/
theorem told_alike (alike : values.Alike other) (before : List ValueCall) (call : ValueCall) :
    told values before call = told other before call := by
  obtain ⟨place, same, twin⟩ := afterAll_alike alike before 0
  simp only [told, same, twin, run_alike alike place call]

end ValueCall

namespace Dictionary

/-- The words that codes stand for. One that stands for none spells an empty word. -/
def spell (dictionary : Dictionary) (codes : List Nat) : List Bytes := codes.map (dictionary.words.getD · [])

variable {dictionary : Dictionary} {codes : List Nat}

@[simp] theorem length_spell : (dictionary.spell codes).length = codes.length := List.length_map _

theorem mem_words_of_mem_spell (known : ∀ code ∈ codes, code < dictionary.words.length) {word : Bytes}
    (member : word ∈ dictionary.spell codes) : word ∈ dictionary.words := by
  obtain ⟨code, used, rfl⟩ := List.mem_map.mp member
  rw [List.getD_eq_getElem _ _ (known code used)]
  exact List.getElem_mem _

/-- Codes are pushed as their words are. -/
theorem pushWords_eq_pushAll {σ : Type} [Sink σ] (known : ∀ code ∈ codes, code < dictionary.words.length) :
    (ValueCursor.pushWords dictionary codes : Action σ Unit) = Sink.pushAll (dictionary.spell codes) := by
  induction codes with
  | nil => rfl
  | cons code rest ih =>
    obtain ⟨first, others⟩ := List.forall_mem_cons.mp known
    rw [spell, List.map_cons, ← spell, Sink.pushAll, ValueCursor.pushWords, List.getElem?_eq_getElem first,
      ih others, List.getD_eq_getElem _ _ first]

theorem alike_spell (known : ∀ code ∈ codes, code < dictionary.words.length) :
    (PageValues.coded codes dictionary).Alike (.strings (dictionary.spell codes)) where
  count := List.length_map _ |>.symm
  flags := rfl
  push index count := by
    rw [ValueCursor.push, ValueCursor.push, spell, ← List.map_drop, ← List.map_take, ← spell]
    exact pushWords_eq_pushAll fun code member => known code (List.mem_of_mem_drop (List.mem_of_mem_take member))

end Dictionary

namespace PageValues

/-- A page of codes, behind the mark of such pages and the width of the codes. -/
def codePage (width : Nat) (segments : List Segment) : Bytes :=
  1 :: UInt8.ofNat width :: segments.flatMap (Segment.write width)

/-- A page of strings. -/
def plainPage (words : List Bytes) : Bytes := words.flatMap Bytes.prefixed

/-- A page has at least the four bytes of its length for each string. -/
theorem four_mul_length_le_plainPage (words : List Bytes) : 4 * words.length ≤ (plainPage words).length := by
  induction words with
  | nil => exact Nat.le_refl 0
  | cons word rest ih =>
    rw [plainPage, List.flatMap_cons, List.length_append, Bytes.length_prefixed, List.length_cons]
    rw [plainPage] at ih
    omega

/-- A page of strings in a column that has a dictionary, behind the mark of such pages. -/
def fallbackPage (words : List Bytes) : Bytes := 0 :: plainPage words

variable {σ : Type} {load : Action σ Dictionary} {state after : σ} {dictionary : Dictionary}

theorem ofBytes_codePage {width : Nat} {segments : List Segment} (positive : 0 < width) (most : width ≤ 32)
    (fits : ∀ segment ∈ segments, segment.Fits width) (loaded : load state = .ok dictionary after) {count : Nat}
    (storable : count < Run.unstorable) :
    ofBytes .words (codePage width segments) count load state =
      .ok (.coded ((segments.flatMap Segment.values).take count) dictionary) after := by
  have byte : (UInt8.ofNat width).toNat = width := by rw [UInt8.toNat_ofNat']; omega
  have codes := Segment.decode_flatMap_write fits positive most storable
  have mode : (1 : UInt8) ≠ 0 := by decide
  rw [ofBytes, ofWords.eq_def, codePage]
  simp only [mode, if_false, if_true, bind_apply, loaded, ofCodes, byte, codes]
  rfl

theorem ofBytes_plainPage {words : List Bytes} (small : ∀ word ∈ words, word.length < 256 ^ 4) (count : Nat)
    (load : Action σ Dictionary) (state : σ) :
    ofBytes .strings (plainPage words) count load state = .ok (.strings words) state := by
  rw [ofBytes, ofStrings, plainPage, Cursor.allPrefixed_flatMap small]
  rfl

/-- A page that falls back to strings does without the dictionary. -/
theorem ofBytes_fallbackPage {words : List Bytes} (small : ∀ word ∈ words, word.length < 256 ^ 4) (count : Nat)
    (load : Action σ Dictionary) (state : σ) :
    ofBytes .words (fallbackPage words) count load state = .ok (.strings words) state := by
  rw [ofBytes, ofWords.eq_def, fallbackPage]
  exact ofBytes_plainPage small count load state

/-- Words can be stored as codes of a dictionary, however these are cut into pieces of a stream, as strings of a
column that has a dictionary, and as strings of a column without one. All three pages can be opened, and whatever
calls come, they are told the same by each of them. Where storage can hold the page of strings it has room for the
codes, too. -/
theorem told_wordPages {body : Bytes} {size encoding width : Nat} {codes padding : List Nat}
    {segments : List Segment} (parsed : Dictionary.ofBody body size encoding = .ok dictionary)
    (known : ∀ code ∈ codes, code < dictionary.words.length) (positive : 0 < width) (most : width ≤ 32)
    (fits : ∀ segment ∈ segments, segment.Fits width)
    (written : segments.flatMap Segment.values = codes ++ padding)
    (held : (plainPage (dictionary.spell codes)).length < Room.limit)
    (loaded : load state = .ok dictionary after) (other : Action σ Dictionary) (count : Nat) :
    ∃ coded fallback plain,
      ofBytes .words (codePage width segments) codes.length load state = .ok coded after ∧
      ofBytes .words (fallbackPage (dictionary.spell codes)) count other state = .ok fallback state ∧
      ofBytes .strings (plainPage (dictionary.spell codes)) count other state = .ok plain state ∧
      coded.count = codes.length ∧ plain = .strings (dictionary.spell codes) ∧
      ∀ before call, ValueCall.told coded before call = ValueCall.told plain before call ∧
        ValueCall.told fallback before call = ValueCall.told plain before call := by
  obtain ⟨_, _, small, _⟩ := Dictionary.ofBody_eq_ok_iff.mp parsed
  have short (word : Bytes) (member : word ∈ dictionary.spell codes) : word.length < 256 ^ 4 :=
    small word (Dictionary.mem_words_of_mem_spell known member)
  have storable : codes.length < Run.unstorable := by
    have least := four_mul_length_le_plainPage (dictionary.spell codes)
    rw [Dictionary.length_spell] at least
    simp only [Room.limit, Run.unstorable] at held ⊢
    omega
  refine ⟨.coded codes dictionary, .strings (dictionary.spell codes), .strings (dictionary.spell codes), ?_,
    ofBytes_fallbackPage short count other state, ofBytes_plainPage short count other state, rfl, rfl,
    fun before call => ⟨ValueCall.told_alike (Dictionary.alike_spell known) before call, rfl⟩⟩
  rw [ofBytes_codePage positive most fits loaded storable, written, List.take_left]

/-- The words "x" and "yz" and an empty one. -/
def threeWords : Bytes := [1, 0, 0, 0, 0x78, 0, 0, 0, 0, 2, 0, 0, 0, 0x79, 0x7A]

/-- Three times the empty word, then each of the words, with four codes that no row has. -/
def sevenCodes : List Segment := [.repeated 1 3, .packed [2, 0, 1, 2, 3, 3, 3, 3]]

theorem told_wordPages_seven :
    codePage 2 sevenCodes = [1, 2, 6, 1, 3, 0x92, 0xFF] ∧
    ∃ coded fallback plain,
      ofBytes .words (codePage 2 sevenCodes) 7 (pure ⟨[[0x78], [], [0x79, 0x7A]]⟩) () = .ok coded () ∧
      ofBytes .words (fallbackPage [[], [], [], [0x79, 0x7A], [0x78], [], [0x79, 0x7A]])
        7 (throw .noDictionary) () = .ok fallback () ∧
      ofBytes .strings (plainPage [[], [], [], [0x79, 0x7A], [0x78], [], [0x79, 0x7A]]) 7 (throw .noDictionary) () =
        .ok plain () ∧
      coded.count = 7 ∧ plain = .strings [[], [], [], [0x79, 0x7A], [0x78], [], [0x79, 0x7A]] ∧
      ∀ before call, ValueCall.told coded before call = ValueCall.told plain before call ∧
        ValueCall.told fallback before call = ValueCall.told plain before call := by
  have parsed : Dictionary.ofBody threeWords 3 0 = .ok ⟨[[0x78], [], [0x79, 0x7A]]⟩ := by cbv
  have fits : ∀ segment ∈ sevenCodes, segment.Fits 2 := by simp [sevenCodes, Segment.Fits]
  have written : sevenCodes.flatMap Segment.values = [1, 1, 1, 2, 0, 1, 2] ++ [3, 3, 3, 3] := rfl
  exact ⟨by cbv, told_wordPages parsed (by decide) (by decide) (by decide) fits written (by decide) rfl
    (throw .noDictionary) 7⟩

end PageValues

end Columnar
