import Mathlib.Algebra.Group.Nat.Defs
import Columnar.Dictionary
import Columnar.Proofs.CursorReads
import Columnar.Proofs.Outcome

namespace Columnar

/-- A byte string as it is stored behind its length. -/
def Bytes.prefixed (value : Bytes) : Bytes := ofNat 4 value.length ++ value

@[simp] theorem Bytes.length_prefixed (value : Bytes) : (prefixed value).length = 4 + value.length := by
  rw [prefixed, List.length_append, length_ofNat]

/-- A byte string is read exactly where it is stored behind its length, which four bytes can hold. -/
theorem Read.prefixed_eq_ok_iff {cursor after : Cursor} {value : Bytes} :
    Read.prefixed cursor = .ok (value, after) ↔
    value.length < 256 ^ 4 ∧ cursor.rest = Bytes.prefixed value ++ after.rest ∧
      after.position = cursor.position + (4 + value.length) := by
  rw [Read.prefixed, bind_eq_ok_iff]
  constructor
  · rintro ⟨length, mid, counted, read⟩
    obtain ⟨small, ahead, place⟩ := natural_eq_ok_iff.mp counted
    obtain ⟨rfl, rest, behind⟩ := bytes_eq_ok_iff.mp read
    exact ⟨small, by rw [ahead, rest, Bytes.prefixed, List.append_assoc], by omega⟩
  · rintro ⟨small, ahead, place⟩
    refine ⟨value.length, ⟨cursor.position + 4, value ++ after.rest⟩, natural_eq_ok_iff.mpr ⟨small, ?_, rfl⟩,
      bytes_eq_ok_iff.mpr ⟨rfl, rfl, by rw [place, Nat.add_assoc]⟩⟩
    rw [ahead, Bytes.prefixed, List.append_assoc]

namespace Cursor

/-- Byte strings that are read up to the end are all that is stored. -/
theorem rest_of_allPrefixed {cursor : Cursor} {words : List Bytes} (read : cursor.allPrefixed = .ok words) :
    (∀ word ∈ words, word.length < 256 ^ 4) ∧ cursor.rest = words.flatMap Bytes.prefixed := by
  fun_induction Cursor.allPrefixed cursor generalizing words with
  | case1 cursor ended =>
    cases read
    exact ⟨by simp, List.isEmpty_iff.mp ended⟩
  | case2 cursor _ error failed => cases read
  | case3 cursor _ word next first _ ih =>
    obtain ⟨others, later, rfl⟩ := map_eq_ok read
    obtain ⟨small, ahead, _⟩ := Read.prefixed_eq_ok_iff.mp first
    obtain ⟨smaller, rest⟩ := ih later
    exact ⟨List.forall_mem_cons.mpr ⟨small, smaller⟩, by rw [ahead, rest, List.flatMap_cons]⟩
  | case4 cursor _ word next first longer =>
    obtain ⟨_, ahead, _⟩ := Read.prefixed_eq_ok_iff.mp first
    rw [ahead, List.length_append, Bytes.length_prefixed] at longer
    omega

/-- Byte strings that are stored one after the other are read in order. -/
theorem allPrefixed_flatMap {words : List Bytes} (small : ∀ word ∈ words, word.length < 256 ^ 4) (position : Nat) :
    allPrefixed ⟨position, words.flatMap Bytes.prefixed⟩ = .ok words := by
  induction words generalizing position with
  | nil =>
    rw [allPrefixed]
    rfl
  | cons word rest ih =>
    obtain ⟨first, others⟩ := List.forall_mem_cons.mp small
    have read : Read.prefixed ⟨position, (word :: rest).flatMap Bytes.prefixed⟩ =
        .ok (word, ⟨position + (4 + word.length), rest.flatMap Bytes.prefixed⟩) :=
      Read.prefixed_eq_ok_iff.mpr ⟨first, by rw [List.flatMap_cons], rfl⟩
    have longer : (rest.flatMap Bytes.prefixed).length < ((word :: rest).flatMap Bytes.prefixed).length := by
      rw [List.flatMap_cons, List.length_append, Bytes.length_prefixed]
      omega
    have filled : ((word :: rest).flatMap Bytes.prefixed).isEmpty = false :=
      List.isEmpty_eq_false_iff.mpr (List.ne_nil_of_length_pos (Nat.zero_lt_of_lt longer))
    rw [allPrefixed]
    simp only [filled, read, longer, if_true, Bool.false_eq_true, if_false, ih others]
    rfl

theorem allPrefixed_eq_ok_iff {cursor : Cursor} {words : List Bytes} : cursor.allPrefixed = .ok words ↔
    (∀ word ∈ words, word.length < 256 ^ 4) ∧ cursor.rest = words.flatMap Bytes.prefixed := by
  refine ⟨rest_of_allPrefixed, ?_⟩
  obtain ⟨position, rest⟩ := cursor
  rintro ⟨small, rfl⟩
  exact allPrefixed_flatMap small position

end Cursor

/-- A dictionary is read exactly from its words, stored one after the other in their declared number. -/
theorem Dictionary.ofBody_eq_ok_iff {body : Bytes} {count encoding : Nat} {dictionary : Dictionary} :
    ofBody body count encoding = .ok dictionary ↔
      encoding = 0 ∧ dictionary.words.length = count ∧ (∀ word ∈ dictionary.words, word.length < 256 ^ 4) ∧
        body = dictionary.words.flatMap Bytes.prefixed := by
  obtain ⟨words⟩ := dictionary
  have read : Cursor.allPrefixed ⟨0, body⟩ = .ok words ↔ _ := Cursor.allPrefixed_eq_ok_iff
  rw [← read]
  unfold ofBody
  simp only [bind, Except.bind, pure, Except.pure, throw, throwThe, MonadExceptOf.throw]
  constructor
  · intro parsed
    split at parsed
    · cases parsed
    · rename_i plain
      split at parsed
      · cases parsed
      · rename_i found stored
        split at parsed
        · cases parsed
        · rename_i all
          cases parsed
          exact ⟨Decidable.not_not.mp plain, Decidable.not_not.mp all, stored⟩
  · rintro ⟨rfl, rfl, stored⟩
    simp [stored]

end Columnar
