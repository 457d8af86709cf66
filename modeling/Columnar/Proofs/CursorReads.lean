import Columnar.Cursor

namespace Columnar

/-- What is stored of a number is its bytes and nothing else. -/
theorem Bytes.toNat_eq_iff {stored : Bytes} {n : Nat} :
    toNat stored = n ↔ n < 256 ^ stored.length ∧ stored = ofNat stored.length n := by
  constructor
  · rintro rfl
    exact ⟨toNat_lt stored, (ofNat_toNat stored).symm⟩
  · rintro ⟨small, same⟩
    rw [same, toNat_ofNat, Nat.mod_eq_of_lt small]

namespace Read

variable {α β : Type} {cursor after : Cursor}

theorem pure_eq_ok_iff {value found : α} : (pure value : Read α) cursor = .ok (found, after) ↔
    value = found ∧ cursor = after := by
  change Except.ok (value, cursor) = .ok (found, after) ↔ _
  simp

/-- A read behind another succeeds exactly if both do. -/
theorem bind_eq_ok_iff {read : Read α} {next : α → Read β} {value : β} :
    (read >>= next) cursor = .ok (value, after) ↔
      ∃ found mid, read cursor = .ok (found, mid) ∧ next found mid = .ok (value, after) := by
  change (read cursor >>= fun found => next found.1 found.2) = .ok (value, after) ↔ _
  cases read cursor with
  | error error => simp [bind, Except.bind]
  | ok found =>
    obtain ⟨first, mid⟩ := found
    simp [bind, Except.bind, and_assoc]

theorem bind_of_ok {read : Read α} {found : α} {mid : Cursor} (first : read cursor = .ok (found, mid))
    (next : α → Read β) : (read >>= next) cursor = next found mid := by
  change (read cursor >>= fun found => next found.1 found.2) = _
  rw [first]
  rfl

/-- Bytes are read exactly if the cursor has them ahead. -/
theorem bytes_eq_ok_iff {count : Nat} {found : Bytes} : bytes count cursor = .ok (found, after) ↔
    found.length = count ∧ cursor.rest = found ++ after.rest ∧ after.position = cursor.position + count := by
  obtain ⟨position, ahead⟩ := cursor
  obtain ⟨place, rest⟩ := after
  unfold bytes
  dsimp only
  split
  · rename_i short
    simp only [reduceCtorEq, false_iff]
    rintro ⟨length, rfl, _⟩
    rw [List.length_append] at short
    omega
  · rename_i enough
    simp only [Except.ok.injEq, Prod.mk.injEq, Cursor.mk.injEq]
    constructor
    · rintro ⟨rfl, rfl, rfl⟩
      refine ⟨?_, (List.take_append_drop count ahead).symm, rfl⟩
      rw [List.length_take]
      omega
    · rintro ⟨rfl, rfl, rfl⟩
      exact ⟨List.take_left, rfl, List.drop_left⟩

/-- A number is read exactly where it is stored. -/
theorem natural_eq_ok_iff {width n : Nat} : natural width cursor = .ok (n, after) ↔
    n < 256 ^ width ∧ cursor.rest = Bytes.ofNat width n ++ after.rest ∧
    after.position = cursor.position + width := by
  have apart : natural width cursor = .ok (n, after) ↔
      ∃ found mid, bytes width cursor = .ok (found, mid) ∧ Bytes.toNat found = n ∧ mid = after := by
    rw [natural, ← bind_pure_comp, bind_eq_ok_iff]
    simp only [pure_eq_ok_iff]
  rw [apart]
  constructor
  · rintro ⟨found, _, read, value, rfl⟩
    obtain ⟨length, ahead, place⟩ := bytes_eq_ok_iff.mp read
    obtain ⟨small, same⟩ := Bytes.toNat_eq_iff.mp value
    rw [length] at small same
    exact ⟨small, by rw [ahead, ← same], place⟩
  · rintro ⟨small, ahead, place⟩
    refine ⟨Bytes.ofNat width n, after, bytes_eq_ok_iff.mpr ⟨Bytes.length_ofNat width n, ahead, place⟩, ?_, rfl⟩
    rw [Bytes.toNat_ofNat, Nat.mod_eq_of_lt small]

theorem natural_written {width n : Nat} (small : n < 256 ^ width) (position : Nat) (rest : Bytes) :
    natural width ⟨position, Bytes.ofNat width n ++ rest⟩ = .ok (n, ⟨position + width, rest⟩) :=
  natural_eq_ok_iff.mpr ⟨small, rfl, rfl⟩

theorem bind_of_error {read : Read α} {error : Error} (failed : read cursor = .error error) (next : α → Read β) :
    (read >>= next) cursor = .error error := by
  change (read cursor >>= fun found => next found.1 found.2) = _
  rw [failed]
  rfl

theorem natural_of_le {width position : Nat} {ahead : Bytes} (enough : width ≤ ahead.length) :
    natural width ⟨position, ahead⟩ =
      .ok (Bytes.toNat (ahead.take width), ⟨position + width, ahead.drop width⟩) := by
  have size : (ahead.take width).length = width := List.length_take_of_le enough
  have bound := Bytes.toNat_lt (ahead.take width)
  have same := Bytes.ofNat_toNat (ahead.take width)
  rw [size] at bound same
  exact natural_eq_ok_iff.mpr ⟨bound, by rw [same, List.take_append_drop], rfl⟩

theorem natural_of_lt {width position : Nat} {ahead : Bytes} (short : ahead.length < width) :
    natural width ⟨position, ahead⟩ = .error (.endOfPage width position ahead.length) := by
  have failed : bytes width ⟨position, ahead⟩ = .error (.endOfPage width position ahead.length) := if_pos short
  rw [natural, ← bind_pure_comp, bind_of_error failed]

end Read

end Columnar
