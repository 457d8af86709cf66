import Mathlib.Tactic.Common
import Columnar.RowBitmap

namespace Columnar

namespace RowBitmap

instance : Membership Nat RowBitmap := ⟨fun bitmap row => row ∈ bitmap.toList⟩

instance : Membership Nat RowChunk := ⟨fun chunk row => ∃ low ∈ chunk.rows, chunkSize * chunk.key + low = row⟩

variable {row key start count : Nat} {keys : List Nat} {chunk : RowChunk} {chunks : List RowChunk}

theorem mem_iff {bitmap : RowBitmap} : row ∈ bitmap ↔ ∃ chunk ∈ bitmap.chunks, row ∈ chunk := by
  have listed : row ∈ bitmap ↔ row ∈ bitmap.toList := Iff.rfl
  simp only [listed, toList, List.mem_flatMap, List.mem_map]
  exact Iff.rfl

theorem not_mem_empty : row ∉ ({} : RowBitmap) := by
  simp [mem_iff]

theorem mem_merge {low : Nat} {a b : List Nat} : low ∈ merge a b ↔ low ∈ a ∨ low ∈ b := by
  fun_induction merge a b with
  | case1 b => simp
  | case2 a => simp
  | case3 a as b bs before ih => rw [List.mem_cons, ih, List.mem_cons (l := as), or_assoc]
  | case4 a as b bs before behind ih => rw [List.mem_cons, ih, List.mem_cons (l := bs), or_left_comm]
  | case5 a as b bs before behind ih =>
    obtain rfl : a = b := by omega
    rw [List.mem_cons, ih, List.mem_cons, List.mem_cons]
    exact or_or_distrib_left

/-- The search comes to a place between those that it is given. -/
theorem search_mem (some : 0 < count) :
    start ≤ search keys key start count ∧ search keys key start count < start + count := by
  fun_induction search keys key start count with
  | case1 start count order middle ih =>
    have half := ih (by omega)
    by_cases left : key < keys.getD middle 0
    · simp only [left, if_true, dif_pos] at half ⊢
      omega
    · simp only [left, if_false, dif_neg, not_false_eq_true] at half ⊢
      omega
  | case2 start count order => omega

theorem mem_chunk_merge {found : RowChunk} (same : found.key = chunk.key) :
    row ∈ (⟨found.key, merge found.rows chunk.rows⟩ : RowChunk) ↔ row ∈ found ∨ row ∈ chunk := by
  have listed (other : RowChunk) : row ∈ other ↔ ∃ low ∈ other.rows, chunkSize * other.key + low = row := Iff.rfl
  simp only [listed, mem_merge, or_and_right, exists_or, same]

/-- A chunk that grows by the rows of another brings them among the rows of all. -/
theorem mem_set {found grown : RowChunk} {place : Nat} (there : chunks[place]? = some found)
    (grows : row ∈ grown ↔ row ∈ found ∨ row ∈ chunk) :
    (∃ other ∈ chunks.set place grown, row ∈ other) ↔ row ∈ chunk ∨ ∃ other ∈ chunks, row ∈ other := by
  induction chunks generalizing place with
  | nil => cases there
  | cons first rest ih =>
    cases place with
    | zero =>
      cases there
      simp only [List.set_cons_zero, List.mem_cons, exists_eq_or_imp, grows]
      rw [or_comm (b := row ∈ chunk), or_assoc]
    | succ place =>
      simp only [List.set_cons_succ, List.mem_cons, exists_eq_or_imp, ih there]
      exact or_left_comm

theorem mem_insertIdx {place : Nat} (within : place ≤ chunks.length) :
    (∃ other ∈ chunks.insertIdx place chunk, row ∈ other) ↔ row ∈ chunk ∨ ∃ other ∈ chunks, row ∈ other := by
  simp only [List.mem_insertIdx within, or_and_right, exists_or, exists_eq_left]

/-- A chunk goes in with its rows, wherever the search for its key ends. -/
theorem mem_insert : (∃ other ∈ insert chunk chunks, row ∈ other) ↔ row ∈ chunk ∨ ∃ other ∈ chunks,
    row ∈ other := by
  rw [insert]
  split
  next outside =>
    cases chunks with
    | nil => simp
    | cons first rest =>
      have inside : search ((first :: rest).map RowChunk.key) chunk.key 0 (first :: rest).length <
          0 + (first :: rest).length :=
        (search_mem (Nat.succ_pos rest.length)).2
      rw [List.getElem?_eq_none_iff] at outside
      omega
  next found there =>
    obtain ⟨inside, -⟩ := List.getElem?_eq_some_iff.mp there
    split
    · rename_i same
      exact mem_set there (mem_chunk_merge same)
    · split
      · exact mem_insertIdx inside
      · exact mem_insertIdx (Nat.le_of_lt inside)

theorem mem_absorb {a b : RowBitmap} : row ∈ a.absorb b ↔ row ∈ a ∨ row ∈ b := by
  have taken (chunks taker : List RowChunk) :
      (∃ found ∈ chunks.foldl (fun chunks chunk => insert chunk chunks) taker, row ∈ found) ↔
        (∃ found ∈ taker, row ∈ found) ∨ ∃ found ∈ chunks, row ∈ found := by
    induction chunks generalizing taker with
    | nil => simp
    | cons first rest ih =>
      simp only [List.foldl_cons, ih, mem_insert, List.mem_cons, exists_eq_or_imp]
      rw [or_comm (a := row ∈ first), or_assoc]
  rw [mem_iff, mem_iff, mem_iff]
  exact taken b.chunks a.chunks

/-- The union has the rows of both sets, also where their chunks are out of order. -/
theorem mem_union {a b : RowBitmap} : row ∈ a.union b ↔ row ∈ a ∨ row ∈ b := by
  rw [union]
  split
  · rw [mem_absorb, or_comm]
  · exact mem_absorb

end RowBitmap

end Columnar
