import Mathlib.Tactic.Common
import Columnar.Predicate

namespace Columnar

theorem compare_natCast (a b : Nat) : Ord.compare (a : Int) (b : Int) = Ord.compare a b := by
  have same : (a : Int) = b ↔ a = b := Int.ofNat_inj
  simp [Ord.compare, compareOfLessAndEq, same]

namespace Scalar

theorem isNull_iff {value : Scalar} : value.isNull = true ↔ value = null := by
  cases value <;> simp [isNull]

/-- The values that a value can be compared with share its line. -/
def line? : Scalar → Option Scalar
  | null => none
  | boolean _ => some (boolean false)
  | integer kind _ => some (integer kind 0)
  | float kind bits => if kind.format.isNaN bits then none else some (float kind 0)
  | decimal _ => some (decimal 0)
  | date _ => some (date 0)
  | datetime _ => some (datetime ⟨0, 0, 0⟩)
  | bytes _ => some (bytes [])

/-- Where a value lies on its line. -/
def place : Scalar → List Int
  | null => []
  | boolean value => [value.toNat]
  | integer _ value => [value]
  | float kind bits => [kind.format.place bits]
  | decimal unscaled => [unscaled]
  | date day => [day]
  | datetime moment => [moment.day, moment.second, moment.nano]
  | bytes value => value.map fun byte => (byte.toNat : Int)

theorem compareBytes_eq (a b : Bytes) : compareBytes a b = Ord.compare (bytes a).place (bytes b).place := by
  induction a generalizing b with
  | nil => cases b <;> rfl
  | cons first rest ih =>
    cases b with
    | nil => rfl
    | cons other behind =>
      have onward : compareBytes rest behind = Ord.compare (bytes rest).place (bytes behind).place := ih behind
      simp only [place] at onward
      simp only [compareBytes, place, List.map_cons, List.compare_cons_cons, onward, compare_natCast]

/-- Values other than null are compared as they lie on their line, where they share one. -/
theorem compare_eq {a b : Scalar} (known : a ≠ null) (known' : b ≠ null) :
    a.compare b = if a.line?.isSome ∧ a.line? = b.line? then some (Ord.compare a.place b.place) else none := by
  cases a with
  | null => exact absurd rfl known
  | float kind a =>
    cases b with
    | null => exact absurd rfl known'
    | float other b =>
      by_cases same : kind = other
      · subst same
        by_cases number : kind.format.isNaN a = true
        · simp [compare, line?, FloatFormat.compare, number]
        · by_cases number' : kind.format.isNaN b = true
          · simp [compare, line?, FloatFormat.compare, number, number']
          · simp [compare, line?, place, FloatFormat.compare, number, number']
      · have apart : (float kind a).line?.isSome → (float kind a).line? ≠ (float other b).line? := by
          simp only [line?]
          split <;> split <;> simp [same]
        rw [if_neg fun shared => apart shared.1 shared.2]
        simp [compare, same]
    | _ => simp [compare, line?]
  | datetime a =>
    cases b with
    | datetime b =>
      simp only [compare, line?, place, Moment.compare, List.compare_cons_cons, List.compare_nil_nil,
        compare_natCast]
      simp
    | _ => simp_all [compare, line?]
  | _ => cases b <;> simp_all [compare, line?, place, compare_natCast, compareBytes_eq]

theorem compareBytes_eq_eq {a b : Bytes} : compareBytes a b = .eq ↔ a = b := by
  induction a generalizing b with
  | nil => cases b <;> simp [compareBytes]
  | cons first rest ih =>
    cases b with
    | nil => simp [compareBytes]
    | cons other behind => simp [compareBytes, Ordering.then_eq_eq, ih, UInt8.toNat_inj]

/-- Byte strings are compared in the order of lists. -/
theorem compareBytes_eq_lt {a b : Bytes} : compareBytes a b = .lt ↔ a < b := by
  induction a generalizing b with
  | nil => cases b <;> simp [compareBytes]
  | cons first rest ih =>
    cases b with
    | nil => simp [compareBytes]
    | cons other behind =>
      have heads : Ord.compare first.toNat other.toNat = .lt ↔ first < other := Nat.compare_eq_lt
      have same : Ord.compare first.toNat other.toNat = .eq ↔ first = other :=
        Nat.compare_eq_eq.trans UInt8.toNat_inj
      rw [compareBytes, Ordering.then_eq_lt, heads, same, ih, List.cons_lt_cons_iff]

theorem compareMoments_eq_eq {a b : Moment} : a.compare b = .eq ↔ a = b := by
  cases a
  cases b
  simp [Moment.compare, Ordering.then_eq_eq]

theorem eqv_iff {a b : Scalar} : a.eqv b = true ↔ a.compare b = some .eq := by
  cases a with
  | boolean a =>
    cases b with
    | boolean b => cases a <;> cases b <;> decide
    | _ => simp [eqv, compare]
  | _ => cases b <;> simp [eqv, compare, compareBytes_eq_eq, compareMoments_eq_eq]

variable {a b c : Scalar}

theorem compare_swap : b.compare a = (a.compare b).map Ordering.swap := by
  by_cases left : a = null
  · subst left
    cases b <;> rfl
  · by_cases right : b = null
    · subst right
      cases a <;> rfl
    · rw [compare_eq left right, compare_eq right left]
      by_cases shared : a.line? = b.line?
      · rw [← shared, Std.OrientedOrd.eq_swap]
        split <;> rfl
      · have apart : b.line? ≠ a.line? := Ne.symm shared
        simp [shared, apart]

/-- Null comes first, and behind a value on a line come only values of that line. -/
theorem isLe_iff : a.isLe b = true ↔
    a = null ∨ a.line?.isSome ∧ a.line? = b.line? ∧ (Ord.compare a.place b.place).isLE = true := by
  by_cases left : a = null
  · subst left
    cases b <;> simp [isLe, compare]
  · by_cases right : b = null
    · subst right
      cases a <;> simp_all [isLe, compare, line?]
    · rw [isLe, compare_eq left right]
      by_cases shared : a.line?.isSome = true ∧ a.line? = b.line?
      · rw [if_pos shared, or_iff_right left, ← and_assoc, and_iff_right shared]
        cases Ord.compare a.place b.place <;> simp
      · simp only [shared, left, if_false, false_or]
        constructor
        · simp
        · intro behind
          exact absurd ⟨behind.1, behind.2.1⟩ shared

theorem ne_null_of_isLe (known : a ≠ null) (order : a.isLe b = true) : b ≠ null := by
  rintro rfl
  rcases isLe_iff.mp order with null | ⟨some, shared, _⟩
  · exact known null
  · rw [shared] at some
    cases some

theorem isLe_trans (first : a.isLe b = true) (second : b.isLe c = true) : a.isLe c = true := by
  rw [isLe_iff] at *
  rcases first with null | ⟨some, shared, before⟩
  · exact .inl null
  · rcases second with rfl | ⟨_, shared', behind⟩
    · rw [shared] at some
      cases some
    · exact .inr ⟨some, shared.trans shared', Std.TransCmp.isLE_trans before behind⟩

theorem isGe_iff : a.isGe b = true ↔ b.isLe a = true := by
  rw [isGe, isLe, compare_swap]
  cases b.compare a with
  | none => simp
  | some order => cases order <;> simp

theorem isLt_iff : a.isLt b = true ↔ a.isLe b = true ∧ b.isLe a = false := by
  have swap : b.compare a = (a.compare b).map Ordering.swap := compare_swap
  rw [isLt, isLe, isLe, swap]
  cases a.compare b with
  | none => simp
  | some order => cases order <;> simp

theorem isGt_iff : a.isGt b = true ↔ b.isLt a = true := by
  rw [isGt, isLt, compare_swap]
  cases b.compare a with
  | none => simp
  | some order => cases order <;> simp

theorem isGe_eq (a b : Scalar) : a.isGe b = b.isLe a := Bool.eq_iff_iff.mpr isGe_iff

theorem isGt_eq (a b : Scalar) : a.isGt b = b.isLt a := Bool.eq_iff_iff.mpr isGt_iff

theorem isLt_of_isLe_of_isLt (first : a.isLe b = true) (second : b.isLt c = true) : a.isLt c = true := by
  obtain ⟨onward, apart⟩ := isLt_iff.mp second
  refine isLt_iff.mpr ⟨isLe_trans first onward, ?_⟩
  by_contra back
  have reached : c.isLe b = true := isLe_trans (by simpa using back) first
  simp [apart] at reached

theorem isLt_of_isLt_of_isLe (first : a.isLt b = true) (second : b.isLe c = true) : a.isLt c = true := by
  obtain ⟨onward, apart⟩ := isLt_iff.mp first
  refine isLt_iff.mpr ⟨isLe_trans onward second, ?_⟩
  by_contra back
  have reached : b.isLe a = true := isLe_trans second (by simpa using back)
  simp [apart] at reached

theorem isLt_eq_false (order : a.isLe b = true) : b.isLt a = false := by
  by_contra back
  have apart := (isLt_iff.mp (by simpa using back)).2
  simp [order] at apart

theorem isGt_eq_false (order : a.isLe b = true) : a.isGt b = false := (isGt_eq a b).trans (isLt_eq_false order)

/-- What does not come before a value comes before none that is less. -/
theorem isLt_eq_false_of_less (less : a.isLe b = true) (apart : c.isLt b = false) : c.isLt a = false := by
  by_contra before
  have order : c.isLt b = true := isLt_of_isLt_of_isLe (by simpa using before) less
  rw [order] at apart
  cases apart

/-- What a value does not come before comes behind none that is greater. -/
theorem isLt_eq_false_of_greater (greater : a.isLe b = true) (apart : a.isLt c = false) : b.isLt c = false := by
  by_contra before
  have order : a.isLt c = true := isLt_of_isLe_of_isLt greater (by simpa using before)
  rw [order] at apart
  cases apart

theorem isLe_eq_false (order : a.isLt b = true) : b.isLe a = false := (isLt_iff.mp order).2

theorem isGe_eq_false (order : a.isLt b = true) : a.isGe b = false := (isGe_eq a b).trans (isLe_eq_false order)

/-- Values are equal if each comes no later than the other. -/
theorem eqv_iff_isLe : a.eqv b = true ↔ a.isLe b = true ∧ b.isLe a = true := by
  have swap : b.compare a = (a.compare b).map Ordering.swap := compare_swap
  rw [eqv_iff, isLe, isLe, swap]
  cases a.compare b with
  | none => simp
  | some order => cases order <;> simp

section Line

theorem isNull_of_line? (some : a.line?.isSome = true) : a.isNull = false := by
  cases a <;> first | rfl | cases some

/-- What comes behind a value that is not null is on its line. -/
theorem line?_of_isLe (known : a.isNull = false) (order : a.isLe b = true) :
    a.line?.isSome = true ∧ a.line? = b.line? := by
  rcases isLe_iff.mp order with rfl | ⟨some, shared, _⟩
  · cases known
  · exact ⟨some, shared⟩

theorem isNull_of_isLe (known : a.isNull = false) (order : a.isLe b = true) : b.isNull = false := by
  obtain ⟨some, shared⟩ := line?_of_isLe known order
  exact isNull_of_line? (shared ▸ some)

theorem isNull_of_before (order : a.isLe b = true) (null : b.isNull = true) : a.isNull = true := by
  by_contra known
  have some : b.isNull = false := isNull_of_isLe (by simpa using known) order
  rw [null] at some
  cases some

theorem isLe_refl (some : a.line?.isSome = true) : a.isLe a = true :=
  isLe_iff.mpr (.inr ⟨some, rfl, Std.ReflCmp.isLE_rfl⟩)

/-- On a line every value that does not come before another comes behind it. -/
theorem isLt_of_isLe_eq_false (some : a.line?.isSome = true) (shared : a.line? = b.line?)
    (apart : a.isLe b = false) : b.isLt a = true := by
  have behind : (Ord.compare a.place b.place).isLE ≠ true := fun before => by
    have order : a.isLe b = true := isLe_iff.mpr (.inr ⟨some, shared, before⟩)
    rw [order] at apart
    cases apart
  have before : (Ord.compare b.place a.place).isLE = true := by
    rw [Std.OrientedOrd.eq_swap]
    cases order : Ord.compare a.place b.place <;> simp_all
  exact isLt_iff.mpr ⟨isLe_iff.mpr (.inr ⟨shared ▸ some, shared.symm, before⟩), apart⟩

theorem isLe_of_isLt_eq_false (some : a.line?.isSome = true) (shared : a.line? = b.line?)
    (apart : b.isLt a = false) : a.isLe b = true := by
  by_contra behind
  have order : b.isLt a = true := isLt_of_isLe_eq_false some shared (by simpa using behind)
  rw [order] at apart
  cases apart

end Line

end Scalar

end Columnar
