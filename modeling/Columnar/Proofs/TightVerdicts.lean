import Columnar.Proofs.ZoneVerdicts

namespace Columnar

/-- The operators that compare with operands. -/
def CompareOp.Compares (op : CompareOp) : Prop := op ≠ .isNull ∧ op ≠ .isNotNull

/-- The operands that a comparison looks at: all of a list, or the first. -/
def CompareOp.consulted (op : CompareOp) (operands : List Scalar) : List Scalar :=
  if op = .oneOf then operands else operands.take 1

namespace Predicate

variable {op : CompareOp} {operands : List Scalar} {min max operand : Scalar}

/-- Bounds that may hold an operand of their line have it between them. -/
theorem between_of_mayContain (some : min.line?.isSome = true) (shared : min.line? = max.line?)
    (alike : operand.line? = min.line?) (may : mayContain min max operand = true) :
    min.isLe operand = true ∧ operand.isLe max = true := by
  have known : min.isNull = false := Scalar.isNull_of_line? some
  simp only [mayContain, known, Scalar.isGt_eq, Bool.false_or, Bool.and_eq_true, Bool.not_eq_true'] at may
  obtain ⟨⟨_, low⟩, high⟩ := may
  exact ⟨Scalar.isLe_of_isLt_eq_false some alike.symm low,
    Scalar.isLe_of_isLt_eq_false (alike ▸ some) (alike.trans shared) high⟩

/-- Where bounds on the operand's line do not rule a comparison out, one of them or the operand fulfils it. -/
theorem exists_relates_of_compareMayMatch (some : min.line?.isSome = true) (order : min.isLe max = true)
    (alike : operand.line? = min.line?) (compares : op.Compares) (single : op ≠ .oneOf)
    (may : compareMayMatch op min max operand = true) :
    ∃ value ∈ [min, max, operand], min.isLe value = true ∧ value.isLe max = true ∧
      op.relates value operand = true := by
  have known : min.isNull = false := Scalar.isNull_of_line? some
  have shared : min.line? = max.line? := (Scalar.line?_of_isLe known order).2
  have low : min.isLe min = true := Scalar.isLe_refl some
  have high : max.isLe max = true := Scalar.isLe_refl (shared ▸ some)
  have some' : operand.line?.isSome = true := alike ▸ some
  have alike' : operand.line? = max.line? := alike.trans shared
  cases op with
  | eq =>
    obtain ⟨above, below⟩ := between_of_mayContain some shared alike may
    have same : operand.isLe operand = true := Scalar.isLe_refl some'
    exact ⟨operand, by simp, above, below, Scalar.eqv_iff_isLe.mpr ⟨same, same⟩⟩
  | ne =>
    have apart : min.eqv operand = false ∨ max.eqv operand = false := by
      by_contra both
      simp_all [compareMayMatch]
    rcases apart with least | most
    · exact ⟨min, by simp, low, order, by simp [CompareOp.relates, least]⟩
    · exact ⟨max, by simp, order, high, by simp [CompareOp.relates, most]⟩
  | lt =>
    have behind : operand.isLe min = false := by simpa [compareMayMatch, known, Scalar.isGe_eq] using may
    exact ⟨min, by simp, low, order, Scalar.isLt_of_isLe_eq_false some' alike behind⟩
  | le =>
    have behind : operand.isLt min = false := by simpa [compareMayMatch, known, Scalar.isGt_eq] using may
    exact ⟨min, by simp, low, order, Scalar.isLe_of_isLt_eq_false some alike.symm behind⟩
  | gt =>
    have before : max.isLe operand = false := by simpa [compareMayMatch] using may
    have above : operand.isLt max = true := Scalar.isLt_of_isLe_eq_false (shared ▸ some) alike'.symm before
    exact ⟨max, by simp, order, high, Scalar.isGt_iff.mpr above⟩
  | ge =>
    have before : max.isLt operand = false := by simpa [compareMayMatch] using may
    have above : operand.isLe max = true := Scalar.isLe_of_isLt_eq_false some' alike' before
    exact ⟨max, by simp, order, high, Scalar.isGe_iff.mpr above⟩
  | oneOf => exact absurd rfl single
  | isNull => exact absurd rfl compares.1
  | isNotNull => exact absurd rfl compares.2

/-- Where bounds on the line of what a comparison consults do not rule it out, one of them or of the operands
fulfils it. -/
theorem exists_fulfils_of_mayMatch (some : min.line?.isSome = true) (order : min.isLe max = true)
    (alike : ∀ operand ∈ op.consulted operands, operand.line? = min.line?) (compares : op.Compares)
    (given : op = .oneOf ∨ operands ≠ []) (may : (comparison op operands).mayMatch min max = true) :
    ∃ value ∈ min :: max :: operands, min.isLe value = true ∧ value.isLe max = true ∧
      fulfils op operands value = true := by
  have known : min.isNull = false := Scalar.isNull_of_line? some
  have shared : min.line? = max.line? := (Scalar.line?_of_isLe known order).2
  have most : max.isNull = false := Scalar.isNull_of_isLe known order
  by_cases list : op = .oneOf
  · subst list
    obtain ⟨operand, member, holds⟩ : ∃ operand ∈ operands, mayContain min max operand = true := by
      simpa [mayMatch, comparisonMayMatch, most] using may
    have alike' : operand.line? = min.line? := alike operand (by simpa [CompareOp.consulted] using member)
    have valued : operand.isNull = false := Scalar.isNull_of_line? (alike' ▸ some)
    have same : operand.isLe operand = true := Scalar.isLe_refl (alike' ▸ some)
    obtain ⟨low, high⟩ := between_of_mayContain some shared alike' holds
    have equal : operand.eqv operand = true := Scalar.eqv_iff_isLe.mpr ⟨same, same⟩
    refine ⟨operand, by simp [member], low, high, ?_⟩
    simp only [fulfils, valued, Bool.not_false, Bool.true_and, List.any_eq_true, Bool.and_eq_true,
      Bool.not_eq_true']
    exact ⟨operand, member, valued, equal⟩
  · cases operands with
    | nil => exact absurd rfl (given.resolve_left list)
    | cons operand rest =>
      have alike' : operand.line? = min.line? := alike operand (by simp [CompareOp.consulted, list])
      have valued : operand.isNull = false := Scalar.isNull_of_line? (alike' ▸ some)
      have holds : compareMayMatch op min max operand = true := by
        cases op <;> simp_all [mayMatch, comparisonMayMatch, compareMayMatch]
      obtain ⟨value, member, low, high, relates⟩ :=
        exists_relates_of_compareMayMatch some order alike' compares list holds
      have some' : value.isNull = false := Scalar.isNull_of_isLe known low
      refine ⟨value, ?_, low, high, ?_⟩
      · simp only [List.mem_cons, List.not_mem_nil, or_false] at member ⊢
        tauto
      · cases op with
        | oneOf => exact absurd rfl list
        | isNull => exact absurd rfl compares.1
        | isNotNull => exact absurd rfl compares.2
        | _ => simp [fulfils, some', valued, relates]

/-- Between bounds that are not null and operands on their line, a comparison is ruled out exactly if no value
between the bounds fulfils it. If it is not, already one of the bounds or of the operands does. -/
theorem mayMatch_iff_exists_between (compares : op.Compares) (given : op = .oneOf ∨ operands ≠ [])
    (known : min.isNull = false) (order : min.isLe max = true)
    (alike : ∀ operand ∈ op.consulted operands, operand.line? = min.line?) :
    ((comparison op operands).mayMatch min max = true ↔ ∃ value, value.line? = min.line? ∧
        min.isLe value = true ∧ value.isLe max = true ∧ fulfils op operands value = true) ∧
      ((comparison op operands).mayMatch min max = true → ∃ value ∈ min :: max :: operands,
        min.isLe value = true ∧ value.isLe max = true ∧ fulfils op operands value = true) := by
  have some : min.line?.isSome = true := (Scalar.line?_of_isLe known order).1
  have reached (may : (comparison op operands).mayMatch min max = true) :=
    exists_fulfils_of_mayMatch some order alike compares given may
  refine ⟨⟨fun may => ?_, ?_⟩, reached⟩
  · obtain ⟨value, _, low, high, meets⟩ := reached may
    exact ⟨value, (Scalar.line?_of_isLe known low).2.symm, low, high, meets⟩
  · rintro ⟨value, shared, low, high, meets⟩
    have known' : value.isNull = false := Scalar.isNull_of_line? (shared ▸ some)
    exact comparisonMayMatch_of_between (by simp [known']) (fun _ => ⟨low, high⟩) meets

/-- Of two operands the first counts, and it lies between texts of which one begins the other. -/
theorem mayMatch_iff_exists_between_texts :
    (comparison .gt [.bytes [97, 97], .null]).mayMatch (.bytes [97]) (.bytes [97, 98]) = true ∧
      ∃ value ∈ [.bytes [97], .bytes [97, 98], .bytes [97, 97], .null],
        Scalar.isLe (.bytes [97]) value = true ∧ value.isLe (.bytes [97, 98]) = true ∧
          fulfils .gt [.bytes [97, 97], .null] value = true :=
  have may : (comparison .gt [.bytes [97, 97], .null]).mayMatch (.bytes [97]) (.bytes [97, 98]) = true := by decide
  have alike : ∀ operand ∈ CompareOp.gt.consulted [.bytes [97, 97], .null],
      operand.line? = (Scalar.bytes [97]).line? := by
    decide
  ⟨may, (mayMatch_iff_exists_between ⟨by decide, by decide⟩ (.inr (by decide)) (by decide) (by decide) alike).2 may⟩

end Predicate

end Columnar
