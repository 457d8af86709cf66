import Columnar.Proofs.PageImages

namespace Columnar

namespace Bytes

/-- Two byte strings of one length that differ at a single place, in whatever bits. -/
def OneApart (a b : Bytes) : Prop := a.length = b.length ∧ ∃! place : Nat, a[place]? ≠ b[place]?

variable {a b front back : Bytes}

theorem getElem?_eq_of_ne {place other : Nat} (only : ∀ other : Nat, a[other]? ≠ b[other]? → other = place)
    (apart : other ≠ place) : a[other]? = b[other]? := by
  by_contra also
  exact apart (only other also)

theorem OneApart.exists_parts (apart : OneApart a b) :
    ∃ front x y back, x ≠ y ∧ a = front ++ x :: back ∧ b = front ++ y :: back := by
  obtain ⟨length, place, differs, only⟩ := apart
  have inside : place < a.length := by
    by_contra beyond
    exact differs (by rw [List.getElem?_eq_none (by omega), List.getElem?_eq_none (by omega)])
  have inside' : place < b.length := by omega
  have fronts : a.take place = b.take place := by
    refine List.ext_getElem? fun other => ?_
    rw [List.getElem?_take, List.getElem?_take]
    split
    next before => exact getElem?_eq_of_ne only (Nat.ne_of_lt before)
    next => rfl
  have backs : a.drop (place + 1) = b.drop (place + 1) := by
    refine List.ext_getElem? fun other => ?_
    rw [List.getElem?_drop, List.getElem?_drop]
    exact getElem?_eq_of_ne only (by omega)
  refine ⟨a.take place, a[place], b[place], a.drop (place + 1), ?_, ?_, ?_⟩
  · intro equal
    exact differs (by rw [List.getElem?_eq_getElem inside, List.getElem?_eq_getElem inside', equal])
  · rw [← List.drop_eq_getElem_cons inside, List.take_append_drop]
  · rw [fronts, backs, ← List.drop_eq_getElem_cons inside', List.take_append_drop]

theorem oneApart_of_ne (front : Bytes) {x y : UInt8} (differ : x ≠ y) (back : Bytes) :
    OneApart (front ++ x :: back) (front ++ y :: back) := by
  refine ⟨by simp, front.length, ?_, fun place apart => ?_⟩
  · simpa using differ
  · by_contra elsewhere
    refine apart ?_
    rcases Nat.lt_or_gt_of_ne elsewhere with before | behind
    · rw [List.getElem?_append_left before, List.getElem?_append_left before]
    · obtain ⟨more, rfl⟩ := Nat.exists_eq_add_of_lt behind
      rw [List.getElem?_append_right (by omega), List.getElem?_append_right (by omega)]
      have ahead : front.length + more + 1 - front.length = more + 1 := by omega
      rw [ahead, List.getElem?_cons_succ, List.getElem?_cons_succ]

theorem OneApart.ne (apart : OneApart a b) : a ≠ b := by
  rintro rfl
  obtain ⟨_, place, differs, _⟩ := apart
  exact differs rfl

/-- What differs from two pieces in a single place differs from one of them, and is the other one beside it. -/
theorem OneApart.split (apart : OneApart a (front ++ back)) :
    (∃ front', a = front' ++ back ∧ OneApart front' front) ∨ ∃ back', a = front ++ back' ∧ OneApart back' back := by
  obtain ⟨ahead, x, y, behind, differ, rfl, whole⟩ := apart.exists_parts
  rcases List.append_eq_append_iff.mp whole with ⟨before, rfl, rfl⟩ | ⟨between, rfl, rest⟩
  · exact .inr ⟨before ++ x :: behind, by rw [List.append_assoc], oneApart_of_ne before differ behind⟩
  · cases between with
    | nil =>
      obtain rfl : y :: behind = back := rest
      exact .inr ⟨x :: behind, by rw [List.append_nil], oneApart_of_ne [] differ behind⟩
    | cons first between =>
      obtain ⟨rfl, rfl⟩ : y = first ∧ behind = between ++ back := List.cons.inj rest
      exact .inl ⟨ahead ++ x :: between, by rw [List.append_assoc, List.cons_append],
        oneApart_of_ne ahead differ between⟩

end Bytes

namespace Page

-- the nine digits from 1 on have the value by which this check is told from others
example : checksum [0x31, 0x32, 0x33, 0x34, 0x35, 0x36, 0x37, 0x38, 0x39] = 0xCBF43926 := by cbv

/-- The bit that is shifted out shows at the other end of the register, so nothing of the register is lost. -/
theorem checksumBit_injective : Function.Injective checksumBit := by
  intro a b same
  have shown (register : BitVec 32) : (checksumBit register).getLsbD 31 = register.getLsbD 0 := by
    unfold checksumBit
    split
    next out => rw [out, BitVec.getLsbD_xor, BitVec.getLsbD_ushiftRight, BitVec.getLsbD_of_ge _ _ (by decide)]; rfl
    next kept =>
      rw [Bool.eq_false_of_not_eq_true kept, BitVec.getLsbD_ushiftRight, BitVec.getLsbD_of_ge _ _ (by decide)]
  have low : a.getLsbD 0 = b.getLsbD 0 := by rw [← shown a, ← shown b, same]
  have shifted : a >>> 1 = b >>> 1 := by
    unfold checksumBit at same
    rw [low] at same
    split at same
    · exact (BitVec.xor_left_inj _).mp same
    · exact same
  refine BitVec.eq_of_getLsbD_eq fun bit _ => ?_
  cases bit with
  | zero => exact low
  | succ bit =>
    have higher := congrArg (fun register => register.getLsbD bit) shifted
    simpa only [BitVec.getLsbD_ushiftRight, Nat.add_comm 1] using higher

theorem checksumBits_injective (count : Nat) : Function.Injective (checksumBits count) := by
  induction count with
  | zero => exact fun _ _ same => same
  | succ count ih => exact fun _ _ same => checksumBit_injective (ih same)

/-- Registers that differ go on to differ whatever byte they take in. -/
theorem checksumByte_injective (byte : UInt8) : Function.Injective fun register => checksumByte register byte :=
  fun _ _ same => (BitVec.xor_left_inj _).mp (checksumBits_injective 8 same)

theorem checksumByte_ne (register : BitVec 32) {x y : UInt8} (differ : x ≠ y) :
    checksumByte register x ≠ checksumByte register y := by
  intro same
  have wide := (BitVec.xor_right_inj _).mp (checksumBits_injective 8 same)
  refine differ (UInt8.toBitVec_inj.mp (BitVec.eq_of_toNat_eq ?_))
  have value := congrArg BitVec.toNat wide
  rwa [BitVec.toNat_setWidth_of_le (by decide), BitVec.toNat_setWidth_of_le (by decide)] at value

theorem foldl_checksumByte_injective (bytes : Bytes) :
    Function.Injective fun register => bytes.foldl checksumByte register := by
  induction bytes with
  | nil => exact fun _ _ same => same
  | cons byte rest ih => exact fun _ _ same => checksumByte_injective byte (ih same)

theorem checksum_ne {a b : Bytes} (apart : a.OneApart b) : checksum a ≠ checksum b := by
  obtain ⟨front, x, y, back, differ, rfl, rfl⟩ := apart.exists_parts
  intro same
  have registers := (BitVec.xor_left_inj _).mp (BitVec.eq_of_toNat_eq same)
  rw [List.foldl_append, List.foldl_append, List.foldl_cons, List.foldl_cons] at registers
  exact checksumByte_ne _ differ (foldl_checksumByte_injective back registers)

theorem summed_append_iff {covered sum : Bytes} (length : sum.length = 4) :
    Summed (covered ++ sum) ↔ Bytes.toNat sum = checksum covered := by
  have front : (covered ++ sum).length - 4 = covered.length :=
    by rw [List.length_append, length, Nat.add_sub_cancel]
  rw [Summed, front, List.drop_left, List.take_left]

/-- Wherever the damage is, in what the checksum covers or in the checksum itself, the two do not fit any more. -/
theorem not_summed_of_oneApart {page : Page} {stored : Bytes} (damaged : stored.OneApart page.write) :
    ¬Summed stored := by
  have length : (Bytes.ofNat 4 (checksum page.covered)).length = 4 := Bytes.length_ofNat ..
  have value : Bytes.toNat (Bytes.ofNat 4 (checksum page.covered)) = checksum page.covered := by
    rw [Bytes.toNat_ofNat, Nat.mod_eq_of_lt (checksum_lt _)]
  rcases damaged.split with ⟨covered, rfl, apart⟩ | ⟨sum, rfl, apart⟩
  · rw [summed_append_iff length, value]
    exact (checksum_ne apart).symm
  · rw [summed_append_iff (apart.1.trans length)]
    intro same
    refine apart.ne ?_
    rw [← same, ← length, ← apart.1, Bytes.ofNat_toNat]

/-- With a wrong checksum nothing else that is stored is looked at. -/
theorem read_unsummed {stored : Bytes} (enough : trailerSize ≤ stored.length) (wrong : ¬Summed stored)
    (kind : PageKind) (offset : Nat) : read true kind offset stored = .error (sumMismatch offset stored) := by
  unfold read
  dsimp only
  rw [if_neg (Nat.not_lt.mpr enough)]
  have refused : (true && decide (Bytes.toNat (stored.drop (stored.length - 4)) ≠
      checksum (stored.take (stored.length - 4)))) = true := by
    rw [Bool.true_and]
    exact decide_eq_true wrong
  exact if_pos refused

theorem trailerSize_le_write (page : Page) : trailerSize ≤ page.write.length := by
  simp only [write, covered, List.length_append, Bytes.length_ofNat, trailerSize]
  omega

end Page

namespace PageStore

/-- A page of which one byte has changed, in the body, the footer, its length or the checksum, is refused for its
checksum where that is checked, whatever page was asked for. -/
theorem damagedByte_refused (store : PageStore) (plain : store.kind = .plain) (page : Page) (options : ReadOptions)
    (extent : Extent) (codec : options.codec = .none) (verified : options.verifyChecksum = true)
    (within : extent.offset + extent.size ≤ store.image.length)
    (damaged : (storedAt store.image extent).OneApart page.write) :
    outcome options extent store = .error (Page.sumMismatch extent.offset (storedAt store.image extent)) ∧
      (Page.sumMismatch extent.offset (storedAt store.image extent)).isCorruption = true := by
  refine ⟨?_, rfl⟩
  have enough : Page.trailerSize ≤ (storedAt store.image extent).length := by
    rw [damaged.1]
    exact page.trailerSize_le_write
  have refused := Page.read_unsummed enough (Page.not_summed_of_oneApart damaged) options.kind extent.offset
  rw [outcome_plain plain, pageAt, codec, verified]
  dsimp only
  rw [if_neg (not_not.mpr rfl), if_neg (Nat.not_lt.mpr within)]
  exact refused

/-- The small page with a changed byte in its body. -/
def damagedImage : Bytes := [7] ++ ([1, 253] ++ smallPage.write.drop 2) ++ [9, 9]

theorem damagedByte_refused_small :
    (storedAt damagedImage ⟨1, 15⟩).OneApart smallPage.write ∧
      outcome { kind := .index } ⟨1, 15⟩ { image := damagedImage } =
        .error (Page.sumMismatch 1 (storedAt damagedImage ⟨1, 15⟩)) := by
  have damaged : (storedAt damagedImage ⟨1, 15⟩).OneApart smallPage.write :=
    Bytes.oneApart_of_ne [1] (by decide) (smallPage.write.drop 2)
  exact ⟨damaged, (damagedByte_refused { image := damagedImage } rfl smallPage { kind := .index } ⟨1, 15⟩ rfl rfl
    (by decide) damaged).1⟩

end PageStore

end Columnar
