import Mathlib
import Columnar.Proofs.CursorReads
import Columnar.Proofs.PageCache

namespace Columnar

open Columnar.Action

namespace Footer

/-- The numbers of a footer have room where they are stored. -/
def Fits : Footer → Prop
  | data footer => footer.firstOrdinal < 256 ^ 8 ∧ footer.rows < 256 ^ 4 ∧ footer.nullMapSize < 256 ^ 4 ∧
      footer.firstItem < 256 ^ 8
  | index entries => entries < 256 ^ 4
  | dictionary words encoding => words < 256 ^ 4 ∧ encoding < 256

theorem length_write_lt (footer : Footer) : footer.write.length < 256 ^ 4 := by
  cases footer <;> simp [write]

theorem readFields_write {footer : Footer} (fits : footer.Fits) (position : Nat) (rest : Bytes) :
    ∃ place, readFields ⟨position, footer.write ++ rest⟩ = .ok (footer, ⟨place, rest⟩) := by
  have tag (n : Nat) (b : UInt8) (byte : UInt8.ofNat n = b) (small : n < 256 ^ 1) (rest : Bytes) :
      Read.natural 1 ⟨position, b :: rest⟩ = .ok (n, ⟨position + 1, rest⟩) :=
    byte ▸ Read.natural_written small position rest
  unfold readFields
  cases footer with
  | data footer =>
    obtain ⟨first, rows, nulls, item⟩ := fits
    simp only [write, List.cons_append, List.append_assoc]
    refine ⟨position + 1 + 8 + 4 + 4 + 8, ?_⟩
    refine (Read.bind_of_ok (tag 1 1 rfl (by decide) _) _).trans ?_
    refine (Read.bind_of_ok (Read.natural_written first _ _) _).trans ?_
    refine (Read.bind_of_ok (Read.natural_written rows _ _) _).trans ?_
    refine (Read.bind_of_ok (Read.natural_written nulls _ _) _).trans ?_
    refine (Read.bind_of_ok (Read.natural_written item _ _) _).trans ?_
    simp only [DataFooter.ofStored, Nat.mod_eq_of_lt footer.rows_lt]
    rfl
  | index entries =>
    simp only [write, List.cons_append]
    refine ⟨position + 1 + 4, ?_⟩
    refine (Read.bind_of_ok (tag 2 2 rfl (by decide) _) _).trans ?_
    exact Read.bind_of_ok (Read.natural_written fits _ _) _
  | dictionary words encoding =>
    obtain ⟨words, encoding⟩ := fits
    simp only [write, List.cons_append, List.append_assoc]
    refine ⟨position + 1 + 4 + 1, ?_⟩
    refine (Read.bind_of_ok (tag 3 3 rfl (by decide) _) _).trans ?_
    refine (Read.bind_of_ok (Read.natural_written words _ _) _).trans ?_
    exact Read.bind_of_ok (Read.natural_written encoding _ _) _

/-- Fields that are read are those of a footer that is stored there. -/
theorem readFields_ok {footer : Footer} {cursor after : Cursor} (read : readFields cursor = .ok (footer, after)) :
    footer.Fits ∧ cursor.rest = footer.write ++ after.rest := by
  unfold readFields at read
  obtain ⟨tag, _, tagged, read⟩ := Read.bind_eq_ok_iff.mp read
  obtain ⟨_, ahead, _⟩ := Read.natural_eq_ok_iff.mp tagged
  rw [ahead]
  split at read
  next =>
    obtain ⟨first, _, firstRead, read⟩ := Read.bind_eq_ok_iff.mp read
    obtain ⟨rows, _, rowsRead, read⟩ := Read.bind_eq_ok_iff.mp read
    obtain ⟨nulls, _, nullsRead, read⟩ := Read.bind_eq_ok_iff.mp read
    obtain ⟨item, _, itemRead, read⟩ := Read.bind_eq_ok_iff.mp read
    obtain ⟨rfl, rfl⟩ := Read.pure_eq_ok_iff.mp read
    obtain ⟨firstFits, firstAhead, _⟩ := Read.natural_eq_ok_iff.mp firstRead
    obtain ⟨rowsFit, rowsAhead, _⟩ := Read.natural_eq_ok_iff.mp rowsRead
    obtain ⟨nullsFit, nullsAhead, _⟩ := Read.natural_eq_ok_iff.mp nullsRead
    obtain ⟨itemFits, itemAhead, _⟩ := Read.natural_eq_ok_iff.mp itemRead
    have rowsLt : rows < 2 ^ 32 := rowsFit
    simp only [DataFooter.ofStored, Nat.mod_eq_of_lt rowsLt]
    refine ⟨⟨firstFits, rowsFit, nullsFit, itemFits⟩, ?_⟩
    rw [firstAhead, rowsAhead, nullsAhead, itemAhead]
    simp [write, Bytes.ofNat]
  next =>
    obtain ⟨entries, _, entriesRead, read⟩ := Read.bind_eq_ok_iff.mp read
    obtain ⟨rfl, rfl⟩ := Read.pure_eq_ok_iff.mp read
    obtain ⟨entriesFit, entriesAhead, _⟩ := Read.natural_eq_ok_iff.mp entriesRead
    refine ⟨entriesFit, ?_⟩
    rw [entriesAhead]
    simp [write, Bytes.ofNat]
  next =>
    obtain ⟨words, _, wordsRead, read⟩ := Read.bind_eq_ok_iff.mp read
    obtain ⟨encoding, _, encodingRead, read⟩ := Read.bind_eq_ok_iff.mp read
    obtain ⟨rfl, rfl⟩ := Read.pure_eq_ok_iff.mp read
    obtain ⟨wordsFit, wordsAhead, _⟩ := Read.natural_eq_ok_iff.mp wordsRead
    obtain ⟨encodingFits, encodingAhead, _⟩ := Read.natural_eq_ok_iff.mp encodingRead
    refine ⟨⟨wordsFit, encodingFits⟩, ?_⟩
    rw [wordsAhead, encodingAhead]
    simp [write, Bytes.ofNat]
  next => cases read

/-- A footer is read exactly from what is written of it. -/
theorem read_eq_ok_iff {footer : Footer} {stored : Bytes} : read stored = .ok footer ↔ footer.Fits ∧
    footer.write = stored := by
  constructor
  · intro parsed
    obtain ⟨⟨found, after⟩, fields, parsed⟩ := bind_eq_ok parsed
    dsimp only at parsed
    split at parsed
    next none =>
      cases parsed
      obtain ⟨fits, ahead⟩ := readFields_ok fields
      rw [List.isEmpty_iff.mp none, List.append_nil] at ahead
      exact ⟨fits, ahead.symm⟩
    next => cases parsed
  · rintro ⟨fits, rfl⟩
    obtain ⟨place, fields⟩ := readFields_write fits 0 []
    rw [List.append_nil] at fields
    rw [read, Read.start, fields]
    rfl

end Footer

namespace Page

theorem checksum_lt (bytes : Bytes) : checksum bytes < 256 ^ 4 := BitVec.isLt _

/-- A page in its parts: body, footer, length of the footer, checksum. -/
theorem read_parts (body : Bytes) {fields size sum : Bytes} (sized : size.length = 4) (summed : sum.length = 4)
    (measured : Bytes.toNat size = fields.length) (verify : Bool) (kind : PageKind) (offset : Nat) :
    read verify kind offset (body ++ fields ++ size ++ sum) =
      if verify && Bytes.toNat sum ≠ checksum (body ++ fields ++ size) then
        .error (.checksumMismatch offset (Bytes.toNat sum) (checksum (body ++ fields ++ size)))
      else Footer.read fields >>= fun footer =>
        if footer.kind ≠ kind then .error (.wrongPageKind kind offset footer.kind) else .ok ⟨body, footer⟩ := by
  have total : (body ++ fields ++ size ++ sum).length = body.length + fields.length + 8 := by
    simp only [List.length_append, sized, summed]
  have covered : body.length + fields.length + 8 - 4 = (body ++ fields ++ size).length := by
    simp only [List.length_append, sized]
    omega
  have footed : body.length + fields.length + 8 - 8 = (body ++ fields).length := by
    rw [List.length_append]
    omega
  have started : (body ++ fields).length - fields.length = body.length := by
    rw [List.length_append]
    omega
  have fits : ¬(body ++ fields).length < fields.length := by
    rw [List.length_append]
    omega
  have sizes : ((body ++ fields ++ size ++ sum).drop (body ++ fields).length).take 4 = size := by
    rw [List.append_assoc _ size, List.drop_left, ← sized, List.take_left]
  have front : (body ++ fields ++ size ++ sum).take (body ++ fields).length = body ++ fields := by
    rw [List.append_assoc _ size, List.take_left]
  have bodies : (body ++ fields ++ size ++ sum).take body.length = body := by
    rw [List.append_assoc, List.append_assoc, List.take_left]
  unfold read
  rw [total, covered]
  simp only [trailerSize, footed, List.take_left, List.drop_left, sizes, front, measured, started, bodies,
    fits, if_false]
  rw [if_neg (Nat.not_lt.mpr (Nat.le_add_left 8 _))]
  split
  · rfl
  · refine congrArg (Footer.read fields >>= ·) (funext fun footer => ?_)
    split <;> rfl

/-- What a page is read from falls into its parts. -/
theorem parts_of_read {verify : Bool} {kind : PageKind} {offset : Nat} {stored : Bytes} {page : Page}
    (parsed : read verify kind offset stored = .ok page) :
    ∃ body fields size sum, stored = body ++ fields ++ size ++ sum ∧ size.length = 4 ∧ sum.length = 4 ∧
      Bytes.toNat size = fields.length := by
  unfold read at parsed
  dsimp only at parsed
  split at parsed
  next => cases parsed
  next long =>
    split at parsed
    next => cases parsed
    next =>
      split at parsed
      next => cases parsed
      next room =>
        unfold trailerSize at long room
        generalize measure : Bytes.toNat ((stored.drop (stored.length - 8)).take 4) = length at room
        refine ⟨stored.take (stored.length - 8 - length),
          (stored.take (stored.length - 8)).drop (stored.length - 8 - length),
            (stored.drop (stored.length - 8)).take 4, stored.drop (stored.length - 4), ?_, ?_, ?_, ?_⟩
        · have whole : stored.length - 4 = stored.length - 8 + 4 := by omega
          have front : stored.take (stored.length - 8 - length) =
              (stored.take (stored.length - 8)).take (stored.length - 8 - length) := by
            rw [List.take_take, Nat.min_eq_left (Nat.sub_le _ _)]
          rw [front, List.take_append_drop, whole, ← List.drop_drop, List.append_assoc, List.take_append_drop,
            List.take_append_drop]
        · rw [List.length_take, List.length_drop]
          omega
        · rw [List.length_drop]
          omega
        · rw [measure, List.length_drop, List.length_take]
          omega

/-- A page is read from its stored form, where the checksum counts only if it is checked, and from nothing else. -/
theorem read_eq_ok_iff {verify : Bool} {kind : PageKind} {offset : Nat} {stored : Bytes} {page : Page} :
    read verify kind offset stored = .ok page ↔ page.footer.Fits ∧ page.footer.kind = kind ∧
      ∃ sum, sum.length = 4 ∧ stored = page.covered ++ sum ∧
        (verify = true → Bytes.toNat sum = checksum page.covered) := by
  constructor
  · intro parsed
    obtain ⟨body, fields, size, sum, rfl, sized, summed, measured⟩ := parts_of_read parsed
    rw [read_parts body sized summed measured] at parsed
    split at parsed
    next => cases parsed
    next sound =>
      obtain ⟨footer, found, parsed⟩ := bind_eq_ok parsed
      split at parsed
      next => cases parsed
      next same =>
        cases parsed
        obtain ⟨fits, rfl⟩ := Footer.read_eq_ok_iff.mp found
        have covered : (⟨body, footer⟩ : Page).covered = body ++ footer.write ++ size := by
          rw [Page.covered, ← measured, ← sized, Bytes.ofNat_toNat]
        refine ⟨fits, Decidable.not_not.mp same, sum, summed, by rw [covered], fun asked => ?_⟩
        rw [covered]
        simpa [asked] using sound
  · rintro ⟨fits, rfl, sum, summed, rfl, sound⟩
    have measured : Bytes.toNat (Bytes.ofNat 4 page.footer.write.length) = page.footer.write.length := by
      rw [Bytes.toNat_ofNat, Nat.mod_eq_of_lt page.footer.length_write_lt]
    have accepted : (verify && decide (Bytes.toNat sum ≠ checksum page.covered)) = false := by
      cases verify with
      | false => rfl
      | true => simp [sound rfl]
    have whole := read_parts page.body (Bytes.length_ofNat 4 page.footer.write.length) summed measured verify
      page.footer.kind offset
    rw [covered, whole, ← covered, accepted, if_neg Bool.false_ne_true, Footer.read_eq_ok_iff.mpr ⟨fits, rfl⟩]
    exact if_neg (not_not.mpr rfl)

theorem write_of_sum {page : Page} {sum : Bytes} (summed : sum.length = 4)
    (sound : Bytes.toNat sum = checksum page.covered) : page.covered ++ sum = page.write := by
  rw [write, ← sound, ← summed, Bytes.ofNat_toNat]

end Page

namespace PageStore

variable {store : PageStore} {options : ReadOptions} {extent : Extent} {page : Page}

theorem pageAt_eq_ok_iff {image : Bytes} : pageAt image options extent = .ok page ↔ options.codec = .none ∧
    extent.offset + extent.size ≤ image.length ∧
      Page.read options.verifyChecksum options.kind extent.offset (storedAt image extent) = .ok page := by
  unfold pageAt
  dsimp only
  split
  next coded => exact ⟨nofun, fun parts => absurd parts.1 coded⟩
  next plain =>
    split
    next beyond => exact ⟨nofun, fun parts => absurd parts.2.1 (Nat.not_le.mpr beyond)⟩
    next within => exact ⟨fun read => ⟨not_not.mp plain, Nat.not_lt.mp within, read⟩, fun parts => parts.2.2⟩

theorem outcome_plain (plain : store.kind = .plain) (options : ReadOptions) (extent : Extent) :
    outcome options extent store = pageAt store.image options extent := by
  rw [outcome, run_plain plain]

theorem storedAt_between (before stored after : Bytes) :
    storedAt (before ++ stored ++ after) ⟨before.length, stored.length⟩ = stored := by
  rw [storedAt, List.append_assoc, List.drop_left, List.take_left]

theorem pageAt_written (fits : page.footer.Fits) (plain : options.codec = .none)
    (asked : options.kind = page.footer.kind) (before after : Bytes) :
    pageAt (before ++ page.write ++ after) options ⟨before.length, page.write.length⟩ = .ok page := by
  rw [pageAt_eq_ok_iff, storedAt_between, Page.read_eq_ok_iff]
  refine ⟨plain, ?_, fits, asked.symm, Bytes.ofNat 4 (Page.checksum page.covered), Bytes.length_ofNat _ _, rfl,
    fun _ => ?_⟩
  · simp only [List.length_append]
    omega
  · rw [Bytes.toNat_ofNat, Nat.mod_eq_of_lt (Page.checksum_lt _)]

theorem written_of_pageAt {image : Bytes} (verified : options.verifyChecksum = true)
    (read : pageAt image options extent = .ok page) :
    extent.offset + extent.size ≤ image.length ∧ storedAt image extent = page.write ∧
    page.footer.kind = options.kind := by
  obtain ⟨_, within, read⟩ := pageAt_eq_ok_iff.mp read
  obtain ⟨_, kind, sum, summed, stored, sound⟩ := Page.read_eq_ok_iff.mp read
  exact ⟨within, by rw [stored, Page.write_of_sum summed (sound verified)], kind⟩

/-- A page is read back from where it has been written, with or without a check of its checksum. With the check
nothing else is read, and the footer is the only one that is written as it is stored. -/
theorem reads_exactly_written (store : PageStore) (plain : store.kind = .plain) :
    (∀ (page : Page) (before after : Bytes) (options : ReadOptions), store.image = before ++ page.write ++ after →
      page.footer.Fits → options.codec = .none → options.kind = page.footer.kind →
      outcome options ⟨before.length, page.write.length⟩ store = .ok page) ∧
    (∀ (options : ReadOptions) (extent : Extent) (page : Page), options.verifyChecksum = true →
      outcome options extent store = .ok page →
      extent.offset + extent.size ≤ store.image.length ∧ storedAt store.image extent = page.write ∧
        page.footer.kind = options.kind) ∧
    ∀ (stored : Bytes) (footer : Footer), Footer.read stored = .ok footer ↔ footer.Fits ∧
      footer.write = stored := by
  refine ⟨?_, ?_, fun _ _ => Footer.read_eq_ok_iff⟩
  · intro page before after options image fits codec asked
    rw [outcome_plain plain, image]
    exact pageAt_written fits codec asked before after
  · intro options extent page verified read
    rw [outcome_plain plain] at read
    exact written_of_pageAt verified read

/-- An index page of two bytes that says it has five entries. -/
def smallPage : Page := ⟨[1, 2], .index 5⟩

def smallImage : Bytes := [7] ++ smallPage.write ++ [9, 9]

theorem reads_exactly_written_small :
    outcome { kind := .index } ⟨1, 15⟩ { image := smallImage } = .ok smallPage ∧
      storedAt smallImage ⟨1, 15⟩ = smallPage.write := by
  obtain ⟨reads, written, _⟩ := reads_exactly_written { image := smallImage } rfl
  have read : outcome { kind := .index } ⟨1, 15⟩ { image := smallImage } = .ok smallPage :=
    reads smallPage [7] [9, 9] { kind := .index } rfl (show 5 < 256 ^ 4 by decide) rfl rfl
  exact ⟨read, (written { kind := .index } ⟨1, 15⟩ smallPage rfl read).2.1⟩

end PageStore

end Columnar
