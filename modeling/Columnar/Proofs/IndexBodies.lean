import Columnar.BitmapIndex
import Columnar.BloomFilter
import Columnar.Proofs.EncodedText
import Columnar.Proofs.PageWalks
import Columnar.Proofs.PrefixedWords

namespace Columnar

/-- A stored form is taken in wherever it lies, and gives what it stands for; where only a part of it is left, that
is refused as damage. -/
structure Read.Takes {α : Type} (read : Read α) (stored : Bytes) (value : α) : Prop where
  whole : ∀ position rest, read ⟨position, stored ++ rest⟩ = .ok (value, ⟨position + stored.length, rest⟩)
  cut : ∀ position part, part <+: stored → part ≠ stored →
    ∃ error, read ⟨position, part⟩ = .error error ∧ error.isCorruption = true

namespace Read.Takes

variable {α β : Type} {read : Read α} {next : α → Read β} {stored more : Bytes} {value : α} {later : β}

theorem nothing (whole : ∀ position rest, read ⟨position, rest⟩ = .ok (value, ⟨position, rest⟩)) :
    Takes read [] value where
  whole := whole
  cut := fun _ _ within short => absurd (List.prefix_nil.mp within) short

theorem pure (value : α) : Takes (Pure.pure value) [] value := nothing fun _ _ => rfl

theorem lift {result : Except Error α} (found : result = .ok value) : Takes (monadLift result) [] value := by
  subst found
  exact nothing fun _ _ => rfl

/-- What is cut off within two parts is cut off within the first, or has the first and a part of the second. -/
theorem bind (first : Takes read stored value) (second : Takes (next value) more later) :
    Takes (read >>= next) (stored ++ more) later where
  whole position rest := by
    rw [List.append_assoc, bind_of_ok (first.whole position (more ++ rest)), second.whole, List.length_append,
      Nat.add_assoc]
  cut position part within short := by
    obtain ⟨behind, whole⟩ := within
    rcases List.append_eq_append_iff.mp whole with ⟨left, inside, _⟩ | ⟨rest, rfl, inside⟩
    · by_cases complete : part = stored
      · subst complete
        have missing : ([] : Bytes) ≠ more := fun none => short (by rw [← none, List.append_nil])
        obtain ⟨error, refused, corrupt⟩ := second.cut (position + part.length) [] List.nil_prefix missing
        have found := first.whole position []
        rw [List.append_nil] at found
        exact ⟨error, by rw [bind_of_ok found, refused], corrupt⟩
      · obtain ⟨error, refused, corrupt⟩ := first.cut position part ⟨left, inside.symm⟩ complete
        exact ⟨error, bind_of_error refused next, corrupt⟩
    · have missing : rest ≠ more := fun same => short (by rw [same])
      obtain ⟨error, refused, corrupt⟩ := second.cut (position + stored.length) rest ⟨behind, inside.symm⟩ missing
      exact ⟨error, by rw [bind_of_ok (first.whole position rest), refused], corrupt⟩

theorem map (first : Takes read stored value) (f : α → β) :
    Takes (read >>= fun found => Pure.pure (f found)) stored (f value) :=
  List.append_nil stored ▸ first.bind (pure (f value))

theorem bytes (stored : Bytes) : Takes (Read.bytes stored.length) stored stored where
  whole _ _ := bytes_eq_ok_iff.mpr ⟨rfl, rfl, rfl⟩
  cut position part within short :=
    ⟨.endOfPage stored.length position part.length,
      if_pos (Nat.lt_of_le_of_ne within.length_le fun same => short (within.eq_of_length same)), rfl⟩

theorem natural {width n : Nat} (small : n < 256 ^ width) : Takes (Read.natural width) (Bytes.ofNat width n) n where
  whole position rest := by rw [natural_written small, Bytes.length_ofNat]
  cut position part within short := by
    have less : part.length < width := by
      have least := within.length_le
      have unequal : part.length ≠ (Bytes.ofNat width n).length := fun same => short (within.eq_of_length same)
      rw [Bytes.length_ofNat] at least unequal
      omega
    exact ⟨_, natural_of_lt less, rfl⟩

theorem prefixed (small : stored.length < 256 ^ 4) : Takes Read.prefixed (Bytes.prefixed stored) stored :=
  (natural small).bind (bytes stored)

/-- Entries one after the other, each in its stored form. -/
theorem repeated {entry : Read α} {write : α → Bytes} {values : List α}
    (each : ∀ value ∈ values, Takes entry (write value) value) :
    Takes (Read.repeated entry values.length) (values.flatMap write) values := by
  induction values with
  | nil => exact pure []
  | cons first others ih =>
    obtain ⟨head, rest⟩ := List.forall_mem_cons.mp each
    exact head.bind ((ih rest).map (first :: ·))

end Read.Takes

/-- A body that begins with a stored form gives what that stands for, whatever follows it; one that ends within it
is refused as damage. -/
structure Bytes.Spells {α : Type} (parse : Bytes → Except Error α) (stored : Bytes) (value : α) : Prop where
  whole : ∀ trailing, parse (stored ++ trailing) = .ok value
  cut : ∀ part, part <+: stored → part ≠ stored → ∃ error, parse part = .error error ∧ error.isCorruption = true

theorem Read.Takes.spells {α : Type} {read : Read α} {stored : Bytes} {value : α}
    (takes : Takes read stored value) :
    Bytes.Spells (fun body => (Read.start read body).map (·.1)) stored value where
  whole trailing := by
    rw [Read.start, takes.whole]
    rfl
  cut part within short := by
    obtain ⟨error, refused, corrupt⟩ := takes.cut 0 part within short
    refine ⟨error, ?_, corrupt⟩
    rw [Read.start, refused]
    rfl

namespace PageStart

variable {page : PageStart}

def toBytes (page : PageStart) : Bytes :=
  Bytes.ofNat 8 page.first ++ Bytes.ofNat 8 page.extent.offset ++ Bytes.ofNat 4 page.extent.size

/-- The numbers of an entry have room where they are stored. -/
def Fits (page : PageStart) : Prop :=
  page.first < 256 ^ 8 ∧ page.extent.offset < 256 ^ 8 ∧ page.extent.size < 256 ^ 4

theorem length_toBytes (page : PageStart) : page.toBytes.length = 20 := by simp [toBytes]

theorem ofBytes_toBytes (fits : page.Fits) (rest : Bytes) : ofBytes (page.toBytes ++ rest) = page := by
  obtain ⟨first, offset, size⟩ := fits
  have firsts : (page.toBytes ++ rest).take 8 = Bytes.ofNat 8 page.first := by
    rw [toBytes, List.append_assoc, List.append_assoc]
    exact List.take_left' (Bytes.length_ofNat ..)
  have offsets : ((page.toBytes ++ rest).drop 8).take 8 = Bytes.ofNat 8 page.extent.offset := by
    rw [toBytes, List.append_assoc, List.append_assoc, List.drop_left' (Bytes.length_ofNat ..)]
    exact List.take_left' (Bytes.length_ofNat ..)
  have sizes : ((page.toBytes ++ rest).drop 16).take 4 = Bytes.ofNat 4 page.extent.size := by
    rw [toBytes, List.append_assoc, List.drop_left' (by simp)]
    exact List.take_left' (Bytes.length_ofNat ..)
  rw [ofBytes, firsts, offsets, sizes, Bytes.toNat_ofNat, Bytes.toNat_ofNat, Bytes.toNat_ofNat,
    Nat.mod_eq_of_lt first, Nat.mod_eq_of_lt offset, Nat.mod_eq_of_lt size]

end PageStart

namespace OrdinalIndex

variable {pages : List PageStart} {rows : Nat}

theorem length_flatMap_toBytes (pages : List PageStart) :
    (pages.flatMap PageStart.toBytes).length = 20 * pages.length := by
  induction pages with
  | nil => rfl
  | cons page rest ih =>
    rw [List.flatMap_cons, List.length_append, PageStart.length_toBytes, ih, List.length_cons]
    omega

theorem entries_flatMap_toBytes (fits : ∀ page ∈ pages, page.Fits) (trailing : Bytes) :
    entries (pages.flatMap PageStart.toBytes ++ trailing) pages.length = pages := by
  induction pages with
  | nil => rfl
  | cons page rest ih =>
    obtain ⟨first, others⟩ := List.forall_mem_cons.mp fits
    rw [List.flatMap_cons, List.append_assoc, List.length_cons, entries_succ, PageStart.ofBytes_toBytes first,
      List.drop_left' page.length_toBytes, ih others]

theorem ofBody_spells (fits : ∀ page ∈ pages, page.Fits) (valid : Valid ⟨pages, rows⟩) :
    Bytes.Spells (ofBody · pages.length rows) (pages.flatMap PageStart.toBytes) ⟨pages, rows⟩ where
  whole trailing := by
    have enough : 20 * pages.length ≤ (pages.flatMap PageStart.toBytes ++ trailing).length := by
      rw [List.length_append, length_flatMap_toBytes]
      omega
    have found := ofBody_outcome (pages.flatMap PageStart.toBytes ++ trailing) pages.length rows
    rw [entries_flatMap_toBytes fits] at found
    rcases found with ⟨_, _, parsed⟩ | ⟨fails, _⟩
    · exact parsed
    · exact absurd ⟨enough, valid⟩ fails
  cut part within short := by
    have less : part.length ≠ (pages.flatMap PageStart.toBytes).length := fun same =>
      short (within.eq_of_length same)
    have least := within.length_le
    rw [length_flatMap_toBytes] at less least
    rcases ofBody_outcome part pages.length rows with ⟨enough, _, _⟩ | ⟨_, refused⟩
    · omega
    · exact refused

end OrdinalIndex

namespace ZoneMap

variable {zone : ZoneMap}

/-- The three flags in a byte. -/
def flags (zone : ZoneMap) : Nat := zone.hasNull.toNat + 2 * zone.hasValue.toNat + 4 * zone.passAll.toNat

def toBytes (zone : ZoneMap) : Bytes :=
  Bytes.ofNat 1 zone.flags ++
    (Bytes.prefixed (Text.encodeUtf8 zone.min.toList) ++ Bytes.prefixed (Text.encodeUtf8 zone.max.toList))

/-- Four bytes hold the lengths of the bounds. -/
def Fits (zone : ZoneMap) : Prop :=
  (Text.encodeUtf8 zone.min.toList).length < 256 ^ 4 ∧ (Text.encodeUtf8 zone.max.toList).length < 256 ^ 4

theorem flags_spec (zone : ZoneMap) : zone.flags < 256 ^ 1 ∧ zone.flags.testBit 0 = zone.hasNull ∧
    zone.flags.testBit 1 = zone.hasValue ∧ zone.flags.testBit 2 = zone.passAll := by
  have each : ∀ first second third : Bool,
      first.toNat + 2 * second.toNat + 4 * third.toNat < 256 ^ 1 ∧
        (first.toNat + 2 * second.toNat + 4 * third.toNat).testBit 0 = first ∧
        (first.toNat + 2 * second.toNat + 4 * third.toNat).testBit 1 = second ∧
        (first.toNat + 2 * second.toNat + 4 * third.toNat).testBit 2 = third := by decide
  exact each zone.hasNull zone.hasValue zone.passAll

theorem readText_takes {text : String} (small : (Text.encodeUtf8 text.toList).length < 256 ^ 4) (number : Nat) :
    Read.Takes (readText number) (Bytes.prefixed (Text.encodeUtf8 text.toList)) text := by
  rw [← List.append_nil (Bytes.prefixed _)]
  refine (Read.Takes.prefixed small).bind ?_
  rw [Text.decodeUtf8?_encodeUtf8]
  dsimp only
  rw [String.ofList_toList]
  exact Read.Takes.pure text

theorem read_takes (fits : zone.Fits) (number : Nat) : Read.Takes (read number) zone.toBytes zone := by
  obtain ⟨small, hasNull, hasValue, passAll⟩ := zone.flags_spec
  refine (Read.Takes.natural small).bind ((readText_takes fits.1 number).bind ?_)
  rw [hasNull, hasValue, passAll]
  exact (readText_takes fits.2 number).map fun max => { zone with max }

theorem readFrom_takes {zones : List ZoneMap} (fits : ∀ zone ∈ zones, zone.Fits) (number : Nat) :
    Read.Takes (readFrom number zones.length) (zones.flatMap toBytes) zones := by
  induction zones generalizing number with
  | nil => exact Read.Takes.pure []
  | cons first others ih =>
    obtain ⟨head, rest⟩ := List.forall_mem_cons.mp fits
    exact (read_takes head number).bind ((ih rest (number + 1)).map (first :: ·))

end ZoneMap

namespace BloomFilter

variable {filter : BloomFilter}

def toBytes (filter : BloomFilter) : Bytes := Bytes.ofNat 1 filter.hasNull.toNat ++ Bytes.prefixed filter.blocks

/-- The bits of a filter are some whole blocks, and four bytes hold their number of bytes. -/
def Fits (filter : BloomFilter) : Prop :=
  filter.blocks ≠ [] ∧ blockSize ∣ filter.blocks.length ∧ filter.blocks.length < 256 ^ 4

theorem create_blocks (fits : filter.Fits) : create filter.blocks filter.hasNull = .ok filter := by
  obtain ⟨some, whole, _⟩ := fits
  refine if_neg ?_
  rintro (none | broken)
  · exact some (List.isEmpty_iff.mp none)
  · exact broken (Nat.mod_eq_zero_of_dvd whole)

theorem read_takes (fits : filter.Fits) : Read.Takes read filter.toBytes filter := by
  have flag : filter.hasNull.toNat < 256 ^ 1 ∧ decide (filter.hasNull.toNat ≠ 0) = filter.hasNull := by
    cases filter.hasNull <;> decide
  refine (Read.Takes.natural flag.1).bind ?_
  dsimp only
  rw [flag.2, ← List.append_nil (Bytes.prefixed _)]
  exact (Read.Takes.prefixed fits.2.2).bind (Read.Takes.lift (create_blocks fits))

end BloomFilter

/-- The bodies of index pages of all four kinds, entry behind entry, are read as these entries, whatever follows
them. A body that ends within its entries is refused as damage, wherever it ends. -/
theorem indexBodies_spell :
    (∀ (pages : List PageStart) (rows : Nat), (∀ page ∈ pages, page.Fits) → OrdinalIndex.Valid ⟨pages, rows⟩ →
      Bytes.Spells (OrdinalIndex.ofBody · pages.length rows) (pages.flatMap PageStart.toBytes) ⟨pages, rows⟩) ∧
    (∀ zones : List ZoneMap, (∀ zone ∈ zones, zone.Fits) →
      Bytes.Spells (ZoneMap.ofBody · zones.length) (zones.flatMap ZoneMap.toBytes) zones) ∧
    (∀ filters : List BloomFilter, (∀ filter ∈ filters, filter.Fits) →
      Bytes.Spells (BloomFilter.ofBody · filters.length) (filters.flatMap BloomFilter.toBytes) filters) ∧
    ∀ words : List Bytes, (∀ word ∈ words, word.length < 256 ^ 4) →
      Bytes.Spells (BitmapIndex.entries · words.length) (words.flatMap Bytes.prefixed) words := by
  refine ⟨?_, ?_, ?_, ?_⟩
  · intro pages rows fits valid
    exact OrdinalIndex.ofBody_spells fits valid
  · intro zones fits
    exact (ZoneMap.readFrom_takes fits 0).spells
  · intro filters fits
    exact (Read.Takes.repeated fun filter member => BloomFilter.read_takes (fits filter member)).spells
  · intro words small
    exact (Read.Takes.repeated fun word member => Read.Takes.prefixed (small word member)).spells

/-- Two pages of a column of four rows. -/
def twoPages : List PageStart := [⟨0, ⟨5, 37⟩⟩, ⟨2, ⟨42, 37⟩⟩]

/-- A page with nulls and values, and one of which nothing is known. -/
def twoZones : List ZoneMap := [{ min := "a", max := "é", hasNull := true, hasValue := true }, { passAll := true }]

def oneFilter : List BloomFilter := [⟨List.replicate 32 1, true⟩]

theorem indexBodies_spell_mixed :
    OrdinalIndex.ofBody (twoPages.flatMap PageStart.toBytes ++ [9]) 2 4 = .ok ⟨twoPages, 4⟩ ∧
    ZoneMap.ofBody (twoZones.flatMap ZoneMap.toBytes ++ [9]) 2 = .ok twoZones ∧
    BloomFilter.ofBody (oneFilter.flatMap BloomFilter.toBytes ++ [9]) 1 = .ok oneFilter ∧
    BitmapIndex.entries ([[], [7, 0]].flatMap Bytes.prefixed ++ [9]) 2 = .ok [[], [7, 0]] ∧
    ∃ error, BitmapIndex.entries [0, 0, 0, 0, 2, 0, 0, 0, 7] 2 = .error error ∧ error.isCorruption = true := by
  obtain ⟨pages, zones, filters, words⟩ := indexBodies_spell
  have ordered : OrdinalIndex.Valid ⟨twoPages, 4⟩ := ⟨by decide, by decide, by decide, nofun⟩
  have spelled := words [[], [7, 0]] (by decide)
  refine ⟨(pages twoPages 4 (by unfold PageStart.Fits; decide) ordered).whole [9],
    (zones twoZones (by unfold ZoneMap.Fits; decide)).whole [9], (filters oneFilter ?_).whole [9],
      spelled.whole [9],
    spelled.cut [0, 0, 0, 0, 2, 0, 0, 0, 7] (by decide) (by decide)⟩
  rintro filter ⟨⟩
  · exact ⟨nofun, by decide, by decide⟩
  · contradiction

end Columnar
