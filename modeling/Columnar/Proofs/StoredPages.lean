import Columnar.PageStore
import Columnar.Proofs.Action
import Columnar.Proofs.Outcome

namespace Columnar

open Columnar.Action

/-- In entries of which one has been put in front, and what there was of its key is gone. -/
theorem find?_replaced {α β : Type} [DecidableEq α] (entries : List (α × β)) (key other : α) (value : β) :
    (((key, value) :: entries.filter fun entry => entry.1 ≠ key).find? fun entry => entry.1 = other) =
      if key = other then some (key, value) else entries.find? fun entry => entry.1 = other := by
  by_cases same : key = other
  · simp [same]
  · simp only [same, if_false, List.find?_cons, decide_false, List.find?_filter]
    congr 1
    funext entry
    by_cases found : entry.1 = other
    · simp [found, Ne.symm same]
    · simp [found]

/-- The checksum behind a stored page is the one of what stands in front of it. -/
def Page.Summed (stored : Bytes) : Prop :=
  Bytes.toNat (stored.drop (stored.length - 4)) = checksum (stored.take (stored.length - 4))

instance (stored : Bytes) : Decidable (Page.Summed stored) := inferInstanceAs (Decidable (_ = _))

def Page.sumMismatch (offset : Nat) (stored : Bytes) : Error :=
  .checksumMismatch offset (Bytes.toNat (stored.drop (stored.length - 4)))
    (checksum (stored.take (stored.length - 4)))

/-- A page that has been read in one way is read in another, but for a wrong checksum and for its kind. -/
theorem Page.read_again {verify : Bool} {kind : PageKind} {offset : Nat} {stored : Bytes} {page : Page}
    (read : Page.read verify kind offset stored = .ok page) (verify' : Bool) (other : PageKind) :
    Page.read verify' other offset stored =
      if verify' = true ∧ ¬Page.Summed stored then .error (Page.sumMismatch offset stored)
      else if page.footer.kind ≠ other then .error (.wrongPageKind other offset page.footer.kind)
      else .ok page := by
  unfold Page.read at read ⊢
  dsimp only at read ⊢
  split at read
  · cases read
  · rename_i long
    rw [if_neg long]
    have check : ((verify' && decide (Bytes.toNat (stored.drop (stored.length - 4)) ≠
        checksum (stored.take (stored.length - 4)))) = true) ↔ verify' = true ∧ ¬Page.Summed stored := by
      simp [Page.Summed]
    simp only [check]
    split at read
    · cases read
    · split at read
      · cases read
      · obtain ⟨footer, parsed, read⟩ := bind_eq_ok read
        split at read
        · cases read
        · cases read
          split
          · rfl
          · rw [parsed]
            rfl

/-- How far failures to read from a store count as the same: in all, or in their cause where pages are kept. -/
def Error.Near : StoreKind → Error → Error → Prop
  | .plain, error, other => error = other
  | .caching, error, other | .untyped, error, other => error.cause = other.cause

theorem Error.nearness (kind : StoreKind) : Nearness (Error.Near kind) := by
  cases kind with
  | plain => exact ⟨⟨fun _ => rfl, fun same => Eq.symm same, fun same more => Eq.trans same more⟩,
      fun _ _ _ same => congrArg _ same⟩
  | caching | untyped =>
    exact ⟨⟨fun _ => rfl, fun same => Eq.symm same, fun same more => Eq.trans same more⟩, fun _ _ _ same => same⟩

namespace PageStore

variable {store : PageStore} {options : ReadOptions} {extent : Extent} {page : Page}

/-- What is stored of the page at an extent. -/
def storedAt (image : Bytes) (extent : Extent) : Bytes := (image.drop extent.offset).take extent.size

theorem pageAt_again {image : Bytes} (read : pageAt image options extent = .ok page) (other : ReadOptions) :
    pageAt image other extent =
      if other.codec ≠ .none then .error (.compressedPage other.codec)
      else if other.verifyChecksum = true ∧ ¬Page.Summed (storedAt image extent) then
        .error (Page.sumMismatch extent.offset (storedAt image extent))
      else if page.footer.kind ≠ other.kind then .error (.wrongPageKind other.kind extent.offset page.footer.kind)
      else .ok page := by
  unfold pageAt at read ⊢
  dsimp only at read ⊢
  split at read
  · cases read
  · split at read
    · cases read
    · split
      · rfl
      · exact Page.read_again read _ _

/-- A page is of the kind that has been asked for, and there is no other page at the extent. -/
theorem pageAt_unique {image : Bytes} {other : ReadOptions} {found : Page}
    (read : pageAt image options extent = .ok page) (also : pageAt image other extent = .ok found) :
    page.footer.kind = options.kind ∧ found = page := by
  constructor
  · have same := pageAt_again read options
    rw [read] at same
    split at same
    · cases same
    · split at same
      · cases same
      · split at same
        · cases same
        · rename_i kind
          exact Decidable.not_not.mp kind
  · rw [pageAt_again read other] at also
    split at also
    · cases also
    · split at also
      · cases also
      · split at also
        · cases also
        · cases also
          rfl

/-- The store after a read that has reached the segment. -/
def traced (options : ReadOptions) (extent : Extent) (store : PageStore) : PageStore :=
  { store with reads := store.reads + 1, trace := (options, extent) :: store.trace }

theorem fetch_of_typed (typed : store.kind ≠ .untyped) (options : ReadOptions) (extent : Extent) :
    fetch options extent store = lift (pageAt store.image options extent) (store.traced options extent) := by
  obtain ⟨image, kind, reads, cache, trace⟩ := store
  unfold fetch
  cases kind with
  | untyped => exact absurd rfl typed
  | plain | caching => cases pageAt image options extent <;> rfl

/-- Without its cache a store reads the segment each time. -/
theorem read_uncached (uncached : (store.kind = .caching && options.cached) = false) (typed : store.kind ≠ .untyped)
    (extent : Extent) :
    read options extent store = lift (pageAt store.image options extent) (store.traced options extent) := by
  unfold read
  rw [bind_apply, get_apply]
  simp only [uncached, Bool.false_eq_true, if_false]
  rw [bind_apply, fetch_of_typed typed]
  cases pageAt store.image options extent <;> rfl

theorem read_kept (cached : (store.kind = .caching && options.cached) = true)
    (held : store.lookup extent = some page) : read options extent store =
      lift (if page.footer.kind = options.kind then .ok page
        else .error (.wrongCachedKind options.kind extent.offset page.footer.kind)) store := by
  unfold read
  rw [bind_apply, get_apply]
  simp only [cached, if_true, held]
  by_cases kind : page.footer.kind = options.kind
  · simp only [kind, ne_eq, not_true, if_false, if_true]
    rfl
  · simp only [kind, ne_eq, not_false_iff, if_false, if_true]
    rfl

theorem read_missed (cached : (store.kind = .caching && options.cached) = true)
    (missed : store.lookup extent = none) : read options extent store = match pageAt store.image options extent with
      | .ok page => .ok page ((store.traced options extent).keep extent page)
      | .error error => .error error (store.traced options extent) := by
  have typed : store.kind ≠ .untyped := by
    rintro same
    simp [same] at cached
  unfold read
  rw [bind_apply, get_apply]
  simp only [cached, if_true, missed]
  rw [bind_apply, fetch_of_typed typed]
  cases pageAt store.image options extent <;> rfl

/-- What is kept of the segment is what reading it in one way comes to. -/
def Keeps (codec : Codec) (verify : Bool) (store : PageStore) : Prop :=
  ∀ extent page, store.lookup extent = some page →
    pageAt store.image { codec, verifyChecksum := verify, kind := page.footer.kind } extent = .ok page

theorem keeps_of_empty (empty : store.cache = []) (codec : Codec) (verify : Bool) : store.Keeps codec verify := by
  intro extent page held
  rw [lookup, empty] at held
  cases held

theorem lookup_keep (store : PageStore) (extent other : Extent) (page : Page) :
    (store.keep extent page).lookup other = if extent = other then some page else store.lookup other := by
  rw [lookup, keep, find?_replaced]
  split <;> rfl

theorem Keeps.keep (keeps : store.Keeps options.codec options.verifyChecksum)
    (read : pageAt store.image options extent = .ok page) :
    (store.keep extent page).Keeps options.codec options.verifyChecksum := by
  intro other found held
  rw [lookup_keep] at held
  split at held
  · rename_i same
    cases held
    obtain ⟨kind, _⟩ := pageAt_unique read read
    rw [← same, kind]
    exact read
  · exact keeps other found held

/-- A store that keeps pages reads what the segment holds, and it fails where reading the segment does, for the same
cause. -/
theorem read_of_caching (caching : store.kind = .caching) (options : ReadOptions)
    (keeps : store.Keeps options.codec options.verifyChecksum) (extent : Extent) :
    ∃ outcome after, Agree (Error.Near .caching) outcome (pageAt store.image options extent) ∧
      after.image = store.image ∧ after.kind = .caching ∧ after.Keeps options.codec options.verifyChecksum ∧
      read options extent store = lift outcome after := by
  cases cached : (store.kind = .caching && options.cached) with
  | false =>
    have typed : store.kind ≠ .untyped := by simp [caching]
    exact ⟨_, store.traced options extent, Agree.refl (Error.nearness _) _, rfl, caching, keeps,
      read_uncached cached typed extent⟩
  | true =>
    cases held : store.lookup extent with
    | some page =>
      refine ⟨_, store, ?_, rfl, caching, keeps, read_kept cached held⟩
      have known := keeps extent page held
      by_cases kind : page.footer.kind = options.kind
      · rw [if_pos kind]
        rw [kind] at known
        rw [← known]
        exact Agree.refl (Error.nearness _) _
      · rw [if_neg kind]
        -- what is kept could be read in this way, so only its kind can be wrong
        have itself := pageAt_again known
          { codec := options.codec, verifyChecksum := options.verifyChecksum, kind := page.footer.kind }
        rw [known] at itself
        rw [pageAt_again known options]
        split at itself
        · cases itself
        · rename_i codec
          split at itself
          · cases itself
          · rename_i sum
            rw [if_neg codec, if_neg sum, if_pos kind]
            exact rfl
    | none =>
      rw [read_missed cached held]
      cases read : pageAt store.image options extent with
      | error error =>
        exact ⟨.error error, store.traced options extent, rfl, rfl, caching, keeps, rfl⟩
      | ok page =>
        have kept : ((store.traced options extent).keep extent page).Keeps options.codec options.verifyChecksum :=
          Keeps.keep keeps read
        exact ⟨.ok page, (store.traced options extent).keep extent page, rfl, rfl, caching, kept, rfl⟩

end PageStore

end Columnar
