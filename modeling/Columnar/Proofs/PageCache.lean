import Mathlib
import Columnar.Proofs.StoredPages

namespace Columnar

open Columnar.Action

namespace PageStore

/-- Two reads come to the same: to one page, or to failures of one cause. -/
def Alike : Except Error Page → Except Error Page → Prop
  | .ok page, .ok other => page = other
  | .error error, .error other => error.cause = other.cause
  | _, _ => False

/-- What a read finds. -/
def outcome (options : ReadOptions) (extent : Extent) (store : PageStore) : Except Error Page :=
  (Action.run (read options extent) store).1

/-- The store after some reads, whatever they have found. -/
def afterReads (store : PageStore) : List (ReadOptions × Extent) → PageStore
  | [] => store
  | (options, extent) :: rest => ((Action.run (read options extent) store).2).afterReads rest

/-- A page that some reads leave in the cache of a segment. -/
def Remembered (image : Bytes) (history : List (ReadOptions × Extent)) (extent : Extent) (page : Page) : Prop :=
  ∃ options, (options, extent) ∈ history ∧ options.cached = true ∧ pageAt image options extent = .ok page

/-- A read after others finds a page in the cache that the segment would not give for it: its codec cannot be read,
or it asks for a check of the checksum, and that is wrong. -/
def Stale (image : Bytes) (history : List (ReadOptions × Extent)) (options : ReadOptions)
    (extent : Extent) : Prop :=
  options.cached = true ∧ ∃ page, Remembered image history extent page ∧
    (options.codec ≠ .none ∨
      options.verifyChecksum = true ∧ ¬Page.Summed (storedAt image extent) ∧ page.footer.kind = options.kind)

/-- A caching store over a segment holds what the reads so far have left. -/
structure Recalls (segment : Bytes) (history : List (ReadOptions × Extent)) (store : PageStore) : Prop where
  image : store.image = segment
  caching : store.kind = .caching
  lookup : ∀ extent page, store.lookup extent = some page ↔ Remembered segment history extent page

variable {store after : PageStore} {image : Bytes} {history : List (ReadOptions × Extent)} {options : ReadOptions}
  {extent : Extent} {page found : Page}

theorem run_of_eq_lift {result : Except Error Page} (run : read options extent store = lift result after) :
    Action.run (read options extent) store = (result, after) := by
  rw [Action.run, run]
  cases result <;> rfl

/-- A store without a cache reads the segment each time. -/
theorem run_plain (plain : store.kind = .plain) (options : ReadOptions) (extent : Extent) :
    Action.run (read options extent) store = (pageAt store.image options extent, store.traced options extent) :=
  run_of_eq_lift (read_uncached (by simp [plain]) (by simp [plain]) extent)

theorem afterReads_plain (plain : store.kind = .plain) (calls : List (ReadOptions × Extent)) :
    (store.afterReads calls).kind = .plain ∧ (store.afterReads calls).image = store.image := by
  induction calls generalizing store with
  | nil => exact ⟨plain, rfl⟩
  | cons call rest ih =>
    obtain ⟨options, extent⟩ := call
    rw [afterReads, run_plain plain]
    exact ih plain

/-- A caching store that is asked to use its cache gives the page that it holds, if that is of the kind. -/
theorem run_held (caching : store.kind = .caching) (cached : options.cached = true)
    (held : store.lookup extent = some page) :
    Action.run (read options extent) store = (if page.footer.kind = options.kind then .ok page
      else .error (.wrongCachedKind options.kind extent.offset page.footer.kind), store) :=
  run_of_eq_lift (read_kept (by simp [caching, cached]) held)

/-- Where it holds none it reads the segment, and keeps what it finds if it is asked to. -/
theorem run_not_held (caching : store.kind = .caching)
    (missed : options.cached = true → store.lookup extent = none) :
    ∃ after, Action.run (read options extent) store = (pageAt store.image options extent, after) ∧
      after.image = store.image ∧ after.kind = .caching ∧
      ∀ other found, after.lookup other = some found ↔ store.lookup other = some found ∨
        extent = other ∧ options.cached = true ∧ pageAt store.image options extent = .ok found := by
  cases cached : options.cached with
  | false =>
    have bypassed : (store.kind = .caching && options.cached) = false := by simp [cached]
    have run := read_uncached bypassed (by simp [caching]) extent
    refine ⟨store.traced options extent, run_of_eq_lift run, rfl, caching, ?_⟩
    intro other found
    simp [lookup, traced]
  | true =>
    have asked : (store.kind = .caching && options.cached) = true := by simp [caching, cached]
    have run := read_missed asked (missed cached)
    cases read : pageAt store.image options extent with
    | error error =>
      rw [read] at run
      refine ⟨store.traced options extent, run_of_eq_lift run, rfl, caching, ?_⟩
      intro other found
      simp [lookup, traced]
    | ok page =>
      rw [read] at run
      refine ⟨(store.traced options extent).keep extent page, run_of_eq_lift run, rfl, caching, ?_⟩
      intro other found
      rw [lookup_keep]
      by_cases same : extent = other
      · subst same
        simp [missed cached]
      · simp [same, lookup, traced]

theorem remembered_append {other : Extent} : Remembered image (history ++ [(options, extent)]) other page ↔
    Remembered image history other page ∨
      extent = other ∧ options.cached = true ∧ pageAt image options extent = .ok page := by
  constructor
  · rintro ⟨earlier, member, cached, read⟩
    rcases List.mem_append.mp member with before | last
    · exact .inl ⟨earlier, before, cached, read⟩
    · cases List.mem_singleton.mp last
      exact .inr ⟨rfl, cached, read⟩
  · rintro (⟨earlier, before, cached, read⟩ | ⟨rfl, cached, read⟩)
    · exact ⟨earlier, List.mem_append_left _ before, cached, read⟩
    · exact ⟨options, List.mem_append_right _ (List.mem_singleton_self _), cached, read⟩

/-- Whatever is remembered of an extent is the page that is read there. -/
theorem Remembered.unique (remembered : Remembered image history extent page)
    (read : pageAt image options extent = .ok found) : found = page := by
  obtain ⟨earlier, _, _, known⟩ := remembered
  exact (pageAt_unique known read).2

theorem recalls_nil (image : Bytes) : Recalls image [] { image, kind := .caching } := by
  refine ⟨rfl, rfl, ?_⟩
  intro extent page
  simp [PageStore.lookup, Remembered]

/-- One read keeps account of what the reads leave. -/
theorem Recalls.read (recalls : Recalls image history store) (options : ReadOptions) (extent : Extent) :
    Recalls image (history ++ [(options, extent)]) (Action.run (read options extent) store).2 := by
  obtain ⟨rfl, caching, known⟩ := recalls
  by_cases hit : options.cached = true ∧ ∃ page, store.lookup extent = some page
  · obtain ⟨cached, page, held⟩ := hit
    rw [run_held caching cached held]
    refine ⟨rfl, caching, ?_⟩
    intro other found
    rw [remembered_append, known, iff_self_or]
    rintro ⟨rfl, _, read⟩
    have remembered := (known extent page).mp held
    rwa [remembered.unique read]
  · have missed : options.cached = true → store.lookup extent = none := by
      intro cached
      rw [Option.eq_none_iff_forall_not_mem]
      exact fun page held => hit ⟨cached, page, held⟩
    obtain ⟨after, run, image, still, lookup⟩ := run_not_held caching missed
    rw [run]
    refine ⟨image, still, ?_⟩
    intro other found
    rw [lookup, remembered_append, known]

/-- Along a whole history of reads the cache holds what they leave. -/
theorem Recalls.afterReads (recalls : Recalls image history store) (calls : List (ReadOptions × Extent)) :
    Recalls image (history ++ calls) (store.afterReads calls) := by
  induction calls generalizing history store with
  | nil => rwa [List.append_nil]
  | cons call rest ih =>
    obtain ⟨options, extent⟩ := call
    have onward := ih (recalls.read options extent)
    rwa [List.append_assoc] at onward

/-- A page that is in the cache answers a read as the segment would, unless the segment would refuse it. -/
theorem alike_of_known {earlier : ReadOptions} (known : pageAt image earlier extent = .ok page)
    (options : ReadOptions) : Alike (if page.footer.kind = options.kind then .ok page
        else .error (.wrongCachedKind options.kind extent.offset page.footer.kind)) (pageAt image options extent) ↔
      ¬(options.codec ≠ .none ∨
        options.verifyChecksum = true ∧ ¬Page.Summed (storedAt image extent) ∧
        page.footer.kind = options.kind) := by
  rw [pageAt_again known options]
  by_cases codec : options.codec = .none
  · by_cases wrong : options.verifyChecksum = true ∧ ¬Page.Summed (storedAt image extent)
    · obtain ⟨verify, unsummed⟩ := wrong
      by_cases kind : page.footer.kind = options.kind
      · simp [codec, verify, unsummed, kind, Alike]
      · simp [codec, verify, unsummed, kind, Alike, Error.wrongCachedKind, Page.sumMismatch, Error.checksumMismatch,
          Error.corruption]
    · have sound : ¬(options.verifyChecksum = true ∧ ¬Page.Summed (storedAt image extent) ∧
          page.footer.kind = options.kind) := fun stale => wrong ⟨stale.1, stale.2.1⟩
      rw [if_neg (not_not.mpr codec), if_neg wrong, iff_true_right (not_or.mpr ⟨not_not.mpr codec, sound⟩)]
      by_cases kind : page.footer.kind = options.kind
      · simp [kind, Alike]
      · simp [kind, Alike, Error.wrongCachedKind, Error.wrongPageKind, Error.corruption]
  · by_cases kind : page.footer.kind = options.kind
    · simp [codec, kind, Alike]
    · simp [codec, kind, Alike, Error.wrongCachedKind, Error.compressedPage, Error.corruption, Error.unsupported]

/-- A read after others comes to the same with a cache as without, exactly if it does not find a stale page. -/
theorem read_alike_iff (image : Bytes) (history : List (ReadOptions × Extent)) (options : ReadOptions)
    (extent : Extent) : Alike (outcome options extent (afterReads { image, kind := .caching } history))
      (outcome options extent (afterReads { image } history)) ↔ ¬Stale image history options extent := by
  obtain ⟨segment, caching, known⟩ := (recalls_nil image).afterReads history
  have still : (afterReads { image } history).kind = .plain ∧ (afterReads { image } history).image = image :=
    afterReads_plain rfl history
  obtain ⟨plain, same⟩ := still
  have bare : outcome options extent (afterReads { image } history) = pageAt image options extent := by
    rw [outcome, run_plain plain, same]
  rw [bare, outcome]
  by_cases hit : options.cached = true ∧ ∃ page, Remembered image history extent page
  · obtain ⟨cached, page, remembered⟩ := hit
    have ⟨earlier, _, _, read⟩ := remembered
    rw [run_held caching cached ((known extent page).mpr remembered), alike_of_known read]
    refine not_congr ⟨fun why => ⟨cached, page, remembered, why⟩, ?_⟩
    rintro ⟨_, other, remembered', why⟩
    rwa [← remembered'.unique read] at why
  · have missed : options.cached = true → (afterReads { image, kind := .caching } history).lookup extent =
      none := by
      intro cached
      rw [Option.eq_none_iff_forall_not_mem]
      exact fun page held => hit ⟨cached, page, (known extent page).mp held⟩
    have fresh : ¬Stale image history options extent := by
      rintro ⟨cached, page, remembered, _⟩
      exact hit ⟨cached, page, remembered⟩
    obtain ⟨after, run, _⟩ := run_not_held caching missed
    rw [run, segment, iff_true_right fresh]
    cases pageAt image options extent <;> rfl

/-- An index page without entries, with a wrong checksum. -/
def unsummedIndex : Bytes := [2, 0, 0, 0, 0, 5, 0, 0, 0, 0, 0, 0, 0]

def indexRead (verify : Bool) : ReadOptions := { verifyChecksum := verify, usePageCache := true, kind := .index }

/-- Once the page has been read without a check, the cache gives it for a read that asks for one. -/
theorem unsummedIndex_not_alike :
    ¬Alike (outcome (indexRead true) ⟨0, 13⟩
        (afterReads { image := unsummedIndex, kind := .caching } [(indexRead false, ⟨0, 13⟩)]))
      (outcome (indexRead true) ⟨0, 13⟩ (afterReads { image := unsummedIndex } [(indexRead false, ⟨0, 13⟩)])) := by
  have kept : outcome (indexRead true) ⟨0, 13⟩
      (afterReads { image := unsummedIndex, kind := .caching } [(indexRead false, ⟨0, 13⟩)]) =
        .ok ⟨[], .index 0⟩ := by cbv
  have refused : (outcome (indexRead true) ⟨0, 13⟩
      (afterReads { image := unsummedIndex } [(indexRead false, ⟨0, 13⟩)])).isOk = false := by cbv
  rw [kept]
  cases found : outcome (indexRead true) ⟨0, 13⟩
      (afterReads { image := unsummedIndex } [(indexRead false, ⟨0, 13⟩)]) with
  | ok page =>
    rw [found] at refused
    cases refused
  | error error => exact id

end PageStore

end Columnar
