import Columnar.Proofs.CursorReads
import Columnar.Proofs.ZonePruning

namespace Columnar

open Columnar.Action Session

/-- An entry of an index page: the first row of a data page in eight bytes, its offset in eight, its size in
four. -/
def PageStart.ofBytes (stored : Bytes) : PageStart :=
  ⟨Bytes.toNat (stored.take 8), Bytes.toNat ((stored.drop 8).take 8), Bytes.toNat ((stored.drop 16).take 4)⟩

namespace OrdinalIndex

/-- The entries that the body of an index page begins with. -/
def entries (body : Bytes) (count : Nat) : List PageStart :=
  (List.range count).map fun place => PageStart.ofBytes (body.drop (20 * place))

/-- Page starts rise, from above another one if there is one before them. -/
def Rises (previous : Option Nat) (pages : List PageStart) : Prop :=
  (previous.toList ++ pages.map PageStart.first).Pairwise (· < ·)

variable {previous : Option Nat} {page : PageStart} {pages : List PageStart} {body : Bytes} {count rows : Nat}

theorem entries_succ (body : Bytes) (count : Nat) :
    entries body (count + 1) = PageStart.ofBytes body :: entries (body.drop 20) count := by
  simp only [entries, List.range_succ_eq_map, List.map_cons, List.map_map, Nat.mul_zero, List.drop_zero,
    List.drop_drop]
  refine congrArg (_ :: ·) (List.map_congr_left fun place _ => ?_)
  rw [Function.comp_apply, Nat.mul_succ, Nat.add_comm]

theorem rises_cons_iff : Rises previous (page :: pages) ↔ previous.filter (page.first ≤ ·) = none ∧
    Rises (some page.first) pages := by
  cases previous with
  | none => simp [Rises]
  | some before =>
    simp only [Rises, Option.toList_some, List.map_cons, List.singleton_append, List.pairwise_cons, List.mem_cons,
      forall_eq_or_imp, Option.filter_some, decide_eq_true_eq]
    constructor
    · rintro ⟨⟨above, _⟩, later, ordered⟩
      exact ⟨if_neg (Nat.not_le_of_lt above), later, ordered⟩
    · rintro ⟨above, later, ordered⟩
      have first : before < page.first := by
        by_contra behind
        simp [Nat.le_of_not_lt behind] at above
      exact ⟨⟨first, fun start member => first.trans (later start member)⟩, later, ordered⟩

/-- An entry is read where there are bytes enough for it, and it has to begin behind the entry before. -/
theorem readPages_succ (previous : Option Nat) (count position : Nat) (body : Bytes) :
    (20 ≤ body.length ∧ readPages previous (count + 1) ⟨position, body⟩ =
      match previous.filter ((PageStart.ofBytes body).first ≤ ·) with
      | some before => .error (.unorderedPages (PageStart.ofBytes body).first before)
      | none => (readPages (some (PageStart.ofBytes body).first) count ⟨position + 20, body.drop 20⟩).map
          fun found => (PageStart.ofBytes body :: found.1, found.2)) ∨
    (body.length < 20 ∧ ∃ error, readPages previous (count + 1) ⟨position, body⟩ = .error error ∧
    error.isCorruption) := by
  rw [readPages]
  by_cases first : 8 ≤ body.length
  swap
  · exact .inr ⟨by omega, _, Read.bind_of_error (Read.natural_of_lt (Nat.lt_of_not_le first)) _, rfl⟩
  rw [Read.bind_of_ok (Read.natural_of_le first)]
  by_cases offset : 8 ≤ (body.drop 8).length
  swap
  · exact .inr ⟨by rw [List.length_drop] at offset; omega, _,
      Read.bind_of_error (Read.natural_of_lt (Nat.lt_of_not_le offset)) _, rfl⟩
  rw [Read.bind_of_ok (Read.natural_of_le offset), List.drop_drop]
  by_cases size : 4 ≤ (body.drop 16).length
  swap
  · exact .inr ⟨by rw [List.length_drop] at size; omega, _,
      Read.bind_of_error (Read.natural_of_lt (Nat.lt_of_not_le size)) _, rfl⟩
  rw [Read.bind_of_ok (Read.natural_of_le size), List.drop_drop]
  refine .inl ⟨by rw [List.length_drop] at size; omega, ?_⟩
  have first : (PageStart.ofBytes body).first = Bytes.toNat (body.take 8) := rfl
  rw [first]
  cases previous.filter (Bytes.toNat (body.take 8) ≤ ·) with
  | some before => rfl
  | none =>
    cases later : readPages (some (Bytes.toNat (body.take 8))) count ⟨position + 20, body.drop 20⟩ with
    | error error => exact Read.bind_of_error later _
    | ok found => exact Read.bind_of_ok later _

/-- The pages of an index are read exactly where their entries are there and rise. -/
theorem readPages_outcome (previous : Option Nat) (count position : Nat) (body : Bytes) :
    ((20 * count ≤ body.length ∧ Rises previous (entries body count)) ∧
      ∃ after, readPages previous count ⟨position, body⟩ = .ok (entries body count, after)) ∨
    (¬(20 * count ≤ body.length ∧ Rises previous (entries body count)) ∧
      ∃ error, readPages previous count ⟨position, body⟩ = .error error ∧ error.isCorruption) := by
  induction count generalizing previous position body with
  | zero => exact .inl ⟨⟨Nat.zero_le _, by cases previous <;> simp [Rises, entries]⟩, _, rfl⟩
  | succ count ih =>
    rcases readPages_succ previous count position body with ⟨enough, read⟩ | ⟨short, refused⟩
    swap
    · exact .inr ⟨fun holds => by omega, refused⟩
    rw [entries_succ, rises_cons_iff, read]
    have left : 20 * (count + 1) ≤ body.length ↔ 20 * count ≤ (body.drop 20).length :=
      by rw [List.length_drop]; omega
    cases previous.filter ((PageStart.ofBytes body).first ≤ ·) with
    | some before => exact .inr ⟨by simp, _, rfl, rfl⟩
    | none =>
      simp only [left, true_and]
      rcases ih (some (PageStart.ofBytes body).first) (position + 20) (body.drop 20) with ⟨holds, after, found⟩ |
        ⟨fails, error, refused, corrupt⟩
      · exact .inl ⟨holds, after, by rw [found]; rfl⟩
      · exact .inr ⟨fails, error, by rw [refused]; rfl, corrupt⟩

/-- An index of some pages in order is made exactly if it is valid. -/
theorem ofPages_outcome (ordered : pages.Pairwise fun page later => page.first < later.first) (rows : Nat) :
    (Valid ⟨pages, rows⟩ ∧ ofPages pages rows = .ok ⟨pages, rows⟩) ∨
      (¬Valid ⟨pages, rows⟩ ∧ ∃ error, ofPages pages rows = .error error ∧ error.isCorruption) := by
  cases made : ofPages pages rows with
  | ok index =>
    have same : index = ⟨pages, rows⟩ := by
      unfold ofPages at made
      split at made <;> split at made <;> cases made <;> rfl
    subst same
    exact .inl ⟨(ofPages_valid ordered made).1, rfl⟩
  | error error =>
    unfold ofPages at made
    split at made <;> split at made <;> cases made
    · rename_i first last head final fails
      exact .inr ⟨fun valid => fails ⟨valid.starts first head, valid.within last (List.mem_of_getLast? final)⟩,
        _, rfl, rfl⟩
    · rename_i missing fails
      refine .inr ⟨fun valid => ?_, _, rfl, rfl⟩
      obtain ⟨first, rest, stored⟩ := List.exists_cons_of_ne_nil (valid.covers (Nat.pos_of_ne_zero fails))
      dsimp only at stored
      subst stored
      exact missing first _ rfl (List.getLast?_cons ..)

/-- The body of an index page gives an index exactly if its entries are there and make a valid one. -/
theorem ofBody_outcome (body : Bytes) (count rows : Nat) :
    (20 * count ≤ body.length ∧ Valid ⟨entries body count, rows⟩ ∧
      ofBody body count rows = .ok ⟨entries body count, rows⟩) ∨
      (¬(20 * count ≤ body.length ∧ Valid ⟨entries body count, rows⟩) ∧
        ∃ error, ofBody body count rows = .error error ∧ error.isCorruption) := by
  have rises (ordered : (entries body count).Pairwise fun page later => page.first < later.first) :
      Rises none (entries body count) := List.pairwise_map.mpr ordered
  rcases readPages_outcome none count 0 body with ⟨⟨enough, rising⟩, after, read⟩ | ⟨fails, error, read, corrupt⟩
  · have made : ofBody body count rows = ofPages (entries body count) rows := by
      rw [ofBody, Read.start, read]
      rfl
    rw [made]
    rcases ofPages_outcome (List.pairwise_map.mp rising) rows with ⟨valid, found⟩ | ⟨invalid, refused⟩
    · exact .inl ⟨enough, valid, found⟩
    · exact .inr ⟨fun holds => invalid holds.2, refused⟩
  · refine .inr ⟨fun holds => fails ⟨holds.1, rises holds.2.ordered⟩, error, ?_, corrupt⟩
    rw [ofBody, Read.start, read]
    rfl

/-- The way over the pages from one of them to the last one. -/
inductive Walk (index : OrdinalIndex) : PageSpan → List PageSpan → Prop
  | last {span : PageSpan} : index.nextSpan? span = none → Walk index span [span]
  | next {span after : PageSpan} {rest : List PageSpan} :
      index.nextSpan? span = some after → Walk index after rest → Walk index span (span :: rest)

/-- Pages share out the rows of a column. -/
structure Tiles (walk : List PageSpan) (rows : Nat) : Prop where
  numbered : walk.map PageSpan.page = List.range walk.length
  filled : ∀ span ∈ walk, span.first < span.stop
  adjacent : walk.IsChain fun span after => span.stop = after.first
  starts : walk.head?.map PageSpan.first = some 0
  ends : walk.getLast?.map PageSpan.stop = some rows

section Walks

variable {index : OrdinalIndex} {span : PageSpan} {walk other : List PageSpan}

theorem Walk.unique (one : index.Walk span walk) (another : index.Walk span other) : other = walk := by
  induction one generalizing other with
  | last ended =>
    cases another with
    | last _ => rfl
    | next step _ => cases ended.symm.trans step
  | next step _ ih =>
    cases another with
    | last ended => cases ended.symm.trans step
    | next step' rest =>
      cases step.symm.trans step'
      rw [ih rest]

/-- From any page on the pages are walked in their order. -/
theorem walk_drop {page : Nat} (found : index.span? page = some span) :
    index.Walk span (index.spans.drop page) := by
  have listed (page : Nat) (span : PageSpan) (found : index.span? page = some span) :
      index.spans.drop page = span :: index.spans.drop (page + 1) := by
    obtain ⟨inside, same⟩ := List.getElem?_eq_some_iff.mp ((index.spans_getElem? page).trans found)
    rw [List.drop_eq_getElem_cons inside, same]
  have number (page : Nat) (span : PageSpan) (found : index.span? page = some span) :
      index.nextSpan? span = index.span? (page + 1) := by
    obtain ⟨_, _, rfl⟩ := span?_eq_some found
    rfl
  induction left : index.pages.length - page generalizing page span with
  | zero =>
    have inside : page < index.pages.length := span?_isSome.mp (by rw [found]; rfl)
    omega
  | succ left ih =>
    rw [listed page span found]
    cases next : index.span? (page + 1) with
    | none =>
      have beyond : index.spans.length ≤ page + 1 := by
        rw [← List.getElem?_eq_none_iff, index.spans_getElem?, next]
      rw [List.drop_eq_nil_of_le beyond]
      exact .last ((number page span found).trans next)
    | some after => exact .next ((number page span found).trans next) (ih next (by omega))

theorem map_page_spans (index : OrdinalIndex) : index.spans.map PageSpan.page = List.range index.spans.length := by
  refine List.ext_getElem? fun page => ?_
  rw [List.getElem?_map, index.spans_getElem?]
  cases found : index.span? page with
  | none =>
    have beyond : index.spans.length ≤ page := by rw [← List.getElem?_eq_none_iff, index.spans_getElem?, found]
    rw [List.getElem?_eq_none (by rwa [List.length_range])]
    rfl
  | some span =>
    obtain ⟨inside, _⟩ := List.getElem?_eq_some_iff.mp ((index.spans_getElem? page).trans found)
    obtain ⟨_, _, rfl⟩ := span?_eq_some found
    rw [List.getElem?_range inside]
    rfl

theorem map_start_spans (index : OrdinalIndex) :
    index.spans.map (fun span => PageStart.mk span.first span.extent) = index.pages := by
  refine List.ext_getElem? fun page => ?_
  rw [List.getElem?_map, index.spans_getElem?, span?, Option.map_map]
  exact Option.map_id' ..

theorem Valid.spans_getElem (valid : index.Valid) {page : Nat} (inside : page < index.spans.length) :
    index.spans[page].first = index.startOf page ∧ index.spans[page].stop = index.startOf (page + 1) ∧
      index.spans[page].first < index.spans[page].stop := by
  obtain ⟨_, first, stop, order, _⟩ :=
    valid.span_spec ((index.spans_getElem? page).symm.trans (List.getElem?_eq_getElem inside))
  exact ⟨first, stop, order⟩

/-- The pages of a column with rows share them out. -/
theorem Valid.tiles (valid : index.Valid) (some : 0 < index.rows) : Tiles index.spans index.rows := by
  have pages : 0 < index.spans.length := by
    rw [index.length_spans]
    exact List.length_pos_iff.mpr (valid.covers some)
  refine ⟨index.map_page_spans, ?_, ?_, ?_, ?_⟩
  · intro span member
    obtain ⟨page, inside, rfl⟩ := List.getElem_of_mem member
    exact (valid.spans_getElem inside).2.2
  · rw [List.isChain_iff_getElem]
    intro page inside
    rw [(valid.spans_getElem (Nat.lt_of_succ_lt inside)).2.1, (valid.spans_getElem inside).1]
  · rw [List.head?_eq_getElem?, List.getElem?_eq_getElem pages, Option.map_some, (valid.spans_getElem pages).1,
      valid.startOf_zero]
  · have last : index.startOf (index.spans.length - 1 + 1) = index.rows := by
      rw [Nat.sub_add_cancel pages, index.length_spans, startOf, List.getElem?_eq_none (Nat.le_refl _)]
      rfl
    rw [List.getLast?_eq_getElem?, List.getElem?_eq_getElem (Nat.sub_lt pages Nat.zero_lt_one), Option.map_some,
      (valid.spans_getElem (Nat.sub_lt pages Nat.zero_lt_one)).2.1, last]

/-- No two pages hold a row. -/
theorem Valid.eq_of_contains (valid : index.Valid) {other : PageSpan} (listed : span ∈ index.spans)
    (also : other ∈ index.spans) {row : Nat} (holds : span.contains row = true)
    (holds' : other.contains row = true) : other = span := by
  obtain ⟨page, inside, rfl⟩ := List.getElem_of_mem listed
  obtain ⟨page', inside', rfl⟩ := List.getElem_of_mem also
  simp only [PageSpan.contains, Bool.and_eq_true, decide_eq_true_eq, (valid.spans_getElem inside).1,
    (valid.spans_getElem inside).2.1, (valid.spans_getElem inside').1, (valid.spans_getElem inside').2.1]
      at holds holds'
  rcases Nat.lt_trichotomy page page' with before | rfl | behind
  · have order : index.startOf (page + 1) ≤ index.startOf page' := valid.startOf_mono before
    omega
  · rfl
  · have order : index.startOf (page' + 1) ≤ index.startOf page := valid.startOf_mono behind
    omega

/-- A page is found for each row of the column, the only one that holds the row. -/
theorem Valid.find_contains (valid : index.Valid) {row : Nat} (below : row < index.rows) :
    ∃ span ∈ index.spans, index.find row = .ok span ∧ ∀ other ∈ index.spans, other.contains row = true ↔
      other = span := by
  obtain ⟨span, found, listed, first, stop⟩ := valid.find_spec row below
  have member : span ∈ index.spans := List.mem_of_getElem? ((index.spans_getElem? _).trans listed)
  have holds : span.contains row = true := by
    rw [PageSpan.contains, decide_eq_true first, decide_eq_true stop, Bool.and_true]
  refine ⟨span, member, found, fun other also => ⟨valid.eq_of_contains member also holds, ?_⟩⟩
  rintro rfl
  exact holds

end Walks

/-- Page starts do not rise from the first row, or the last one is no row of the column. -/
def Unordered (pages : List PageStart) (rows : Nat) : Prop :=
  ¬(pages.map PageStart.first).Pairwise (· < ·) ∨ (∃ first ∈ pages.head?, first.first ≠ 0) ∨
    ∃ last ∈ pages.getLast?, rows ≤ last.first

theorem Unordered.not_valid (unordered : Unordered pages rows) : ¬Valid ⟨pages, rows⟩ := by
  intro valid
  rcases unordered with falls | ⟨first, head, beyond⟩ | ⟨last, final, beyond⟩
  · exact falls (List.pairwise_map.mpr valid.ordered)
  · exact beyond (valid.starts first head)
  · exact Nat.not_lt_of_le beyond (valid.within last (List.mem_of_getLast? final))

/-- The pages of an index that is loaded from a root. -/
theorem Stems.pages_eq {root : Extent} {single : Bool} {index : OrdinalIndex}
    (stems : Stems root single rows index) :
    if single then index.pages = [⟨0, root⟩]
    else ∃ body count, 20 * count ≤ body.length ∧ index.pages = entries body count := by
  unfold Stems at stems
  split at stems
  · rw [if_pos ‹_›]
    rcases ofPages_outcome (List.pairwise_singleton ..) rows with ⟨_, found⟩ | ⟨_, _, refused, _⟩
    · cases found.symm.trans stems
      rfl
    · cases refused.symm.trans stems
  · rw [if_neg ‹_›]
    obtain ⟨body, count, made⟩ := stems
    rcases ofBody_outcome body count rows with ⟨enough, _, found⟩ | ⟨_, _, refused, _⟩
    · cases found.symm.trans made
      exact ⟨body, count, enough, rfl⟩
    · cases refused.symm.trans made

end OrdinalIndex

namespace LeafAccess

variable {access : LeafAccess} {root : Extent} {single : Bool} {rows : Nat} {session : Session}

/-- An index page that is read has to hold a valid index. -/
theorem loadOrdinalIndex_of_page {page : Page} {count : Nat} {mid : Session} (rows : Nat)
    (fresh : (session.loadedOf access.key).ordinal = none)
    (read : Session.readPage (access.readOptions true .index) root session = .ok page mid)
    (footer : page.footer = .index count) :
    (20 * count ≤ page.body.length ∧ OrdinalIndex.Valid ⟨OrdinalIndex.entries page.body count, rows⟩ ∧
      ∃ after, access.loadOrdinalIndex root false rows session =
        .ok ⟨OrdinalIndex.entries page.body count, rows⟩ after) ∨
    (¬(20 * count ≤ page.body.length ∧ OrdinalIndex.Valid ⟨OrdinalIndex.entries page.body count, rows⟩) ∧
      ∃ error after, access.loadOrdinalIndex root false rows session = .error error after ∧
        error.isCorruption) := by
  have paged : access.indexPage root .ordinalRootKind session = .ok (page.body, count) mid := by
    rw [indexPage, bind_apply, read]
    simp only [footer]
    rfl
  rcases OrdinalIndex.ofBody_outcome page.body count rows
    with ⟨enough, valid, found⟩ | ⟨fails, error, refused, corrupt⟩
  · refine .inl ⟨enough, valid, ?_⟩
    simp only [loadOrdinalIndex, once, bind_apply, get_apply, fresh, Bool.false_eq_true, if_false, paged,
      found, lift_ok, pure_apply, Session.write, modify_apply]
    exact ⟨_, rfl⟩
  · refine .inr ⟨fails, error, mid, ?_, corrupt⟩
    simp only [loadOrdinalIndex, once, bind_apply, get_apply, fresh, Bool.false_eq_true, if_false, paged, refused,
      lift_error, throw_apply]

/-- A list of data pages that is loaded is walked from its first page to its last, each page once and in its order.
The pages share out the rows, and for a row the one page is found that holds it. An index page is refused as corrupt
if its entries do not rise from the first row or go beyond the last. -/
theorem loadOrdinalIndex_walk
    (held : ∀ index ∈ (session.loadedOf access.key).ordinal, OrdinalIndex.Stems root single rows index) :
    (∀ index after, 0 < rows → access.loadOrdinalIndex root single rows session = .ok index after →
      (if single then index.pages = [⟨0, root⟩]
        else ∃ body count, 20 * count ≤ body.length ∧ index.pages = OrdinalIndex.entries body count) ∧
      ∃ first walk, index.firstSpan = .ok first ∧ index.Walk first walk ∧
        (∀ other, index.Walk first other → other = walk) ∧
        walk.map (fun span => ⟨span.first, span.extent⟩) = index.pages ∧ OrdinalIndex.Tiles walk rows ∧
        (∀ row < rows, ∃ span ∈ walk, index.find row = .ok span ∧
          ∀ other ∈ walk, other.contains row = true ↔ other = span) ∧
        ∀ row, rows ≤ row → ∃ error, index.find row = .error error ∧ error.isNotFound = true) ∧
    ∀ page count mid, single = false → (session.loadedOf access.key).ordinal = none →
      Session.readPage (access.readOptions true .index) root session = .ok page mid → page.footer = .index count →
      OrdinalIndex.Unordered (OrdinalIndex.entries page.body count) rows →
      ∃ error after, access.loadOrdinalIndex root single rows session = .error error after ∧
        error.isCorruption = true := by
  constructor
  · intro index after some run
    have stems : index.Stems root single rows := (LeafReader.loadOrdinalIndex_ok run).1.elim (held index) id
    obtain ⟨valid, rfl⟩ := stems.valid
    have pages : 0 < index.pages.length := List.length_pos_iff.mpr (valid.covers some)
    obtain ⟨first, found⟩ := Option.isSome_iff_exists.mp (OrdinalIndex.span?_isSome.mpr pages)
    have walk : index.Walk first index.spans := OrdinalIndex.walk_drop found
    refine ⟨stems.pages_eq, first, index.spans, ?_, walk, fun other => walk.unique, index.map_start_spans,
      valid.tiles some, fun row below => valid.find_contains below, fun row beyond => ⟨_, if_pos beyond, rfl⟩⟩
    rw [OrdinalIndex.firstSpan, found]
  · rintro page count mid rfl fresh read footer unordered
    rcases loadOrdinalIndex_of_page rows fresh read footer with ⟨_, valid, _⟩ | ⟨_, refused⟩
    · exact absurd valid unordered.not_valid
    · exact refused

/-- Three data pages that begin with the rows 0, 10 and 25. -/
def threePages : Page where
  body := [0, 10, 25].flatMap fun first => Bytes.ofNat 8 first ++ Bytes.ofNat 8 (100 * first) ++ Bytes.ofNat 4 50
  footer := .index 3

def threePagesSession : Session where
  store := { image := threePages.covered ++ [0, 0, 0, 0] }

def threePagesAccess : LeafAccess := { file := "pages", options := { verifyChecksum := false } }

/-- The pages are walked if the column has thirty rows. If it has twenty-five, the last page begins behind its
rows. -/
theorem loadOrdinalIndex_walk_threePages :
    (∀ index ∈ (threePagesSession.loadedOf threePagesAccess.key).ordinal,
      OrdinalIndex.Stems ⟨0, 73⟩ false 30 index) ∧
    (∃ index after, threePagesAccess.loadOrdinalIndex ⟨0, 73⟩ false 30 threePagesSession = .ok index after ∧
      index.pages = [⟨0, 0, 50⟩, ⟨10, 1000, 50⟩, ⟨25, 2500, 50⟩] ∧
      ∃ first walk, index.firstSpan = .ok first ∧ index.Walk first walk ∧
        (∀ other, index.Walk first other → other = walk) ∧
        walk.map (fun span => ⟨span.first, span.extent⟩) = index.pages ∧ OrdinalIndex.Tiles walk 30 ∧
        (∀ row < 30, ∃ span ∈ walk, index.find row = .ok span ∧ ∀ other ∈ walk, other.contains row = true ↔
          other = span) ∧
        ∀ row, 30 ≤ row → ∃ error, index.find row = .error error ∧ error.isNotFound = true) ∧
    ∃ error after, threePagesAccess.loadOrdinalIndex ⟨0, 73⟩ false 25 threePagesSession = .error error after ∧
      error.isCorruption = true := by
  have held (rows : Nat) : ∀ index ∈ (threePagesSession.loadedOf threePagesAccess.key).ordinal,
      OrdinalIndex.Stems ⟨0, 73⟩ false rows index := nofun
  obtain ⟨page, mid, read, footer, body⟩ : ∃ page mid,
      Session.readPage (threePagesAccess.readOptions true .index) ⟨0, 73⟩ threePagesSession = .ok page mid ∧
        page.footer = .index 3 ∧
        OrdinalIndex.entries page.body 3 = [⟨0, 0, 50⟩, ⟨10, 1000, 50⟩, ⟨25, 2500, 50⟩] :=
          ⟨_, _, by cbv, by cbv, by cbv⟩
  obtain ⟨index, after, run, pages⟩ : ∃ index after,
      threePagesAccess.loadOrdinalIndex ⟨0, 73⟩ false 30 threePagesSession = .ok index after ∧
        index.pages = [⟨0, 0, 50⟩, ⟨10, 1000, 50⟩, ⟨25, 2500, 50⟩] := ⟨_, _, by cbv, by cbv⟩
  refine ⟨held 30, ⟨index, after, run, pages, ((loadOrdinalIndex_walk (held 30)).1 index after (by decide) run).2⟩,
    ?_⟩
  refine (loadOrdinalIndex_walk (held 25)).2 page 3 mid rfl rfl read footer
    (.inr (.inr ⟨⟨25, 2500, 50⟩, ?_, by decide⟩))
  rw [body]
  rfl

end LeafAccess

end Columnar
