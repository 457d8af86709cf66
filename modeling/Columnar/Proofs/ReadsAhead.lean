import Columnar.Proofs.LeafReads
import Columnar.Proofs.UniformSteps

namespace Columnar

open Columnar.Action Session

/-- A read into a sink of its own, which may be of any kind. -/
structure ReadCall : Type 1 where
  {σ : Type}
  [sinks : Sink σ]
  count : Nat
  sink : σ

attribute [instance] ReadCall.sinks

/-- A read answers with what it comes to and with the sink that it leaves, also if it fails. -/
def ReadCall.run (call : ReadCall) : Action (Session × LeafCursor) (Except Error RowsRead × call.σ) :=
  fun (session, cursor) =>
    match LeafCursor.next call.count (session, cursor, call.sink) with
    | .ok read (session, cursor, sink) => .ok (.ok read, sink) (session, cursor)
    | .error error (session, cursor, sink) => .ok (.error error, sink) (session, cursor)

/-- Reads one after the other give the same rows, counts and failures from two states. -/
def ReadCall.SameAnswers (near : Error → Error → Prop) : List ReadCall → (state other : Session × LeafCursor) → Prop
  | [], _, _ => True
  | call :: rest, state, other =>
    ∃ read read' sink mid mid', call.run state = .ok (read, sink) mid ∧ call.run other = .ok (read', sink) mid' ∧
      Agree near read read' ∧ SameAnswers near rest mid mid'

namespace LeafCursor

/-- The page behind an open one, where there is one. -/
def pageBehind (reader : LeafReader) (image : Bytes) (page : DataPage) : Except Error (Option DataPage) := do
  let index ← reader.indexIn image
  (index.span? (page.page + 1)).mapM (reader.openedIn image)

/-- The page that a read goes on with: the one that is open while it has rows left, and then the one behind it. -/
def upNext (reader : LeafReader) (image : Bytes) : Option DataPage → Except Error (Option DataPage)
  | none => .ok none
  | some page => if page.hasRemaining then .ok (some page) else pageBehind reader image page

/-- Two cursors from which reads go on with the same rows, whatever pages they have open, or may not go on at
all. -/
structure SameAhead (reader : LeafReader) (image : Bytes) (cursor other : LeafCursor) : Prop where
  reader_eq : cursor.reader = reader
  other_eq : other.reader = reader
  seeked : cursor.seeked = other.seeked
  ahead : cursor.seeked = true → upNext reader image cursor.page = upNext reader image other.page

section Rows

variable {image : Bytes} {readers : List LeafReader} {reader : LeafReader} {kind : StoreKind}
  {condition : LeafReader → Loaded → Prop} {session : Session} {cursor : LeafCursor} (member : reader ∈ readers)
  (told : reader.ToldOrdinal image (condition reader)) (told' : reader.ToldWords image (condition reader))

theorem loadNextPage_eq {page : DataPage} (open_ : cursor.page = some page) {found : Except Error (Option PageSpan)}
    {mid : Session} (run : cursor.reader.spanBehind page.page session = lift found mid) :
    loadNextPage (session, cursor) = (do
      match ← lift found with
      | none => return false
      | some span => do
        loadPage span
        return true : Action (Session × LeafCursor) Bool) (mid, cursor) := by
  rw [loadNextPage, bind_apply, get_apply]
  simp only [open_]
  rw [bind_apply, bind_apply, onFirst, run]
  cases found <;> rfl

include member told

theorem settles_spanBehind (page : Nat) :
    Settles (Error.Near kind) (Holds kind condition image readers) (reader.spanBehind page)
    (reader.indexIn image >>= fun index => .ok (index.span? (page + 1))) :=
  (LeafReader.settles_ordinalIndex member told).bind fun _ _ => Settles.pure (Error.nearness kind) _

include told'

/-- The page behind the open one is opened, where there is one. -/
theorem loadNextPage_settles (holds : Holds kind condition image readers session) (same : cursor.reader = reader)
    {page : DataPage} (open_ : cursor.page = some page) :
    ∃ outcome mid bytes pages, Agree (Error.Near kind) outcome ((pageBehind reader image page).map Option.isSome) ∧
      Holds kind condition image readers mid ∧
      loadNextPage (session, cursor) = lift outcome (mid, { cursor with
        bytesRead := bytes, pagesDecoded := pages, page :=
          (pageBehind reader image page).toOption.join.or cursor.page }) := by
  obtain ⟨found, mid, agree, holding, run⟩ := settles_spanBehind member told page.page session holds
  rw [loadNextPage_eq open_ (same ▸ run)]
  cases listed : reader.indexIn image with
  | error error =>
    have behind : pageBehind reader image page = .error error := by rw [pageBehind, listed]; rfl
    rw [listed] at agree
    rw [behind]
    cases found with
    | ok span => exact agree.elim
    | error error' => exact ⟨.error error', mid, cursor.bytesRead, cursor.pagesDecoded, agree, holding, rfl⟩
  | ok index =>
    have behind : pageBehind reader image page = (index.span? (page.page + 1)).mapM (reader.openedIn image) := by
      rw [pageBehind, listed]
      rfl
    rw [listed] at agree
    obtain rfl := agree.of_ok
    rw [behind]
    cases index.span? (page.page + 1) with
    | none => exact ⟨.ok false, mid, cursor.bytesRead, cursor.pagesDecoded, rfl, holding, rfl⟩
    | some span =>
      obtain ⟨outcome, last, size, agree, held, run⟩ := loadPage_settles holding member told' same span
      rw [lift_ok, pure_bind]
      dsimp only
      rw [bind_apply, run, Option.mapM_some]
      cases opens : reader.openedIn image span with
      | error error =>
        rw [opens] at agree
        cases outcome with
        | ok opened => exact agree.elim
        | error error' => exact ⟨.error error', last, size, cursor.pagesDecoded, agree, held, rfl⟩
      | ok opened =>
        rw [opens] at agree
        obtain rfl := agree.of_ok
        exact ⟨.ok true, last, size, cursor.pagesDecoded + 1, rfl, held, rfl⟩

/-- Whether there is a row left is told by the page that a read goes on with. This is the page that is open then. -/
theorem hasRow_settles (holds : Holds kind condition image readers session) (same : cursor.reader = reader) :
    ∃ outcome mid bytes pages, Agree (Error.Near kind)
      outcome ((upNext reader image cursor.page).map Option.isSome) ∧
      Holds kind condition image readers mid ∧
      hasRow (session, cursor) = lift outcome (mid, { cursor with
        bytesRead := bytes, pagesDecoded := pages
        page := (upNext reader image cursor.page).toOption.join.or cursor.page }) := by
  rw [hasRow, bind_apply, get_apply]
  dsimp only
  cases open_ : cursor.page with
  | none =>
    refine ⟨.ok false, session, cursor.bytesRead, cursor.pagesDecoded, rfl, holds, ?_⟩
    rw [Option.any_none, if_neg Bool.false_ne_true, loadNextPage, bind_apply, get_apply, upNext]
    simp only [open_]
    rw [Except.toOption, Option.join_some, Option.none_or, ← open_]
    rfl
  | some page =>
    by_cases remaining : page.hasRemaining = true
    · refine ⟨.ok true, session, cursor.bytesRead, cursor.pagesDecoded, ?_, holds, ?_⟩
      · rw [upNext, if_pos remaining]
        exact rfl
      · rw [Option.any_some, if_pos remaining, upNext, if_pos remaining, Except.toOption, Option.join_some,
          Option.some_or, ← open_]
        rfl
    · rw [Option.any_some, if_neg remaining, upNext, if_neg remaining, ← open_]
      exact loadNextPage_settles member told told' holds same open_

end Rows

/-- Cursors that are alike go on with the same rows: they find a row or none alike, and then it is on the same
page. -/
structure Onward (near : Error → Error → Prop) (alike : Session → Session → Prop)
    (also : LeafCursor → LeafCursor → Prop) : Prop where
  rows : ∀ state other, Beside alike also state other →
    Concur near (fun more mid mid' => Beside alike also mid mid' ∧ (more = true → mid.2.page = mid'.2.page))
      (Beside alike also) (hasRow state) (hasRow other)
  opened : ∀ cursor other page, also cursor other → also { cursor with page } { other with page }
  passed : ∀ cursor other rows, also cursor other →
    also { cursor with ordinal := cursor.ordinal + rows } { other with ordinal := other.ordinal + rows }

section Reading

variable {σ : Type} [Sink σ] {near : Error → Error → Prop} {alike : Session → Session → Prop}
  {also : LeafCursor → LeafCursor → Prop}

variable {session other : Session} {cursor cursor' : LeafCursor}

omit [Sink σ] in
theorem hasRow_concur (onward : Onward near alike also) (same : alike session other) (level : also cursor cursor')
    (sink : σ) : Concur near (fun more after after' => Beside alike (Beside also (· = ·)) after after' ∧
        (more = true → after.2.1.page = after'.2.1.page)) (Beside alike (Beside also (· = ·)))
      (onFirstTwo hasRow (session, cursor, sink)) (onFirstTwo hasRow (other, cursor', sink)) :=
  (onward.rows _ _ ⟨same, level⟩).rewrap (fun _ _ _ done => ⟨⟨done.1.1, done.1.2, rfl⟩, done.2⟩)
    fun _ _ failed => ⟨failed.1, failed.2, rfl⟩

/-- On one page a read goes the same way. -/
theorem readPageRows_concur (nearness : Nearness near) (onward : Onward near alike also)
    (same : alike session other) (level : also cursor cursor') (pages : cursor.page = cursor'.page) (count : Nat)
    (sink : σ) : Concur near (fun _ => Beside alike (Beside also (· = ·))) (Beside alike (Beside also (· = ·)))
      (readPageRows count (session, cursor, sink)) (readPageRows count (other, cursor', sink)) := by
  simp only [readPageRows, pages]
  cases cursor'.page with
  | none => exact ⟨rfl, same, level, rfl⟩
  | some page =>
    have moved (page : DataPage) := onward.opened cursor cursor' (some page) level
    dsimp only
    cases DataPage.next count (page, sink) with
    | ok read after => exact ⟨rfl, same, moved after.1, rfl⟩
    | error error after => exact ⟨nearness.equal.refl error, same, moved after.1, rfl⟩

omit [Sink σ] in
theorem passed_uniform (onward : Onward near alike also) (rows : Nat) :
    Uniform near (Beside alike (Beside also (· = ·))) (onFirstTwo (onSecond (modify fun cursor =>
      { cursor with ordinal := cursor.ordinal + rows })) : Action (Session × LeafCursor × σ) PUnit) := by
  rintro ⟨session, cursor, sink⟩ ⟨other, cursor', sink'⟩ ⟨same, level, kept⟩
  exact ⟨rfl, same, onward.passed cursor cursor' rows level, kept⟩

theorem readRows_uniform (nearness : Nearness near) (onward : Onward near alike also) (steps count : Nat) :
    Uniform near (Beside alike (Beside also (· = ·)))
      (readRows steps count : Action (Session × LeafCursor × σ) RowsRead) := by
  induction steps generalizing count with
  | zero => exact Uniform.pure _
  | succ steps ih =>
    rintro ⟨session, cursor, sink⟩ ⟨other, cursor', sink'⟩ ⟨same, level, rfl⟩
    rw [readRows]
    by_cases none : count = 0
    · simp only [none, if_true]
      exact ⟨rfl, same, level, rfl⟩
    · simp only [none, if_false]
      refine (hasRow_concur onward same level sink).bind ?_
      rintro more ⟨mid, reached, sink⟩ ⟨mid', reached', sink'⟩ ⟨⟨same, level, rfl⟩, pages⟩
      cases more with
      | false => exact ⟨rfl, same, level, rfl⟩
      | true =>
        simp only [Bool.not_true, Bool.false_eq_true, if_false]
        refine (readPageRows_concur nearness onward same level (pages rfl) count sink).bind ?_
        rintro first ⟨last, moved, filled⟩ ⟨last', moved', filled'⟩ ⟨same, level, rfl⟩
        refine (passed_uniform onward first.rows).bind (fun _ => (ih _).bind fun others => Uniform.pure _)
          _ _ ⟨same, level, rfl⟩

/-- From cursors that are alike a read comes to the same. -/
theorem next_uniform (nearness : Nearness near) (onward : Onward near alike also)
    (started : ∀ cursor cursor', also cursor cursor' → cursor.seeked = cursor'.seeked ∧
    cursor.reader = cursor'.reader)
    (count : Nat) : Uniform near (Beside alike (Beside also (· = ·)))
    (next count : Action (Session × LeafCursor × σ) RowsRead) := by
  rintro ⟨session, cursor, sink⟩ ⟨other, cursor', sink'⟩ ⟨same, level, rfl⟩
  obtain ⟨seeked, reader⟩ := started cursor cursor' level
  rw [next, bind_apply, bind_apply, get_apply, get_apply]
  dsimp only
  rw [seeked, reader]
  cases cursor'.seeked with
  | false => exact ⟨nearness.equal.refl _, same, level, rfl⟩
  | true => exact readRows_uniform nearness onward count count _ _ ⟨same, level, rfl⟩

end Reading

section Reads

variable {image : Bytes} {readers : List LeafReader} {reader : LeafReader} {kind : StoreKind}
  {condition : LeafReader → Loaded → Prop} (member : reader ∈ readers)
  (told : reader.ToldOrdinal image (condition reader)) (told' : reader.ToldWords image (condition reader))

include member told told'

theorem sameAhead_onward : Onward (Error.Near kind)
    (fun session other => Holds kind condition image readers session ∧ Holds kind condition image readers other)
    (fun cursor other => SameAhead reader image cursor other ∧ cursor.seeked = true) where
  rows := by
    rintro ⟨session, cursor⟩ ⟨other, cursor'⟩ ⟨⟨holds, holds'⟩, same, seeked⟩
    obtain ⟨outcome, mid, bytes, pages, agree, holding, run⟩ :=
      hasRow_settles member told told' holds same.reader_eq
    obtain ⟨outcome', mid', bytes', pages', agree', holding', run'⟩ :=
      hasRow_settles member told told' holds' same.other_eq
    have ahead := same.ahead seeked
    rw [← ahead] at agree'
    have both := agree.trans (Error.nearness kind) (agree'.symm (Error.nearness kind))
    -- both have the page open that is up next, or each still has its own
    have level : SameAhead reader image
        { cursor with
          bytesRead := bytes, pagesDecoded := pages
          page := (upNext reader image cursor.page).toOption.join.or cursor.page }
        { cursor' with
          bytesRead := bytes', pagesDecoded := pages'
          page := (upNext reader image cursor'.page).toOption.join.or cursor'.page } := by
      refine ⟨same.reader_eq, same.other_eq, same.seeked, fun _ => ?_⟩
      dsimp only
      rw [ahead]
      cases (upNext reader image cursor'.page).toOption.join with
      | none => exact ahead
      | some page => rfl
    have pages : outcome = .ok true → (upNext reader image cursor.page).toOption.join.or cursor.page =
        (upNext reader image cursor'.page).toOption.join.or cursor'.page := by
      rintro rfl
      rw [← ahead]
      match found : upNext reader image cursor.page with
      | .ok (some page) => rfl
      | .ok none =>
        rw [found] at agree
        cases agree
      | .error error =>
        rw [found] at agree
        cases agree
    rw [run, run']
    cases outcome with
    | ok more =>
      cases outcome' with
      | ok more' => exact ⟨both, ⟨⟨holding, holding'⟩, level, seeked⟩, fun some => pages (congrArg _ some)⟩
      | error error => exact both.elim
    | error error =>
      cases outcome' with
      | ok more => exact both.elim
      | error error' => exact ⟨both, ⟨holding, holding'⟩, level, seeked⟩
  opened cursor other page same := ⟨⟨same.1.reader_eq, same.1.other_eq, same.1.seeked, fun _ => rfl⟩, same.2⟩
  passed cursor other rows same := ⟨⟨same.1.reader_eq, same.1.other_eq, same.1.seeked, same.1.ahead⟩, same.2⟩

/-- From cursors with the same rows ahead a read comes to the same, and they have the same rows ahead again. -/
theorem SameAhead.next_uniform {σ : Type} [Sink σ] (count : Nat) : Uniform (Error.Near kind)
    (Beside (fun session other => Holds kind condition image readers session ∧
      Holds kind condition image readers other)
      (Beside (SameAhead reader image) (· = ·))) (next count : Action (Session × LeafCursor × σ) RowsRead) := by
  rintro ⟨session, cursor, sink⟩ ⟨other, cursor', sink'⟩ ⟨holds, same, rfl⟩
  by_cases seeked : cursor.seeked = true
  · have onward : Onward (Error.Near kind) _ _ := sameAhead_onward member told told'
    refine (LeafCursor.next_uniform (Error.nearness kind) onward
      (fun _ _ level => ⟨level.1.seeked, level.1.reader_eq.trans level.1.other_eq.symm⟩) count _ _
      ⟨holds, ⟨same, seeked⟩, rfl⟩).imp (fun _ _ _ after => ⟨after.1, after.2.1.1, after.2.2⟩)
      fun _ _ after => ⟨after.1, after.2.1.1, after.2.2⟩
  · have seeked' : ¬cursor'.seeked = true := same.seeked ▸ seeked
    rw [next, bind_apply, bind_apply, get_apply, get_apply]
    simp only [seeked, seeked', Bool.not_false, if_true]
    rw [same.reader_eq.trans same.other_eq.symm]
    exact ⟨(Error.nearness kind).equal.refl _, holds, same, rfl⟩

/-- All reads give the same from cursors with the same rows ahead. -/
theorem SameAhead.sameAnswers (reads : List ReadCall) {session other : Session} {cursor cursor' : LeafCursor}
    (holds : Holds kind condition image readers session) (holds' : Holds kind condition image readers other)
    (same : SameAhead reader image cursor cursor') :
    ReadCall.SameAnswers (Error.Near kind) reads (session, cursor) (other, cursor') := by
  induction reads generalizing session other cursor cursor' with
  | nil => trivial
  | cons call rest ih =>
    have uniform :
        Uniform (Error.Near kind) _ (LeafCursor.next call.count :
        Action (Session × LeafCursor × call.σ) RowsRead) :=
      SameAhead.next_uniform member told told' call.count
    have concur := uniform (session, cursor, call.sink) (other, cursor', call.sink) ⟨⟨holds, holds'⟩, same, rfl⟩
    cases run : LeafCursor.next call.count (session, cursor, call.sink) with
    | ok read after =>
      cases run' : LeafCursor.next call.count (other, cursor', call.sink) with
      | ok read' after' =>
        rw [run, run'] at concur
        obtain ⟨reads, ⟨left, left'⟩, level, kept⟩ := concur
        refine ⟨.ok read, .ok read', after.2.2, (after.1, after.2.1), (after'.1, after'.2.1), ?_, ?_, reads,
          ih left left' level⟩
        · simp only [ReadCall.run, run]
        · simp only [ReadCall.run, run', kept]
      | error error after' =>
        rw [run, run'] at concur
        exact concur.elim
    | error error after =>
      cases run' : LeafCursor.next call.count (other, cursor', call.sink) with
      | ok read' after' =>
        rw [run, run'] at concur
        exact concur.elim
      | error error' after' =>
        rw [run, run'] at concur
        obtain ⟨fails, ⟨left, left'⟩, level, kept⟩ := concur
        refine ⟨.error error, .error error', after.2.2, (after.1, after.2.1), (after'.1, after'.2.1), ?_, ?_, fails,
          ih left left' level⟩
        · simp only [ReadCall.run, run]
        · simp only [ReadCall.run, run', kept]

end Reads

end LeafCursor

end Columnar
