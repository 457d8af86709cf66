import Columnar.Json.Record
import Columnar.Proofs.WrittenStrings

namespace Columnar.Json

open Text

variable {α β σ : Type} {text : List Char} {value : α} {read item : Reader α} {rest after : Bytes} {first : Bool}

/-- What stands behind a value inside of brackets: a comma or a closing bracket. Behind a whole document stands
nothing. -/
def EndsValue (rest : Bytes) : Prop := ∀ b ∈ rest.head?, b = 0x2C ∨ b = 0x5D ∨ b = 0x7D

theorem EndsValue.endsNumber (ends : EndsValue rest) : EndsNumber rest := by
  intro b front
  rcases ends b front with rfl | rfl | rfl <;> decide

theorem endsValue_nil : EndsValue [] := nofun

theorem endsValue_cons {b : UInt8} (mark : b = 0x2C ∨ b = 0x5D ∨ b = 0x7D) : EndsValue (b :: rest) := by
  rintro _ ⟨⟩
  exact mark

/-- A text that can begin a value: with neither white space nor a closing bracket, and not as `null` does. -/
def Opens (text : List Char) : Prop := ∃ b more, encodeUtf8 text = b :: more ∧ isSpace b = false ∧
    b ≠ 0x5D ∧ b ≠ 0x6E

/-- A text from which a value is read, whatever stands behind it. -/
structure Written (read : Reader α) (text : List Char) (value : α) : Prop where
  opens : Opens text
  reads : ∀ rest, EndsValue rest → read (encodeUtf8 text ++ rest) = .ok (value, rest)

theorem skipSpace_cons {b : UInt8} {rest : Bytes} (mark : isSpace b = false) :
    skipSpace (b :: rest) = b :: rest := by
  rw [skipSpace, List.dropWhile_cons_of_neg (by simp [mark])]

theorem skipSpace_opens (opens : Opens text) (rest : Bytes) :
    skipSpace (encodeUtf8 text ++ rest) = encodeUtf8 text ++ rest := by
  obtain ⟨b, more, front, mark, _⟩ := opens
  rw [front, List.cons_append, skipSpace_cons mark]

theorem opens_digits (n : Nat) : Opens (digits n) := by
  obtain ⟨b, more, front, digit, _⟩ := digits_front n
  refine ⟨b, more, front, ?_, ?_, ?_⟩
  · rw [isSpace, Bool.or_eq_false_iff, Bool.or_eq_false_iff, Bool.or_eq_false_iff]
    refine ⟨⟨⟨?_, ?_⟩, ?_⟩, ?_⟩ <;> exact decide_eq_false fun same => by cases same; cases digit
  · rintro rfl
    cases digit
  · rintro rfl
    cases digit

theorem opens_writeString (text : List Char) : Opens (writeString text) :=
  ⟨0x22, _, encodeUtf8_writeString text, by decide, by decide, by decide⟩

theorem encodeUtf8_true : encodeUtf8 (writeBoolean true) = [0x74, 0x72, 0x75, 0x65] := rfl

theorem encodeUtf8_false : encodeUtf8 (writeBoolean false) = [0x66, 0x61, 0x6C, 0x73, 0x65] := rfl

theorem opens_writeBoolean (value : Bool) : Opens (writeBoolean value) := by
  cases value with
  | true => exact ⟨0x74, _, encodeUtf8_true, by decide, by decide, by decide⟩
  | false => exact ⟨0x66, _, encodeUtf8_false, by decide, by decide, by decide⟩

theorem encodeUtf8_writeList (items : List (List Char)) :
    encodeUtf8 (writeList items) = 0x5B :: (encodeUtf8 (joinCommas items) ++ [0x5D]) := by
  rw [writeList, ← List.singleton_append, encodeUtf8_append, encodeUtf8_append]
  rfl

/-- The text of a member. -/
def memberText (member : String × List Char) : List Char := writeString member.1.toList ++ ':' :: member.2

theorem encodeUtf8_writeObject (members : List (String × List Char)) :
    encodeUtf8 (writeObject members) = 0x7B :: (encodeUtf8 (joinCommas (members.map memberText)) ++ [0x7D]) := by
  rw [writeObject, ← List.singleton_append, encodeUtf8_append, encodeUtf8_append]
  rfl

theorem encodeUtf8_memberText (name : String) (text : List Char) (rest : Bytes) :
    encodeUtf8 (memberText (name, text)) ++ rest =
    0x22 :: (encodeUtf8 (name.toList.flatMap writeChar) ++ 0x22 :: 0x3A :: (encodeUtf8 text ++ rest)) := by
  rw [memberText, ← List.singleton_append, encodeUtf8_append, encodeUtf8_append, encodeUtf8_writeString]
  simp only [List.cons_append, List.append_assoc, List.nil_append]
  rfl

/-- A comma stands in front of all items but the first. -/
def comma (first : Bool) : Bytes := if first then [] else [0x2C]

/-- The items that are still to come, the first of all among them or not. -/
def joined (first : Bool) (items : List (List Char)) : List Char :=
  if first then joinCommas items else items.flatMap (',' :: ·)

theorem joined_nil (first : Bool) : joined first [] = [] := by cases first <;> rfl

theorem joinCommas_cons (item : List Char) (items : List (List Char)) :
    joinCommas (item :: items) = item ++ joined false items := by
  induction items generalizing item with
  | nil => exact (List.append_nil item).symm
  | cons next items ih => exact congrArg (fun more => item ++ ',' :: more) (ih next)

theorem encodeUtf8_joined_cons (first : Bool) (item : List Char) (items : List (List Char)) (rest : Bytes) :
    encodeUtf8 (joined first (item :: items)) ++ rest =
      comma first ++ (encodeUtf8 item ++ (encodeUtf8 (joined false items) ++ rest)) := by
  cases first with
  | true => rw [joined, if_pos rfl, joinCommas_cons, encodeUtf8_append, List.append_assoc]; rfl
  | false =>
    rw [joined, if_neg Bool.false_ne_true, List.flatMap_cons, encodeUtf8_append, ← List.singleton_append,
      encodeUtf8_append, List.append_assoc, List.append_assoc]
    rfl

/-- Behind an item stands the next one behind a comma, or the end. -/
theorem endsValue_joined (items : List (List Char)) {close : UInt8} (mark : close = 0x5D ∨ close = 0x7D)
    (rest : Bytes) : EndsValue (encodeUtf8 (joined false items) ++ close :: rest) := by
  cases items with
  | nil => exact endsValue_cons (.inr mark)
  | cons item items =>
    rw [encodeUtf8_joined_cons]
    exact endsValue_cons (.inl rfl)

theorem nextItem_opens (opens : Opens text) (first : Bool) (rest : Bytes) :
    nextItem first (comma first ++ (encodeUtf8 text ++ rest)) = .ok (true, encodeUtf8 text ++ rest) := by
  have own := skipSpace_opens opens rest
  obtain ⟨b, more, front, mark, other, _⟩ := opens
  rw [front, List.cons_append] at own ⊢
  cases first with
  | true => simp [nextItem, comma, own, other]
  | false => simp [nextItem, comma, skipSpace_cons (show isSpace 0x2C = false by decide), own, other]

/-- One item more is read. -/
theorem readItems_cons (written : Written item text value) (ends : EndsValue after) (first : Bool) :
    readItems item first (comma first ++ (encodeUtf8 text ++ after)) =
      (readItems item false after).map fun (values, rest) => (value :: values, rest) := by
  obtain ⟨b, more, front, _⟩ := written.opens
  have shorter : after.length < (comma first ++ (encodeUtf8 text ++ after)).length := by
    rw [front]
    simp only [List.length_append, List.length_cons]
    omega
  rw [readItems]
  simp only [nextItem_opens written.opens, written.reads after ends, shorter, if_true]

theorem readItems_joined {texts : List (List Char)} {values : List α}
    (written : List.Forall₂ (Written item) texts values) (first : Bool) (rest : Bytes) :
    readItems item first (encodeUtf8 (joined first texts) ++ 0x5D :: rest) = .ok (values, rest) := by
  induction written generalizing first with
  | nil =>
    rw [joined_nil, readItems]
    simp [encodeUtf8, nextItem, skipSpace_cons (show isSpace 0x5D = false by decide)]
  | @cons text value texts values head _ ih =>
    rw [encodeUtf8_joined_cons, readItems_cons head (endsValue_joined texts (.inl rfl) rest), ih]
    rfl

theorem Written.list {texts : List (List Char)} {values : List α}
    (written : List.Forall₂ (Written item) texts values) :
    Written (readList (some item)) (writeList texts) values := by
  refine ⟨⟨0x5B, _, encodeUtf8_writeList texts, by decide, by decide, by decide⟩, fun rest _ => ?_⟩
  rw [encodeUtf8_writeList, List.cons_append, List.append_assoc, readList, skipSpace_cons (by decide)]
  exact readItems_joined written true rest

/-- Members that are read one after the other, each into the state that those before it lead to. -/
inductive Members (start : σ → List Char → Except Problem (Reader σ)) : σ → List (String × List Char) → σ → Prop
  | nil {state} : Members start state [] state
  | cons {state name text read next members final} : start state name.toList = .ok read → Written read text next →
      Members start next members final → Members start state ((name, text) :: members) final

variable {start : σ → List Char → Except Problem (Reader σ)} {state next final : σ}
  {members others : List (String × List Char)}

theorem Members.append (front : Members start state members next) (back : Members start next others final) :
    Members start state (members ++ others) final := by
  induction front with
  | nil => exact back
  | cons started written _ ih => exact .cons started written (ih back)

/-- One member more is read. -/
theorem readMembers_cons {name : String} {read : Reader σ} (started : start state name.toList = .ok read)
    (written : Written read text next) (ends : EndsValue after) (first : Bool) :
    readMembers start first state (comma first ++ (encodeUtf8 (memberText (name, text)) ++ after)) =
      readMembers start false next after := by
  have named : readName first (comma first ++ (encodeUtf8 (memberText (name, text)) ++ after)) =
      .ok (some name.toList, 0x3A :: (encodeUtf8 text ++ after)) := by
    rw [encodeUtf8_memberText]
    have quote : isSpace 0x22 = false := by decide
    cases first with
    | true => simp [readName, comma, skipSpace_cons quote, readString_flatMap, bind, Except.bind, Except.map]
    | false =>
      simp [readName, comma, skipSpace_cons (show isSpace 0x2C = false by decide), skipSpace_cons quote,
        readString_flatMap, bind, Except.bind, Except.map]
  have colon : readColon (0x3A :: (encodeUtf8 text ++ after)) = .ok (encodeUtf8 text ++ after) := by
    simp [readColon, skipSpace_cons (show isSpace 0x3A = false by decide)]
  have shorter : after.length < (comma first ++ (encodeUtf8 (memberText (name, text)) ++ after)).length := by
    rw [encodeUtf8_memberText]
    simp only [List.length_append, List.length_cons]
    omega
  rw [readMembers]
  simp only [named, started, colon, Except.bind, written.reads after ends, shorter, if_true]

/-- The members of a written object are read up to its closing brace. -/
theorem Members.readMembers_joined (all : Members start state members final) (first : Bool) (rest : Bytes) :
    readMembers start first state (encodeUtf8 (joined first (members.map memberText)) ++ 0x7D :: rest) =
      .ok (final, 0x7D :: rest) := by
  induction all generalizing first with
  | nil =>
    rw [List.map_nil, joined_nil, readMembers]
    simp [encodeUtf8, readName, skipSpace_cons (show isSpace 0x7D = false by decide)]
  | @cons state name text read next members final started written _ ih =>
    rw [List.map_cons, encodeUtf8_joined_cons,
      readMembers_cons started written (endsValue_joined _ (.inr rfl) rest), ih]

theorem readObjectEnd_close (rest : Bytes) : readObjectEnd (0x7D :: rest) = .ok rest := by
  simp [readObjectEnd, skipSpace_cons (show isSpace 0x7D = false by decide)]

namespace Written

theorem bind_pure {f : α → β} (written : Written read text value) :
    Written (read >>= fun value => pure (f value)) text (f value) := by
  refine ⟨written.opens, fun rest ends => ?_⟩
  have run := written.reads rest ends
  simp only [bind, StateT.bind, Except.bind, run]
  rfl

theorem map {f : α → β} (written : Written read text value) :
    Written (fun input => (read input).map fun (value, rest) => (f value, rest)) text (f value) := by
  refine ⟨written.opens, fun rest ends => ?_⟩
  rw [written.reads rest ends]
  rfl

theorem optional (written : Written read text value) : Written (readOptional read) text (some value) := by
  refine ⟨written.opens, fun rest ends => ?_⟩
  have run := written.reads rest ends
  obtain ⟨b, more, front, mark, _, other⟩ := written.opens
  rw [front, List.cons_append] at run ⊢
  rw [readOptional, skipSpace_cons mark, List.head?_cons, if_neg (by simpa using other), run]
  rfl

theorem natural {n bits : Nat} (small : n < 2 ^ bits) (most : bits ≤ 64) :
    Written (readNatural bits) (digits n) n := by
  refine ⟨opens_digits n, fun rest ends => ?_⟩
  have run := readNumber_digits (small.trans_le (Nat.pow_le_pow_right (by decide) most)) ends.endsNumber
  have own := skipSpace_opens (opens_digits n) rest
  obtain ⟨b, more, front, digit, _⟩ := digits_front n
  rw [front, List.cons_append] at run own ⊢
  simp [readNatural, own, digit, run, small, bind, Except.bind]

theorem boolean (value : Bool) : Written readBoolean (writeBoolean value) value := by
  refine ⟨opens_writeBoolean value, fun rest _ => ?_⟩
  cases value with
  | true => simp [encodeUtf8_true, readBoolean, skipSpace_cons (show isSpace 0x74 = false by decide), readWord,
    Except.map]
  | false => simp [encodeUtf8_false, readBoolean, skipSpace_cons (show isSpace 0x66 = false by decide), readWord,
    Except.map]

theorem string (text : List Char) : Written readText (writeString text) text := by
  refine ⟨opens_writeString text, fun rest _ => ?_⟩
  rw [encodeUtf8_writeString, List.cons_append, List.append_assoc, readText, skipSpace_cons (by decide)]
  exact readString_flatMap text rest

theorem choice {choose : List Char → Option α} {name : List Char} (deeper : Bool)
    (known : choose name = some value) : Written (readChoice deeper choose) (writeString name) value := by
  refine ⟨opens_writeString name, fun rest ends => ?_⟩
  have run := (string name).reads rest ends
  rw [encodeUtf8_writeString, List.cons_append, List.append_assoc, List.singleton_append] at run ⊢
  simp [readChoice, skipSpace_cons (show isSpace 0x22 = false by decide), run, known, bind, Except.bind]

/-- A record is read from its members. -/
theorem record {fields : List (RecordField σ)} {blank final : σ} {finish : σ → Option α}
    {members : List (String × List Char)} (all : Members (startMember fields) blank members final)
    (whole : finish final = some value) :
    Written (readRecord (some fields) blank finish) (writeObject members) value := by
  refine ⟨⟨0x7B, _, encodeUtf8_writeObject members, by decide, by decide, by decide⟩, fun rest _ => ?_⟩
  have run := all.readMembers_joined true rest
  rw [joined, if_pos rfl] at run
  rw [encodeUtf8_writeObject, List.cons_append, List.append_assoc]
  simp [readRecord, skipSpace_cons (show isSpace 0x7B = false by decide), run, whole, readObjectEnd_close, bind,
    Except.bind, Except.map]

end Written

/-- A field is started by its name, where no other has that name and it has not been read. -/
theorem startMember_of_mem {fields : List (RecordField σ)} {field : RecordField σ}
    (distinct : (fields.map RecordField.name).Nodup) (member : field ∈ fields)
    (absent : field.present state = false) :
    startMember fields state field.name.toList = .ok (field.read state) := by
  have found : (fields.find? fun other => other.name.toList = field.name.toList) = some field := by
    induction fields with
    | nil => cases member
    | cons other fields ih =>
      obtain ⟨differs, distinct⟩ := List.nodup_cons.mp distinct
      rcases List.mem_cons.mp member with rfl | member
      · rw [List.find?_cons_of_pos (by simp)]
      · rw [List.find?_cons_of_neg, ih distinct member]
        rw [decide_eq_true_eq, String.toList_inj]
        rintro same
        exact differs (same ▸ List.mem_map_of_mem member)
  simp [startMember, found, absent]

section Trees

variable {depth : Nat}

theorem Written.naturalValue {n : Nat} (small : n < 2 ^ 64) :
    Written (readValue depth) (digits n) (.number (.natural n)) := by
  refine ⟨opens_digits n, fun rest ends => ?_⟩
  have run := readNumber_digits small ends.endsNumber
  have own := skipSpace_opens (opens_digits n) rest
  obtain ⟨b, more, front, digit, _⟩ := digits_front n
  have other {word : UInt8} (letter : isDigitByte word = false) : b ≠ word := by
    rintro rfl
    rw [digit] at letter
    cases letter
  rw [front, List.cons_append] at run own ⊢
  unfold readValue
  simp [own, other (show isDigitByte 0x6E = false by decide), other (show isDigitByte 0x74 = false by decide),
    other (show isDigitByte 0x66 = false by decide), digit, run, Except.map]

theorem Written.stringValue (text : List Char) : Written (readValue depth) (writeString text) (.string text) := by
  refine ⟨opens_writeString text, fun rest _ => ?_⟩
  rw [encodeUtf8_writeString, List.cons_append, List.append_assoc]
  unfold readValue
  simp [skipSpace_cons (show isSpace 0x22 = false by decide), isDigitByte, readString_flatMap, Except.map]

theorem Written.booleanValue (value : Bool) : Written (readValue depth) (writeBoolean value) (.boolean value) := by
  refine ⟨opens_writeBoolean value, fun rest _ => ?_⟩
  unfold readValue
  cases value with
  | true => simp [encodeUtf8_true, skipSpace_cons (show isSpace 0x74 = false by decide), readWord, Except.map]
  | false => simp [encodeUtf8_false, skipSpace_cons (show isSpace 0x66 = false by decide), readWord, Except.map]

/-- Members whose values are read as trees. -/
def Trees (depth : Nat) : List (String × List Char) → List (List Char × Value) → Prop :=
  List.Forall₂ fun member entry => entry.1 = member.1.toList ∧ Written (readValue depth) member.2 entry.2

theorem Trees.all (put : σ → List Char → Value → σ) {members : List (String × List Char)}
    {values : List (List Char × Value)} (trees : Trees depth members values)
    (starts : ∀ entry ∈ values, ∀ state, start state entry.1 =
      .ok fun input => (readValue depth input).map fun (value, rest) => (put state entry.1 value, rest))
        (state : σ) :
    Members start state members (values.foldl (fun state entry => put state entry.1 entry.2) state) := by
  induction trees generalizing state with
  | nil => exact .nil
  | @cons member entry members values head _ ih =>
    obtain ⟨own, others⟩ := List.forall_mem_cons.mp starts
    obtain ⟨named, written⟩ := head
    exact .cons (named ▸ own state) written.map (ih others _)

/-- A member of a tree is put in front of those read before it. -/
def collect (depth : Nat) (members : List (List Char × Value)) (name : List Char) :
    Except Problem (Reader (List (List Char × Value))) :=
  .ok fun input => (readValue depth input).map fun (value, rest) => ((name, value) :: members, rest)

theorem readValue_brace (depth : Nat) (input : Bytes) : readValue (depth + 1) (0x7B :: input) = (do
    let (members, rest) ← readMembers (collect depth) true [] input
    let rest ← readObjectEnd rest
    .ok (Value.object members.reverse, rest)) := by
  rw [readValue, skipSpace_cons (by decide)]
  rfl

theorem Trees.written {members : List (String × List Char)} {values : List (List Char × Value)}
    (trees : Trees depth members values) :
    Written (readValue (depth + 1)) (writeObject members) (.object values) := by
  refine ⟨⟨0x7B, _, encodeUtf8_writeObject members, by decide, by decide, by decide⟩, fun rest _ => ?_⟩
  have all : Members (collect depth) [] members (values.foldl (fun members entry => entry :: members) []) :=
    trees.all (fun members name value => (name, value) :: members) (fun _ _ _ => rfl) []
  have run := all.readMembers_joined true rest
  rw [joined, if_pos rfl] at run
  rw [encodeUtf8_writeObject, List.cons_append, List.append_assoc, List.singleton_append, readValue_brace]
  simp [run, readObjectEnd_close, bind, Except.bind]

end Trees

end Columnar.Json
