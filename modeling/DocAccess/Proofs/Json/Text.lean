import DocAccess.Json.Printer
import DocAccess.Json.Reader
import DocAccess.Proofs.Text.Numeral

/-!
# JSON read back

The text of a well-formed value is read as that value: its strings have contents, which are any
characters at all, and its numbers are spelled as the grammar has them. Inside arrays and
objects a value is read back in front of whatever may follow it there.
-/

set_option autoImplicit false

namespace DocAccess.Json

/-! ## Strings -/

/-- The character that a part of a string is, whatever parts follow it. -/
inductive Piece.Spells : Piece → Char → Prop
  | char (c : Char) : Spells (.char c) c
  | unit {code : Nat} : code < 0xD800 → Spells (.unit code) (Char.ofNat code)

private theorem joinPieces?_cons {piece : Piece} {c : Char} (spelled : piece.Spells c)
    (pieces : List Piece) :
    joinPieces? (piece :: pieces) = (joinPieces? pieces).map (c :: ·) := by
  cases spelled with
  | char c => rfl
  | @unit code small =>
      have noHigh : ¬ (0xD800 ≤ code ∧ code < 0xDC00) := by omega
      have noLow : ¬ (0xDC00 ≤ code ∧ code < 0xE000) := by omega
      have noHalf : ¬ (0xD800 ≤ code ∧ code < 0xE000) := by omega
      cases pieces with
      | nil => simp only [joinPieces?, if_neg noHalf]
      | cons next pieces =>
          cases next with
          | char next => simp only [joinPieces?, if_neg noHalf]
          | unit low => rw [joinPieces?, if_neg noHigh, if_neg noLow]

private theorem readPieces?_letter {letter c : Char} (known : unescape? letter = some c)
    (short : letter ≠ 'u') (rest : List Char) :
    readPieces? ('\\' :: letter :: rest) =
      (readPieces? rest).map fun (pieces, tail) => (.char c :: pieces, tail) := by
  rw [readPieces?]
  · rw [known]
    cases readPieces? rest <;> rfl
  · rintro _ _ _ _ _ rfl
    exact fun _ => short rfl

private theorem unit?_digits {code : Nat} (small : code < 32) :
    unit? '0' '0' (Hex.digit (code / 16)) (Hex.digit (code % 16)) = some code := by
  have high := Hex.value?_digit (show code / 16 < 16 by omega)
  have low := Hex.value?_digit (show code % 16 < 16 by omega)
  have zero : Hex.value? '0' = some 0 := by decide
  simp [unit?, high, low, zero, Nat.div_add_mod']

/-- An escape is one part, which spells the character it stands for. -/
private theorem readPieces?_escape (c : Char) : ∃ piece : Piece, piece.Spells c ∧ ∀ rest,
    readPieces? (escape c ++ rest) =
      (readPieces? rest).map fun (pieces, tail) => (piece :: pieces, tail) := by
  unfold escape
  split
  · subst_vars
    exact ⟨_, .char _, readPieces?_letter rfl (by decide)⟩
  split
  · subst_vars
    exact ⟨_, .char _, readPieces?_letter rfl (by decide)⟩
  split
  · subst_vars
    exact ⟨_, .char _, readPieces?_letter rfl (by decide)⟩
  split
  · subst_vars
    exact ⟨_, .char _, readPieces?_letter rfl (by decide)⟩
  split
  · subst_vars
    exact ⟨_, .char _, readPieces?_letter rfl (by decide)⟩
  split
  · subst_vars
    exact ⟨_, .char _, readPieces?_letter rfl (by decide)⟩
  split
  · subst_vars
    exact ⟨_, .char _, readPieces?_letter rfl (by decide)⟩
  split
  · rename_i control
    have spelled : (Piece.unit c.toNat).Spells (Char.ofNat c.toNat) := .unit (by omega)
    rw [Char.ofNat_toNat] at spelled
    refine ⟨_, spelled, fun rest => ?_⟩
    simp only [List.cons_append, List.nil_append, readPieces?, unit?_digits control]
    cases readPieces? rest <;> rfl
  · rename_i noQuote noBackslash _ _ _ _ _ visible
    refine ⟨_, .char c, fun rest => ?_⟩
    rw [List.cons_append, List.nil_append, readPieces?]
    · simp only [visible, noBackslash, decide_false, Bool.or_self, Bool.false_eq_true, if_false]
      cases readPieces? rest <;> rfl
    · exact noQuote
    · rintro _ _ _ _ _ same
      exact absurd same noBackslash
    · rintro _ _ same
      exact absurd same noBackslash

/-- Any characters at all are read back up to the closing quote. -/
private theorem readPieces?_writeChars (chars rest : List Char) : ∃ pieces,
    readPieces? (writeChars chars rest) = some (pieces, rest) ∧
      joinPieces? pieces = some chars := by
  induction chars with
  | nil => exact ⟨[], by simp [writeChars, readPieces?], rfl⟩
  | cons c chars ih =>
      obtain ⟨piece, spelled, read⟩ := readPieces?_escape c
      obtain ⟨pieces, tail, joined⟩ := ih
      refine ⟨piece :: pieces, ?_, ?_⟩
      · rw [writeChars, read, tail, Option.map_some]
      · rw [joinPieces?_cons spelled, joined, Option.map_some]

theorem readText?_writeChars (content : String) (rest : List Char) :
    readText? (writeChars content.toList rest) = some (some content, rest) := by
  obtain ⟨pieces, read, joined⟩ := readPieces?_writeChars content.toList rest
  simp [readText?, read, joined]

theorem length_writeChars (chars rest : List Char) :
    rest.length < (writeChars chars rest).length := by
  induction chars with
  | nil => simp [writeChars]
  | cons c chars ih =>
      rw [writeChars, List.length_append]
      omega

/-! ## Numbers -/

/-- What may follow a value that is written inside another, and the end of the text. -/
def Ends (rest : List Char) : Prop :=
  ∀ c ∈ rest.head?, c = ',' ∨ c = ']' ∨ c = '}'

theorem ends_cons {c : Char} {rest : List Char} (closing : c = ',' ∨ c = ']' ∨ c = '}') :
    Ends (c :: rest) := by
  intro head mem
  cases mem
  exact closing

/-- A number after its sign. -/
def readUnsigned? (sign source : List Char) : Option (Json × List Char) := do
  let (whole, rest) ← readWhole? source
  let (fraction, rest) ← readFraction? rest
  let (exponent, rest) ← readExponent? rest
  return (.number (String.ofList (sign ++ whole ++ fraction ++ exponent)), rest)

private theorem readNumber?_minus (source : List Char) :
    readNumber? ('-' :: source) = readUnsigned? ['-'] source := rfl

theorem readNumber?_of_unsigned {source : List Char} (unsigned : ∀ tail, source ≠ '-' :: tail) :
    readNumber? source = readUnsigned? [] source := by
  unfold readNumber? readUnsigned?
  split
  rename_i sign rest same
  split at same
  · exact absurd rfl (unsigned _)
  · cases same
    rfl

section Numbers

variable {rest : List Char} (ends : Ends rest)

include ends

theorem spanDigits_append (source : List Char) :
    spanDigits (source ++ rest) = ((spanDigits source).1, (spanDigits source).2 ++ rest) := by
  induction source with
  | nil =>
      cases rest with
      | nil => rfl
      | cons c rest =>
          have other : Numeral.isDigit c = false := by
            rcases ends c rfl with rfl | rfl | rfl <;> decide
          simp [spanDigits, other]
  | cons c source ih =>
      simp only [spanDigits, Prod.mk.injEq] at ih
      by_cases digit : Numeral.isDigit c = true
      · simp [spanDigits, digit, ih]
      · simp [spanDigits, digit]

private theorem readWhole?_append (source : List Char) :
    readWhole? (source ++ rest) =
      (readWhole? source).map fun (whole, tail) => (whole, tail ++ rest) := by
  cases source with
  | nil =>
      cases rest with
      | nil => rfl
      | cons c rest => rcases ends c rfl with rfl | rfl | rfl <;> rfl
  | cons c source =>
      by_cases zero : c = '0'
      · rw [zero]
        rfl
      · rw [readWhole?, readWhole?, spanDigits_append ends]
        · rcases spanDigits (c :: source) with ⟨_ | ⟨digit, digits⟩, tail⟩ <;> rfl
        · exact fun _ same => zero (List.cons.inj same).1
        · exact fun _ same => zero (List.cons.inj same).1

private theorem readFraction?_append (source : List Char) :
    readFraction? (source ++ rest) =
      (readFraction? source).map fun (fraction, tail) => (fraction, tail ++ rest) := by
  cases source with
  | nil =>
      cases rest with
      | nil => rfl
      | cons c rest => rcases ends c rfl with rfl | rfl | rfl <;> rfl
  | cons c source =>
      by_cases point : c = '.'
      · rw [point, List.cons_append, readFraction?, readFraction?, spanDigits_append ends]
        rcases spanDigits source with ⟨_ | ⟨digit, digits⟩, tail⟩ <;> rfl
      · rw [readFraction?, readFraction?, Option.map_some]
        · exact fun _ same => point (List.cons.inj same).1
        · exact fun _ same => point (List.cons.inj same).1

private theorem readSign_append (source : List Char) :
    readSign (source ++ rest) = ((readSign source).1, (readSign source).2 ++ rest) := by
  cases source with
  | nil =>
      cases rest with
      | nil => rfl
      | cons c rest => rcases ends c rfl with rfl | rfl | rfl <;> rfl
  | cons c source =>
      by_cases plus : c = '+'
      · rw [plus]
        rfl
      · by_cases minus : c = '-'
        · rw [minus]
          rfl
        · rw [readSign, readSign]
          · exact fun _ same => plus (List.cons.inj same).1
          · exact fun _ same => minus (List.cons.inj same).1
          · exact fun _ same => plus (List.cons.inj same).1
          · exact fun _ same => minus (List.cons.inj same).1

private theorem readExponent?_append (source : List Char) :
    readExponent? (source ++ rest) =
      (readExponent? source).map fun (exponent, tail) => (exponent, tail ++ rest) := by
  cases source with
  | nil =>
      cases rest with
      | nil => rfl
      | cons c rest => rcases ends c rfl with rfl | rfl | rfl <;> rfl
  | cons c source =>
      rw [List.cons_append, readExponent?, readExponent?]
      split
      · rw [readSign_append ends]
        simp only [spanDigits_append ends]
        rcases spanDigits (readSign source).2 with ⟨_ | ⟨digit, digits⟩, tail⟩ <;> rfl
      · rfl

private theorem readUnsigned?_append (sign source : List Char) :
    readUnsigned? sign (source ++ rest) =
      (readUnsigned? sign source).map fun (value, tail) => (value, tail ++ rest) := by
  unfold readUnsigned?
  rw [readWhole?_append ends]
  rcases readWhole? source with _ | ⟨whole, afterWhole⟩
  · rfl
  simp only [Option.map_some, Option.bind_eq_bind, Option.bind_some, readFraction?_append ends]
  rcases readFraction? afterWhole with _ | ⟨fraction, afterFraction⟩
  · rfl
  simp only [Option.map_some, Option.bind_some, readExponent?_append ends]
  rcases readExponent? afterFraction with _ | ⟨exponent, tail⟩ <;> rfl

private theorem readNumber?_append (source : List Char) :
    readNumber? (source ++ rest) =
      (readNumber? source).map fun (value, tail) => (value, tail ++ rest) := by
  cases source with
  | nil =>
      cases rest with
      | nil => rfl
      | cons c rest => rcases ends c rfl with rfl | rfl | rfl <;> rfl
  | cons c source =>
      by_cases minus : c = '-'
      · rw [minus, List.cons_append, readNumber?_minus, readNumber?_minus,
          readUnsigned?_append ends]
      · have unsigned (tail : List Char) :
            readNumber? (c :: tail) = readUnsigned? [] (c :: tail) :=
          readNumber?_of_unsigned fun _ same => minus (List.cons.inj same).1
        rw [List.cons_append, unsigned, unsigned, ← List.cons_append, readUnsigned?_append ends]

end Numbers

/-- A number starts with a minus sign or a digit. -/
private theorem starts_of_readNumber? {source : List Char} {found : Json × List Char}
    (read : readNumber? source = some found) :
    ∃ c tail, source = c :: tail ∧ (c = '-' ∨ Numeral.isDigit c = true) := by
  cases source with
  | nil => cases read
  | cons c source =>
      refine ⟨c, source, rfl, Decidable.byContradiction fun other => ?_⟩
      obtain ⟨minus, digit⟩ := not_or.mp other
      rw [readNumber?_of_unsigned fun _ same => minus (List.cons.inj same).1] at read
      have none : readWhole? (c :: source) = none := by
        rw [readWhole?]
        · simp [spanDigits, digit]
        · rintro _ same
          rw [(List.cons.inj same).1] at digit
          exact digit (by decide)
      rw [readUnsigned?, none] at read
      cases read

/-! ## Values -/

/-- Values whose strings have contents and whose numbers are spelled as the grammar has them. -/
inductive WellFormed : Json → Prop
  | null : WellFormed .null
  | bool (value : Bool) : WellFormed (.bool value)
  | number {literal : String} : readNumber? literal.toList = some (.number literal, []) →
      WellFormed (.number literal)
  | str (content : String) : WellFormed (.str content)
  | array {items : List Json} : (∀ item ∈ items, WellFormed item) → WellFormed (.array items)
  | record {members : List (String × Json)} : (∀ entry ∈ members, WellFormed entry.2) →
      WellFormed (.record members)

/-- A value that is read back wherever it is written. Reading one value takes at most one call
less than twice the length of its text. -/
structure ReadsBack (value : Json) : Prop where
  starts : ∀ rest, ∃ c tail, writeValue value rest = c :: tail ∧ isSpace c = false ∧ c ≠ ']'
  longer : ∀ rest, rest.length < (writeValue value rest).length
  read : ∀ fuel rest, Ends rest →
    2 * (writeValue value rest).length ≤ fuel + 1 + 2 * rest.length →
      readValue? fuel (writeValue value rest) = some (value, rest)

theorem skipSpace_cons {c : Char} {tail : List Char} (visible : isSpace c = false) :
    skipSpace (c :: tail) = c :: tail := by
  simp [skipSpace, visible]

theorem isSpace_of_number {c : Char} (starts : c = '-' ∨ Numeral.isDigit c = true) :
    isSpace c = false := by
  rcases starts with rfl | digit
  · decide
  · obtain ⟨lower, upper⟩ := Numeral.isDigit_iff.mp digit
    have other (blank : Char) (control : blank.toNat < 48) : c ≠ blank := by
      rintro rfl
      omega
    simp [isSpace, other ' ' (by decide), other '\t' (by decide), other '\n' (by decide),
      other '\r' (by decide)]

/-- What starts as a number does is read as one. -/
private theorem readValue?_number {c : Char} {tail : List Char} (fuel : Nat)
    (starts : c = '-' ∨ Numeral.isDigit c = true) :
    readValue? (fuel + 1) (c :: tail) = readNumber? (c :: tail) := by
  have other {first : Char} {rest : List Char} (same : c :: tail = first :: rest) :
      first = '-' ∨ Numeral.isDigit first = true := by
    rw [← (List.cons.inj same).1]
    exact starts
  rw [readValue?, skipSpace_cons (isSpace_of_number starts)]
  split <;> rename_i same
  · exact absurd (other same) (by decide)
  · exact absurd (other same) (by decide)
  · exact absurd (other same) (by decide)
  · exact absurd (other same) (by decide)
  · exact absurd (other same) (by decide)
  · exact absurd (other same) (by decide)
  · rfl

/-- One call reads a value without parts. -/
theorem ReadsBack.ofScalar {value : Json}
    (starts : ∀ rest, ∃ c tail, writeValue value rest = c :: tail ∧ isSpace c = false ∧ c ≠ ']')
    (longer : ∀ rest, rest.length < (writeValue value rest).length)
    (read : ∀ fuel rest, Ends rest →
      readValue? (fuel + 1) (writeValue value rest) = some (value, rest)) : ReadsBack value where
  starts := starts
  longer := longer
  read fuel rest ends enough := by
    have more := longer rest
    obtain ⟨left, rfl⟩ : ∃ left, fuel = left + 1 := ⟨fuel - 1, by omega⟩
    exact read left rest ends

theorem ReadsBack.ofWord {value : Json} {first : Char} (word : List Char)
    (written : ∀ rest, writeValue value rest = first :: (word ++ rest))
    (visible : isSpace first = false) (unclosed : first ≠ ']')
    (read : ∀ fuel rest, Ends rest →
      readValue? (fuel + 1) (first :: (word ++ rest)) = some (value, rest)) : ReadsBack value := by
  refine .ofScalar (fun rest => ⟨first, _, written rest, visible, unclosed⟩) (fun rest => ?_)
    fun fuel rest ends => ?_
  · rw [written, List.length_cons, List.length_append]
    omega
  · rw [written]
    exact read fuel rest ends

private theorem readsBack_null : ReadsBack .null :=
  .ofWord ['u', 'l', 'l'] (fun _ => rfl) (by decide) (by decide) fun _ _ _ => rfl

private theorem readsBack_bool (value : Bool) : ReadsBack (.bool value) := by
  cases value with
  | false =>
      exact .ofWord ['a', 'l', 's', 'e'] (fun _ => rfl) (by decide) (by decide) fun _ _ _ => rfl
  | true => exact .ofWord ['r', 'u', 'e'] (fun _ => rfl) (by decide) (by decide) fun _ _ _ => rfl

private theorem readsBack_str (content : String) : ReadsBack (.str content) := by
  refine .ofScalar (fun _ => ⟨'"', _, rfl, by decide, by decide⟩)
    (fun rest => Nat.lt_succ_of_lt (length_writeChars content.toList rest)) fun fuel rest _ => ?_
  have read := readText?_writeChars content rest
  have visible : isSpace '"' = false := by decide
  simp only [str, writeValue, writeText, Option.getD_some, readValue?, skipSpace_cons visible, read,
    Option.map_some]

private theorem readsBack_number {literal : String}
    (spelled : readNumber? literal.toList = some (.number literal, [])) :
    ReadsBack (.number literal) := by
  obtain ⟨c, digits, chars, first⟩ := starts_of_readNumber? spelled
  have unclosed : c ≠ ']' := by
    rintro rfl
    exact absurd first (by decide)
  refine .ofWord digits (fun rest => ?_) (isSpace_of_number first) unclosed fun fuel rest ends => ?_
  · rw [writeValue, chars, List.cons_append]
  · rw [readValue?_number fuel first, ← List.cons_append, ← chars, readNumber?_append ends, spelled]
    rfl

/-! ### Arrays -/

private theorem ends_writeItems (items : List Json) (rest : List Char) :
    Ends (writeItems items rest) := by
  cases items with
  | nil => exact ends_cons (.inr (.inl rfl))
  | cons item items => exact ends_cons (.inl rfl)

theorem length_writeItems {items : List Json} (each : ∀ item ∈ items, ReadsBack item)
    (rest : List Char) : rest.length < (writeItems items rest).length := by
  induction items with
  | nil => simp [writeItems]
  | cons item items ih =>
      have tail := ih fun item mem => each item (List.mem_cons_of_mem _ mem)
      have head := (each item List.mem_cons_self).longer (writeItems items rest)
      rw [writeItems, List.length_cons]
      omega

/-- An item takes one call more than its value, and at least two characters. -/
private theorem readItems?_writeItems {item : Json} {items : List Json} (fuel : Nat)
    (rest : List Char) (each : ∀ entry ∈ item :: items, ReadsBack entry)
    (enough : 2 * (writeValue item (writeItems items rest)).length ≤ fuel + 2 + 2 * rest.length) :
    readItems? fuel (writeValue item (writeItems items rest)) = some (item :: items, rest) := by
  induction items generalizing item fuel with
  | nil =>
      have head := each item List.mem_cons_self
      have longer := head.longer (writeItems [] rest)
      have closing : (writeItems [] rest).length = rest.length + 1 := by simp [writeItems]
      obtain ⟨left, rfl⟩ : ∃ left, fuel = left + 1 := ⟨fuel - 1, by omega⟩
      have read := head.read left _ (ends_writeItems [] rest) (by omega)
      have visible : isSpace ']' = false := by decide
      rw [readItems?, read]
      simp only [Option.bind_eq_bind, Option.bind_some, writeItems, skipSpace_cons visible]
      rfl
  | cons next items ih =>
      have head := each item List.mem_cons_self
      have others : ∀ entry ∈ next :: items, ReadsBack entry :=
        fun entry mem => each entry (List.mem_cons_of_mem _ mem)
      have longer := head.longer (writeItems (next :: items) rest)
      have comma : (writeItems (next :: items) rest).length =
          (writeValue next (writeItems items rest)).length + 1 := by simp [writeItems]
      have tail := length_writeItems others rest
      obtain ⟨left, rfl⟩ : ∃ left, fuel = left + 1 := ⟨fuel - 1, by omega⟩
      have read := head.read left _ (ends_writeItems (next :: items) rest) (by omega)
      have readTail := ih left others (by omega)
      have visible : isSpace ',' = false := by decide
      rw [readItems?, read]
      simp only [Option.bind_eq_bind, Option.bind_some, writeItems, skipSpace_cons visible,
        readTail]
      rfl

private theorem readsBack_array {items : List Json} (each : ∀ item ∈ items, ReadsBack item) :
    ReadsBack (.array items) := by
  cases items with
  | nil =>
      exact .ofWord [']'] (fun _ => rfl) (by decide) (by decide) fun _ _ _ => rfl
  | cons item items =>
      have others : ∀ entry ∈ items, ReadsBack entry :=
        fun entry mem => each entry (List.mem_cons_of_mem _ mem)
      have longer (rest : List Char) :
          rest.length < (writeValue item (writeItems items rest)).length :=
        Nat.lt_trans (length_writeItems others rest) ((each item List.mem_cons_self).longer _)
      refine ⟨fun _ => ⟨'[', _, by rw [writeValue], by decide, by decide⟩, fun rest => ?_,
        fun fuel rest ends enough => ?_⟩
      · rw [writeValue, List.length_cons]
        exact Nat.lt_succ_of_lt (longer rest)
      · rw [writeValue, List.length_cons] at enough
        have inside := longer rest
        obtain ⟨left, rfl⟩ : ∃ left, fuel = left + 1 := ⟨fuel - 1, by omega⟩
        have read := readItems?_writeItems left rest each (by omega)
        obtain ⟨c, tail, start, visible, unclosed⟩ :=
          (each item List.mem_cons_self).starts (writeItems items rest)
        have bracket : isSpace '[' = false := by decide
        rw [writeValue, readValue?, skipSpace_cons bracket]
        simp only [start, skipSpace_cons visible] at read ⊢
        split
        · rename_i closing
          exact absurd (List.cons.inj closing).1 unclosed
        · rw [read]
          rfl

/-! ### Objects -/

/-- Members with their names as strings. -/
def named (members : List (String × Json)) : List (Option String × Json) :=
  members.map fun (name, value) => (some name, value)

theorem length_writeText (name : String) (rest : List Char) :
    rest.length + 1 < (writeText (some name) rest).length :=
  Nat.succ_lt_succ (length_writeChars name.toList rest)

theorem length_writeMembers {members : List (String × Json)}
    (each : ∀ entry ∈ members, ReadsBack entry.2) (rest : List Char) :
    rest.length < (writeMembers (named members) rest).length := by
  induction members with
  | nil => simp [named, writeMembers]
  | cons entry members ih =>
      have tail := ih fun entry mem => each entry (List.mem_cons_of_mem _ mem)
      have value := (each entry List.mem_cons_self).longer (writeMembers (named members) rest)
      have name := length_writeText entry.1
        (':' :: writeValue entry.2 (writeMembers (named members) rest))
      simp only [named, List.map_cons, writeMembers, List.length_cons] at tail value name ⊢
      omega

private theorem writeMembers_named_cons (entry : String × Json) (members : List (String × Json))
    (rest : List Char) :
    writeMembers (named (entry :: members)) rest =
      ',' :: writeText (some entry.1)
        (':' :: writeValue entry.2 (writeMembers (named members) rest)) := by
  rw [named, List.map_cons, writeMembers]
  rfl

private theorem readMembers?_last {fuel : Nat} {name : String} {value : Json} {rest : List Char}
    (read : readValue? fuel (writeValue value ('}' :: rest)) = some (value, '}' :: rest)) :
    readMembers? (fuel + 1) (writeText (some name) (':' :: writeValue value ('}' :: rest))) =
      some ([(some name, value)], rest) := by
  have quote : isSpace '"' = false := by decide
  have colon : isSpace ':' = false := by decide
  have closing : isSpace '}' = false := by decide
  simp only [writeText, Option.getD_some, readMembers?, skipSpace_cons quote, readText?_writeChars,
    Option.bind_eq_bind, Option.bind_some, skipSpace_cons colon, read, skipSpace_cons closing]
  rfl

private theorem readMembers?_more {fuel : Nat} {name : String} {value : Json}
    {more rest : List Char} {members : List (Option String × Json)}
    (read : readValue? fuel (writeValue value (',' :: more)) = some (value, ',' :: more))
    (tail : readMembers? fuel more = some (members, rest)) :
    readMembers? (fuel + 1) (writeText (some name) (':' :: writeValue value (',' :: more))) =
      some ((some name, value) :: members, rest) := by
  have quote : isSpace '"' = false := by decide
  have colon : isSpace ':' = false := by decide
  have comma : isSpace ',' = false := by decide
  simp only [writeText, Option.getD_some, readMembers?, skipSpace_cons quote, readText?_writeChars,
    Option.bind_eq_bind, Option.bind_some, skipSpace_cons colon, read, skipSpace_cons comma, tail]
  rfl

private theorem readMembers?_writeMembers {entry : String × Json} {members : List (String × Json)}
    (fuel : Nat) (rest : List Char)
    (each : ∀ member ∈ entry :: members, ReadsBack member.2)
    (enough : 2 * (writeText (some entry.1)
        (':' :: writeValue entry.2 (writeMembers (named members) rest))).length ≤
      fuel + 2 + 2 * rest.length) :
    readMembers? fuel (writeText (some entry.1)
        (':' :: writeValue entry.2 (writeMembers (named members) rest))) =
      some (named (entry :: members), rest) := by
  induction members generalizing entry fuel with
  | nil =>
      have head := each entry List.mem_cons_self
      have longer := head.longer ('}' :: rest)
      have name := length_writeText entry.1 (':' :: writeValue entry.2 ('}' :: rest))
      simp only [named, List.map_nil, writeMembers, List.length_cons] at longer name enough ⊢
      obtain ⟨left, rfl⟩ : ∃ left, fuel = left + 1 := ⟨fuel - 1, by omega⟩
      exact readMembers?_last (head.read left _ (ends_cons (.inr (.inr rfl)))
        (by rw [List.length_cons]; omega))
  | cons next members ih =>
      have head := each entry List.mem_cons_self
      have others : ∀ member ∈ next :: members, ReadsBack member.2 :=
        fun member mem => each member (List.mem_cons_of_mem _ mem)
      have tail := length_writeMembers others rest
      rw [writeMembers_named_cons] at enough tail ⊢
      have longer := head.longer (',' :: writeText (some next.1)
        (':' :: writeValue next.2 (writeMembers (named members) rest)))
      have name := length_writeText entry.1 (':' :: writeValue entry.2 (',' ::
        writeText (some next.1) (':' :: writeValue next.2 (writeMembers (named members) rest))))
      rw [List.length_cons] at longer name tail
      obtain ⟨left, rfl⟩ : ∃ left, fuel = left + 1 := ⟨fuel - 1, by omega⟩
      exact readMembers?_more (head.read left _ (ends_cons (.inl rfl))
        (by rw [List.length_cons]; omega)) (ih left others (by omega))

private theorem readsBack_record {members : List (String × Json)}
    (each : ∀ entry ∈ members, ReadsBack entry.2) : ReadsBack (.record members) := by
  cases members with
  | nil =>
      exact .ofWord ['}'] (fun _ => rfl) (by decide) (by decide) fun _ _ _ => rfl
  | cons entry members =>
      have written (rest : List Char) : writeValue (.record (entry :: members)) rest =
          '{' :: writeText (some entry.1)
            (':' :: writeValue entry.2 (writeMembers (named members) rest)) := by
        rw [record, List.map_cons, writeValue]
        rfl
      have longer (rest : List Char) : rest.length < (writeText (some entry.1)
          (':' :: writeValue entry.2 (writeMembers (named members) rest))).length := by
        have value := (each entry List.mem_cons_self).longer (writeMembers (named members) rest)
        have tail := length_writeMembers
          (fun entry mem => each entry (List.mem_cons_of_mem _ mem)) rest
        have name := length_writeText entry.1
          (':' :: writeValue entry.2 (writeMembers (named members) rest))
        rw [List.length_cons] at name
        omega
      refine ⟨fun rest => ⟨'{', _, written rest, by decide, by decide⟩, fun rest => ?_,
        fun fuel rest ends enough => ?_⟩
      · rw [written, List.length_cons]
        exact Nat.lt_succ_of_lt (longer rest)
      · rw [written, List.length_cons] at enough
        have inside := longer rest
        obtain ⟨left, rfl⟩ : ∃ left, fuel = left + 1 := ⟨fuel - 1, by omega⟩
        have read := readMembers?_writeMembers left rest each (by omega)
        have brace : isSpace '{' = false := by decide
        have quote : isSpace '"' = false := by decide
        rw [written, readValue?, skipSpace_cons brace]
        rw [writeText] at read ⊢
        simp only [skipSpace_cons quote, read]
        rfl

/-! ## Texts -/

private theorem WellFormed.readsBack {value : Json} (wellFormed : WellFormed value) :
    ReadsBack value := by
  induction wellFormed with
  | null => exact readsBack_null
  | bool value => exact readsBack_bool value
  | number spelled => exact readsBack_number spelled
  | str content => exact readsBack_str content
  | array _ ih => exact readsBack_array ih
  | record _ ih => exact readsBack_record ih

theorem parse?_render {value : Json} (wellFormed : WellFormed value) :
    parse? value.render = some value := by
  have ends : Ends [] := fun _ none => by cases none
  have read := wellFormed.readsBack.read (2 * (writeValue value []).length + 2) [] ends (by omega)
  simp [parse?, parseChars?, render, read, skipSpace]

end DocAccess.Json
