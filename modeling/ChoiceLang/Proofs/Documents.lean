import ChoiceLang.Json.Document
import ChoiceLang.Json.Value
import ChoiceLang.Proofs.Texts

/-!
# The grammar of JSON

A document without faults has many spellings: there may be white space between lexemes, a number
may have leading zeros in its exponent, and a character of a string may be escaped. `Spelled` says
which texts spell a document, and each of them is read as that document, whatever follows it.
-/

namespace ChoiceLang.Json

/-! ## White space -/

/-- A text of white space. -/
def Spacing (text : List Char) : Prop := ∀ c ∈ text, isSpace c = true

section

variable {space text rest : List Char} {c : Char}

/-- No text at all is white space. -/
lemma spacing_nil : Spacing [] := fun _ mem => absurd mem List.not_mem_nil

/-- White space in front of a text is skipped. -/
lemma skipSpace_append (spacing : Spacing space) (text : List Char) :
    skipSpace (space ++ text) = skipSpace text :=
  List.dropWhile_append_of_pos spacing

/-- Nothing is skipped in front of any other character. -/
lemma skipSpace_cons (notSpace : isSpace c = false) (rest : List Char) :
    skipSpace (c :: rest) = c :: rest :=
  List.dropWhile_cons_of_neg (by simp [notSpace])

/-- White space is skipped up to the first character that is none. -/
lemma skipSpace_append_cons (spacing : Spacing space) (notSpace : isSpace c = false)
    (rest : List Char) : skipSpace (space ++ c :: rest) = c :: rest :=
  (skipSpace_append spacing _).trans (skipSpace_cons notSpace rest)

end

/-! ## Numbers -/

/-- Digits of which there is one at least. -/
inductive DigitsSpelled : List Nat → List Char → Prop where
  | intro {text} :
    text ≠ [] →
    (∀ c ∈ text, c.isDigit = true) →
    DigitsSpelled (text.map digitValue) text

/-- A zero at the start of a whole part stands alone. -/
inductive WholeSpelled : List Nat → List Char → Prop where
  | zero :
    WholeSpelled [0] ['0']
  | digits {digits text} :
    DigitsSpelled digits text →
    (∀ rest, text ≠ '0' :: rest) →
    WholeSpelled digits text

/-- A fraction with one digit at least, or none. -/
inductive FractionSpelled : Option (List Nat) → List Char → Prop where
  | none :
    FractionSpelled none []
  | some {digits text} :
    DigitsSpelled digits text →
    FractionSpelled (some digits) ('.' :: text)

/-- The signs of an exponent. -/
inductive SignSpelled : Bool → List Char → Prop where
  | unsigned :
    SignSpelled false []
  | positive :
    SignSpelled false ['+']
  | negative :
    SignSpelled true ['-']

/-- An exponent with one digit at least, leading zeros included, or none. -/
inductive ExponentSpelled : Option (Bool × List Nat) → List Char → Prop where
  | none :
    ExponentSpelled none []
  | some {mark below sign digits text} :
    mark = 'e' ∨ mark = 'E' →
    SignSpelled below sign →
    DigitsSpelled digits text →
    ExponentSpelled (some (below, digits)) (mark :: sign ++ text)

/-- A number with its sign, its whole part and the parts that may follow. -/
inductive NumberSpelled : NumberText → List Char → Prop where
  | positive {whole fraction exponent a b c} :
    WholeSpelled whole a →
    FractionSpelled fraction b →
    ExponentSpelled exponent c →
    NumberSpelled ⟨false, whole, fraction, exponent⟩ (a ++ b ++ c)
  | negative {whole fraction exponent a b c} :
    WholeSpelled whole a →
    FractionSpelled fraction b →
    ExponentSpelled exponent c →
    NumberSpelled ⟨true, whole, fraction, exponent⟩ ('-' :: a ++ b ++ c)

/-- A text that does not go on the number before it. -/
def EndsNumber (rest : List Char) : Prop :=
  ∀ c ∈ rest.head?, c.isDigit = false ∧ c ≠ '.' ∧ c ≠ 'e' ∧ c ≠ 'E'

section

variable {text rest a b c : List Char} {digits : List Nat}

/-- Digits start with a digit. -/
lemma DigitsSpelled.starts (h : DigitsSpelled digits text) :
    ∃ c others, text = c :: others ∧ c.isDigit = true := by
  cases h with
  | intro some_digit isDigit =>
    obtain ⟨c, others, rfl⟩ := List.exists_cons_of_ne_nil some_digit
    exact ⟨c, others, rfl, isDigit c List.mem_cons_self⟩

/-- Digits are scanned up to the first character that is no digit. -/
lemma scanDigits_of_spelled (h : DigitsSpelled digits text)
    (ends : ∀ c ∈ rest.head?, c.isDigit = false) :
    scanDigits (text ++ rest) = .whole digits rest := by
  cases h with
  | intro some_digit isDigit =>
    have takeRest : rest.takeWhile Char.isDigit = [] := by
      cases rest with
      | nil => rfl
      | cons c rest => exact List.takeWhile_cons_of_neg (by simp [ends c rfl])
    have dropRest : rest.dropWhile Char.isDigit = rest := by
      cases rest with
      | nil => rfl
      | cons c rest => exact List.dropWhile_cons_of_neg (by simp [ends c rfl])
    have leading : leadingDigits (text ++ rest) = text.map digitValue := by
      rw [leadingDigits, List.takeWhile_append_of_pos isDigit, takeRest, List.append_nil]
    have after : afterDigits (text ++ rest) = rest := by
      rw [afterDigits, List.dropWhile_append_of_pos isDigit, dropRest]
    obtain ⟨c, others, rfl⟩ := List.exists_cons_of_ne_nil some_digit
    rw [List.cons_append] at leading after ⊢
    rw [scanDigits, if_pos (isDigit c List.mem_cons_self), leading, after]

/-- A whole part starts with a digit. -/
lemma WholeSpelled.starts (h : WholeSpelled digits text) :
    ∃ c others, text = c :: others ∧ c.isDigit = true := by
  cases h with
  | zero => exact ⟨'0', [], rfl, rfl⟩
  | digits spelled _ => exact spelled.starts

/-- A number starts with a minus or a digit. -/
lemma NumberSpelled.starts {number : NumberText} (h : NumberSpelled number text) :
    ∃ c others, text = c :: others ∧ (c = '-' ∨ c.isDigit = true) := by
  cases h with
  | negative _ _ _ => exact ⟨'-', _, rfl, .inl rfl⟩
  | positive spelled _ _ =>
    obtain ⟨c, others, rfl, isDigit⟩ := spelled.starts
    exact ⟨c, _, rfl, .inr isDigit⟩

/-- What starts a number starts nothing else. -/
lemma ne_of_starts_number {c d : Char} (starts : c = '-' ∨ c.isDigit = true)
    (notDigit : d.isDigit = false) (notMinus : d ≠ '-') : c ≠ d := by
  rintro rfl
  rcases starts with rfl | isDigit
  · exact notMinus rfl
  · rw [isDigit] at notDigit
    cases notDigit

/-- A number does not start with white space. -/
lemma isSpace_of_starts_number {c : Char} (starts : c = '-' ∨ c.isDigit = true) :
    isSpace c = false := by
  have ne {d : Char} := ne_of_starts_number (d := d) starts
  simp [isSpace, ne (d := ' ') rfl (by decide), ne (d := '\n') rfl (by decide),
    ne (d := '\t') rfl (by decide), ne (d := '\r') rfl (by decide)]

/-- A whole part is scanned up to the first character that is no digit. -/
lemma scanWhole_of_spelled (h : WholeSpelled digits text)
    (ends : ∀ c ∈ rest.head?, c.isDigit = false) :
    scanWhole (text ++ rest) = .whole digits rest := by
  cases h with
  | zero =>
    cases rest with
    | nil => rfl
    | cons c rest => simp [scanWhole, ends c rfl]
  | digits spelled noZero =>
    rw [← scanDigits_of_spelled spelled ends]
    obtain ⟨c, others, rfl, -⟩ := spelled.starts
    unfold scanWhole
    split
    · next eq => exact absurd ((List.cons.inj eq).1 ▸ rfl) (noZero others)
    · rfl

/-- An exponent is scanned where nothing goes on the number behind it. -/
lemma scanExponent_of_spelled {exponent : Option (Bool × List Nat)}
    (h : ExponentSpelled exponent text) (ends : EndsNumber rest) (negative : Bool)
    (whole : List Nat) (fraction : Option (List Nat)) :
    scanExponent negative whole fraction (text ++ rest) =
      .whole ⟨negative, whole, fraction, exponent⟩ rest := by
  have endsDigits : ∀ c ∈ rest.head?, c.isDigit = false := fun c mem => (ends c mem).1
  cases h with
  | none =>
    cases rest with
    | nil => rfl
    | cons c rest =>
      obtain ⟨-, -, notSmall, notCapital⟩ := ends c rfl
      exact if_neg (not_or.2 ⟨notSmall, notCapital⟩)
  | @some mark below sign digits text isMark signSpelled spelled =>
    have scanned := scanDigits_of_spelled spelled endsDigits
    cases signSpelled with
    | positive => simp [scanExponent, isMark, scanned, Scan.map]
    | negative => simp [scanExponent, isMark, scanned, Scan.map]
    | unsigned =>
      obtain ⟨c, others, rfl, isDigit⟩ := spelled.starts
      have notPlus : c ≠ '+' := by
        rintro rfl
        cases isDigit
      have notMinus : c ≠ '-' := by
        rintro rfl
        cases isDigit
      show scanExponent negative whole fraction (mark :: (c :: others ++ rest)) = _
      unfold scanExponent
      simp only [isMark, if_true]
      split
      · next eq => exact absurd (List.cons.inj eq).1 notPlus
      · next eq => exact absurd (List.cons.inj eq).1 notMinus
      · rw [scanned]
        rfl

/-- The digits before an exponent end there. -/
lemma ExponentSpelled.ends {exponent : Option (Bool × List Nat)} (h : ExponentSpelled exponent text)
    (ends : EndsNumber rest) : ∀ c ∈ (text ++ rest).head?, c.isDigit = false ∧ c ≠ '.' := by
  cases h with
  | none => exact fun c mem => ⟨(ends c mem).1, (ends c mem).2.1⟩
  | some isMark _ _ =>
    intro c mem
    cases mem
    rcases isMark with rfl | rfl
    · decide
    · decide

/-- A fraction does not start with a digit, and neither does what follows where there is none. -/
lemma FractionSpelled.ends {fraction : Option (List Nat)} (h : FractionSpelled fraction text)
    (ends : ∀ c ∈ rest.head?, c.isDigit = false) :
    ∀ c ∈ (text ++ rest).head?, c.isDigit = false := by
  cases h with
  | none => exact ends
  | some _ =>
    intro c mem
    cases mem
    rfl

/-- A fraction is scanned together with the exponent behind it. -/
lemma scanFraction_of_spelled {fraction : Option (List Nat)} {exponent : Option (Bool × List Nat)}
    (h : FractionSpelled fraction a) (later : ExponentSpelled exponent b) (ends : EndsNumber rest)
    (negative : Bool) (whole : List Nat) :
    scanFraction negative whole (a ++ (b ++ rest)) =
      .whole ⟨negative, whole, fraction, exponent⟩ rest := by
  have endsHere := later.ends ends
  cases h with
  | none =>
    unfold scanFraction
    split
    · next eq =>
      obtain ⟨-, notPoint⟩ := endsHere '.' (congrArg List.head? eq)
      exact absurd rfl notPoint
    · exact scanExponent_of_spelled later ends negative whole none
  | some spelled =>
    have scanned := scanDigits_of_spelled spelled fun c mem => (endsHere c mem).1
    rw [List.cons_append, scanFraction, scanned]
    exact scanExponent_of_spelled later ends negative whole _

/-- A number is read to its end. -/
lemma scanNumber_of_spelled {number : NumberText} (h : NumberSpelled number text)
    (ends : EndsNumber rest) : scanNumber (text ++ rest) = .whole number rest := by
  cases h with
  | @negative whole fraction exponent a b c spelled later last =>
    have scanned := scanWhole_of_spelled spelled
      (later.ends fun c mem => (last.ends ends c mem).1)
    rw [List.append_assoc, List.append_assoc, List.cons_append, scanNumber]
    dsimp only
    rw [scanned]
    exact scanFraction_of_spelled later last ends true whole
  | @positive whole fraction exponent a b c spelled later last =>
    have scanned := scanWhole_of_spelled spelled
      (later.ends fun c mem => (last.ends ends c mem).1)
    obtain ⟨d, others, rfl, isDigit⟩ := spelled.starts
    rw [List.append_assoc, List.append_assoc]
    unfold scanNumber
    split
    · next eq =>
      obtain ⟨rfl, -⟩ := List.cons.inj eq
      cases isDigit
    · dsimp only
      rw [scanned]
      exact scanFraction_of_spelled later last ends false whole

end

/-! ## Strings -/

/-- The spellings of a character between quotes: as it is, with a letter behind a backslash, by its
number, or by the numbers of a surrogate pair. -/
inductive CharSpelled : Char → List Char → Prop where
  | plain {c} :
    c ≠ '"' →
    c ≠ '\\' →
    0x20 ≤ c.toNat →
    CharSpelled c [c]
  | letter {letter c} :
    escaped? letter = some c →
    CharSpelled c ['\\', letter]
  | unit {a b c d unit} :
    hexUnit? a b c d = some unit →
    isHighHalf unit = false →
    isLowHalf unit = false →
    CharSpelled (Char.ofNat unit) ['\\', 'u', a, b, c, d]
  | pair {a b c d high a' b' c' d' low} :
    hexUnit? a b c d = some high →
    isHighHalf high = true →
    hexUnit? a' b' c' d' = some low →
    isLowHalf low = true →
    CharSpelled (pairChar high low)
      ['\\', 'u', a, b, c, d, '\\', 'u', a', b', c', d']

/-- Characters one after another, each in one of its spellings. -/
inductive CharsSpelled : List Char → List Char → Prop where
  | nil :
    CharsSpelled [] []
  | cons {c chars first others} :
    CharSpelled c first →
    CharsSpelled chars others →
    CharsSpelled (c :: chars) (first ++ others)

/-- A string between quotes. -/
inductive StringSpelled : String → List Char → Prop where
  | intro {value text} :
    CharsSpelled value.toList text →
    StringSpelled value ('"' :: text ++ ['"'])

/-- A part of a closed string: a character as it is, or a letter or a number behind a backslash. -/
inductive PartSpelled : List Char → Prop where
  | plain {c} :
    c ≠ '"' →
    c ≠ '\\' →
    0x20 ≤ c.toNat →
    PartSpelled [c]
  | letter {letter c} :
    escaped? letter = some c →
    PartSpelled ['\\', letter]
  | unit {a b c d unit} :
    hexUnit? a b c d = some unit →
    PartSpelled ['\\', 'u', a, b, c, d]

/-- A closed string stands for a text, or for none if it has half of a surrogate pair without the
other half. -/
inductive QuotedSpelled : Except Fault String → List Char → Prop where
  | text {value text} :
    StringSpelled value text →
    QuotedSpelled (.ok value) text
  | noText {parts : List (List Char)} :
    (∀ part ∈ parts, PartSpelled part) →
    (∀ chars, ¬ CharsSpelled chars parts.flatten) →
    QuotedSpelled (.error .malformed) ('"' :: parts.flatten ++ ['"'])

/-- A spelled character is put in front of what the string goes on with. -/
lemma scanString_of_charSpelled {c : Char} {text : List Char} (h : CharSpelled c text)
    (rest : List Char) : scanString none (text ++ rest) = (scanString none rest).push c := by
  cases h with
  | plain notQuote notBackslash notControl =>
    have notControl : ¬ c.toNat < 0x20 := Nat.not_lt.2 notControl
    simp [scanString, notBackslash, notControl]
  | @letter letter c escaped =>
    have notU : letter ≠ 'u' := by
      rintro rfl
      cases escaped
    simp [scanString, escaped, notU]
  | @unit a b c d unit isUnit notHigh notLow =>
    simp [scanString, isUnit, notHigh, notLow]
  | pair isHighUnit isHigh isLowUnit isLow =>
    simp [scanString, isHighUnit, isHigh, isLowUnit, isLow]

/-- The characters of a string are scanned up to the quote behind them. -/
lemma scanString_of_charsSpelled {chars text : List Char} (h : CharsSpelled chars text)
    (rest : List Char) : scanString none (text ++ '"' :: rest) = .whole (.ok chars) rest := by
  induction h with
  | nil => rfl
  | cons here _ ih =>
    rw [List.append_assoc, scanString_of_charSpelled here, ih]
    rfl

/-- What a text stands for behind the first half of a surrogate pair or behind nothing. -/
def SpelledAfter (high : Option Nat) (chars text : List Char) : Prop :=
  match high with
  | none => CharsSpelled chars text
  | some high => ∀ a b c d, hexUnit? a b c d = some high → isHighHalf high = true →
    CharsSpelled chars ('\\' :: 'u' :: a :: b :: c :: d :: text)

/-- A text before a closing quote is read as the characters that it spells, or as no text. -/
def ReadsQuoted (high : Option Nat) (text : List Char) : Prop :=
  ∃ value, (∀ rest, scanString high (text ++ '"' :: rest) = .whole value rest) ∧
    (value = .error .malformed ∨ ∃ chars, value = .ok chars ∧ SpelledAfter high chars text)

section

variable {high : Option Nat} {part text : List Char}

/-- What ends a pair too early leaves no text, whatever follows. -/
lemma ReadsQuoted.spoil (later : ReadsQuoted none text)
    (eq : ∀ rest, scanString high (part ++ rest) = (scanString none rest).spoil) :
    ReadsQuoted high (part ++ text) := by
  obtain ⟨value, scanned, -⟩ := later
  refine ⟨.error .malformed, fun rest => ?_, .inl rfl⟩
  rw [List.append_assoc, eq, scanned]
  rfl

/-- What spells a character can be put in front of a part that reads. -/
lemma ReadsQuoted.push {c : Char} (later : ReadsQuoted none text)
    (eq : ∀ rest, scanString high (part ++ rest) = (scanString none rest).push c)
    (follows : ∀ chars, CharsSpelled chars text → SpelledAfter high (c :: chars) (part ++ text)) :
    ReadsQuoted high (part ++ text) := by
  obtain ⟨value, scanned, rfl | ⟨chars, rfl, spelled⟩⟩ := later
  · refine ⟨.error .malformed, fun rest => ?_, .inl rfl⟩
    rw [List.append_assoc, eq, scanned]
    rfl
  · refine ⟨.ok (c :: chars), fun rest => ?_, .inr ⟨_, rfl, follows chars spelled⟩⟩
    rw [List.append_assoc, eq, scanned]
    rfl

/-- A character in one of its own spellings can be put in front of a part that reads. -/
lemma ReadsQuoted.char {c : Char} (later : ReadsQuoted none text) (spelled : CharSpelled c part) :
    ReadsQuoted none (part ++ text) :=
  later.push (scanString_of_charSpelled spelled) fun _ => .cons spelled

end

/-- Parts in a row are read, also behind the first half of a pair. -/
lemma readsQuoted_of_parts {parts : List (List Char)} (spelled : ∀ part ∈ parts, PartSpelled part)
    (high : Option Nat) : ReadsQuoted high parts.flatten := by
  induction parts generalizing high with
  | nil =>
    cases high with
    | none => exact ⟨.ok [], fun _ => rfl, .inr ⟨[], rfl, .nil⟩⟩
    | some high => exact ⟨.error .malformed, fun _ => rfl, .inl rfl⟩
  | cons part others ih =>
    obtain ⟨here, later⟩ := List.forall_mem_cons.1 spelled
    have later := ih later
    rw [List.flatten_cons]
    cases here with
    | @plain c notQuote notBackslash notControl =>
      cases high with
      | none => exact (later none).char (.plain notQuote notBackslash notControl)
      | some high =>
        have notControl : ¬ c.toNat < 0x20 := Nat.not_lt.2 notControl
        exact (later none).spoil fun rest => by simp [scanString, notBackslash, notControl]
    | @letter letter c escaped =>
      cases high with
      | none => exact (later none).char (.letter escaped)
      | some high =>
        have notU : letter ≠ 'u' := by
          rintro rfl
          cases escaped
        exact (later none).spoil fun rest => by simp [scanString, escaped, notU]
    | @unit a b c d unit isUnit =>
      cases high with
      | some high =>
        cases isLow : isLowHalf unit with
        | false => exact (later none).spoil fun rest => by simp [scanString, isUnit, isLow]
        | true =>
          have scan (rest : List Char) :
              scanString (some high) (['\\', 'u', a, b, c, d] ++ rest) =
                (scanString none rest).push (pairChar high unit) := by
            simp [scanString, isUnit, isLow]
          refine (later none).push scan fun chars charsSpelled => ?_
          exact fun _ _ _ _ isHighUnit isHigh =>
            .cons (.pair isHighUnit isHigh isUnit isLow) charsSpelled
      | none =>
        cases isHigh : isHighHalf unit with
        | true =>
          -- the pair is complete only if the later parts start with its second half
          obtain ⟨value, scanned, means⟩ := later (some unit)
          refine ⟨value, fun rest => ?_, means.imp_right fun ⟨chars, eq, follows⟩ => ?_⟩
          · simp [scanString, isUnit, isHigh, scanned]
          · exact ⟨chars, eq, follows a b c d isUnit isHigh⟩
        | false =>
          cases isLow : isLowHalf unit with
          | true => exact (later none).spoil fun rest => by simp [scanString, isUnit, isHigh, isLow]
          | false => exact (later none).char (.unit isUnit isHigh isLow)

/-! ## Documents -/

/-- Which texts spell a document. -/
abbrev Spelling := Document → List Char → Prop

/-- One or more texts with commas between them, and what closes their list. -/
inductive ListSpelled {α : Type} (spelled : α → List Char → Prop) (close : Char) :
    List α → List Char → Prop where
  | last {a text after} :
    spelled a text →
    Spacing after →
    ListSpelled spelled close [a] (text ++ after ++ [close])
  | cons {a others text after before rest} :
    spelled a text →
    Spacing after →
    Spacing before →
    ListSpelled spelled close others rest →
    ListSpelled spelled close (a :: others) (text ++ after ++ ',' :: before ++ rest)

/-- A member: its key, a colon and its value. -/
inductive MemberSpelled (spelled : Spelling) : Document × Document → List Char → Prop where
  | intro {key value keyText after before text} :
    QuotedSpelled key keyText →
    Spacing after →
    Spacing before →
    spelled value text →
    MemberSpelled spelled (.string key, value) (keyText ++ after ++ ':' :: before ++ text)

/-- The spellings of a document, given those of the documents in it. -/
inductive ValueSpelled (spelled : Spelling) : Spelling where
  | null :
    ValueSpelled spelled .null nullText
  | bool {value} :
    ValueSpelled spelled (.bool value) (boolText value)
  | number {number text} :
    NumberSpelled number text →
    ValueSpelled spelled (.number number) text
  | string {value text} :
    QuotedSpelled value text →
    ValueSpelled spelled (.string value) text
  | emptyArray {space} :
    Spacing space →
    ValueSpelled spelled (.array [] none) ('[' :: space ++ [']'])
  | array {items space text} :
    Spacing space →
    ListSpelled spelled ']' items text →
    ValueSpelled spelled (.array items none) ('[' :: space ++ text)
  | emptyObject {space} :
    Spacing space →
    ValueSpelled spelled (.object [] none) ('\x7b' :: space ++ ['\x7d'])
  | object {members space text} :
    Spacing space →
    ListSpelled (MemberSpelled spelled) '\x7d' members text →
    ValueSpelled spelled (.object members none) ('\x7b' :: space ++ text)

/-- The spellings of a document that is nested less deeply than a bound. -/
def Spelled : Nat → Spelling
  | 0 => fun _ _ => False
  | depth + 1 => ValueSpelled (Spelled depth)

/-- The texts of a document, with white space around it. -/
inductive TextSpelled (document : Document) : List Char → Prop where
  | intro {depth before text after} :
    Spacing before →
    Spelled depth document text →
    Spacing after →
    TextSpelled document (before ++ text ++ after)

/-! ### Deeper nesting -/

section

variable {spelled wider : Spelling}

/-- A list keeps its spelling where its items may be spelled in more ways. -/
lemma ListSpelled.mono {α : Type} {spelled wider : α → List Char → Prop} {close : Char}
    {list : List α} {text : List Char} (h : ListSpelled spelled close list text)
    (widens : ∀ a text, spelled a text → wider a text) : ListSpelled wider close list text := by
  induction h with
  | last here spacing => exact .last (widens _ _ here) spacing
  | cons here spacing spacing' _ ih => exact .cons (widens _ _ here) spacing spacing' ih

/-- What holds of everything that can be spelled holds of each item of a spelled list. -/
lemma ListSpelled.forall_mem {α : Type} {spelled : α → List Char → Prop} {close : Char}
    {list : List α} {text : List Char} {P : α → Prop} (h : ListSpelled spelled close list text)
    (each : ∀ a text, spelled a text → P a) : ∀ a ∈ list, P a := by
  induction h with
  | last here _ => exact List.forall_mem_singleton.2 (each _ _ here)
  | cons here _ _ _ ih => exact List.forall_mem_cons.2 ⟨each _ _ here, ih⟩

/-- A member keeps its spelling where its value may be spelled in more ways. -/
lemma MemberSpelled.mono {member : Document × Document} {text : List Char}
    (h : MemberSpelled spelled member text)
    (widens : ∀ document text, spelled document text → wider document text) :
    MemberSpelled wider member text := by
  cases h with
  | intro key spacing spacing' value => exact .intro key spacing spacing' (widens _ _ value)

/-- A document keeps its spelling where what stands in it may be spelled in more ways. -/
lemma ValueSpelled.mono {document : Document} {text : List Char}
    (h : ValueSpelled spelled document text)
    (widens : ∀ document text, spelled document text → wider document text) :
    ValueSpelled wider document text := by
  cases h with
  | null => exact .null
  | bool => exact .bool
  | number spelled => exact .number spelled
  | string spelled => exact .string spelled
  | emptyArray spacing => exact .emptyArray spacing
  | array spacing items => exact .array spacing (items.mono widens)
  | emptyObject spacing => exact .emptyObject spacing
  | object spacing members =>
    exact .object spacing (members.mono fun _ _ member => member.mono widens)

/-- A depth that is enough for a text stays enough when it grows. -/
lemma Spelled.mono {less more : Nat} (le : less ≤ more) {document : Document} {text : List Char}
    (h : Spelled less document text) : Spelled more document text := by
  induction less generalizing more document text with
  | zero => exact h.elim
  | succ less ih =>
    obtain ⟨more, rfl⟩ : ∃ n, more = n + 1 := ⟨more - 1, by omega⟩
    exact ValueSpelled.mono h fun _ _ => ih (Nat.le_of_succ_le_succ le)

end

/-! ### Starts of spellings -/

section

variable {spelled : Spelling} {text : List Char}

/-- A string starts with a quote. -/
lemma QuotedSpelled.starts {value : Except Fault String} (h : QuotedSpelled value text) :
    ∃ others, text = '"' :: others := by
  cases h with
  | text spelled =>
    cases spelled with
    | intro _ => exact ⟨_, rfl⟩
  | noText _ _ => exact ⟨_, rfl⟩

/-- A member starts with the quote of its key. -/
lemma MemberSpelled.starts {member : Document × Document} (h : MemberSpelled spelled member text) :
    ∃ others, text = '"' :: others := by
  cases h with
  | intro isKey _ _ _ =>
    obtain ⟨others, rfl⟩ := isKey.starts
    exact ⟨_, rfl⟩

/-- A list starts as its first item does. -/
lemma ListSpelled.starts {α : Type} {spelled : α → List Char → Prop} {close : Char} {list : List α}
    {P : Char → Prop} (h : ListSpelled spelled close list text)
    (each : ∀ a text, spelled a text → ∃ c others, text = c :: others ∧ P c) :
    ∃ c others, text = c :: others ∧ P c := by
  cases h with
  | last here _ =>
    obtain ⟨c, others, rfl, holds⟩ := each _ _ here
    exact ⟨c, _, rfl, holds⟩
  | cons here _ _ _ =>
    obtain ⟨c, others, rfl, holds⟩ := each _ _ here
    exact ⟨c, _, rfl, holds⟩

/-- A document starts neither with white space nor with the end of an array. -/
lemma ValueSpelled.starts {document : Document} (h : ValueSpelled spelled document text) :
    ∃ c others, text = c :: others ∧ isSpace c = false ∧ c ≠ ']' := by
  cases h with
  | null => exact ⟨'n', _, rfl, rfl, by decide⟩
  | @bool value =>
    cases value with
    | true => exact ⟨'t', _, rfl, rfl, by decide⟩
    | false => exact ⟨'f', _, rfl, rfl, by decide⟩
  | number spelled =>
    obtain ⟨c, others, rfl, starts⟩ := spelled.starts
    exact ⟨c, others, rfl, isSpace_of_starts_number starts,
      ne_of_starts_number starts rfl (by decide)⟩
  | string spelled =>
    obtain ⟨others, rfl⟩ := spelled.starts
    exact ⟨'"', _, rfl, rfl, by decide⟩
  | emptyArray _ => exact ⟨'[', _, rfl, rfl, by decide⟩
  | array _ _ => exact ⟨'[', _, rfl, rfl, by decide⟩
  | emptyObject _ => exact ⟨'\x7b', _, rfl, rfl, by decide⟩
  | object _ _ => exact ⟨'\x7b', _, rfl, rfl, by decide⟩

end

/-! ## Reading -/

namespace Document

section

variable {fuel : Nat} {text rest space : List Char} {c : Char}

/-- White space before a value is skipped. -/
lemma read_append (spacing : Spacing space) (fuel : Nat) (text : List Char) :
    read fuel (space ++ text) = read fuel text := by
  cases fuel with
  | zero => rfl
  | succ fuel => rw [read, read, skipSpace_append spacing]

/-- White space before items is skipped. -/
lemma readItems_append (spacing : Spacing space) (fuel : Nat) (text : List Char) :
    readItems fuel (space ++ text) = readItems fuel text := by
  cases fuel with
  | zero => rfl
  | succ fuel => rw [readItems, readItems, read_append spacing]

/-- White space before members is skipped. -/
lemma readMembers_append (spacing : Spacing space) (fuel : Nat) (text : List Char) :
    readMembers fuel (space ++ text) = readMembers fuel text := by
  cases fuel with
  | zero => rfl
  | succ fuel => rw [readMembers, readMembers, read_append spacing]

/-- What starts with no bracket and no brace is read as a scalar. -/
lemma read_scalar (notSpace : isSpace c = false) (notBracket : c ≠ '[') (notBrace : c ≠ '\x7b')
    (fuel : Nat) (rest : List Char) : read (fuel + 1) (c :: rest) = readScalar (c :: rest) := by
  rw [read, skipSpace_cons notSpace]
  split
  · next eq => exact absurd (List.cons.inj eq).1 notBracket
  · next eq => exact absurd (List.cons.inj eq).1 notBrace
  · rfl

/-- An array ends at once or is read item by item. -/
lemma read_bracket (fuel : Nat) (text : List Char) :
    read (fuel + 1) ('[' :: text) =
      match skipSpace text with
      | ']' :: rest => (array [] none, some rest)
      | rest =>
        let (items, ending, rest) := readItems fuel rest
        (array items ending, rest) := by
  rw [read, skipSpace_cons rfl]
  rfl

/-- An object ends at once or is read member by member. -/
lemma read_brace (fuel : Nat) (text : List Char) :
    read (fuel + 1) ('\x7b' :: text) =
      match skipSpace text with
      | '\x7d' :: rest => (object [] none, some rest)
      | rest =>
        let (members, ending, rest) := readMembers fuel rest
        (object members ending, rest) := by
  rw [read, skipSpace_cons rfl]
  rfl

/-- An array that does not end at once is read item by item. -/
lemma read_array {items : List Document} (notSpace : isSpace c = false) (notClosed : c ≠ ']')
    (spacing : Spacing space) (h : readItems fuel (c :: text) = (items, none, some rest)) :
    read (fuel + 1) ('[' :: (space ++ c :: text)) = (array items none, some rest) := by
  rw [read_bracket, skipSpace_append_cons spacing notSpace]
  split
  · next eq => exact absurd (List.cons.inj eq).1 notClosed
  · dsimp only
    rw [h]

/-- An object that does not end at once is read member by member. -/
lemma read_object {members : List (Document × Document)} (notSpace : isSpace c = false)
    (notClosed : c ≠ '\x7d') (spacing : Spacing space)
    (h : readMembers fuel (c :: text) = (members, none, some rest)) :
    read (fuel + 1) ('\x7b' :: (space ++ c :: text)) = (object members none, some rest) := by
  rw [read_brace, skipSpace_append_cons spacing notSpace]
  split
  · next eq => exact absurd (List.cons.inj eq).1 notClosed
  · dsimp only
    rw [h]

/-- What is scanned up to a quote is read as a string between quotes. -/
lemma read_quoted {value : Except Fault (List Char)}
    (scanned : scanString none (text ++ '"' :: rest) = .whole value rest) (fuel : Nat) :
    read (fuel + 1) ('"' :: text ++ ['"'] ++ rest) =
      (string (value.map String.ofList), some rest) := by
  rw [List.append_assoc, List.cons_append, read_scalar rfl (by decide) (by decide), readScalar,
    if_pos rfl]
  show ofScan _ _ (scanString none (_ ++ '"' :: rest)) = _
  rw [scanned]
  rfl

/-- A spelled string is read as that string, with or without a text. -/
lemma read_string {value : Except Fault String} (h : QuotedSpelled value text) (fuel : Nat)
    (rest : List Char) : read (fuel + 1) (text ++ rest) = (string value, some rest) := by
  cases h with
  | text spelled =>
    cases spelled with
    | intro spelled =>
      rw [read_quoted (scanString_of_charsSpelled spelled rest)]
      exact congrArg (fun value => (string (.ok value), some rest)) String.ofList_toList
  | noText spelled notChars =>
    obtain ⟨value, scanned, rfl | ⟨chars, rfl, charsSpelled⟩⟩ := readsQuoted_of_parts spelled none
    · exact read_quoted (scanned rest) fuel
    · exact absurd charsSpelled (notChars chars)

/-- A spelled number is read as that number if nothing goes on the number behind it. -/
lemma read_number {number : NumberText} (h : NumberSpelled number text) (ends : EndsNumber rest)
    (fuel : Nat) : read (fuel + 1) (text ++ rest) = (.number number, some rest) := by
  have scanned := scanNumber_of_spelled h ends
  obtain ⟨c, others, rfl, starts⟩ := h.starts
  have ne {d : Char} := ne_of_starts_number (d := d) starts
  rw [List.cons_append] at scanned ⊢
  rw [read_scalar (isSpace_of_starts_number starts) (ne rfl (by decide)) (ne rfl (by decide)),
    readScalar, if_neg (ne rfl (by decide)), if_pos starts, scanned]
  rfl

end

/-- The spellings of documents that are read as these documents, whatever follows them. -/
structure ReadsBack (spelled : Spelling) : Prop where
  starts : ∀ {document text}, spelled document text →
    ∃ c others, text = c :: others ∧ isSpace c = false ∧ c ≠ ']'
  read : ∀ {document text}, spelled document text → ∀ fuel, 2 * text.length ≤ fuel →
    ∀ rest, EndsNumber rest → read fuel (text ++ rest) = (document, some rest)

section

variable {spelled : Spelling} {space text : List Char}

/-- White space does not go on a number. -/
lemma endsNumber_of_spacing (spacing : Spacing space) : EndsNumber space := by
  intro c mem
  have isSpace := spacing c (List.mem_of_mem_head? mem)
  simp only [Json.isSpace, Bool.or_eq_true, decide_eq_true_eq] at isSpace
  rcases isSpace with ((rfl | rfl) | rfl) | rfl <;> decide

/-- A comma or a bracket ends a number, and so does white space. -/
lemma endsNumber_append {c : Char} (spacing : Spacing space) (isClose : c ∈ [',', ']', '\x7d'])
    (rest : List Char) : EndsNumber (space ++ c :: rest) := by
  cases space with
  | cons s space => exact fun d mem => endsNumber_of_spacing spacing d mem
  | nil =>
    intro d mem
    cases mem
    simp only [List.mem_cons, List.not_mem_nil, or_false] at isClose
    rcases isClose with rfl | rfl | rfl <;> decide

/-- The items of an array are read up to its closing bracket. -/
lemma readItems_of_spelled (h : ReadsBack spelled) {items : List Document}
    (list : ListSpelled spelled ']' items text) (fuel : Nat) (enough : 2 * text.length ≤ fuel + 1)
    (rest : List Char) : readItems fuel (text ++ rest) = (items, none, some rest) := by
  induction list generalizing fuel with
  | @last item text after spelled spacing =>
    simp only [List.length_append, List.length_singleton] at enough
    obtain ⟨fuel, rfl⟩ : ∃ n, fuel = n + 1 := ⟨fuel - 1, by omega⟩
    have ends := endsNumber_append spacing (c := ']') (by decide) rest
    -- what stands behind the item is white space or the bracket, and neither goes on a number
    have read := h.read spelled fuel (by omega) (after ++ ']' :: rest) ends
    rw [List.append_assoc, List.append_assoc, List.singleton_append, readItems, read]
    dsimp only
    rw [skipSpace_append_cons spacing rfl]
    rfl
  | @cons item others text after before more spelled spacing spacing' _ ih =>
    simp only [List.length_append, List.length_cons] at enough
    -- the separator behind the item pays for the step that reads it
    obtain ⟨fuel, rfl⟩ : ∃ n, fuel = n + 1 := ⟨fuel - 1, by omega⟩
    have ends := endsNumber_append spacing (c := ',') (by decide) (before ++ (more ++ rest))
    have read := h.read spelled fuel (by omega) (after ++ ',' :: (before ++ (more ++ rest))) ends
    have later := ih fuel (by omega)
    have text_eq : text ++ after ++ ',' :: before ++ more ++ rest =
        text ++ (after ++ ',' :: (before ++ (more ++ rest))) := by
      simp
    rw [text_eq, readItems, read]
    dsimp only
    rw [skipSpace_append_cons spacing rfl]
    dsimp only
    rw [if_pos rfl, readItems_append spacing', later]

/-- The key of a member, its colon and its value are read one after the other. -/
lemma readMembers_member (h : ReadsBack spelled) {member : Document × Document}
    (memberSpelled : MemberSpelled spelled member text) {fuel : Nat}
    (enough : 2 * text.length ≤ fuel + 3) {rest : List Char} (ends : EndsNumber rest) :
    readMembers (fuel + 2) (text ++ rest) =
      match skipSpace rest with
      | [] => ([member], some .ended, none)
      | c :: rest =>
        if c = ',' then
          let (members, ending, rest) := readMembers (fuel + 1) rest
          (member :: members, ending, rest)
        else if c = '\x7d' then ([member], none, some rest)
        else ([member], some .malformed, none) := by
  cases memberSpelled with
  | @intro key value keyText after before text isKey spacing spacing' valueSpelled =>
    simp only [List.length_append, List.length_cons] at enough
    have read := h.read valueSpelled (fuel + 1) (by omega) rest ends
    have text_eq : keyText ++ after ++ ':' :: before ++ text ++ rest =
        keyText ++ (after ++ ':' :: (before ++ (text ++ rest))) := by
      simp
    rw [text_eq, readMembers, read_string isKey]
    dsimp only
    rw [skipSpace_append_cons spacing rfl]
    dsimp only
    rewrite [if_neg (not_not.2 rfl), read_append spacing', read]
    rfl

/-- The members of an object are read up to its closing brace. -/
lemma readMembers_of_spelled (h : ReadsBack spelled) {members : List (Document × Document)}
    (list : ListSpelled (MemberSpelled spelled) '\x7d' members text) (fuel : Nat)
    (enough : 2 * text.length ≤ fuel + 1) (rest : List Char) :
    readMembers fuel (text ++ rest) = (members, none, some rest) := by
  induction list generalizing fuel with
  | @last member text after memberSpelled spacing =>
    obtain ⟨others, rfl⟩ := memberSpelled.starts
    simp only [List.length_append, List.length_cons, List.length_nil] at enough
    obtain ⟨fuel, rfl⟩ : ∃ n, fuel = n + 2 := ⟨fuel - 2, by omega⟩
    have ends := endsNumber_append spacing (c := '\x7d') (by decide) rest
    have enough : 2 * ('"' :: others).length ≤ fuel + 3 := by
      rw [List.length_cons]
      omega
    rw [List.append_assoc, List.append_assoc, List.singleton_append,
      readMembers_member h memberSpelled enough ends, skipSpace_append_cons spacing rfl]
    rfl
  | @cons member others text after before more memberSpelled spacing spacing' _ ih =>
    obtain ⟨ofMember, rfl⟩ := memberSpelled.starts
    simp only [List.length_append, List.length_cons] at enough
    obtain ⟨fuel, rfl⟩ : ∃ n, fuel = n + 2 := ⟨fuel - 2, by omega⟩
    have ends := endsNumber_append spacing (c := ',') (by decide) (before ++ (more ++ rest))
    have later := ih (fuel + 1) (by omega)
    have enough : 2 * ('"' :: ofMember).length ≤ fuel + 3 := by
      rw [List.length_cons]
      omega
    have text_eq : '"' :: ofMember ++ after ++ ',' :: before ++ more ++ rest =
        '"' :: ofMember ++ (after ++ ',' :: (before ++ (more ++ rest))) := by
      simp
    rw [text_eq, readMembers_member h memberSpelled enough ends,
      skipSpace_append_cons spacing rfl]
    dsimp only
    rw [if_pos rfl, readMembers_append spacing', later]

/-- The values that documents with such spellings make up are read back as well. -/
lemma ReadsBack.value (h : ReadsBack spelled) : ReadsBack (ValueSpelled spelled) where
  starts := ValueSpelled.starts
  read := by
    intro document text valueSpelled fuel enough rest ends
    obtain ⟨c, others, text_eq, -⟩ := valueSpelled.starts
    obtain ⟨fuel, rfl⟩ : ∃ n, fuel = n + 1 := by
      rw [text_eq, List.length_cons] at enough
      exact ⟨fuel - 1, by omega⟩
    cases valueSpelled with
    | null => exact read_scalar rfl (by decide) (by decide) fuel _
    | @bool value =>
      cases value with
      | true => exact read_scalar rfl (by decide) (by decide) fuel _
      | false => exact read_scalar rfl (by decide) (by decide) fuel _
    | number spelled => exact read_number spelled ends fuel
    | string spelled => exact read_string spelled fuel rest
    | @emptyArray space spacing =>
      rw [List.append_assoc, List.cons_append, read_bracket, List.singleton_append,
        skipSpace_append_cons spacing rfl]
      rfl
    | @array items space text spacing list =>
      obtain ⟨c, others, rfl, notSpace, notClosed⟩ := list.starts fun _ _ => h.starts
      simp only [List.length_append, List.length_cons] at enough
      have items_eq := readItems_of_spelled h list fuel (by rw [List.length_cons]; omega) rest
      rw [List.append_assoc, List.cons_append]
      exact read_array notSpace notClosed spacing items_eq
    | @emptyObject space spacing =>
      rw [List.append_assoc, List.cons_append, read_brace, List.singleton_append,
        skipSpace_append_cons spacing rfl]
      rfl
    | @object members space text spacing list =>
      -- an object with members starts with the quote of a key, hence not with its closing brace
      have starts : ∃ c others, text = c :: others ∧ c = '"' := list.starts fun _ _ member => by
        obtain ⟨others, rfl⟩ := member.starts
        exact ⟨'"', others, rfl, rfl⟩
      obtain ⟨_, others, rfl, rfl⟩ := starts
      simp only [List.length_append, List.length_cons] at enough
      have members_eq := readMembers_of_spelled h list fuel (by rw [List.length_cons]; omega) rest
      rw [List.append_assoc, List.cons_append]
      exact read_object rfl (by decide) spacing members_eq

end

/-- By induction on the depth every spelling is read as the document it spells. -/
lemma readsBack_spelled (depth : Nat) : ReadsBack (Spelled depth) := by
  induction depth with
  | zero => exact ⟨fun h => h.elim, fun h => h.elim⟩
  | succ depth ih => exact ih.value

/-- Every spelling of a document is read as it, behind white space and whatever follows. -/
lemma ofText_append_of_spelled {depth : Nat} {document : Document} {before text rest : List Char}
    (ahead : Spacing before) (h : Spelled depth document text) (ends : EndsNumber rest) :
    ofText (before ++ text ++ rest) = (document, some rest) := by
  have enough : 2 * text.length ≤ 2 * (before ++ text ++ rest).length + 2 := by
    rw [List.length_append, List.length_append]
    omega
  have read := (readsBack_spelled depth).read h _ enough rest ends
  rw [ofText, List.append_assoc before, read_append ahead, ← List.append_assoc before]
  exact read

/-- A text that spells a document and nothing else is read to its end. -/
lemma ofText_of_spelled {depth : Nat} {document : Document} {text : List Char}
    (h : Spelled depth document text) : ofText text = (document, some []) := by
  have read := ofText_append_of_spelled spacing_nil h (endsNumber_of_spacing spacing_nil)
  rwa [List.nil_append, List.append_nil] at read

/-- With white space around a document only that behind it is left. -/
lemma exists_ofText_of_textSpelled {document : Document} {text : List Char}
    (h : TextSpelled document text) :
    ∃ after, Spacing after ∧ ofText text = (document, some after) := by
  cases h with
  | intro ahead spelled last =>
    exact ⟨_, last, ofText_append_of_spelled ahead spelled (endsNumber_of_spacing last)⟩

/-! ## Skipping -/

/-- Items are passed over if each of them can be. -/
lemma skipItems_eq_ok_iff {items : List Document} :
    skipItems items = .ok () ↔ ∀ item ∈ items, item.skip = .ok () := by
  induction items with
  | nil => exact ⟨fun _ _ mem => (nomatch mem), fun _ => rfl⟩
  | cons item others ih =>
    rw [skipItems, List.forall_mem_cons, ← ih]
    cases item.skip with
    | ok _ => exact (and_iff_right rfl).symm
    | error fault => exact ⟨fun h => (nomatch h), fun h => (nomatch h.1)⟩

/-- Members are passed over if each key and each value can be. -/
lemma skipMembers_eq_ok_iff {members : List (Document × Document)} :
    skipMembers members = .ok () ↔
      ∀ member ∈ members, skipKey member.1 = .ok () ∧ member.2.skip = .ok () := by
  induction members with
  | nil => exact ⟨fun _ _ mem => (nomatch mem), fun _ => rfl⟩
  | cons member others ih =>
    rw [skipMembers, List.forall_mem_cons, ← ih]
    cases skipKey member.1 with
    | error fault => exact ⟨fun h => (nomatch h), fun h => (nomatch h.1.1)⟩
    | ok _ =>
      cases member.2.skip with
      | ok _ => exact ⟨fun h => ⟨⟨rfl, rfl⟩, h⟩, fun h => h.2⟩
      | error fault => exact ⟨fun h => (nomatch h), fun h => (nomatch h.1.2)⟩

/-- A closed array is passed over if its items can be. -/
lemma skip_array_eq_ok_iff {items : List Document} :
    (array items none).skip = .ok () ↔ ∀ item ∈ items, item.skip = .ok () := by
  rw [← skipItems_eq_ok_iff, skip]
  cases skipItems items <;> rfl

/-- A closed object is passed over if its members can be. -/
lemma skip_object_eq_ok_iff {members : List (Document × Document)} :
    (object members none).skip = .ok () ↔
      ∀ member ∈ members, skipKey member.1 = .ok () ∧ member.2.skip = .ok () := by
  rw [← skipMembers_eq_ok_iff, skip]
  cases skipMembers members <;> rfl

/-- What is spelled is whole, so that it may be skipped. -/
lemma skip_of_spelled {depth : Nat} {document : Document} {text : List Char}
    (h : Spelled depth document text) : document.skip = .ok () := by
  induction depth generalizing document text with
  | zero => exact h.elim
  | succ depth ih =>
    cases h with
    | array _ list => exact skip_array_eq_ok_iff.2 (list.forall_mem fun _ _ => ih)
    | object _ list =>
      refine skip_object_eq_ok_iff.2 (list.forall_mem fun member text memberSpelled => ?_)
      cases memberSpelled with
      | intro _ _ _ valueSpelled => exact ⟨rfl, ih valueSpelled⟩
    | _ => rfl

/-- A document that a text spells can be passed over. -/
lemma skip_of_textSpelled {document : Document} {text : List Char} (h : TextSpelled document text) :
    document.skip = .ok () := by
  cases h with
  | intro _ spelled _ => exact skip_of_spelled spelled

end Document

end ChoiceLang.Json
