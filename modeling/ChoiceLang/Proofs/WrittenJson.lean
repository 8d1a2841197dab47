import ChoiceLang.Proofs.Documents
import ChoiceLang.Proofs.Outcomes

/-!
# Written JSON

A JSON value has a document, without faults, and is written as one of its spellings, on one line as
well as spread over lines. So the text of a value is read as its document, and since no two values
have the same document, a text is written for one value only.
-/

namespace ChoiceLang.Json

/-! ## The document of a value -/

/-- An integer as it is written. -/
def integerText (value : Int) : NumberText where
  negative := value < 0
  whole := (Nat.toDigits 10 value.natAbs).map digitValue
  fraction := none
  exponent := none

mutual

/-- The document that a value is read as. -/
def document : Json → Document
  | null => .null
  | bool value => .bool value
  | number value => .number (integerText value)
  | string value => .string (.ok value)
  | array items => .array (documents items) none
  | object members => .object (memberDocuments members) none

def documents : List Json → List Document
  | [] => []
  | item :: others => item.document :: documents others

def memberDocuments : List (String × Json) → List (Document × Document)
  | [] => []
  | (key, value) :: others => (.string (.ok key), value.document) :: memberDocuments others

end

/-- A list of values is turned into documents one by one. -/
lemma documents_eq_map (items : List Json) : documents items = items.map document := by
  induction items with
  | nil => rfl
  | cons item others ih => rw [documents, ih, List.map_cons]

/-- Members are turned into documents under keys that are texts. -/
lemma memberDocuments_eq_map (members : List (String × Json)) :
    memberDocuments members =
      members.map fun member => (.string (.ok member.1), member.2.document) := by
  induction members with
  | nil => rfl
  | cons member others ih => rw [memberDocuments, ih, List.map_cons]

/-! ## Written scalars -/

/-- A control is spelled by a letter or by its number, behind two zeros and another digit. -/
lemma charSpelled_escapedChar (c : Char) : CharSpelled c (escapedChar c) := by
  have byLetter {n : Nat} {letter : Char} (escapes : escaped? letter = some (Char.ofNat n))
      (eq : c.toNat = n) : CharSpelled c ['\\', letter] := by
    rw [← eq, Char.ofNat_toNat] at escapes
    exact .letter escapes
  have noHalf {n : Nat} (isSmall : n < 0x20) : isHighHalf n = false ∧ isLowHalf n = false := by
    simp only [isHighHalf, isLowHalf, Bool.and_eq_false_iff, decide_eq_false_iff_not]
    omega
  have byNumber {digits : List Char} {c' d' : Char} (isUnit : hexUnit? '0' '0' c' d' = some c.toNat)
      (isSmall : c.toNat < 0x20) (eq : [c', d'] = digits) :
      CharSpelled c (['\\', 'u', '0', '0'] ++ digits) := by
    obtain ⟨notHigh, notLow⟩ := noHalf isSmall
    have spelled := CharSpelled.unit isUnit notHigh notLow
    rw [Char.ofNat_toNat] at spelled
    rw [← eq]
    exact spelled
  have oneDigit : ∀ n < 0x10, Text.hexDigits n = [n.digitChar] ∧
      hexUnit? '0' '0' '0' n.digitChar = some n := by
    decide
  have twoDigits : ∀ n < 0x20, ¬ n < 0x10 → Text.hexDigits n = ['1', (n - 0x10).digitChar] ∧
      hexUnit? '0' '0' '1' (n - 0x10).digitChar = some n := by
    decide
  unfold escapedChar
  split
  · next eq => exact byLetter rfl (congrArg Char.toNat eq)
  split
  · next eq => exact byLetter rfl (congrArg Char.toNat eq)
  split
  · next eq => exact byLetter rfl eq
  split
  · next eq => exact byLetter rfl eq
  split
  · next eq => exact byLetter rfl eq
  split
  · next eq => exact byLetter rfl eq
  split
  · next eq => exact byLetter rfl eq
  split
  · next isSmall =>
    obtain ⟨digits, isUnit⟩ := oneDigit c.toNat isSmall
    rw [digits]
    exact byNumber isUnit (Nat.lt_trans isSmall (by decide)) rfl
  split
  · next isLarge isSmall =>
    obtain ⟨digits, isUnit⟩ := twoDigits c.toNat isSmall isLarge
    rw [digits]
    exact byNumber isUnit isSmall rfl
  · next notQuote notBackslash _ _ _ _ _ _ notControl =>
    exact .plain notQuote notBackslash (Nat.not_lt.1 notControl)

/-- A string is written in one of its spellings. -/
lemma stringSpelled_stringText (value : String) : StringSpelled value (stringText value) := by
  have spelled (chars : List Char) : CharsSpelled chars (chars.flatMap escapedChar) := by
    induction chars with
    | nil => exact .nil
    | cons c others ih =>
      rw [List.flatMap_cons]
      exact .cons (charSpelled_escapedChar c) ih
  exact .intro (spelled value.toList)

/-- The digits of a positive number do not start with a zero. -/
lemma toDigits_ne_zero_cons {n : Nat} (positive : 0 < n) (rest : List Char) :
    Nat.toDigits 10 n ≠ '0' :: rest := by
  induction n using Nat.strongRecOn generalizing rest with
  | ind n ih =>
    intro eq
    by_cases small : n < 10
    · -- one digit is looked up; the digits of a larger number start with those of its tenth
      have nonzero : ∀ n < 10, 0 < n → n.digitChar ≠ '0' := by decide
      rw [Nat.toDigits_of_lt_base small] at eq
      exact nonzero n small positive (List.cons.inj eq).1
    · have some_digit : Nat.toDigits 10 (n / 10) ≠ [] := Nat.toDigits_ne_nil
      obtain ⟨c, others, digits⟩ := List.exists_cons_of_ne_nil some_digit
      rw [Nat.toDigits_of_base_le (by decide) (Nat.not_lt.1 small), digits] at eq
      obtain ⟨rfl, -⟩ := List.cons.inj eq
      exact ih (n / 10) (by omega) (by omega) others digits

/-- The decimal digits of a number spell it without leading zeros. -/
lemma wholeSpelled_toDigits (n : Nat) :
    WholeSpelled ((Nat.toDigits 10 n).map digitValue) (Nat.toDigits 10 n) := by
  cases n with
  | zero => exact .zero
  | succ n =>
    refine .digits (.intro Nat.toDigits_ne_nil fun c mem => ?_) (toDigits_ne_zero_cons n.succ_pos)
    exact Nat.isDigit_of_mem_toDigits (by decide) (by decide) mem

/-- An integer is written in one of its spellings. -/
lemma numberSpelled_numberText (value : Int) :
    NumberSpelled (integerText value) (numberText value) := by
  have spelled := wholeSpelled_toDigits value.natAbs
  cases value with
  | ofNat n =>
    have spelled := NumberSpelled.positive spelled .none .none
    rw [List.append_nil, List.append_nil] at spelled
    exact spelled
  | negSucc n =>
    have negative : integerText (.negSucc n) =
        ⟨true, (Nat.toDigits 10 (Int.negSucc n).natAbs).map digitValue, none, none⟩ := by
      simp [integerText, Int.negSucc_lt_zero]
    have spelled := NumberSpelled.negative spelled .none .none
    rw [List.append_nil, List.append_nil] at spelled
    rw [negative]
    exact spelled

/-! ## Written values -/

section

variable {before behind : List Char}

/-- What is spelled one by one is spelled in a list. -/
lemma ListSpelled.separated {α δ : Type} {spelled : δ → List Char → Prop} {close : Char}
    {f : α → δ} {text : α → List Char} (ahead : Spacing before) (last : Spacing behind) {a : α}
    {others : List α} (h : ∀ b ∈ a :: others, spelled (f b) (text b)) :
    ListSpelled spelled close ((a :: others).map f)
      (text a ++ (others.flatMap fun b => ',' :: before ++ text b) ++ behind ++ [close]) := by
  induction others generalizing a with
  | nil =>
    rw [List.flatMap_nil, List.append_nil]
    exact .last (h a List.mem_cons_self) last
  | cons b others ih =>
    obtain ⟨here, later⟩ := List.forall_mem_cons.1 h
    have list := ListSpelled.cons here spacing_nil ahead (ih later)
    simp only [List.append_nil, List.append_assoc, List.cons_append, List.flatMap_cons,
      List.map_cons] at list ⊢
    exact list

/-- Finitely many documents are nested less deeply than one bound. -/
lemma exists_depth {α : Type} {f : α → Document} {text : α → List Char} {list : List α}
    (h : ∀ a ∈ list, ∃ depth, Spelled depth (f a) (text a)) :
    ∃ depth, ∀ a ∈ list, Spelled depth (f a) (text a) := by
  induction list with
  | nil => exact ⟨0, fun _ mem => nomatch mem⟩
  | cons a others ih =>
    obtain ⟨⟨here, first⟩, later⟩ := List.forall_mem_cons.1 h
    obtain ⟨there, others⟩ := ih later
    refine ⟨max here there, List.forall_mem_cons.2 ⟨first.mono (Nat.le_max_left ..), ?_⟩⟩
    exact fun b mem => (others b mem).mono (Nat.le_max_right ..)

/-- Items that are spelled make an array that is spelled, with white space around each. -/
lemma exists_spelled_array {text : Json → List Char} {item : Json} {others : List Json}
    (ahead : Spacing before) (last : Spacing behind)
    (h : ∀ other ∈ item :: others, ∃ depth, Spelled depth other.document (text other)) :
    ∃ depth, Spelled depth (array (item :: others)).document
      ('[' :: before ++ (text item ++ (others.flatMap fun other => ',' :: before ++ text other)
        ++ behind ++ [']'])) := by
  -- the items are nested in different depths, and the array one deeper than all of them
  obtain ⟨depth, spelled⟩ := exists_depth h
  refine ⟨depth + 1, ?_⟩
  rw [document, documents_eq_map]
  exact ValueSpelled.array ahead (.separated ahead last spelled)

/-- The text of a member, given that of its value and what is written behind the colon. -/
def memberText (gap : List Char) (text : Json → List Char) (member : String × Json) : List Char :=
  stringText member.1 ++ ':' :: gap ++ text member.2

/-- Members that are spelled make an object that is spelled, with white space around each. -/
lemma exists_spelled_object {text : Json → List Char} {gap : List Char} {member : String × Json}
    {others : List (String × Json)} (ahead : Spacing before) (between : Spacing gap)
    (last : Spacing behind)
    (h : ∀ other ∈ member :: others, ∃ depth, Spelled depth other.2.document (text other.2)) :
    ∃ depth, Spelled depth (object (member :: others)).document
      ('\x7b' :: before ++ (memberText gap text member ++
        (others.flatMap fun other => ',' :: before ++ memberText gap text other)
          ++ behind ++ ['\x7d'])) := by
  obtain ⟨depth, spelled⟩ := exists_depth h
  refine ⟨depth + 1, ?_⟩
  rw [document, memberDocuments_eq_map]
  refine ValueSpelled.object ahead (.separated ahead last fun other mem => ?_)
  have member := MemberSpelled.intro (.text (stringSpelled_stringText other.1)) spacing_nil between
    (spelled other mem)
  rwa [List.append_nil] at member

end

/-! ### On one line -/

/-- Items are written with a comma in front of all but the first. -/
lemma compactItems_cons (item : Json) (others : List Json) :
    compactItems (item :: others) =
      item.compactText ++ others.flatMap fun other => ',' :: other.compactText := by
  induction others generalizing item with
  | nil => simp [compactItems]
  | cons second others ih => simp [compactItems, ih]

/-- Members are written with a comma in front of all but the first. -/
lemma compactMembers_cons (member : String × Json) (others : List (String × Json)) :
    compactMembers (member :: others) =
      memberText [] compactText member ++
        others.flatMap fun other => ',' :: memberText [] compactText other := by
  induction others generalizing member with
  | nil => simp [compactMembers, memberText]
  | cons second others ih => simp [compactMembers, memberText, ih]

/-- The text of a value on one line spells its document. -/
lemma exists_spelled_compactText (value : Json) :
    ∃ depth, Spelled depth value.document value.compactText := by
  induction value using induct with
  | null => exact ⟨1, .null⟩
  | bool value => exact ⟨1, .bool⟩
  | number value => exact ⟨1, .number (numberSpelled_numberText value)⟩
  | string value => exact ⟨1, .string (.text (stringSpelled_stringText value))⟩
  | array items ih =>
    cases items with
    | nil => exact ⟨1, .emptyArray spacing_nil⟩
    | cons item others =>
      have spelled := exists_spelled_array spacing_nil spacing_nil ih
      rw [List.append_nil] at spelled
      rw [compactText, compactItems_cons]
      exact spelled
  | object members ih =>
    cases members with
    | nil => exact ⟨1, .emptyObject spacing_nil⟩
    | cons member others =>
      have spelled := exists_spelled_object spacing_nil spacing_nil spacing_nil ih
      rw [List.append_nil] at spelled
      rw [compactText, compactMembers_cons]
      exact spelled

/-- What is written on one line is read as the document of the value. -/
lemma ofText_compactText (value : Json) :
    Document.ofText value.compactText = (value.document, some []) := by
  obtain ⟨depth, spelled⟩ := exists_spelled_compactText value
  exact Document.ofText_of_spelled spelled

/-! ### Spread over lines -/

/-- A new line with its indent is white space. -/
lemma spacing_newLine (indent : Nat) : Spacing (newLine indent) := by
  intro c mem
  rcases List.mem_cons.1 mem with rfl | mem
  · rfl
  · rw [List.eq_of_mem_replicate mem]
    rfl

/-- A blank is white space. -/
lemma spacing_blank : Spacing [' '] := by
  intro c mem
  rw [List.mem_singleton.1 mem]
  rfl

/-- Further items are written behind a comma, each on a new line. -/
lemma prettyItems_eq (indent : Nat) (items : List Json) :
    prettyItems indent items =
      items.flatMap fun item => ',' :: newLine indent ++ item.prettyText indent := by
  induction items with
  | nil => rfl
  | cons item others ih => rw [prettyItems, ih, List.flatMap_cons]

/-- Further members are written behind a comma, each on a new line. -/
lemma prettyMembers_eq (indent : Nat) (members : List (String × Json)) :
    prettyMembers indent members =
      members.flatMap fun member =>
        ',' :: newLine indent ++ memberText [' '] (prettyText indent) member := by
  induction members with
  | nil => rfl
  | cons member others ih => simp [prettyMembers, memberText, ih]

/-- The text of a value spread over lines spells its document. -/
lemma exists_spelled_prettyText (indent : Nat) (value : Json) :
    ∃ depth, Spelled depth value.document (value.prettyText indent) := by
  induction value using induct generalizing indent with
  | null => exact ⟨1, .null⟩
  | bool value => exact ⟨1, .bool⟩
  | number value => exact ⟨1, .number (numberSpelled_numberText value)⟩
  | string value => exact ⟨1, .string (.text (stringSpelled_stringText value))⟩
  | array items ih =>
    cases items with
    | nil => exact ⟨1, .emptyArray spacing_nil⟩
    | cons item others =>
      have spelled := exists_spelled_array (spacing_newLine (indent + 1)) (spacing_newLine indent)
        fun other mem => ih other mem (indent + 1)
      rw [prettyText, prettyItems_eq]
      simp only [List.append_assoc, List.cons_append] at spelled ⊢
      exact spelled
  | object members ih =>
    cases members with
    | nil => exact ⟨1, .emptyObject spacing_nil⟩
    | cons member others =>
      have spelled := exists_spelled_object (spacing_newLine (indent + 1)) spacing_blank
        (spacing_newLine indent) fun other mem => ih other mem (indent + 1)
      rw [prettyText, prettyMembers_eq]
      simp only [memberText, List.append_assoc, List.cons_append, List.nil_append] at spelled ⊢
      exact spelled

/-- What is spread over lines is read as the document of the value. -/
lemma ofText_prettyText (indent : Nat) (value : Json) :
    Document.ofText (value.prettyText indent) = (value.document, some []) := by
  obtain ⟨depth, spelled⟩ := exists_spelled_prettyText indent value
  exact Document.ofText_of_spelled spelled

/-! ## One value for each text -/

/-- The digits of a number tell its value. -/
lemma eq_of_map_digitValue {m n : Nat}
    (same : (Nat.toDigits 10 m).map digitValue = (Nat.toDigits 10 n).map digitValue) : m = n := by
  have value (n : Nat) :
      ((Nat.toDigits 10 n).map digitValue).foldl (fun sofar digit => 10 * sofar + digit) 0 = n := by
    rw [List.foldl_map]
    exact Nat.ofDigitChars_toDigits (by decide) (by decide)
  rw [← value m, same, value n]

/-- Different integers have different digits or signs. -/
lemma integerText_injective : Function.Injective integerText := by
  intro first second same
  obtain ⟨negative, whole, -, -⟩ := NumberText.mk.inj same
  have size := eq_of_map_digitValue whole
  rw [decide_eq_decide] at negative
  omega

/-- Different values have different documents. -/
lemma document_injective : Function.Injective document := by
  intro first
  induction first using induct with
  | null =>
    intro second same
    cases second with
    | null => rfl
    | _ => cases same
  | bool value =>
    intro second same
    cases second with
    | bool other =>
      cases same
      rfl
    | _ => cases same
  | number value =>
    intro second same
    cases second with
    | number other => rw [integerText_injective (Document.number.inj same)]
    | _ => cases same
  | string value =>
    intro second same
    cases second with
    | string other =>
      cases same
      rfl
    | _ => cases same
  | array items ih =>
    intro second same
    cases second with
    | array others =>
      obtain ⟨same, -⟩ := Document.array.inj same
      rw [documents_eq_map, documents_eq_map] at same
      rw [List.eq_of_map_eq_map ih same]
    | _ => cases same
  | object members ih =>
    intro second same
    cases second with
    | object others =>
      obtain ⟨same, -⟩ := Document.object.inj same
      rw [memberDocuments_eq_map, memberDocuments_eq_map] at same
      rw [List.eq_of_map_eq_map (fun member mem other same => ?_) same]
      obtain ⟨key, value⟩ := Prod.mk.inj same
      exact Prod.ext (Except.ok.inj (Document.string.inj key)) (ih member mem value)
    | _ => cases same

/-- Values that are spread over lines alike are the same, wherever these lines start. -/
lemma eq_of_prettyText_eq {indent indent' : Nat} {first second : Json}
    (same : first.prettyText indent = second.prettyText indent') : first = second := by
  have read := ofText_prettyText indent first
  rw [same, ofText_prettyText] at read
  exact document_injective (Prod.mk.inj read).1.symm

end ChoiceLang.Json
