import ChoiceLang.Proofs.Offsets
import ChoiceLang.Proofs.Reasons

/-!
# Reading by offsets

A recording reader leaves the text as it is and takes from it, between offsets, what the reader
cuts off. Where there is nothing between two offsets it goes on with the empty text, and where a
bracket is missed it rejects the item. It records each text that it splits, each item with a bracket
that it takes apart, and each pair of offsets.

Its reading is that of the reader, and behind the split of the whole text nothing that it records is
amiss (`Act.Sound`): no bracket is missed any more, and between two offsets there always is a part
of the text. For a text that is split is balanced, and so are its segments, their items and the
bodies in these. `Recorded.Meets` says this of a part of a recording, and is carried through parts
in sequence.
-/

namespace ChoiceLang

open Expression

/-- What a recording reader does to a text. -/
inductive Act where
  /-- Splits a text. -/
  | split (operator : Operator) (text : List Char) (outcome : Except Rejection (List (List Char)))
  /-- Takes an item apart in which there is a bracket, here without its negation. -/
  | takeApart (item : List Char) (negated : Bool) (body : List Char)
  /-- Takes the part of a text between two offsets. -/
  | slice (text : List Char) (start stop : Nat)
deriving DecidableEq

/-- The first bracket of a text and its partner are found, and the text is what stands around them
and between them. -/
structure TakenApart (text name inner trailing : List Char) (opening closing : Nat) : Prop where
  parts : text = name ++ '[' :: inner ++ ']' :: trailing
  first : Text.offsetOf? '[' text = some opening
  partner : closingOffset? text opening = some closing
  isName : Text.IsSlice text 0 opening name
  isOpen : Text.IsSlice text opening (opening + 1) ['[']
  isInner : Text.IsSlice text (opening + 1) closing inner
  isClose : Text.IsSlice text closing (closing + 1) [']']
  isTrailing : Text.IsSlice text (closing + 1) (Text.byteLength text) trailing

/-- No bracket is missed, and there is a part of the text between two offsets. -/
inductive Act.Sound : Act → Prop where
  | split {operator text outcome} :
    (∀ found position, outcome ≠ .error (.unbalancedBrackets found position)) →
    Sound (.split operator text outcome)
  | takeApart {item negated body name inner trailing opening closing} :
    item = negation negated ++ body →
    TakenApart body name inner trailing opening closing →
    Sound (.takeApart item negated body)
  | slice {text start stop part} :
    Text.IsSlice text start stop part →
    Sound (.slice text start stop)

/-- An inquiry and what was done to find it out. -/
structure Recorded (α : Type) where
  acts : List Act
  inquiry : Inquiry α

namespace Recorded

variable {α β : Type}

/-- An inquiry for which nothing is done. -/
def ofInquiry (inquiry : Inquiry α) : Recorded α := ⟨[], inquiry⟩

/-- Goes on with a value; what is done for both parts is recorded in order. -/
def bind (recorded : Recorded α) (next : α → Recorded β) : Recorded β where
  acts :=
    recorded.acts ++
      match recorded.inquiry.result with
      | .ok value => (next value).acts
      | .error _ => []
  inquiry := recorded.inquiry >>= fun value => (next value).inquiry

instance : Monad Recorded where
  pure value := ofInquiry (pure value)
  bind := bind

/-- Records what is done for each value in order, up to the first rejection. -/
def forEach (record : α → Recorded β) : List α → Recorded (List β)
  | [] => pure []
  | value :: others => do
    let first ← record value
    let later ← forEach record others
    return first :: later

/-- Records an act. -/
def record (act : Act) : Recorded Unit := ⟨[act], pure ()⟩

/-- Takes the part of a text between two offsets, or the empty text if there is none. -/
def slice (text : List Char) (start stop : Nat) : Recorded (List Char) := do
  record (.slice text start stop)
  return (Text.slice? text start stop).getD []

/-- Splits the rest of a text. `position` is the offset of the rest and `start` that of the segment
that is being read, `opened` are the offsets of the brackets that are open, the innermost first. -/
def splitFrom (operator : Operator) (text : List Char) (position : Nat) (opened : List Nat)
    (start : Nat) (segments : List (List Char)) : List Char → Recorded (List (List Char))
  | [] =>
    match opened.getLast? with
    | some first => ofInquiry (.reject (.unbalancedBrackets (String.ofList text) first))
    | none =>
      if start = Text.byteLength text then
        ofInquiry (.reject (.separator .trailing operator.separator
          (Text.byteLength text - operator.separator.utf8Size)))
      else do
        let last ← slice text start (Text.byteLength text)
        return segments ++ [last]
  | c :: rest =>
    if c = '[' then
      splitFrom operator text (position + c.utf8Size) (position :: opened) start segments rest
    else if c = ']' then
      match opened with
      | [] => ofInquiry (.reject (.unbalancedBrackets (String.ofList text) position))
      | _ :: opened => splitFrom operator text (position + c.utf8Size) opened start segments rest
    else if c = operator.separator ∧ opened = [] then
      if position = start then
        ofInquiry (.reject (.separator (if start = 0 then .leading else .consecutive)
          operator.separator position))
      else do
        let segment ← slice text start position
        splitFrom operator text (position + c.utf8Size) [] (position + c.utf8Size)
          (segments ++ [segment]) rest
    else splitFrom operator text (position + c.utf8Size) opened start segments rest

/-- Takes the pieces of a text. -/
def pieces (operator : Operator) (text : List Char) : Recorded (List (List Char)) :=
  if text = [] then ofInquiry (.reject (.separator .emptyExpression operator.separator 0))
  else splitFrom operator text 0 [] 0 [] text

/-- Splits a text, and records this in front of what is taken from it. -/
def split (operator : Operator) (text : List Char) : Recorded (List (List Char)) where
  acts := .split operator text (pieces operator text).inquiry.result ::
    (pieces operator text).acts
  inquiry := (pieces operator text).inquiry

end Recorded

namespace Reader

/-- A way to record the reading of a level. -/
abbrev LevelRecorder := Scope → List Char → Recorded Group

/-- Records the reading of a qualifier with a body. -/
def recordBracketed (reader : Reader) (recordBody : LevelRecorder) (scope : Scope)
    (item : List Char) (negated : Bool) (body : List Char) : Recorded Choice := do
  .record (.takeApart item negated body)
  match Text.offsetOf? '[' body with
  | none => .ofInquiry (.reject (.unknownQualifier (String.ofList body)))
  | some opening =>
    let name ← .slice body 0 opening
    let qualifier ← .ofInquiry (.ofResult (reader.config.namedQualifier (String.ofList name)))
    match closingOffset? body opening with
    | none =>
      .ofInquiry (.reject (.unbalancedBrackets (String.ofList item) (opening + negated.toNat)))
    | some closing =>
      let trailing ← .slice body (closing + 1) (Text.byteLength body)
      if trailing ≠ [] then
        .ofInquiry (.reject (.danglingText (String.ofList name) (String.ofList trailing)))
      else
        let inner ← .slice body (opening + 1) closing
        if inner = [] then .ofInquiry (.reject (.emptyQualifierBody (String.ofList name)))
        else
          let group ← recordBody (scope.within qualifier) inner
          if negated ∧ ¬ qualifier.allowNegation then
            .ofInquiry (.reject (.negationForbidden qualifier.name))
          else return .qualifier qualifier.name negated group

/-- Records the reading of an item. -/
def recordItem (reader : Reader) (recordBody : LevelRecorder) (scope : Scope)
    (item : List Char) : Recorded Choice :=
  if item = wildcard then pure .all
  else
    let (negated, body) := negated? item
    match filterList? body with
    | some list => .ofInquiry (.ofResult ((TypeFilter.ofText item negated list).map .types))
    | none =>
      if '[' ∈ body then reader.recordBracketed recordBody scope item negated body
      else .ofInquiry (reader.readPlain scope item negated body)

/-- Records the reading of a segment. -/
def recordSegment (reader : Reader) (mode : Mode) (recordBody : LevelRecorder) (scope : Scope)
    (segment : List Char) : Recorded Choice := do
  let items ← .split .and segment
  let choices ← Recorded.forEach (reader.recordItem recordBody scope) items
  .ofInquiry
    (match choices with
    | [choice] => return choice
    | _ => .ofResult ((scope.permitted.buildGroup mode .and choices).map .group))

/-- Records the reading of a level, with a recorder for the bodies in it. -/
def recordLevel (reader : Reader) (mode : Mode) (recordBody : LevelRecorder) : LevelRecorder :=
  fun scope text => do
    let segments ← .split .or text
    let terms ← Recorded.forEach (reader.recordSegment mode recordBody scope) segments
    .ofInquiry (.ofResult (scope.permitted.buildGroup mode .or terms))

/-- Records the reading of a level in which bodies may lie in each other as often as there is room
for. -/
def recordWithin (reader : Reader) (mode : Mode) : Nat → LevelRecorder
  | 0 => reader.recordLevel mode fun _ _ => .ofInquiry (.reject (.nestingTooDeep nestingLimit))
  | room + 1 => reader.recordLevel mode (reader.recordWithin mode room)

/-- Records the reading of an expression. -/
def recordExpression (reader : Reader) (mode : Mode) (text : List Char) : Recorded Group :=
  reader.recordWithin mode nestingLimit reader.config.scope text

end Reader

/-! ## Recordings of inquiries -/

namespace Recorded

variable {α β : Type}

/-- A recording is that of an inquiry, and nothing that was done is amiss. -/
structure Meets (recorded : Recorded α) (inquiry : Inquiry α) : Prop where
  inquiry : recorded.inquiry = inquiry
  acts : ∀ act ∈ recorded.acts, act.Sound

/-- An inquiry during which nothing is done meets itself. -/
lemma Meets.ofInquiry (inquiry : Inquiry α) : Meets (.ofInquiry inquiry) inquiry :=
  ⟨rfl, fun _ mem => absurd mem List.not_mem_nil⟩

/-- Doing what is sound asks nothing. -/
lemma meets_record {act : Act} (sound : act.Sound) : Meets (record act) (pure ()) :=
  ⟨rfl, List.forall_mem_singleton.2 sound⟩

/-- Recordings of two parts make one of both. -/
lemma Meets.bind {recorded : Recorded α} {inquiry : Inquiry α} {next : α → Recorded β}
    {nextInquiry : α → Inquiry β} (meets : Meets recorded inquiry)
    (meetsNext : ∀ value, inquiry.result = .ok value →
      Meets (next value) (nextInquiry value)) :
    Meets (recorded >>= next) (inquiry >>= nextInquiry) := by
  obtain ⟨done, asked, result⟩ := recorded
  obtain ⟨rfl, acts⟩ := meets
  cases result with
  | error rejection =>
    refine ⟨rfl, fun act mem => acts act ?_⟩
    exact (List.append_nil done) ▸ mem
  | ok value =>
    obtain ⟨same, later⟩ := meetsNext value rfl
    refine ⟨?_, List.forall_mem_append.2 ⟨acts, later⟩⟩
    exact congrArg (fun found => (⟨asked ++ found.asked, found.result⟩ : Inquiry β)) same

/-- After a rejection nothing more is done. -/
lemma bind_of_reject {recorded : Recorded α} {rejection : Rejection} {next : α → Recorded β}
    (h : recorded.inquiry = .reject rejection) :
    recorded >>= next = ⟨recorded.acts, .reject rejection⟩ := by
  obtain ⟨acts, inquiry⟩ := recorded
  subst h
  exact congrArg (fun acts => (⟨acts, .reject rejection⟩ : Recorded β)) (List.append_nil acts)

/-- Behind a part without questions the recording is that of the rest. -/
lemma Meets.step {recorded : Recorded α} {value : α} {next : α → Recorded β}
    {inquiry : Inquiry β} (meets : Meets recorded (pure value))
    (meetsNext : Meets (next value) inquiry) : Meets (recorded >>= next) inquiry := by
  have both : Meets (recorded >>= next) (pure value >>= fun _ => inquiry) :=
    meets.bind fun _ found => Except.ok.inj found ▸ meetsNext
  exact both

/-- Recordings for each of some values make one for all of them. -/
lemma Meets.forEach {record : α → Recorded β} {inquire : α → Inquiry β} {values : List α}
    (meets : ∀ value ∈ values, Meets (record value) (inquire value)) :
    Meets (forEach record values) (Inquiry.forEach inquire values) := by
  induction values with
  | nil => exact .ofInquiry _
  | cons value others ih =>
    obtain ⟨here, there⟩ := List.forall_mem_cons.1 meets
    exact here.bind fun _ _ => (ih there).bind fun _ _ => .ofInquiry _

/-! ## Splits -/

section

variable {operator : Operator} {text done current part : List Char} {segments : List (List Char)}
variable {start stop : Nat}

/-- What is taken between two offsets is the part there, if there is one. -/
lemma meets_slice (isSlice : Text.IsSlice text start stop part) :
    Meets (slice text start stop) (pure part) := by
  unfold slice
  rw [Text.slice?_eq_some_iff.2 isSlice]
  exact (meets_record (.slice isSlice)).step (.ofInquiry _)

/-- The segments of a text, when some of them and the start of the next are known, and the rest is
scanned. -/
def segmentsOf (operator : Operator) (text : List Char) (segments : List (List Char))
    (current : List Char) (scanned : Except Defect Pieces) : Except Rejection (List (List Char)) :=
  (scanned.map fun found => segments ++ (found.prepend current).toList).mapError
    (Defect.rejection operator.separator text)

/-- At the end of the text the last segment is complete. -/
lemma segmentsOf_end :
    segmentsOf operator text segments current (.ok ⟨[], []⟩) = .ok (segments ++ [current]) := by
  simp [segmentsOf, Except.map, Except.mapError, Pieces.prepend, Pieces.toList]

/-- A character goes on the segment that was started. -/
lemma segmentsOf_push (c : Char) (scanned : Except Defect Pieces) :
    segmentsOf operator text segments current (scanned.map (.push c)) =
      segmentsOf operator text segments (current ++ [c]) scanned := by
  cases scanned with
  | error defect => rfl
  | ok found => simp [segmentsOf, Except.map, Pieces.prepend, Pieces.push]

/-- A separator completes a segment and starts the next. -/
lemma segmentsOf_start (scanned : Except Defect Pieces) :
    segmentsOf operator text segments current (scanned.map .start) =
      segmentsOf operator text (segments ++ [current]) [] scanned := by
  cases scanned with
  | error defect => rfl
  | ok found => simp [segmentsOf, Except.map, Pieces.prepend, Pieces.start, Pieces.toList]

/-- A segment is empty where it starts. -/
lemma byteLength_append_eq_iff :
    Text.byteLength (done ++ current) = Text.byteLength done ↔ current = [] := by
  cases current with
  | nil => simp
  | cons c rest =>
    have positive := c.utf8Size_pos
    simp only [Text.byteLength_append, Text.byteLength, reduceCtorEq, iff_false]
    omega

/-- At the end of a text the last segment is taken, if all brackets are closed and it is not
empty. -/
lemma meets_splitFrom_end (done current : List Char) (segments : List (List Char))
    (opened : List Nat) :
    Meets
      (splitFrom operator (done ++ current) (Text.byteLength (done ++ current)) opened
        (Text.byteLength done) segments [])
      (.ofResult (segmentsOf operator (done ++ current) segments current
        (scan operator.separator (Text.byteLength (done ++ current)) opened current.isEmpty
          []))) := by
  unfold splitFrom scan
  cases opened.getLast? with
  | some first => exact .ofInquiry _
  | none =>
    cases current with
    | nil =>
      rw [List.append_nil]
      simp only [if_true]
      exact .ofInquiry _
    | cons c rest =>
      have ends : Text.byteLength done ≠ Text.byteLength (done ++ c :: rest) := by
        rw [ne_comm, Ne, byteLength_append_eq_iff]
        exact List.cons_ne_nil c rest
      have last := Text.IsSlice.of_eq done [] (List.append_nil (done ++ c :: rest)).symm rfl rfl
      simp only [if_neg ends]
      refine (meets_slice last).step ?_
      rw [List.isEmpty_cons, if_neg Bool.false_ne_true, segmentsOf_end]
      exact .ofInquiry _

/-- Splitting by offsets finds the segments that a scan finds, each of which is a part of the
text. -/
lemma meets_splitFrom {rest : List Char} (done current : List Char)
    (segments : List (List Char)) (opened : List Nat) (isText : text = done ++ current ++ rest) :
    Meets
      (splitFrom operator text (Text.byteLength (done ++ current)) opened (Text.byteLength done)
        segments rest)
      (.ofResult (segmentsOf operator text segments current
        (scan operator.separator (Text.byteLength (done ++ current)) opened current.isEmpty
          rest))) := by
  induction rest generalizing done current segments opened with
  | nil =>
    rw [List.append_nil] at isText
    subst isText
    exact meets_splitFrom_end done current segments opened
  | cons c rest ih =>
    -- every character that is no separator belongs to the segment that is being read
    have push (later : List Nat) :
        Meets
          (splitFrom operator text (Text.byteLength (done ++ current) + c.utf8Size) later
            (Text.byteLength done) segments rest)
          (.ofResult (segmentsOf operator text segments current
            ((scan operator.separator (Text.byteLength (done ++ current) + c.utf8Size) later false
              rest).map (.push c)))) := by
      have longer : text = done ++ (current ++ [c]) ++ rest := by simp [isText]
      have step := ih done (current ++ [c]) segments later longer
      rw [List.isEmpty_eq_false_iff.2 (by simp), ← List.append_assoc, byteLength_concat] at step
      rw [segmentsOf_push]
      exact step
    unfold splitFrom scan
    by_cases isOpen : c = '['
    · rw [if_pos isOpen, if_pos isOpen]
      exact push _
    by_cases isClose : c = ']'
    · rw [if_neg isOpen, if_pos isClose, if_neg isOpen, if_pos isClose]
      cases opened with
      | nil => exact .ofInquiry _
      | cons first opened => exact push _
    rw [if_neg isOpen, if_neg isClose, if_neg isOpen, if_neg isClose]
    by_cases here : c = operator.separator ∧ opened = []
    · rw [if_pos here, if_pos here]
      obtain ⟨rfl, rfl⟩ := here
      cases current with
      | nil =>
        rw [List.append_nil, if_pos rfl, List.isEmpty_nil, if_pos rfl]
        exact .ofInquiry _
      | cons d tail =>
        have ends : Text.byteLength (done ++ d :: tail) ≠ Text.byteLength done := by
          rw [Ne, byteLength_append_eq_iff]
          exact List.cons_ne_nil d tail
        rw [if_neg ends, List.isEmpty_cons, if_neg Bool.false_ne_true, segmentsOf_start]
        refine (meets_slice (Text.IsSlice.of_eq done _ isText rfl rfl)).step ?_
        have behind : text = done ++ d :: tail ++ [operator.separator] ++ [] ++ rest := by
          simp [isText]
        have step := ih (done ++ d :: tail ++ [operator.separator]) [] (segments ++ [d :: tail]) []
          behind
        rw [List.append_nil, byteLength_concat] at step
        exact step
    · rw [if_neg here, if_neg here]
      exact push _

/-- The pieces of a text are parts of it. -/
lemma meets_pieces (operator : Operator) (text : List Char) :
    Meets (pieces operator text) (.ofResult (Reader.splitAt operator text)) := by
  unfold pieces
  by_cases none : text = []
  · subst none
    exact .ofInquiry _
  · rw [if_neg none, Reader.splitAt, split_eq_map_scan none]
    exact meets_splitFrom [] [] [] [] rfl

/-- The first act of splitting a text tells of its outcome. -/
lemma acts_split (operator : Operator) (text : List Char) :
    (split operator text).acts =
      .split operator text (Reader.splitAt operator text) :: (pieces operator text).acts := by
  rw [split, (meets_pieces operator text).inquiry]
  rfl

/-- A balanced text is split without a bracket that is missed. -/
lemma meets_split {operator : Operator} {text : List Char} (balanced : Balanced text) :
    Meets (split operator text) (.ofResult (Reader.splitAt operator text)) := by
  obtain ⟨same, sound⟩ := meets_pieces operator text
  refine ⟨same, ?_⟩
  rw [acts_split]
  refine List.forall_mem_cons.2 ⟨.split fun found position failed => ?_, sound⟩
  rcases Reader.reason_of_splitAt failed with ⟨-, eq⟩ | ⟨_, _, -, eq⟩ | ⟨_, unpaired, -⟩
  · cases eq
  · cases eq
  · exact unpaired.not_balanced balanced

end

end Recorded

/-! ## Items with a bracket -/

section

variable {before after name inner : List Char} {negated : Bool}

/-- No bracket is closed in front of the first of a balanced text. -/
lemma balanced_of_not_mem (balanced : Balanced (before ++ after)) (noBracket : '[' ∉ before) :
    Balanced before := by
  refine (encloses_iff_not_mem noBracket).2 ⟨fun mem => ?_, by simp⟩
  have closed := balanced.never_below before (List.prefix_append before after)
  have positive := List.count_pos_iff.2 mem
  rw [List.count_eq_zero.2 noBracket] at closed
  omega

/-- In a balanced item the first bracket has a partner. -/
lemma exists_inner (balanced : Balanced (negation negated ++ (name ++ '[' :: after)))
    (noBracket : '[' ∉ name) :
    ∃ inner trailing, after = inner ++ ']' :: trailing ∧ Balanced inner := by
  rw [← List.append_assoc] at balanced
  have front : Balanced (negation negated ++ name) := by
    refine balanced_of_not_mem balanced ?_
    cases negated <;> simpa [negation] using noBracket
  exact exists_interior ((encloses_append front).1 balanced).2

/-- Behind a name without one the first bracket is found, and then its partner. -/
lemma takenApart (noBracket : '[' ∉ name) (balanced : Balanced inner) (trailing : List Char) :
    TakenApart (name ++ '[' :: inner ++ ']' :: trailing) name inner trailing (Text.byteLength name)
      (Text.byteLength (name ++ ['['] ++ inner)) := by
  have first : Text.offsetOf? '[' (name ++ '[' :: inner ++ ']' :: trailing) =
      some (Text.byteLength name) := by
    rw [Text.offsetOf?_eq_map_cutAt, List.append_assoc, List.cons_append,
      Text.cutAt_eq_some_iff.2 ⟨rfl, noBracket⟩]
    rfl
  have partner : closingOffset? (name ++ '[' :: inner ++ ']' :: trailing) (Text.byteLength name) =
      some (Text.byteLength (name ++ ['['] ++ inner)) := by
    rw [List.append_assoc, List.cons_append, closingOffset?_append,
      cutClose_eq_some_iff.2 ⟨rfl, balanced⟩, Text.byteLength_append (name ++ ['['])]
    rfl
  -- a bracket takes one byte, so that the text behind it starts at the next offset
  have behindOpen := byteLength_concat name '['
  have behindClose := byteLength_concat (name ++ ['['] ++ inner) ']'
  exact {
    parts := rfl
    first := first
    partner := partner
    isName := Text.IsSlice.of_eq [] ('[' :: inner ++ ']' :: trailing) (List.append_assoc ..) rfl rfl
    isOpen := Text.IsSlice.of_eq name (inner ++ ']' :: trailing) (by simp) rfl behindOpen.symm
    isInner := Text.IsSlice.of_eq (name ++ ['[']) (']' :: trailing) (by simp) behindOpen.symm rfl
    isClose := Text.IsSlice.of_eq (name ++ ['['] ++ inner) trailing (by simp) rfl behindClose.symm
    isTrailing := Text.IsSlice.of_eq (name ++ ['['] ++ inner ++ [']']) [] (by simp) behindClose.symm
      (congrArg Text.byteLength (by simp)) }

end

/-! ## Recordings of readings -/

namespace Reader

open Recorded (Meets)

variable {reader : Reader} {mode : Mode} {scope : Scope} {readBody : LevelReader}
variable {recordBody : LevelRecorder} {text item : List Char}

/-- The text between a bracket and its partner is a body if nothing follows and it is not empty. -/
lemma bodyText_append {name inner trailing : List Char} {negated : Bool}
    (balanced : Balanced inner) :
    bodyText item negated name (inner ++ ']' :: trailing) =
      if trailing ≠ [] then .error (.danglingText (String.ofList name) (String.ofList trailing))
      else if inner = [] then .error (.emptyQualifierBody (String.ofList name))
      else .ok inner := by
  rw [bodyText, cutClose_eq_some_iff.2 ⟨rfl, balanced⟩]

section

variable (h : ∀ scope inner, Balanced inner →
  Meets (recordBody scope inner) (readBody scope inner))

include h

/-- A balanced item with a bracket is taken apart. -/
lemma meets_recordBracketed {name after : List Char} {negated : Bool}
    (isItem : item = negation negated ++ (name ++ '[' :: after)) (noBracket : '[' ∉ name)
    (balanced : Balanced item) :
    Meets (reader.recordBracketed recordBody scope item negated (name ++ '[' :: after))
      (reader.readBracketed readBody scope item negated name after) := by
  subst isItem
  obtain ⟨inner, trailing, rfl, balancedInner⟩ := exists_inner balanced noBracket
  have taken := takenApart noBracket balancedInner trailing
  rw [List.append_assoc, List.cons_append] at taken
  unfold recordBracketed readBracketed
  rw [bodyText_append balancedInner, taken.first]
  refine (Recorded.meets_record (.takeApart rfl taken)).step ?_
  refine (Recorded.meets_slice taken.isName).step ?_
  refine (Meets.ofInquiry _).bind fun qualifier _ => ?_
  rw [taken.partner]
  refine (Recorded.meets_slice taken.isTrailing).step ?_
  by_cases dangling : trailing ≠ []
  · rw [if_pos dangling, if_pos dangling]
    exact .ofInquiry _
  rw [if_neg dangling, if_neg dangling]
  refine (Recorded.meets_slice taken.isInner).step ?_
  by_cases none : inner = []
  · rw [if_pos none, if_pos none]
    exact .ofInquiry _
  rw [if_neg none, if_neg none]
  refine (h _ inner balancedInner).bind fun group _ => ?_
  split <;> exact .ofInquiry _

/-- Only an item with a bracket is taken apart. -/
lemma meets_recordItem (balanced : Balanced item) :
    Meets (reader.recordItem recordBody scope item)
      (reader.readItem readBody scope item) := by
  unfold recordItem readItem Form.ofText
  by_cases all : item = wildcard
  · rw [if_pos all, if_pos all]
    exact .ofInquiry _
  rw [if_neg all, if_neg all]
  have isItem := negation_append_negated? item
  obtain ⟨⟨negated, body⟩, marked⟩ : ∃ parts, negated? item = parts := ⟨_, rfl⟩
  rw [marked] at isItem ⊢
  dsimp only [Form.ofBody] at isItem ⊢
  cases filterList? body with
  | some list => exact .ofInquiry _
  | none =>
    dsimp only
    cases cut : Text.cutAt '[' body with
    | none =>
      rw [if_neg (Text.cutAt_eq_none_iff.1 cut)]
      exact .ofInquiry _
    | some parts =>
      obtain ⟨name, after⟩ := parts
      obtain ⟨rfl, noBracket⟩ := Text.cutAt_eq_some_iff.1 cut
      rw [if_pos (by simp)]
      exact meets_recordBracketed h isItem.symm noBracket balanced

/-- A recording reads a balanced segment as the reader does. -/
lemma meets_recordSegment {segment : List Char} (balanced : Balanced segment) :
    Meets (reader.recordSegment mode recordBody scope segment)
      (reader.readSegment mode readBody scope segment) := by
  refine (Recorded.meets_split balanced).bind fun items found => ?_
  have splits := splitAt_eq_ok_iff.1 found
  refine Meets.bind ?_ fun choices _ => .ofInquiry _
  exact .forEach fun item mem => meets_recordItem h (splits.encloses item mem).closes

/-- A recording reads a balanced level as the reader does. -/
lemma meets_recordLevel (balanced : Balanced text) :
    Meets (reader.recordLevel mode recordBody scope text)
      (reader.readLevel mode readBody scope text) := by
  refine (Recorded.meets_split balanced).bind fun segments found => ?_
  have splits := splitAt_eq_ok_iff.1 found
  refine Meets.bind ?_ fun terms _ => .ofInquiry _
  exact .forEach fun segment mem => meets_recordSegment h (splits.encloses segment mem).closes

end

/-- By induction on the room, it does so with all bodies below. -/
lemma meets_recordWithin (room : Nat) (balanced : Balanced text) :
    Meets (reader.recordWithin mode room scope text)
      (reader.readWithin mode room scope text) := by
  induction room generalizing scope text with
  | zero => exact meets_recordLevel (fun _ _ _ => .ofInquiry _) balanced
  | succ room ih => exact meets_recordLevel (fun _ _ balancedInner => ih balancedInner) balanced

/-- A recording reads a level like the reader. It starts with a split of the level, and nothing
behind that is amiss. -/
lemma recordLevel_sound (h : ∀ scope inner, Balanced inner →
      Meets (recordBody scope inner) (readBody scope inner))
    (scope : Scope) (text : List Char) :
    (reader.recordLevel mode recordBody scope text).inquiry =
        reader.readLevel mode readBody scope text ∧
      (reader.recordLevel mode recordBody scope text).acts.head? =
        some (.split .or text (splitAt .or text)) ∧
      ∀ act ∈ (reader.recordLevel mode recordBody scope text).acts.tail, act.Sound := by
  have pieces := Recorded.meets_pieces .or text
  have acts := Recorded.acts_split .or text
  cases outcome : splitAt .or text with
  | ok segments =>
    have balanced := (splitAt_eq_ok_iff.1 outcome).balanced
    have starts : (Recorded.split .or text).acts <+:
        (reader.recordLevel mode recordBody scope text).acts := List.prefix_append ..
    obtain ⟨same, sound⟩ := meets_recordLevel h balanced
    obtain ⟨behind, eq⟩ := acts ▸ starts
    rw [← eq] at sound ⊢
    rw [outcome]
    exact ⟨same, rfl, (List.forall_mem_cons.1 sound).2⟩
  | error rejection =>
    -- a level that is not split is rejected at once
    have unsplit : (Recorded.split .or text).inquiry = .reject rejection := by
      rw [outcome] at pieces
      exact pieces.inquiry
    unfold recordLevel readLevel
    rw [Recorded.bind_of_reject unsplit, outcome, acts, outcome]
    exact ⟨rfl, rfl, pieces.acts⟩

/-- The same holds of a level that need not be balanced, behind its first split. -/
lemma recordWithin_sound (room : Nat) (scope : Scope) (text : List Char) :
    (reader.recordWithin mode room scope text).inquiry = reader.readWithin mode room scope text ∧
      (reader.recordWithin mode room scope text).acts.head? =
        some (.split .or text (splitAt .or text)) ∧
      ∀ act ∈ (reader.recordWithin mode room scope text).acts.tail, act.Sound := by
  cases room with
  | zero => exact recordLevel_sound (fun _ _ _ => .ofInquiry _) scope text
  | succ room =>
    exact recordLevel_sound (fun _ _ balanced => meets_recordWithin room balanced) scope text

/-! ## Missed brackets -/

variable {found : String} {position : Nat}

/-- An expression is rejected for a bracket by its first split or not at all. -/
lemma readExpression_eq_unbalancedBrackets_iff :
    (reader.readExpression mode text).result = .error (.unbalancedBrackets found position) ↔
      found = String.ofList text ∧
        splitAt .or text = .error (.unbalancedBrackets found position) := by
  have atSplit (rejection : Rejection) (unsplit : splitAt .or text = .error rejection) :
      (reader.readExpression mode text).result = .error rejection :=
    Inquiry.result_bind_eq_error_iff.2 (.inl unsplit)
  constructor
  · intro failed
    have reason := reason_of_readWithin (Nat.zero_add nestingLimit) .whole failed
    obtain ⟨rfl, unpaired⟩ : found = String.ofList text ∧ Unpaired text position := by
      cases reason with
      | unbalancedBrackets unpaired => exact ⟨rfl, unpaired⟩
      | item _ _ fault => cases fault
      | rule _ _ fault => cases fault
    refine ⟨rfl, ?_⟩
    cases outcome : splitAt .or text with
    | ok segments => exact absurd (splitAt_eq_ok_iff.1 outcome).balanced unpaired.not_balanced
    | error rejection =>
      rw [atSplit rejection outcome] at failed
      rw [Except.error.inj failed]
  · rintro ⟨-, unsplit⟩
    exact atSplit _ unsplit

/-- Taking the expression out of a value misses no bracket. -/
lemma expressionOf_ne_unbalancedBrackets (config : Config) (value : String) :
    config.expressionOf value ≠ .error (.unbalancedBrackets found position) := by
  intro failed
  unfold Config.expressionOf at failed
  split at failed
  · cases failed
  · split at failed
    · cases failed
    · dsimp only at failed
      split at failed
      · cases failed
      · split at failed <;> cases failed

end Reader

/-- Reading a text by offsets is reading it. It starts with the split of the whole text, and behind
that nothing is amiss, whether the text is split or not: no other split misses a bracket, each item
with a bracket is taken apart at this bracket and its partner, and between two offsets there is a
part of the text. So an expression is rejected for a missed bracket by the split of the whole of it
and by nothing else, and the rejection carries the whole expression, also that of a value. -/
theorem Reader.recordings_are_sound (reader : Reader) :
    (∀ mode text,
      (reader.recordExpression mode text).inquiry = reader.readExpression mode text ∧
      (reader.recordExpression mode text).acts.head? =
        some (.split .or text (splitAt .or text)) ∧
      ∀ act ∈ (reader.recordExpression mode text).acts.tail, act.Sound) ∧
    (∀ mode text found position,
      (reader.readExpression mode text).result = .error (.unbalancedBrackets found position) ↔
        found = String.ofList text ∧
          splitAt .or text = .error (.unbalancedBrackets found position)) ∧
    ∀ value found position,
      (reader.readValue value).result = .error (.unbalancedBrackets found position) ↔
        ∃ text, reader.config.expressionOf value = .ok text ∧ found = String.ofList text ∧
          splitAt .or text = .error (.unbalancedBrackets found position) := by
  refine ⟨fun mode text => recordWithin_sound nestingLimit reader.config.scope text, ?_, ?_⟩
  · intro mode text found position
    exact readExpression_eq_unbalancedBrackets_iff
  · intro value found position
    unfold readValue
    rw [Inquiry.result_bind_eq_error_iff]
    constructor
    · rintro (notValue | ⟨text, isText, failed⟩)
      · exact absurd notValue (expressionOf_ne_unbalancedBrackets _ _)
      · refine ⟨text, isText, ?_⟩
        rcases Inquiry.result_bind_eq_error_iff.1 failed with failed | ⟨root, -, failed⟩
        · exact readExpression_eq_unbalancedBrackets_iff.1 failed
        · cases failed
    · rintro ⟨text, isText, failed⟩
      refine .inr ⟨text, isText, Inquiry.result_bind_eq_error_iff.2 (.inl ?_)⟩
      exact readExpression_eq_unbalancedBrackets_iff.2 failed

-- an item is taken apart behind its negation, and what is between its brackets takes two bytes
example :
    ((Reader.recordExpression ⟨prayers, none⟩ .strict "!DEITY[É]".toList).acts.drop 4).take 4 =
      [.takeApart "!DEITY[É]".toList true "DEITY[É]".toList, .slice "DEITY[É]".toList 0 5,
        .slice "DEITY[É]".toList 9 9, .slice "DEITY[É]".toList 6 8] := by
  decide +kernel

end ChoiceLang
