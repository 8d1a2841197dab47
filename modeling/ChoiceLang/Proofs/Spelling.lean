import ChoiceLang.Proofs.Strictness
import ChoiceLang.Selection.Value

/-!
# Spelling

What is written for a group is the text it was read from, with its type filters spelled in one way:
`TYPE=` at the start, and every name once. `respelled` says this of a text alone. A text is cut at
its brackets and separators into runs, and a run is respelled if it looks like a type filter; every
other character stays as and where it is. In a text that is read such a run is a type filter, since
no bracket may follow it and nothing may follow a bracket.

`text_of_derives` shows by the grammar that writing a group respells its text. The rest is about
`respelled` by itself: it never makes a text longer, and the texts that it leaves alone are those in
which every run is spelled in that way.
-/

namespace ChoiceLang

open Expression

/-! ## Lists without repetition -/

section

variable {α β : Type} [DecidableEq α] [DecidableEq β]

/-- What is kept of a list is a part of it, in order. -/
lemma keepFirst_sublist (values : List α) : (keepFirst values).Sublist values := by
  induction values with
  | nil => exact List.Sublist.refl _
  | cons a others ih => exact (List.filter_sublist.trans ih).cons_cons a

/-- Values that can be told apart are kept alike. -/
lemma keepFirst_map {f : α → β} (injective : Function.Injective f) (values : List α) :
    keepFirst (values.map f) = (keepFirst values).map f := by
  induction values with
  | nil => rfl
  | cons a others ih =>
    have same : (fun b => decide (f b ≠ f a)) = fun b => decide (b ≠ a) := by
      funext b
      simp [injective.eq_iff]
    rw [List.map_cons, keepFirst, keepFirst, List.map_cons, ih, List.filter_map]
    exact congrArg (fun p => f a :: ((keepFirst others).filter p).map f) same

/-- A new value at the end of a list is kept. -/
lemma keepFirst_concat {values : List α} {a : α} (new : a ∉ values) :
    keepFirst (values ++ [a]) = keepFirst values ++ [a] := by
  induction values with
  | nil => rfl
  | cons first others ih =>
    obtain ⟨ne, new⟩ := not_or.1 (mt List.mem_cons.2 new)
    have kept : [a].filter (· ≠ first) = [a] := List.filter_eq_self.2 (by simp [ne])
    rw [List.cons_append, keepFirst, keepFirst, ih new, List.filter_append, kept]
    rfl

/-- Something is kept of a list that is not empty. -/
lemma keepFirst_ne_nil {values : List α} (h : values ≠ []) : keepFirst values ≠ [] := by
  obtain ⟨a, others, rfl⟩ := List.exists_cons_of_ne_nil h
  exact List.cons_ne_nil _ _

end

/-! ## Type filters -/

/-- Spells a type filter as it is written, and leaves any other text alone. -/
def respell (run : List Char) : List Char :=
  let (negated, body) := negated? run
  match filterList? body with
  | some list =>
    negation negated ++ filterStart ++ Text.joinWith '.' (keepFirst (Text.pieces '.' list))
  | none => run

/-- A text that is no type filter, or one that is spelled as it is written. -/
def IsPlain (run : List Char) : Prop :=
  ∀ negated, ∀ start ∈ filterStarts, ∀ list, run = negation negated ++ start ++ list →
    start = filterStart ∧ (Text.pieces '.' list).Nodup

section

variable {run start list : List Char} {negated : Bool}

/-- How a type filter is respelled. -/
lemma respell_filter (isStart : start ∈ filterStarts) :
    respell (negation negated ++ start ++ list) =
      negation negated ++ filterStart ++
        Text.joinWith '.' (keepFirst (Text.pieces '.' list)) := by
  have found : filterList? (start ++ list) = some list :=
    filterList?_eq_some_iff.2 ⟨start, isStart, rfl⟩
  simp only [respell, negated?_filter isStart, found]

/-- Other texts are left alone. -/
lemma respell_of_not_isFilter (h : ¬ IsFilter run) : respell run = run := by
  have notFound : filterList? (negated? run).2 = none := (filterList?_eq_none_iff rfl).2 h
  simp only [respell, notFound]

/-- Respelling brings no mark into a text. -/
lemma not_mem_respell (h : ∀ c ∈ marks, c ∉ run) : ∀ c ∈ marks, c ∉ respell run := by
  intro c isMark
  by_cases filter : IsFilter run
  · obtain ⟨negated, start, isStart, list, rfl⟩ := filter
    have isFilterStart : filterStart ∈ filterStarts := by simp [filterStarts]
    rw [respell_filter isStart]
    apply not_mem_filter isFilterStart isMark
    intro name mem inName
    have inPieces := (mem_keepFirst ..).1 mem
    have inList : c ∈ list := Text.joinWith_pieces '.' list ▸ Text.subset_joinWith inPieces inName
    exact h c isMark (List.mem_append_right _ inList)
  · rw [respell_of_not_isFilter filter]
    exact h c isMark

/-- Respelling does not make a text longer. -/
lemma byteLength_respell_le (run : List Char) :
    Text.byteLength (respell run) ≤ Text.byteLength run := by
  by_cases filter : IsFilter run
  · obtain ⟨negated, start, isStart, list, rfl⟩ := filter
    have sameStart : Text.byteLength start = Text.byteLength filterStart := by
      obtain ⟨mark, rfl | rfl, rfl⟩ := mem_filterStarts.1 isStart
      · rfl
      · rfl
    have shorter : Text.byteLength (Text.joinWith '.' (keepFirst (Text.pieces '.' list))) ≤
        Text.byteLength list := by
      apply Text.byteLength_le_of_sublist
      conv => rhs; rw [← Text.joinWith_pieces '.' list]
      exact Text.joinWith_sublist (keepFirst_sublist _)
    rw [respell_filter isStart]
    simp only [Text.byteLength_append]
    omega
  · exact Nat.le_of_eq (congrArg Text.byteLength (respell_of_not_isFilter filter))

/-- The texts that are left alone are those that are spelled as they are written. -/
lemma respell_eq_self_iff : respell run = run ↔ IsPlain run := by
  constructor
  · rintro same negated start isStart list rfl
    rw [respell_filter isStart] at same
    -- both starts are equally long, so that the texts can be compared part by part
    have sameLength : (negation negated ++ filterStart).length =
        (negation negated ++ start).length := by
      obtain ⟨mark, -, rfl⟩ := mem_filterStarts.1 isStart
      simp [filterStart]
    obtain ⟨sameStart, sameList⟩ := List.append_inj same sameLength
    refine ⟨(List.append_cancel_left sameStart).symm, ?_⟩
    -- the names that are kept are the names between the dots of the text they are joined to
    have keptNames : Text.pieces '.' list = keepFirst (Text.pieces '.' list) := by
      conv => lhs; rw [← sameList]
      apply Text.pieces_joinWith (keepFirst_ne_nil (Text.pieces_ne_nil '.' list))
      intro name mem
      exact Text.not_mem_of_mem_pieces ((mem_keepFirst ..).1 mem)
    rw [keptNames]
    exact nodup_keepFirst _
  · intro plain
    by_cases filter : IsFilter run
    · obtain ⟨negated, start, isStart, list, rfl⟩ := filter
      obtain ⟨rfl, nodup⟩ := plain negated start isStart list rfl
      rw [respell_filter isStart, keepFirst_eq_self nodup, Text.joinWith_pieces]
    · exact respell_of_not_isFilter filter

end

/-! ## Runs of a text -/

/-- A text cut at its marks: the characters before the first mark, and every mark with those
after it. -/
structure Runs where
  first : List Char
  later : List (Char × List Char)

namespace Runs

/-- The runs of a text. -/
def ofText : List Char → Runs
  | [] => ⟨[], []⟩
  | c :: rest =>
    let runs := ofText rest
    if c ∈ marks then ⟨[], (c, runs.first) :: runs.later⟩ else ⟨c :: runs.first, runs.later⟩

/-- The text that runs make up. -/
def text (runs : Runs) : List Char :=
  runs.first ++ runs.later.flatMap fun pair => pair.1 :: pair.2

/-- All runs in order, without the marks. -/
def toList (runs : Runs) : List (List Char) := runs.first :: runs.later.map Prod.snd

/-- Changes each run. -/
def map (f : List Char → List Char) (runs : Runs) : Runs :=
  ⟨f runs.first, runs.later.map fun pair => (pair.1, f pair.2)⟩

/-- The runs between which there are marks, and in which there are none. -/
structure Cut (runs : Runs) : Prop where
  marks : ∀ pair ∈ runs.later, pair.1 ∈ marks
  free : ∀ run ∈ runs.toList, ∀ c ∈ Expression.marks, c ∉ run

variable {f : List Char → List Char} {mark : Char}

/-- A text without marks is one run. -/
lemma ofText_of_not_mem {run : List Char} (h : ∀ c ∈ marks, c ∉ run) : ofText run = ⟨run, []⟩ := by
  induction run with
  | nil => rfl
  | cons c rest ih =>
    have notMark : c ∉ marks := fun isMark => h c isMark List.mem_cons_self
    have later := ih fun d isMark mem => h d isMark (List.mem_cons_of_mem c mem)
    rw [ofText, if_neg notMark, later]

/-- Runs go on behind a mark. -/
lemma ofText_append (isMark : mark ∈ marks) (before after : List Char) :
    ofText (before ++ mark :: after) =
      ⟨(ofText before).first, (ofText before).later ++
        (mark, (ofText after).first) :: (ofText after).later⟩ := by
  induction before with
  | nil => exact if_pos isMark
  | cons c before ih =>
    rw [List.cons_append, ofText, ofText, ih]
    split
    · rfl
    · rfl

/-- Runs make up the text that they were cut from. -/
lemma text_ofText (text : List Char) : (ofText text).text = text := by
  induction text with
  | nil => rfl
  | cons c rest ih =>
    unfold ofText
    dsimp only
    split
    · exact congrArg (c :: ·) ih
    · exact congrArg (c :: ·) ih

/-- The runs of a text are cut at its marks. -/
lemma cut_ofText (text : List Char) : (ofText text).Cut := by
  induction text with
  | nil => exact ⟨by simp [ofText], by simp [ofText, toList]⟩
  | cons c rest ih =>
    obtain ⟨areMarks, free⟩ := ih
    obtain ⟨freeFirst, freeLater⟩ := List.forall_mem_cons.1 free
    unfold ofText
    dsimp only
    split
    · next isMark =>
      refine ⟨List.forall_mem_cons.2 ⟨isMark, areMarks⟩, ?_⟩
      exact List.forall_mem_cons.2 ⟨fun _ _ => List.not_mem_nil, free⟩
    · next notMark =>
      refine ⟨areMarks, List.forall_mem_cons.2 ⟨?_, freeLater⟩⟩
      intro d isMark mem
      rcases List.mem_cons.1 mem with rfl | mem
      · exact notMark isMark
      · exact freeFirst d isMark mem

/-- Runs are those of the text that they make up, if they could have been cut from it. -/
lemma Cut.ofText_text {runs : Runs} (h : runs.Cut) : ofText runs.text = runs := by
  obtain ⟨first, later⟩ := runs
  obtain ⟨areMarks, free⟩ := h
  induction later generalizing first with
  | nil =>
    obtain ⟨freeFirst, _⟩ := List.forall_mem_cons.1 free
    rw [text, List.flatMap_nil, List.append_nil]
    exact ofText_of_not_mem freeFirst
  | cons pair later ih =>
    obtain ⟨mark, run⟩ := pair
    obtain ⟨isMark, areMarks⟩ := List.forall_mem_cons.1 areMarks
    obtain ⟨freeFirst, freeLater⟩ := List.forall_mem_cons.1 free
    have rest : ofText (text ⟨run, later⟩) = ⟨run, later⟩ := ih run areMarks freeLater
    change ofText (first ++ mark :: text ⟨run, later⟩) = _
    rw [ofText_append isMark, ofText_of_not_mem freeFirst, rest]
    rfl

/-- Changing runs changes them one by one. -/
lemma toList_map (runs : Runs) : (runs.map f).toList = runs.toList.map f := by
  simp [toList, map]

/-- Runs stay cut if a change brings no marks into them. -/
lemma Cut.map {runs : Runs} (h : runs.Cut)
    (keeps : ∀ run, (∀ c ∈ Expression.marks, c ∉ run) → ∀ c ∈ Expression.marks, c ∉ f run) :
    (runs.map f).Cut where
  marks := List.forall_mem_map.2 h.marks
  free := by
    rw [toList_map]
    exact List.forall_mem_map.2 fun run mem => keeps run (h.free run mem)

/-- Nothing changes if no run changes. -/
lemma map_eq_self_iff {runs : Runs} : runs.map f = runs ↔ ∀ run ∈ runs.toList, f run = run := by
  obtain ⟨first, later⟩ := runs
  have later_iff : (later.map fun pair => (pair.1, f pair.2)) = later ↔
      ∀ pair ∈ later, f pair.2 = pair.2 := by
    conv => lhs; rhs; rw [← List.map_id later]
    rw [List.map_inj_left]
    exact forall₂_congr fun pair _ => by simp [Prod.ext_iff]
  rw [toList, List.forall_mem_cons, List.forall_mem_map, map, mk.injEq, later_iff]

/-- A text gets no longer if no run does. -/
lemma byteLength_text_map_le (h : ∀ run, Text.byteLength (f run) ≤ Text.byteLength run)
    (runs : Runs) : Text.byteLength (runs.map f).text ≤ Text.byteLength runs.text := by
  obtain ⟨first, later⟩ := runs
  induction later generalizing first with
  | nil => simpa [text, map] using h first
  | cons pair later ih =>
    obtain ⟨mark, run⟩ := pair
    have here := h first
    have rest := ih run
    change Text.byteLength (f first ++ mark :: (map f ⟨run, later⟩).text) ≤
      Text.byteLength (first ++ mark :: text ⟨run, later⟩)
    simp only [Text.byteLength_append, Text.byteLength]
    omega

end Runs

/-! ## Respelled texts -/

/-- The text in which each type filter is spelled as it is written. -/
def respelled (text : List Char) : List Char := ((Runs.ofText text).map respell).text

section

variable {text : List Char} {mark : Char}

/-- A text is respelled on both sides of a mark. -/
lemma respelled_append (isMark : mark ∈ marks) (before after : List Char) :
    respelled (before ++ mark :: after) = respelled before ++ mark :: respelled after := by
  rw [respelled, Runs.ofText_append isMark]
  simp [respelled, Runs.map, Runs.text]

/-- A text without marks is respelled as a whole. -/
lemma respelled_of_not_mem (h : ∀ c ∈ marks, c ∉ text) : respelled text = respell text := by
  rw [respelled, Runs.ofText_of_not_mem h]
  exact List.append_nil _

/-- A text is respelled on both sides of its brackets. -/
lemma respelled_bracketed (name inner : List Char) :
    respelled (name ++ '[' :: inner ++ [']']) =
      respelled name ++ '[' :: respelled inner ++ [']'] := by
  have isOpen : '[' ∈ marks := by decide
  have isClose : ']' ∈ marks := by decide
  rw [respelled_append isClose, respelled_append isOpen]
  rfl

/-- Pieces between marks are respelled one by one. -/
lemma respelled_joinWith (isMark : mark ∈ marks) (pieces : List (List Char)) :
    respelled (Text.joinWith mark pieces) = Text.joinWith mark (pieces.map respelled) := by
  induction pieces with
  | nil => rfl
  | cons piece others ih =>
    cases others with
    | nil => rfl
    | cons second others =>
      rw [Text.joinWith, respelled_append isMark, ih]
      rfl

example : respelled "X|!TYPE.Foo.Bar.Foo,Q[TYPE.A]".toList =
    "X|!TYPE=Foo.Bar,Q[TYPE=A]".toList := by
  decide

/-- Respelling does not make a text longer. -/
lemma byteLength_respelled_le (text : List Char) :
    Text.byteLength (respelled text) ≤ Text.byteLength text := by
  have h := Runs.byteLength_text_map_le byteLength_respell_le (.ofText text)
  rwa [Runs.text_ofText] at h

/-- The texts that respelling leaves alone are those in which it leaves alone each run. -/
lemma respelled_eq_self_iff :
    respelled text = text ↔ ∀ run ∈ (Runs.ofText text).toList, IsPlain run := by
  have same_iff : respelled text = text ↔
      (Runs.ofText text).map respell = Runs.ofText text := by
    constructor
    · intro same
      -- no mark comes or goes, so the runs of the respelled text are the respelled runs
      have cut := (Runs.cut_ofText text).map fun _ => not_mem_respell
      rw [← cut.ofText_text]
      exact congrArg Runs.ofText same
    · intro same
      rw [respelled, same, Runs.text_ofText]
  rw [same_iff, Runs.map_eq_self_iff]
  exact forall₂_congr fun run _ => respell_eq_self_iff

end

/-- The name of a qualifier is spelled in one way only, negated or not. -/
lemma respelled_name {table : QualifierTable} {qualifier : Qualifier}
    (h : qualifier ∈ table.qualifiers) (negated : Bool) :
    respelled (negation negated ++ qualifier.name.toList) =
      negation negated ++ qualifier.name.toList := by
  obtain ⟨_, notFilter, _⟩ := ofText_eq_plain_iff.1 (QualifierTable.ofText_name h negated)
  rw [respelled_of_not_mem (QualifierTable.mark_not_mem_name h negated),
    respell_of_not_isFilter notFilter]

/-! ## What is written for a group -/

section

variable {reader : Reader} {scope : Scope} {derives : Grammar.Bodies}
variable (h : ∀ scope text body, derives scope text body → body.text = respelled text)

include h

/-- The choice that an item stands for is written as the item respelled. -/
lemma text_of_item {item : List Char} {choice : Choice} (isItem : IsItem item)
    (derived : Grammar.Item reader derives scope item choice) : choice.text = respelled item := by
  cases derived with
  | all => rfl
  | @types negated start names isStart some_name areNames =>
    have noBracket : '[' ∉ negation negated ++ start ++ Text.joinWith '.' names :=
      not_mem_filter isStart (by decide) fun name mem => (areNames name mem).2.2.1
    have names_eq : Text.pieces '.' (Text.joinWith '.' names) = names :=
      Text.pieces_joinWith some_name fun name mem => (areNames name mem).2.1
    rw [respelled_of_not_mem (isItem.not_mem noBracket), respell_filter isStart, names_eq]
    change negation negated ++ filterStart ++
      Text.joinWith '.' ((keepFirst (names.map String.ofList)).map String.toList) = _
    have kept : (keepFirst (names.map String.ofList)).map String.toList = keepFirst names := by
      rw [keepFirst_map (fun _ _ => String.ofList_inj.1), List.map_map]
      exact List.map_id'' (fun _ => String.toList_ofList) _
    rw [kept]
  | @qualifier negated qualifier inner body permitted _ _ derived =>
    rw [Choice.text_qualifier, respelled_bracketed, respelled_name permitted.registered,
      h _ _ _ derived]
  | @bareQualifier negated qualifier permitted _ =>
    rw [respelled_name permitted.registered]
    rfl
  | reference notAll notFilter noBracket unmarked notBare accepted =>
    rw [respelled_of_not_mem (isItem.not_mem noBracket), respell_of_not_isFilter notFilter]
    exact String.toList_ofList

/-- The term that a segment stands for is written as the segment respelled. -/
lemma text_of_segment {segment : List Char} {term : Choice} (outer : Encloses [.or] 0 segment)
    (derived : Grammar.Segment reader derives scope segment term) :
    term.text = respelled segment := by
  cases derived with
  | @item item _ split derived =>
    obtain rfl : item = segment := split.joined
    exact text_of_item h (.of_splits outer split (by simp)) derived
  | @group items choices split _ derived =>
    have isMark : Operator.and.separator ∈ marks := by decide
    rw [Choice.text_group, ← split.joined, respelled_joinWith isMark]
    apply congrArg (Text.joinWith Operator.and.separator)
    exact derived.map_eq_map fun item mem choice itemDerived =>
      text_of_item h (.of_splits outer split mem) itemDerived

/-- The group that a level stands for is written as the level respelled. -/
lemma text_of_level {text : List Char} {group : Group}
    (derived : Grammar.Level reader derives scope text group) :
    group.text = respelled text := by
  cases derived with
  | @segments segments terms split derived =>
    have isMark : Operator.or.separator ∈ marks := by decide
    rw [← split.joined, respelled_joinWith isMark]
    apply congrArg (Text.joinWith Operator.or.separator)
    exact derived.map_eq_map fun segment mem term segmentDerived =>
      text_of_segment h (split.encloses segment mem) segmentDerived

end

/-- A group that is derived for a text is written as the text respelled. -/
lemma text_of_derives {reader : Reader} {room : Nat} {scope : Scope} {text : List Char}
    {group : Group} (h : reader.Derives room scope text group) : group.text = respelled text := by
  induction room generalizing scope text group with
  | zero => exact text_of_level (fun _ _ _ => False.elim) h
  | succ room ih =>
    have level : Grammar.Level reader (reader.Derives room) scope text group := h
    apply text_of_level _ level
    intro scope text body
    exact ih

/-- What a lenient reader has read is written as the text respelled. -/
lemma Reader.text_of_readExpression {reader : Reader} {text : List Char} {group : Group}
    (h : (reader.readExpression .lenient text).result = .ok group) :
    group.text = respelled text :=
  text_of_derives ((Reader.result_readWithin_eq_ok_iff ..).1 h)

/-! ## Values -/

/-- The expression of a value is what follows the sub-token of the configuration, in which the
separator cannot stand. -/
lemma Config.expressionOf_eq_ok_iff {config : Config} {value : String} {text : List Char} :
    config.expressionOf value = .ok text ↔
      value = config.subToken ++ "|" ++ String.ofList text ∧ '|' ∉ config.subToken.toList ∧
        text ≠ [] := by
  constructor
  · intro h
    unfold expressionOf at h
    split at h
    · cases h
    · split at h
      · cases h
      · next before after cut =>
        obtain ⟨parts, notMem⟩ := Text.cutAt_eq_some_iff.1 cut
        dsimp only at h
        split at h
        · cases h
        · next known =>
          split at h
          · cases h
          · next some_text =>
            cases h
            rw [← not_not.1 known, ← String.toList_inj]
            exact ⟨by simpa using parts, by simpa using notMem, some_text⟩
  · rintro ⟨rfl, notMem, some_text⟩
    have parts : (config.subToken ++ "|" ++ String.ofList text).toList =
        config.subToken.toList ++ '|' :: text := by
      simp
    have cut := Text.cutAt_eq_some_iff.2 ⟨parts, notMem⟩
    unfold expressionOf
    split
    · next empty =>
      rw [parts] at empty
      exact absurd empty (by simp)
    · rw [cut]
      simp [some_text]

/-- A value is the token of its configuration, a bar and the expression. -/
lemma Config.eq_of_expressionOf {config : Config} {value : String} {text : List Char}
    (h : config.expressionOf value = .ok text) :
    value = config.subToken ++ "|" ++ String.ofList text :=
  (expressionOf_eq_ok_iff.1 h).1

/-- A value is read if the expression in it is accepted by a strict reader. -/
lemma Reader.result_readValue_eq_ok_iff {reader : Reader} {value : String} {selection : Selection} :
    (reader.readValue value).result = .ok selection ↔
      ∃ text root, reader.config.expressionOf value = .ok text ∧
        (reader.readExpression .strict text).result = .ok root ∧
        selection = ⟨reader.config.subToken, reader.config.title, root⟩ := by
  unfold readValue
  constructor
  · intro h
    obtain ⟨text, found, h⟩ := Inquiry.result_bind_eq_ok_iff.1 h
    obtain ⟨root, read, h⟩ := Inquiry.result_bind_eq_ok_iff.1 h
    exact ⟨text, root, found, read, (Except.ok.inj h).symm⟩
  · rintro ⟨text, root, found, read, rfl⟩
    refine Inquiry.result_bind_eq_ok_iff.2 ⟨text, found, ?_⟩
    exact Inquiry.result_bind_eq_ok_iff.2 ⟨root, read, rfl⟩

/-- What is written for a group that was read is the text it was read from, respelled. It is no
longer than that text and is read as the same group. A value that was read can be written, and is
written as it was read if and only if no run of its expression is a type filter spelled in another
way. -/
theorem text_eq_respelled (reader : Reader) :
    (∀ text group, (reader.readExpression .lenient text).result = .ok group →
      group.text = respelled text ∧ Text.byteLength group.text ≤ Text.byteLength text ∧
        (reader.readExpression .lenient group.text).result = .ok group) ∧
    ∀ value selection, (reader.readValue value).result = .ok selection →
      ∃ text, reader.config.expressionOf value = .ok text ∧
        selection.canonicalText =
          .ok (reader.config.subToken ++ "|" ++ String.ofList (respelled text)) ∧
        (selection.canonicalText = .ok value ↔
          ∀ run ∈ (Runs.ofText text).toList, IsPlain run) := by
  constructor
  · intro text group read
    have text_eq := Reader.text_of_readExpression read
    refine ⟨text_eq, ?_, Reader.readExpression_text read⟩
    rw [text_eq]
    exact byteLength_respelled_le text
  · intro value selection read
    obtain ⟨text, root, found, accepted, rfl⟩ := Reader.result_readValue_eq_ok_iff.1 read
    obtain ⟨lenient, isValid⟩ := Reader.readExpression_strict_eq_ok_iff.1 accepted
    have written : Selection.canonicalText ⟨reader.config.subToken, reader.config.title, root⟩ =
        .ok (reader.config.subToken ++ "|" ++ String.ofList (respelled text)) := by
      rw [Selection.canonicalText, if_pos isValid, Selection.text,
        Reader.text_of_readExpression lenient]
    refine ⟨text, found, written, ?_⟩
    rw [written, Config.eq_of_expressionOf found, ← respelled_eq_self_iff]
    simp [String.ofList_inj]

end ChoiceLang
