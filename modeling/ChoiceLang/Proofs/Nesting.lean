import ChoiceLang.Proofs.Levels
import ChoiceLang.Proofs.Spelling

/-!
# Nesting

The brackets of an expression and the bodies in its tree are nested in the same way. On the side of
the text stand `nesting`, the most brackets that are open at one place, and `interiors`, what lies
between each opening bracket and its partner; on the side of the tree the nesting of a group and the
list of its bodies. `Mirrors` says that they agree. It goes up from items to levels, since no item
holds a bracket other than those around a body.

A derivation does not need more room than its text has nested brackets, whatever room it was found
with: `Reader.Derives.of_nesting_le` moves derivations between depths.
-/

namespace ChoiceLang

open Expression

namespace Expression

/-! ## Brackets in a text -/

/-- The most brackets that are open at one place of a text, with `depth` of them open in front of
it. A closing bracket without a partner closes nothing. -/
def nestingFrom (depth : Nat) : List Char → Nat
  | [] => depth
  | c :: rest =>
    if c = '[' then nestingFrom (depth + 1) rest
    else if c = ']' then max depth (nestingFrom (depth - 1) rest)
    else nestingFrom depth rest

/-- The most brackets that are open at one place of a text. -/
def nesting (text : List Char) : Nat := nestingFrom 0 text

/-- The texts between brackets and their partners, in the order of the opening brackets. -/
def interiors : List Char → List (List Char)
  | [] => []
  | c :: rest =>
    if c = '[' then ((cutClose 0 rest).map Prod.fst).toList ++ interiors rest
    else interiors rest

variable {operator : Operator} {depth opened : Nat} {text a b : List Char} {c : Char}

/-- The brackets that are open in front of a text are counted. -/
lemma le_nestingFrom (depth : Nat) (text : List Char) : depth ≤ nestingFrom depth text := by
  induction text generalizing depth with
  | nil => exact Nat.le_refl depth
  | cons c rest ih =>
    unfold nestingFrom
    split
    · exact Nat.le_of_succ_le (ih (depth + 1))
    · split
      · exact Nat.le_max_left _ _
      · exact ih depth

/-- A character that is no bracket opens and closes nothing. -/
lemma nestingFrom_other (notOpen : c ≠ '[') (notClose : c ≠ ']') :
    nestingFrom depth (c :: text) = nestingFrom depth text := by
  rw [nestingFrom, if_neg notOpen, if_neg notClose]

/-- Behind a text that closes `opened` brackets nesting is counted from the depth that is left. -/
lemma nestingFrom_append (depth : Nat) (h : Encloses [] opened a) :
    nestingFrom (depth + opened) (a ++ b) =
      max (nestingFrom (depth + opened) a) (nestingFrom depth b) := by
  induction a generalizing opened with
  | nil =>
    cases encloses_nil.1 h
    exact (Nat.max_eq_right (le_nestingFrom depth b)).symm
  | cons c a ih =>
    by_cases isOpen : c = '['
    · subst isOpen
      exact ih (encloses_open.1 h)
    by_cases isClose : c = ']'
    · subst isClose
      cases opened with
      | zero => exact absurd h not_encloses_close
      | succ opened =>
        have later := ih (encloses_close.1 h)
        show max _ (nestingFrom (depth + opened) (a ++ b)) =
          max (max _ (nestingFrom (depth + opened) a)) _
        rw [later, Nat.max_assoc]
    · rw [List.cons_append, nestingFrom_other isOpen isClose, nestingFrom_other isOpen isClose]
      exact ih ((encloses_other isOpen isClose).1 h).2

/-- Brackets that are open in front of a text add to its nesting. -/
lemma nestingFrom_add (depth : Nat) (h : Encloses [] opened text) :
    nestingFrom (depth + opened) text = depth + nestingFrom opened text := by
  induction text generalizing opened with
  | nil => rfl
  | cons c rest ih =>
    by_cases isOpen : c = '['
    · subst isOpen
      exact ih (encloses_open.1 h)
    by_cases isClose : c = ']'
    · subst isClose
      cases opened with
      | zero => exact absurd h not_encloses_close
      | succ opened =>
        have later := ih (encloses_close.1 h)
        show max _ (nestingFrom (depth + opened) rest) = depth + max _ (nestingFrom opened rest)
        rw [later]
        omega
    · rw [nestingFrom_other isOpen isClose, nestingFrom_other isOpen isClose]
      exact ih ((encloses_other isOpen isClose).1 h).2

/-- A text behind a balanced one brings its own nesting. -/
lemma nesting_append (h : Balanced a) : nesting (a ++ b) = max (nesting a) (nesting b) :=
  nestingFrom_append 0 h

/-- A text without opening brackets adds nothing to what is nested behind it. -/
lemma nesting_of_not_mem (h : '[' ∉ a) : nesting (a ++ b) = nesting b := by
  induction a with
  | nil => rfl
  | cons c a ih =>
    simp only [List.mem_cons, not_or] at h
    unfold nesting at ih ⊢
    by_cases isClose : c = ']'
    · subst isClose
      exact (Nat.zero_max _).trans (ih h.2)
    · rw [List.cons_append, nestingFrom_other (Ne.symm h.1) isClose, ih h.2]

/-- A text is nested no less deep with more brackets open in front of it. -/
lemma nestingFrom_mono {later : Nat} (h : depth ≤ later) :
    nestingFrom depth text ≤ nestingFrom later text := by
  induction text generalizing depth later with
  | nil => exact h
  | cons c rest ih =>
    unfold nestingFrom
    split
    · exact ih (Nat.succ_le_succ h)
    · split
      · have rest := ih (Nat.sub_le_sub_right h 1)
        omega
      · exact ih h

/-- The end of a text is nested no deeper than the text. -/
lemma nesting_le_of_suffix (h : a <:+ b) : nesting a ≤ nesting b := by
  obtain ⟨start, rfl⟩ := h
  have anyDepth (depth : Nat) : nesting a ≤ nestingFrom depth (start ++ a) := by
    induction start generalizing depth with
    | nil => exact nestingFrom_mono (Nat.zero_le depth)
    | cons c start ih =>
      rw [List.cons_append]
      unfold nestingFrom
      split
      · exact ih (depth + 1)
      · split
        · exact Nat.le_trans (ih (depth - 1)) (Nat.le_max_right _ _)
        · exact ih depth
  exact anyDepth 0

/-- A balanced text is nested once more between brackets. -/
lemma nesting_bracketed {name inner : List Char} (noBracket : '[' ∉ name) (h : Balanced inner) :
    nesting (name ++ '[' :: inner ++ [']']) = nesting inner + 1 := by
  have inside : nestingFrom 1 (inner ++ [']']) = max (nestingFrom 1 inner) 1 :=
    nestingFrom_append 1 h
  rw [List.append_assoc, nesting_of_not_mem noBracket]
  show nestingFrom 1 (inner ++ [']']) = nesting inner + 1
  rw [inside, Nat.max_eq_left (le_nestingFrom 1 inner)]
  exact (nestingFrom_add 1 h).trans (Nat.add_comm 1 _)

/-- Joined texts are nested as deep as any of them. -/
lemma nesting_joinWith_le_iff {pieces : List (List Char)} {limit : Nat}
    (balanced : ∀ piece ∈ pieces, Balanced piece) :
    nesting (Text.joinWith operator.separator pieces) ≤ limit ↔
      ∀ piece ∈ pieces, nesting piece ≤ limit := by
  induction pieces with
  | nil => simp [Text.joinWith, nesting, nestingFrom]
  | cons piece pieces ih =>
    obtain ⟨here, there⟩ := List.forall_mem_cons.1 balanced
    cases pieces with
    | nil => simp [Text.joinWith]
    | cons next pieces =>
      have behind :
          nesting (operator.separator :: Text.joinWith operator.separator (next :: pieces)) =
            nesting (Text.joinWith operator.separator (next :: pieces)) :=
        nestingFrom_other (by simp) (by simp)
      rw [Text.joinWith, nesting_append here, behind, Nat.max_le, ih there,
        List.forall_mem_cons (a := piece)]

/-- A piece of a text is nested no deeper than the text. -/
lemma Splits.nesting_le {pieces : List (List Char)} {piece : List Char}
    (h : Splits operator text pieces) (mem : piece ∈ pieces) : nesting piece ≤ nesting text := by
  rw [← h.joined]
  refine (nesting_joinWith_le_iff fun piece mem => ?_).1 (Nat.le_refl _) piece mem
  exact (h.encloses piece mem).closes

/-! ## What lies between brackets -/

/-- Nothing lies between brackets at another character. -/
lemma interiors_other (notOpen : c ≠ '[') : interiors (c :: text) = interiors text := by
  rw [interiors, if_neg notOpen]

/-- The text between a bracket and its partner comes before those in it and behind it. -/
lemma interiors_open {inner rest : List Char} (h : Balanced inner) :
    interiors ('[' :: (inner ++ ']' :: rest)) = inner :: interiors (inner ++ ']' :: rest) := by
  rw [interiors, if_pos rfl, cutClose_eq_some_iff.2 ⟨rfl, h⟩]
  rfl

/-- What follows a text that closes its brackets has no part in them. -/
lemma interiors_append (h : Encloses [] opened a) :
    interiors (a ++ b) = interiors a ++ interiors b := by
  induction a generalizing opened with
  | nil => rfl
  | cons c a ih =>
    by_cases isOpen : c = '['
    · subst isOpen
      obtain ⟨inner, rest, rfl, balanced⟩ := exists_interior h
      have later := ih (encloses_open.1 h)
      rw [List.append_assoc, List.cons_append] at later
      rw [List.cons_append, List.append_assoc, List.cons_append, interiors_open balanced, later,
        interiors_open balanced, List.cons_append]
    rw [List.cons_append, interiors_other isOpen, interiors_other isOpen]
    by_cases isClose : c = ']'
    · subst isClose
      cases opened with
      | zero => exact absurd h not_encloses_close
      | succ opened => exact ih (encloses_close.1 h)
    · exact ih ((encloses_other isOpen isClose).1 h).2

/-- Every bracket of a text that closes them has an interior. -/
lemma length_interiors (h : Encloses [] opened text) :
    (interiors text).length = text.count '[' := by
  induction text generalizing opened with
  | nil => rfl
  | cons c rest ih =>
    by_cases isOpen : c = '['
    · subst isOpen
      obtain ⟨inner, tail, rfl, balanced⟩ := exists_interior h
      rw [interiors_open balanced, List.length_cons, ih (encloses_open.1 h), List.count_cons_self]
    rw [interiors_other isOpen, List.count_cons_of_ne isOpen]
    by_cases isClose : c = ']'
    · subst isClose
      cases opened with
      | zero => exact absurd h not_encloses_close
      | succ opened => exact ih (encloses_close.1 h)
    · exact ih ((encloses_other isOpen isClose).1 h).2

/-- A text without opening brackets holds nothing between brackets. -/
lemma interiors_of_not_mem (h : '[' ∉ a) : interiors (a ++ b) = interiors b := by
  induction a with
  | nil => rfl
  | cons c a ih =>
    simp only [List.mem_cons, not_or] at h
    rw [List.cons_append, interiors_other (Ne.symm h.1), ih h.2]

/-- A text between brackets comes before the texts between its own brackets. -/
lemma interiors_bracketed {name inner : List Char} (noBracket : '[' ∉ name) (h : Balanced inner) :
    interiors (name ++ '[' :: inner ++ [']']) = inner :: interiors inner := by
  rw [List.append_assoc, List.cons_append, interiors_of_not_mem noBracket, interiors_open h,
    interiors_append h, interiors_other (by decide)]
  exact congrArg _ (List.append_nil _)

/-- Between the brackets of joined texts lies what lies between those of each. -/
lemma interiors_joinWith {pieces : List (List Char)}
    (balanced : ∀ piece ∈ pieces, Balanced piece) :
    interiors (Text.joinWith operator.separator pieces) = (pieces.map interiors).flatten := by
  induction pieces with
  | nil => rfl
  | cons piece pieces ih =>
    obtain ⟨here, there⟩ := List.forall_mem_cons.1 balanced
    cases pieces with
    | nil => exact (List.append_nil _).symm
    | cons next pieces =>
      rw [Text.joinWith, interiors_append here, interiors_other (by simp), ih there]
      rfl

end Expression

/-! ## Bodies in a tree -/

namespace Choice

mutual

/-- The number of bodies that lie in each other in a choice. -/
def nesting : Choice → Nat
  | all => 0
  | reference _ => 0
  | types _ => 0
  | bareQualifier .. => 0
  | qualifier _ _ ⟨_, terms, _⟩ => nestingOf terms + 1
  | group ⟨_, terms, _⟩ => nestingOf terms

/-- The number of bodies that lie in each other in one of several choices. -/
def nestingOf : List Choice → Nat
  | [] => 0
  | choice :: others => max choice.nesting (nestingOf others)

end

mutual

/-- The bodies in a choice, each before those inside it, in written order. -/
def bodies : Choice → List Group
  | all => []
  | reference _ => []
  | types _ => []
  | bareQualifier .. => []
  | qualifier _ _ ⟨operator, terms, flags⟩ => ⟨operator, terms, flags⟩ :: bodiesOf terms
  | group ⟨_, terms, _⟩ => bodiesOf terms

/-- The bodies in several choices, in written order. -/
def bodiesOf : List Choice → List Group
  | [] => []
  | choice :: others => choice.bodies ++ bodiesOf others

end

/-- A list of choices is nested as deep as the deepest of them. -/
lemma nestingOf_le_iff {choices : List Choice} {limit : Nat} :
    nestingOf choices ≤ limit ↔ ∀ choice ∈ choices, choice.nesting ≤ limit := by
  induction choices with
  | nil => simp [nestingOf]
  | cons choice others ih => rw [nestingOf, Nat.max_le, ih, List.forall_mem_cons]

/-- The bodies of a list of choices are those of each, in order. -/
lemma bodiesOf_eq_flatten (choices : List Choice) :
    bodiesOf choices = (choices.map bodies).flatten := by
  induction choices with
  | nil => rfl
  | cons choice others ih => rw [bodiesOf, ih, List.map_cons, List.flatten_cons]

end Choice

/-- The number of bodies that lie in each other in a group. -/
def Grouping.nesting (group : Group) : Nat := Choice.nestingOf group.terms

/-- The bodies in a group, each before those inside it, in written order. -/
def Grouping.bodies (group : Group) : List Group := Choice.bodiesOf group.terms

/-! ## Texts and trees -/

/-- The brackets of a text are nested like the bodies of a tree, of which there is one for each
opening bracket: it is what is read between that bracket and its partner. -/
structure Reader.Mirrors (reader : Reader) (text : List Char) (depth : Nat) (bodies : List Group) :
    Prop where
  nesting : Expression.nesting text = depth
  bodies : List.Forall₂ (fun inner body => ∃ room scope, reader.Derives room scope inner body)
    (interiors text) bodies

section

variable {reader : Reader} {scope : Scope} {derives : Grammar.Bodies} {text : List Char}

/-- A text without opening brackets mirrors what has no body. -/
lemma Reader.mirrors_of_not_mem (h : '[' ∉ text) : reader.Mirrors text 0 [] := by
  have noNesting := nesting_of_not_mem (b := []) h
  have noInterior := interiors_of_not_mem (b := []) h
  rw [List.append_nil] at noNesting noInterior
  refine ⟨noNesting, ?_⟩
  rw [noInterior]
  exact .nil

/-- Pieces that mirror choices are joined to a text that mirrors all of them. -/
lemma Expression.Splits.mirrors {operator : Operator} {pieces : List (List Char)}
    {choices : List Choice} (split : Splits operator text pieces)
    (h : List.Forall₂ (fun piece choice => reader.Mirrors piece choice.nesting choice.bodies)
      pieces choices) :
    reader.Mirrors text (Choice.nestingOf choices) (Choice.bodiesOf choices) := by
  have balanced : ∀ piece ∈ pieces, Balanced piece :=
    fun piece mem => (split.encloses piece mem).closes
  rw [← split.joined]
  constructor
  · have sameNesting : choices.map Choice.nesting = pieces.map Expression.nesting :=
      h.map_eq_map fun _ _ _ mirrors => mirrors.nesting.symm
    have le_iff (limit : Nat) :
        Expression.nesting (Text.joinWith operator.separator pieces) ≤ limit ↔
          Choice.nestingOf choices ≤ limit := by
      rw [nesting_joinWith_le_iff balanced, Choice.nestingOf_le_iff]
      refine Iff.trans ?_ (List.forall_mem_map (P := (· ≤ limit)))
      rw [sameNesting, List.forall_mem_map]
    exact Nat.le_antisymm ((le_iff _).2 (Nat.le_refl _)) ((le_iff _).1 (Nat.le_refl _))
  · rw [interiors_joinWith balanced, Choice.bodiesOf_eq_flatten]
    apply List.rel_flatten
    rw [List.forall₂_map_left_iff, List.forall₂_map_right_iff]
    exact h.imp fun _ _ mirrors => mirrors.bodies

variable (h : ∀ scope text body, derives scope text body →
  reader.Mirrors text body.nesting body.bodies ∧ ∃ room scope, reader.Derives room scope text body)

include h

/-- The only brackets of an item are those around a body. -/
lemma mirrors_of_item {item : List Char} {choice : Choice} (isItem : IsItem item)
    (derived : Grammar.Item reader derives scope item choice) :
    reader.Mirrors item choice.nesting choice.bodies := by
  cases derived with
  | all => exact Reader.mirrors_of_not_mem (by decide)
  | types isStart someName areNames =>
    apply Reader.mirrors_of_not_mem
    exact not_mem_filter isStart (by decide) fun name mem => (areNames name mem).2.2.1
  | @qualifier negated qualifier inner body permitted someText balanced derived =>
    obtain ⟨mirrors, read⟩ := h _ _ _ derived
    have noBracket := QualifierTable.mark_not_mem_name permitted.registered negated '[' (by decide)
    constructor
    · rw [nesting_bracketed noBracket balanced, mirrors.nesting]
      rfl
    · rw [interiors_bracketed noBracket balanced]
      exact .cons read mirrors.bodies
  | bareQualifier permitted optional =>
    apply Reader.mirrors_of_not_mem
    exact QualifierTable.mark_not_mem_name permitted.registered _ '[' (by decide)
  | reference _ _ noBracket => exact Reader.mirrors_of_not_mem noBracket

/-- A segment mirrors its term. -/
lemma mirrors_of_segment {segment : List Char} {term : Choice} (outer : Encloses [.or] 0 segment)
    (derived : Grammar.Segment reader derives scope segment term) :
    reader.Mirrors segment term.nesting term.bodies := by
  cases derived with
  | @item item _ split derived =>
    obtain rfl : item = segment := split.joined
    exact mirrors_of_item h (.of_splits outer split (List.mem_singleton_self _)) derived
  | @group items choices split several derived =>
    apply split.mirrors
    have areItems : ∀ item ∈ items, IsItem item := fun item mem => .of_splits outer split mem
    have both := (List.forall₂_and_left items choices).2 ⟨areItems, derived⟩
    exact both.imp fun item choice derived => mirrors_of_item h derived.1 derived.2

/-- A level mirrors its group. -/
lemma mirrors_of_level {text : List Char} {group : Group}
    (derived : Grammar.Level reader derives scope text group) :
    reader.Mirrors text group.nesting group.bodies := by
  cases derived with
  | @segments segments terms split derived =>
    apply split.mirrors
    have both := (List.forall₂_and_left segments terms).2 ⟨split.encloses, derived⟩
    exact both.imp fun segment term derived => mirrors_of_segment h derived.1 derived.2

end

/-- By induction on the room, a text mirrors each group it derives. -/
lemma Reader.Derives.mirrors {reader : Reader} {room : Nat} {scope : Scope} {text : List Char}
    {group : Group} (h : reader.Derives room scope text group) :
    reader.Mirrors text group.nesting group.bodies := by
  -- the bodies of a level are derived with less room than the level
  induction room generalizing scope text group with
  | zero => exact mirrors_of_level (fun _ _ _ => False.elim) h
  | succ room ih =>
    have level : Grammar.Level reader (reader.Derives room) scope text group := h
    refine mirrors_of_level ?_ level
    intro scope text body derived
    exact ⟨ih derived, room, scope, derived⟩

/-! ## Room for bodies -/

section

variable {reader : Reader} {scope : Scope} {derives : Grammar.Bodies} {limit : Nat}
variable (h : ∀ scope text body, derives scope text body → body.nesting < limit)

include h

/-- An item is nested no deeper than the limit if bodies are nested less deep. -/
lemma nesting_le_of_item {item : List Char} {choice : Choice}
    (derived : Grammar.Item reader derives scope item choice) : choice.nesting ≤ limit := by
  cases derived with
  | qualifier _ _ _ derived => exact h _ _ _ derived
  | all => exact Nat.zero_le limit
  | types => exact Nat.zero_le limit
  | bareQualifier => exact Nat.zero_le limit
  | reference => exact Nat.zero_le limit

/-- A segment is nested no deeper than the limit, as its items are not. -/
lemma nesting_le_of_segment {segment : List Char} {term : Choice}
    (derived : Grammar.Segment reader derives scope segment term) : term.nesting ≤ limit := by
  cases derived with
  | item _ derived => exact nesting_le_of_item h derived
  | group _ _ derived =>
    apply Choice.nestingOf_le_iff.2
    exact derived.forall_mem_right fun _ _ _ itemDerived => nesting_le_of_item h itemDerived

/-- A level is nested no deeper than the limit, as its segments are not. -/
lemma nesting_le_of_level {text : List Char} {group : Group}
    (derived : Grammar.Level reader derives scope text group) : group.nesting ≤ limit := by
  cases derived with
  | segments _ derived =>
    apply Choice.nestingOf_le_iff.2
    exact derived.forall_mem_right fun _ _ _ segmentDerived =>
      nesting_le_of_segment h segmentDerived

end

/-- As many bodies lie in each other as there is room for, at most. -/
lemma Reader.Derives.nesting_le {reader : Reader} {room : Nat} {scope : Scope} {text : List Char}
    {group : Group} (h : reader.Derives room scope text group) : group.nesting ≤ room := by
  induction room generalizing scope text group with
  | zero => exact nesting_le_of_level (fun _ _ _ => False.elim) h
  | succ room ih =>
    have level : Grammar.Level reader (reader.Derives room) scope text group := h
    refine nesting_le_of_level ?_ level
    intro scope text body derived
    exact Nat.lt_succ_of_le (ih derived)

section

variable {reader : Reader} {bodies others : Grammar.Bodies} {scope : Scope} {text : List Char}

/-- The bodies in a text are nested less than the text. -/
lemma Grammar.Item.carry {choice : Choice} (derived : Grammar.Item reader bodies scope text choice)
    (h : ∀ scope inner body, Expression.nesting inner < Expression.nesting text →
      bodies scope inner body → others scope inner body) :
    Grammar.Item reader others scope text choice := by
  cases derived with
  | all => exact .all
  | types isStart someName areNames => exact .types isStart someName areNames
  | @qualifier negated qualifier inner body permitted someText balanced derived =>
    have noBracket := QualifierTable.mark_not_mem_name permitted.registered negated '[' (by decide)
    rw [nesting_bracketed noBracket balanced] at h
    exact .qualifier permitted someText balanced (h _ _ _ (Nat.lt_succ_self _) derived)
  | bareQualifier permitted optional => exact .bareQualifier permitted optional
  | reference notAll notFilter noBracket unmarked notBare accepted =>
    exact .reference notAll notFilter noBracket unmarked notBare accepted

/-- A segment is carried over if the bodies nested less deep than it are. -/
lemma Grammar.Segment.carry {term : Choice}
    (derived : Grammar.Segment reader bodies scope text term)
    (h : ∀ scope inner body, Expression.nesting inner < Expression.nesting text →
      bodies scope inner body → others scope inner body) :
    Grammar.Segment reader others scope text term := by
  cases derived with
  | @item item _ split derived =>
    refine .item split (derived.carry ?_)
    intro scope inner body less
    exact h scope inner body (Nat.lt_of_lt_of_le less (split.nesting_le (by simp)))
  | @group items choices split several derived =>
    refine .group split several ?_
    have both := (List.forall₂_and_left items choices).2
      ⟨fun _ mem => split.nesting_le mem, derived⟩
    refine both.imp fun item choice derived => derived.2.carry ?_
    intro scope inner body less
    exact h scope inner body (Nat.lt_of_lt_of_le less derived.1)

/-- A level is carried over if the bodies nested less deep than it are. -/
lemma Grammar.Level.carry {group : Group} (derived : Grammar.Level reader bodies scope text group)
    (h : ∀ scope inner body, Expression.nesting inner < Expression.nesting text →
      bodies scope inner body → others scope inner body) :
    Grammar.Level reader others scope text group := by
  cases derived with
  | @segments segments terms split derived =>
    refine .segments split ?_
    have both := (List.forall₂_and_left segments terms).2
      ⟨fun _ mem => split.nesting_le mem, derived⟩
    refine both.imp fun segment term derived => derived.2.carry ?_
    intro scope inner body less
    exact h scope inner body (Nat.lt_of_lt_of_le less derived.1)

/-- A level needs no more room than its text has nested brackets. -/
lemma Reader.derives_of_level {group : Group} {room : Nat}
    (level : Grammar.Level reader bodies scope text group)
    (shallow : Expression.nesting text ≤ room)
    (h : ∀ room scope inner body, Expression.nesting inner ≤ room → bodies scope inner body →
      reader.Derives room scope inner body) :
    reader.Derives room scope text group := by
  cases room with
  | zero =>
    apply level.carry
    intro _ inner _ less
    exact absurd (Nat.lt_of_lt_of_le less shallow) (Nat.not_lt_zero _)
  | succ room =>
    show Grammar.Level reader (reader.Derives room) scope text group
    apply level.carry
    intro scope inner body less
    exact h room scope inner body (Nat.le_of_lt_succ (Nat.lt_of_lt_of_le less shallow))

end

/-- What is derived is derived with any room that suffices for the brackets of the text. -/
lemma Reader.Derives.of_nesting_le {reader : Reader} {room other : Nat} {scope : Scope}
    {text : List Char} {group : Group} (h : reader.Derives room scope text group)
    (shallow : Expression.nesting text ≤ other) : reader.Derives other scope text group := by
  induction room generalizing other scope text group with
  | zero => exact Reader.derives_of_level h shallow fun _ _ _ _ _ => False.elim
  | succ room ih =>
    have level : Grammar.Level reader (reader.Derives room) scope text group := h
    refine Reader.derives_of_level level shallow ?_
    intro other scope inner body shallow derived
    exact ih derived shallow

/-! ## Reading -/

/-- In both modes a reader accepts what the grammar derives, a strict one only if it is valid. -/
lemma Reader.readExpression_eq_ok_iff {reader : Reader} {mode : Mode} {text : List Char}
    {group : Group} :
    (reader.readExpression mode text).result = .ok group ↔
      reader.Derives nestingLimit reader.config.scope text group ∧
        (mode = .strict → group.flags.isValid = true) := by
  have lenient_iff := result_readWithin_eq_ok_iff reader nestingLimit reader.config.scope text group
  cases mode with
  | strict =>
    rw [readExpression_strict_eq_ok_iff]
    exact and_congr lenient_iff (by simp)
  | lenient => exact lenient_iff.trans (by simp)

/-- What a reader accepts as a group mirrors it, and is nested no deeper than the limit. -/
lemma Reader.mirrors_of_readExpression {reader : Reader} {mode : Mode} {text : List Char}
    {group : Group} (h : (reader.readExpression mode text).result = .ok group) :
    reader.Mirrors text group.nesting group.bodies ∧ group.nesting ≤ nestingLimit ∧
      group.bodies.length = text.count '[' := by
  obtain ⟨derived, -⟩ := readExpression_eq_ok_iff.1 h
  obtain ⟨segments, split⟩ := derived.splits
  have mirrors := derived.mirrors
  refine ⟨mirrors, derived.nesting_le, ?_⟩
  rw [← mirrors.bodies.length_eq, length_interiors split.balanced]

/-- A text that is nested too deep is not read, in either mode. -/
lemma Reader.readExpression_ne_ok {reader : Reader} {mode : Mode} {text : List Char} {group : Group}
    (deep : nestingLimit < Expression.nesting text) :
    (reader.readExpression mode text).result ≠ .ok group := by
  intro accepted
  obtain ⟨mirrors, bounded, -⟩ := mirrors_of_readExpression accepted
  rw [← mirrors.nesting] at bounded
  exact absurd deep (Nat.not_lt.2 bounded)

/-- The brackets of an expression are mirrored by the bodies in the group it is read as. Their
nesting is that of the bodies and at most the limit, and each opening bracket belongs to one body,
in the order of the text, which is what is derived for the text up to its partner. So a text whose
brackets are nested deeper is rejected in both modes, and as an expression of a value whatever
stands in front of it. -/
theorem brackets_mirror_bodies (reader : Reader) :
    (∀ mode text group, (reader.readExpression mode text).result = .ok group →
      reader.Mirrors text group.nesting group.bodies ∧ group.nesting ≤ nestingLimit ∧
        group.bodies.length = text.count '[') ∧
    (∀ value selection, (reader.readValue value).result = .ok selection →
      ∃ text, reader.config.expressionOf value = .ok text ∧
        reader.Mirrors text selection.root.nesting selection.root.bodies ∧
        selection.root.nesting ≤ nestingLimit ∧
        selection.root.bodies.length = text.count '[') ∧
    (∀ text, nestingLimit < Expression.nesting text →
      (∀ mode, ∃ rejection, (reader.readExpression mode text).result = .error rejection) ∧
      (∀ start : String, ∃ rejection,
        (reader.readValue (start ++ "|" ++ String.ofList text)).result = .error rejection)) ∧
    (∀ value : String, '[' ∉ reader.config.subToken.toList →
      nestingLimit < Expression.nesting value.toList →
      ∃ rejection, (reader.readValue value).result = .error rejection) := by
  refine ⟨fun mode text group => Reader.mirrors_of_readExpression, ?_, ?_, ?_⟩
  · intro value selection read
    obtain ⟨text, root, found, accepted, rfl⟩ := Reader.result_readValue_eq_ok_iff.1 read
    exact ⟨text, found, Reader.mirrors_of_readExpression accepted⟩
  · intro text deep
    constructor
    · intro mode
      exact Except.exists_error_of_ne_ok fun _ => Reader.readExpression_ne_ok deep
    · intro start
      apply Except.exists_error_of_ne_ok
      intro selection read
      obtain ⟨later, root, found, accepted, -⟩ := Reader.result_readValue_eq_ok_iff.1 read
      obtain ⟨same, noSeparator, -⟩ := Config.expressionOf_eq_ok_iff.1 found
      have sameText : start.toList ++ '|' :: text =
          reader.config.subToken.toList ++ '|' :: later := by
        have sameText := congrArg String.toList same
        simpa using sameText
      have suffix := Text.suffix_of_append_eq noSeparator sameText.symm
      refine Reader.readExpression_ne_ok ?_ accepted
      exact Nat.lt_of_lt_of_le deep (nesting_le_of_suffix suffix)
  · intro value noBracket deep
    apply Except.exists_error_of_ne_ok
    intro selection read
    obtain ⟨text, root, found, accepted, -⟩ := Reader.result_readValue_eq_ok_iff.1 read
    obtain ⟨rfl, -, -⟩ := Config.expressionOf_eq_ok_iff.1 found
    refine Reader.readExpression_ne_ok ?_ accepted
    rw [String.toList_append, String.toList_append, List.append_assoc,
      nesting_of_not_mem noBracket, nesting_of_not_mem (by decide), String.toList_ofList] at deep
    exact deep

end ChoiceLang
