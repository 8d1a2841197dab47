import ChoiceLang.Proofs.Bodies
import Mathlib.Data.List.Perm.Basic

/-!
# Alternatives

A text with a separator between its alternatives is read alternative by alternative. Splitting
distributes over texts that are joined outside of brackets, so that the terms of the whole are those
of the alternatives one after the other. Its flags follow from theirs, and do not depend on the
order in which they are written.
-/

namespace ChoiceLang

open Expression

namespace Text

/-- Two lists are joined with one more mark between them. -/
lemma joinWith_append {mark : Char} {first second : List (List Char)} (some_first : first ≠ [])
    (some_second : second ≠ []) :
    joinWith mark (first ++ second) = joinWith mark first ++ mark :: joinWith mark second := by
  obtain ⟨p, ps, rfl⟩ := List.exists_cons_of_ne_nil some_first
  obtain ⟨q, qs, rfl⟩ := List.exists_cons_of_ne_nil some_second
  rw [List.cons_append, joinWith_cons, joinWith_cons, joinWith_cons, List.flatMap_append,
    List.flatMap_cons]
  simp

end Text

namespace Expression

variable {operator : Operator} {a b : List Char} {pieces : List (List Char)}

/-! ## Splitting what is joined -/

/-- Behind a balanced text a separator stands on the outside. -/
lemma encloses_separator (balanced : Balanced a) :
    ¬ Encloses [operator] 0 (a ++ operator.separator :: b) := by
  rw [encloses_append balanced, encloses_other (by simp) (by simp)]
  rintro ⟨-, outside, -⟩
  exact outside rfl operator (List.mem_singleton_self _) rfl

/-- A separator in front of a text closes no bracket of it. -/
lemma balanced_separator : Balanced (operator.separator :: b) ↔ Balanced b := by
  refine (encloses_other operator.separator_ne_open operator.separator_ne_close).trans ?_
  exact and_iff_right fun _ _ mem => absurd mem List.not_mem_nil

/-- No piece reaches over a separator behind a balanced text. -/
lemma exists_pieces_append (encloses : ∀ piece ∈ pieces, Encloses [operator] 0 piece)
    (balanced : Balanced a)
    (joined : Text.joinWith operator.separator pieces = a ++ operator.separator :: b) :
    ∃ first second, pieces = first ++ second ∧ first ≠ [] ∧ second ≠ [] ∧
      Text.joinWith operator.separator first = a ∧
      Text.joinWith operator.separator second = b := by
  induction pieces generalizing a with
  | nil => exact absurd joined (by simp [Text.joinWith])
  | cons piece pieces ih =>
    obtain ⟨here, there⟩ := List.forall_mem_cons.1 encloses
    cases pieces with
    | nil =>
      rw [Text.joinWith] at joined
      rw [joined] at here
      exact absurd here (encloses_separator balanced)
    | cons next pieces =>
      rw [Text.joinWith] at joined
      obtain ⟨rest, rfl, behind⟩ | ⟨rest, rfl, behind⟩ := List.append_eq_append_iff.1 joined
      · cases rest with
        | nil =>
          obtain ⟨-, rfl⟩ := List.cons.inj behind
          exact ⟨[piece], next :: pieces, rfl, by simp, by simp, by simp [Text.joinWith], rfl⟩
        | cons c rest =>
          obtain ⟨rfl, later⟩ := List.cons.inj behind
          have balancedRest := balanced_separator.1 ((encloses_append here.closes).1 balanced).2
          obtain ⟨first, second, pieces_eq, some_first, some_second, rfl, rfl⟩ :=
            ih there balancedRest later
          obtain ⟨p, ps, rfl⟩ := List.exists_cons_of_ne_nil some_first
          exact ⟨piece :: p :: ps, second, by rw [pieces_eq]; rfl, by simp, some_second, rfl, rfl⟩
      · cases rest with
        | nil =>
          obtain ⟨-, rfl⟩ := List.cons.inj behind
          exact ⟨[a], next :: pieces, by simp, by simp, by simp, by simp [Text.joinWith], rfl⟩
        | cons c rest =>
          obtain ⟨rfl, -⟩ := List.cons.inj behind
          exact absurd here (encloses_separator balanced)

/-- A text is split on both sides of a separator behind a balanced text. -/
lemma splits_append_iff (balanced : Balanced a) :
    Splits operator (a ++ operator.separator :: b) pieces ↔
      ∃ first second, pieces = first ++ second ∧ Splits operator a first ∧
        Splits operator b second := by
  constructor
  · intro split
    obtain ⟨first, second, rfl, some_first, some_second, rfl, rfl⟩ :=
      exists_pieces_append split.encloses balanced split.joined
    obtain ⟨text_first, text_second⟩ := List.forall_mem_append.1 split.some_text
    obtain ⟨encloses_first, encloses_second⟩ := List.forall_mem_append.1 split.encloses
    exact ⟨first, second, rfl, splits_joinWith some_first text_first encloses_first,
      splits_joinWith some_second text_second encloses_second⟩
  · rintro ⟨first, second, rfl, ofFirst, ofSecond⟩
    rw [← ofFirst.joined, ← ofSecond.joined,
      ← Text.joinWith_append ofFirst.some_piece ofSecond.some_piece]
    apply splits_joinWith (List.append_ne_nil_of_left_ne_nil ofFirst.some_piece _)
    · exact List.forall_mem_append.2 ⟨ofFirst.some_text, ofSecond.some_text⟩
    · exact List.forall_mem_append.2 ⟨ofFirst.encloses, ofSecond.encloses⟩

/-- A text is split in one way only. -/
lemma Splits.unique {others : List (List Char)} (h : Splits operator a pieces)
    (other : Splits operator a others) : pieces = others :=
  Except.ok.inj ((split_eq_ok_iff.2 h).symm.trans (split_eq_ok_iff.2 other))

/-- Joined texts are split one by one. -/
lemma splits_joinWith_iff {texts : List (List Char)} (some_text : texts ≠ [])
    (balanced : ∀ text ∈ texts, Balanced text) :
    Splits operator (Text.joinWith operator.separator texts) pieces ↔
      ∃ parts, List.Forall₂ (Splits operator) texts parts ∧ pieces = parts.flatten := by
  induction texts generalizing pieces with
  | nil => exact absurd rfl some_text
  | cons text texts ih =>
    obtain ⟨here, there⟩ := List.forall_mem_cons.1 balanced
    cases texts with
    | nil =>
      constructor
      · intro split
        exact ⟨[pieces], .cons split .nil, by simp⟩
      · rintro ⟨parts, ofTexts, rfl⟩
        obtain ⟨part, _, split, none, rfl⟩ := List.forall₂_cons_left_iff.1 ofTexts
        cases none
        simpa [Text.joinWith] using split
    | cons next texts =>
      rw [Text.joinWith, splits_append_iff here]
      constructor
      · rintro ⟨first, second, rfl, ofText, ofTexts⟩
        obtain ⟨parts, split, rfl⟩ := (ih (by simp) there).1 ofTexts
        exact ⟨first :: parts, .cons ofText split, by simp⟩
      · rintro ⟨parts, ofTexts, rfl⟩
        obtain ⟨part, parts, split, later, rfl⟩ := List.forall₂_cons_left_iff.1 ofTexts
        exact ⟨part, parts.flatten, by simp, split, (ih (by simp) there).2 ⟨parts, later, rfl⟩⟩

/-- In front of a balanced text all brackets of a balanced one are closed. -/
lemma balanced_of_append (whole : Balanced (a ++ b)) (balanced : Balanced b) : Balanced a where
  never_below before h := whole.never_below before (h.trans (List.prefix_append a b))
  all_closed := by
    have closed := whole.all_closed
    have closedBehind := balanced.all_closed
    rw [List.count_append, List.count_append] at closed
    omega
  inside _ mem := absurd mem List.not_mem_nil

end Expression

/-! ## Flags -/

/-- Two groups of alternatives as one. -/
def Grouping.either (first second : Group) : Group where
  operator := .or
  terms := first.terms ++ second.terms
  flags :=
    { allowsAll := false
      allowsType := first.flags.allowsType && second.flags.allowsType
      allowsList := first.flags.allowsList && second.flags.allowsList
      isValid := first.flags.isValid && second.flags.isValid &&
        (first.flags.allowsList && second.flags.allowsList) }

namespace Permissions

variable {permitted : Permissions} {first second terms others : List Choice}

/-- No filter is forbidden if filters are permitted or there is none. -/
lemma isNone_forbiddenFilter? :
    (permitted.forbiddenFilter? terms).isNone =
      (permitted.typeLegal || terms.all fun term => term.filter?.isNone) := by
  unfold forbiddenFilter?
  cases permitted.typeLegal with
  | true => rfl
  | false =>
    rw [if_neg Bool.false_ne_true, Bool.false_or, Bool.eq_iff_iff]
    simp

/-- Filters are allowed in two lists of terms if they are in each. -/
lemma allowsType_append :
    (permitted.flags (first ++ second)).allowsType =
      ((permitted.flags first).allowsType && (permitted.flags second).allowsType) := by
  simp only [flags, isNone_forbiddenFilter?, List.all_append, Bool.or_and_distrib_left]
  ac_rfl

/-- Two lists of terms may be listed together if each may be. -/
lemma allowsList_append :
    (permitted.flags (first ++ second)).allowsList =
      ((permitted.flags first).allowsList && (permitted.flags second).allowsList) := by
  simp only [flags, List.any_append, Bool.not_or]

/-- The flags of alternatives follow from those of both sides. -/
lemma group_append (some_first : first ≠ []) (some_second : second ≠ []) :
    permitted.group .or (first ++ second) =
      (permitted.group .or first).either (permitted.group .or second) := by
  have several : first ++ second ≠ [.all] := by
    intro sole
    have length_eq := congrArg List.length sole
    rw [List.length_append, List.length_singleton] at length_eq
    have := List.length_pos_of_ne_nil some_first
    have := List.length_pos_of_ne_nil some_second
    omega
  have allowsAll : (permitted.flags (first ++ second)).allowsAll = false := by
    simp only [flags, several, decide_false, Bool.false_and]
  -- where both sides hold no `ALL`, neither of them owes its validity to being nothing else
  have absorb (v₁ v₂ t₁ t₂ l₁ l₂ s₁ s₂ : Bool) :
      (v₁ && v₂ && (t₁ && t₂) && (l₁ && l₂ || false)) =
        (v₁ && t₁ && (l₁ || s₁) && (v₂ && t₂ && (l₂ || s₂)) && (l₁ && l₂)) := by
    cases l₁ <;> cases l₂ <;> simp
    ac_rfl
  have isValid : (permitted.flags (first ++ second)).isValid =
      ((permitted.flags first).isValid && (permitted.flags second).isValid &&
        ((permitted.flags first).allowsList && (permitted.flags second).allowsList)) := by
    show ((first ++ second).all Choice.innerValid &&
      (permitted.flags (first ++ second)).allowsType &&
        ((permitted.flags (first ++ second)).allowsList ||
          (permitted.flags (first ++ second)).allowsAll)) = _
    rw [List.all_append, allowsType_append, allowsList_append, allowsAll]
    exact absorb ..
  apply congrArg (Grouping.mk .or (first ++ second))
  exact (Flags.mk.injEq ..).mpr ⟨allowsAll, allowsType_append, allowsList_append, isValid⟩

/-- A valid group holds no `ALL`, unless it is nothing else. -/
lemma allowsList_iff_of_isValid (valid : (permitted.flags terms).isValid = true) :
    (permitted.flags terms).allowsList = true ↔ terms ≠ [.all] := by
  constructor
  · rintro list rfl
    cases list
  · intro others
    have valid : (_ && _ && ((permitted.flags terms).allowsList ||
        (decide (terms = [.all]) && permitted.allLegal))) = true := valid
    rw [decide_eq_false others, Bool.false_and, Bool.or_false] at valid
    exact (Bool.and_eq_true_iff.1 valid).2

/-- The flags do not depend on the order of the terms. -/
lemma flags_perm (perm : terms.Perm others) : permitted.flags terms = permitted.flags others := by
  have sole : terms = [.all] ↔ others = [.all] := by
    constructor
    · rintro rfl
      exact (List.singleton_perm.1 perm).symm
    · rintro rfl
      exact List.perm_singleton.1 perm
  simp only [flags, isNone_forbiddenFilter?, sole, perm.all_eq, perm.any_eq]

end Permissions

/-! ## Reading -/

namespace Reader

variable {reader : Reader} {bodies : Grammar.Bodies} {scope : Scope} {first second : List Char}
variable {group : Group}

/-- A text that is split has one term at least. -/
lemma terms_ne_nil {text : List Char} {segments : List (List Char)} {terms : List Choice}
    {R : List Char → Choice → Prop} (split : Splits .or text segments)
    (derived : List.Forall₂ R segments terms) : terms ≠ [] := by
  rintro rfl
  exact split.some_piece (List.forall₂_nil_right_iff.1 derived)

/-- Alternatives are a level if both sides are. -/
lemma level_append_iff (balanced : Balanced first) :
    Grammar.Level reader bodies scope (first ++ '|' :: second) group ↔
      ∃ a b, Grammar.Level reader bodies scope first a ∧
        Grammar.Level reader bodies scope second b ∧ group = a.either b := by
  constructor
  · intro level
    cases level with
    | segments split derived =>
      obtain ⟨left, right, rfl, ofFirst, ofSecond⟩ := (splits_append_iff balanced).1 split
      obtain ⟨terms, others, rfl, derivedFirst, derivedSecond⟩ := derived.exists_append
      refine ⟨_, _, .segments ofFirst derivedFirst, .segments ofSecond derivedSecond, ?_⟩
      exact Permissions.group_append (terms_ne_nil ofFirst derivedFirst)
        (terms_ne_nil ofSecond derivedSecond)
  · rintro ⟨a, b, levelFirst, levelSecond, rfl⟩
    cases levelFirst with
    | segments ofFirst derivedFirst =>
      cases levelSecond with
      | segments ofSecond derivedSecond =>
        rw [← Permissions.group_append (terms_ne_nil ofFirst derivedFirst)
          (terms_ne_nil ofSecond derivedSecond)]
        apply Grammar.Level.segments
        · exact (splits_append_iff balanced).2 ⟨_, _, rfl, ofFirst, ofSecond⟩
        · exact List.rel_append derivedFirst derivedSecond

/-- Segments in another order are a level with the same flags. -/
lemma exists_level_of_perm {text other : List Char} {segments others : List (List Char)}
    (level : Grammar.Level reader bodies scope text group) (split : Splits .or text segments)
    (otherSplit : Splits .or other others) (perm : segments.Perm others) :
    ∃ reordered, Grammar.Level reader bodies scope other reordered ∧
      reordered.flags = group.flags := by
  cases level with
  | @segments found terms foundSplit derived =>
    obtain rfl := foundSplit.unique split
    obtain ⟨reordered, derivedOther, permTerms⟩ := List.perm_comp_forall₂ perm.symm derived
    exact ⟨_, .segments otherSplit derivedOther, Permissions.flags_perm permTerms⟩

/-- Texts in another order are accepted as alternatives too, with the same flags. -/
lemma exists_readExpression_of_perm {mode : Mode} {flags : Flags} {texts others : List (List Char)}
    (perm : texts.Perm others) (balanced : ∀ text ∈ texts, Balanced text)
    (h : ∃ group, (reader.readExpression mode (Text.joinWith '|' texts)).result = .ok group ∧
      group.flags = flags) :
    ∃ group, (reader.readExpression mode (Text.joinWith '|' others)).result = .ok group ∧
      group.flags = flags := by
  obtain ⟨group, read, rfl⟩ := h
  obtain ⟨derived, valid⟩ := readExpression_eq_ok_iff.1 read
  obtain ⟨segments, split⟩ := derived.splits
  have some_text : texts ≠ [] := by
    rintro rfl
    exact split.text_ne_nil rfl
  have some_other : others ≠ [] := fun none => some_text (List.perm_nil.1 (none ▸ perm))
  have balancedOthers : ∀ text ∈ others, Balanced text :=
    fun text mem => balanced text (perm.mem_iff.2 mem)
  obtain ⟨parts, ofTexts, rfl⟩ := (splits_joinWith_iff some_text balanced).1 split
  obtain ⟨otherParts, ofOthers, permParts⟩ := List.perm_comp_forall₂ perm.symm ofTexts
  have otherSplit : Splits .or (Text.joinWith '|' others) otherParts.flatten :=
    (splits_joinWith_iff some_other balancedOthers).2 ⟨otherParts, ofOthers, rfl⟩
  obtain ⟨bodies, derives_iff⟩ := exists_level reader nestingLimit
  obtain ⟨reordered, level, sameFlags⟩ :=
    exists_level_of_perm ((derives_iff _ _ _).1 derived) split otherSplit permParts.flatten.symm
  refine ⟨reordered, readExpression_eq_ok_iff.2 ⟨(derives_iff _ _ _).2 level, ?_⟩, sameFlags⟩
  rw [sameFlags]
  exact valid

/-- Two texts that are joined are accepted in both orders if in one, with the same flags. -/
lemma readExpression_swap_iff {mode : Mode} {flags : Flags} (balanced : Balanced first) :
    (∃ group, (reader.readExpression mode (first ++ '|' :: second)).result = .ok group ∧
        group.flags = flags) ↔
      ∃ group, (reader.readExpression mode (second ++ '|' :: first)).result = .ok group ∧
        group.flags = flags := by
  -- whichever order is accepted, the second text is balanced too
  constructor
  · rintro ⟨group, read, sameFlags⟩
    obtain ⟨segments, split⟩ := (readExpression_eq_ok_iff.1 read).1.splits
    have behind : Balanced (Operator.or.separator :: second) :=
      ((encloses_append balanced).1 split.balanced).2
    have both : ∀ text ∈ [first, second], Balanced text :=
      List.forall_mem_cons.2 ⟨balanced, List.forall_mem_singleton.2 (balanced_separator.1 behind)⟩
    exact exists_readExpression_of_perm (.swap second first []) both ⟨group, read, sameFlags⟩
  · rintro ⟨group, read, sameFlags⟩
    obtain ⟨segments, split⟩ := (readExpression_eq_ok_iff.1 read).1.splits
    have behind : Balanced (Operator.or.separator :: first) := balanced_separator.2 balanced
    have balancedSecond : Balanced second := balanced_of_append split.balanced behind
    have both : ∀ text ∈ [second, first], Balanced text :=
      List.forall_mem_cons.2 ⟨balancedSecond, List.forall_mem_singleton.2 balanced⟩
    exact exists_readExpression_of_perm (.swap first second []) both ⟨group, read, sameFlags⟩

/-- A text derives one group at most. -/
lemma Derives.unique {room : Nat} {text : List Char} {other : Group}
    (h : reader.Derives room scope text group) (h' : reader.Derives room scope text other) :
    group = other := by
  have read := (result_readWithin_eq_ok_iff ..).2 h
  rw [(result_readWithin_eq_ok_iff ..).2 h'] at read
  exact (Except.ok.inj read).symm

/-- Only `ALL` by itself is read as nothing but `ALL`. -/
lemma terms_eq_all_iff {room : Nat} {text : List Char} (h : reader.Derives room scope text group) :
    group.terms = [.all] ↔ text = wildcard := by
  obtain ⟨bodies, derives_iff⟩ := exists_level reader room
  constructor
  · intro sole
    have level := (derives_iff _ _ _).1 h
    cases level with
    | @segments segments terms split derived =>
      obtain rfl : terms = [.all] := sole
      exact eq_wildcard_of_segments split derived
  · rintro rfl
    have isItem : IsItem wildcard := .of_not_mem (by decide) (forall_marks.2 (by decide))
    have segment : Grammar.Segment reader bodies scope wildcard .all :=
      .item (isItem.splits .and) .all
    have level : Grammar.Level reader bodies scope wildcard (scope.permitted.group .or [.all]) :=
      .segments (isItem.splits .or) (.cons segment .nil)
    rw [h.unique ((derives_iff _ _ _).2 level)]
    rfl

/-- A valid group may be listed with others unless its text is the wildcard. -/
lemma allowsList_iff_of_derives {room : Nat} {text : List Char}
    (h : reader.Derives room scope text group) (valid : group.flags.isValid = true) :
    group.flags.allowsList = true ↔ text ≠ wildcard := by
  rw [Ne, ← terms_eq_all_iff h]
  rw [h.eq_group] at valid ⊢
  exact Permissions.allowsList_iff_of_isValid valid

/-- Two texts with a bar between them derive the terms of both. -/
lemma derives_append_iff {room : Nat} (balanced : Balanced first) :
    reader.Derives room scope (first ++ '|' :: second) group ↔
      ∃ a b, reader.Derives room scope first a ∧ reader.Derives room scope second b ∧
        group = a.either b := by
  obtain ⟨bodies, derives_iff⟩ := exists_level reader room
  simp only [derives_iff]
  exact level_append_iff balanced

/-- A strict reader accepts alternatives if it accepts both sides, and neither is only `ALL`. -/
lemma readExpression_strict_append_iff (balanced : Balanced first) :
    (∃ group, (reader.readExpression .strict (first ++ '|' :: second)).result = .ok group) ↔
      (∃ a, (reader.readExpression .strict first).result = .ok a) ∧
      (∃ b, (reader.readExpression .strict second).result = .ok b) ∧
      first ≠ wildcard ∧ second ≠ wildcard := by
  constructor
  · rintro ⟨group, accepted⟩
    obtain ⟨derived, valid⟩ := readExpression_eq_ok_iff.1 accepted
    obtain ⟨a, b, ofFirst, ofSecond, rfl⟩ := (derives_append_iff balanced).1 derived
    have valid : (a.flags.isValid && b.flags.isValid &&
      (a.flags.allowsList && b.flags.allowsList)) = true := valid rfl
    simp only [Bool.and_eq_true] at valid
    obtain ⟨⟨validFirst, validSecond⟩, listFirst, listSecond⟩ := valid
    refine ⟨⟨a, ?_⟩, ⟨b, ?_⟩, ?_, ?_⟩
    · exact readExpression_eq_ok_iff.2 ⟨ofFirst, fun _ => validFirst⟩
    · exact readExpression_eq_ok_iff.2 ⟨ofSecond, fun _ => validSecond⟩
    · exact (allowsList_iff_of_derives ofFirst validFirst).1 listFirst
    · exact (allowsList_iff_of_derives ofSecond validSecond).1 listSecond
  · rintro ⟨⟨a, acceptedFirst⟩, ⟨b, acceptedSecond⟩, notAllFirst, notAllSecond⟩
    obtain ⟨ofFirst, validFirst⟩ := readExpression_eq_ok_iff.1 acceptedFirst
    obtain ⟨ofSecond, validSecond⟩ := readExpression_eq_ok_iff.1 acceptedSecond
    have listFirst := (allowsList_iff_of_derives ofFirst (validFirst rfl)).2 notAllFirst
    have listSecond := (allowsList_iff_of_derives ofSecond (validSecond rfl)).2 notAllSecond
    refine ⟨a.either b, readExpression_eq_ok_iff.2 ⟨?_, fun _ => ?_⟩⟩
    · exact (derives_append_iff balanced).2 ⟨a, b, ofFirst, ofSecond, rfl⟩
    · simp only [Grouping.either, validFirst rfl, validSecond rfl, listFirst, listSecond,
        Bool.and_self]

end Reader

/-- Texts joined by a separator are read as the alternatives of both, if the first is balanced. The
flags follow from those of both, and a strict reader accepts the whole if it accepts both and none
of them is `ALL` by itself. In another order texts are accepted alike, with the same flags. -/
theorem alternatives_concatenate (reader : Reader) {first : List Char} (balanced : Balanced first)
    (second : List Char) :
    (∀ group, (reader.readExpression .lenient (first ++ '|' :: second)).result = .ok group ↔
      ∃ a b, (reader.readExpression .lenient first).result = .ok a ∧
        (reader.readExpression .lenient second).result = .ok b ∧ group = a.either b) ∧
    ((∃ group, (reader.readExpression .strict (first ++ '|' :: second)).result = .ok group) ↔
      (∃ a, (reader.readExpression .strict first).result = .ok a) ∧
      (∃ b, (reader.readExpression .strict second).result = .ok b) ∧
      first ≠ wildcard ∧ second ≠ wildcard) ∧
    (∀ mode flags,
      (∃ group, (reader.readExpression mode (first ++ '|' :: second)).result = .ok group ∧
        group.flags = flags) ↔
      ∃ group, (reader.readExpression mode (second ++ '|' :: first)).result = .ok group ∧
        group.flags = flags) ∧
    (∀ texts others : List (List Char), texts.Perm others → (∀ text ∈ texts, Balanced text) →
      ∀ mode flags,
        (∃ group, (reader.readExpression mode (Text.joinWith '|' texts)).result = .ok group ∧
          group.flags = flags) ↔
        ∃ group, (reader.readExpression mode (Text.joinWith '|' others)).result = .ok group ∧
          group.flags = flags) := by
  refine ⟨?_, Reader.readExpression_strict_append_iff balanced,
    fun mode flags => Reader.readExpression_swap_iff balanced, ?_⟩
  · intro group
    simp only [Reader.readExpression_eq_ok_iff, reduceCtorEq, false_implies, and_true]
    exact Reader.derives_append_iff balanced
  · intro texts others perm areBalanced mode flags
    constructor
    · exact Reader.exists_readExpression_of_perm perm areBalanced
    · apply Reader.exists_readExpression_of_perm perm.symm
      exact fun text mem => areBalanced text (perm.mem_iff.2 mem)

/-- The group of the prayers of two deities. -/
def ofElmOrOak : Group :=
  ⟨.or,
    [.qualifier "DEITY" false
      ⟨.or, [.reference ⟨"Deity", "Elm"⟩, .reference ⟨"Deity", "Oak"⟩],
        ⟨false, true, true, true⟩⟩],
    ⟨false, true, true, true⟩⟩

/-- The group of a single prayer. -/
def blessing : Group := ⟨.or, [.reference ⟨"Prayer", "Bless"⟩], ⟨false, true, true, true⟩⟩

/-- A separator in brackets does not come between the alternatives. -/
theorem alternatives_concatenate_of_prayers :
    Balanced "DEITY[Elm|Oak]".toList ∧
    (Reader.readExpression ⟨prayers, none⟩ .lenient
      ("DEITY[Elm|Oak]".toList ++ '|' :: "Bless".toList)).result =
        .ok (ofElmOrOak.either blessing) := by
  have split : Splits .or "DEITY[Elm|Oak]".toList ["DEITY[Elm|Oak]".toList] :=
    split_eq_ok_iff.1 (by decide +kernel)
  have joined := alternatives_concatenate ⟨prayers, none⟩ split.balanced "Bless".toList
  refine ⟨split.balanced, (joined.1 _).2 ⟨ofElmOrOak, blessing, ?_, ?_, rfl⟩⟩
  · decide +kernel
  · decide +kernel

end ChoiceLang
