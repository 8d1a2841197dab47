import ChoiceLang.Expression.Form
import ChoiceLang.Proofs.Texts
import ChoiceLang.Qualifier

/-!
# Forms of items

The form of an item described by what the item looks like. Each form but the last is recognised by a
shape of its own, and the order in which they are tried shows in what the later forms exclude: a
bracketed item is no type filter, and a plain one is neither of these nor the wildcard.

The name of a qualifier is an identifier, in which no character has a meaning of its own. So no item
that starts with such a name is a type filter, whatever its body holds.
-/

namespace ChoiceLang.Expression

/-- A text with the start of a type filter, negated or not. -/
def IsFilter (item : List Char) : Prop :=
  ∃ negated, ∃ start ∈ filterStarts, ∃ list, item = negation negated ++ start ++ list

variable {item text body name after list : List Char} {negated : Bool}

/-- A negation is taken off if there is one. -/
lemma negated?_eq_iff :
    negated? text = (negated, body) ↔
      text = negation negated ++ body ∧ (negated = false → body.head? ≠ some '!') := by
  constructor
  · intro h
    unfold negated? at h
    split at h
    · cases h
      exact ⟨rfl, nofun⟩
    · next unmarked =>
      cases h
      refine ⟨rfl, fun _ marked => ?_⟩
      obtain ⟨rest, rfl⟩ := List.head?_eq_some_iff.1 marked
      exact unmarked rest rfl
  · rintro ⟨rfl, unmarked⟩
    cases negated with
    | true => rfl
    | false =>
      change negated? body = _
      unfold negated?
      split
      · exact absurd rfl (unmarked rfl)
      · rfl

/-- The two starts of a type filter. -/
lemma mem_filterStarts {start : List Char} :
    start ∈ filterStarts ↔
      ∃ mark, (mark = '=' ∨ mark = '.') ∧ start = ['T', 'Y', 'P', 'E', mark] := by
  simp [filterStarts, filterStart]

/-- The list of a type filter is what follows its start. -/
lemma filterList?_eq_some_iff :
    filterList? text = some list ↔ ∃ start ∈ filterStarts, text = start ++ list := by
  constructor
  · intro h
    obtain ⟨start, mem, eq⟩ := List.exists_of_findSome?_eq_some h
    exact ⟨start, mem, (List.isPrefixOf?_eq_some_iff_append_eq.1 eq).symm⟩
  · rintro ⟨start, mem, rfl⟩
    obtain ⟨mark, rfl | rfl, rfl⟩ := mem_filterStarts.1 mem
    · rfl
    · rfl

/-- The start of a type filter is not taken for a negation. -/
lemma negated?_filter {start : List Char} (mem : start ∈ filterStarts) :
    negated? (negation negated ++ start ++ list) = (negated, start ++ list) := by
  rw [List.append_assoc, negated?_eq_iff]
  refine ⟨rfl, fun _ => ?_⟩
  obtain ⟨mark, -, rfl⟩ := mem_filterStarts.1 mem
  simp

/-- A text is a type filter if a list is found behind its negation. -/
lemma isFilter_iff (h : negated? item = (negated, body)) :
    IsFilter item ↔ ∃ list, filterList? body = some list := by
  constructor
  · rintro ⟨other, start, mem, list, rfl⟩
    rw [negated?_filter mem] at h
    cases h
    exact ⟨list, filterList?_eq_some_iff.2 ⟨start, mem, rfl⟩⟩
  · rintro ⟨list, eq⟩
    obtain ⟨start, mem, rfl⟩ := filterList?_eq_some_iff.1 eq
    exact ⟨negated, start, mem, list, by rw [(negated?_eq_iff.1 h).1, List.append_assoc]⟩

/-- No list is found exactly if the text does not start like a type filter. -/
lemma filterList?_eq_none_iff (h : negated? item = (negated, body)) :
    filterList? body = none ↔ ¬ IsFilter item := by
  rw [isFilter_iff h, not_exists, Option.eq_none_iff_forall_ne_some]

/-- What is not the wildcard has the form of what is behind its negation. -/
lemma ofText_of_negated? (ne : item ≠ wildcard) (h : negated? item = (negated, body)) :
    Form.ofText item = .ofBody negated body := by
  rw [Form.ofText, if_neg ne, h]

/-- A form other than that of the wildcard is that of the text behind a negation. -/
lemma ofBody_of_ofText {form : Form} (h : Form.ofText item = form) (ne : form ≠ .all) :
    item ≠ wildcard ∧
      ∃ negated body, negated? item = (negated, body) ∧ Form.ofBody negated body = form := by
  have notAll : item ≠ wildcard := by
    rintro rfl
    exact ne h.symm
  rw [ofText_of_negated? notAll rfl] at h
  exact ⟨notAll, _, _, rfl, h⟩

/-- Only the wildcard has its form. -/
lemma ofText_eq_all_iff : Form.ofText item = .all ↔ item = wildcard := by
  constructor
  · intro h
    by_contra ne
    rw [ofText_of_negated? ne rfl, Form.ofBody] at h
    split at h
    · cases h
    · split at h <;> cases h
  · rintro rfl
    rfl

/-- A type filter is what starts like one. -/
lemma ofText_eq_types_iff :
    Form.ofText item = .types negated list ↔
      ∃ start ∈ filterStarts, item = negation negated ++ start ++ list := by
  constructor
  · intro h
    obtain ⟨-, marked, body, taken, form⟩ := ofBody_of_ofText h nofun
    obtain ⟨rfl, -⟩ := negated?_eq_iff.1 taken
    unfold Form.ofBody at form
    split at form
    · next found =>
      cases form
      obtain ⟨start, mem, rfl⟩ := filterList?_eq_some_iff.1 found
      exact ⟨start, mem, (List.append_assoc ..).symm⟩
    · split at form <;> cases form
  · rintro ⟨start, mem, rfl⟩
    obtain ⟨mark, -, rfl⟩ := mem_filterStarts.1 mem
    have ne : negation negated ++ ['T', 'Y', 'P', 'E', mark] ++ list ≠ wildcard := by
      cases negated <;> simp [negation, wildcard]
    rw [List.append_assoc] at ne ⊢
    rw [ofText_of_negated? ne (negated?_eq_iff.2 ⟨rfl, fun _ => by simp⟩), Form.ofBody,
      filterList?_eq_some_iff.2 ⟨_, mem, rfl⟩]

/-- A bracketed item is no type filter, and what is before its first bracket is its name. -/
lemma ofText_eq_bracketed_iff :
    Form.ofText item = .bracketed negated name after ↔
      ¬ IsFilter item ∧ item = negation negated ++ name ++ '[' :: after ∧ '[' ∉ name ∧
        (negated = false → (name ++ '[' :: after).head? ≠ some '!') := by
  constructor
  · intro h
    obtain ⟨-, marked, body, taken, form⟩ := ofBody_of_ofText h nofun
    obtain ⟨rfl, unmarked⟩ := negated?_eq_iff.1 taken
    unfold Form.ofBody at form
    split at form
    · cases form
    · next noList =>
      split at form
      · next cut =>
        cases form
        obtain ⟨rfl, notMem⟩ := Text.cutAt_eq_some_iff.1 cut
        exact ⟨(filterList?_eq_none_iff taken).1 noList, (List.append_assoc ..).symm, notMem,
          unmarked⟩
      · cases form
  · rintro ⟨notFilter, rfl, notMem, unmarked⟩
    have ne : negation negated ++ name ++ '[' :: after ≠ wildcard := by
      intro eq
      have mem : '[' ∈ wildcard := by simp [← eq]
      exact absurd mem (by decide)
    rw [List.append_assoc] at ne notFilter ⊢
    have taken := negated?_eq_iff.2 ⟨rfl, unmarked⟩
    rw [ofText_of_negated? ne taken, Form.ofBody, (filterList?_eq_none_iff taken).2 notFilter,
      Text.cutAt_eq_some_iff.2 ⟨rfl, notMem⟩]

/-- A plain item is one that none of the other forms fits. -/
lemma ofText_eq_plain_iff :
    Form.ofText item = .plain negated name ↔
      item ≠ wildcard ∧ ¬ IsFilter item ∧ item = negation negated ++ name ∧ '[' ∉ name ∧
        (negated = false → name.head? ≠ some '!') := by
  constructor
  · intro h
    obtain ⟨ne, marked, body, taken, form⟩ := ofBody_of_ofText h nofun
    obtain ⟨rfl, unmarked⟩ := negated?_eq_iff.1 taken
    unfold Form.ofBody at form
    split at form
    · cases form
    · next noList =>
      split at form
      · cases form
      · next cut =>
        cases form
        exact ⟨ne, (filterList?_eq_none_iff taken).1 noList, rfl, Text.cutAt_eq_none_iff.1 cut,
          unmarked⟩
  · rintro ⟨ne, notFilter, rfl, notMem, unmarked⟩
    have taken := negated?_eq_iff.2 ⟨rfl, unmarked⟩
    rw [ofText_of_negated? ne taken, Form.ofBody, (filterList?_eq_none_iff taken).2 notFilter,
      Text.cutAt_eq_none_iff.2 notMem]

end ChoiceLang.Expression

namespace ChoiceLang

open Expression

/-! ## Names of qualifiers -/

/-- An identifier holds none of the characters that have a meaning in an expression. -/
lemma not_mem_of_isIdentifier {name : String} {c : Char} (h : isIdentifier name = true)
    (special : (c.isAlphanum || c = '_') = false) : c ∉ name.toList := by
  intro mem
  unfold isIdentifier at h
  split at h
  · cases h
  · next first others eq =>
    rw [eq] at mem
    rw [Bool.and_eq_true, List.all_eq_true] at h
    rcases List.mem_cons.1 mem with rfl | mem
    · have alphanum : c.isAlphanum = true := by simp [Char.isAlphanum, h.1]
      simp [alphanum] at special
    · have others := h.2 c mem
      rw [special] at others
      cases others

/-- An identifier is not empty. -/
lemma toList_ne_nil_of_isIdentifier {name : String} (h : isIdentifier name = true) :
    name.toList ≠ [] := by
  intro eq
  simp [isIdentifier, eq] at h

namespace QualifierTable

variable {table : QualifierTable} {qualifier : Qualifier}

/-- No special character stands in the name of a qualifier. -/
lemma not_mem_name {c : Char} (h : qualifier ∈ table.qualifiers)
    (special : (c.isAlphanum || c = '_') = false) : c ∉ qualifier.name.toList :=
  not_mem_of_isIdentifier (table.legal qualifier h).1 special

/-- The name of a qualifier is not empty. -/
lemma name_ne_nil (h : qualifier ∈ table.qualifiers) : qualifier.name.toList ≠ [] :=
  toList_ne_nil_of_isIdentifier (table.legal qualifier h).1

/-- No qualifier is called like the wildcard. -/
lemma name_ne_wildcard (h : qualifier ∈ table.qualifiers) : qualifier.name.toList ≠ wildcard := by
  intro eq
  apply (table.legal qualifier h).2
  rw [← String.ofList_toList (s := qualifier.name), eq]
  decide

/-- The name of a qualifier does not start with a negation, whatever follows it. -/
lemma head?_name_append_ne (h : qualifier ∈ table.qualifiers) (tail : List Char) :
    (qualifier.name.toList ++ tail).head? ≠ some '!' := by
  intro marked
  obtain ⟨first, others, eq⟩ := List.exists_cons_of_ne_nil (name_ne_nil h)
  have notMem : '!' ∉ qualifier.name.toList := not_mem_name h (by decide)
  rw [eq] at marked notMem
  cases marked
  exact notMem List.mem_cons_self

/-- What starts with the name of a qualifier is no type filter if it goes on with a bracket. -/
lemma not_isFilter_name (h : qualifier ∈ table.qualifiers) (negated : Bool) {tail : List Char}
    (bracket : ∀ c rest, tail = c :: rest → c = '[') :
    ¬ IsFilter (negation negated ++ (qualifier.name.toList ++ tail)) := by
  intro filter
  have taken : negated? (negation negated ++ (qualifier.name.toList ++ tail)) = (negated, _) :=
    negated?_eq_iff.2 ⟨rfl, fun _ => head?_name_append_ne h tail⟩
  obtain ⟨list, found⟩ := (isFilter_iff taken).1 filter
  obtain ⟨start, mem, eq⟩ := filterList?_eq_some_iff.1 found
  obtain ⟨mark, isMark, rfl⟩ := mem_filterStarts.1 mem
  have notMem : mark ∉ qualifier.name.toList := by
    rcases isMark with rfl | rfl <;> exact not_mem_name h (by decide)
  -- the start of a filter ends with a mark: it does not fit into the name, and holds no bracket
  obtain ⟨rest, nameEq, -⟩ | ⟨rest, startEq, tailEq⟩ := List.append_eq_append_iff.1 eq.symm
  · exact notMem (by simp [nameEq])
  · cases rest with
    | nil =>
      rw [List.append_nil] at startEq
      exact notMem (by simp [← startEq])
    | cons c rest =>
      have isBracket : c = '[' := bracket c _ tailEq
      have inStart : '[' ∈ ['T', 'Y', 'P', 'E', mark] := by simp [startEq, isBracket]
      rcases isMark with rfl | rfl <;> exact absurd inStart (by decide)

/-- The form of a qualifier with a body. -/
lemma ofText_name_bracket (h : qualifier ∈ table.qualifiers) (negated : Bool) (after : List Char) :
    Form.ofText (negation negated ++ qualifier.name.toList ++ '[' :: after) =
      .bracketed negated qualifier.name.toList after := by
  rw [ofText_eq_bracketed_iff, List.append_assoc]
  refine ⟨not_isFilter_name h negated ?_, rfl, not_mem_name h (by decide), ?_⟩
  · intro c rest eq
    exact (List.cons.inj eq).1.symm
  · intro _
    exact head?_name_append_ne h _

/-- The form of a qualifier without a body. -/
lemma ofText_name (h : qualifier ∈ table.qualifiers) (negated : Bool) :
    Form.ofText (negation negated ++ qualifier.name.toList) =
      .plain negated qualifier.name.toList := by
  have notFilter := not_isFilter_name h negated fun c rest (eq : [] = c :: rest) => nomatch eq
  have unmarked := head?_name_append_ne h []
  rw [List.append_nil] at notFilter unmarked
  refine ofText_eq_plain_iff.2 ⟨?_, notFilter, rfl, not_mem_name h (by decide), fun _ => unmarked⟩
  cases negated with
  | true => exact fun eq => absurd (List.cons.inj eq).1 (by decide)
  | false => exact name_ne_wildcard h

end QualifierTable

end ChoiceLang
