import ChoiceLang.Text.Chars
import Mathlib.Data.List.Basic
import Mathlib.Data.List.Flatten

/-!
# Cutting and joining texts

Cutting a text at a mark and joining pieces with it undo each other as long as the mark stands in
none of the pieces. `Text.Chars` holds what is true of every text, here is what depends on that.
-/

namespace ChoiceLang.Text

variable {mark : Char} {text before after : List Char}

/-- A text is cut at the first mark in it. -/
lemma cutAt_eq_some_iff :
    cutAt mark text = some (before, after) ↔ text = before ++ mark :: after ∧ mark ∉ before := by
  constructor
  · intro h
    exact ⟨eq_append_of_cutAt h, not_mem_of_cutAt h⟩
  · rintro ⟨rfl, notMem⟩
    induction before with
    | nil => simp [cutAt]
    | cons c before ih =>
      simp only [List.mem_cons, not_or] at notMem
      rw [List.cons_append, cutAt, if_neg (Ne.symm notMem.1), ih notMem.2]
      rfl

/-- Only a text without the mark is not cut. -/
lemma cutAt_eq_none_iff : cutAt mark text = none ↔ mark ∉ text := by
  constructor
  · intro h mem
    obtain ⟨before, after, rfl, notMem⟩ := List.eq_append_cons_of_mem mem
    rw [cutAt_eq_some_iff.2 ⟨rfl, notMem⟩] at h
    cases h
  · intro notMem
    cases cut : cutAt mark text with
    | none => rfl
    | some cut' =>
      rw [eq_append_of_cutAt cut] at notMem
      exact absurd notMem (by simp)

/-- What follows any mark of a text is the end of what follows the first one. -/
lemma suffix_of_append_eq {start rest : List Char} (notMem : mark ∉ before)
    (h : before ++ mark :: after = start ++ mark :: rest) : rest <:+ after := by
  induction before generalizing start with
  | nil =>
    cases start with
    | nil =>
      obtain ⟨-, rfl⟩ := List.cons.inj h
      exact List.suffix_rfl
    | cons c start =>
      obtain ⟨-, rfl⟩ := List.cons.inj h
      exact (List.suffix_cons mark rest).trans (List.suffix_append start _)
  | cons c before ih =>
    simp only [List.mem_cons, not_or] at notMem
    cases start with
    | nil => exact absurd (List.cons.inj h).1.symm notMem.1
    | cons d start => exact ih notMem.2 (List.cons.inj h).2

/-- No mark stands in a piece. -/
lemma not_mem_of_mem_pieces {piece : List Char} (h : piece ∈ pieces mark text) : mark ∉ piece := by
  induction text generalizing piece with
  | nil =>
    rw [List.mem_singleton.1 h]
    exact List.not_mem_nil
  | cons c rest ih =>
    unfold pieces at h
    split at h
    · rcases List.mem_cons.1 h with rfl | mem
      · exact List.not_mem_nil
      · exact ih mem
    · next ne =>
      obtain ⟨first, others, eq⟩ := List.exists_cons_of_ne_nil (pieces_ne_nil mark rest)
      rw [eq] at h ih
      rcases List.mem_cons.1 h with rfl | mem
      · have notMem := ih List.mem_cons_self
        simp [notMem, Ne.symm ne]
      · exact ih (List.mem_cons_of_mem first mem)

/-- A text without the mark is one piece. -/
lemma pieces_of_not_mem (h : mark ∉ text) : pieces mark text = [text] := by
  induction text with
  | nil => rfl
  | cons c rest ih =>
    simp only [List.mem_cons, not_or] at h
    rw [pieces, if_neg (Ne.symm h.1), ih h.2]

/-- The pieces of a text go on behind a mark. -/
lemma pieces_append (h : mark ∉ before) :
    pieces mark (before ++ mark :: after) = before :: pieces mark after := by
  induction before with
  | nil => simp [pieces]
  | cons c before ih =>
    simp only [List.mem_cons, not_or] at h
    rw [List.cons_append, pieces, if_neg (Ne.symm h.1), ih h.2]

/-- Texts without the mark are the pieces of the text that they are joined to. -/
lemma pieces_joinWith {texts : List (List Char)} (some_text : texts ≠ [])
    (h : ∀ text ∈ texts, mark ∉ text) : pieces mark (joinWith mark texts) = texts := by
  induction texts with
  | nil => exact absurd rfl some_text
  | cons first others ih =>
    obtain ⟨here, later⟩ := List.forall_mem_cons.1 h
    cases others with
    | nil => rw [joinWith, pieces_of_not_mem here]
    | cons second others =>
      rw [joinWith, pieces_append here, ih (List.cons_ne_nil _ _) later]

/-! ## What a joined text holds -/

/-- What starts with a text that is not empty is not empty. -/
lemma joinWith_ne_nil {texts : List (List Char)} (h : text ≠ []) :
    joinWith mark (text :: texts) ≠ [] := by
  cases texts <;> simp [joinWith, h]

/-- A joined text holds the characters of its parts. -/
lemma subset_joinWith {texts : List (List Char)} (h : text ∈ texts) :
    text ⊆ joinWith mark texts := by
  induction texts with
  | nil => cases h
  | cons first others ih =>
    cases others with
    | nil =>
      rw [List.mem_singleton.1 h, joinWith]
      exact List.Subset.refl _
    | cons second others =>
      rw [joinWith]
      rcases List.mem_cons.1 h with rfl | mem
      · exact List.subset_append_left _ _
      · intro c inText
        exact List.mem_append_right _ (List.mem_cons_of_mem _ (ih mem inText))

/-- A joined text holds nothing but the mark and the characters of its parts. -/
lemma eq_or_mem_of_mem_joinWith {texts : List (List Char)} {c : Char}
    (h : c ∈ joinWith mark texts) : c = mark ∨ ∃ text ∈ texts, c ∈ text := by
  induction texts with
  | nil => cases h
  | cons first others ih =>
    cases others with
    | nil => exact .inr ⟨first, List.mem_singleton_self first, h⟩
    | cons second others =>
      rw [joinWith, List.mem_append, List.mem_cons] at h
      rcases h with inFirst | isMark | inOthers
      · exact .inr ⟨first, List.mem_cons_self, inFirst⟩
      · exact .inl isMark
      · obtain isMark | ⟨text, mem, inText⟩ := ih inOthers
        · exact .inl isMark
        · exact .inr ⟨text, List.mem_cons_of_mem first mem, inText⟩

/-- A joined text starts with its first part. -/
lemma joinWith_cons (first : List Char) (others : List (List Char)) :
    joinWith mark (first :: others) = first ++ others.flatMap (mark :: ·) := by
  induction others generalizing first with
  | nil => simp [joinWith]
  | cons second others ih => rw [joinWith, ih, List.flatMap_cons, List.cons_append]

/-- A joined text ends with its last part. -/
lemma joinWith_concat (texts : List (List Char)) (last : List Char) :
    joinWith mark (texts ++ [last]) = (texts.flatMap fun text => text ++ [mark]) ++ last := by
  induction texts with
  | nil => rfl
  | cons first others ih =>
    obtain ⟨second, rest, eq⟩ := List.exists_cons_of_ne_nil (List.concat_ne_nil last others)
    rw [List.cons_append, eq, joinWith, ← eq, ih]
    simp

/-! ## Lengths -/

/-- The length in bytes is that of the text as a string. -/
lemma utf8ByteSize_ofList (text : List Char) :
    (String.ofList text).utf8ByteSize = byteLength text := by
  induction text with
  | nil => simp [byteLength]
  | cons c rest ih => rw [String.ofList_cons, String.utf8ByteSize_append, ih, byteLength]; simp

/-- A text is as long as any text that it can be shortened to, or longer. -/
lemma byteLength_le_of_sublist {a b : List Char} (h : a.Sublist b) :
    byteLength a ≤ byteLength b := by
  induction h with
  | slnil => exact Nat.le_refl 0
  | cons c _ ih => exact Nat.le_trans ih (Nat.le_add_left ..)
  | cons_cons c _ ih => exact Nat.add_le_add_left ih c.utf8Size

/-- Leaving out parts of a joined text shortens it. -/
lemma joinWith_sublist {fewer texts : List (List Char)} (h : fewer.Sublist texts) :
    (joinWith mark fewer).Sublist (joinWith mark texts) := by
  induction h with
  | slnil => exact List.Sublist.refl _
  | @cons fewer texts text _ ih =>
    cases texts with
    | nil => exact ih.trans (List.nil_sublist _)
    | cons second others =>
      exact ih.trans ((List.sublist_cons_self ..).trans (List.sublist_append_right ..))
  | @cons_cons fewer texts text sub ih =>
    rw [joinWith_cons, joinWith_cons]
    exact (List.Sublist.refl text).append (sub.flatMap _)

end ChoiceLang.Text
