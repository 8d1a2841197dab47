/-!
# Texts as lists of characters

Cutting, splitting and joining of texts, and the number of bytes a text takes in UTF-8. Positions
in error messages are byte offsets, so they are values of `byteLength` on the text read so far.
-/

namespace ChoiceLang.Text

/-- The number of bytes of a text in UTF-8. -/
def byteLength : List Char → Nat
  | [] => 0
  | c :: rest => c.utf8Size + byteLength rest

/-- The lengths of two texts add up. -/
@[simp] theorem byteLength_append (a b : List Char) :
    byteLength (a ++ b) = byteLength a + byteLength b := by
  induction a with
  | nil => simp [byteLength]
  | cons c rest ih => simp [byteLength, ih, Nat.add_assoc]

/-- The text before and after the first `mark`, if there is one. -/
def cutAt (mark : Char) : List Char → Option (List Char × List Char)
  | [] => none
  | c :: rest =>
    if c = mark then some ([], rest)
    else (cutAt mark rest).map fun (before, after) => (c :: before, after)

/-- The texts between the occurrences of `mark`: one more than there are marks, empty ones
included. -/
def pieces (mark : Char) : List Char → List (List Char)
  | [] => [[]]
  | c :: rest =>
    if c = mark then [] :: pieces mark rest
    else
      match pieces mark rest with
      | [] => [[c]]
      | first :: others => (c :: first) :: others

/-- The texts in order with `mark` between each two. -/
def joinWith (mark : Char) : List (List Char) → List Char
  | [] => []
  | [last] => last
  | first :: second :: others => first ++ mark :: joinWith mark (second :: others)

/-- A cut loses nothing but the mark. -/
theorem eq_append_of_cutAt {mark : Char} {text before after : List Char}
    (h : cutAt mark text = some (before, after)) : text = before ++ mark :: after := by
  induction text generalizing before with
  | nil => simp [cutAt] at h
  | cons c rest ih =>
    unfold cutAt at h
    split at h
    · next eq => cases h; simp [eq]
    · obtain ⟨⟨b, a⟩, cut, eq⟩ := Option.map_eq_some_iff.1 h
      cases eq
      simp [ih cut]

/-- The text before a cut does not hold the mark. -/
theorem not_mem_of_cutAt {mark : Char} {text before after : List Char}
    (h : cutAt mark text = some (before, after)) : mark ∉ before := by
  induction text generalizing before with
  | nil => simp [cutAt] at h
  | cons c rest ih =>
    unfold cutAt at h
    split at h
    · cases h; simp
    · next ne =>
      obtain ⟨⟨b, a⟩, cut, eq⟩ := Option.map_eq_some_iff.1 h
      cases eq
      simp [ih cut, Ne.symm ne]

/-- A text has one piece at least. -/
theorem pieces_ne_nil (mark : Char) (text : List Char) : pieces mark text ≠ [] := by
  cases text with
  | nil => simp [pieces]
  | cons c rest =>
    unfold pieces
    split
    · simp
    · split <;> simp

/-- Joining the pieces of a text with the mark gives the text back. -/
theorem joinWith_pieces (mark : Char) (text : List Char) :
    joinWith mark (pieces mark text) = text := by
  induction text with
  | nil => rfl
  | cons c rest ih =>
    unfold pieces
    split
    · next eq =>
      cases h : pieces mark rest with
      | nil => exact absurd h (pieces_ne_nil mark rest)
      | cons first others => rw [joinWith, ← h, ih, eq]; rfl
    · cases h : pieces mark rest with
      | nil => exact absurd h (pieces_ne_nil mark rest)
      | cons first others =>
        rw [h] at ih
        cases others with
        | nil => simpa [joinWith] using ih
        | cons second others => simpa [joinWith] using ih

end ChoiceLang.Text
