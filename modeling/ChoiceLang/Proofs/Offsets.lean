import ChoiceLang.Proofs.Splitting

/-!
# Offsets

Parts of a text can be told by offsets in bytes and taken when they are needed. `Text.slice?` takes
the part between two offsets, which is there only if both of them are boundaries of characters
(`Text.IsSlice`). A first bracket is told by its offset (`Text.offsetOf?`), and so is its partner
(`closingOffset?`), for which a depth is counted from the bracket on.

What is found at these offsets is where a text is cut: at the first mark by `Text.cutAt`, and at the
bracket that closes by `cutClose`.
-/

namespace ChoiceLang

namespace Text

/-- The texts in front of an offset and behind it, if it is a boundary of characters. -/
def cutBytes? (offset : Nat) : List Char → Option (List Char × List Char)
  | [] => if offset = 0 then some ([], []) else none
  | c :: rest =>
    if offset = 0 then some ([], c :: rest)
    else if c.utf8Size ≤ offset then
      (cutBytes? (offset - c.utf8Size) rest).map fun cut => (c :: cut.1, cut.2)
    else none

/-- The part of a text between two offsets, if they are boundaries of characters in order. -/
def slice? (text : List Char) (start stop : Nat) : Option (List Char) :=
  (cutBytes? stop text).bind fun cut => (cutBytes? start cut.1).map Prod.snd

/-- The offset of the first mark in a text. -/
def offsetOf? (mark : Char) : List Char → Option Nat
  | [] => none
  | c :: rest => if c = mark then some 0 else (offsetOf? mark rest).map (c.utf8Size + ·)

/-- A text has a part between two offsets. -/
inductive IsSlice : List Char → Nat → Nat → List Char → Prop where
  | intro {before part after} :
    IsSlice (before ++ part ++ after) (byteLength before) (byteLength (before ++ part)) part

variable {mark : Char} {text part before after : List Char} {start stop offset : Nat}

/-- A text is cut behind a front that is as long as the offset tells. -/
lemma cutBytes?_append (before after : List Char) :
    cutBytes? (byteLength before) (before ++ after) = some (before, after) := by
  induction before with
  | nil =>
    rw [byteLength, List.nil_append]
    cases after <;> rfl
  | cons c front ih =>
    have positive := c.utf8Size_pos
    rw [List.cons_append, byteLength, cutBytes?, if_neg (by omega), if_pos (by omega),
      Nat.add_sub_cancel_left, ih]
    rfl

/-- Cutting at an offset loses nothing, and the front is as long as the offset tells. -/
lemma eq_append_of_cutBytes? (h : cutBytes? offset text = some (before, after)) :
    text = before ++ after ∧ byteLength before = offset := by
  induction text generalizing offset before with
  | nil =>
    unfold cutBytes? at h
    split at h
    · next zero =>
      cases h
      exact ⟨rfl, zero.symm⟩
    · cases h
  | cons c rest ih =>
    unfold cutBytes? at h
    split at h
    · next zero =>
      cases h
      exact ⟨rfl, zero.symm⟩
    · split at h
      · next fits =>
        obtain ⟨cut, found, eq⟩ := Option.map_eq_some_iff.1 h
        cases eq
        obtain ⟨rfl, long⟩ := ih found
        refine ⟨rfl, ?_⟩
        rw [byteLength, long, Nat.add_sub_cancel' fits]
      · cases h

/-- What is taken between two offsets is the part there. -/
lemma slice?_eq_some_iff : slice? text start stop = some part ↔ IsSlice text start stop part := by
  unfold slice?
  rw [Option.bind_eq_some_iff]
  constructor
  · rintro ⟨⟨front, after⟩, cutStop, found⟩
    obtain ⟨⟨before, _⟩, cutStart, rfl⟩ := Option.map_eq_some_iff.1 found
    obtain ⟨rfl, rfl⟩ := eq_append_of_cutBytes? cutStop
    obtain ⟨rfl, rfl⟩ := eq_append_of_cutBytes? cutStart
    exact .intro
  · intro isSlice
    cases isSlice with
    | @intro before part after =>
      refine ⟨(before ++ part, after), cutBytes?_append .., ?_⟩
      rw [cutBytes?_append]
      rfl

/-- There is a part between two offsets if they are the ends of a front and of the part after
it. -/
lemma IsSlice.of_eq (before after : List Char) (isText : text = before ++ part ++ after)
    (isStart : start = byteLength before) (isStop : stop = byteLength (before ++ part)) :
    IsSlice text start stop part := by
  subst isText isStart isStop
  exact .intro

/-- The first mark stands where the text in front of it ends. -/
lemma offsetOf?_eq_map_cutAt :
    offsetOf? mark text = (cutAt mark text).map fun cut => byteLength cut.1 := by
  induction text with
  | nil => rfl
  | cons c rest ih =>
    unfold offsetOf? cutAt
    split
    · rfl
    · rw [ih, Option.map_map, Option.map_map]
      rfl

end Text

namespace Expression

/-- The offset of the bracket that closes the last of the brackets that are open, counted by their
`depth`. The text starts at `position`. -/
def closeFrom (position depth : Nat) : List Char → Option Nat
  | [] => none
  | c :: rest =>
    if c = '[' then closeFrom (position + c.utf8Size) (depth + 1) rest
    else if c = ']' then
      match depth with
      | 0 => none
      | 1 => some position
      | depth + 2 => closeFrom (position + c.utf8Size) (depth + 1) rest
    else closeFrom (position + c.utf8Size) depth rest

/-- The offset of the partner of the bracket at an offset. -/
def closingOffset? (text : List Char) (opening : Nat) : Option Nat :=
  (Text.slice? text opening (Text.byteLength text)).bind (closeFrom opening 0)

/-- The bracket that closes stands where the text is cut in front of it. -/
lemma closeFrom_eq_map_cutClose (position depth : Nat) (text : List Char) :
    closeFrom position (depth + 1) text =
      (cutClose depth text).map fun cut => position + Text.byteLength cut.1 := by
  induction text generalizing position depth with
  | nil => rfl
  | cons c rest ih =>
    -- every character but the bracket looked for belongs to the text in front of it
    have push (later : Nat) :
        closeFrom (position + c.utf8Size) (later + 1) rest =
          ((cutClose later rest).map fun cut => (c :: cut.1, cut.2)).map fun cut =>
            position + Text.byteLength cut.1 := by
      rw [ih, Option.map_map]
      congr 1
      funext cut
      exact Nat.add_assoc ..
    unfold closeFrom cutClose
    split
    · exact push (depth + 1)
    · split
      · cases depth with
        | zero => rfl
        | succ depth => exact push depth
      · exact push depth

/-- The partner of a bracket stands where the text behind the bracket is cut. -/
lemma closingOffset?_append (name after : List Char) :
    closingOffset? (name ++ '[' :: after) (Text.byteLength name) =
      (cutClose 0 after).map fun cut =>
        Text.byteLength (name ++ ['[']) + Text.byteLength cut.1 := by
  have rest : Text.IsSlice (name ++ '[' :: after) (Text.byteLength name)
      (Text.byteLength (name ++ '[' :: after)) ('[' :: after) :=
    Text.IsSlice.of_eq name [] (List.append_nil _).symm rfl rfl
  rw [closingOffset?, Text.slice?_eq_some_iff.2 rest, Option.bind_some, byteLength_concat]
  exact closeFrom_eq_map_cutClose ..

end Expression

end ChoiceLang
