import ChoiceLang.Reference

/-!
# Catalogues of existing objects

The objects that exist while files are loaded, as references without repetition. A catalogue is
an oracle, and two catalogues are equal if they know the same references.
-/

namespace ChoiceLang

/-- The references that name an existing object, each once, the latest first. -/
structure Catalogue where
  known : List Reference
  nodup : known.Nodup

namespace Catalogue

/-- The catalogue without objects. -/
def empty : Catalogue := ⟨[], List.nodup_nil⟩

/-- Whether a reference names an existing object. -/
def knows (catalogue : Catalogue) : Oracle := fun reference => reference ∈ catalogue.known

/-- Adds an object. -/
def insert (catalogue : Catalogue) (reference : Reference) : Catalogue :=
  if h : reference ∈ catalogue.known then catalogue
  else ⟨reference :: catalogue.known, List.nodup_cons.2 ⟨h, catalogue.nodup⟩⟩

/-- The catalogue of the given objects. -/
def ofList (references : List Reference) : Catalogue := references.foldl insert empty

/-- The number of objects of a class. -/
def count (catalogue : Catalogue) (className : String) : Nat :=
  catalogue.known.countP fun reference => reference.className = className

/-- The number of objects of all classes. -/
def size (catalogue : Catalogue) : Nat := catalogue.known.length

/-- Whether there are no objects. -/
def isEmpty (catalogue : Catalogue) : Bool := catalogue.known.isEmpty

instance : BEq Catalogue where
  beq a b := a.known.all b.knows && b.known.all a.knows

/-- The empty catalogue knows nothing. -/
@[simp] theorem knows_empty (reference : Reference) : empty.knows reference = false := rfl

/-- After an object is added it is known, and nothing else changes. -/
@[simp] theorem knows_insert (catalogue : Catalogue) (added reference : Reference) :
    (catalogue.insert added).knows reference
      = (decide (reference = added) || catalogue.knows reference) := by
  unfold insert
  split
  · next mem =>
    by_cases eq : reference = added
    · subst eq; simp [knows, mem]
    · simp [eq]
  · simp [knows]

end Catalogue

end ChoiceLang
