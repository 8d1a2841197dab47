/-!
# References

A reference names an object of a class. Which references name an object that exists is told by an
oracle; a question to it is remembered with its answer.
-/

namespace ChoiceLang

/-- The name of an object, to be looked up among the objects of a class. -/
structure Reference where
  className : String
  name : String
deriving DecidableEq

/-- The text of a reference in reports: the class and the name. -/
def Reference.report (reference : Reference) : String :=
  reference.className ++ ":" ++ reference.name

/-- Tells whether the object that a reference names exists. -/
abbrev Oracle := Reference → Bool

/-- A question that an oracle was asked, and its answer. -/
structure Question where
  reference : Reference
  known : Bool
deriving DecidableEq

/-- The question about a reference, with the answer that an oracle gives. -/
def Oracle.ask (oracle : Oracle) (reference : Reference) : Question :=
  ⟨reference, oracle reference⟩

end ChoiceLang
