import ChoiceLang.Proofs.Resolution
import ChoiceLang.Proofs.Runs

/-!
# Recall

A selection that was read from a value is written as another value, which is read as the same
selection wherever the same references are known. Objects are never taken away during a run, and a
selection lies under its key until something else is written there. So whatever happens in between,
what was stored can be written, read and stored again.
-/

namespace ChoiceLang

open Expression

/-! ## Values read again -/

namespace Reader

variable {reader : Reader} {value : String} {selection : Selection}

/-- A selection that was read can be written. -/
lemma canonicalText_of_readValue (read : (reader.readValue value).result = .ok selection) :
    selection.canonicalText = .ok selection.text := by
  obtain ⟨text, root, -, accepted, rfl⟩ := result_readValue_eq_ok_iff.1 read
  exact if_pos (readExpression_strict_eq_ok_iff.1 accepted).2

/-- A selection that was read is read again from its own text. -/
lemma readValue_text (read : (reader.readValue value).result = .ok selection) :
    (reader.readValue selection.text).result = .ok selection := by
  obtain ⟨text, root, found, accepted, rfl⟩ := result_readValue_eq_ok_iff.1 read
  obtain ⟨lenient, isValid⟩ := readExpression_strict_eq_ok_iff.1 accepted
  have again := readExpression_text lenient
  obtain ⟨segments, split⟩ := ((result_readWithin_eq_ok_iff ..).1 again).splits
  obtain ⟨-, notMem, -⟩ := Config.expressionOf_eq_ok_iff.1 found
  refine result_readValue_eq_ok_iff.2 ⟨root.text, root, ?_, ?_, rfl⟩
  · exact Config.expressionOf_eq_ok_iff.2 ⟨rfl, notMem, split.text_ne_nil⟩
  · exact readExpression_strict_eq_ok_iff.2 ⟨again, isValid⟩

end Reader

/-- What is read in a context is read in every other one where as much is known, and in any at all
if references need not exist. -/
lemma Config.readValue_of_knows {config : Config} {first second : Context} {value : String}
    {selection : Selection}
    (read : ((config.readerIn first).readValue value).result = .ok selection)
    (known : config.policy.requiresLiteral = true → ∀ reference,
      first.catalogue.knows reference = true → second.catalogue.knows reference = true) :
    ((config.readerIn second).readValue value).result = .ok selection := by
  obtain ⟨deferred, knownFirst⟩ := Reader.result_readValue_eq_ok_iff_known.1 read
  refine Reader.result_readValue_eq_ok_iff_known.2 ⟨deferred, fun reference mem literal => ?_⟩
  exact known literal reference (knownFirst reference mem literal)

/-- A value that is read is stored on the record of its context. -/
lemma Config.storeValue_of_read {config : Config} {context : Context} {value : String}
    {selection : Selection}
    (read : ((config.readerIn context).readValue value).result = .ok selection) :
    (config.storeValue context value).value =
      .ok { context with record := context.record.store selection } := by
  unfold storeValue
  rw [read]
  rfl

/-! ## Round robin -/

namespace Session

variable {n : Nat}

/-- A value is stored if it is read as a selection. -/
lemma read_of_answer {session : Session n} {i : Fin n} {config : Config} {value : String}
    (accepted : (session.step (.parse i config value)).answer = .stored (.ok ())) :
    ∃ selection, ((config.readerIn session[i]).readValue value).result = .ok selection := by
  rw [answer_parse] at accepted
  obtain ⟨selection, read, -⟩ := Except.map_eq_ok_iff.1 (Answer.stored.inj accepted)
  exact ⟨selection, read⟩

end Session

/-- A selection that was read from a value and stored can be written at every later point of a run
until something is put in its place, and what is then written is read as the same selection and
stored in every context where as much is known as in this one by then, and in any context at all if
references need not exist. -/
theorem Session.stored_again {n : Nat} (start : Session n) (before later : List (Step n))
    (i : Fin n) (config : Config) (value : String)
    (accepted : ((start.after before).step (.parse i config value)).answer = .stored (.ok ()))
    (kept : (start.after (before ++ [.parse i config value])).written i selectionKey later = []) :
    let now := start.after (before ++ .parse i config value :: later)
    ∃ selection text,
      now[i].record.property? selectionKey = some (.selection selection) ∧
      (now.step (.text i config)).answer = .text (.ok (some text)) ∧
      ∀ context : Context,
        (config.policy.requiresLiteral = true → ∀ reference,
          now[i].catalogue.knows reference = true → context.catalogue.knows reference = true) →
        (config.storeValue context text).value =
          .ok { context with record := context.record.store selection } := by
  intro now
  obtain ⟨selection, read⟩ := read_of_answer accepted
  have read_step := change_parse_of_ok read
  have now_eq : now = (start.after (before ++ [.parse i config value])).after later := by
    rw [← after_append, List.append_assoc]
    rfl
  have stored_eq : start.after (before ++ [.parse i config value]) =
      ((start.after before).step (.parse i config value)).session := by
    rw [after_append, after_cons]
    rfl
  have slot : now[i].record.property? selectionKey = some (.selection selection) := by
    rw [now_eq, property?_after, kept, List.getLastD_nil, stored_eq]
    exact property?_step_of_put read_step
  have known (reference : Reference)
      (known : (start.after before)[i].catalogue.knows reference = true) :
      now[i].catalogue.knows reference = true := by
    rw [now_eq, stored_eq]
    exact knows_after later (knows_step _ known)
  refine ⟨selection, selection.text, slot, ?_, fun context asMuch => ?_⟩
  · rw [answer_text, slot, recalledText_selection, Reader.canonicalText_of_readValue read]
    rfl
  · have again := Reader.readValue_text read
    have readHere : ((config.readerIn context).readValue selection.text).result = .ok selection :=
      Config.readValue_of_knows again fun literal reference h =>
        asMuch literal reference (known reference h)
    exact Config.storeValue_of_read readHere

/-- Feats, which have to exist. -/
def feats : Config where
  subToken := "FEAT"
  targetClass := "Feat"
  policy := { requiresLiteral := true }

/-- The contexts of an axe and a bow, where nothing has happened yet. -/
def armoury : Session 2 := .fresh #v["Axe", "Bow"]

/-- A feat for the axe. -/
def dodging : List (Step 2) := [.create 0 ⟨"Feat", "Dodge"⟩]

/-- Another feat, a value that is rejected, and other properties for the axe and the bow. -/
def brawling : List (Step 2) :=
  [.create 0 ⟨"Feat", "Run"⟩, .parse 0 feats "FEAT|Fly", .put 0 "NOTE" (.flag true),
    .put 1 selectionKey (.text "none"), .remove 0 "COUNT"]

/-- The feat that was read for the axe is still there after its brawl, and can be read again. -/
theorem stored_again_after_brawling :
    ((armoury.after dodging).step (.parse 0 feats "FEAT|TYPE=A.A,Dodge")).answer =
      .stored (.ok ()) ∧
    (armoury.after (dodging ++ [.parse 0 feats "FEAT|TYPE=A.A,Dodge"])).written 0 selectionKey
      brawling = [] ∧
    let now := armoury.after (dodging ++ .parse 0 feats "FEAT|TYPE=A.A,Dodge" :: brawling)
    ∃ selection text,
      now[(0 : Fin 2)].record.property? selectionKey = some (.selection selection) ∧
      (now.step (.text 0 feats)).answer = .text (.ok (some text)) ∧
      (feats.storeValue now[(0 : Fin 2)] text).value =
        .ok { now[(0 : Fin 2)] with record := now[(0 : Fin 2)].record.store selection } := by
  have accepted : ((armoury.after dodging).step (.parse 0 feats "FEAT|TYPE=A.A,Dodge")).answer =
      .stored (.ok ()) := by
    rw [Session.answer_parse]
    exact congrArg Answer.stored (by decide +kernel)
  have kept : (armoury.after (dodging ++ [.parse 0 feats "FEAT|TYPE=A.A,Dodge"])).written 0
      selectionKey brawling = [] := by
    decide +kernel
  obtain ⟨selection, text, slot, written, again⟩ :=
    Session.stored_again armoury dodging brawling 0 feats "FEAT|TYPE=A.A,Dodge" accepted kept
  exact ⟨accepted, kept, selection, text, slot, written, again _ fun _ _ known => known⟩

end ChoiceLang
