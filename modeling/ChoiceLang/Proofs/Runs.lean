import ChoiceLang.Session
import Mathlib.Tactic.Lemma

/-!
# Runs

What lies under the keys of records after any run of a session. A step changes the context it
belongs to and no other, and it does so in one of few ways, which `Session.change` tells without
taking the step: it creates an object, puts a property under a key, clears a key, or does nothing.
All that is said of runs follows from `Session.session_step`, by which a step makes exactly its
change.

A property under a key is then the last that was put there: `Session.property?_after` says so for
any run, with `Session.written` for the history of the key.
-/

namespace ChoiceLang

/-! ## Changes -/

/-- What a step does to the context it belongs to. -/
inductive Change where
  | nothing
  | create (reference : Reference)
  | put (key : String) (property : Property)
  | remove (key : String)

namespace Change

/-- A context after a change. -/
def apply (context : Context) : Change → Context
  | nothing => context
  | create reference => { context with catalogue := context.catalogue.insert reference }
  | put key property => { context with record := context.record.put key property }
  | remove key => { context with record := context.record.remove key }

/-- What a change leaves under a key, a property or nothing, if it concerns that key. -/
def written? (key : String) : Change → Option (Option Property)
  | nothing => none
  | create _ => none
  | put other property => if key = other then some (some property) else none
  | remove other => if key = other then some none else none

/-- What lies under a key after a change. -/
lemma property?_apply (change : Change) (context : Context) (key : String) :
    (change.apply context).record.property? key =
      (change.written? key).getD (context.record.property? key) := by
  cases change with
  | nothing => rfl
  | create reference => rfl
  | put other property =>
    change (context.record.put other property).property? key = _
    rw [Record.property?_put, written?]
    split
    · rfl
    · rfl
  | remove other =>
    change (context.record.remove other).property? key = _
    rw [Record.property?_remove, written?]
    split
    · rfl
    · rfl

/-- No change gives a record another name. -/
lemma name_apply (change : Change) (context : Context) :
    (change.apply context).record.name = context.record.name := by
  cases change <;> rfl

/-- What is known stays known. -/
lemma knows_apply (change : Change) {context : Context} {reference : Reference}
    (known : context.catalogue.knows reference = true) :
    (change.apply context).catalogue.knows reference = true := by
  cases change with
  | create created =>
    change (context.catalogue.insert created).knows reference = true
    rw [Catalogue.knows_insert, known, Bool.or_true]
  | _ => exact known

end Change

/-! ## Slots -/

/-- What is recalled of a slot that holds a property or nothing: a selection, if there is one. -/
def recalled : Option Property → Except Unwritable (Option Selection)
  | none => .ok none
  | some (.selection selection) => .ok (some selection)
  | some other => .error (.contractViolation selectionKey other.kind.typeName)

/-- The text of what is recalled of a slot. -/
def recalledText (slot : Option Property) : Except Unwritable (Option String) :=
  match recalled slot with
  | .ok (some selection) => selection.canonicalText.map some
  | .ok none => .ok none
  | .error error => .error error

/-- A slot with a selection has the text of that selection. -/
lemma recalledText_selection (selection : Selection) :
    recalledText (some (.selection selection)) = selection.canonicalText.map some := rfl

/-- What is stored on a record is what is recalled of its slot. -/
lemma Config.storedSelection_value (config : Config) (record : Record) :
    (config.storedSelection record).value = recalled (record.property? selectionKey) := by
  unfold storedSelection Record.get
  cases record.property? selectionKey with
  | none => rfl
  | some property => cases property <;> rfl

/-- The text that is recalled is that of what lies in the slot. -/
lemma Config.storedText_value (config : Config) (record : Record) :
    (config.storedText record).value = recalledText (record.property? selectionKey) := by
  unfold recalledText
  rw [← config.storedSelection_value]
  rfl

namespace Session

variable {n : Nat}

/-! ## Steps -/

/-- A place of a session always holds a context, so that it is looked up without a bound. -/
instance : GetElem (Session n) (Fin n) Context fun _ _ => True where
  getElem session i _ := Vector.get session i

/-- Puts a context in a place of a session. -/
def replace (session : Session n) (i : Fin n) (context : Context) : Session n :=
  Vector.set session i context i.isLt

/-- The change that a step makes. Only what is read without a rejection is put on a record. -/
def change (session : Session n) : Step n → Change
  | .create _ reference => .create reference
  | .parse i config value =>
    match ((config.readerIn session[i]).readValue value).result with
    | .ok selection => .put selectionKey (.selection selection)
    | .error _ => .nothing
  | .putGrouping _ config text subToken title =>
    match (Reader.readExpression ⟨config, none⟩ .lenient text.toList).result with
    | .ok root => .put selectionKey (.selection ⟨subToken, title, root⟩)
    | .error _ => .nothing
  | .copy _ j _ =>
    match session[j].record.property? selectionKey with
    | some (.selection selection) => .put selectionKey (.selection selection)
    | _ => .nothing
  | .put _ key property => .put key property
  | .remove _ key => .remove key
  | _ => .nothing

/-- A context is the same when it is looked up by its number. -/
lemma getElem_val (session : Session n) (i : Fin n) (bound : i.val < n) :
    session[i.val] = session[i] := rfl

/-- Putting a context in one place leaves the others as they are. -/
lemma getElem_replace (session : Session n) (i j : Fin n) (context : Context) :
    (session.replace i context)[j] = if j = i then context else session[j] := by
  rw [← getElem_val _ j j.isLt, ← getElem_val session j j.isLt]
  simp only [replace, Vector.getElem_set, Fin.ext_iff, eq_comm]

/-- Putting a context back where it was changes nothing. -/
lemma replace_getElem (session : Session n) (i : Fin n) : session.replace i session[i] = session :=
  Vector.set_getElem_self ..

/-- A step makes its change on the context it belongs to. -/
lemma session_step (session : Session n) (step : Step n) :
    (session.step step).session =
      session.replace step.here ((session.change step).apply session[step.here]) := by
  cases step with
  | create i reference => rfl
  | parse i config value =>
    -- whatever was asked on the way, the record is touched only once the whole value is read
    simp only [Session.step, change, Config.storeValue]
    cases ((config.readerIn session[i]).readValue value).result with
    | ok selection => rfl
    | error rejection => exact (replace_getElem ..).symm
  | putGrouping i config text subToken title =>
    simp only [Session.step, change]
    cases (Reader.readExpression ⟨config, none⟩ .lenient text.toList).result with
    | ok root => rfl
    | error rejection => exact (replace_getElem ..).symm
  | copy i j config =>
    simp only [Session.step, change, config.storedSelection_value]
    cases session[j].record.property? selectionKey with
    | none => exact (replace_getElem ..).symm
    | some property =>
      cases property with
      | selection selection => rfl
      | _ => exact (replace_getElem ..).symm
  | put i key property => rfl
  | remove i key => rfl
  | _ => exact (replace_getElem ..).symm

/-- A step changes the context it belongs to and no other. -/
lemma getElem_step (session : Session n) (step : Step n) (i : Fin n) :
    (session.step step).session[i] =
      if i = step.here then (session.change step).apply session[i] else session[i] := by
  rw [session_step, getElem_replace]
  split
  · next here => rw [here]
  · rfl

/-- A step that makes no change leaves a session as it is. -/
lemma session_step_of_nothing {session : Session n} {step : Step n}
    (h : session.change step = .nothing) : (session.step step).session = session := by
  rw [session_step, h]
  exact replace_getElem ..

/-- Reading a value without a rejection puts the selection under its key. -/
lemma change_parse_of_ok {session : Session n} {i : Fin n} {config : Config} {value : String}
    {selection : Selection}
    (read : ((config.readerIn session[i]).readValue value).result = .ok selection) :
    session.change (.parse i config value) = .put selectionKey (.selection selection) := by
  simp only [change, read]

/-- Reading a value that is rejected changes nothing. -/
lemma change_parse_of_error {session : Session n} {i : Fin n} {config : Config} {value : String}
    {rejection : Rejection}
    (rejected : ((config.readerIn session[i]).readValue value).result = .error rejection) :
    session.change (.parse i config value) = .nothing := by
  simp only [change, rejected]

/-- The answer to a value is whether it was rejected, and why. -/
lemma answer_parse (session : Session n) (i : Fin n) (config : Config) (value : String) :
    (session.step (.parse i config value)).answer =
      .stored (((config.readerIn session[i]).readValue value).result.map fun _ => ()) := by
  simp only [Session.step, Config.storeValue]
  cases ((config.readerIn session[i]).readValue value).result with
  | ok selection => rfl
  | error rejection => rfl

/-- The answer to a recall is what lies in the slot of that context. -/
lemma answer_selection (session : Session n) (i : Fin n) (config : Config) :
    (session.step (.selection i config)).answer =
      .selection (recalled (session[i].record.property? selectionKey)) := by
  rw [← config.storedSelection_value]
  rfl

/-- The answer to a request for the text is that of what lies in the slot. -/
lemma answer_text (session : Session n) (i : Fin n) (config : Config) :
    (session.step (.text i config)).answer =
      .text (recalledText (session[i].record.property? selectionKey)) := by
  rw [← config.storedText_value]
  rfl

/-- What a step leaves under a key of a context, a property or nothing, if it writes there. -/
def write? (session : Session n) (i : Fin n) (key : String) (step : Step n) :
    Option (Option Property) :=
  if i = step.here then (session.change step).written? key else none

/-- After a step there lies under a key what the step left there, or what lay there before. -/
lemma property?_step (session : Session n) (i : Fin n) (key : String) (step : Step n) :
    (session.step step).session[i].record.property? key =
      (session.write? i key step).getD (session[i].record.property? key) := by
  rw [getElem_step, write?]
  split
  · exact Change.property?_apply ..
  · rfl

/-- What a step puts under a key lies there. -/
lemma property?_step_of_put {session : Session n} {step : Step n} {key : String}
    {property : Property} (h : session.change step = .put key property) :
    (session.step step).session[step.here].record.property? key = some property := by
  rw [property?_step, write?, if_pos rfl, h, Change.written?, if_pos rfl]
  rfl

/-- No step forgets what a context knows. -/
lemma knows_step {session : Session n} {i : Fin n} {reference : Reference} (step : Step n)
    (known : session[i].catalogue.knows reference = true) :
    (session.step step).session[i].catalogue.knows reference = true := by
  rw [getElem_step]
  split
  · exact Change.knows_apply _ known
  · exact known

/-! ## Runs -/

/-- A session of contexts without objects or properties. -/
def fresh (names : Vector String n) : Session n := names.map Context.empty

/-- Nothing lies under any key at first. -/
lemma property?_fresh (names : Vector String n) (i : Fin n) (key : String) :
    (fresh names)[i].record.property? key = none := by
  rw [← getElem_val _ i i.isLt]
  simp only [fresh, Vector.getElem_map]
  rfl

/-- A session after a run. -/
def after (session : Session n) (steps : List (Step n)) : Session n :=
  ((session.run steps).getLast?.map Outcome.session).getD session

/-- What the steps of a run leave under a key of a context, in order. -/
def written (session : Session n) (i : Fin n) (key : String) :
    List (Step n) → List (Option Property)
  | [] => []
  | first :: others =>
    let later := (session.step first).session.written i key others
    match session.write? i key first with
    | some left => left :: later
    | none => later

/-- A run goes on from the session after its first step. -/
lemma after_cons (session : Session n) (first : Step n) (others : List (Step n)) :
    session.after (first :: others) = (session.step first).session.after others := by
  unfold after
  rw [run, List.getLast?_cons]
  cases ((session.step first).session.run others).getLast? with
  | none => rfl
  | some last => rfl

/-- A run goes on from the session after its first part. -/
lemma after_append (session : Session n) (first second : List (Step n)) :
    session.after (first ++ second) = (session.after first).after second := by
  induction first generalizing session with
  | nil => rfl
  | cons step others ih => rw [List.cons_append, after_cons, after_cons, ih]

/-- After a run there lies under a key what was last left there. -/
lemma property?_after (session : Session n) (i : Fin n) (key : String) (steps : List (Step n)) :
    (session.after steps)[i].record.property? key =
      (session.written i key steps).getLastD (session[i].record.property? key) := by
  induction steps generalizing session with
  | nil => rfl
  | cons first others ih =>
    -- what the first step leaves is what lay there for the others
    rw [after_cons, ih, property?_step, written]
    cases session.write? i key first with
    | none => rfl
    | some left => exact (List.getLastD_cons ..).symm

/-- What is known in a context stays known during a run. -/
lemma knows_after {session : Session n} {i : Fin n} {reference : Reference}
    (steps : List (Step n)) (known : session[i].catalogue.knows reference = true) :
    (session.after steps)[i].catalogue.knows reference = true := by
  induction steps generalizing session with
  | nil => exact known
  | cons first others ih =>
    rw [after_cons]
    exact ih (knows_step first known)

/-- A session differs from an earlier one at most in what lies under one key of one context. -/
structure SameBut (i : Fin n) (key : String) (before after : Session n) : Prop where
  others : ∀ j, j ≠ i → after[j] = before[j]
  catalogue : after[i].catalogue = before[i].catalogue
  name : after[i].record.name = before[i].record.name
  property? : ∀ other, other ≠ key →
    after[i].record.property? other = before[i].record.property? other

/-- A step that puts a property under a key changes nothing else. -/
lemma SameBut.of_put {session : Session n} {step : Step n} {key : String} {property : Property}
    (h : session.change step = .put key property) :
    SameBut step.here key session (session.step step).session where
  others j ne := by rw [getElem_step, if_neg ne]
  catalogue := by
    rw [getElem_step, if_pos rfl, h]
    rfl
  name := by rw [getElem_step, if_pos rfl, Change.name_apply]
  property? other ne := by
    rw [property?_step, write?, if_pos rfl, h, Change.written?, if_neg ne]
    rfl

end Session

/-- The answer of a step that could not be taken. -/
def Answer.failed : Answer → Bool
  | stored (.error _) | text (.error _) | selection (.error _) | validity (.error _)
  | comparison (.error _) | property (.error _) => true
  | _ => false

/-- A step that fails changes nothing. -/
theorem Session.session_step_of_failed {n : Nat} {session : Session n} {step : Step n}
    (failed : (session.step step).answer.failed = true) :
    (session.step step).session = session := by
  apply session_step_of_nothing
  cases step with
  | create i reference => cases failed
  | parse i config value =>
    rw [answer_parse] at failed
    cases read : ((config.readerIn session[i]).readValue value).result with
    | ok selection =>
      rw [read] at failed
      cases failed
    | error rejection => exact change_parse_of_error read
  | putGrouping i config text subToken title =>
    simp only [Session.step] at failed
    simp only [change]
    cases read : (Reader.readExpression ⟨config, none⟩ .lenient text.toList).result with
    | ok root =>
      rw [read] at failed
      cases failed
    | error rejection => rfl
  | copy i j config =>
    simp only [Session.step, config.storedSelection_value, Fin.getElem_fin, getElem_val] at failed
    simp only [change]
    cases held : session[j].record.property? selectionKey with
    | none => rfl
    | some property =>
      cases property with
      | selection selection =>
        rw [held] at failed
        cases failed
      | _ => rfl
  | put i key property => cases failed
  | remove i key => cases failed
  | _ => rfl

/-- A step that only looks at records. -/
def Step.reads {n : Nat} : Step n → Bool
  | text .. | selection .. | validity .. | compare .. | get .. | contains .. | describe .. => true
  | _ => false

/-- A value that is rejected changes nothing, and one that is read changes only the slot of
selections of its own record, to the selection that was read. Steps that only look change nothing,
and no step changes the context of another. So after any run a slot holds what the run last left
there, and that is what every configuration recalls of it. -/
theorem Session.slot_holds_last_written {n : Nat} :
    (∀ (session : Session n) (i : Fin n) (config : Config) (value : String),
      let outcome := session.step (.parse i config value)
      match ((config.readerIn session[i]).readValue value).result with
      | .error rejection =>
        outcome.answer = .stored (.error rejection) ∧ outcome.session = session
      | .ok selection =>
        outcome.answer = .stored (.ok ()) ∧ SameBut i selectionKey session outcome.session ∧
          outcome.session[i].record.property? selectionKey = some (.selection selection)) ∧
    (∀ (session : Session n) (step : Step n), step.reads = true →
      (session.step step).session = session) ∧
    (∀ (session : Session n) (step : Step n) (j : Fin n), j ≠ step.here →
      (session.step step).session[j] = session[j]) ∧
    ∀ (names : Vector String n) (steps : List (Step n)) (i : Fin n),
      let now := (fresh names).after steps
      let slot := ((fresh names).written i selectionKey steps).getLastD none
      now[i].record.property? selectionKey = slot ∧
      ∀ config, (now.step (.selection i config)).answer = .selection (recalled slot) ∧
        (now.step (.text i config)).answer = .text (recalledText slot) := by
  refine ⟨?parse, ?reads, ?others, ?run⟩
  case parse =>
    intro session i config value outcome
    have answer := session.answer_parse i config value
    split
    · next rejection rejected =>
      rw [rejected] at answer
      exact ⟨answer, session_step_of_nothing (change_parse_of_error rejected)⟩
    · next selection read =>
      have put := change_parse_of_ok read
      rw [read] at answer
      exact ⟨answer, SameBut.of_put put, property?_step_of_put put⟩
  case reads =>
    intro session step reads
    refine session_step_of_nothing ?_
    cases step <;> first | rfl | cases reads
  case others =>
    intro session step j other
    rw [getElem_step, if_neg other]
  case run =>
    intro names steps i now slot
    have holds : now[i].record.property? selectionKey = slot := by
      have held := (fresh names).property?_after i selectionKey steps
      rwa [property?_fresh] at held
    refine ⟨holds, fun config => ⟨?_, ?_⟩⟩
    · rw [answer_selection, holds]
    · rw [answer_text, holds]

end ChoiceLang
