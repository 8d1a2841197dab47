import ChoiceLang.Proofs.Spelling

/-!
# Resolution

References are resolved while a text is read, or left for later. A reader of the first kind asks
about each reference as it meets it; what it finds is what a reader of the second kind finds, once
the references met on the way are confirmed. `Resolves` says this of two inquiries, with
`confirmAll` for the questions. The relation is kept when readings follow each other, the
references met adding up in order, so that it goes up from items to levels; for a text that is
accepted they are the references of the tree in written order.

What follows for the outcomes of both readers is gathered in `AgreesWithDeferring`.
-/

namespace ChoiceLang

open Expression

/-- A configuration in which references have to be resolved while a text is read, or need not. -/
def Config.withLiterals (config : Config) (required : Bool) : Config :=
  { config with policy := { config.policy with requiresLiteral := required } }

namespace Expression

/-! ## Inquiries as a monad -/

namespace Inquiry

variable {α β : Type}

instance : LawfulMonad Inquiry :=
  LawfulMonad.mk' Inquiry
    (by rintro α ⟨asked, _ | _⟩ <;> simp [Functor.map, bind, pure])
    (by
      intro α β value next
      change bind (pure value) next = next value
      simp [bind, pure])
    (by
      rintro α β γ ⟨asked, rejection | value⟩ next last
      · rfl
      · change bind (bind ⟨asked, .ok value⟩ next) last = bind ⟨asked, .ok value⟩ fun a =>
          bind (next a) last
        cases later : (next value).result <;> simp [bind, later])

/-- An inquiry without questions is a value or a rejection. -/
lemma eq_of_asked_eq_nil {inquiry : Inquiry α} (h : inquiry.asked = []) :
    (∃ value, inquiry = Pure.pure value) ∨ ∃ rejection, inquiry = reject rejection := by
  obtain ⟨asked, rejection | value⟩ := inquiry
  · obtain rfl : asked = [] := h
    exact .inr ⟨rejection, rfl⟩
  · obtain rfl : asked = [] := h
    exact .inl ⟨value, rfl⟩

/-- Nothing is asked behind a rejection. -/
lemma reject_bind (rejection : Rejection) (next : α → Inquiry β) :
    reject rejection >>= next = reject rejection := rfl

end Inquiry

end Expression

/-! ## Confirming references -/

/-- Asks about a reference, and rejects it if it names no existing object. Without an oracle there
is no one to ask. -/
def confirm (oracle : Option Oracle) (reference : Reference) : Inquiry Unit :=
  match oracle with
  | none => .reject (.unresolvedLiteral reference)
  | some oracle =>
    let question := oracle.ask reference
    ⟨[question], if question.known then .ok () else .error (.unresolvedLiteral reference)⟩

/-- Confirms references in order, up to the first that cannot be. -/
def confirmAll (oracle : Option Oracle) : List Reference → Inquiry Unit
  | [] => return ()
  | reference :: others => do
    confirm oracle reference
    confirmAll oracle others

section

variable {oracle : Oracle} {references : List Reference} {reference : Reference}

/-- References in a row are confirmed one part after the other. -/
lemma confirmAll_append (oracle : Option Oracle) (first second : List Reference) :
    confirmAll oracle (first ++ second) =
      (do confirmAll oracle first; confirmAll oracle second) := by
  induction first with
  | nil => exact (pure_bind () fun _ => confirmAll oracle second).symm
  | cons reference others ih =>
    rw [List.cons_append, confirmAll, confirmAll, ih, bind_assoc]

/-- A single reference is confirmed by one question. -/
lemma confirmAll_singleton (oracle : Option Oracle) (reference : Reference) :
    confirmAll oracle [reference] = confirm oracle reference :=
  bind_pure (confirm oracle reference)

/-- References that are all known are confirmed, with one question about each. -/
lemma confirmAll_of_known (known : ∀ reference ∈ references, oracle reference = true) :
    confirmAll (some oracle) references = ⟨references.map oracle.ask, .ok ()⟩ := by
  induction references with
  | nil => rfl
  | cons reference others ih =>
    obtain ⟨here, there⟩ := List.forall_mem_cons.1 known
    have confirmed : confirm (some oracle) reference = ⟨[oracle.ask reference], .ok ()⟩ := by
      simp [confirm, Oracle.ask, here]
    rw [confirmAll, confirmed, ih there]
    rfl

/-- The first unknown reference is rejected, and no question follows the one about it. -/
lemma confirmAll_of_unknown (known : ∀ reference ∈ references, oracle reference = true)
    (unknown : oracle reference = false) (others : List Reference) :
    confirmAll (some oracle) (references ++ reference :: others) =
      ⟨references.map oracle.ask ++ [oracle.ask reference],
        .error (.unresolvedLiteral reference)⟩ := by
  have rejected : confirm (some oracle) reference =
      ⟨[oracle.ask reference], .error (.unresolvedLiteral reference)⟩ := by
    simp [confirm, Oracle.ask, unknown]
  rw [confirmAll_append, confirmAll_of_known known, confirmAll, rejected]
  rfl

/-- References are all known, or there is a first that is not. -/
lemma Oracle.knows_or_not (oracle : Oracle) (references : List Reference) :
    (∀ reference ∈ references, oracle reference = true) ∨
      ∃ known reference others, references = known ++ reference :: others ∧
        (∀ reference ∈ known, oracle reference = true) ∧ oracle reference = false := by
  cases found : references.find? fun reference => !oracle reference with
  | none =>
    have known := List.find?_eq_none.1 found
    exact .inl fun reference mem => by simpa using known reference mem
  | some reference =>
    obtain ⟨unknown, known, others, rfl, allKnown⟩ := List.find?_eq_some_iff_append.1 found
    refine .inr ⟨known, reference, others, rfl, fun reference mem => ?_, by simpa using unknown⟩
    simpa using allKnown reference mem

end

/-! ## Two ways to read -/

/-- One inquiry leaves references alone; another, for any oracle, finds the same once the references
met on the way are confirmed. For a value those are the references in it. -/
structure Resolves {α : Type} (referencesIn : α → List Reference) (deferred : Inquiry α)
    (resolved : Option Oracle → Inquiry α) : Prop where
  silent : deferred.asked = []
  confirms : ∃ met,
    (∀ oracle, resolved oracle = (do confirmAll oracle met; deferred)) ∧
      ∀ value, deferred.result = .ok value → met = referencesIn value

section

variable {α β γ : Type} {referencesIn : α → List Reference}

/-- What asks nothing and finds nothing with references in it is the same for both readers. -/
lemma Resolves.refl {inquiry : Inquiry α} (silent : inquiry.asked = [])
    (free : ∀ value, inquiry.result = .ok value → referencesIn value = []) :
    Resolves referencesIn inquiry fun _ => inquiry := by
  refine ⟨silent, [], fun oracle => ?_, fun value found => (free value found).symm⟩
  exact (pure_bind (m := Inquiry) () fun _ => inquiry).symm

/-- When readings follow each other, the references met by the second come after those met by the
first. -/
lemma Resolves.bind {deferred : Inquiry α} {resolved : Option Oracle → Inquiry α}
    {next : α → Inquiry β} {next' : Option Oracle → α → Inquiry β}
    {later : α → β → List Reference} {referencesInBoth : β → List Reference}
    (first : Resolves referencesIn deferred resolved)
    (second : ∀ a, deferred.result = .ok a →
      Resolves (later a) (next a) fun oracle => next' oracle a)
    (total : ∀ a b, deferred.result = .ok a → (next a).result = .ok b →
      referencesInBoth b = referencesIn a ++ later a b) :
    Resolves referencesInBoth (deferred >>= next)
      fun oracle => resolved oracle >>= next' oracle := by
  obtain ⟨silent, met, resolved_eq, met_eq⟩ := first
  -- the first reading asks nothing, so that it is no more than its value or its rejection
  rcases Inquiry.eq_of_asked_eq_nil silent with ⟨a, rfl⟩ | ⟨rejection, rfl⟩
  · obtain ⟨silentNext, metNext, next_eq, metNext_eq⟩ := second a rfl
    rw [pure_bind]
    refine ⟨silentNext, met ++ metNext, fun oracle => ?_, fun b found => ?_⟩
    · rw [resolved_eq, confirmAll_append, bind_assoc, bind_assoc, pure_bind, next_eq]
    · rw [met_eq a rfl, metNext_eq b found, total a b rfl found]
  · refine ⟨rfl, met, fun oracle => ?_, nofun⟩
    rw [resolved_eq, bind_assoc, Inquiry.reject_bind, Inquiry.reject_bind]

/-- A reading without references comes first in both readers. -/
lemma Resolves.bind_left {inquiry : Inquiry γ} {next : γ → Inquiry α}
    {next' : Option Oracle → γ → Inquiry α} (silent : inquiry.asked = [])
    (second : ∀ c, inquiry.result = .ok c →
      Resolves referencesIn (next c) fun oracle => next' oracle c) :
    Resolves referencesIn (inquiry >>= next) fun oracle => inquiry >>= next' oracle := by
  have first : Resolves (fun _ => []) inquiry fun _ => inquiry := .refl silent fun _ _ => rfl
  exact first.bind second fun _ _ _ _ => rfl

/-- A reading that meets no more references comes last in both readers. -/
lemma Resolves.bind_right {deferred : Inquiry α} {resolved : Option Oracle → Inquiry α}
    {next : α → Inquiry β} {referencesInBoth : β → List Reference}
    (first : Resolves referencesIn deferred resolved)
    (silent : ∀ a, deferred.result = .ok a → (next a).asked = [])
    (kept : ∀ a b, deferred.result = .ok a → (next a).result = .ok b →
      referencesInBoth b = referencesIn a) :
    Resolves referencesInBoth (deferred >>= next) fun oracle => resolved oracle >>= next := by
  have second (a : α) (found : deferred.result = .ok a) :
      Resolves (fun _ => []) (next a) fun _ => next a := .refl (silent a found) fun _ _ => rfl
  refine first.bind second fun a b found foundNext => ?_
  rw [kept a b found foundNext, List.append_nil]

/-- The references met in a list of readings are those met in each, in order. -/
lemma Resolves.forEach {deferred : γ → Inquiry α} {resolved : Option Oracle → γ → Inquiry α}
    {values : List γ}
    (h : ∀ value ∈ values, Resolves referencesIn (deferred value) fun oracle =>
      resolved oracle value) :
    Resolves (fun found => found.flatMap referencesIn) (Inquiry.forEach deferred values)
      fun oracle => Inquiry.forEach (resolved oracle) values := by
  induction values with
  | nil =>
    apply Resolves.refl rfl
    rintro found ⟨⟩
    rfl
  | cons value others ih =>
    obtain ⟨here, there⟩ := List.forall_mem_cons.1 h
    have rest (first : α) : Resolves (fun found => found.tail.flatMap referencesIn)
        (Inquiry.forEach deferred others >>= fun later => return first :: later)
        fun oracle =>
          Inquiry.forEach (resolved oracle) others >>= fun later => return first :: later := by
      apply (ih there).bind_right
      · exact fun _ _ => rfl
      · rintro later found _ ⟨⟩
        rfl
    refine here.bind (fun first _ => rest first) fun first found _ foundAll => ?_
    obtain ⟨later, _, ⟨⟩⟩ := Inquiry.result_bind_eq_ok_iff.1 foundAll
    exact List.flatMap_cons

end

/-- A group that is built has the terms that it is built of. -/
lemma Permissions.terms_of_buildGroup {permitted : Permissions} {mode : Mode} {operator : Operator}
    {terms : List Choice} {group : Group}
    (h : permitted.buildGroup mode operator terms = .ok group) : group.terms = terms := by
  rw [eq_group_of_buildGroup h]
  rfl

/-! ## Readers -/

/-- A reader that leaves references for later. -/
def Config.deferring (config : Config) : Reader := ⟨config.withLiterals false, none⟩

/-- A reader that resolves references by an oracle. -/
def Config.resolving (config : Config) (oracle : Option Oracle) : Reader :=
  ⟨config.withLiterals true, oracle⟩

namespace Reader

variable {config : Config} {scope : Scope} {mode : Mode}

/-- A reference is taken once it is confirmed. -/
lemma resolves_readReference (name : List Char) :
    Resolves Choice.references (config.deferring.readReference scope name)
      fun oracle => (config.resolving oracle).readReference scope name := by
  refine ⟨rfl, [⟨scope.className, String.ofList name⟩], fun oracle => ?_, ?_⟩
  · rw [confirmAll_singleton]
    cases oracle with
    | none => rfl
    | some oracle =>
      change Inquiry.mk [oracle.ask ⟨scope.className, String.ofList name⟩] _ = _
      cases known : oracle ⟨scope.className, String.ofList name⟩ <;>
        simp [confirm, Oracle.ask, known] <;> rfl
  · rintro choice ⟨⟩
    rfl

/-- Of the texts without a bracket only references are resolved. -/
lemma resolves_readPlain (item name : List Char) (negated : Bool) :
    Resolves Choice.references (config.deferring.readPlain scope item negated name)
      fun oracle => (config.resolving oracle).readPlain scope item negated name := by
  have same (oracle : Option Oracle) :
      (config.resolving oracle).config.bareQualifier? (String.ofList name) =
        config.deferring.config.bareQualifier? (String.ofList name) := rfl
  unfold readPlain
  simp only [same]
  cases config.deferring.config.bareQualifier? (String.ofList name) with
  | some qualifier =>
    dsimp only
    split
    · exact .refl rfl nofun
    · apply Resolves.refl rfl
      rintro choice ⟨⟩
      rfl
  | none =>
    cases negated with
    | true => exact .refl rfl nofun
    | false => exact resolves_readReference name

section

variable {deferredBody : LevelReader} {resolvedBody : Option Oracle → LevelReader}
variable (h : ∀ scope text, Resolves Grouping.references (deferredBody scope text) fun oracle =>
  resolvedBody oracle scope text)

include h

/-- The references of a qualifier are those of its body. -/
lemma resolves_readBracketed (item name after : List Char) (negated : Bool) :
    Resolves Choice.references
      (config.deferring.readBracketed deferredBody scope item negated name after)
      fun oracle =>
        (config.resolving oracle).readBracketed (resolvedBody oracle) scope item negated name
          after := by
  unfold readBracketed
  apply Resolves.bind_left rfl
  intro qualifier _
  apply Resolves.bind_left rfl
  intro inner _
  apply (h (scope.within qualifier) inner).bind_right
  · intro body _
    split
    · rfl
    · rfl
  · -- negation is judged after the body, when its references have been met
    intro body choice _ found
    split at found
    · cases found
    · cases found
      exact Choice.referencesOf_eq_flatMap body.terms

/-- An item is resolved with its references deferred. -/
lemma resolves_readItem (item : List Char) :
    Resolves Choice.references (config.deferring.readItem deferredBody scope item)
      fun oracle => (config.resolving oracle).readItem (resolvedBody oracle) scope item := by
  unfold readItem
  cases Form.ofText item with
  | all =>
    apply Resolves.refl rfl
    rintro choice ⟨⟩
    rfl
  | types negated list =>
    apply Resolves.refl rfl
    intro choice found
    obtain ⟨filter, _, rfl⟩ := Except.map_eq_ok_iff.1 found
    rfl
  | bracketed negated name after => exact resolves_readBracketed h item name after negated
  | plain negated name => exact resolves_readPlain item name negated

/-- A segment is resolved with its references deferred. -/
lemma resolves_readSegment (segment : List Char) :
    Resolves Choice.references (config.deferring.readSegment mode deferredBody scope segment)
      fun oracle =>
        (config.resolving oracle).readSegment mode (resolvedBody oracle) scope segment := by
  unfold readSegment
  apply Resolves.bind_left rfl
  intro items _
  apply (Resolves.forEach fun item _ => resolves_readItem h item).bind_right
  · intro choices _
    split
    · rfl
    · rfl
  · intro choices term _ found
    -- a single item is not put into a group
    split at found
    · cases found
      exact (List.flatMap_singleton ..).symm
    · obtain ⟨group, built, rfl⟩ := Except.map_eq_ok_iff.1 found
      rw [← Permissions.terms_of_buildGroup built]
      exact Choice.referencesOf_eq_flatMap group.terms

/-- A level is resolved with its references deferred. -/
lemma resolves_readLevel (scope : Scope) (text : List Char) :
    Resolves Grouping.references (config.deferring.readLevel mode deferredBody scope text)
      fun oracle => (config.resolving oracle).readLevel mode (resolvedBody oracle) scope text := by
  unfold readLevel
  apply Resolves.bind_left rfl
  intro segments _
  apply (Resolves.forEach fun segment _ => resolves_readSegment h segment).bind_right
  · exact fun _ _ => rfl
  · intro terms group _ built
    rw [← Permissions.terms_of_buildGroup built]
    rfl

end

/-- Levels meet their references in written order, with any room for bodies. -/
lemma resolves_readWithin (config : Config) (mode : Mode) (room : Nat) (scope : Scope)
    (text : List Char) :
    Resolves Grouping.references (config.deferring.readWithin mode room scope text)
      fun oracle => (config.resolving oracle).readWithin mode room scope text := by
  induction room generalizing scope text with
  | zero =>
    -- a body that there is no room for is rejected before a reference in it is met
    apply resolves_readLevel
    exact fun _ _ => .refl rfl nofun
  | succ room ih => exact resolves_readLevel ih scope text

/-- An expression is resolved with its references deferred. -/
lemma resolves_readExpression (config : Config) (mode : Mode) (text : List Char) :
    Resolves Grouping.references (config.deferring.readExpression mode text)
      fun oracle => (config.resolving oracle).readExpression mode text :=
  resolves_readWithin config mode nestingLimit config.scope text

/-- A value is resolved with its references deferred. -/
lemma resolves_readValue (config : Config) (value : String) :
    Resolves Selection.references (config.deferring.readValue value)
      fun oracle => (config.resolving oracle).readValue value := by
  unfold readValue
  apply Resolves.bind_left rfl
  intro text _
  apply (resolves_readExpression config .strict text).bind_right
  · exact fun _ _ => rfl
  · rintro root selection _ ⟨⟩
    rfl

/-- A reader that leaves references for later does not look at its oracle. -/
lemma readWithin_withLiterals_false (config : Config) (oracle : Option Oracle) (mode : Mode)
    (room : Nat) :
    readWithin ⟨config.withLiterals false, oracle⟩ mode room =
      config.deferring.readWithin mode room := by
  induction room with
  | zero => rfl
  | succ room ih =>
    rw [readWithin, readWithin, ih]
    rfl

/-- Where references need not be known, those of an expression are deferred. -/
lemma readExpression_withLiterals_false (config : Config) (oracle : Option Oracle) (mode : Mode)
    (text : List Char) :
    readExpression ⟨config.withLiterals false, oracle⟩ mode text =
      config.deferring.readExpression mode text := by
  unfold readExpression
  rw [readWithin_withLiterals_false]
  rfl

/-- Where references need not be known, those of a value are deferred. -/
lemma readValue_withLiterals_false (config : Config) (oracle : Option Oracle) (value : String) :
    readValue ⟨config.withLiterals false, oracle⟩ value = config.deferring.readValue value := by
  simp only [readValue, readExpression_withLiterals_false]
  rfl

end Reader

/-! ## Outcomes -/

section

variable {α : Type} {referencesIn : α → List Reference} {deferred : Inquiry α}
variable {resolved : Option Oracle → Inquiry α}

/-- What is found by an oracle is what is found without, if all references met are known, and else
the first that is not. -/
lemma Resolves.outcome (h : Resolves referencesIn deferred resolved) (oracle : Oracle) :
    ∃ met, (∀ value, deferred.result = .ok value → met = referencesIn value) ∧
      ((∀ reference ∈ met, oracle reference = true) ∧
          resolved (some oracle) = ⟨met.map oracle.ask, deferred.result⟩ ∨
        ∃ known reference others, met = known ++ reference :: others ∧
          (∀ reference ∈ known, oracle reference = true) ∧ oracle reference = false ∧
          resolved (some oracle) = ⟨known.map oracle.ask ++ [oracle.ask reference],
            .error (.unresolvedLiteral reference)⟩) := by
  obtain ⟨silent, met, resolved_eq, met_eq⟩ := h
  refine ⟨met, met_eq, ?_⟩
  rcases oracle.knows_or_not met with known | ⟨known, reference, others, rfl, allKnown, unknown⟩
  · refine .inl ⟨known, ?_⟩
    rw [resolved_eq, confirmAll_of_known known]
    change Inquiry.mk (met.map oracle.ask ++ deferred.asked) deferred.result = _
    rw [silent, List.append_nil]
  · refine .inr ⟨known, reference, others, rfl, allKnown, unknown, ?_⟩
    rw [resolved_eq, confirmAll_of_unknown allKnown unknown]
    rfl

/-- Without an oracle nothing is asked, and what is found is what is found by one that knows
nothing. -/
lemma Resolves.without_oracle (h : Resolves referencesIn deferred resolved) :
    (resolved none).asked = [] ∧
      (resolved none).result = (resolved (some fun _ => false)).result := by
  obtain ⟨silent, met, resolved_eq, _⟩ := h
  rw [resolved_eq, resolved_eq]
  cases met with
  | nil => exact ⟨silent, rfl⟩
  | cons reference others => exact ⟨rfl, rfl⟩

/-- What is accepted by an oracle is what is accepted without, if its references are known. -/
lemma Resolves.result_eq_ok_iff (h : Resolves referencesIn deferred resolved) {oracle : Oracle}
    {value : α} :
    (resolved (some oracle)).result = .ok value ↔
      deferred.result = .ok value ∧ ∀ reference ∈ referencesIn value, oracle reference = true := by
  obtain ⟨met, met_eq, ⟨known, eq⟩ | ⟨known, reference, others, rfl, -, unknown, eq⟩⟩ :=
    h.outcome oracle
  · rw [eq]
    constructor
    · intro found
      exact ⟨found, met_eq value found ▸ known⟩
    · exact And.left
  · rw [eq]
    constructor
    · nofun
    · rintro ⟨found, allKnown⟩
      have mem : reference ∈ referencesIn value := by
        rw [← met_eq value found]
        exact List.mem_append_right known List.mem_cons_self
      rw [allKnown reference mem] at unknown
      cases unknown

/-- What is rejected for a reference is rejected for the first that is unknown. -/
lemma Resolves.result_eq_unresolved (h : Resolves referencesIn deferred resolved)
    {oracle : Oracle} {value : α} {reference : Reference} (found : deferred.result = .ok value)
    (first : (referencesIn value).find? (fun reference => !oracle reference) = some reference) :
    (resolved (some oracle)).result = .error (.unresolvedLiteral reference) := by
  obtain ⟨met, met_eq, ⟨known, eq⟩ | ⟨known, other, others, rfl, allKnown, unknown, eq⟩⟩ :=
    h.outcome oracle
  · rw [← met_eq value found] at first
    have isUnknown := List.find?_some first
    rw [known reference (List.mem_of_find?_eq_some first)] at isUnknown
    cases isUnknown
  · have noneBefore : known.find? (fun reference => !oracle reference) = none := by
      rw [List.find?_eq_none]
      intro reference mem
      simp [allKnown reference mem]
    have here : (other :: others).find? (fun reference => !oracle reference) = some other :=
      List.find?_cons_of_pos (by rw [unknown, Bool.not_false])
    rw [← met_eq value found, List.find?_append, noneBefore, Option.none_or, here] at first
    rw [eq, Option.some.inj first]

/-- Each question that is followed by another has been answered with yes. -/
lemma Resolves.pairwise_asked (h : Resolves referencesIn deferred resolved)
    (oracle : Option Oracle) :
    (resolved oracle).asked.Pairwise fun earlier _ => earlier.known = true := by
  have yes {oracle : Oracle} {known : List Reference}
      (allKnown : ∀ reference ∈ known, oracle reference = true) :
      ∀ question ∈ known.map oracle.ask, question.known = true := List.forall_mem_map.2 allKnown
  cases oracle with
  | none =>
    rw [h.without_oracle.1]
    exact List.Pairwise.nil
  | some oracle =>
    obtain ⟨met, -, ⟨known, eq⟩ | ⟨known, reference, others, -, allKnown, -, eq⟩⟩ :=
      h.outcome oracle
    · rw [eq]
      exact List.pairwise_of_forall_mem_list fun question mem _ _ => yes known question mem
    · rw [eq]
      refine List.pairwise_append.2 ⟨?_, List.pairwise_singleton .., ?_⟩
      · exact List.pairwise_of_forall_mem_list fun question mem _ _ => yes allKnown question mem
      · exact fun question mem _ _ => yes allKnown question mem

end

/-- A value is accepted by an oracle if it is accepted without, and its references are known where
they have to be. -/
lemma Reader.result_readValue_eq_ok_iff_known {config : Config} {oracle : Oracle} {value : String}
    {selection : Selection} :
    (Reader.readValue ⟨config, some oracle⟩ value).result = .ok selection ↔
      (config.deferring.readValue value).result = .ok selection ∧
        ∀ reference ∈ selection.references,
          config.policy.requiresLiteral = true → oracle reference = true := by
  have same : (⟨config, some oracle⟩ : Reader) =
      ⟨config.withLiterals config.policy.requiresLiteral, some oracle⟩ := rfl
  cases literal : config.policy.requiresLiteral with
  | false =>
    rw [same, literal, readValue_withLiterals_false]
    simp
  | true =>
    rw [same, literal]
    change ((config.resolving (some oracle)).readValue value).result = .ok selection ↔ _
    rw [(resolves_readValue config value).result_eq_ok_iff]
    simp

/-- How reading with references resolved agrees with leaving them for later, by the outcomes of both
for any oracle or none. -/
structure AgreesWithDeferring {α : Type} (referencesIn : α → List Reference)
    (deferred resolved : Option Oracle → Inquiry α) : Prop where
  indifferent : ∀ oracle, deferred oracle = deferred none
  silent : (deferred none).asked = []
  ok_iff : ∀ (oracle : Oracle) (value : α),
    (resolved (some oracle)).result = .ok value ↔
      (deferred none).result = .ok value ∧ ∀ reference ∈ referencesIn value, oracle reference = true
  first_unknown : ∀ (oracle : Oracle) (value : α) (reference : Reference),
    (deferred none).result = .ok value →
    (referencesIn value).find? (fun reference => !oracle reference) = some reference →
    (resolved (some oracle)).result = .error (.unresolvedLiteral reference)
  rejected : ∀ (oracle : Oracle) (rejection : Rejection),
    (deferred none).result = .error rejection →
    (resolved (some oracle)).result = .error rejection ∨
      ∃ reference, (resolved (some oracle)).result = .error (.unresolvedLiteral reference)
  without_oracle : (resolved none).asked = [] ∧
    (resolved none).result = (resolved (some fun _ => false)).result
  asked_of_ok : ∀ (oracle : Oracle) (value : α),
    (resolved (some oracle)).result = .ok value →
    (resolved (some oracle)).asked = (referencesIn value).map oracle.ask
  pairwise_asked : ∀ oracle, (resolved oracle).asked.Pairwise fun earlier _ => earlier.known = true
  unique : ∀ (first second : Option Oracle) (a b : α),
    (resolved first).result = .ok a → (resolved second).result = .ok b → a = b

/-- The outcomes of two ways to read that differ by the references met. -/
lemma Resolves.agrees {α : Type} {referencesIn : α → List Reference}
    {deferred resolved : Option Oracle → Inquiry α}
    (indifferent : ∀ oracle, deferred oracle = deferred none)
    (h : Resolves referencesIn (deferred none) resolved) :
    AgreesWithDeferring referencesIn deferred resolved where
  indifferent := indifferent
  silent := h.silent
  ok_iff _ _ := h.result_eq_ok_iff
  first_unknown _ _ _ := h.result_eq_unresolved
  rejected oracle rejection failed := by
    obtain ⟨met, -, ⟨-, eq⟩ | ⟨known, reference, others, -, -, -, eq⟩⟩ := h.outcome oracle
    · rw [eq]
      exact .inl failed
    · rw [eq]
      exact .inr ⟨reference, rfl⟩
  without_oracle := h.without_oracle
  asked_of_ok oracle value found := by
    obtain ⟨met, met_eq, ⟨-, eq⟩ | ⟨known, reference, others, -, -, -, eq⟩⟩ := h.outcome oracle
    · rw [eq] at found ⊢
      rw [met_eq value found]
    · rw [eq] at found
      cases found
  pairwise_asked := h.pairwise_asked
  unique := by
    have deferred_eq {oracle : Option Oracle} {value : α}
        (found : (resolved oracle).result = .ok value) : (deferred none).result = .ok value := by
      cases oracle with
      | none => exact (h.result_eq_ok_iff.1 (h.without_oracle.2 ▸ found)).1
      | some oracle => exact (h.result_eq_ok_iff.1 found).1
    intro first second a b foundFirst foundSecond
    exact Except.ok.inj ((deferred_eq foundFirst).symm.trans (deferred_eq foundSecond))

/-- Resolving references while a text is read agrees with leaving them for later, for expressions
read in either mode and for values. -/
theorem reading_agrees_with_deferring (config : Config) :
    (∀ mode text,
      AgreesWithDeferring Grouping.references
        (fun oracle => Reader.readExpression ⟨config.withLiterals false, oracle⟩ mode text)
        (fun oracle => Reader.readExpression ⟨config.withLiterals true, oracle⟩ mode text)) ∧
    ∀ value,
      AgreesWithDeferring Selection.references
        (fun oracle => Reader.readValue ⟨config.withLiterals false, oracle⟩ value)
        (fun oracle => Reader.readValue ⟨config.withLiterals true, oracle⟩ value) := by
  refine ⟨fun mode text => ?_, fun value => ?_⟩
  · have resolves := Reader.resolves_readExpression config mode text
    refine Resolves.agrees (fun oracle => ?_) resolves
    exact Reader.readExpression_withLiterals_false config oracle mode text
  · have resolves := Reader.resolves_readValue config value
    refine Resolves.agrees (fun oracle => ?_) resolves
    exact Reader.readValue_withLiterals_false config oracle value

end ChoiceLang
