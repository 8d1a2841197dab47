import ChoiceLang.Context
import ChoiceLang.Proofs.Resolution

/-!
# Validation

The references of a selection are checked one by one. A place in a tree is the list of the positions
of the terms on the way to it, and `Choice.RefersAt` says which reference stands where. To go
through a tree depth first and in written order is to go through its places in lexicographic order:
`Choice.sites` does so, and the references at these places are those that are checked.

What is asked and reported then follows for any list of references. A report says all that a check
says; knowing more shortens it, and an oracle that learns what is reported has nothing to report.
-/

namespace ChoiceLang

open Expression

/-! ## Places of references -/

namespace Choice

/-- A reference stands at a place of a choice. -/
inductive RefersAt (r : Reference) : Choice → List Nat → Prop where
  | here :
    RefersAt r (reference r) []
  | group {inner : Group} {position term place} :
    inner.terms[position]? = some term →
    RefersAt r term place →
    RefersAt r (group inner) (position :: place)
  | body {name negated} {body : Group} {position term place} :
    body.terms[position]? = some term →
    RefersAt r term place →
    RefersAt r (qualifier name negated body) (position :: place)

mutual

/-- The references in a choice with their places, in written order. -/
def sites : Choice → List (List Nat × Reference)
  | all => []
  | reference r => [([], r)]
  | types _ => []
  | bareQualifier .. => []
  | qualifier _ _ ⟨_, terms, _⟩ => sitesFrom 0 terms
  | group ⟨_, terms, _⟩ => sitesFrom 0 terms

/-- The references in the terms from a position on with their places, in written order. -/
def sitesFrom (position : Nat) : List Choice → List (List Nat × Reference)
  | [] => []
  | term :: others =>
    (term.sites.map fun site => (position :: site.1, site.2)) ++ sitesFrom (position + 1) others

end

section

variable {terms : List Choice}

/-- The references at the places of terms are the references in them. -/
lemma map_sitesFrom (ih : ∀ term ∈ terms, term.sites.map Prod.snd = term.references)
    (position : Nat) : (sitesFrom position terms).map Prod.snd = referencesOf terms := by
  induction terms generalizing position with
  | nil => rfl
  | cons term others ihTerms =>
    obtain ⟨here, there⟩ := List.forall_mem_cons.1 ih
    rw [sitesFrom, List.map_append, List.map_map, referencesOf, ihTerms there, ← here]
    rfl

/-- The references at the places of a choice are the references in it. -/
lemma map_sites (choice : Choice) : choice.sites.map Prod.snd = choice.references := by
  induction choice using induct with
  | all => rfl
  | reference => rfl
  | types => rfl
  | bareQualifier => rfl
  | qualifier name negated body ih => exact map_sitesFrom ih 0
  | group inner ih => exact map_sitesFrom ih 0

/-- The places of terms are those within each term behind its position. -/
lemma mem_sitesFrom {position : Nat} {site : List Nat × Reference} :
    site ∈ sitesFrom position terms ↔
      ∃ i term rest, terms[i]? = some term ∧ (rest, site.2) ∈ term.sites ∧
        site.1 = (position + i) :: rest := by
  induction terms generalizing position with
  | nil => simp [sitesFrom]
  | cons term others ih =>
    rw [sitesFrom, List.mem_append, List.mem_map, ih]
    constructor
    · rintro (⟨⟨rest, r⟩, mem, rfl⟩ | ⟨i, later, rest, found, mem, eq⟩)
      · exact ⟨0, term, rest, rfl, mem, rfl⟩
      · exact ⟨i + 1, later, rest, found, mem, by rw [eq, Nat.add_assoc, Nat.add_comm 1]⟩
    · rintro ⟨i, found, rest, at_i, mem, eq⟩
      cases i with
      | zero =>
        obtain rfl := Option.some.inj at_i
        exact .inl ⟨(rest, site.2), mem, Prod.ext eq.symm rfl⟩
      | succ i => exact .inr ⟨i, found, rest, at_i, mem, by rw [eq, Nat.add_assoc, Nat.add_comm 1]⟩

/-- The places of the terms of a group are those within each term. -/
lemma mem_sitesFrom_zero {place : List Nat} {r : Reference}
    (ih : ∀ term ∈ terms, ∀ place, (place, r) ∈ term.sites ↔ RefersAt r term place) :
    (place, r) ∈ sitesFrom 0 terms ↔
      ∃ position term rest, terms[position]? = some term ∧ RefersAt r term rest ∧
        place = position :: rest := by
  rw [mem_sitesFrom]
  refine exists_congr fun i => exists_congr fun term => exists_congr fun rest => ?_
  rw [Nat.zero_add]
  refine and_congr_right fun found => and_congr_left fun _ => ?_
  exact ih term (List.mem_of_getElem? found) rest

/-- The places of a choice that are listed are those at which a reference stands. -/
lemma mem_sites {choice : Choice} {place : List Nat} {r : Reference} :
    (place, r) ∈ choice.sites ↔ RefersAt r choice place := by
  induction choice using induct generalizing place with
  | all => exact iff_of_false List.not_mem_nil nofun
  | reference r' =>
    rw [sites, List.mem_singleton, Prod.mk.injEq]
    constructor
    · rintro ⟨rfl, rfl⟩
      exact .here
    · intro refers
      cases refers
      exact ⟨rfl, rfl⟩
  | types => exact iff_of_false List.not_mem_nil nofun
  | bareQualifier => exact iff_of_false List.not_mem_nil nofun
  | qualifier name negated body ih =>
    refine (mem_sitesFrom_zero fun term mem _ => ih term mem).trans ?_
    constructor
    · rintro ⟨position, term, rest, found, refers, rfl⟩
      exact .body found refers
    · intro refers
      cases refers with
      | body found refers => exact ⟨_, _, _, found, refers, rfl⟩
  | group inner ih =>
    refine (mem_sitesFrom_zero fun term mem _ => ih term mem).trans ?_
    constructor
    · rintro ⟨position, term, rest, found, refers, rfl⟩
      exact .group found refers
    · intro refers
      cases refers with
      | group found refers => exact ⟨_, _, _, found, refers, rfl⟩

/-- The places of terms come in order if they do within each term. -/
lemma pairwise_sitesFrom (ih : ∀ term ∈ terms, (term.sites.map Prod.fst).Pairwise (· < ·))
    (position : Nat) : ((sitesFrom position terms).map Prod.fst).Pairwise (· < ·) := by
  induction terms generalizing position with
  | nil => exact List.Pairwise.nil
  | cons term others ihTerms =>
    obtain ⟨here, there⟩ := List.forall_mem_cons.1 ih
    rw [sitesFrom, List.map_append, List.pairwise_append]
    refine ⟨?_, ihTerms there (position + 1), ?_⟩
    · rw [List.map_map, List.pairwise_map]
      refine (List.pairwise_map.1 here).imp fun less => ?_
      exact List.cons_lt_cons_iff.2 (.inr ⟨rfl, less⟩)
    · -- a later term stands at a higher position
      intro first memFirst second memSecond
      obtain ⟨_, within, rfl⟩ := List.mem_map.1 memFirst
      obtain ⟨site, _, rfl⟩ := List.mem_map.1 within
      obtain ⟨later, behind, rfl⟩ := List.mem_map.1 memSecond
      obtain ⟨i, _, rest, _, _, eq⟩ := mem_sitesFrom.1 behind
      rw [eq]
      exact List.cons_lt_cons_iff.2 (.inl (by omega))

end

/-- The places of a choice are listed in order. -/
lemma pairwise_sites (choice : Choice) : (choice.sites.map Prod.fst).Pairwise (· < ·) := by
  induction choice using induct with
  | all => exact List.Pairwise.nil
  | reference => exact List.pairwise_singleton ..
  | types => exact List.Pairwise.nil
  | bareQualifier => exact List.Pairwise.nil
  | qualifier name negated body ih => exact pairwise_sitesFrom ih 0
  | group inner ih => exact pairwise_sitesFrom ih 0

end Choice

/-! ## Questions -/

/-- All references are asked for, in order. -/
lemma asked_unknown (oracle : Oracle) (references : List Reference) :
    (oracle.unknown references).asked = references.map oracle.ask := by
  induction references with
  | nil => rfl
  | cons reference others ih => exact congrArg (oracle.ask reference :: ·) ih

/-- Questions about references, in order and up to the first that is answered with no. -/
inductive UpToUnknown (oracle : Oracle) : List Reference → List Question → Prop where
  | all {references} :
    (∀ reference ∈ references, oracle reference = true) →
    UpToUnknown oracle references (references.map oracle.ask)
  | unknown {known reference others} :
    (∀ reference ∈ known, oracle reference = true) →
    oracle reference = false →
    UpToUnknown oracle (known ++ reference :: others) ((known ++ [reference]).map oracle.ask)

/-- A check asks what confirming the references asks. -/
lemma asked_knowsAll (oracle : Oracle) (references : List Reference) :
    (oracle.knowsAll references).asked = (confirmAll (some oracle) references).asked := by
  induction references with
  | nil => rfl
  | cons reference others ih =>
    cases known : oracle reference with
    | true =>
      have confirmed : (confirm (some oracle) reference).result = .ok () := by
        simp [confirm, Oracle.ask, known]
      rw [confirmAll, Inquiry.asked_bind_of_ok confirmed, ← ih]
      simp [Oracle.knowsAll, confirm, Oracle.ask, known]
    | false =>
      have rejected : (confirm (some oracle) reference).result =
          .error (.unresolvedLiteral reference) := by
        simp [confirm, Oracle.ask, known]
      -- no further question is asked behind an unknown reference
      rw [confirmAll, Inquiry.asked_bind_of_error rejected]
      simp [Oracle.knowsAll, confirm, Oracle.ask, known]

/-- A check asks for the references up to the first unknown one. -/
lemma upToUnknown_knowsAll (oracle : Oracle) (references : List Reference) :
    UpToUnknown oracle references (oracle.knowsAll references).asked := by
  rw [asked_knowsAll]
  rcases oracle.knows_or_not references with
    known | ⟨known, reference, others, rfl, allKnown, unknown⟩
  · rw [confirmAll_of_known known]
    exact .all known
  · have asked : UpToUnknown oracle (known ++ reference :: others) _ := .unknown allKnown unknown
    rw [List.map_append] at asked
    rw [confirmAll_of_unknown allKnown unknown]
    exact asked

section

variable {oracle more : Oracle} {references : List Reference}

/-- Nothing is reported if and only if the check succeeds. -/
lemma answer_knowsAll_iff :
    (oracle.knowsAll references).answer = true ↔ (oracle.unknown references).answer = [] := by
  rw [Oracle.answer_knowsAll, Oracle.answer_unknown, List.filter_eq_nil_iff, List.all_eq_true]
  simp

/-- An oracle that knows more reports less. -/
lemma answer_unknown_sublist
    (knowsMore : ∀ reference, oracle reference = true → more reference = true)
    (references : List Reference) :
    (more.unknown references).answer.Sublist (oracle.unknown references).answer := by
  rw [Oracle.answer_unknown, Oracle.answer_unknown]
  apply List.monotone_filter_right
  intro reference unknown
  cases known : oracle reference with
  | false => rfl
  | true => simp [knowsMore reference known] at unknown

/-- An oracle that knows what another knows and what that reports has nothing to report. -/
lemma answer_unknown_eq_nil
    (knowsMore : ∀ reference, oracle reference = true → more reference = true)
    (knowsReported : ∀ reference ∈ (oracle.unknown references).answer, more reference = true) :
    (more.unknown references).answer = [] := by
  have fewer := answer_unknown_sublist knowsMore references
  rw [List.eq_nil_iff_forall_not_mem]
  intro reference mem
  have known := knowsReported reference (fewer.subset mem)
  rw [Oracle.answer_unknown] at mem
  simp [known] at mem

end

/-- The objects of a catalogue after more are created are those and the new ones. -/
lemma Catalogue.knows_foldl_insert (catalogue : Catalogue) (created : List Reference)
    (reference : Reference) :
    (created.foldl insert catalogue).knows reference =
      (decide (reference ∈ created) || catalogue.knows reference) := by
  induction created generalizing catalogue with
  | nil => simp
  | cons first others ih =>
    rw [List.foldl_cons, ih, knows_insert, ← Bool.or_assoc]
    simp [Bool.or_comm]

/-! ## Checks and reports -/

/-- The references of a selection are those at the places of its tree, one for each place and in
their order. A report asks about all of them and lists those that are unknown; a check asks up to
the first of these and succeeds if there is none. Who knows more reports less, and has nothing to
report who knows besides what was reported, as a catalogue does in which these objects are
created. -/
theorem Selection.report_follows_written_order (selection : Selection) :
    (∃ sites : List (List Nat × Reference),
      (sites.map Prod.fst).Pairwise (· < ·) ∧
      (∀ place reference, (place, reference) ∈ sites ↔
        (Choice.group selection.root).RefersAt reference place) ∧
      selection.references = sites.map Prod.snd) ∧
    (∀ oracle : Oracle,
      (selection.unresolved oracle).asked = selection.references.map oracle.ask ∧
      (selection.unresolved oracle).answer =
        selection.references.filter (fun reference => !oracle reference) ∧
      UpToUnknown oracle selection.references (selection.isResolved oracle).asked ∧
      ((selection.isResolved oracle).answer = true ↔ (selection.unresolved oracle).answer = [])) ∧
    (∀ oracle more : Oracle, (∀ reference, oracle reference = true → more reference = true) →
      (selection.unresolved more).answer.Sublist (selection.unresolved oracle).answer ∧
      ((∀ reference ∈ (selection.unresolved oracle).answer, more reference = true) →
        (selection.isResolved more).answer = true)) ∧
    ∀ (catalogue : Catalogue) (created : List Reference),
      let later := created.foldl Catalogue.insert catalogue
      ((selection.isResolved catalogue.knows).answer = true →
        (selection.isResolved later.knows).answer = true) ∧
      ((∀ reference ∈ (selection.unresolved catalogue.knows).answer, reference ∈ created) →
        (selection.isResolved later.knows).answer = true) := by
  refine ⟨?places, ?asked, ?more, ?created⟩
  case places =>
    refine ⟨(Choice.group selection.root).sites, Choice.pairwise_sites _, ?_, ?_⟩
    · exact fun place reference => Choice.mem_sites
    · rw [Choice.map_sites]
      exact (Choice.referencesOf_eq_flatMap selection.root.terms).symm
  case asked =>
    intro oracle
    refine ⟨asked_unknown oracle _, Oracle.answer_unknown oracle _, ?_, answer_knowsAll_iff⟩
    exact upToUnknown_knowsAll oracle selection.references
  case more =>
    intro oracle more knowsMore
    refine ⟨answer_unknown_sublist knowsMore _, fun knowsReported => ?_⟩
    exact answer_knowsAll_iff.2 (answer_unknown_eq_nil knowsMore knowsReported)
  case created =>
    intro catalogue created later
    -- creating objects takes none away, so the catalogue is a larger oracle
    have knowsMore (reference : Reference) (known : catalogue.knows reference = true) :
        later.knows reference = true := by
      rw [catalogue.knows_foldl_insert, known, Bool.or_true]
    constructor
    · intro resolved
      have reported := answer_unknown_sublist knowsMore selection.references
      rw [answer_knowsAll_iff.1 resolved] at reported
      exact answer_knowsAll_iff.2 (List.sublist_nil.1 reported)
    · intro isCreated
      refine answer_knowsAll_iff.2 (answer_unknown_eq_nil knowsMore fun reference mem => ?_)
      rw [catalogue.knows_foldl_insert, decide_eq_true (isCreated reference mem), Bool.true_or]

/-- A choice of gear whose alternatives name a sword twice, once in a qualifier. -/
def gear : Selection where
  subToken := "GEAR"
  title := "Gear"
  root :=
    let held : Permissions := ⟨true, true⟩
    held.group .or
      [.group (held.group .and
        [.reference ⟨"Item", "Sword"⟩,
          .qualifier "PC" false (held.group .or
            [.reference ⟨"Item", "Shield"⟩, .reference ⟨"Item", "Sword"⟩])]),
        .reference ⟨"Item", "Bow"⟩]

example : (Choice.group gear.root).sites =
    [([0, 0], ⟨"Item", "Sword"⟩), ([0, 1, 0], ⟨"Item", "Shield"⟩), ([0, 1, 1], ⟨"Item", "Sword"⟩),
      ([1], ⟨"Item", "Bow"⟩)] := rfl

/-- Where there is a bow, gear is complete once swords and shields are created. -/
theorem report_of_gear :
    let bows := Catalogue.ofList [⟨"Item", "Bow"⟩]
    let created : List Reference := [⟨"Item", "Shield"⟩, ⟨"Item", "Sword"⟩]
    (gear.unresolved bows.knows).answer =
        [⟨"Item", "Sword"⟩, ⟨"Item", "Shield"⟩, ⟨"Item", "Sword"⟩] ∧
      (gear.isResolved (created.foldl Catalogue.insert bows).knows).answer = true := by
  intro bows created
  have reported : (gear.unresolved bows.knows).answer =
      [⟨"Item", "Sword"⟩, ⟨"Item", "Shield"⟩, ⟨"Item", "Sword"⟩] := by
    decide
  refine ⟨reported, (gear.report_follows_written_order.2.2.2 bows created).2 ?_⟩
  rw [reported]
  decide

end ChoiceLang
