import ChoiceLang.Proofs.Listings
import ChoiceLang.Proofs.Runs
import Mathlib.Data.Finset.Card

/-!
# Directories of objects

A directory keeps the names of the objects of each class in a set of their own. What it holds is the
set of the objects that calls have added, and so is what a catalogue holds: the two answer alike,
count alike and are equal alike. That directories are compared class by class does no harm, since
no class is ever listed without an object (`Directory.Lists`): a class stands in a directory only by
the call for one of its objects.
-/

namespace ChoiceLang

/-- The names of the objects of each class. -/
structure Directory where
  classes : Std.HashMap String (Std.HashSet String) := ∅

/-- The names of the objects of a class among some references. -/
def Reference.namesOf (className : String) (references : List Reference) : List String :=
  (references.filter fun reference => reference.className = className).map Reference.name

namespace Directory

/-- Adds an object, and tells whether it is new. -/
def insert (directory : Directory) (reference : Reference) : Directory × Bool :=
  let names := directory.classes.getD reference.className ∅
  let (known, names) := names.containsThenInsert reference.name
  (⟨directory.classes.insert reference.className names⟩, !known)

/-- Whether a reference names an object of the directory. -/
def knows (directory : Directory) : Oracle := fun reference =>
  directory.classes[reference.className]?.any fun names => names.contains reference.name

/-- The number of objects of a class. -/
def count (directory : Directory) (className : String) : Nat :=
  directory.classes[className]?.elim 0 Std.HashSet.size

/-- The number of objects of all classes. -/
def size (directory : Directory) : Nat :=
  directory.classes.fold (fun total _ names => total + names.size) 0

/-- Whether there are no objects. -/
def isEmpty (directory : Directory) : Bool := directory.size == 0

instance : BEq Directory where
  beq first second :=
    first.classes.size == second.classes.size &&
      first.classes.toList.all fun entry =>
        second.classes[entry.1]?.any entry.2.beq

/-- The directory after the calls for some objects, and what each call told. -/
def insertAll (calls : List Reference) : Directory × List Bool :=
  calls.foldl
    (fun made reference =>
      let (next, isNew) := made.1.insert reference
      (next, made.2 ++ [isNew]))
    ({}, [])

/-- The directory of the given objects. -/
def ofList (calls : List Reference) : Directory := (insertAll calls).1

/-- What the calls for the given objects told, in order. -/
def answers (calls : List Reference) : List Bool := (insertAll calls).2

/-- A directory holds the objects of some calls, and lists no class without one of them. -/
structure Lists (directory : Directory) (calls : List Reference) : Prop where
  knows : ∀ reference, directory.knows reference = true ↔ reference ∈ calls
  some_object : ∀ className ∈ directory.classes, ∃ name,
    directory.knows ⟨className, name⟩ = true

end Directory

/-- What is told about a set of objects that some calls have added. -/
structure Tells (calls : List Reference) (knows : Oracle) (count : String → Nat) (size : Nat)
    (isEmpty : Bool) : Prop where
  knows : ∀ reference, knows reference = true ↔ reference ∈ calls
  count : ∀ className, count className = (Reference.namesOf className calls).toFinset.card
  size : size = calls.toFinset.card
  isEmpty : isEmpty = true ↔ calls = []

/-- What calls are answered that add objects: whether the object is new, for each in order. -/
structure Announces (calls : List Reference) (answers : List Bool) : Prop where
  length : answers.length = calls.length
  each : ∀ earlier reference later, calls = earlier ++ reference :: later →
    answers[earlier.length]? = some (decide (reference ∉ earlier))
  count : answers.count true = calls.toFinset.card

/-- Members of a list without repetition are counted by its length. -/
lemma length_eq_card {α : Type} [DecidableEq α] {members others : List α} (nodup : members.Nodup)
    (same : ∀ a, a ∈ members ↔ a ∈ others) : members.length = others.toFinset.card := by
  rw [← List.toFinset_card_of_nodup nodup]
  congr 1
  ext a
  rw [List.mem_toFinset, List.mem_toFinset, same]

/-- The names of a class are those of the references of that class. -/
lemma Reference.mem_namesOf {className name : String} {references : List Reference} :
    name ∈ namesOf className references ↔ ⟨className, name⟩ ∈ references := by
  unfold namesOf
  rw [List.mem_map]
  constructor
  · rintro ⟨reference, mem, rfl⟩
    obtain ⟨mem, isClass⟩ := List.mem_filter.1 mem
    rwa [← of_decide_eq_true isClass]
  · intro mem
    exact ⟨_, List.mem_filter.2 ⟨mem, decide_eq_true rfl⟩, rfl⟩

/-- The objects of a class have different names. -/
lemma Reference.nodup_namesOf {references : List Reference} (nodup : references.Nodup)
    (className : String) : (namesOf className references).Nodup := by
  refine List.Nodup.map_on ?_ (nodup.filter _)
  intro first inFirst second inSecond same
  have firstClass := of_decide_eq_true (List.mem_filter.1 inFirst).2
  have secondClass := of_decide_eq_true (List.mem_filter.1 inSecond).2
  cases first
  cases second
  rw [Reference.mk.injEq]
  exact ⟨firstClass.trans secondClass.symm, same⟩

namespace Directory

variable {directory : Directory} {calls : List Reference} {className name : String}

/-! ## Objects -/

/-- An object is known if its name is in the set of its class. -/
lemma knows_iff :
    directory.knows ⟨className, name⟩ = true ↔
      ∃ names, directory.classes[className]? = some names ∧ name ∈ names := by
  unfold knows
  rw [Option.any_eq_true]
  simp only [Std.HashSet.contains_iff_mem]

/-- The objects of a directory, class by class. -/
def objects (directory : Directory) : List Reference :=
  directory.classes.toList.flatMap fun entry => entry.2.toList.map (⟨entry.1, ·⟩)

/-- The objects of a directory are those that it knows. -/
lemma mem_objects {reference : Reference} :
    reference ∈ directory.objects ↔ directory.knows reference = true := by
  obtain ⟨className, name⟩ := reference
  unfold objects
  rw [knows_iff, List.mem_flatMap]
  constructor
  · rintro ⟨⟨_, names⟩, listed, mem⟩
    obtain ⟨_, mem, ⟨⟩⟩ := List.mem_map.1 mem
    exact ⟨names, Std.HashMap.mem_toList_iff_getElem?_eq_some.1 listed,
      Std.HashSet.mem_toList.1 mem⟩
  · rintro ⟨names, listed, mem⟩
    exact ⟨(className, names), Std.HashMap.mem_toList_iff_getElem?_eq_some.2 listed,
      List.mem_map.2 ⟨name, Std.HashSet.mem_toList.2 mem, rfl⟩⟩

/-- The names in a set are listed once each. -/
lemma nodup_toList (names : Std.HashSet String) : names.toList.Nodup :=
  Std.HashSet.distinct_toList.imp ne_of_beq_false

/-- The objects of a directory are listed once each. -/
lemma nodup_objects (directory : Directory) : directory.objects.Nodup := by
  refine List.nodup_flatMap.2 ⟨fun entry _ => ?_, ?_⟩
  · exact (nodup_toList entry.2).map fun _ _ same => (Reference.mk.inj same).2
  · -- objects of different classes are different
    refine Std.HashMap.distinct_keys_toList.imp fun distinct => ?_
    intro reference inFirst inSecond
    obtain ⟨_, -, rfl⟩ := List.mem_map.1 inFirst
    obtain ⟨_, -, same⟩ := List.mem_map.1 inSecond
    exact ne_of_beq_false distinct (Reference.mk.inj same).1.symm

/-- The size of a directory is the number of its objects. -/
lemma length_objects (directory : Directory) : directory.objects.length = directory.size := by
  -- the sum goes through the map from the left, so it is stated for any sum so far
  have total (entries : List (String × Std.HashSet String)) (others : Nat) :
      entries.foldl (fun total entry => total + entry.2.size) others =
        others + (entries.flatMap fun entry =>
          entry.2.toList.map (Reference.mk entry.1)).length := by
    induction entries generalizing others with
    | nil => rfl
    | cons entry entries ih =>
      rw [List.foldl_cons, ih, List.flatMap_cons, List.length_append, List.length_map,
        Std.HashSet.length_toList, Nat.add_assoc]
  rw [size, Std.HashMap.fold_eq_foldl_toList, total, Nat.zero_add]
  rfl

/-! ## Calls -/

/-- An object is new if it was not known. -/
lemma snd_insert (directory : Directory) (reference : Reference) :
    (directory.insert reference).2 = !directory.knows reference := by
  unfold insert knows
  rw [Std.HashMap.getD_eq_getD_getElem?]
  cases directory.classes[reference.className]? <;> simp

/-- A call adds its object and nothing else. -/
lemma knows_insert {added : Reference} :
    (directory.insert added).1.knows ⟨className, name⟩ = true ↔
      added = ⟨className, name⟩ ∨ directory.knows ⟨className, name⟩ = true := by
  obtain ⟨addedClass, addedName⟩ := added
  rw [Reference.mk.injEq, knows_iff, knows_iff]
  simp only [insert, Std.HashSet.containsThenInsert_snd, Std.HashMap.getElem?_insert,
    Std.HashMap.getD_eq_getD_getElem?, beq_iff_eq]
  by_cases here : addedClass = className
  · subst here
    cases directory.classes[addedClass]? <;> simp
  · simp [here]

/-- Adding an object adds its class and no other. -/
lemma mem_classes_insert {added : Reference} :
    className ∈ (directory.insert added).1.classes ↔
      added.className = className ∨ className ∈ directory.classes := by
  rw [insert, Std.HashMap.mem_insert, beq_iff_eq]

/-- A class is added together with one of its objects. -/
lemma Lists.insert (lists : directory.Lists calls) (added : Reference) :
    (directory.insert added).1.Lists (calls ++ [added]) where
  knows reference := by
    rw [knows_insert, lists.knows, List.mem_append, List.mem_singleton, or_comm, eq_comm]
  some_object className mem := by
    rcases mem_classes_insert.1 mem with rfl | mem
    · exact ⟨added.name, knows_insert.2 (.inl rfl)⟩
    · obtain ⟨name, known⟩ := lists.some_object className mem
      exact ⟨name, knows_insert.2 (.inr known)⟩

/-- The last call is made on what the calls before it have left. -/
lemma insertAll_concat (calls : List Reference) (reference : Reference) :
    insertAll (calls ++ [reference]) =
      (((ofList calls).insert reference).1,
        answers calls ++ [((ofList calls).insert reference).2]) := by
  unfold ofList answers insertAll
  rw [List.foldl_concat]

/-- Whatever the calls, a directory holds their objects. -/
lemma lists_ofList (calls : List Reference) : (ofList calls).Lists calls := by
  induction calls using List.reverseRecOn with
  | nil =>
    constructor
    · simp [ofList, insertAll, knows]
    · simp [ofList, insertAll]
  | append_singleton calls reference ih =>
    rw [ofList, insertAll_concat]
    exact ih.insert reference

/-- The last call tells whether its object was among the others. -/
lemma answers_concat (calls : List Reference) (reference : Reference) :
    answers (calls ++ [reference]) = answers calls ++ [decide (reference ∉ calls)] := by
  have known : (ofList calls).knows reference = decide (reference ∈ calls) := by
    rw [Bool.eq_iff_iff, decide_eq_true_iff]
    exact (lists_ofList calls).knows reference
  rw [answers, insertAll_concat, snd_insert, known, decide_not]

/-- Each call tells whether its object was among those of the calls before it. -/
lemma announces_answers (calls : List Reference) : Announces calls (answers calls) := by
  induction calls using List.reverseRecOn with
  | nil => exact ⟨rfl, fun earlier reference later eq => absurd eq (by simp), rfl⟩
  | append_singleton calls last ih =>
    rw [answers_concat]
    refine ⟨by simp [ih.length], fun earlier reference later eq => ?_, ?_⟩
    · rcases List.eq_nil_or_concat later with rfl | ⟨later, final, rfl⟩
      · obtain ⟨rfl, same⟩ := List.append_inj' eq rfl
        rw [← ih.length, List.getElem?_concat_length, (List.cons.inj same).1]
      · have before : calls = earlier ++ reference :: later := by
          have appended : calls ++ [last] = (earlier ++ reference :: later) ++ [final] := by
            simpa using eq
          exact (List.append_inj' appended rfl).1
        have within : earlier.length < (answers calls).length := by
          rw [ih.length, before, List.length_append, List.length_cons]
          omega
        rw [List.getElem?_append_left within]
        exact ih.each earlier reference later before
    · rw [List.count_append, ih.count, List.toFinset_append]
      -- only a new object makes the set larger
      by_cases mem : last ∈ calls
      · simp [mem, Finset.union_eq_left.2]
      · simp [mem]

/-! ## What is told -/

/-- The objects of a class are counted by their different names. -/
lemma Lists.count_eq (lists : directory.Lists calls) (className : String) :
    directory.count className = (Reference.namesOf className calls).toFinset.card := by
  have known (name : String) := lists.knows ⟨className, name⟩
  unfold count
  cases listed : directory.classes[className]? with
  | none =>
    refine length_eq_card List.nodup_nil fun name => ?_
    rw [Reference.mem_namesOf, ← known, knows_iff, listed]
    simp
  | some names =>
    rw [Option.elim_some, ← Std.HashSet.length_toList]
    refine length_eq_card (nodup_toList names) fun name => ?_
    rw [Reference.mem_namesOf, ← known, knows_iff, listed, Std.HashSet.mem_toList]
    simp

/-- A directory that lists the objects of calls tells about them as a set. -/
lemma Lists.tells (lists : directory.Lists calls) :
    Tells calls directory.knows directory.count directory.size directory.isEmpty := by
  have size : directory.size = calls.toFinset.card := by
    rw [← length_objects]
    exact length_eq_card directory.nodup_objects fun reference =>
      mem_objects.trans (lists.knows reference)
  refine ⟨lists.knows, lists.count_eq, size, ?_⟩
  rw [isEmpty, beq_iff_eq, size, Finset.card_eq_zero, List.toFinset_eq_empty_iff]

end Directory

/-- A catalogue knows the objects it was made of. -/
lemma Catalogue.knows_ofList {calls : List Reference} {reference : Reference} :
    (ofList calls).knows reference = true ↔ reference ∈ calls := by
  rw [ofList, knows_foldl_insert, knows_empty, Bool.or_false, decide_eq_true_iff]

/-- A catalogue tells about its objects as a set as well. -/
lemma Catalogue.tells_ofList (calls : List Reference) :
    Tells calls (ofList calls).knows (ofList calls).count (ofList calls).size
      (ofList calls).isEmpty := by
  have mem_known (reference : Reference) : reference ∈ (ofList calls).known ↔ reference ∈ calls :=
    decide_eq_true_iff.symm.trans knows_ofList
  have nodup := (ofList calls).nodup
  refine ⟨fun reference => knows_ofList, fun className => ?_, ?_, ?_⟩
  · have same (name : String) : name ∈ Reference.namesOf className (ofList calls).known ↔
        name ∈ Reference.namesOf className calls := by
      rw [Reference.mem_namesOf, Reference.mem_namesOf, mem_known]
    rw [← length_eq_card (Reference.nodup_namesOf nodup className) same, count,
      List.countP_eq_length_filter, Reference.namesOf, List.length_map]
  · exact length_eq_card nodup mem_known
  · rw [isEmpty, List.isEmpty_iff, List.eq_nil_iff_forall_not_mem, List.eq_nil_iff_forall_not_mem]
    simp only [mem_known]

/-! ## Equality -/

namespace Directory

variable {first second : Directory} {calls others : List Reference} {className : String}

/-- A class is listed if there is a set of names for it. -/
lemma mem_classes_iff :
    className ∈ first.classes ↔ ∃ names, first.classes[className]? = some names := by
  rw [Std.HashMap.mem_iff_isSome_getElem?, Option.isSome_iff_exists]

/-- Two directories are equal if they have as many classes, and all those of one the same names in
the other. -/
lemma beq_iff_classes :
    (first == second) = true ↔
      first.classes.size = second.classes.size ∧
        ∀ (className : String) (names : Std.HashSet String),
          first.classes[className]? = some names →
          ∃ same : Std.HashSet String, second.classes[className]? = some same ∧
            ∀ name, name ∈ names ↔ name ∈ same := by
  show (first.classes.size == second.classes.size && first.classes.toList.all _) = true ↔ _
  rw [Bool.and_eq_true, beq_iff_eq, List.all_eq_true]
  refine and_congr_right fun _ => ?_
  constructor
  · intro all className names listed
    have found := all (className, names) (Std.HashMap.mem_toList_iff_getElem?_eq_some.2 listed)
    obtain ⟨same, listed, equal⟩ := Option.any_eq_true .. |>.1 found
    exact ⟨same, listed, fun name => (Std.HashSet.beq_iff_equiv.1 equal).mem_iff⟩
  · rintro all ⟨className, names⟩ mem
    obtain ⟨same, listed, equal⟩ :=
      all className names (Std.HashMap.mem_toList_iff_getElem?_eq_some.1 mem)
    rw [Option.any_eq_true]
    exact ⟨same, listed, Std.HashSet.beq_iff_equiv.2 (.of_forall_mem_iff equal)⟩

/-- Of as many classes none is missing if all those of one directory are in the other. -/
lemma mem_classes_of_size (size : first.classes.size = second.classes.size)
    (sub : ∀ className ∈ first.classes, className ∈ second.classes)
    (mem : className ∈ second.classes) : className ∈ first.classes := by
  have fewer : first.classes.keys.Subperm second.classes.keys := by
    refine List.subperm_of_subset Std.HashMap.nodup_keys fun className mem => ?_
    exact Std.HashMap.mem_keys.2 (sub className (Std.HashMap.mem_keys.1 mem))
  have same : first.classes.keys.Perm second.classes.keys := by
    apply fewer.perm_of_length_le
    rw [Std.HashMap.length_keys, Std.HashMap.length_keys, size]
  exact Std.HashMap.mem_keys.1 (same.mem_iff.2 (Std.HashMap.mem_keys.2 mem))

/-- Directories that list the same classes list as many. -/
lemma size_classes_eq (same : ∀ className, className ∈ first.classes ↔ className ∈ second.classes) :
    first.classes.size = second.classes.size := by
  have perm : first.classes.keys.Perm second.classes.keys := by
    refine (List.perm_ext_iff_of_nodup Std.HashMap.nodup_keys Std.HashMap.nodup_keys).2 ?_
    intro className
    rw [Std.HashMap.mem_keys, Std.HashMap.mem_keys, same]
  rw [← Std.HashMap.length_keys, ← Std.HashMap.length_keys, perm.length_eq]

/-- Equal directories know the same objects. -/
lemma knows_eq_of_beq (equal : (first == second) = true) (reference : Reference) :
    first.knows reference = second.knows reference := by
  obtain ⟨className, name⟩ := reference
  obtain ⟨size, sub⟩ := beq_iff_classes.1 equal
  rw [Bool.eq_iff_iff, knows_iff, knows_iff]
  constructor
  · rintro ⟨names, listed, mem⟩
    obtain ⟨same, listed, mem_iff⟩ := sub className names listed
    exact ⟨same, listed, (mem_iff name).1 mem⟩
  · rintro ⟨same, listed, mem⟩
    have inFirst : className ∈ first.classes := by
      refine mem_classes_of_size size (fun other mem => ?_) (mem_classes_iff.2 ⟨same, listed⟩)
      obtain ⟨names, listed⟩ := mem_classes_iff.1 mem
      obtain ⟨same, listed, -⟩ := sub other names listed
      exact mem_classes_iff.2 ⟨same, listed⟩
    obtain ⟨names, listedFirst⟩ := mem_classes_iff.1 inFirst
    obtain ⟨found, listedSecond, mem_iff⟩ := sub className names listedFirst
    obtain rfl := Option.some.inj (listed.symm.trans listedSecond)
    exact ⟨names, listedFirst, (mem_iff name).2 mem⟩

/-- The classes of a directory are those of its objects. -/
lemma Lists.mem_classes_iff (lists : first.Lists calls) :
    className ∈ first.classes ↔ ∃ name, first.knows ⟨className, name⟩ = true := by
  refine ⟨lists.some_object className, fun ⟨name, known⟩ => ?_⟩
  obtain ⟨names, listed, -⟩ := knows_iff.1 known
  exact Directory.mem_classes_iff.2 ⟨names, listed⟩

/-- Directories without empty classes are equal if and only if they know the same objects. -/
lemma Lists.beq_iff (lists : first.Lists calls) (listsOthers : second.Lists others) :
    (first == second) = true ↔ ∀ reference, first.knows reference = second.knows reference := by
  refine ⟨knows_eq_of_beq, fun same => beq_iff_classes.2 ⟨?_, ?_⟩⟩
  · apply size_classes_eq
    intro className
    rw [lists.mem_classes_iff, listsOthers.mem_classes_iff]
    simp only [same]
  · intro className names listed
    have mem := Directory.mem_classes_iff.2 ⟨names, listed⟩
    obtain ⟨name, known⟩ := lists.some_object className mem
    rw [same] at known
    obtain ⟨found, listedFound, -⟩ := knows_iff.1 known
    refine ⟨found, listedFound, fun name => ?_⟩
    have knows_iff_knows := Bool.eq_iff_iff.1 (same ⟨className, name⟩)
    rw [knows_iff, knows_iff, listed, listedFound] at knows_iff_knows
    simpa using knows_iff_knows

end Directory

/-! ## Sessions -/

namespace Session

variable {n : Nat}

/-- The outcome of a last step follows those of the others. -/
lemma run_concat (session : Session n) (steps : List (Step n)) (last : Step n) :
    session.run (steps ++ [last]) = session.run steps ++ [(session.after steps).step last] := by
  induction steps generalizing session with
  | nil => rfl
  | cons first others ih => rw [List.cons_append, run, run, ih, after_cons, List.cons_append]

/-- The creation of an object is answered by whether it is new. -/
lemma answer_create (session : Session n) (i : Fin n) (reference : Reference) :
    (session.step (.create i reference)).answer =
      .truth (!session[i].catalogue.knows reference) := rfl

/-- The creation of an object adds it to the catalogue of its context. -/
lemma catalogue_create (session : Session n) (i : Fin n) (reference : Reference) :
    (session.step (.create i reference)).session[i].catalogue =
      session[i].catalogue.insert reference := by
  rw [getElem_step]
  exact congrArg Context.catalogue (if_pos rfl)

/-- The contexts of a fresh session know no objects. -/
lemma catalogue_fresh (names : Vector String n) (i : Fin n) :
    (fresh names)[i].catalogue = .empty := by
  rw [← getElem_val _ i i.isLt]
  simp only [fresh, Vector.getElem_map]
  rfl

/-- A session answers the steps that create objects as a directory does, and then has them in its
catalogue. -/
lemma answers_of_create (names : Vector String n) (i : Fin n) (calls : List Reference) :
    ((fresh names).run (calls.map (.create i))).map Outcome.answer =
        (Directory.answers calls).map .truth ∧
      ((fresh names).after (calls.map (.create i)))[i].catalogue = .ofList calls := by
  induction calls using List.reverseRecOn with
  | nil => exact ⟨rfl, catalogue_fresh names i⟩
  | append_singleton calls last ih =>
    obtain ⟨answers, catalogue⟩ := ih
    have known : (Catalogue.ofList calls).knows last = decide (last ∈ calls) := by
      rw [Bool.eq_iff_iff, decide_eq_true_iff, Catalogue.knows_ofList]
    have extended : Catalogue.ofList (calls ++ [last]) = (Catalogue.ofList calls).insert last := by
      rw [Catalogue.ofList, List.foldl_concat, Catalogue.ofList]
    rw [List.map_append, List.map_singleton]
    constructor
    · rw [run_concat, List.map_append, answers, Directory.answers_concat, List.map_append,
        List.map_singleton, List.map_singleton, answer_create, catalogue, known, decide_not]
    · rw [after_append, after_cons, extended, ← catalogue]
      exact catalogue_create ..

end Session

/-- A directory is the set of the objects that calls have added, whatever their order and however
often each of them was added: it knows, counts and announces these, and directories are equal if and
only if they know the same. The same holds of a catalogue and of the steps of a session that create
objects in it. -/
theorem Directory.is_set_of_added :
    (∀ calls, Tells calls (ofList calls).knows (ofList calls).count (ofList calls).size
        (ofList calls).isEmpty ∧ Announces calls (answers calls)) ∧
    (∀ calls others, (ofList calls == ofList others) = true ↔
      ∀ reference, (ofList calls).knows reference = (ofList others).knows reference) ∧
    (∀ calls, Tells calls (Catalogue.ofList calls).knows (Catalogue.ofList calls).count
      (Catalogue.ofList calls).size (Catalogue.ofList calls).isEmpty) ∧
    (∀ calls others, (Catalogue.ofList calls == Catalogue.ofList others) = true ↔
      ∀ reference, (Catalogue.ofList calls).knows reference =
        (Catalogue.ofList others).knows reference) ∧
    ∀ (n : Nat) (names : Vector String n) (i : Fin n) (calls : List Reference),
      ((Session.fresh names).run (calls.map (.create i))).map Session.Outcome.answer =
          (answers calls).map .truth ∧
        ((Session.fresh names).after (calls.map (.create i)))[i].catalogue = .ofList calls := by
  refine ⟨fun calls => ?_, fun calls others => ?_, Catalogue.tells_ofList, ?_, ?_⟩
  · exact ⟨(lists_ofList calls).tells, announces_answers calls⟩
  · exact (lists_ofList calls).beq_iff (lists_ofList others)
  · exact fun calls others => Catalogue.beq_iff
  · exact fun n => Session.answers_of_create

end ChoiceLang
