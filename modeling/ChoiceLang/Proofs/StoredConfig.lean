import ChoiceLang.Proofs.ConfigTexts

/-!
# Stored configurations

A configuration is written with all its fields: what is written for it is one of its documents, and
so is what is written for its policy and for its qualifiers. So a configuration that is stored can
be loaded again, whatever its texts hold.
-/

namespace ChoiceLang

open Json

/-! ## What is written -/

/-- A policy is stored in one of its spellings. -/
lemma Policy.spelled_toJson (policy : Policy) :
    RecordSpelled policy.spellings policy.toJson.document := by
  refine recordSpelled_object ?_
  simp only [spellings, List.forall_mem_cons]
  exact ⟨.written rfl rfl, .written rfl rfl, .written rfl rfl, .written rfl rfl,
    fun _ mem => absurd mem List.not_mem_nil⟩

/-- The rule for bodies is written as its name, and a class that is left open as null. -/
lemma Qualifier.spelled_toJson (qualifier : Qualifier) :
    RecordSpelled qualifier.spellings qualifier.toJson.document := by
  have targetClass : ClassSpelled qualifier.targetClass
      ((qualifier.targetClass.map Json.string).getD .null).document := by
    cases qualifier.targetClass with
    | none => exact .none
    | some className => exact .some
  refine recordSpelled_object ?_
  simp only [spellings, List.forall_mem_cons]
  exact ⟨.written rfl rfl, .written rfl rfl, .written rfl .name, .written rfl rfl,
    .written rfl rfl, .written rfl targetClass, fun _ mem => absurd mem List.not_mem_nil⟩

/-- A table is stored in one of its spellings. -/
lemma QualifierTable.spelled_toJson (table : QualifierTable) :
    table.SpelledBy (Json.array (table.qualifiers.map Qualifier.toJson)).document := by
  rw [document, documents_eq_map, List.map_map]
  refine .intro (List.forall₂_map_right_iff.2 (List.forall₂_same.2 fun qualifier _ => ?_))
  exact qualifier.spelled_toJson

/-- A configuration is stored in one of its spellings. -/
lemma Config.spelled_toJson (config : Config) :
    RecordSpelled config.spellings config.toJson.document := by
  refine recordSpelled_object ?_
  simp only [spellings, List.forall_mem_cons]
  exact ⟨.written rfl rfl, .written rfl rfl, .written rfl rfl,
    .written rfl config.policy.spelled_toJson, .written rfl config.qualifiers.spelled_toJson,
    fun _ mem => absurd mem List.not_mem_nil⟩

/-- A stored configuration is decoded as itself. -/
lemma Config.decode_toJson (config : Config) :
    Config.record.decode config.toJson.document = .ok config := by
  obtain ⟨depth, spelled⟩ := exists_spelled_compactText config.toJson
  exact config.draftsOf.decode_eq_ok config.spelled_toJson (Document.skip_of_spelled spelled)

/-- **Stored configurations.** A configuration is read from the text that it is stored as. So a
text that is read, stored and read again gives what it gives at once. -/
theorem Config.ofJsonText_compact_toJson :
    (∀ config : Config, Config.ofJsonText config.toJson.compact.toList = .ok config) ∧
      ∀ text : List Char,
        (Config.ofJsonText text).bind (fun config =>
            Config.ofJsonText config.toJson.compact.toList) =
          Config.ofJsonText text := by
  have stored (config : Config) : Config.ofJsonText config.toJson.compact.toList = .ok config := by
    rw [Json.compact, String.toList_ofList]
    exact decodeText_eq_ok (ofText_compactText config.toJson) config.decode_toJson
  refine ⟨stored, fun text => ?_⟩
  cases Config.ofJsonText text with
  | error failure => rfl
  | ok config => exact Except.bind_eq_ok_iff.2 ⟨config, rfl, stored config⟩

end ChoiceLang
