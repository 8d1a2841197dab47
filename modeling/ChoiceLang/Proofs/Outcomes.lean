import ChoiceLang.Expression.Inquiry
import Mathlib.Data.List.Forall2

/-!
# Outcomes of inquiries

When a sequence of inquiries has a value: each of its parts has one. The lemmas on `Except` say this
of results, those on `Inquiry` of inquiries, and `result_forEach_eq_ok_iff` of a whole list, whose
values are found pointwise.
-/

namespace Except

variable {ε δ α β : Type}

/-- A mapped result is a value if the result is one. -/
lemma map_eq_ok_iff {result : Except ε α} {f : α → β} {b : β} :
    result.map f = .ok b ↔ ∃ a, result = .ok a ∧ f a = b := by
  cases result <;> simp [Except.map]

/-- A mapped result is an error if the result is one. -/
lemma map_eq_error_iff {result : Except ε α} {f : α → β} {e : ε} :
    result.map f = .error e ↔ result = .error e := by
  cases result <;> simp [Except.map]

/-- Two results in sequence are a value if both of them are. -/
lemma bind_eq_ok_iff {result : Except ε α} {next : α → Except ε β} {b : β} :
    result.bind next = .ok b ↔ ∃ a, result = .ok a ∧ next a = .ok b := by
  cases result <;> simp [Except.bind]

/-- Two results in sequence are an error if the first is, or the second after it. -/
lemma bind_eq_error_iff {result : Except ε α} {next : α → Except ε β} {e : ε} :
    result.bind next = .error e ↔
      result = .error e ∨ ∃ a, result = .ok a ∧ next a = .error e := by
  cases result <;> simp [Except.bind]

/-- Other words for an error leave a value as it is. -/
lemma mapError_eq_ok_iff {result : Except ε α} {f : ε → δ} {a : α} :
    result.mapError f = .ok a ↔ result = .ok a := by
  cases result <;> simp [Except.mapError]

/-- An error is one in other words. -/
lemma mapError_eq_error_iff {result : Except ε α} {f : ε → δ} {d : δ} :
    result.mapError f = .error d ↔ ∃ e, result = .error e ∧ f e = d := by
  cases result <;> simp [Except.mapError]

/-- What is left of a result without its error. -/
lemma toOption_eq_some_iff {result : Except ε α} {a : α} :
    result.toOption = some a ↔ result = .ok a := by
  cases result <;> simp [Except.toOption]

/-- A result that is no value is an error. -/
lemma exists_error_of_ne_ok {result : Except ε α} (h : ∀ a, result ≠ .ok a) :
    ∃ e, result = .error e := by
  cases result with
  | error e => exact ⟨e, rfl⟩
  | ok a => exact absurd rfl (h a)

/-- Two functions that are applied one after the other are applied at once. -/
lemma map_map {γ : Type} (result : Except ε α) (f : α → β) (g : β → γ) :
    (result.map f).map g = result.map fun a => g (f a) := by
  cases result <;> rfl

end Except

section Pointwise

variable {α β γ : Type} {R : α → β → Prop} {as : List α} {bs : List β}

/-- What follows pointwise from the elements of a list holds for all those related to them. -/
lemma List.Forall₂.forall_mem_right {P : β → Prop} (h : List.Forall₂ R as bs)
    (step : ∀ a ∈ as, ∀ b, R a b → P b) : ∀ b ∈ bs, P b := by
  induction h with
  | nil => exact fun _ mem => absurd mem List.not_mem_nil
  | @cons a b as bs here _ ih =>
    refine List.forall_mem_cons.2 ⟨step a List.mem_cons_self b here, ih fun a mem => ?_⟩
    exact step a (List.mem_cons_of_mem _ mem)

/-- To each member of the second list belongs one of the first. -/
lemma List.Forall₂.exists_of_mem_right (h : List.Forall₂ R as bs) {b : β} (mem : b ∈ bs) :
    ∃ a ∈ as, R a b := by
  have everywhere : ∀ b ∈ bs, ∃ a ∈ as, R a b :=
    h.forall_mem_right fun a mem _ related => ⟨a, mem, related⟩
  exact everywhere b mem

/-- To each member of the first list belongs one of the second. -/
lemma List.Forall₂.exists_of_mem_left (h : List.Forall₂ R as bs) {a : α} (mem : a ∈ as) :
    ∃ b ∈ bs, R a b := by
  have flipped : List.Forall₂ (fun b a => R a b) bs as := h.flip
  exact flipped.exists_of_mem_right mem

/-- A relation between lists is weakened by what is known of the elements of the second. -/
lemma List.Forall₂.imp_of_mem_right {S : α → β → Prop} (h : List.Forall₂ R as bs)
    (step : ∀ a, ∀ b ∈ bs, R a b → S a b) : List.Forall₂ S as bs := by
  induction h with
  | nil => exact .nil
  | @cons a b as bs here _ ih =>
    refine .cons (step a b List.mem_cons_self here) (ih fun a b mem => ?_)
    exact step a b (List.mem_cons_of_mem _ mem)

/-- Two lists become one if each two related elements do. -/
lemma List.Forall₂.map_eq_map {f : α → γ} {g : β → γ} (h : List.Forall₂ R as bs)
    (step : ∀ a ∈ as, ∀ b, R a b → g b = f a) : bs.map g = as.map f := by
  induction h with
  | nil => rfl
  | @cons a b as bs here _ ih =>
    rw [List.map_cons, List.map_cons, step a List.mem_cons_self b here, ih fun a mem => ?_]
    exact step a (List.mem_cons_of_mem _ mem)

/-- What is related to two lists in a row falls into two parts. -/
lemma List.Forall₂.exists_append {others : List α} (h : List.Forall₂ R (as ++ others) bs) :
    ∃ first second, bs = first ++ second ∧ List.Forall₂ R as first ∧
      List.Forall₂ R others second := by
  induction as generalizing bs with
  | nil => exact ⟨[], bs, rfl, .nil, h⟩
  | cons a as ih =>
    obtain ⟨b, _, here, there, rfl⟩ := List.forall₂_cons_left_iff.1 h
    obtain ⟨first, second, rfl, ofFirst, ofSecond⟩ := ih there
    exact ⟨b :: first, second, rfl, .cons here ofFirst, ofSecond⟩

/-- Lists with the same images are the same if the elements of the first are told by theirs. -/
lemma List.eq_of_map_eq_map {f : α → β} {as others : List α}
    (step : ∀ a ∈ as, ∀ other, f a = f other → a = other) (same : as.map f = others.map f) :
    as = others := by
  induction as generalizing others with
  | nil => exact (List.map_eq_nil_iff.1 same.symm).symm
  | cons a as ih =>
    obtain ⟨other, others, rfl, here, there⟩ := List.map_eq_cons_iff.1 same.symm
    obtain ⟨first, later⟩ := List.forall_mem_cons.1 step
    rw [first other here.symm, ih later there.symm]

end Pointwise

namespace ChoiceLang.Expression.Inquiry

variable {α β : Type}

/-- What needs no question has its own result. -/
@[simp] lemma result_ofResult (result : Except Rejection α) : (ofResult result).result = result :=
  rfl

/-- A rejection is its own result. -/
@[simp] lemma result_reject (rejection : Rejection) :
    (reject rejection : Inquiry α).result = .error rejection := rfl

/-- Two inquiries in sequence find a value if both of them do. -/
lemma result_bind_eq_ok_iff {inquiry : Inquiry α} {next : α → Inquiry β} {b : β} :
    (inquiry >>= next).result = .ok b ↔ ∃ a, inquiry.result = .ok a ∧ (next a).result = .ok b := by
  rw [result_bind, Except.bind_eq_ok_iff]

/-- Two inquiries in sequence fail if the first does, or the second after it. -/
lemma result_bind_eq_error_iff {inquiry : Inquiry α} {next : α → Inquiry β}
    {rejection : Rejection} :
    (inquiry >>= next).result = .error rejection ↔
      inquiry.result = .error rejection ∨
        ∃ a, inquiry.result = .ok a ∧ (next a).result = .error rejection := by
  rw [result_bind, Except.bind_eq_error_iff]

/-- Inquiries about each of some values fail if one of them does. -/
lemma exists_of_result_forEach_eq_error {inquire : α → Inquiry β} {values : List α}
    {rejection : Rejection} (h : (forEach inquire values).result = .error rejection) :
    ∃ value ∈ values, (inquire value).result = .error rejection := by
  induction values with
  | nil => cases h
  | cons value others ih =>
    rcases result_bind_eq_error_iff.1 h with here | ⟨first, -, h⟩
    · exact ⟨value, List.mem_cons_self, here⟩
    · rcases result_bind_eq_error_iff.1 h with there | ⟨later, -, h⟩
      · obtain ⟨other, mem, failed⟩ := ih there
        exact ⟨other, List.mem_cons_of_mem value mem, failed⟩
      · cases h

/-- Inquiries about each of some values find the values that each of them finds. -/
lemma result_forEach_eq_ok_iff {inquire : α → Inquiry β} {values : List α} {found : List β} :
    (forEach inquire values).result = .ok found ↔
      List.Forall₂ (fun a b => (inquire a).result = .ok b) values found := by
  induction values generalizing found with
  | nil =>
    rw [List.forall₂_nil_left_iff]
    exact ⟨fun h => (Except.ok.inj h).symm, fun h => congrArg Except.ok h.symm⟩
  | cons value others ih =>
    rw [List.forall₂_cons_left_iff, forEach, result_bind_eq_ok_iff]
    constructor
    · rintro ⟨first, here, h⟩
      obtain ⟨later, there, h⟩ := result_bind_eq_ok_iff.1 h
      exact ⟨first, later, here, ih.1 there, (Except.ok.inj h).symm⟩
    · rintro ⟨first, later, here, there, rfl⟩
      exact ⟨first, here, result_bind_eq_ok_iff.2 ⟨later, ih.2 there, rfl⟩⟩

end ChoiceLang.Expression.Inquiry
