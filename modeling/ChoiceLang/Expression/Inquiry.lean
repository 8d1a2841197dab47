import ChoiceLang.Rejection

/-!
# Inquiries

Reading a text may put questions to an oracle. An inquiry is the outcome of reading together with
the questions asked until then, in order.
-/

namespace ChoiceLang.Expression

/-- A value or a rejection, and the questions asked to find it. -/
structure Inquiry (α : Type) where
  asked : List Question
  result : Except Rejection α

namespace Inquiry

variable {α β : Type}

/-- A value, without a question. -/
def pure (value : α) : Inquiry α := ⟨[], .ok value⟩

/-- A rejection, without a question. -/
def reject (rejection : Rejection) : Inquiry α := ⟨[], .error rejection⟩

/-- A result found without a question. -/
def ofResult (result : Except Rejection α) : Inquiry α := ⟨[], result⟩

/-- Goes on with a value; the questions of both parts are asked in order. -/
def bind (inquiry : Inquiry α) (next : α → Inquiry β) : Inquiry β :=
  match inquiry.result with
  | .ok value =>
    let later := next value
    ⟨inquiry.asked ++ later.asked, later.result⟩
  | .error rejection => ⟨inquiry.asked, .error rejection⟩

instance : Monad Inquiry where
  pure := pure
  bind := bind

/-- Inquires about each value in order, up to the first rejection. -/
def forEach (inquire : α → Inquiry β) : List α → Inquiry (List β)
  | [] => pure []
  | value :: others => do
    let first ← inquire value
    let later ← forEach inquire others
    return first :: later

/-- A value is its own result. -/
@[simp] theorem result_pure (value : α) : (Pure.pure value : Inquiry α).result = .ok value := rfl

/-- A value asks nothing. -/
@[simp] theorem asked_pure (value : α) : (Pure.pure value : Inquiry α).asked = [] := rfl

/-- The result of two parts is that of the second on the value of the first. -/
@[simp] theorem result_bind (inquiry : Inquiry α) (next : α → Inquiry β) :
    (inquiry >>= next).result = inquiry.result.bind fun value => (next value).result := by
  change (bind inquiry next).result = _
  unfold bind
  cases inquiry.result <;> rfl

/-- A rejection ends the questions. -/
theorem asked_bind_of_error {inquiry : Inquiry α} {rejection : Rejection}
    (h : inquiry.result = .error rejection) (next : α → Inquiry β) :
    (inquiry >>= next).asked = inquiry.asked := by
  change (bind inquiry next).asked = _
  simp [bind, h]

/-- After a value, the questions of the second part follow those of the first. -/
theorem asked_bind_of_ok {inquiry : Inquiry α} {value : α} (h : inquiry.result = .ok value)
    (next : α → Inquiry β) :
    (inquiry >>= next).asked = inquiry.asked ++ (next value).asked := by
  change (bind inquiry next).asked = _
  simp [bind, h]

end Inquiry

end ChoiceLang.Expression
