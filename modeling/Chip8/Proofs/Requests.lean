namespace Chip8

section

variable {Request Reply S T : Type}

/-- The replies to a row of requests, and the state after all of them. -/
def askAll (answer : S → Request → Reply × S) (s : S) : List Request → List Reply × S
  | [] => ([], s)
  | request :: rest =>
    let (reply, next) := answer s request
    let (replies, last) := askAll answer next rest
    (reply :: replies, last)

theorem askAll_of_related {answer : S → Request → Reply × S} {model : T → Request → Reply × T}
    {R : S → T → Prop}
    (step : ∀ s t, R s t → ∀ request, (answer s request).1 = (model t request).1 ∧
      R (answer s request).2 (model t request).2)
    {s : S} {t : T} (related : R s t) (requests : List Request) :
    (askAll answer s requests).1 = (askAll model t requests).1 ∧
      R (askAll answer s requests).2 (askAll model t requests).2 := by
  induction requests generalizing s t with
  | nil => exact ⟨rfl, related⟩
  | cons request rest ih =>
    obtain ⟨reply, next⟩ := step s t related request
    obtain ⟨replies, last⟩ := ih next
    exact ⟨congr (congrArg List.cons reply) replies, last⟩

end

end Chip8
