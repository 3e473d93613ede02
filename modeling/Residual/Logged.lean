import Residual.Event

/-!
# Results with their events

An operation that can be followed returns its result together with the events recorded
on the way, in order. The result never depends on the events, so what is known about
`value` needs no word about logging. The events are put together only when somebody asks
for them: to measure an expression for a report may take far longer than to derive it.
-/

namespace Residual

universe u v

/-- A result and the events recorded while it was computed. -/
structure Logged (β : Type u) where
  value : β
  record : Thunk (List Event)

namespace Logged

variable {β : Type u} {γ : Type v}

/-- The recorded events, the earliest first. -/
def events (logged : Logged β) : List Event := logged.record.get

/-- A result that nothing was recorded for. -/
def silent (value : β) : Logged β := ⟨value, ⟨fun _ => []⟩⟩

/-- A result reported by events. -/
def reporting (events : Unit → List Event) (value : β) : Logged β := ⟨value, ⟨events⟩⟩

/-- Goes on with a result; the events of the first part come first. -/
def andThen : Logged β → (β → Logged γ) → Logged γ
  | ⟨value, earlier⟩, second =>
      match second value with
      | ⟨result, later⟩ => ⟨result, ⟨fun _ => earlier.get ++ later.get⟩⟩

/-- Changes a result and keeps the events. -/
def map (change : β → γ) (first : Logged β) : Logged γ :=
  ⟨change first.value, first.record⟩

@[simp] theorem value_silent (value : β) : (silent value).value = value := rfl

@[simp] theorem events_silent (value : β) : (silent value).events = [] := rfl

@[simp] theorem value_reporting (events : Unit → List Event) (value : β) :
    (reporting events value).value = value := rfl

@[simp] theorem events_reporting (events : Unit → List Event) (value : β) :
    (reporting events value).events = events () := rfl

@[simp] theorem value_andThen (first : Logged β) (second : β → Logged γ) :
    (first.andThen second).value = (second first.value).value := rfl

@[simp] theorem events_andThen (first : Logged β) (second : β → Logged γ) :
    (first.andThen second).events = first.events ++ (second first.value).events := rfl

@[simp] theorem value_map (change : β → γ) (first : Logged β) :
    (first.map change).value = change first.value := rfl

@[simp] theorem events_map (change : β → γ) (first : Logged β) :
    (first.map change).events = first.events := rfl

/-- Takes the items of a list in turn, each going on from the result of the one before. -/
def follow (step : γ → β → Logged γ) (start : γ) : List β → Logged γ
  | [] => silent start
  | item :: items => (step start item).andThen fun next => follow step next items

@[simp] theorem value_follow (step : γ → β → Logged γ) (start : γ) (items : List β) :
    (follow step start items).value =
      items.foldl (fun current item => (step current item).value) start := by
  induction items generalizing start with
  | nil => rfl
  | cons item items next => simp [follow, next]

end Logged

end Residual
