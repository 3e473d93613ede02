/-!
# First in, first out

A queue is kept as two lists, so that putting in and taking out cost a constant number of
steps on average. `toList` is what the queue holds, the oldest item first, and is all
that matters about it.
-/

namespace Residual

universe u

/-- A queue: the oldest items in order, and the newest in reverse. -/
structure Queue (β : Type u) where
  front : List β
  back : List β
  deriving Repr

namespace Queue

variable {β : Type u}

/-- The queue that holds nothing. -/
def empty : Queue β := ⟨[], []⟩

/-- What the queue holds, the oldest first. -/
def toList (queue : Queue β) : List β := queue.front ++ queue.back.reverse

/-- Puts an item in. -/
def enqueue (queue : Queue β) (item : β) : Queue β := { queue with back := item :: queue.back }

/-- Takes the oldest item out. -/
def dequeue? (queue : Queue β) : Option (β × Queue β) :=
  match queue.front with
  | item :: front => some (item, ⟨front, queue.back⟩)
  | [] =>
      match queue.back.reverse with
      | item :: front => some (item, ⟨front, []⟩)
      | [] => none

@[simp] theorem toList_empty : (empty : Queue β).toList = [] := rfl

@[simp] theorem toList_enqueue (queue : Queue β) (item : β) :
    (queue.enqueue item).toList = queue.toList ++ [item] := by
  simp [enqueue, toList]

/-- Nothing can be taken out exactly when nothing is held. -/
theorem dequeue?_eq_none {queue : Queue β} : queue.dequeue? = none ↔ queue.toList = [] := by
  obtain ⟨front, back⟩ := queue
  cases front with
  | cons item front => simp [dequeue?, toList]
  | nil =>
      simp only [dequeue?, toList, List.nil_append]
      cases back.reverse with
      | nil => simp
      | cons item front => simp

/-- What is taken out is the oldest item, and the others stay in order. -/
theorem toList_of_dequeue? {queue rest : Queue β} {item : β}
    (taken : queue.dequeue? = some (item, rest)) : queue.toList = item :: rest.toList := by
  obtain ⟨front, back⟩ := queue
  cases front with
  | cons first front =>
      cases taken
      rfl
  | nil =>
      simp only [dequeue?] at taken
      simp only [toList, List.nil_append]
      cases reversed : back.reverse with
      | nil => simp [reversed] at taken
      | cons first front =>
          rw [reversed] at taken
          cases taken
          simp

end Queue

end Residual
