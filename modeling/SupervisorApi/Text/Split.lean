set_option autoImplicit false

namespace SupervisorApi

variable {α : Type} [DecidableEq α]

def splitAt (mark : α) : List α → List (List α)
  | [] => [[]]
  | a :: rest =>
    if a = mark then [] :: splitAt mark rest
    else
      match splitAt mark rest with
      | [] => [[a]]
      | part :: more => (a :: part) :: more

theorem splitAt_ne_nil (mark : α) (s : List α) : splitAt mark s ≠ [] := by
  cases s with
  | nil => simp [splitAt]
  | cons a rest =>
    unfold splitAt
    split
    · simp
    · split <;> simp

end SupervisorApi
