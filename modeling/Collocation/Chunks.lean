/-!
# Chunks

A list is cut into chunks of one size, of which the last may be shorter. Put together again they are
the list.
-/

set_option autoImplicit false

namespace Collocation

variable {α : Type}

/-- The chunks of a list. A chunk has one item at least. -/
def chunks (size : Nat) : List α → List (List α)
  | [] => []
  | item :: items => (item :: items.take (size - 1)) :: chunks size (items.drop (size - 1))
termination_by items => items.length
decreasing_by
  simp only [List.length_drop, List.length_cons]
  omega

/-- The chunks hold the items of the list in their order. -/
theorem flatten_chunks (size : Nat) (items : List α) : (chunks size items).flatten = items := by
  fun_induction chunks size items with
  | case1 => rfl
  | case2 item items ih =>
    rw [List.flatten_cons, ih, List.cons_append, List.take_append_drop]

end Collocation
