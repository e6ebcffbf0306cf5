import Collocation.Proofs.Forest.Unfolding
import Mathlib.Logic.Function.Iterate

/-!
# Walks

A walk visits a value, goes on to its kids, and then to what was still to be visited. It keeps no
account of where it has been. If a forest follows the kids, the walk through its trees ends
nevertheless: it takes as many steps as the forest has values, and visits them in pre-order.
-/

set_option autoImplicit false

namespace Collocation

variable {α : Type}

/-- A walk that is under way. -/
structure Walk (α : Type) where
  /-- What is to be visited, the next value first. -/
  pending : List α
  /-- What was visited, in this order. -/
  visited : List α

namespace Walk

/-- Visits the next value. Its kids are visited before everything else that is pending. -/
def step (kids : α → List α) : Walk α → Walk α
  | ⟨[], visited⟩ => ⟨[], visited⟩
  | ⟨value :: pending, visited⟩ => ⟨kids value ++ pending, visited ++ [value]⟩

/-- A walk through the trees of a forest comes to what was pending behind them. -/
theorem iterate_step {kids : α → List α} {trees : Forest α} (h : Forest.Follows kids trees)
    (pending visited : List α) :
    (step kids)^[Forest.size trees] ⟨Forest.tops trees ++ pending, visited⟩ =
      ⟨pending, visited ++ Forest.values trees⟩ := by
  induction trees using Forest.induction generalizing pending visited with
  | nil =>
    rw [Forest.values, List.append_nil]
    rfl
  | cons value children trees below beside =>
    have hKids : Forest.tops children = kids value := h _ (Forest.mem_subtrees_cons.2 (.inl rfl))
    have hBelow : Forest.Follows kids children := fun tree hTree =>
      h tree (Forest.mem_subtrees_cons.2 (.inr (.inl hTree)))
    have hBeside : Forest.Follows kids trees := fun tree hTree =>
      h tree (Forest.mem_subtrees_cons.2 (.inr (.inr hTree)))
    have hSize : Forest.size (.node value children :: trees) =
        Forest.size trees + Forest.size children + 1 := by
      simp only [Forest.size, Tree.size]
      omega
    -- One step to the value, then the walk below it, then the walk beside it.
    calc (step kids)^[Forest.size (.node value children :: trees)]
          ⟨Forest.tops (.node value children :: trees) ++ pending, visited⟩
        = (step kids)^[Forest.size trees] ((step kids)^[Forest.size children]
            ⟨Forest.tops children ++ (Forest.tops trees ++ pending), visited ++ [value]⟩) := by
          rw [hSize, Function.iterate_succ_apply, Function.iterate_add_apply, hKids]
          rfl
      _ = (step kids)^[Forest.size trees]
            ⟨Forest.tops trees ++ pending, visited ++ [value] ++ Forest.values children⟩ := by
          rw [below hBelow]
      _ = ⟨pending, visited ++ [value] ++ Forest.values children ++ Forest.values trees⟩ :=
          beside hBeside pending _
      _ = ⟨pending, visited ++ Forest.values (.node value children :: trees)⟩ := by
          simp only [Forest.values, Tree.values, List.append_assoc, List.cons_append,
            List.nil_append]

end Walk

end Collocation
