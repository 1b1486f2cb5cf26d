import TrapHandler.KeyOrders

/-!
# The keys of the file systems

The comparisons that the maps of file systems are declared with. Both look at the second components
whatever the first ones are, and `fsNameComparer` takes the keys of `fsIdComparer`.
-/

namespace TrapHandler

open KeyOrders

local instance int32Order : LinearOrder Int32 where
  le_refl := Int32.le_refl
  le_trans _ _ _ := Int32.le_trans
  le_antisymm _ _ := Int32.le_antisymm
  le_total := Int32.le_total
  lt_iff_le_not_ge x y := by
    rw [Int32.not_le]
    exact ⟨fun h => ⟨Int32.le_of_lt h, h⟩, fun h => h.2⟩
  toDecidableLE := inferInstance
  toDecidableLT := inferInstance

abbrev FsId := Int32 × Int32

def tupleComparer {α β : Type} [LT α] [LT β] [DecidableLT α] [DecidableLT β] (x y : α × β) :
    Bool :=
  if x.1 < y.1 then true
  else if x.2 < y.2 then true
  else false

def fsIdComparer (x y : FsId) : Bool := tupleComparer x y

def fsNameComparer (x y : FsId) : Bool := tupleComparer x y

section

variable {α β : Type} [LinearOrder α] [LinearOrder β]

theorem tupleComparer_iff (x y : α × β) : tupleComparer x y = true ↔ ¬ y ≤ x := by
  rw [Prod.le_def, not_and_or, not_le, not_le, tupleComparer]
  split_ifs with hfst hsnd
  · exact iff_of_true rfl (Or.inl hfst)
  · exact iff_of_true rfl (Or.inr hsnd)
  · exact iff_of_false id (not_or_intro hfst hsnd)

theorem ordersKeys_tupleComparer_iff (keys : Set (α × β)) :
    OrdersKeys (fun x y => tupleComparer x y = true) keys ↔ IsChain (· ≤ ·) keys := by
  simp only [tupleComparer_iff]
  exact ordersKeys_iff_isChain

end

/-- Both comparers are orders of the keys for which one of any two has both components at most those
of the other. -/
theorem fsComparers_orderKeys_iff (keys : Set FsId) :
    (OrdersKeys (fun x y => fsIdComparer x y = true) keys ∧
      OrdersKeys (fun x y => fsNameComparer x y = true) keys) ↔ IsChain (· ≤ ·) keys := by
  simp only [fsIdComparer, fsNameComparer, and_self]
  exact ordersKeys_tupleComparer_iff keys

/-- Each of these keys comes in front of the other. -/
theorem fsComparers_crossed :
    ¬ (OrdersKeys (fun x y => fsIdComparer x y = true) Set.univ ∧
      OrdersKeys (fun x y => fsNameComparer x y = true) Set.univ) := by
  rintro ⟨h, -⟩
  have hleft : fsIdComparer (1, 2) (2, 1) = true := by decide
  have hright : fsIdComparer (2, 1) (1, 2) = true := by decide
  exact h.asymm _ (Set.mem_univ _) _ (Set.mem_univ _) hleft hright

end TrapHandler
