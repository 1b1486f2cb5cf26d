import Mathlib

/-!
# Orders of keys

What a map needs of the comparison of its keys. Of the elements of a partial order, "not above" is
such a comparison exactly on a chain.
-/

namespace KeyOrders

variable {κ : Type} {S : Set κ}

def Incomparable (lt : κ → κ → Prop) (x y : κ) : Prop := ¬ lt x y ∧ ¬ lt y x

/-- A strict weak ordering of the keys that tells any two of them apart. -/
structure OrdersKeys (lt : κ → κ → Prop) (S : Set κ) : Prop where
  irrefl : ∀ x ∈ S, ¬ lt x x
  asymm : ∀ x ∈ S, ∀ y ∈ S, lt x y → ¬ lt y x
  trans : ∀ x ∈ S, ∀ y ∈ S, ∀ z ∈ S, lt x y → lt y z → lt x z
  incomparable_trans : ∀ x ∈ S, ∀ y ∈ S, ∀ z ∈ S,
    Incomparable lt x y → Incomparable lt y z → Incomparable lt x z
  incomparable_iff : ∀ x ∈ S, ∀ y ∈ S, Incomparable lt x y ↔ x = y

variable [PartialOrder κ]

theorem incomparable_not_ge_iff {x y : κ} : Incomparable (fun x y : κ => ¬ y ≤ x) x y ↔ x = y := by
  rw [Incomparable, not_not, not_not]
  constructor
  · rintro ⟨hyx, hxy⟩
    exact le_antisymm hxy hyx
  · rintro rfl
    exact ⟨le_rfl, le_rfl⟩

theorem OrdersKeys.isChain (h : OrdersKeys (fun x y : κ => ¬ y ≤ x) S) : IsChain (· ≤ ·) S := by
  intro x hx y hy _
  by_cases hyx : y ≤ x
  · exact Or.inr hyx
  · exact Or.inl (not_not.mp (h.asymm x hx y hy hyx))

theorem le_of_isChain (hS : IsChain (· ≤ ·) S) {x y : κ} (hx : x ∈ S) (hy : y ∈ S)
    (hyx : ¬ y ≤ x) : x ≤ y :=
  (hS.total hx hy).resolve_right hyx

theorem ordersKeys_of_isChain (hS : IsChain (· ≤ ·) S) :
    OrdersKeys (fun x y : κ => ¬ y ≤ x) S where
  irrefl x _ := not_not.mpr le_rfl
  asymm x hx y hy hyx := not_not.mpr (le_of_isChain hS hx hy hyx)
  trans x hx y hy z hz hyx hzy hzx := by
    have hxy := le_of_isChain hS hx hy hyx
    exact hzy (hzx.trans hxy)
  incomparable_trans x _ y _ z _ hxy hyz := by
    rw [incomparable_not_ge_iff] at hxy hyz ⊢
    exact hxy.trans hyz
  incomparable_iff x _ y _ := incomparable_not_ge_iff

theorem ordersKeys_iff_isChain :
    OrdersKeys (fun x y : κ => ¬ y ≤ x) S ↔ IsChain (· ≤ ·) S :=
  ⟨OrdersKeys.isChain, ordersKeys_of_isChain⟩

end KeyOrders
