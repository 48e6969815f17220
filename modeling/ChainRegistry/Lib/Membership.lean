import Mathlib.Data.Finset.Image

/-! The members of a set after a log of who joins it and who leaves it. The last item of a key
decides, so a log acts on each member by itself. -/
namespace ChainRegistry.Lib.Membership
open Finset

variable {α β : Type*} [DecidableEq α] [DecidableEq β] (left right : Finset α) (members : Finset α) (item : α × Bool)

def enter : Finset α :=
  if item.2 then insert item.1 members else members.erase item.1

variable (log : List (α × Bool))

def after : Finset α := log.foldl enter members

theorem mem_enter (a : α) :
    a ∈ enter members item ↔ if a = item.1 then item.2 = true else a ∈ members := by
  unfold enter
  split_ifs with joins same same
  · simp [same,joins]
  · simp [same]
  · simp [same,joins]
  · simp [same]

theorem after_append (first second : List (α × Bool)) :
    after members (first ++ second) = after (after members first) second :=
  List.foldl_append

theorem enter_union : enter (left ∪ right) item = enter left item ∪ enter right item := by
  ext a
  simp only [mem_union,mem_enter]
  split_ifs
  · exact (or_self_iff).symm
  · exact Iff.rfl

theorem after_union : after (left ∪ right) log = after left log ∪ after right log := by
  induction log generalizing left right with
  | nil => rfl
  | cons item log ih =>
    have first : after (left ∪ right) (item :: log) = after (enter left item ∪ enter right item) log := by
      rw [← enter_union]
      rfl
    rw [first,ih]
    rfl

theorem after_subset (members other : Finset α) (log : List (α × Bool)) : after members log ⊆ after other log ∪ members := by
  induction log using List.reverseRecOn with
  | nil => exact subset_union_right
  | append_singleton log item ih =>
    rw [after_append,after_append]
    intro a inside
    change a ∈ enter (after members log) item at inside
    change a ∈ enter (after other log) item ∪ members
    rw [mem_enter] at inside
    rw [mem_union,mem_enter]
    split_ifs at inside ⊢ with same
    · exact .inl inside
    · exact mem_union.mp (ih inside)

theorem image_after {f : α → β} (injective : Function.Injective f) (members : Finset α) (log : List (α × Bool)) :
    (after members log).image f = after (members.image f) (log.map fun item => (f item.1,item.2)) := by
  induction log generalizing members with
  | nil => rfl
  | cons item log ih =>
    have first : (enter members item).image f = enter (members.image f) (f item.1,item.2) := by
      unfold enter
      split_ifs
      · exact image_insert f item.1 members
      · exact image_erase injective members item.1
    change (after (enter members item) log).image f = after (enter (members.image f) (f item.1,item.2)) _
    rw [ih,first]

end ChainRegistry.Lib.Membership
