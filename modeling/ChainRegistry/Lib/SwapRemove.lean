import Mathlib.Data.List.Perm.Basic

/-! Removal from an array by moving its last element to the place of the removed one. -/
namespace ChainRegistry.Lib
open List

variable {α : Type*} [DecidableEq α]

/-- The first place of the element gets the last one, which is then cut off. -/
def swapRemove (a : α) (list : List α) : List α :=
  if list.contains a then (list.set (list.idxOf a) (list.getLast?.getD a)).dropLast else list

theorem swapRemove_split {a : α} {early : List α} (absent : a ∉ early) (late : List α) :
    (swapRemove a (early ++ a :: late)).Perm (early ++ late) := by
  have inside : (early ++ a :: late).contains a := by simp
  have place : (early ++ a :: late).idxOf a = early.length := by
    rw [idxOf_append_of_notMem absent,idxOf_cons_self,Nat.add_zero]
  have written (b : α) : (early ++ a :: late).set early.length b = early ++ b :: late := by simp
  rw [swapRemove,if_pos inside,place,written]
  rcases eq_nil_or_concat late with rfl | ⟨init,last,rfl⟩
  · simp
  · have moved : (early ++ last :: (init ++ [last])).dropLast = early ++ last :: init := by
      rw [← cons_append,← append_assoc,dropLast_concat]
    have found : (early ++ a :: (init ++ [last])).getLast?.getD a = last := by
      rw [← cons_append,← append_assoc,List.getLast?_concat,Option.getD_some]
    rw [concat_eq_append,found,moved]
    exact perm_append_left_iff early |>.mpr (perm_append_singleton last init).symm

theorem swapRemove_perm {a : α} {list : List α} (inside : a ∈ list) : (a :: swapRemove a list).Perm list := by
  obtain ⟨early,late,rfl,absent⟩ := eq_append_cons_of_mem inside
  exact ((swapRemove_split absent late).cons a).trans perm_middle.symm

end ChainRegistry.Lib
