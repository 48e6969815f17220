import ChainRegistry.Lib.Ledger
import Mathlib.Algebra.BigOperators.Finprod

/-! The total of a ledger as a sum over its keys. A key without an entry is read as the
default, which has no weight, so that the sum may go over all keys, or bound a part of them. -/
namespace ChainRegistry.Lib.Ledger
open List Finset

variable {K V : Type*} [DecidableEq K] (weight : V → Nat) {default : V}

theorem read_of_mem (default : V) {table : Table K V} {entry : Sigma fun _ : K => V} (inside : entry ∈ table.entries) :
    read default table entry.1 = entry.2 := by
  rw [read,AList.mem_lookup_iff.mpr inside]
  rfl

theorem total_eq_sum (default : V) (table : Table K V) :
    total weight table = ∑ key ∈ table.ids, weight (read default table key) := by
  have reads : table.keys.map (fun key => weight (read default table key)) = table.values.map weight := by
    rw [AList.keys,List.keys,Table.values,List.map_map,List.map_map]
    apply map_congr_left
    intro entry inside
    exact congrArg weight (read_of_mem default inside)
  rw [Table.ids,sum_toFinset _ (AList.keys_nodup table),reads]
  rfl

variable (zero : weight default = 0)

include zero in
theorem support_subset (table : Table K V) : Function.support (fun key => weight (read default table key)) ⊆ table.ids := by
  intro key weighs
  rw [mem_coe,Table.mem_ids]
  cases found : table.lookup key with
  | none =>
    refine absurd ?_ weighs
    change weight ((table.lookup key).getD default) = 0
    rw [found]
    exact zero
  | some value => exact ⟨value,rfl⟩

include zero in
theorem total_eq_finsum (table : Table K V) : total weight table = finsum fun key => weight (read default table key) := by
  rw [finsum_eq_sum_of_support_subset _ (support_subset weight zero table)]
  exact total_eq_sum weight default table

include zero in
theorem sum_le_total (table : Table K V) (keys : Finset K) :
    ∑ key ∈ keys, weight (read default table key) ≤ total weight table := by
  rw [total_eq_sum weight default table]
  apply sum_le_sum_of_ne_zero
  intro key _ weighs
  exact support_subset weight zero table weighs

end ChainRegistry.Lib.Ledger
