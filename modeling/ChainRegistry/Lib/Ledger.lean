import ChainRegistry.Lib.Table
import Mathlib.Algebra.BigOperators.Group.List.Basic
import Mathlib.Algebra.Ring.Nat

/-! Tables that are read with a default, and the sum of a weight over their entries. An update
changes the sum by the difference of the weights at its key, as long as the default has none. -/
namespace ChainRegistry.Lib.Ledger
open List Function

variable {K V : Type*}

def total (weight : V → Nat) (table : Table K V) : Nat := (table.values.map weight).sum

variable [DecidableEq K]

def read (default : V) (table : Table K V) (key : K) : V := (table.lookup key).getD default

@[simp] theorem read_empty (default : V) (key : K) : read default ∅ key = default := by
  simp [read]

theorem read_insert (default : V) (table : Table K V) (key other : K) (value : V) :
    read default (table.insert key value) other = if other = key then value else read default table other := by
  rw [read,Table.lookup_insert_eq]
  split_ifs <;> rfl

private theorem sum_kerase (weight : V → Nat) {default : V} (zero : weight default = 0) (key : K)
    (entries : List (Sigma fun _ : K => V)) :
    ((entries.kerase key).map fun entry => weight entry.2).sum + weight ((entries.dlookup key).getD default) =
      (entries.map fun entry => weight entry.2).sum := by
  induction entries with
  | nil => simp [zero]
  | cons entry entries ih =>
    obtain ⟨other,value⟩ := entry
    by_cases same : key = other
    · subst same
      have removed : List.kerase key (⟨key,value⟩ :: entries) = entries := kerase_cons_eq rfl
      rw [removed,dlookup_cons_eq]
      simp [add_comm]
    · rw [kerase_cons_ne same,dlookup_cons_ne _ _ same,map_cons,map_cons,sum_cons,sum_cons,add_assoc,ih]

theorem total_insert (weight : V → Nat) {default : V} (zero : weight default = 0) (table : Table K V) (key : K) (value : V) :
    total weight (table.insert key value) + weight (read default table key) = total weight table + weight value := by
  have parts := sum_kerase weight zero key table.entries
  have after : total weight (table.insert key value) =
      weight value + ((table.entries.kerase key).map fun entry => weight entry.2).sum := by
    simp [total,Table.values,AList.insert,List.kinsert,map_map,comp_def]
  have before : total weight table = (table.entries.map fun entry => weight entry.2).sum := by
    simp [total,Table.values,map_map,comp_def]
  change _ + weight (read default table key) = _ at parts
  omega

end ChainRegistry.Lib.Ledger
