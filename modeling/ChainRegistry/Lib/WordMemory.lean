import Mathlib.Data.List.Basic

/-! A memory of words that is given out block by block: what is read of a block after it has
been written, and after something else has. -/
namespace ChainRegistry.Lib
open List Option

structure WordMemory (α : Type*) where
  cell : Nat → α
  -- the first word that is not given out
  free : Nat

namespace WordMemory
variable {α : Type*} (memory : WordMemory α)

def read (memory : WordMemory α) (start size : Nat) : List α := (List.range size).map fun i => memory.cell (start + i)

def write (memory : WordMemory α) (start : Nat) (values : List α) : WordMemory α :=
  {memory with cell := fun i => if start ≤ i then (values[i - start]?).getD (memory.cell i) else memory.cell i}

def push (memory : WordMemory α) (values : List α) : Nat × WordMemory α :=
  (memory.free,{memory.write memory.free values with free := memory.free + values.length})

@[simp] theorem fst_push (values : List α) : (memory.push values).1 = memory.free := rfl

@[simp] theorem free_push (values : List α) : (memory.push values).2.free = memory.free + values.length := rfl

theorem read_congr {memory other : WordMemory α} {start size : Nat}
    (same : ∀ i, start ≤ i → i < start + size → other.cell i = memory.cell i) :
      other.read start size = memory.read start size := by
  apply map_congr_left
  intro i inside
  have bound := mem_range.mp inside
  exact same (start + i) (by omega) (by omega)

theorem read_write (start : Nat) (values : List α) : (memory.write start values).read start values.length = values := by
  apply ext_getElem
  · rw [read,length_map,length_range]
  · intro i left right
    simp only [read,write,getElem_map,getElem_range]
    rw [if_pos (Nat.le_add_right start i),Nat.add_sub_cancel_left,List.getElem?_eq_getElem right,getD_some]

theorem read_write_apart {start size other : Nat} {values : List α}
    (apart : start + size ≤ other ∨ other + values.length ≤ start) :
    (memory.write other values).read start size = memory.read start size := by
  apply read_congr
  intro i above below
  change (if other ≤ i then _ else _) = _
  split_ifs with inside
  · have beyond : values.length ≤ i - other := by omega
    rw [List.getElem?_eq_none beyond,getD_none]
  · rfl

theorem read_push (values : List α) :
    (memory.push values).2.read memory.free values.length = values := read_write memory memory.free values

theorem read_push_below {start size : Nat} (values : List α) (below : start + size ≤ memory.free) :
    (memory.push values).2.read start size = memory.read start size := read_write_apart memory (.inl below)

end WordMemory
end ChainRegistry.Lib
