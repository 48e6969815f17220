import ChainRegistry.Contracts.Evm
import Mathlib.Data.List.Nodup

/-! The selection of the validators of a package: `_selectValidatorsWithSeed` of
`contracts/VRF.sol`, on the pool into which the list is copied first. -/
namespace ChainRegistry.Vrf
open Lib Fallible List

variable (evm : Evm) (randomSeed : Word)

/-- `pool[i]`, with the panic for an index outside of the array. -/
def entry (pool : List Address) (i : Nat) : Except Revert Address :=
  match pool[i]? with
  | some address => .ok address
  | none => .error (.panic 0x32)

def shuffle : Nat → List Address → Except Revert (List Address)
  | 0, pool => .ok pool
  | i + 1, pool => do
    let j := (evm.keccak256 (Abi.bytes randomSeed ++ Abi.bytes (Abi.ofUint (i + 1)))).toNat % (i + 2)
    let tmp ← entry pool (i + 1)
    let other ← entry pool j
    shuffle i ((pool.set (i + 1) other).set j tmp)

def selectValidatorsWithSeed (validatorsPerPackage : UInt8) (activeValidators : List Address) : Except Revert (List Address) := do
  let last ← checkedSub activeValidators.length 1
  let pool ← shuffle evm randomSeed last activeValidators
  (range validatorsPerPackage.toNat).mapM (entry pool)

variable {pool : List Address}

theorem entry_inside {i : Nat} (inside : i < pool.length) : entry pool i = .ok pool[i] := by
  rw [entry,List.getElem?_eq_getElem inside]

theorem entries_take {n : Nat} (enough : n ≤ pool.length) : (range n).mapM (entry pool) = .ok (pool.take n) := by
  induction n with
  | zero => rfl
  | succ n ih =>
    rw [range_succ,mapM_append,ih (by omega),take_succ_eq_append_getElem enough]
    simp [entry_inside enough]

theorem shuffle_perm (i : Nat) (inside : i < pool.length) : ∃ after, shuffle evm randomSeed i pool = .ok after ∧
    after.Perm pool := by
  induction i generalizing pool with
  | zero => exact ⟨pool,rfl,.refl pool⟩
  | succ i ih =>
    rw [shuffle]
    generalize (evm.keccak256 _).toNat = drawn
    have low : drawn % (i + 2) < pool.length := (Nat.mod_lt _ (by omega)).trans_le inside
    have still : i < ((pool.set (i + 1) pool[drawn % (i + 2)]).set (drawn % (i + 2)) pool[i + 1]).length := by
      rw [length_set,length_set]
      omega
    obtain ⟨after,done,same⟩ := ih still
    refine ⟨after,?_,same.trans (set_set_perm inside low)⟩
    simp only [entry_inside inside,entry_inside low]
    exact done

/-- The swaps keep a permutation, so that no validator is selected twice. -/
theorem selected_distinct (validatorsPerPackage : UInt8) (activeValidators : List Address) (distinct : activeValidators.Nodup)
    (enough : max 1 validatorsPerPackage.toNat ≤ activeValidators.length) :
    ∃ selected pool, selectValidatorsWithSeed evm randomSeed validatorsPerPackage activeValidators = .ok selected ∧
      pool.Perm activeValidators ∧ selected <+: pool ∧ selected.length = validatorsPerPackage.toNat ∧ selected.Nodup ∧
      ∀ validator ∈ selected, validator ∈ activeValidators := by
  obtain ⟨one,many⟩ := max_le_iff.mp enough
  obtain ⟨pool,done,same⟩ := shuffle_perm evm randomSeed _ (Nat.sub_one_lt_of_le one le_rfl)
  have fits : validatorsPerPackage.toNat ≤ pool.length := same.length_eq.symm ▸ many
  refine ⟨pool.take validatorsPerPackage.toNat,pool,?_,same, take_prefix _ _,length_take_of_le fits,?_,?_⟩
  · simp only [selectValidatorsWithSeed,bind_ok,checkedSub_ok]
    exact ⟨_,⟨one,rfl⟩,pool,done,entries_take fits⟩
  · exact (same.nodup_iff.mpr distinct).sublist (take_sublist _ _)
  · exact fun validator chosen => same.mem_iff.mp (mem_of_mem_take chosen)

theorem two_of_three_selected : ∃ selected, selectValidatorsWithSeed ⟨fun _ => 7,fun _ _ _ _ => 0,1⟩ 5 2 [10,11,12] =
    .ok selected ∧
    selected.length = 2 ∧ selected.Nodup := by
  obtain ⟨selected,_,done,_,_,count,apart,_⟩ :=
    selected_distinct ⟨fun _ => 7,fun _ _ _ _ => 0,1⟩ 5 2 [10,11,12] (by decide) (by decide)
  exact ⟨selected,done,count,apart⟩

end ChainRegistry.Vrf
