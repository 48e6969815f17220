import ChainRegistry.Common.IdealCrates
import ChainRegistry.Lib.LinkedChain
import ChainRegistry.Lib.Runs
import ChainRegistry.Node.ChainStore
import Mathlib.Data.List.MinMax

/-! The chain store as a map from heights to blocks: an insertion puts one block, a rollback cuts
the chain, and a rebuild of the package index changes nothing. -/
namespace ChainRegistry.ChainStore
open Lib Runs LinkedChain List Option Table

variable {crates : Crates} {store : ChainStore} {height : Nat} {block : Block} {tip : Nat}

structure Indexed (crates : Crates) (store : ChainStore) : Prop where
  hashed : ∀ hash block, store.blocksByHash.lookup hash = some block → block.hash crates = hash
  stored : ∀ height hash, store.blocksByHeight.lookup height = some hash →
    ∃ block, store.blocksByHash.lookup hash = some block ∧ block.header.height = height

theorem le_tipHeight (found : (store.blocksByHeight.lookup height).isSome) : height ≤ store.tipHeight :=
  le_max_of_le (AList.lookup_isSome.mp found) (Nat.le_refl height)

theorem tipHeight_eq (full : ∀ height, (store.blocksByHeight.lookup height).isSome ↔ height ≤ tip) :
    store.tipHeight = tip := by
  apply Nat.le_antisymm
  · apply max_le_of_forall_le
    intro height inside
    exact (full height).mp (AList.lookup_isSome.mpr inside)
  · exact le_tipHeight ((full tip).mpr (Nat.le_refl tip))

theorem tipHeight_congr {other : ChainStore} (same : ∀ height, (store.blocksByHeight.lookup height).isSome ↔
    (other.blocksByHeight.lookup height).isSome) : store.tipHeight = other.tipHeight := by
  apply Nat.le_antisymm
  · apply max_le_of_forall_le
    intro height inside
    exact le_tipHeight ((same height).mp (AList.lookup_isSome.mpr inside))
  · apply max_le_of_forall_le
    intro height inside
    exact le_tipHeight ((same height).mpr (AList.lookup_isSome.mpr inside))

namespace Indexed
section
variable (indexed : Indexed crates store)
include indexed

theorem isSome_iff (height : Nat) :
    (store.getBlockByHeight height).isSome ↔ (store.blocksByHeight.lookup height).isSome := by
  cases found : store.blocksByHeight.lookup height with
  | none => simp [getBlockByHeight,found]
  | some hash =>
    obtain ⟨block,stored,_⟩ := indexed.stored height hash found
    simp [getBlockByHeight,getBlockByHash,found,stored]

theorem height_eq (found : store.getBlockByHeight height = some block) : block.header.height = height := by
  obtain ⟨hash,listed,stored⟩ := bind_eq_some_iff.mp found
  obtain ⟨other,present,place⟩ := indexed.stored height hash listed
  rw [getBlockByHash,present,Option.some.injEq] at stored
  exact stored ▸ place

theorem header_eq (injective : crates.CollisionFree) {block stored : Block}
    (found : store.blocksByHash.lookup (block.hash crates) = some stored) : stored.header = block.header :=
  injective.headers (indexed.hashed _ stored found)

theorem insertBlock (injective : crates.CollisionFree) (block : Block) : Indexed crates (store.insertBlock crates block) := by
  refine ⟨?_,?_⟩
  · intro hash other found
    simp only [ChainStore.insertBlock,lookup_insert_eq] at found
    split_ifs at found with same
    · cases found
      exact same.symm
    · exact indexed.hashed hash other found
  · intro height hash listed
    simp only [ChainStore.insertBlock,lookup_insert_eq] at listed ⊢
    split_ifs at listed with same
    · cases listed
      exact ⟨block,if_pos rfl,same.symm⟩
    · obtain ⟨stored,found,place⟩ := indexed.stored height hash listed
      by_cases own : hash = block.hash crates
      · subst own
        rw [indexed.header_eq injective found] at place
        exact absurd place.symm same
      · exact ⟨stored,by rw [if_neg own,found],place⟩

theorem view_insert (injective : crates.CollisionFree) (block : Block) : (store.insertBlock crates block).getBlockByHeight =
    put (fun block => block.header.height) store.getBlockByHeight block := by
  funext height
  rw [put_apply,getBlockByHeight]
  simp only [ChainStore.insertBlock,lookup_insert_eq]
  split_ifs with same
  · simp [getBlockByHash,lookup_insert_eq]
  · cases listed : store.blocksByHeight.lookup height with
    | none => simp [getBlockByHeight,listed]
    | some hash =>
      obtain ⟨stored,found,place⟩ := indexed.stored height hash listed
      have other : hash ≠ block.hash crates := by
        intro own
        rw [own] at found
        rw [indexed.header_eq injective found] at place
        exact same place.symm
      simp [getBlockByHeight,getBlockByHash,listed,lookup_insert_eq,other]

end

end Indexed

theorem lookup_rollback (store : ChainStore) (height other : Nat) :
    (store.rollbackToHeight height).1.blocksByHeight.lookup other =
      if other ≤ height then store.blocksByHeight.lookup other else none := by
  have fold : ∀ (heights : List Nat) (index : Table Nat String),
      (heights.foldl (fun index h => index.erase h) index).lookup other =
        if other ∈ heights then none else index.lookup other := by
    intro heights
    induction heights with
    | nil => simp
    | cons first heights ih =>
      intro index
      rw [foldl_cons,ih,lookup_erase_eq]
      by_cases same : other = first <;> simp [same]
  have above : other ∈ store.heightsAbove height ↔ height < other ∧ other ≤ store.tipHeight := by
    simp only [heightsAbove,mem_reverse,List.mem_map,mem_range]
    constructor
    · intro ⟨k,inside,same⟩
      omega
    · intro ⟨lower,upper⟩
      exact ⟨other - height - 1,by omega,by omega⟩
  simp only [rollbackToHeight,fold,above]
  by_cases low : other ≤ height
  · rw [if_pos low,if_neg (by omega)]
  · rw [if_neg low]
    split_ifs with inside
    · rfl
    · -- above the tip the index was empty before
      rw [← not_isSome_iff_eq_none]
      intro found
      exact inside ⟨by omega,le_tipHeight found⟩

theorem Indexed.rollback (indexed : Indexed crates store) (height : Nat) : Indexed crates (store.rollbackToHeight height).1 := by
  refine ⟨indexed.hashed,?_⟩
  intro other hash listed
  rw [lookup_rollback] at listed
  split_ifs at listed
  exact indexed.stored other hash listed

theorem view_rollback (store : ChainStore) (height : Nat) :
    (store.rollbackToHeight height).1.getBlockByHeight = cut store.getBlockByHeight height := by
  funext other
  simp only [cut,getBlockByHeight,lookup_rollback]
  split_ifs <;> rfl

structure SameChain (store other : ChainStore) : Prop where
  hashes : ∀ hash, store.blocksByHash.lookup hash = other.blocksByHash.lookup hash
  heights : ∀ height, store.blocksByHeight.lookup height = other.blocksByHeight.lookup height

namespace SameChain
variable {other : ChainStore} (same : SameChain store other)
include same

theorem view : store.getBlockByHeight = other.getBlockByHeight := by
  have hashes : store.getBlockByHash = other.getBlockByHash := funext same.hashes
  funext height
  rw [getBlockByHeight,same.heights,hashes,getBlockByHeight]

theorem tipHeight : store.tipHeight = other.tipHeight :=
  tipHeight_congr fun height => by rw [same.heights]

theorem indexed (indexed : Indexed crates other) : Indexed crates store := by
  refine ⟨fun hash block found => ?_,fun height hash found => ?_⟩
  · rw [same.hashes] at found
    exact indexed.hashed hash block found
  · rw [same.heights] at found
    rw [same.hashes]
    exact indexed.stored height hash found

end SameChain

def Listed (crates : Crates) (store : ChainStore) : Prop :=
  ∀ height hash, store.blocksByHeight.lookup height = some hash →
    ∃ block, store.blocksByHash.lookup hash = some block ∧ block.hash crates = hash ∧ block.header.height = height

theorem Indexed.listed (indexed : Indexed crates store) : Listed crates store := by
  intro height hash found
  obtain ⟨block,stored,place⟩ := indexed.stored height hash found
  exact ⟨block,stored,indexed.hashed hash block stored,place⟩

theorem Listed.reinsert (listed : Listed crates store) (height : Nat) :
    SameChain (store.perform crates (.reinsert height)) store := by
  cases found : store.getBlockByHeight height with
  | none =>
    simp only [perform,found]
    exact ⟨fun _ => rfl,fun _ => rfl⟩
  | some block =>
    simp only [perform,found]
    obtain ⟨hash,indexed,stored⟩ := bind_eq_some_iff.mp found
    obtain ⟨other,present,own,place⟩ := listed height hash indexed
    cases present.symm.trans stored
    refine ⟨fun hash => ?_,fun height => ?_⟩
    · simp only [insertBlock,lookup_insert_eq]
      split_ifs with same
      · rw [same,own,present]
      · rfl
    · simp only [insertBlock,lookup_insert_eq]
      split_ifs with same
      · rw [same,place,indexed,own]
      · rfl

section
variable (indexed : Indexed crates store)
include indexed

theorem Indexed.reinsert (height : Nat) : Indexed crates (store.perform crates (.reinsert height)) ∧
    (store.perform crates (.reinsert height)).getBlockByHeight = store.getBlockByHeight ∧
    (store.perform crates (.reinsert height)).tipHeight = store.tipHeight := by
  have same := indexed.listed.reinsert height
  exact ⟨same.indexed indexed,same.view,same.tipHeight⟩

theorem Indexed.perform (injective : crates.CollisionFree) (write : Write) : Indexed crates (store.perform crates write) := by
  cases write with
  | rollback height => exact indexed.rollback height
  | insert block => exact indexed.insertBlock injective block
  | clearPackages => exact ⟨indexed.hashed,indexed.stored⟩
  | reinsert height => exact (indexed.reinsert height).1

theorem Indexed.performAll (injective : crates.CollisionFree) (writes : List Write) :
    Indexed crates (store.performAll crates writes) := by
  apply kept_run (fun store : ChainStore => Indexed crates store) writes _ store indexed
  intro store write _ indexed
  exact indexed.perform injective write

end

theorem indexed_empty (crates : Crates) : Indexed crates ⟨∅,∅,∅⟩ := ⟨by simp,by simp⟩

theorem indexed_genesis (injective : crates.CollisionFree) : Indexed crates (genesis crates) :=
  (indexed_empty crates).insertBlock injective Block.genesis

theorem getBlockByHeight_genesis (injective : crates.CollisionFree) :
    (genesis crates).getBlockByHeight 0 = some Block.genesis := by
  rw [genesis,(indexed_empty crates).view_insert injective,put_apply]
  exact if_pos rfl

/-- The invariant of the store: a full chain of blocks, each linked to the one below. -/
structure Canonical (crates : Crates) (store : ChainStore) : Prop where
  indexed : Indexed crates store
  chain : Chain (fun block => block.header.height) (Block.hash crates) (fun block => block.header.prevHash)
    store.getBlockByHeight store.tipHeight

def FitsInto (crates : Crates) (store : ChainStore) (block : Block) : Prop :=
  Fits (fun block => block.header.height) (Block.hash crates) (fun block => block.header.prevHash)
    store.getBlockByHeight store.tipHeight block

namespace Canonical
theorem of_chain (indexed : Indexed crates store)
    (chain : Chain (fun block => block.header.height) (Block.hash crates) (fun block => block.header.prevHash)
      store.getBlockByHeight tip) : Canonical crates store ∧ store.tipHeight = tip := by
  have same : store.tipHeight = tip := by
    apply tipHeight_eq
    intro height
    rw [← indexed.isSome_iff,chain.present]
  exact ⟨⟨indexed,same ▸ chain⟩,same⟩

section
variable (canonical : Canonical crates store)
include canonical

theorem insertBlock (injective : crates.CollisionFree) (fits : FitsInto crates store block) :
    Canonical crates (store.insertBlock crates block) ∧
      (store.insertBlock crates block).tipHeight = max store.tipHeight block.header.height := by
  apply of_chain (canonical.indexed.insertBlock injective block)
  rw [canonical.indexed.view_insert injective]
  exact canonical.chain.put fits

theorem rollback (inside : height ≤ store.tipHeight) :
    Canonical crates (store.rollbackToHeight height).1 ∧ (store.rollbackToHeight height).1.tipHeight = height := by
  apply of_chain (canonical.indexed.rollback height)
  rw [view_rollback]
  exact canonical.chain.cut inside

theorem reinsert (height : Nat) : Canonical crates (store.perform crates (.reinsert height)) := by
  obtain ⟨indexed,view,tip⟩ := canonical.indexed.reinsert height
  refine ⟨indexed,?_⟩
  rw [view,tip]
  exact canonical.chain

end

end Canonical
end ChainRegistry.ChainStore
