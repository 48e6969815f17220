import ChainRegistry.Node.Bridge
import ChainRegistry.Resolver.MerkleProofs

/-! What the two Merkle roots of the node bind: that of a block and that of a rollup batch. Both copy
the last hash of an odd level. -/
namespace ChainRegistry
open Lib Merkle List HashTree

section
variable {crates : Crates} (free : crates.CollisionFree) (apart : crates.DigestsApart) {txs : List Transaction}
include free apart

end

namespace Bridge
section
variable (sha256 : List UInt8 → Word)

def node (left right : Word) : Word := sha256 (Abi.bytes left ++ Abi.bytes right)

/-- The pairs of hashes that `merkle_root` hashes. -/
def hashedPairs (leaves : List Word) : List (Word × Word) := foldPairs (node sha256) leaves.length leaves

theorem merkleLevel_pairs (hashes : List Word) :
    merkleLevel sha256 hashes = (levelPairs hashes).map fun pair => node sha256 pair.1 pair.2 := by
  fun_induction levelPairs hashes with
  | case1 left right rest ih =>
    rw [merkleLevel,ih]
    rfl
  | case2 last => rfl
  | case3 => rfl

variable {sha256} {leaves others : List Word}

variable (sha256) in
theorem merkleRoot_tree (some : leaves ≠ []) :
    ∃ tree : HashTree Word, merkleRoot sha256 leaves = tree.label (node sha256) ∧ tree.Uniform (Nat.clog 2 leaves.length) ∧
      tree.leaves = filled leaves ∧ ∀ pair ∈ tree.pairs (node sha256), pair ∈ hashedPairs sha256 leaves :=
  list_tree (merkleFold sha256) (fun fuel label => by cases fuel <;> rfl)
    (fun fuel first second rest => congrArg (merkleFold sha256 fuel) (merkleLevel_pairs sha256 _)) leaves some

end
end Bridge

namespace Leaving
def words : List Word := [1,2,3]

def others : List Word := [1,2,4]

end Leaving
open Leaving Sealed

end ChainRegistry
