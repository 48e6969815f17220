import ChainRegistry.Common.Block
import ChainRegistry.ZkValidator.BatchCircuit

/-! The rollup batches of the node: the part of `tick` in `crates/node/src/bridge.rs` that makes
the call of the registry from the blocks since the last batch. -/
namespace ChainRegistry
open Abi Lib.Fallible

structure RollupBatch where
  (prevRoot nextRoot : Word)
  txCount : Nat
  dataRoot : Word
  proof : Vector Word 8
  publicInputs : List Word

namespace Bridge
variable (sha256 : List UInt8 → Word)

def published (block : Block) : List ChainRecord :=
  block.transactions.filterMap fun
    | .publish record => if record.status = .verified then some record else none
    | _ => none

/-- A height without a block is passed over. -/
def batchTransactions (blockAt : Nat → Except String (Option Block)) (lastHeight currentTip : Nat) :
    Except String (List ChainRecord) := do
  let blocks ← (List.range' (lastHeight + 1) (currentTip - lastHeight)).mapM blockAt
  return (blocks.filterMap id).flatMap published

def leaf (record : ChainRecord) : Word := sha256 (Text.bytes record.id.canonical ++ Text.bytes record.contentHash)

def merkleLevel : List Word → List Word
  | left :: right :: rest => sha256 (bytes left ++ bytes right) :: merkleLevel rest
  | [last] => [sha256 (bytes last ++ bytes last)]
  | [] => []

def merkleFold : Nat → List Word → Word
  | _, [] => 0
  | _, [root] => root
  | 0, first :: _ => first
  | fuel + 1, hashes => merkleFold fuel (merkleLevel sha256 hashes)

def merkleRoot (leaves : List Word) : Word := merkleFold sha256 leaves.length leaves

def generateProof (prove : BatchInputs → Except String (Vector Word 8)) (inputs : BatchInputs) : Except String (Vector Word 8) :=
  if inputs.txCount = 0 then .error "tx_count must be ≥ 1 for a batch proof" else prove inputs

def prepareBatch (prove : BatchInputs → Except String (Vector Word 8)) (prevRoot : Word)
    (blockAt : Nat → Except String (Option Block)) (lastHeight currentTip : Nat) : Except String (Option RollupBatch) := do
  let records ← batchTransactions blockAt lastHeight currentTip
  if records = [] then return none
  else
    let dataRoot := merkleRoot sha256 (records.map (leaf sha256))
    let nextRoot := sha256 (bytes prevRoot ++ bytes dataRoot)
    let inputs : BatchInputs := ⟨prevRoot,dataRoot,nextRoot,records.length % 2 ^ 64⟩
    let proof ← generateProof prove inputs
    return some ⟨prevRoot,nextRoot,records.length,dataRoot,proof,inputs.publicInputsWords⟩

variable {sha256} {prove : BatchInputs → Except String (Vector Word 8)} {blockAt : Nat → Except String (Option Block)}
  {lastHeight currentTip : Nat} {batch : RollupBatch} {prevRoot : Word}

theorem prepareBatch_prevRoot (prepared : prepareBatch sha256 prove prevRoot blockAt lastHeight currentTip = .ok (some batch)) :
    batch.prevRoot = prevRoot := by
  obtain ⟨records,_,made⟩ := (bind_ok _ _ _).mp prepared
  split_ifs at made
  · cases made
  · obtain ⟨proof,_,made⟩ := (bind_ok _ _ _).mp made
    cases made
    rfl

end Bridge
end ChainRegistry
