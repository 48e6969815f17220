import ChainRegistry.Common.Block
import ChainRegistry.Lib.Table

/-! The chain store: `crates/node/src/chain_store.rs`. A column family is a table of decoded values.
Every write is one atomic batch, computed from the store before it. -/
namespace ChainRegistry
open Lib

structure ChainStore where
  blocksByHash : Table String Block
  blocksByHeight : Table Nat String
  packages : Table String ChainRecord

structure BlockInsertOutcome where
  hash : String
  replacedHash : Option String

namespace ChainStore
def tipHeight (store : ChainStore) : Nat := store.blocksByHeight.keys.foldr max 0

def getBlockByHash (store : ChainStore) (hash : String) : Option Block := store.blocksByHash.lookup hash

def getBlockByHeight (store : ChainStore) (height : Nat) : Option Block :=
  (store.blocksByHeight.lookup height).bind store.getBlockByHash

def getPackage (store : ChainStore) (canonical : String) : Option ChainRecord :=
  store.packages.lookup canonical

/-- The records that one transaction puts into the batch. A revocation and a key
rotation read the index as it was before the block. -/
def indexTransaction (hash : String) (packages : Table String ChainRecord) : Transaction → List (String × ChainRecord)
  | .publish record => [(record.id.canonical,{record with blockHash := hash})]
  | .revoke canonical reason _ _ =>
    match packages.lookup canonical with
    | some record => [(canonical,{record with status := .revoked reason})]
    | none => []
  | .rotatePublisherKey canonicalPrefix oldPubkey newPubkey _ _ _ _ =>
    packages.entries.filterMap fun ⟨canonical,record⟩ =>
      if Text.startsWith canonical canonicalPrefix ∧ record.publisherPubkey = oldPubkey then
        some (canonical,{record with publisherPubkey := newPubkey})
      else none
  | _ => []

def indexBlock (hash : String) (packages : Table String ChainRecord) (block : Block) : Table String ChainRecord :=
  packages.putAll (block.transactions.flatMap (indexTransaction hash packages))

variable (crates : Crates) (store : ChainStore)

def tipHash : String :=
  match store.getBlockByHeight store.tipHeight with
  | some block => block.hash crates
  | none => zeroHash

/-- Neither the height nor the parent of the block is looked at. -/
def insertBlock (block : Block) : ChainStore where
  blocksByHash := store.blocksByHash.insert (block.hash crates) block
  blocksByHeight := store.blocksByHeight.insert block.header.height (block.hash crates)
  packages := indexBlock (block.hash crates) store.packages block

def insertBlockWithOutcome (block : Block) : ChainStore × BlockInsertOutcome :=
  let hash := block.hash crates
  let replaced :=
    match store.getBlockByHeight block.header.height with
    | some existing => if existing.hash crates ≠ hash then some (existing.hash crates) else none
    | none => none
  (store.insertBlock crates block,⟨hash,replaced⟩)

def heightsAbove (height : Nat) : List Nat :=
  ((List.range (store.tipHeight - height)).map (· + height + 1)).reverse

def rollbackToHeight (store : ChainStore) (height : Nat) : ChainStore × List String :=
  let abandoned := (store.heightsAbove height).filterMap store.blocksByHeight.lookup
  ({store with
    blocksByHeight := (store.heightsAbove height).foldl (fun index h => index.erase h) store.blocksByHeight},
    abandoned)

def canonicalBlocks : List Block :=
  (List.range (store.tipHeight + 1)).filterMap store.getBlockByHeight

inductive Write
  | rollback (height : Nat)
  | insert (block : Block)
  | clearPackages
  | reinsert (height : Nat)

def perform (store : ChainStore) : Write → ChainStore
  | .rollback height => (store.rollbackToHeight height).1
  | .insert block => store.insertBlock crates block
  | .clearPackages => {store with packages := ∅}
  | .reinsert height =>
    match store.getBlockByHeight height with
    | some block => store.insertBlock crates block
    | none => store

def performAll (writes : List Write) : ChainStore := writes.foldl (perform crates) store

/-- `rebuild_package_index`: clear the index and insert the canonical blocks again. -/
def rebuildWrites : List Write :=
  .clearPackages :: (List.range (store.tipHeight + 1)).map .reinsert

def rebuildPackageIndex : ChainStore := store.performAll crates store.rebuildWrites

def genesis : ChainStore := insertBlock crates ⟨∅,∅,∅⟩ Block.genesis

end ChainStore
end ChainRegistry
