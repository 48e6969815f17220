import ChainRegistry.Node.ChainStore

/-! Per-publisher statistics: `crates/node/src/publisher_index.rs`. -/
namespace ChainRegistry
open Lib

structure PublisherStats where
  pubkey : String
  totalPackages : Nat := 0
  verifiedCount : Nat := 0
  revokedCount : Nat := 0
  stakeWei : Nat := 0
  firstSeenAt : Option DateTime := none
  firstSeenDays : Nat := 0

structure PublisherIndex where
  stats : Table String PublisherStats
  canonicalToPubkey : Table String String

namespace PublisherIndex
def new : PublisherIndex := ⟨∅,∅⟩

def days (now since : DateTime) : Nat := ((now - since).tdiv 86400000000000).toNat

def published (stats : PublisherStats) (now timestamp : DateTime) : PublisherStats :=
  let firstSeenAt := stats.firstSeenAt.getD timestamp
  {stats with
    totalPackages := stats.totalPackages + 1
    verifiedCount := stats.verifiedCount + 1
    firstSeenAt := some firstSeenAt
    firstSeenDays := days now firstSeenAt}

def penalised (stats : PublisherStats) : PublisherStats :=
  {stats with verifiedCount := stats.verifiedCount - 1, revokedCount := stats.revokedCount + 1}

def rotated (index : PublisherIndex) (canonicalPrefix oldPubkey : String) : List String :=
  (index.canonicalToPubkey.entries.filter fun entry =>
    Text.startsWith entry.1 canonicalPrefix ∧ entry.2 = oldPubkey).map Sigma.fst

def applyTx (now timestamp : DateTime) (index : PublisherIndex) : Transaction → PublisherIndex
  | .publish record =>
    let pubkey := record.publisherPubkey
    let stats := (index.stats.lookup pubkey).getD ⟨pubkey,0,0,0,0,none,0⟩
    { stats := index.stats.insert pubkey (published stats now timestamp)
      canonicalToPubkey := index.canonicalToPubkey.insert record.id.canonical pubkey }
  | .revoke canonical _ _ _ =>
    match index.canonicalToPubkey.lookup canonical with
    | none => index
    | some pubkey =>
      match index.stats.lookup pubkey with
      | none => index
      | some stats => {index with stats := index.stats.insert pubkey (penalised stats)}
  | .slash validatorId amount _ =>
    match index.stats.lookup validatorId with
    | none => index
    | some stats =>
      {index with stats := index.stats.insert validatorId {stats with stakeWei := stats.stakeWei - amount}}
  | .rotatePublisherKey canonicalPrefix oldPubkey newPubkey _ _ _ _ =>
    let mapped := (index.rotated canonicalPrefix oldPubkey).foldl
      (fun map canonical => map.insert canonical newPubkey) index.canonicalToPubkey
    match index.stats.lookup oldPubkey with
    | none => {index with canonicalToPubkey := mapped}
    | some stats =>
      { stats := (index.stats.erase oldPubkey).insert newPubkey {stats with pubkey := newPubkey}
        canonicalToPubkey := mapped }
  | .validatorJoin _ _ _ => index
  | .validatorLeave _ => index

def applyBlock (now : DateTime) (index : PublisherIndex) (block : Block) : PublisherIndex :=
  block.transactions.foldl (applyTx now block.header.timestamp) index

def rebuildFromChain (now : DateTime) (blocks : List Block) : PublisherIndex :=
  blocks.foldl (applyBlock now) new

end PublisherIndex
end ChainRegistry
