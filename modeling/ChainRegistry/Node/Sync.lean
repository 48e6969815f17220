import ChainRegistry.Lib.Ballots
import ChainRegistry.Lib.LinkedChain
import ChainRegistry.Node.P2P
import ChainRegistry.Node.SetHistory

/-! Chain synchronisation: `crates/node/src/sync.rs`. The task holds no lock while it
waits for a peer, so each of its stages carries what it has read so far. -/
namespace ChainRegistry
open Lib Text

variable (crates : Crates)

def voteVerifies (record : ChainRecord) (sig : ValidatorSignature) : Bool :=
  match hexDecode sig.validatorPubkey, hexDecode sig.signature with
  | .ok key, .ok signature =>
    let message := canonicalVoteMessage record.id.canonical record.contentHash (sig.vote = .approve)
      sig.validatorPubkey (scannerProfileDigest crates sig.mlModelVersion sig.analysisBundles) sig.evidenceDigest
    (crates.verifyingKey key).isOk && (crates.signatureFormat signature).isOk &&
      (crates.verify key (bytes message) signature).isOk
  | _, _ => false

abbrev VoteCount := Ballots.Count String String

/-- A key counts as seen even if its signature does not verify. -/
def countVote (known : List String) (record : ChainRecord) (count : VoteCount) (sig : ValidatorSignature) : VoteCount :=
  let pubkey := toAsciiLowercase sig.validatorPubkey
  if sig.vote ≠ .approve ∨
      isConsensusGradeVote sig.mlModelVersion sig.analysisBundles sig.evidenceDigest = false ∨
      pubkey ∉ known ∨ pubkey ∈ count.seen then count
  else
    let groups :=
      if voteVerifies crates record sig then
        count.groups.insert (profileKey crates sig) ((count.groups.lookup (profileKey crates sig)).getD 0 + 1)
      else count.groups
    ⟨pubkey :: count.seen,groups⟩

def knownPubkeys (set : Validators) : List String := set.map fun v => toAsciiLowercase v.pubkey

def approvals (set : Validators) (record : ChainRecord) : Nat :=
  Ballots.largest (record.validatorSignatures.foldl (countVote crates (knownPubkeys set) record) ⟨[],∅⟩)

def checkPublish (set : Validators) (index : Nat) (record : ChainRecord) : Except String Unit :=
  let n := set.length
  let quorum := 2 * n / 3 + 1
  let found := approvals crates set record
  if found < quorum then
    .error ("tx " ++ toString index ++ " (" ++ record.id.canonical ++ "): only " ++ toString found ++
      " valid signatures, need " ++ toString quorum ++ " (" ++ toString found ++ "/" ++ toString n ++ " validators)")
  else .ok ()

/-- Only Publish transactions are checked. -/
def checkTransactions (set : Validators) : Nat → List Transaction → Except String Unit
  | _, [] => .ok ()
  | index, .publish record :: rest =>
    match checkPublish crates set index record with
    | .error e => .error e
    | .ok () => checkTransactions set (index + 1) rest
  | index, _ :: rest => checkTransactions set (index + 1) rest

/-- The PBFT signatures of the block are not looked at. -/
def verifyBlockSignatures (block : Block) (set : Validators) : Except String Unit :=
  if block.header.height = 0 then .ok ()
  else if set = [] then .error "cannot verify block: local validator set is empty"
  else checkTransactions crates set 0 block.transactions

structure VerifiedBlock where
  block : Block
  set : Validators
  verified : verifyBlockSignatures crates block set = .ok ()

def Block.Follows (height : Nat) (hash : String) (blocks : List Block) : Prop :=
  LinkedChain.Follows (fun block => block.header.height) (Block.hash crates) (fun block => block.header.prevHash) height
    hash blocks

structure Branch where
  forkHeight : Nat
  ancestorHash : String
  verified : List (VerifiedBlock crates)
  follows : Block.Follows crates forkHeight ancestorHash (verified.map VerifiedBlock.block)

namespace Branch
variable {crates} (branch : Branch crates)

def blocks : List Block := branch.verified.map VerifiedBlock.block

def tipHeight : Nat := branch.forkHeight + branch.blocks.length

def linkHash : String :=
  LinkedChain.lastKey (Block.hash crates) branch.ancestorHash branch.blocks

def root (forkHeight : Nat) (ancestorHash : String) : Branch crates := ⟨forkHeight,ancestorHash,[],trivial⟩

def push (next : VerifiedBlock crates)
    (height : next.block.header.height = branch.tipHeight + 1) (link : next.block.header.prevHash = branch.linkHash) :
    Branch crates where
  forkHeight := branch.forkHeight
  ancestorHash := branch.ancestorHash
  verified := branch.verified ++ [next]
  follows := by
    rw [List.map_append]
    exact LinkedChain.follows_snoc branch.follows height link

end Branch

def maxReorgDepth : Nat := 64

inductive SyncTask
  | idle
  | sawHeight (ourHeight : Nat)
  | fetching (height peerHeight : Nat) (prevHash : String)
  | inserting (peerHeight : Nat) (next : VerifiedBlock crates)
  | probing (height localTip peerHeight : Nat)
  | forked (forkHeight localTip peerHeight : Nat) (ancestorHash : String)
  | branching (localTip peerHeight : Nat) (set : Validators) (branch : Branch crates)
  | applying (localTip : Nat) (branch : Branch crates)
  /-- A slice of a text that is too short has ended the task. -/
  | panicked

namespace SyncTask
variable (state : NodeState)

def onPeerHeight (ourHeight peerHeight : Nat) : SyncTask crates :=
  if peerHeight ≤ ourHeight then .idle
  else .fetching (ourHeight + 1) peerHeight (state.chain.tipHash crates)

variable (history : List ValidatorSetSnapshot)

def effectiveSet (height : Nat) (set : Validators) : Validators :=
  (ValidatorSetSnapshot.setAt history height).getD set

/-- The checks of `sync_once` on a fetched block. A wrong parent starts the recovery
from a fork, after both hashes have been cut to twelve bytes for the log. -/
def onBlock (height peerHeight : Nat) (prevHash : String) (response : Option Block) : SyncTask crates :=
  match response with
  | none => .idle
  | some block =>
    if block.header.prevHash ≠ prevHash then
      if sliceable block.header.prevHash 12 then .probing (height - 1) (height - 1) peerHeight
      else .panicked
    else if block.header.height ≠ height then .idle
    else
      let set := effectiveSet history block.header.height state.validatorSet
      if verified : verifyBlockSignatures crates block set = .ok () then .inserting peerHeight ⟨block,set,verified⟩
      else .idle

def onProbe (height localTip peerHeight : Nat) (response : Option Block) : SyncTask crates :=
  let next := if height ≤ localTip - maxReorgDepth then .idle else .probing (height - 1) localTip peerHeight
  match state.chain.getBlockByHeight height with
  | none => next
  | some ours =>
    match response with
    | none => .idle
    | some theirs =>
      if ours.hash crates = theirs.hash crates then .forked height localTip peerHeight (ours.hash crates) else next

def onBranchBlock (localTip peerHeight : Nat) (set : Validators)
    (branch : Branch crates) (response : Option Block) : SyncTask crates :=
  match response with
  | none => .idle
  | some block =>
    if height : block.header.height = branch.tipHeight + 1 then
      if link : block.header.prevHash = branch.linkHash then
        let effective := effectiveSet history block.header.height set
        if verified : verifyBlockSignatures crates block effective = .ok () then
          let longer := branch.push ⟨block,effective,verified⟩ height link
          if longer.tipHeight < peerHeight then .branching localTip peerHeight set longer
          -- only a strictly longer branch is adopted
          else if longer.tipHeight ≤ localTip then .idle
          else .applying localTip longer
        else .idle
      else .idle
    else .idle

end SyncTask

def ChainStore.reorgWrites (store : ChainStore) (forkHeight : Nat) (branch : List Block) : List ChainStore.Write :=
  let adopt := .rollback forkHeight :: branch.map .insert
  adopt ++ (store.performAll crates adopt).rebuildWrites

namespace NodeState
/-- A failed write ends the round of synchronisation before the publisher index is touched. -/
def syncInsert (clock : Clock) (fault : Bool) (peerHeight : Nat) (next : VerifiedBlock crates) (state : NodeState) :
    NodeState × SyncTask crates :=
  if fault then (state,.idle)
  else
    let height := next.block.header.height
    ({state with
      chain := state.chain.insertBlock crates next.block
      publisherIndex := state.publisherIndex.applyBlock clock.utc next.block},
      if height < peerHeight then .fetching (height + 1) peerHeight (next.block.hash crates) else .idle)

def reorgApply (clock : Clock) (fault : Option Nat) (localTip : Nat) (branch : Branch crates) (state : NodeState) : NodeState :=
  let writes := state.chain.reorgWrites crates branch.forkHeight branch.blocks
  match fault with
  | some n => {state with chain := state.chain.performAll crates (writes.take n)}
  | none =>
    let chain := state.chain.performAll crates writes
    {state with
      chain := chain
      publisherIndex := PublisherIndex.rebuildFromChain clock.utc chain.canonicalBlocks}.recordReorg
        (localTip - branch.forkHeight) (state.chain.rollbackToHeight branch.forkHeight).2 branch.linkHash

end NodeState
end ChainRegistry
