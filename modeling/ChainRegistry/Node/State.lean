import ChainRegistry.Consensus.EvidenceVotes
import ChainRegistry.Consensus.Pbft
import ChainRegistry.Node.PublisherIndex

/-! The shared state of a node: `crates/node/src/state.rs` and `pending_pool.rs`. The
fields are those that the modelled subsystems read or write. -/
namespace ChainRegistry
open Lib

structure Clock where
  instant : Nat
  utc : DateTime

structure PendingEntry where
  request : PublishRequest
  receivedAt : DateTime
  attemptCount : Nat
  inProgress : Bool

structure PendingPool where
  entries : Table String PendingEntry

namespace PendingPool
variable (pool : PendingPool)

/-- A submission with other content takes the place of the pending one. -/
def insert (now : DateTime) (request : PublishRequest) : PendingPool × Bool :=
  let key := request.id.canonical
  match pool.entries.lookup key with
  | some existing =>
    if existing.request.contentHash = request.contentHash then (pool,false)
    else (⟨pool.entries.insert key ⟨request,now,0,false⟩⟩,true)
  | none => (⟨pool.entries.insert key ⟨request,now,0,false⟩⟩,true)

variable (canonical : String)

def contains : Bool := (pool.entries.lookup canonical).isSome

def get : Option PendingEntry := pool.entries.lookup canonical

def remove : PendingPool := ⟨pool.entries.erase canonical⟩

def isReady (now : DateTime) (entry : PendingEntry) : Bool :=
  !entry.inProgress || entry.receivedAt < now - 300000000000

def started (entry : PendingEntry) : PendingEntry :=
  {entry with inProgress := true, attemptCount := entry.attemptCount + 1}

def readyForValidation (now : DateTime) : PendingPool × List PublishRequest :=
  let eligible := pool.entries.entries.filter (fun entry => isReady now entry.2)
  (⟨pool.entries.putAll (eligible.map fun entry => (entry.1,started entry.2))⟩,
    eligible.map fun entry => entry.2.request)

def len : Nat := pool.entries.keys.length

end PendingPool

structure PackageRound where
  subject : String
  (firstVoteAt lastVoteAt : DateTime)
  signatures : List ValidatorSignature

namespace PackageRound
variable (now : DateTime)

def refreshTimestamps (round : PackageRound) : PackageRound :=
  match round.signatures.map ValidatorSignature.signedAt with
  | [] => {round with firstVoteAt := now, lastVoteAt := now}
  | first :: rest => {round with firstVoteAt := rest.foldl min first, lastVoteAt := rest.foldl max first}

def fromVote (subject : String) (vote : ValidatorSignature) : PackageRound :=
  refreshTimestamps now ⟨subject,now,now,[vote]⟩

def recordVote (round : PackageRound) (vote : ValidatorSignature) : PackageRound :=
  refreshTimestamps now {round with signatures := Upsert.upsert voteKey vote round.signatures}

end PackageRound

structure ReorgEvent where
  depth : Nat
  abandonedBlocks : List String
  newTip : String

def maxReorgEvents : Nat := 100

structure NodeConfig where
  nodeId : String
  validatorPrivkey : Option String
  (isValidator shieldedPublishEnabled : Bool)

structure NodeState where
  chain : ChainStore
  pendingPool : PendingPool
  publisherIndex : PublisherIndex
  validatorSet : Validators
  packageRounds : Table String PackageRound
  config : NodeConfig
  vrfProofs : Table String (String × String)
  reorgs : List ReorgEvent
  pbftEngine : PbftEngine

namespace NodeState
def withEngine (state : NodeState) (engine : PbftEngine) : NodeState := {state with pbftEngine := engine}

def clearVrfProofs (state : NodeState) : NodeState := {state with vrfProofs := ∅}

section
variable (state : NodeState) (engine : PbftEngine)

@[simp] theorem withEngine_pbftEngine : (state.withEngine engine).pbftEngine = engine := rfl

@[simp] theorem withEngine_config : (state.withEngine engine).config = state.config := rfl

end

def recordReorg (state : NodeState) (depth : Nat) (abandonedBlocks : List String) (newTip : String) : NodeState :=
  {state with reorgs := (⟨depth,abandonedBlocks,newTip⟩ :: state.reorgs).take maxReorgEvents}

def recordPackageVote (now : DateTime) (subject : String) (vote : ValidatorSignature) (state : NodeState) : NodeState :=
  let round :=
    match state.packageRounds.lookup subject with
    | some round => round.recordVote now vote
    | none => PackageRound.fromVote now subject vote
  {state with packageRounds := state.packageRounds.insert subject round}

def packageRound (state : NodeState) (subject : String) : Option PackageRound :=
  state.packageRounds.lookup subject

def clearPackageRound (state : NodeState) (subject : String) : NodeState :=
  {state with packageRounds := state.packageRounds.erase subject}

end NodeState
end ChainRegistry
