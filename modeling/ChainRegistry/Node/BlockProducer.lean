import ChainRegistry.Node.BlockHandlers

/-! Block production: `crates/node/src/block_producer.rs`. `produce_block` takes the
lock of the state three times, and other tasks run in between. -/
namespace ChainRegistry
open Lib

structure Snapshot where
  txs : List Transaction
  tipHeight : Nat
  prevHash : String
  ourPubkey : Option String
  validatorSetHash : String
  deriving DecidableEq

inductive ProducerTask
  | idle
  | read (snapshot : Snapshot)
  | selected (snapshot : Snapshot) (vrfOutput vrfProof : Option String)
  deriving DecidableEq

variable (crates : Crates)

def validatorSetHash (set : Validators) : String :=
  crates.sha256Hex (((set.map Validator.id).insertionSort (fun a b => a ≤ b)).flatMap fun id => Text.bytes id ++ [0])

namespace NodeState
def produceSnapshot (txs : List Transaction) (state : NodeState) : Snapshot where
  txs := txs
  tipHeight := state.chain.tipHeight
  prevHash := state.chain.tipHash crates
  ourPubkey := (findValidator state.validatorSet state.config.nodeId).map Validator.pubkey
  validatorSetHash := validatorSetHash crates state.validatorSet

def activeProposers (state : NodeState) : List Vrf.VrfValidator :=
  (state.validatorSet.filter Validator.isActive).map fun v =>
    let proof := state.vrfProofs.lookup v.id
    ⟨v.id,v.pubkey,proof.map Prod.fst,proof.map Prod.snd⟩

def withOwnProof (nodeId output proof : String) (active : List Vrf.VrfValidator) : List Vrf.VrfValidator :=
  active.map fun v => if v.id = nodeId then {v with vrfOutput := some output, vrfProof := some proof} else v

/-- Rank zero may always propose; another rank only once the tip has stalled for it. -/
def checkRank (nodeId : String) (ranking : List String) (allowedFallbackRank : Nat) : Except String Unit :=
  if ranking = [] then .error "No active validators to select proposer"
  else
    let effectiveRank := min allowedFallbackRank (ranking.length - 1)
    match ranking.findIdx? (fun id => id = nodeId) with
    | some 0 => .ok ()
    | some rank =>
      if rank = effectiveRank then .ok ()
      else .error ("Node " ++ nodeId ++ " is proposer rank " ++ toString rank ++
        " for this epoch; not its turn yet (allowed fallback rank " ++ toString effectiveRank ++ ")")
    | none => .error ("Node " ++ nodeId ++ " is not in the active proposer set for this epoch")

/-- The proof is broadcast before the rank is checked. -/
def produceSelect (allowedFallbackRank : Nat) (snapshot : Snapshot) (state : NodeState) :
    List GossipMessage × Except String (Option String × Option String) :=
  let active := state.activeProposers
  match active, state.config.validatorPrivkey with
  | _ :: _, some privkey =>
    match Vrf.prove crates (Text.bytes snapshot.prevHash) privkey with
    | .error e => ([],.error e)
    | .ok (output,proof) =>
      let nodeId := state.config.nodeId
      let ranking := Vrf.rankProposers crates (withOwnProof nodeId output proof active) snapshot.prevHash
      ([.vrfProof nodeId (snapshot.ourPubkey.getD "") snapshot.prevHash output proof],
        (checkRank nodeId ranking allowedFallbackRank).map (fun _ => (some output,some proof)))
  | _, _ => ([],.ok (none,none))

end NodeState

def Snapshot.block (snapshot : Snapshot) (clock : Clock) (nodeId : String) (vrfOutput vrfProof : Option String) : Block where
  header :=
    { height := snapshot.tipHeight + 1, prevHash := snapshot.prevHash
      merkleRoot := merkleRoot crates snapshot.txs, proposerId := nodeId, timestamp := clock.utc
      validatorSetHash := snapshot.validatorSetHash, vrfOutput := vrfOutput, vrfProof := vrfProof }
  transactions := snapshot.txs
  pbftSignatures := []

namespace NodeState
variable (clock : Clock) (fault : Bool)

def proposerCommit (blockHash : String) (state : NodeState) : NodeState × List GossipMessage :=
  match state.config.signPhase crates "commit" blockHash with
  | none => (state,[])
  | some own =>
    let message := .pbftCommit blockHash own.validatorId own.signature
    match state.pbftEngine.commit crates blockHash own.validatorId own with
    | (engine,.ok true) => ((state.withEngine engine).insertFinalised crates clock fault blockHash,[message])
    | (engine,_) => (state.withEngine engine,[message])

def proposerVotes (blockHash : String) (state : NodeState) : NodeState × List GossipMessage :=
  match state.config.signPhase crates "prepare" blockHash with
  | none => (state,[])
  | some own =>
    let message := .pbftPrepare blockHash own.validatorId own.signature
    match state.pbftEngine.prepare crates clock.instant blockHash own.validatorId own with
    | (engine,.ok true) =>
      let (state,messages) := (state.withEngine engine).proposerCommit crates clock fault blockHash
      (state,message :: messages)
    | (engine,_) => (state.withEngine engine,[message])

/-- The last lock of `produce_block`, and the PRE-PREPARE that `run` sends after it. -/
def produceWrite (block : Block) (state : NodeState) : NodeState × List GossipMessage :=
  match state.pbftEngine.startRound crates clock.instant block (ValidatorSet.ofCommon state.validatorSet) with
  | (_,.error _) => (state,[])
  | (engine,.ok _) =>
    let (voted,messages) := (state.withEngine engine).proposerVotes crates clock fault (block.hash crates)
    (voted.clearVrfProofs,messages ++ [.pbftPrePrepare block])

end NodeState
end ChainRegistry
