import ChainRegistry.Node.P2P

/-! Block consensus in the gossip handler: the PBFT branches of `P2PNode::run` in
`crates/node/src/p2p.rs`. The validator set that a vote is checked against is read under an earlier
lock, so it is an argument. -/
namespace ChainRegistry
open Lib Text

variable (crates : Crates)

def NodeConfig.signPhase (config : NodeConfig) (phase blockHash : String) : Option BlockSignature :=
  match config.validatorPrivkey with
  | none => none
  | some privkey =>
    match hexDecode privkey with
    | .error _ => none
    | .ok key =>
      match crates.signingKey key with
      | .error _ => none
      | .ok () => some
          { validatorId := config.nodeId
            pubkey := hexEncode (crates.verifyingKeyOf key)
            signature := hexEncode (crates.sign key (bytes (pbftSignatureMessage phase blockHash))) }

namespace NodeState
variable (clock : Clock)

/-- What follows a commit quorum. A failed write is logged; the publisher index
counts the block in either case. -/
def insertFinalised (fault : Bool) (blockHash : String) (state : NodeState) : NodeState :=
  match state.pbftEngine.getFinalisedBlock blockHash with
  | none => state
  | some block =>
    let stored :=
      if fault then state
      else
        let (chain,outcome) := state.chain.insertBlockWithOutcome crates block
        match outcome.replacedHash with
        | some replaced => {state with chain := chain}.recordReorg 1 [replaced] outcome.hash
        | none => {state with chain := chain}
    {stored with publisherIndex := stored.publisherIndex.applyBlock clock.utc block}

def onPrePrepare (block : Block) (state : NodeState) : NodeState × List GossipMessage :=
  match state.pbftEngine.startRound crates clock.instant block (ValidatorSet.ofCommon state.validatorSet) with
  | (_,.error _) => (state,[])
  | (engine,.ok _) =>
    let blockHash := block.hash crates
    match state.config.signPhase crates "prepare" blockHash with
    | none => (state.withEngine engine,[])
    | some own =>
      -- the result is dropped: a quorum reached here sends no COMMIT
      (state.withEngine (engine.prepare crates clock.instant blockHash own.validatorId own).1,
        [.pbftPrepare blockHash own.validatorId own.signature])

variable (seen : Validators)

def onPrepare (blockHash validatorId signature : String) (state : NodeState) :
    NodeState × List GossipMessage :=
  match validatePbftPhaseMessage crates seen "prepare" blockHash validatorId signature with
  | .error _ => (state,[])
  | .ok sig =>
    match state.pbftEngine.prepare crates clock.instant blockHash validatorId sig with
    | (engine,.ok true) =>
      match state.config.signPhase crates "commit" blockHash with
      | none => (state.withEngine engine,[])
      | some own =>
        -- the result is dropped: a quorum reached here inserts no block
        (state.withEngine (engine.commit crates blockHash own.validatorId own).1,
          [.pbftCommit blockHash own.validatorId own.signature])
    | (engine,_) => (state.withEngine engine,[])

def onCommit (fault : Bool) (blockHash validatorId signature : String) (state : NodeState) : NodeState :=
  match validatePbftPhaseMessage crates seen "commit" blockHash validatorId signature with
  | .error _ => state
  | .ok sig =>
    match state.pbftEngine.commit crates blockHash validatorId sig with
    | (engine,.ok true) => (state.withEngine engine).insertFinalised crates clock fault blockHash
    | (engine,_) => state.withEngine engine

def onBlocks (fault : Bool) (message : GossipMessage) (state : NodeState) :
    NodeState × List GossipMessage :=
  match message with
  | .pbftPrePrepare block => state.onPrePrepare crates clock block
  | .pbftPrepare blockHash validatorId signature => state.onPrepare crates clock seen blockHash validatorId signature
  | .pbftCommit blockHash validatorId signature =>
    (state.onCommit crates clock seen fault blockHash validatorId signature,[])
  | _ => (state,[])

end NodeState
end ChainRegistry
