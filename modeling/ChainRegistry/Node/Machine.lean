import ChainRegistry.Node.Admission
import ChainRegistry.Node.BlockProducer
import ChainRegistry.Node.Sync
import ChainRegistry.Node.ValidatorPipeline

/-! A running node: the shared state and the tasks that `main.rs` starts over it. An event is one
stretch of one task under one lock, with what the outside contributes: clock readings, messages,
answers of peers, scans and write faults. -/
namespace ChainRegistry
open Lib

structure Node (crates : Crates) where
  state : NodeState
  history : List ValidatorSetSnapshot
  finalizedTxs : List Transaction
  producer : ProducerTask
  sync : SyncTask crates
  admissions : List PublishRequest
  pipeline : List PipelineTask

inductive NodeEvent
  | submission (clock : Clock) (request : PublishRequest) (gate : Except String Unit)
  | vote (clock : Clock) (message : Option VoteGossip)
  | vrfProof (validatorId pubkey epochSeed output proof : String)
  | blocks (clock : Clock) (seen : Validators) (fault : Bool) (message : GossipMessage)
  | produceSnapshot
  | produceSelect (allowedFallbackRank : Nat)
  | produceWrite (clock : Clock) (fault : Bool)
  | syncStart
  | syncPeers (peerHeight : Nat)
  | syncBlock (response : Option Block)
  | syncInsert (clock : Clock) (fault : Bool)
  | reorgProbe (response : Option Block)
  | reorgSet
  | reorgBlock (response : Option Block)
  | reorgApply (clock : Clock) (fault : Option Nat)
  | admissionCheck (request : PublishRequest) (verifyPublisherAuth : Bool) (auth : Except AdmissionError Unit)
  | admissionInsert (clock : Clock) (index : Nat) (gate : Except String Unit)
  | pipelineTick (clock : Clock)
  | pipelineAnalyse (clock : Clock) (index : Nat) (tarball : Option (List UInt8)) (analysis : Option Analysis)
  | pipelineAssign (index : Nat)
  | pipelinePoll (clock : Clock) (index : Nat)
  | pipelineTimeout (index : Nat)
  | apiRevoke (canonical reason revokerPubkey : String)
  | apiRotate (canonicalPrefix oldPubkey newPubkey sigFromOld sigFromNew : String) (clock : Clock) (nonce : Nat)
  | setChanged (validators : Validators) (fault : Bool)

inductive Broadcast
  | gossip (message : GossipMessage)
  | vote (vote : VoteGossip)

namespace Node
variable {crates : Crates}

def withState (node : Node crates) (state : NodeState) : Node crates := {node with state := state}

/-- A request whose signature has been checked. The queued revocation names the content of the record it is about. -/
def apiRevoke (node : Node crates) (canonical reason revokerPubkey : String) : Node crates :=
  match node.state.chain.getPackage canonical with
  | none => node
  | some record =>
    if node.state.validatorSet.any (fun v => v.pubkey = revokerPubkey) ∨ record.publisherPubkey = revokerPubkey then
      {node with finalizedTxs := node.finalizedTxs ++ [.revoke canonical reason revokerPubkey record.contentHash]}
    else node

def pipelineStep (node : Node crates) (index : Nat) (step : PipelineStep) : Node crates × List Broadcast :=
  let pipeline :=
    match step.task with
    | some task => node.pipeline.set index task
    | none => node.pipeline.eraseIdx index
  ({node with
    state := step.state
    finalizedTxs := node.finalizedTxs ++ step.transactions
    pipeline := pipeline},step.votes.map .vote)

def produce (node : Node crates) : NodeEvent → Node crates × List Broadcast
  | .produceSnapshot =>
    match node.producer, node.finalizedTxs with
    | .idle, tx :: txs =>
      ({node with
        finalizedTxs := []
        producer := .read (node.state.produceSnapshot crates (tx :: txs))},[])
    | _, _ => (node,[])
  | .produceSelect allowedFallbackRank =>
    match node.producer with
    | .read snapshot =>
      match node.state.produceSelect crates allowedFallbackRank snapshot with
      | (messages,.error _) => ({node with producer := .idle},messages.map .gossip)
      | (messages,.ok (output,proof)) =>
        ({node with producer := .selected snapshot output proof},messages.map .gossip)
    | _ => (node,[])
  | .produceWrite clock fault =>
    match node.producer with
    | .selected snapshot output proof =>
      let block := snapshot.block crates clock node.state.config.nodeId output proof
      let (state,messages) := node.state.produceWrite crates clock fault block
      ({node with state := state, producer := .idle},messages.map .gossip)
    | _ => (node,[])
  | _ => (node,[])

def synchronise (node : Node crates) : NodeEvent → Node crates
  | .syncStart =>
    match node.sync with
    | .idle => {node with sync := .sawHeight node.state.chain.tipHeight}
    | _ => node
  | .syncPeers peerHeight =>
    match node.sync with
    | .sawHeight ourHeight => {node with sync := .onPeerHeight crates node.state ourHeight peerHeight}
    | _ => node
  | .syncBlock response =>
    match node.sync with
    | .fetching height peerHeight prevHash =>
      {node with sync := .onBlock crates node.state node.history height peerHeight prevHash response}
    | _ => node
  | .syncInsert clock fault =>
    match node.sync with
    | .inserting peerHeight next =>
      let (state,task) := node.state.syncInsert crates clock fault peerHeight next
      {node with state := state, sync := task}
    | _ => node
  | .reorgProbe response =>
    match node.sync with
    | .probing height localTip peerHeight =>
      {node with sync := .onProbe crates node.state height localTip peerHeight response}
    | _ => node
  | .reorgSet =>
    match node.sync with
    | .forked forkHeight localTip peerHeight ancestorHash =>
      {node with sync := .branching localTip peerHeight node.state.validatorSet (.root forkHeight ancestorHash)}
    | _ => node
  | .reorgBlock response =>
    match node.sync with
    | .branching localTip peerHeight set branch =>
      {node with sync := .onBranchBlock crates node.history localTip peerHeight set branch response}
    | _ => node
  | .reorgApply clock fault =>
    match node.sync with
    | .applying localTip branch =>
      {node with state := node.state.reorgApply crates clock fault localTip branch, sync := .idle}
    | _ => node
  | _ => node

def validate (node : Node crates) : NodeEvent → Node crates × List Broadcast
  | .pipelineTick clock =>
    if node.state.config.isValidator && node.pipeline.isEmpty then
      let (pool,requests) := node.state.pendingPool.readyForValidation clock.utc
      ({node with
        state := {node.state with pendingPool := pool}
        pipeline := node.pipeline ++ requests.map .processing},[])
    else (node,[])
  | .pipelineAnalyse clock index tarball analysis =>
    match node.pipeline[index]? with
    | some (.processing request) =>
      node.pipelineStep index (node.state.analyse crates clock.utc request tarball analysis)
    | _ => (node,[])
  | .pipelineAssign index =>
    match node.pipeline[index]? with
    | some (.voted request analysis) =>
      ({node with
        pipeline := node.pipeline.set index (.waiting request analysis node.state.validatorSet.length)},[])
    | _ => (node,[])
  | .pipelinePoll clock index =>
    match node.pipeline[index]? with
    | some (.waiting request analysis count) =>
      node.pipelineStep index (node.state.poll crates clock.utc request analysis count)
    | _ => (node,[])
  | .pipelineTimeout index =>
    match node.pipeline[index]? with
    | some (.waiting request _ _) => node.pipelineStep index (node.state.abandon request)
    | _ => (node,[])
  | _ => (node,[])

def admission (node : Node crates) : NodeEvent → Node crates
  | .admissionCheck request verifyPublisherAuth auth =>
    match admitCheck node.state request verifyPublisherAuth auth with
    | .ok () => {node with admissions := node.admissions ++ [request]}
    | .error _ => node
  | .admissionInsert clock index gate =>
    match node.admissions[index]? with
    | some request =>
      {node with
        state := (admitInsert clock.utc request gate node.state).1
        admissions := node.admissions.eraseIdx index}
    | none => node
  | _ => node

def step (node : Node crates) (event : NodeEvent) : Node crates × List Broadcast :=
  match event with
  | .submission clock request gate => (node.withState (node.state.onSubmission clock.utc request gate),[])
  | .vote clock message => (node.withState (node.state.onVote crates clock.utc message),[])
  | .vrfProof validatorId pubkey epochSeed output proof =>
    (node.withState (node.state.onVrfProof crates validatorId pubkey epochSeed output proof),[])
  | .blocks clock seen fault message =>
    let (state,messages) := node.state.onBlocks crates clock seen fault message
    (node.withState state,messages.map .gossip)
  | .apiRevoke canonical reason revokerPubkey => (node.apiRevoke canonical reason revokerPubkey,[])
  | .apiRotate canonicalPrefix oldPubkey newPubkey sigFromOld sigFromNew clock nonce =>
    ({node with finalizedTxs := node.finalizedTxs ++
      [.rotatePublisherKey canonicalPrefix oldPubkey newPubkey sigFromOld sigFromNew clock.utc nonce]},[])
  | .setChanged validators fault =>
    ({node with
      state := {node.state with validatorSet := validators}
      history := if fault then node.history
        else ValidatorSetSnapshot.record node.history (node.state.chain.tipHeight + 1) validators},[])
  | .produceSnapshot | .produceSelect _ | .produceWrite _ _ => node.produce event
  | .pipelineTick _ | .pipelineAnalyse _ _ _ _ | .pipelineAssign _ | .pipelinePoll _ _ | .pipelineTimeout _ =>
    node.validate event
  | .admissionCheck _ _ _ | .admissionInsert _ _ _ => (node.admission event,[])
  | _ => (node.synchronise event,[])

def next (node : Node crates) (event : NodeEvent) : Node crates := (node.step event).1

def initial (config : NodeConfig) (pbft : PbftConfig) (validators : Validators) : Node crates where
  state :=
    { chain := .genesis crates, pendingPool := ⟨∅⟩
      publisherIndex := .rebuildFromChain 0 (ChainStore.genesis crates).canonicalBlocks
      validatorSet := validators, packageRounds := ∅, config := config, vrfProofs := ∅, reorgs := []
      pbftEngine := .withConfig pbft }
  history := ValidatorSetSnapshot.record [] 0 validators
  finalizedTxs := []
  producer := .idle
  sync := .idle
  admissions := []
  pipeline := []

end Node
end ChainRegistry
