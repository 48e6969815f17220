import ChainRegistry.Consensus.PbftCalls
import ChainRegistry.Node.Machine

/-! What one event can do to the store, to the publisher index and to the consensus
engine, said once for all events. -/
namespace ChainRegistry
open Lib Runs PbftEngine

variable {crates : Crates} {blocks : List Block} {before after : NodeState}

def Block.SameContent (a b : Block) : Prop := a.header = b.header ∧ a.transactions = b.transactions

theorem Block.SameContent.hash {a b : Block} (same : a.SameContent b) : a.hash crates = b.hash crates := by
  rw [Block.hash,Block.hash,same.1]

inductive StoreEffect (crates : Crates) (blocks : List Block) (fault : Bool) (before after : NodeState) : Prop
  | kept (chain : after.chain = before.chain) (index : after.publisherIndex = before.publisherIndex)
  | inserted (now : DateTime) (block listed : Block) (inside : listed ∈ blocks) (same : block.SameContent listed)
      (chain : after.chain = before.chain.insertBlock crates block)
      (index : after.publisherIndex = before.publisherIndex.applyBlock now block)
  | failed (now : DateTime) (block listed : Block) (inside : listed ∈ blocks) (same : block.SameContent listed)
      (faulty : fault) (chain : after.chain = before.chain)
      (index : after.publisherIndex = before.publisherIndex.applyBlock now block)

variable {fault : Bool}

theorem StoreEffect.congr {before after first last : NodeState}
    (effect : StoreEffect crates blocks fault before after) (firstChain : before.chain = first.chain)
    (firstIndex : before.publisherIndex = first.publisherIndex) (lastChain : last.chain = after.chain)
    (lastIndex : last.publisherIndex = after.publisherIndex) : StoreEffect crates blocks fault first last := by
  cases effect with
  | kept chain index =>
    exact .kept (lastChain.trans (chain.trans firstChain)) (lastIndex.trans (index.trans firstIndex))
  | inserted now block listed inside same chain index =>
    refine .inserted now block listed inside same ?_ ?_
    · rw [lastChain,chain,firstChain]
    · rw [lastIndex,index,firstIndex]
  | failed now block listed inside same faulty chain index =>
    refine .failed now block listed inside same faulty (lastChain.trans (chain.trans firstChain)) ?_
    rw [lastIndex,index,firstIndex]

theorem StoreEffect.of_eq (same : after = before) : StoreEffect crates blocks fault before after :=
  .kept (by rw [same]) (by rw [same])

theorem StoreEffect.weaken (effect : StoreEffect crates [] false before after) :
    StoreEffect crates blocks fault before after := by
  cases effect with
  | kept chain index => exact .kept chain index
  | inserted now block listed inside same chain index | failed now block listed inside same faulty chain index => cases inside

namespace NodeState
variable (crates) (clock : Clock) (fault : Bool) {state : NodeState} {hash : String} {round : PbftRound} (now : DateTime)

theorem insertFinalised_none (absent : state.pbftEngine.getFinalisedBlock hash = none) :
    state.insertFinalised crates clock fault hash = state := by
  simp [insertFinalised,absent]

theorem insertFinalised_some {block : Block} (found : state.pbftEngine.getFinalisedBlock hash = some block) :
    ∃ reorgs, state.insertFinalised crates clock fault hash =
      {state with
        chain := if fault then state.chain else state.chain.insertBlock crates block
        publisherIndex := state.publisherIndex.applyBlock clock.utc block
        reorgs := reorgs} := by
  simp only [insertFinalised,found]
  cases fault with
  | true => exact ⟨state.reorgs,rfl⟩
  | false =>
    simp only [ChainStore.insertBlockWithOutcome,Bool.false_eq_true,if_false]
    split
    · exact ⟨_,rfl⟩
    · exact ⟨state.reorgs,rfl⟩

theorem insertFinalised_effect (found : state.pbftEngine.rounds.lookup hash = some round) :
    StoreEffect crates [round.block] fault state (state.insertFinalised crates clock fault hash) := by
  cases final : state.pbftEngine.getFinalisedBlock hash with
  | none =>
    rw [insertFinalised_none crates clock fault final]
    exact .kept rfl rfl
  | some block =>
    obtain ⟨other,present,_,rfl⟩ := getFinalisedBlock_eq_some final
    rw [found,Option.some.injEq] at present
    subst present
    obtain ⟨reorgs,done⟩ := insertFinalised_some crates clock fault final
    rw [done]
    cases fault with
    | true =>
      exact .failed clock.utc {round.block with pbftSignatures := round.finalisedSignatures} round.block
        (by simp) ⟨rfl,rfl⟩ rfl rfl rfl
    | false =>
      exact .inserted clock.utc {round.block with pbftSignatures := round.finalisedSignatures} round.block
        (by simp) ⟨rfl,rfl⟩ rfl rfl

/-- The block of a round in which one more COMMIT can complete the quorum. -/
def committable (state : NodeState) (hash : String) : List Block :=
  match state.pbftEngine.rounds.lookup hash with
  | some round =>
    if round.phase = .commit ∧ round.quorum ≤ round.commitSigs.keys.length + 1 then [round.block] else []
  | none => []

theorem onPrePrepare_effect (block : Block) (state : NodeState) :
    StoreEffect crates [] false state (state.onPrePrepare crates clock block).1 := by
  unfold onPrePrepare
  split
  · exact .kept rfl rfl
  · dsimp only
    split <;> exact .kept rfl rfl

theorem onPrepare_effect (seen : Validators) (hash id signature : String) (state : NodeState) :
    StoreEffect crates [] false state (state.onPrepare crates clock seen hash id signature).1 := by
  unfold onPrepare
  split
  · exact .kept rfl rfl
  · split
    · split <;> exact .kept rfl rfl
    · exact .kept rfl rfl

theorem onCommit_effect (seen : Validators) (hash id signature : String) (state : NodeState) :
    StoreEffect crates (state.committable hash) fault state
      (state.onCommit crates clock seen fault hash id signature) := by
  unfold onCommit
  split
  · exact .kept rfl rfl
  · split
    · rename_i sig _ engine reached
      obtain ⟨round,sigs,found,inPhase,last,rfl⟩ := commit_reached reached
      have after := state.pbftEngine.lookup_withRound hash hash {round with commitSigs := sigs, phase := .finalised}
      rw [if_pos rfl] at after
      have listed : state.committable hash = [round.block] := by simp [committable,found,inPhase,last]
      have effect := insertFinalised_effect crates clock fault
        (show (state.withEngine (state.pbftEngine.withRound hash _)).pbftEngine.rounds.lookup hash = some _ from after)
      rw [listed]
      exact effect.congr rfl rfl rfl rfl
    · exact .kept rfl rfl

theorem proposerCommit_effect (found : state.pbftEngine.rounds.lookup hash = some round) :
    StoreEffect crates [round.block] fault state (state.proposerCommit crates clock fault hash).1 := by
  unfold proposerCommit
  split
  · exact .kept rfl rfl
  · dsimp only
    split
    · rename_i own _ engine reached
      obtain ⟨other,sigs,present,_,_,rfl⟩ := commit_reached reached
      rw [found,Option.some.injEq] at present
      subst present
      have after := state.pbftEngine.lookup_withRound hash hash {round with commitSigs := sigs, phase := .finalised}
      rw [if_pos rfl] at after
      have effect := insertFinalised_effect crates clock fault
        (show (state.withEngine (state.pbftEngine.withRound hash _)).pbftEngine.rounds.lookup hash = some _ from after)
      exact effect.congr rfl rfl rfl rfl
    · exact .kept rfl rfl

theorem lookup_prepare_block {engine next : PbftEngine} {hash id : String} {sig : BlockSignature} {now : Nat}
    {result : Except String Bool} (found : engine.rounds.lookup hash = some round)
    (prepared : engine.prepare crates now hash id sig = (next,result)) :
    ∃ voted, next.rounds.lookup hash = some voted ∧ voted.block = round.block := by
  have kept := round.call_block crates (.receivePrepare now id sig)
  unfold prepare at prepared
  rw [engine.onRound_found _ found] at prepared
  cases prepared
  exact ⟨(round.receivePrepare crates now id sig).1,by simp,kept⟩

theorem proposerVotes_effect (found : state.pbftEngine.rounds.lookup hash = some round) :
    StoreEffect crates [round.block] fault state (state.proposerVotes crates clock fault hash).1 := by
  unfold proposerVotes
  split
  · exact .kept rfl rfl
  · dsimp only
    split
    · rename_i own _ engine reached
      obtain ⟨voted,after,same⟩ := lookup_prepare_block crates found reached
      have effect := proposerCommit_effect crates clock fault
        (show (state.withEngine engine).pbftEngine.rounds.lookup hash = some voted from after)
      rw [same] at effect
      exact effect.congr rfl rfl rfl rfl
    · exact .kept rfl rfl

theorem produceWrite_effect (block : Block) (state : NodeState) :
    StoreEffect crates [block] fault state (state.produceWrite crates clock fault block).1 := by
  unfold produceWrite
  obtain ⟨e,_,refused⟩ | ⟨_,opened⟩ := startRound_cases crates state.pbftEngine clock.instant block
    (ValidatorSet.ofCommon state.validatorSet)
  · rw [refused]
    exact .kept rfl rfl
  · rw [opened]
    have found := state.pbftEngine.lookup_withRound (block.hash crates) (block.hash crates)
      (PbftRound.opened clock.instant block (ValidatorSet.ofCommon state.validatorSet) state.pbftEngine.config)
    rw [if_pos rfl,← state.withEngine_pbftEngine (state.pbftEngine.withRound _ _)] at found
    exact (proposerVotes_effect crates clock fault found).congr rfl rfl rfl rfl

structure Untouched (before after : NodeState) : Prop where
  chain : after.chain = before.chain
  index : after.publisherIndex = before.publisherIndex
  engine : after.pbftEngine = before.pbftEngine
  config : after.config = before.config
  set : after.validatorSet = before.validatorSet

variable {crates} in
theorem Untouched.effect {before after : NodeState} {blocks : List Block} {fault : Bool}
    (untouched : Untouched before after) : StoreEffect crates blocks fault before after :=
  .kept untouched.chain untouched.index

theorem Untouched.refl (state : NodeState) : Untouched state state := ⟨rfl,rfl,rfl,rfl,rfl⟩

theorem onSubmission_untouched (request : PublishRequest) (gate : Except String Unit) (state : NodeState) :
    Untouched state (state.onSubmission now request gate) := by
  unfold onSubmission
  split
  · exact .refl state
  · split_ifs <;> exact ⟨rfl,rfl,rfl,rfl,rfl⟩

theorem onVote_untouched (message : Option VoteGossip) (state : NodeState) :
    Untouched state (state.onVote crates now message) := by
  unfold onVote
  split <;> exact ⟨rfl,rfl,rfl,rfl,rfl⟩

theorem onVrfProof_untouched (id pubkey seed output proof : String) (state : NodeState) :
    Untouched state (state.onVrfProof crates id pubkey seed output proof) := by
  unfold onVrfProof
  split_ifs
  · split <;> exact ⟨rfl,rfl,rfl,rfl,rfl⟩
  · exact .refl state

section
variable (request : PublishRequest)
include request

theorem admitInsert_untouched (gate : Except String Unit) (state : NodeState) :
    Untouched state (admitInsert now request gate state).1 := by
  unfold admitInsert
  split
  · exact .refl state
  · split <;> exact ⟨rfl,rfl,rfl,rfl,rfl⟩

variable (analysis : Analysis)

theorem castVote_untouched (state : NodeState) :
    Untouched state (state.castVote crates now request analysis).state := by
  unfold castVote
  split
  · exact ⟨rfl,rfl,rfl,rfl,rfl⟩
  · split
    · exact ⟨rfl,rfl,rfl,rfl,rfl⟩
    · split_ifs <;> exact ⟨rfl,rfl,rfl,rfl,rfl⟩

theorem analyse_untouched (tarball : Option (List UInt8)) (analysis : Option Analysis)
    (state : NodeState) : Untouched state (state.analyse crates now request tarball analysis).state := by
  unfold analyse
  split
  · exact ⟨rfl,rfl,rfl,rfl,rfl⟩
  · exact ⟨rfl,rfl,rfl,rfl,rfl⟩
  · split_ifs
    · exact ⟨rfl,rfl,rfl,rfl,rfl⟩
    · split
      · exact castVote_untouched crates now request _ state
      · exact ⟨rfl,rfl,rfl,rfl,rfl⟩

theorem poll_untouched (count : Nat) (state : NodeState) :
    Untouched state (state.poll crates now request analysis count).state := by
  unfold poll
  dsimp only
  split <;> exact ⟨rfl,rfl,rfl,rfl,rfl⟩

end

end NodeState

namespace Node
def insertable (node : Node crates) : NodeEvent → List Block
  | .blocks _ _ _ (.pbftCommit hash _ _) => node.state.committable hash
  | .produceWrite clock _ =>
    match node.producer with
    | .selected snapshot output proof => [snapshot.block crates clock node.state.config.nodeId output proof]
    | _ => []
  | .syncInsert _ _ =>
    match node.sync with
    | .inserting _ next => [next.block]
    | _ => []
  | _ => []

end Node

def NodeEvent.finalisationFault : NodeEvent → Bool
  | .blocks _ _ fault _ => fault
  | .produceWrite _ fault => fault
  | _ => false

def NodeEvent.reorganises : NodeEvent → Bool
  | .reorgApply _ _ => true
  | _ => false

namespace Node
variable (node : Node crates) (event : NodeEvent)

theorem produce_frame : (node.produce event).1.sync = node.sync ∧ (node.produce event).1.admissions = node.admissions := by
  cases event with
  | produceSnapshot | produceWrite => simp only [produce]; split <;> exact ⟨rfl,rfl⟩
  | produceSelect rank =>
    simp only [produce]
    split
    · split <;> exact ⟨rfl,rfl⟩
    · exact ⟨rfl,rfl⟩
  | _ => exact ⟨rfl,rfl⟩

theorem validate_frame : (node.validate event).1.sync = node.sync ∧ (node.validate event).1.admissions = node.admissions := by
  cases event with
  | pipelineTick clock => simp only [validate]; split_ifs <;> exact ⟨rfl,rfl⟩
  | pipelineAnalyse | pipelineAssign | pipelinePoll | pipelineTimeout => simp only [validate]; split <;> exact ⟨rfl,rfl⟩
  | _ => exact ⟨rfl,rfl⟩

theorem validate_untouched : NodeState.Untouched node.state (node.validate event).1.state := by
  cases event with
  | pipelineTick clock =>
    simp only [validate]
    split_ifs <;> exact ⟨rfl,rfl,rfl,rfl,rfl⟩
  | pipelineAnalyse clock index tarball analysis =>
    simp only [validate]
    split
    · exact NodeState.analyse_untouched crates clock.utc _ tarball analysis node.state
    · exact .refl _
  | pipelineAssign index =>
    simp only [validate]
    split <;> exact .refl _
  | pipelinePoll clock index =>
    simp only [validate]
    split
    · exact NodeState.poll_untouched crates clock.utc _ _ _ node.state
    · exact .refl _
  | pipelineTimeout index =>
    simp only [validate]
    split
    · exact ⟨rfl,rfl,rfl,rfl,rfl⟩
    · exact .refl _
  | _ => exact .refl _

theorem admission_untouched : NodeState.Untouched node.state (node.admission event).state := by
  cases event with
  | admissionCheck request verify auth =>
    simp only [admission]
    split <;> exact .refl _
  | admissionInsert clock index gate =>
    simp only [admission]
    split
    · exact NodeState.admitInsert_untouched clock.utc _ gate node.state
    · exact .refl _
  | _ => exact .refl _

theorem blocks_effect (clock : Clock) (seen : Validators) (fault : Bool) (message : GossipMessage) :
    StoreEffect crates (node.insertable (.blocks clock seen fault message)) fault node.state
      (node.next (.blocks clock seen fault message)).state := by
  cases message with
  | pbftPrePrepare block =>
    exact (NodeState.onPrePrepare_effect crates clock block node.state).weaken
  | pbftPrepare hash id signature =>
    exact (NodeState.onPrepare_effect crates clock seen hash id signature node.state).weaken
  | pbftCommit hash id signature => exact NodeState.onCommit_effect crates clock fault seen hash id signature node.state
  | _ => exact .kept rfl rfl

theorem produce_effect :
    StoreEffect crates (node.insertable event) event.finalisationFault node.state (node.produce event).1.state := by
  cases event with
  | produceSnapshot =>
    simp only [produce]
    split <;> exact .kept rfl rfl
  | produceSelect rank =>
    simp only [produce]
    split
    · split <;> exact .kept rfl rfl
    · exact .kept rfl rfl
  | produceWrite clock fault =>
    cases task : node.producer with
    | selected snapshot output proof =>
      simp only [produce,insertable,task]
      exact NodeState.produceWrite_effect crates clock fault _ node.state
    | _ => exact .of_eq (by simp only [produce,task])
  | _ => exact .kept rfl rfl

theorem syncInsert_effect (clock : Clock) (fault : Bool) :
    StoreEffect crates (node.insertable (.syncInsert clock fault)) false node.state
      (node.next (.syncInsert clock fault)).state := by
  cases task : node.sync with
  | inserting peerHeight verified =>
    simp only [next,step,synchronise,insertable,task,NodeState.syncInsert]
    cases fault with
    | true => exact .kept rfl rfl
    | false => exact .inserted clock.utc verified.block verified.block (by simp) ⟨rfl,rfl⟩ rfl rfl
  | _ => exact .of_eq (by simp only [next,step,synchronise,task])

theorem synchronise_kept (reading : ∀ clock fault, event ≠ .syncInsert clock fault)
    (noReorg : event.reorganises = false) : (node.synchronise event).state = node.state := by
  cases event with
  | syncInsert clock fault => exact absurd rfl (reading clock fault)
  | reorgApply clock fault => simp [NodeEvent.reorganises] at noReorg
  | syncStart | syncPeers | syncBlock | reorgProbe | reorgSet | reorgBlock => simp only [synchronise]; split <;> rfl
  | _ => rfl

theorem next_effect (noReorg : event.reorganises = false) :
    StoreEffect crates (node.insertable event) event.finalisationFault node.state (node.next event).state := by
  cases event with
  | blocks clock seen fault message => exact node.blocks_effect clock seen fault message
  | produceSnapshot | produceSelect | produceWrite => exact node.produce_effect _
  | syncInsert clock fault => exact node.syncInsert_effect clock fault
  | submission clock request gate => exact (NodeState.onSubmission_untouched clock.utc request gate node.state).effect
  | vote clock message => exact (NodeState.onVote_untouched crates clock.utc message node.state).effect
  | vrfProof id pubkey seed output proof =>
    exact (NodeState.onVrfProof_untouched crates id pubkey seed output proof node.state).effect
  | pipelineTick | pipelineAnalyse | pipelineAssign | pipelinePoll
  | pipelineTimeout => exact (node.validate_untouched _).effect
  | admissionCheck | admissionInsert => exact (node.admission_untouched _).effect
  | apiRevoke canonical reason pubkey =>
    simp only [next,step,apiRevoke]
    split
    · exact .kept rfl rfl
    · split_ifs <;> exact .kept rfl rfl
  | apiRotate | setChanged => exact .kept rfl rfl
  | reorgApply clock fault => simp [NodeEvent.reorganises] at noReorg
  | syncStart | syncPeers | syncBlock | reorgProbe | reorgSet
  | reorgBlock => exact .of_eq (node.synchronise_kept _ (by simp) rfl)

end Node
end ChainRegistry
