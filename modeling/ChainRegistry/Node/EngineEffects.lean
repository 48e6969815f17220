import ChainRegistry.Node.Effects

/-! What one event can do to the consensus engine: it makes calls, and each of them
is explained by the message received, by the block proposed or by an own vote that is
sent out in the same step. -/
namespace ChainRegistry
open Lib Runs Fallible ValidatorSet Broadcast

variable (crates : Crates)

def Explained (state : NodeState) (opened : List Block) (received sent : List GossipMessage) : EngineCall → Prop
  | .startRound _ block set => block ∈ opened ∧ set = ofCommon state.validatorSet
  | .prepare _ hash id sig => .pbftPrepare hash id sig.signature ∈ received ∨
      id = state.config.nodeId ∧ .pbftPrepare hash id sig.signature ∈ sent
  | .commit hash id sig => .pbftCommit hash id sig.signature ∈ received ∨
      id = state.config.nodeId ∧ .pbftCommit hash id sig.signature ∈ sent
  | _ => False

structure EngineEffect (before after : NodeState) (opened : List Block) (received sent : List GossipMessage) : Prop where
  calls : ∃ calls, after.pbftEngine = run (PbftEngine.call crates) before.pbftEngine calls ∧
    ∀ call ∈ calls, Explained before opened received sent call
  prepares : ∀ hash id signature, .pbftPrepare hash id signature ∈ sent →
    id = before.config.nodeId ∧ (after.pbftEngine.rounds.lookup hash).isSome
  commits : ∀ hash id signature, .pbftCommit hash id signature ∈ sent →
    id = before.config.nodeId ∧ (after.pbftEngine.rounds.lookup hash).isSome
  config : after.config = before.config
  set : after.validatorSet = before.validatorSet

variable {crates}

theorem signPhase_id {config : NodeConfig} {phase hash : String} {own : BlockSignature}
    (signed : config.signPhase crates phase hash = some own) : own.validatorId = config.nodeId := by
  unfold NodeConfig.signPhase at signed
  split at signed
  · cases signed
  · split at signed
    · cases signed
    · split at signed
      · cases signed
      · cases signed
        rfl

theorem validated_fields {seen : Validators} {phase hash id signature : String} {sig : BlockSignature}
    (valid : validatePbftPhaseMessage crates seen phase hash id signature = .ok sig) :
    sig.validatorId = id ∧ sig.signature = signature := by
  unfold validatePbftPhaseMessage at valid
  split at valid
  · cases valid
  · split_ifs at valid
    split at valid
    · cases valid
    · cases valid
      exact ⟨rfl,rfl⟩

namespace PbftEngine
theorem lookup_onRound_isSome {α : Type} {engine : PbftEngine} {hash : String} (target : String)
    (method : PbftRound → PbftRound × Except String α) (found : (engine.rounds.lookup hash).isSome) :
    ((engine.onRound target method).1.rounds.lookup hash).isSome := by
  rw [lookup_onRound]
  split_ifs <;> simpa using found

theorem lookup_after_ok {α : Type} {engine next : PbftEngine} {hash : String} {value : α}
    {method : PbftRound → PbftRound × Except String α} (done : engine.onRound hash method = (next,.ok value)) :
    (next.rounds.lookup hash).isSome := by
  cases found : engine.rounds.lookup hash with
  | none => simp [onRound,found] at done
  | some round =>
    rw [engine.onRound_found method found] at done
    obtain ⟨rfl,_⟩ := Prod.mk.inj done
    simp

theorem lookup_startRound_isSome {engine : PbftEngine} {hash : String} (now : Nat) (block : Block)
    (set : ValidatorSet) (found : (engine.rounds.lookup hash).isSome) :
    ((engine.startRound crates now block set).1.rounds.lookup hash).isSome := by
  obtain ⟨e,_,refused⟩ | ⟨_,opened⟩ := startRound_cases crates engine now block set
  · rw [refused]
    exact found
  · rw [opened,lookup_withRound]
    split_ifs
    · rfl
    · exact found

end PbftEngine

theorem lookup_run_isSome {state : NodeState} {opened : List Block} {received sent : List GossipMessage}
    {hash : String} (calls : List EngineCall) (explained : ∀ call ∈ calls, Explained state opened received sent call)
    (engine : PbftEngine) (found : (engine.rounds.lookup hash).isSome) :
    ((run (PbftEngine.call crates) engine calls).rounds.lookup hash).isSome := by
  apply kept_run (fun engine : PbftEngine => (engine.rounds.lookup hash).isSome = true) calls _ engine found
  intro engine call inside found
  have reason := explained call inside
  cases call with
  | startRound now block set => exact PbftEngine.lookup_startRound_isSome now block set found
  | prepare now target id sig | commit target id sig => exact PbftEngine.lookup_onRound_isSome target _ found
  | _ => cases reason

def NodeState.accepts (crates : Crates) (state : NodeState) (block : Block) : Bool :=
  ((PbftRound.withConfig 0 block (ofCommon state.validatorSet) state.pbftEngine.config).checkProposer
    crates block.header.proposerId).isOk

theorem NodeState.accepts_of_checkProposer {state : NodeState} {now : Nat} {block : Block}
    (passed : (PbftRound.withConfig now block (ofCommon state.validatorSet)
      state.pbftEngine.config).checkProposer crates block.header.proposerId = .ok ()) :
    state.accepts crates block := by
  have same : state.accepts crates block = ((PbftRound.withConfig now block (ofCommon state.validatorSet)
      state.pbftEngine.config).checkProposer crates block.header.proposerId).isOk := rfl
  rw [same,passed]
  rfl

theorem NodeState.accepts_member {state : NodeState} {block : Block} (accepted : state.accepts crates block) :
    (ofCommon state.validatorSet).isMember block.header.proposerId := by
  obtain ⟨⟨⟩,passed⟩ := isOk_iff.mp accepted
  simp only [PbftRound.checkProposer,bind_ok,check_ok] at passed
  simpa [PbftRound.withConfig] using passed.1

namespace EngineEffect
variable {before middle after : NodeState} {opened : List Block} {received sent more : List GossipMessage}

theorem of_eq (engine : after.pbftEngine = before.pbftEngine) (config : after.config = before.config)
    (set : after.validatorSet = before.validatorSet) : EngineEffect crates before after opened received [] where
  calls := ⟨[],engine,by simp⟩
  prepares := by simp
  commits := by simp
  config := config
  set := set

theorem lookup_isSome (effect : EngineEffect crates before after opened received sent) {hash : String}
    (found : (before.pbftEngine.rounds.lookup hash).isSome) : (after.pbftEngine.rounds.lookup hash).isSome := by
  obtain ⟨calls,engine,explained⟩ := effect.calls
  rw [engine]
  exact lookup_run_isSome calls explained before.pbftEngine found

private theorem explained_mono {state other : NodeState} {heard wider : List GossipMessage}
    (config : other.config = state.config) (set : other.validatorSet = state.validatorSet)
    (hears : received ⊆ heard) (within : sent ⊆ wider) {call : EngineCall}
    (explained : Explained other opened received sent call) : Explained state opened heard wider call := by
  cases call with
  | startRound now block set' => exact ⟨explained.1,by rw [explained.2,set]⟩
  | prepare | commit =>
    exact explained.imp (fun inside => hears inside) (fun own => ⟨by rw [own.1,config],within own.2⟩)
  | receiveViewChange | timeoutRounds | cleanupStaleRounds => cases explained

theorem trans (first : EngineEffect crates before middle opened received sent)
    (second : EngineEffect crates middle after opened received more) :
    EngineEffect crates before after opened received (sent ++ more) := by
  obtain ⟨calls,engine,explained⟩ := first.calls
  obtain ⟨later,engine',explained'⟩ := second.calls
  refine ⟨⟨calls ++ later,?_,?_⟩,?_,?_,second.config.trans first.config,second.set.trans first.set⟩
  · rw [engine',engine,run_append]
  · intro call inside
    rcases List.mem_append.mp inside with early | late
    · exact explained_mono rfl rfl (List.Subset.refl _) (List.subset_append_left _ _) (explained call early)
    · exact explained_mono first.config first.set (List.Subset.refl _) (List.subset_append_right _ _)
        (explained' call late)
  · intro hash id signature inside
    rcases List.mem_append.mp inside with early | late
    · exact (first.prepares hash id signature early).imp_right second.lookup_isSome
    · exact (second.prepares hash id signature late).imp_left (fun same => by rw [same,first.config])
  · intro hash id signature inside
    rcases List.mem_append.mp inside with early | late
    · exact (first.commits hash id signature early).imp_right second.lookup_isSome
    · exact (second.commits hash id signature late).imp_left (fun same => by rw [same,first.config])

theorem one_call {state : NodeState} (call : EngineCall) (explained : Explained state opened received [] call) :
    EngineEffect crates state (state.withEngine (state.pbftEngine.call crates call)) opened received [] where
  calls := ⟨[call],rfl,by simpa using explained⟩
  prepares := by simp
  commits := by simp
  config := rfl
  set := rfl

section
variable {state : NodeState} {engine : PbftEngine} {own : BlockSignature} {hash phase text : String}

theorem then_prepare (now : Nat) (first : EngineEffect crates state (state.withEngine engine) opened received sent)
    (signed : state.config.signPhase crates phase text = some own) (found : (engine.rounds.lookup hash).isSome) :
    EngineEffect crates state (state.withEngine (engine.prepare crates now hash own.validatorId own).1) opened
      received (sent ++ [.pbftPrepare hash own.validatorId own.signature]) := by
  apply first.trans
  refine ⟨⟨[.prepare now hash own.validatorId own],rfl,?_⟩,?_,by simp,rfl,rfl⟩
  · simp [Explained,signPhase_id signed]
  · intro other id signature inside
    simp only [List.mem_singleton,GossipMessage.pbftPrepare.injEq] at inside
    obtain ⟨rfl,rfl,rfl⟩ := inside
    exact ⟨signPhase_id signed,PbftEngine.lookup_onRound_isSome _ _ found⟩

theorem then_commit (first : EngineEffect crates state (state.withEngine engine) opened received sent)
    (signed : state.config.signPhase crates phase text = some own) (found : (engine.rounds.lookup hash).isSome) :
    EngineEffect crates state (state.withEngine (engine.commit crates hash own.validatorId own).1) opened
      received (sent ++ [.pbftCommit hash own.validatorId own.signature]) := by
  apply first.trans
  refine ⟨⟨[.commit hash own.validatorId own],rfl,?_⟩,by simp,?_,rfl,rfl⟩
  · simp [Explained,signPhase_id signed]
  · intro other id signature inside
    simp only [List.mem_singleton,GossipMessage.pbftCommit.injEq] at inside
    obtain ⟨rfl,rfl,rfl⟩ := inside
    exact ⟨signPhase_id signed,PbftEngine.lookup_onRound_isSome _ _ found⟩

end

theorem receiving (effect : EngineEffect crates before after opened [] sent) (received : List GossipMessage) :
    EngineEffect crates before after opened received sent := by
  obtain ⟨calls,engine,explained⟩ := effect.calls
  refine ⟨⟨calls,engine,?_⟩,effect.prepares,effect.commits,effect.config,effect.set⟩
  intro call inside
  exact explained_mono rfl rfl (List.nil_subset received) (List.Subset.refl _) (explained call inside)

theorem then_propose (first : EngineEffect crates before after opened received sent) (block : Block) :
    EngineEffect crates before after opened received (sent ++ [.pbftPrePrepare block]) :=
  first.trans ⟨⟨[],rfl,by simp⟩,by simp,by simp,rfl,rfl⟩

theorem then_same (first : EngineEffect crates before middle opened received sent)
    (engine : after.pbftEngine = middle.pbftEngine) (config : after.config = middle.config)
    (set : after.validatorSet = middle.validatorSet) : EngineEffect crates before after opened received sent := by
  have last : EngineEffect crates middle after opened received [] := .of_eq engine config set
  simpa using first.trans last

theorem everyRound (effect : EngineEffect crates before after opened received sent)
    {P : String → PbftRound → Prop} (every : before.pbftEngine.EveryRound P)
    (starts : ∀ now, ∀ block ∈ opened, before.accepts crates block → P (block.hash crates)
      (PbftRound.opened now block (ofCommon before.validatorSet) before.pbftEngine.config))
    (prepares : ∀ now hash id sig round, Explained before opened received sent (.prepare now hash id sig) →
      P hash round → P hash (round.receivePrepare crates now id sig).1)
    (commits : ∀ hash id sig round, Explained before opened received sent (.commit hash id sig) →
      P hash round → P hash (round.receiveCommit crates id sig).1) :
    after.pbftEngine.EveryRound P ∧ after.pbftEngine.config = before.pbftEngine.config := by
  obtain ⟨calls,engine,explained⟩ := effect.calls
  rw [engine]
  apply kept_run (fun engine : PbftEngine => engine.EveryRound P ∧ engine.config = before.pbftEngine.config) calls
  · intro engine call inside ⟨every,config⟩
    have reason := explained call inside
    cases call with
    | startRound now block set =>
      obtain ⟨listed,rfl⟩ := reason
      obtain ⟨e,_,refused⟩ | ⟨passed,begun⟩ := PbftEngine.startRound_cases crates engine now block
        (ofCommon before.validatorSet)
      · simp only [PbftEngine.call,refused]
        exact ⟨every,config⟩
      · simp only [PbftEngine.call,begun]
        rw [config] at passed ⊢
        exact ⟨every.insert (starts now block listed (NodeState.accepts_of_checkProposer passed)),config⟩
    | prepare now hash id sig =>
      exact ⟨every.onRound hash _ (fun round => prepares now hash id sig round reason),
        (PbftEngine.config_onRound engine hash _).trans config⟩
    | commit hash id sig =>
      exact ⟨every.onRound hash _ (fun round => commits hash id sig round reason),
        (PbftEngine.config_onRound engine hash _).trans config⟩
    | _ => exact reason.elim
  · exact ⟨every,rfl⟩

end EngineEffect
namespace NodeState
variable (clock : Clock) (fault : Bool) (block : Block)

theorem insertFinalised_untouched (crates : Crates) (hash : String) (state : NodeState) :
    (state.insertFinalised crates clock fault hash).pbftEngine = state.pbftEngine ∧
      (state.insertFinalised crates clock fault hash).config = state.config ∧
      (state.insertFinalised crates clock fault hash).validatorSet = state.validatorSet := by
  cases final : state.pbftEngine.getFinalisedBlock hash with
  | none =>
    rw [insertFinalised_none crates clock fault final]
    exact ⟨rfl,rfl,rfl⟩
  | some block =>
    obtain ⟨reorgs,done⟩ := insertFinalised_some crates clock fault final
    rw [done]
    exact ⟨rfl,rfl,rfl⟩

theorem startRound_engine (state : NodeState) :
    EngineEffect crates state (state.withEngine (state.pbftEngine.startRound crates clock.instant block
      (ofCommon state.validatorSet)).1) [block] [] [] :=
  .one_call (.startRound clock.instant block (ofCommon state.validatorSet)) ⟨by simp,rfl⟩

theorem onPrePrepare_engine (state : NodeState) : EngineEffect crates state (state.onPrePrepare crates clock block).1 [block] []
    (state.onPrePrepare crates clock block).2 := by
  have started : EngineEffect crates state _ [block] [] [] := startRound_engine clock block state
  unfold onPrePrepare
  obtain ⟨e,_,refused⟩ | ⟨_,opened⟩ := PbftEngine.startRound_cases crates state.pbftEngine clock.instant block
    (ofCommon state.validatorSet)
  · rw [refused]
    exact .of_eq rfl rfl rfl
  · rw [opened] at started ⊢
    dsimp only at started ⊢
    cases signed : state.config.signPhase crates "prepare" (block.hash crates) with
    | none => exact started
    | some own => exact started.then_prepare clock.instant signed (by simp)

theorem onPrepare_engine (seen : Validators) (hash id signature : String) (state : NodeState) :
    EngineEffect crates state (state.onPrepare crates clock seen hash id signature).1 []
      [.pbftPrepare hash id signature] (state.onPrepare crates clock seen hash id signature).2 := by
  unfold onPrepare
  split
  · exact .of_eq rfl rfl rfl
  · rename_i sig valid
    have entered : EngineEffect crates state (state.withEngine
        (state.pbftEngine.prepare crates clock.instant hash id sig).1) [] [.pbftPrepare hash id signature] [] :=
      .one_call (.prepare clock.instant hash id sig) (.inl (by simp [(validated_fields valid).2]))
    split
    · rename_i engine reached
      have found := PbftEngine.lookup_after_ok reached
      rw [reached] at entered
      cases signed : state.config.signPhase crates "commit" hash with
      | none => exact entered
      | some own => exact entered.then_commit signed found
    · rename_i engine result _ reached
      rw [reached] at entered
      exact entered

theorem onCommit_engine (seen : Validators) (hash id signature : String) (state : NodeState) :
    EngineEffect crates state (state.onCommit crates clock seen fault hash id signature) []
      [.pbftCommit hash id signature] [] := by
  unfold onCommit
  split
  · exact .of_eq rfl rfl rfl
  · rename_i sig valid
    have entered : EngineEffect crates state (state.withEngine (state.pbftEngine.commit crates hash id sig).1) []
        [.pbftCommit hash id signature] [] :=
      .one_call (.commit hash id sig) (.inl (by simp [(validated_fields valid).2]))
    split
    · rename_i engine reached
      rw [reached] at entered
      obtain ⟨same,config,set⟩ := insertFinalised_untouched clock fault crates hash (state.withEngine engine)
      exact entered.then_same same config set
    · rename_i engine result _ reached
      rw [reached] at entered
      exact entered

variable {opened : List Block} {received sent : List GossipMessage}

theorem proposerCommit_engine {state : NodeState} {engine : PbftEngine} {hash : String}
    (first : EngineEffect crates state (state.withEngine engine) opened received sent)
    (found : (engine.rounds.lookup hash).isSome) :
    EngineEffect crates state ((state.withEngine engine).proposerCommit crates clock fault hash).1 opened received
      (sent ++ ((state.withEngine engine).proposerCommit crates clock fault hash).2) := by
  unfold proposerCommit
  rw [withEngine_config]
  cases signed : state.config.signPhase crates "commit" hash with
  | none => simpa using first
  | some own =>
    have voted := first.then_commit signed found
    dsimp only
    split
    · rename_i next reached
      rw [withEngine_pbftEngine] at reached
      rw [reached] at voted
      obtain ⟨same,config,set⟩ := insertFinalised_untouched clock fault crates hash
        ((state.withEngine engine).withEngine next)
      exact voted.then_same same config set
    · rename_i next result _ reached
      rw [withEngine_pbftEngine] at reached
      rw [reached] at voted
      exact voted

theorem proposerVotes_engine {state : NodeState} {engine : PbftEngine} {hash : String}
    (first : EngineEffect crates state (state.withEngine engine) opened received sent)
    (found : (engine.rounds.lookup hash).isSome) :
    EngineEffect crates state ((state.withEngine engine).proposerVotes crates clock fault hash).1 opened received
      (sent ++ ((state.withEngine engine).proposerVotes crates clock fault hash).2) := by
  unfold proposerVotes
  rw [withEngine_config]
  cases signed : state.config.signPhase crates "prepare" hash with
  | none => simpa using first
  | some own =>
    have voted := first.then_prepare clock.instant signed found
    dsimp only
    split
    · rename_i next reached
      rw [withEngine_pbftEngine] at reached
      rw [reached] at voted
      have committed := proposerCommit_engine clock fault voted (PbftEngine.lookup_after_ok reached)
      rw [List.append_assoc] at committed
      exact committed
    · rename_i next result _ reached
      rw [withEngine_pbftEngine] at reached
      rw [reached] at voted
      exact voted

private theorem opened_isSome (crates : Crates) (state : NodeState) (block : Block) (now : Nat) :
    ((state.pbftEngine.withRound (block.hash crates) (PbftRound.opened now block
      (ofCommon state.validatorSet) state.pbftEngine.config)).rounds.lookup (block.hash crates)).isSome := by
  simp

theorem produceWrite_engine (state : NodeState) :
    EngineEffect crates state (state.produceWrite crates clock fault block).1 [block] []
      (state.produceWrite crates clock fault block).2 := by
  have started : EngineEffect crates state _ [block] [] [] := startRound_engine clock block state
  unfold produceWrite
  obtain ⟨e,_,refused⟩ | ⟨_,opened⟩ := PbftEngine.startRound_cases crates state.pbftEngine clock.instant block
    (ofCommon state.validatorSet)
  · rw [refused]
    exact .of_eq rfl rfl rfl
  · rw [opened] at started ⊢
    have voted := proposerVotes_engine clock fault started (opened_isSome crates state block clock.instant)
    rw [List.nil_append] at voted
    exact (voted.then_propose block).then_same rfl rfl rfl

end NodeState
namespace Node
def openable (node : Node crates) : NodeEvent → List Block
  | .blocks _ _ _ (.pbftPrePrepare block) => [block]
  | .produceWrite clock _ =>
    match node.producer with
    | .selected snapshot output proof => [snapshot.block crates clock node.state.config.nodeId output proof]
    | _ => []
  | _ => []

end Node

def NodeEvent.received : NodeEvent → List GossipMessage
  | .blocks _ _ _ message => [message]
  | _ => []

def Broadcast.gossip? : Broadcast → Option GossipMessage
  | .gossip message => some message
  | .vote _ => none

theorem filterMap_gossip (messages : List GossipMessage) : (messages.map gossip).filterMap gossip? = messages := by
  simp [List.filterMap_map,Function.comp_def,gossip?]

namespace Node
def sends (node : Node crates) (event : NodeEvent) : List GossipMessage :=
  (node.step event).2.filterMap gossip?

variable (node : Node crates)

theorem blocks_engine (clock : Clock) (seen : Validators) (fault : Bool) (message : GossipMessage) :
    EngineEffect crates node.state (node.next (.blocks clock seen fault message)).state
      (node.openable (.blocks clock seen fault message)) [message] (node.sends (.blocks clock seen fault message)) := by
  simp only [sends,step,filterMap_gossip]
  cases message with
  | pbftPrePrepare block => exact (NodeState.onPrePrepare_engine clock block node.state).receiving _
  | pbftPrepare hash id signature => exact NodeState.onPrepare_engine clock seen hash id signature node.state
  | pbftCommit hash id signature => exact NodeState.onCommit_engine clock fault seen hash id signature node.state
  | _ => exact .of_eq rfl rfl rfl

theorem produceSelect_sends (rank : Nat) (message : GossipMessage) (inside : message ∈ node.sends (.produceSelect rank)) :
    ∃ id pubkey seed output proof, message = .vrfProof id pubkey seed output proof := by
  simp only [sends,step,produce] at inside
  split at inside
  · rename_i snapshot _
    have only : ∀ sent ∈ (node.state.produceSelect crates rank snapshot).1,
        ∃ id pubkey seed output proof, sent = .vrfProof id pubkey seed output proof := by
      unfold NodeState.produceSelect
      dsimp only
      split
      · split
        · simp
        · simp
      · simp
    split at inside
    · rename_i messages e selected
      rw [filterMap_gossip] at inside
      exact only message (by rw [selected]; exact inside)
    · rename_i messages output proof selected
      rw [filterMap_gossip] at inside
      exact only message (by rw [selected]; exact inside)
  · simp at inside

variable (event : NodeEvent)

theorem produce_engine
    (producing : event = .produceSnapshot ∨ (∃ rank, event = .produceSelect rank) ∨
      ∃ clock fault, event = .produceWrite clock fault) :
    EngineEffect crates node.state (node.next event).state (node.openable event) event.received
      (node.sends event) := by
  obtain rfl | ⟨rank,rfl⟩ | ⟨clock,fault,rfl⟩ := producing
  · simp only [next,sends,step,produce]
    split <;> exact .of_eq rfl rfl rfl
  · have votes := node.produceSelect_sends rank
    have same : (node.next (.produceSelect rank)).state = node.state := by
      simp only [next,step,produce]
      split
      · split <;> rfl
      · rfl
    refine ⟨⟨[],by rw [same]; rfl,by simp⟩,?_,?_,by rw [same],by rw [same]⟩
    all_goals
      intro hash id signature inside
      obtain ⟨_,_,_,_,_,other⟩ := votes _ inside
      cases other
  · cases task : node.producer with
    | selected snapshot output proof =>
      simp only [next,sends,step,produce,openable,task,filterMap_gossip]
      exact NodeState.produceWrite_engine clock fault _ node.state
    | idle | read =>
      simp only [next,sends,step,produce,task]
      exact .of_eq rfl rfl rfl

theorem synchronise_engine : (node.synchronise event).state.pbftEngine = node.state.pbftEngine ∧
    (node.synchronise event).state.config = node.state.config ∧
    (node.synchronise event).state.validatorSet = node.state.validatorSet := by
  cases event with
  | syncInsert clock fault =>
    simp only [synchronise]
    split
    · simp only [NodeState.syncInsert]
      cases fault <;> exact ⟨rfl,rfl,rfl⟩
    · exact ⟨rfl,rfl,rfl⟩
  | reorgApply clock fault =>
    simp only [synchronise]
    split
    · cases fault <;> exact ⟨rfl,rfl,rfl⟩
    · exact ⟨rfl,rfl,rfl⟩
  | _ =>
    rw [node.synchronise_kept _ (by intro _ _ same; cases same) rfl]
    exact ⟨rfl,rfl,rfl⟩

theorem validate_sends : (node.validate event).2.filterMap gossip? = [] := by
  cases event with
  | pipelineTick clock => simp only [validate]; split_ifs <;> rfl
  | pipelineAnalyse | pipelinePoll | pipelineTimeout => simp only [validate]; split <;> simp [pipelineStep,gossip?]
  | pipelineAssign index => simp only [validate]; split <;> rfl
  | _ => rfl

theorem untouched_engine {before after : NodeState} {opened : List Block} {received sent : List GossipMessage}
    (untouched : NodeState.Untouched before after) (silent : sent = []) :
    EngineEffect crates before after opened received sent :=
  silent ▸ .of_eq untouched.engine untouched.config untouched.set

theorem openable_unique {event : NodeEvent} {first second : Block} (left : first ∈ node.openable event)
    (right : second ∈ node.openable event) : first = second := by
  obtain ⟨block,only⟩ : ∃ block, ∀ opened ∈ node.openable event, opened = block := by
    unfold openable
    split
    · exact ⟨_,fun _ => List.mem_singleton.mp⟩
    · split
      · exact ⟨_,fun _ => List.mem_singleton.mp⟩
      · exact ⟨first,by simp⟩
    · exact ⟨first,by simp⟩
  rw [only first left,only second right]

end Node

def NodeEvent.keepsSet : NodeEvent → Bool
  | .setChanged _ _ => false
  | _ => true

namespace Node
theorem next_engine (node : Node crates) (event : NodeEvent) (keeps : event.keepsSet) :
    EngineEffect crates node.state (node.next event).state (node.openable event) event.received
      (node.sends event) := by
  have quiet (e : NodeEvent) (same : node.step e = (node.synchronise e,[])) :
      EngineEffect crates node.state (node.next e).state (node.openable e) e.received (node.sends e) := by
    obtain ⟨engine,config,set⟩ := node.synchronise_engine e
    simp only [next,sends,same]
    exact .of_eq engine config set
  cases event with
  | blocks clock seen fault message => exact node.blocks_engine clock seen fault message
  | produceSnapshot => exact node.produce_engine _ (.inl rfl)
  | produceSelect rank => exact node.produce_engine _ (.inr (.inl ⟨rank,rfl⟩))
  | produceWrite clock fault => exact node.produce_engine _ (.inr (.inr ⟨clock,fault,rfl⟩))
  | submission clock request gate =>
    exact untouched_engine (NodeState.onSubmission_untouched clock.utc request gate node.state) rfl
  | vote clock message => exact untouched_engine (NodeState.onVote_untouched crates clock.utc message node.state) rfl
  | vrfProof id pubkey seed output proof =>
    exact untouched_engine (NodeState.onVrfProof_untouched crates id pubkey seed output proof node.state) rfl
  | pipelineTick | pipelineAssign | pipelinePoll
  | pipelineTimeout => exact untouched_engine (node.validate_untouched _) (node.validate_sends _)
  | pipelineAnalyse clock index tarball analysis =>
    exact untouched_engine (node.validate_untouched _) (node.validate_sends _)
  | admissionCheck | admissionInsert => exact untouched_engine (node.admission_untouched _) rfl
  | apiRevoke canonical reason pubkey =>
    refine untouched_engine ?_ rfl
    simp only [next,step,apiRevoke]
    split
    · exact .refl _
    · split_ifs <;> exact .refl _
  | apiRotate canonicalPrefix oldPubkey newPubkey sigFromOld sigFromNew clock nonce =>
    exact untouched_engine (.refl _) rfl
  | setChanged validators fault => simp [NodeEvent.keepsSet] at keeps
  | syncStart | syncPeers | syncBlock | syncInsert | reorgProbe | reorgSet | reorgBlock | reorgApply => exact quiet _ rfl

end Node
end ChainRegistry
