import ChainRegistry.Network.CarriedTxs
import ChainRegistry.Node.PackageLifecycle

/-! Where the transactions of `finalized_tx` go. The producer takes them out of the channel before
it knows whether the node may propose, and hands them to a round of the engine; a finalised round
hands its block to the store. -/
namespace ChainRegistry
open Lib Runs List NodeState

variable {crates : Crates} {tx : Transaction}

def NodeEvent.produces : NodeEvent → Bool
  | .produceSnapshot | .produceSelect _ | .produceWrite _ _ => true
  | _ => false

def ProducerTask.txs : ProducerTask → List Transaction
  | .idle => []
  | .read snapshot => snapshot.txs
  | .selected snapshot _ _ => snapshot.txs

namespace Node
/-- No transaction is dropped by the event. The producer hands its block to the engine, a block that is
stored displaces none, and a reorganisation that is carried out brings back what it abandons. -/
def Retains (node : Node crates) (event : NodeEvent) : Prop :=
  match event with
  | .produceSelect rank =>
    match node.producer with
    | .read snapshot => node.state.Eligible crates rank snapshot.prevHash
    | _ => True
  | .produceWrite clock fault =>
    match node.producer with
    | .selected snapshot output proof =>
      let block := snapshot.block crates clock node.state.config.nodeId output proof
      node.state.Selected crates snapshot.prevHash output proof ∧ node.state.pbftEngine.BodyKept crates block ∧
        node.state.ProposalSafe fault block
    | _ => True
  | .blocks _ _ _ (.pbftPrePrepare block) => node.state.pbftEngine.BodyKept crates block
  | .blocks _ _ _ (.pbftPrepare hash _ _) => node.state.PrepareSafe hash
  | .blocks _ _ fault (.pbftCommit hash _ _) => node.state.CommitSafe fault hash
  | .syncInsert _ fault =>
    match node.sync with
    | .inserting _ next => fault = true ∨ node.state.chain.DisplacesNone next.block
    | _ => True
  | .reorgApply _ fault =>
    match node.sync with
    | .applying _ branch => fault = some 0 ∨
        ∀ old ∈ node.state.chain.canonicalBlocks, branch.forkHeight < old.header.height → ∀ tx ∈ old.transactions,
          fault = none ∧ ∃ block ∈ branch.blocks, tx ∈ block.transactions
    | _ => True
  | _ => True

instance retainsDecidable (node : Node crates) (event : NodeEvent) : Decidable (node.Retains event) := by
  obtain ⟨state,_,_,producer,sync,_,_⟩ := node
  cases event with
  | produceSelect | produceWrite => cases producer <;> (dsimp only [Retains]; infer_instance)
  | blocks clock set fault message => cases message <;> (dsimp only [Retains]; infer_instance)
  | syncInsert | reorgApply => cases sync <;> (dsimp only [Retains]; infer_instance)
  | _ => exact isTrue trivial

variable {node : Node crates}

theorem reorgApply_holds (injective : crates.CollisionFree) (recoverable : node.Recoverable) {clock : Clock}
    {fault : Option Nat} (retains : node.Retains (.reorgApply clock fault)) (holds : node.state.chain.Holds tx) :
    (node.next (.reorgApply clock fault)).state.chain.Holds tx := by
  cases task : node.sync with
  | applying localTip branch =>
    simp only [Retains,task] at retains
    have indexed := recoverable.indexed
    have follows : Block.Follows crates branch.forkHeight branch.ancestorHash branch.blocks := branch.follows
    obtain ⟨height,old,found,inside⟩ := holds
    have listed := indexed.mem_canonicalBlocks found
    simp only [next,step,synchronise,task,reorgApply]
    cases fault with
    | none =>
      have view := ChainStore.view_reorgWrites indexed injective follows
      obtain bad | brings := retains
      · cases bad
      · by_cases low : height ≤ branch.forkHeight
        · exact ⟨height,old,(view height).trans ((if_pos low).trans found),inside⟩
        · rw [← indexed.height_eq found] at low
          obtain ⟨_,block,fetched,again⟩ := brings old listed (Nat.not_le.mp low) tx inside
          obtain ⟨index,bound,rfl⟩ := mem_iff_getElem.mp fetched
          refine ⟨branch.forkHeight + index + 1,branch.blocks[index],(view _).trans ?_,again⟩
          rw [if_neg (by omega),show branch.forkHeight + index + 1 - branch.forkHeight - 1 = index by omega]
          exact List.getElem?_eq_getElem bound
    | some done =>
      by_cases low : height ≤ branch.forkHeight
      · exact ⟨height,old,(ChainStore.view_reorgPart indexed injective follows done low).trans found,inside⟩
      · obtain none | brings := retains
        · cases none
          exact ⟨height,old,found,inside⟩
        · rw [← indexed.height_eq found] at low
          cases (brings old listed (Nat.not_le.mp low) tx inside).1
  | _ =>
    simp only [next,step,synchronise,task]
    exact holds

theorem next_carries (injective : crates.CollisionFree) (recoverable : node.Recoverable) (event : NodeEvent)
    (retains : node.Retains event) (carries : node.state.Carries tx) : (node.next event).state.Carries tx := by
  have indexed := recoverable.indexed
  cases event with
  | blocks clock seen fault message =>
    cases message with
    | pbftPrePrepare block => exact carries.onPrePrepare retains
    | pbftPrepare hash id signature => exact carries.onPrepare retains
    | pbftCommit hash id signature => exact carries.onCommit injective indexed retains
    | _ => exact carries
  | produceWrite clock fault =>
    cases task : node.producer with
    | selected snapshot output proof =>
      simp only [Retains,task] at retains
      obtain ⟨selected,body,safe⟩ := retains
      simp only [next,step,produce,task]
      exact NodeState.Carries.produceWrite injective indexed body safe
        ((startRound_own_iff crates node.state clock snapshot output proof).mpr selected) (.inl carries)
    | _ =>
      simp only [next,step,produce,task]
      exact carries
  | syncInsert clock fault =>
    cases task : node.sync with
    | inserting peerHeight verified =>
      simp only [Retains,task] at retains
      simp only [next,step,synchronise,task,NodeState.syncInsert]
      cases fault with
      | true => exact carries
      | false =>
        obtain bad | displaces := retains
        · cases bad
        · exact carries.imp id fun holds => holds.insertBlock indexed injective displaces
    | _ =>
      simp only [next,step,synchronise,task]
      exact carries
  | reorgApply clock fault =>
    have engine : (node.next (.reorgApply clock fault)).state.pbftEngine = node.state.pbftEngine := by
      simp only [next,step,synchronise]
      split
      · cases fault <;> rfl
      · rfl
    obtain proposes | holds := carries
    · exact .inl (engine ▸ proposes)
    · exact .inr (reorgApply_holds injective recoverable retains holds)
  | submission clock request gate =>
    exact carries.untouched (onSubmission_untouched clock.utc request gate node.state)
  | vote clock message => exact carries.untouched (onVote_untouched crates clock.utc message node.state)
  | vrfProof id pubkey seed output proof =>
    exact carries.untouched (onVrfProof_untouched crates id pubkey seed output proof node.state)
  | pipelineTick | pipelineAnalyse | pipelineAssign | pipelinePoll
  | pipelineTimeout => exact carries.untouched (node.validate_untouched _)
  | admissionCheck | admissionInsert => exact carries.untouched (node.admission_untouched _)
  | produceSnapshot =>
    simp only [next,step,produce]
    split <;> exact carries
  | produceSelect rank =>
    simp only [next,step,produce]
    split
    · split <;> exact carries
    · exact carries
  | apiRevoke canonical reason pubkey =>
    simp only [next,step,apiRevoke]
    split
    · exact carries
    · split_ifs <;> exact carries
  | apiRotate | setChanged => exact carries
  | syncStart | syncPeers | syncBlock | reorgProbe | reorgSet
  | reorgBlock => exact (node.synchronise_kept _ (by simp) rfl).symm.subst (motive := (NodeState.Carries · tx)) carries

theorem next_channel (node : Node crates) (event : NodeEvent) (other : event.produces = false) :
    node.finalizedTxs <+: (node.next event).finalizedTxs ∧ (node.next event).producer = node.producer := by
  have same : ∀ after : Node crates, after.finalizedTxs = node.finalizedTxs → after.producer = node.producer →
      node.finalizedTxs <+: after.finalizedTxs ∧ after.producer = node.producer :=
    fun after channel producer => ⟨channel ▸ prefix_refl _,producer⟩
  have grown : ∀ (index : Nat) (step : PipelineStep),
      node.finalizedTxs <+: (node.pipelineStep index step).1.finalizedTxs ∧
        (node.pipelineStep index step).1.producer = node.producer :=
    fun index step => ⟨prefix_append _ _,rfl⟩
  cases event with
  | produceSnapshot | produceSelect | produceWrite => cases other
  | apiRevoke canonical reason pubkey =>
    simp only [next,step,apiRevoke]
    split
    · exact same _ rfl rfl
    · split_ifs
      · exact ⟨prefix_append _ _,rfl⟩
      · exact same _ rfl rfl
  | apiRotate canonicalPrefix oldPubkey newPubkey sigFromOld sigFromNew clock nonce =>
    exact ⟨prefix_append _ _,rfl⟩
  | pipelineTick clock =>
    simp only [next,step,validate]
    split_ifs <;> exact same _ rfl rfl
  | pipelineAnalyse | pipelinePoll | pipelineTimeout =>
    simp only [next,step,validate]
    split
    · exact grown _ _
    · exact same _ rfl rfl
  | pipelineAssign index =>
    simp only [next,step,validate]
    split <;> exact same _ rfl rfl
  | admissionCheck | admissionInsert =>
    simp only [next,step,admission]
    split <;> exact same _ rfl rfl
  | syncStart | syncPeers | syncBlock | syncInsert | reorgProbe | reorgSet | reorgBlock
  | reorgApply => simp only [next,step,synchronise]; split <;> exact same _ rfl rfl
  | _ => exact same _ rfl rfl

def Keeps (node : Node crates) (tx : Transaction) : Prop := tx ∈ node.finalizedTxs ∨ node.state.Carries tx

theorem produce_keeps (injective : crates.CollisionFree) (recoverable : node.Recoverable) {event : NodeEvent}
    (producing : event.produces) (retains : node.Retains event) (kept : tx ∈ node.finalizedTxs ∨ tx ∈ node.producer.txs) :
    (node.next event).Keeps tx ∨ tx ∈ (node.next event).producer.txs := by
  cases event with
  | produceSnapshot =>
    simp only [next,step,produce]
    split
    · rename_i idle waiting
      rw [idle,waiting] at kept
      exact .inr (kept.resolve_right not_mem_nil)
    · exact kept.imp .inl id
  | produceSelect rank =>
    cases task : node.producer with
    | read snapshot =>
      simp only [Retains,task] at retains
      rw [task] at kept
      obtain ⟨selection,ok⟩ := Fallible.isOk_iff.mp
        ((produceSelect_isOk_iff crates node.state rank snapshot).mpr retains)
      simp only [next,step,produce,task]
      split
      · rename_i failed
        rw [failed] at ok
        cases ok
      · exact kept.imp .inl id
    | _ =>
      rw [task] at kept
      simp only [next,step,produce,task]
      exact kept.imp .inl id
  | produceWrite clock fault =>
    cases task : node.producer with
    | selected snapshot output proof =>
      simp only [Retains,task] at retains
      rw [task] at kept
      obtain ⟨selected,body,safe⟩ := retains
      simp only [next,step,produce,task]
      refine .inl (kept.imp id fun inHand => ?_)
      exact NodeState.Carries.produceWrite injective recoverable.indexed body safe
        ((startRound_own_iff crates node.state clock snapshot output proof).mpr selected) (.inr inHand)
    | _ =>
      rw [task] at kept
      simp only [next,step,produce,task]
      exact kept.imp .inl id
  | _ => cases producing

theorem next_keeps (injective : crates.CollisionFree) (recoverable : node.Recoverable) (event : NodeEvent)
    (retains : node.Retains event) (kept : node.Keeps tx ∨ tx ∈ node.producer.txs) :
    (node.next event).Keeps tx ∨ tx ∈ (node.next event).producer.txs := by
  obtain (waiting | carries) | inHand := kept
  · cases producing : event.produces with
    | true => exact produce_keeps injective recoverable producing retains (.inl waiting)
    | false => exact .inl (.inl ((node.next_channel event producing).1.subset waiting))
  · exact .inl (.inr (next_carries injective recoverable event retains carries))
  · cases producing : event.produces with
    | true => exact produce_keeps injective recoverable producing retains (.inr inHand)
    | false => exact .inr ((node.next_channel event producing).2 ▸ inHand)

end Node

/-- A transaction that was sent stays in the channel, a round or the chain, or with `produce_block`. -/
theorem sent_transactions_kept (injective : crates.CollisionFree) (config : NodeConfig) (pbft : PbftConfig)
    (validators : Validators) (before after : List NodeEvent) (tx : Transaction)
    (sent : tx ∈ (run Node.next (Node.initial config pbft validators : Node crates) before).finalizedTxs)
    (retains : Along Node.next Node.Retains (run Node.next (Node.initial config pbft validators : Node crates) before) after) :
    let node := run Node.next (Node.initial config pbft validators : Node crates) (before ++ after)
    node.Keeps tx ∨ tx ∈ node.producer.txs := by
  intro node
  have start := always_run (Node.next_recoverable injective) _ before (Node.initial_recoverable injective config pbft validators)
  have keeps : ∀ (node : Node crates) (event : NodeEvent),
      node.Recoverable ∧ (node.Keeps tx ∨ tx ∈ node.producer.txs) → node.Retains event →
      (node.next event).Recoverable ∧ ((node.next event).Keeps tx ∨ tx ∈ (node.next event).producer.txs) := by
    intro node event holds retains
    exact ⟨Node.next_recoverable injective node event holds.1,Node.next_keeps injective holds.1 event retains holds.2⟩
  have final := invariant_run keeps _ after ⟨start,.inl (.inl sent)⟩ retains
  rw [← run_append] at final
  exact final.2

/-! A package goes through the pipeline, and its publication is sent to the block producer. -/
namespace Solo
def piped : List NodeEvent := (submitted Solo.crates "x").take 5

def publication : Transaction :=
  .publish (publishRecord 0 (request (sha256Text Solo.crates "x")) scan [approval Solo.crates (sha256Text Solo.crates "x")])

end Solo

namespace Duo
def content : String := sha256Text Duo.crates "x"

def second : Node Duo.crates := .initial ⟨"b",some (key "02"),true,false⟩ ⟨30,3,600,false⟩ members

/-- The vote of the node itself and the one of the other validator, which comes by gossip. -/
def piped : List NodeEvent :=
  [.submission ⟨0,0⟩ (Solo.request content) (.ok ()),.pipelineTick ⟨0,0⟩,
    .pipelineAnalyse ⟨0,0⟩ 0 (some (Text.bytes "x")) (some Solo.scan),.pipelineAssign 0,
    .vote ⟨0,0⟩ (some (gossipVote (Solo.request content) (Quartet.approvalBy Duo.crates content ("a",1)))),
    .pipelinePoll ⟨0,0⟩ 0]

def publication : Transaction :=
  .publish (publishRecord 0 (Solo.request content) Solo.scan
    [Quartet.approvalBy Duo.crates content ("b",2),Quartet.approvalBy Duo.crates content ("a",1)])

def turn : List NodeEvent := [.produceSnapshot,.produceSelect 0]

def outOfTurn : Node Duo.crates := run Node.next second (piped ++ turn)

end Duo

theorem solo_publication_kept :
    let node := run Node.next (Solo.producer Solo.crates) (Solo.piped ++ Solo.produced)
    node.state.chain.tipHeight = 1 ∧ (node.Keeps Solo.publication ∨ Solo.publication ∈ node.producer.txs) := by
  obtain ⟨sent,retains,stored⟩ : Solo.publication ∈ (run Node.next (Solo.producer Solo.crates) Solo.piped).finalizedTxs ∧
      Along Node.next Node.Retains (run Node.next (Solo.producer Solo.crates) Solo.piped) Solo.produced ∧
      (run Node.next (Solo.producer Solo.crates) (Solo.piped ++ Solo.produced)).state.chain.tipHeight = 1 := by
    decide +kernel
  exact ⟨stored,sent_transactions_kept (Ideal.collisionFree _ _) _ _ _ _ _ _ sent retains⟩

theorem publication_dropped_out_of_turn :
    ¬∀ (crates : Crates), crates.CollisionFree → crates.SignaturesCorrect → ∀ config pbft validators before after tx,
      tx ∈ (run Node.next (Node.initial config pbft validators : Node crates) before).finalizedTxs →
      let node := run Node.next (Node.initial config pbft validators : Node crates) (before ++ after)
      node.producer = .idle → node.Keeps tx := by
  intro claimed
  have injective : Duo.crates.CollisionFree := Ideal.collisionFree _ _
  have recoverable : Duo.outOfTurn.Recoverable := by
    unfold Duo.outOfTurn Duo.second
    exact always_run (Node.next_recoverable injective) _ _ (Node.initial_recoverable injective _ _ _)
  obtain ⟨sent,idle,drained,empty,unopened⟩ : Duo.publication ∈ (run Node.next Duo.second Duo.piped).finalizedTxs ∧
      Duo.outOfTurn.producer = .idle ∧ Duo.publication ∉ Duo.outOfTurn.finalizedTxs ∧
      (∀ block ∈ Duo.outOfTurn.state.chain.canonicalBlocks, Duo.publication ∉ block.transactions) ∧
      Duo.outOfTurn.state.pbftEngine.rounds.keys = [] := by
    decide +kernel
  have kept : Duo.outOfTurn.Keeps Duo.publication :=
    claimed Duo.crates injective (Ideal.signaturesCorrect _ _) _ _ _ Duo.piped Duo.turn Duo.publication sent idle
  obtain waiting | ⟨hash,round,found,_⟩ | ⟨height,block,found,inside⟩ := kept
  · exact drained waiting
  · have listed := AList.lookup_isSome.mp (Option.isSome_of_eq_some found)
    rw [AList.mem_keys,unopened] at listed
    cases listed
  · exact empty block (recoverable.indexed.mem_canonicalBlocks found) inside

end ChainRegistry
