import ChainRegistry.Node.EngineEffects

/-! Where the blocks of a node come from. A block reaches the store through a round of
the engine or through the synchronisation task; what holds of every block that a node
takes in or produces holds of all the blocks it ever stores. -/
namespace ChainRegistry
open Lib Runs SyncTask

variable {crates : Crates} {P : Block → Prop} {block : Block}

namespace ChainStore
variable {store : ChainStore}

def EveryBlock (P : Block → Prop) (store : ChainStore) : Prop :=
  ∀ hash block, store.blocksByHash.lookup hash = some block → P block

theorem EveryBlock.insertBlock (every : store.EveryBlock P) (new : P block) : (store.insertBlock crates block).EveryBlock P := by
  intro hash other found
  simp only [ChainStore.insertBlock,Table.lookup_insert_eq] at found
  split_ifs at found
  · cases found
    exact new
  · exact every hash other found

theorem EveryBlock.byHeight (every : store.EveryBlock P) {height : Nat}
    (found : store.getBlockByHeight height = some block) : P block := by
  obtain ⟨hash,_,stored⟩ := Option.bind_eq_some_iff.mp found
  exact every hash block stored

theorem EveryBlock.performAll (writes : List Write) (inserts : ∀ block, .insert block ∈ writes → P block)
    (every : store.EveryBlock P) : (store.performAll crates writes).EveryBlock P := by
  apply kept_run (fun store : ChainStore => store.EveryBlock P) writes _ store every
  intro store write inside every
  cases write with
  | rollback | clearPackages => exact every
  | insert block => exact every.insertBlock (inserts block inside)
  | reinsert height =>
    simp only [perform]
    split
    · rename_i block found
      exact every.insertBlock (every.byHeight found)
    · exact every

end ChainStore

def SyncTask.verified : SyncTask crates → List (VerifiedBlock crates)
  | .inserting _ next => [next]
  | .branching _ _ _ branch => branch.verified
  | .applying _ branch => branch.verified
  | _ => []

def SyncTask.readSet : SyncTask crates → Option Validators
  | .branching _ _ set _ => some set
  | _ => none

namespace Node
def takesIn (node : Node crates) : NodeEvent → List Block
  | .blocks _ _ _ (.pbftPrePrepare block) => if node.state.accepts crates block then [block] else []
  | .syncBlock (some block) =>
    match node.sync with
    | .fetching height _ prevHash =>
      if block.header.prevHash = prevHash ∧ block.header.height = height ∧ verifyBlockSignatures crates block
          (effectiveSet node.history block.header.height node.state.validatorSet) = .ok () then [block]
      else []
    | _ => []
  | .reorgBlock (some block) =>
    match node.sync with
    | .branching _ _ set branch =>
      if block.header.height = branch.tipHeight + 1 ∧ block.header.prevHash = branch.linkHash ∧
          verifyBlockSignatures crates block (effectiveSet node.history block.header.height set) = .ok () then
        [block]
      else []
    | _ => []
  | _ => []

structure Holds (P : Block → Prop) (node : Node crates) : Prop where
  stored : node.state.chain.EveryBlock P
  rounds : node.state.pbftEngine.EveryRound fun _ round => P round.block
  synced : ∀ verified ∈ node.sync.verified, P verified.block

def Produced (crates : Crates) (block : Block) : Prop :=
  ∃ (snapshot : Snapshot) (clock : Clock) (id : String) (output proof : Option String),
    block = snapshot.block crates clock id output proof

variable {node : Node crates} {event : NodeEvent} (response : Option Block)

theorem openable_origin (node : Node crates) (inside : block ∈ node.openable event)
    (accepted : node.state.accepts crates block) : block ∈ node.takesIn event ∨ Produced crates block := by
  unfold openable at inside
  split at inside
  · rw [List.mem_singleton] at inside
    subst inside
    left
    simp [takesIn,accepted]
  · split at inside
    · rename_i clock _ _ snapshot output proof _
      exact .inr ⟨snapshot,clock,_,output,proof,List.mem_singleton.mp inside⟩
    · cases inside
  · cases inside

theorem insertable_origin (node : Node crates) (inside : block ∈ node.insertable event) :
    (∃ hash round, node.state.pbftEngine.rounds.lookup hash = some round ∧ block = round.block) ∨
      Produced crates block ∨ ∃ verified ∈ node.sync.verified, block = verified.block := by
  unfold insertable at inside
  split at inside
  · rename_i hash _ _
    unfold NodeState.committable at inside
    split at inside
    · rename_i round found
      split_ifs at inside
      · exact .inl ⟨hash,round,found,List.mem_singleton.mp inside⟩
      · cases inside
    · cases inside
  · split at inside
    · rename_i clock _ _ snapshot output proof _
      exact .inr (.inl ⟨snapshot,clock,_,output,proof,List.mem_singleton.mp inside⟩)
    · cases inside
  · split at inside
    · rename_i next task
      exact .inr (.inr ⟨next,by rw [task]; exact List.mem_singleton.mpr rfl,List.mem_singleton.mp inside⟩)
    · cases inside
  · cases inside

inductive Checks (node : Node crates) : NodeEvent → VerifiedBlock crates → Prop
  | next (next : VerifiedBlock crates) {height peerHeight : Nat} {prevHash : String}
      (task : node.sync = .fetching height peerHeight prevHash) (link : next.block.header.prevHash = prevHash)
      (place : next.block.header.height = height)
      (set : next.set = effectiveSet node.history next.block.header.height node.state.validatorSet) :
      Checks node (.syncBlock (some next.block)) next
  | branch (next : VerifiedBlock crates) {localTip peerHeight : Nat} {set : Validators} {branch : Branch crates}
      (task : node.sync = .branching localTip peerHeight set branch)
      (place : next.block.header.height = branch.tipHeight + 1) (link : next.block.header.prevHash = branch.linkHash)
      (used : next.set = effectiveSet node.history next.block.header.height set) :
      Checks node (.reorgBlock (some next.block)) next

theorem Checks.takesIn {next : VerifiedBlock crates} (checks : node.Checks event next) : next.block ∈ node.takesIn event := by
  have verified := next.verified
  cases checks with
  | next _ task link place set =>
    rw [set] at verified
    simp only [Node.takesIn,task]
    rw [if_pos ⟨link,place,verified⟩]
    exact List.mem_singleton.mpr rfl
  | branch _ task place link used =>
    rw [used] at verified
    simp only [Node.takesIn,task]
    rw [if_pos ⟨place,link,verified⟩]
    exact List.mem_singleton.mpr rfl

inductive SyncMove (node : Node crates) : NodeEvent → SyncTask crates → Prop
  | stays (event : NodeEvent) : SyncMove node event node.sync
  | empty (event : NodeEvent) {task : SyncTask crates} (fetched : task.verified = []) (read : task.readSet = none) :
      SyncMove node event task
  | fetched {response : Option Block} {next : VerifiedBlock crates} (peerHeight : Nat)
      (checks : node.Checks (.syncBlock response) next) : SyncMove node (.syncBlock response) (.inserting peerHeight next)
  | begins (forkHeight localTip peerHeight : Nat) (ancestorHash : String) :
      SyncMove node .reorgSet (.branching localTip peerHeight node.state.validatorSet (.root forkHeight ancestorHash))
  | grows {response : Option Block} {next : VerifiedBlock crates} {localTip peerHeight : Nat} {set : Validators}
      {branch longer : Branch crates} (task : node.sync = .branching localTip peerHeight set branch)
      (pushed : longer.verified = branch.verified ++ [next]) (checks : node.Checks (.reorgBlock response) next) :
      SyncMove node (.reorgBlock response) (.branching localTip peerHeight set longer)
  | completes {response : Option Block} {next : VerifiedBlock crates} {localTip peerHeight : Nat} {set : Validators}
      {branch longer : Branch crates} (task : node.sync = .branching localTip peerHeight set branch)
      (pushed : longer.verified = branch.verified ++ [next]) (checks : node.Checks (.reorgBlock response) next) :
      SyncMove node (.reorgBlock response) (.applying localTip longer)

theorem onBlock_move {height peerHeight : Nat} {prevHash : String} (task : node.sync = .fetching height peerHeight prevHash) :
    node.SyncMove (.syncBlock response)
      (.onBlock crates node.state node.history height peerHeight prevHash response) := by
  unfold onBlock
  cases response with
  | none => exact .empty _ rfl rfl
  | some fetched =>
    by_cases link : fetched.header.prevHash = prevHash
    · by_cases place : fetched.header.height = height
      · simp only [link,place,ne_eq,not_true_eq_false,if_false]
        split_ifs with verified
        · exact .fetched peerHeight (.next ⟨fetched,_,verified⟩ task link place (by rw [place]))
        · exact .empty _ rfl rfl
      · simp only [link,place,ne_eq,not_true_eq_false,not_false_eq_true,if_false,if_true]
        exact .empty _ rfl rfl
    · simp only [link,ne_eq,not_false_eq_true,if_true]
      split_ifs <;> exact .empty _ rfl rfl

theorem onBranchBlock_move {localTip peerHeight : Nat} {set : Validators} {branch : Branch crates}
    (task : node.sync = .branching localTip peerHeight set branch) :
    node.SyncMove (.reorgBlock response)
      (.onBranchBlock crates node.history localTip peerHeight set branch response) := by
  unfold onBranchBlock
  cases response with
  | none => exact .empty _ rfl rfl
  | some fetched =>
    dsimp only
    split_ifs with height link verified more longer
    · exact .grows task rfl (.branch ⟨fetched,_,verified⟩ task height link rfl)
    · exact .empty _ rfl rfl
    · exact .completes task rfl (.branch ⟨fetched,_,verified⟩ task height link rfl)
    · exact .empty _ rfl rfl
    · exact .empty _ rfl rfl
    · exact .empty _ rfl rfl

theorem onProbe_move (node : Node crates) (height localTip peerHeight : Nat) (response : Option Block) :
    node.SyncMove (.reorgProbe response) (.onProbe crates node.state height localTip peerHeight response) := by
  unfold onProbe
  dsimp only
  split
  · split_ifs <;> exact .empty _ rfl rfl
  · split
    · exact .empty _ rfl rfl
    · split_ifs <;> exact .empty _ rfl rfl

theorem admission_sync (node : Node crates) (event : NodeEvent) : (node.admission event).sync = node.sync := by
  cases event with
  | admissionCheck | admissionInsert => simp only [admission]; split <;> rfl
  | _ => rfl

theorem apiRevoke_sync (node : Node crates) (canonical reason pubkey : String) :
    (node.apiRevoke canonical reason pubkey).sync = node.sync := by
  unfold apiRevoke
  split
  · rfl
  · split_ifs <;> rfl

theorem next_sync (node : Node crates) (event : NodeEvent) : (node.next event).sync = (node.synchronise event).sync := by
  cases event with
  | produceSnapshot | produceSelect | produceWrite => exact (node.produce_frame _).1
  | pipelineTick | pipelineAnalyse | pipelineAssign | pipelinePoll | pipelineTimeout => exact (node.validate_frame _).1
  | admissionCheck | admissionInsert => exact node.admission_sync _
  | apiRevoke canonical reason pubkey => exact node.apiRevoke_sync canonical reason pubkey
  | _ => rfl

theorem next_move (node : Node crates) (event : NodeEvent) : node.SyncMove event (node.next event).sync := by
  rw [next_sync]
  -- every event of the loop waits for one kind of task and leaves the others alone
  cases event with
  | syncStart | reorgApply =>
    simp only [synchronise]
    split
    · exact .empty _ rfl rfl
    · exact .stays _
  | syncPeers peerHeight =>
    simp only [synchronise]
    split
    · unfold onPeerHeight
      split_ifs <;> exact .empty _ rfl rfl
    · exact .stays _
  | syncBlock response =>
    cases task : node.sync with
    | fetching height peerHeight prevHash =>
      simp only [synchronise,task]
      exact onBlock_move response task
    | _ =>
      simp only [synchronise,task]
      exact task ▸ .stays _
  | syncInsert clock fault =>
    simp only [synchronise]
    split
    · unfold NodeState.syncInsert
      dsimp only
      split_ifs <;> exact .empty _ rfl rfl
    · exact .stays _
  | reorgProbe response =>
    simp only [synchronise]
    split
    · exact node.onProbe_move _ _ _ response
    · exact .stays _
  | reorgSet =>
    simp only [synchronise]
    split
    · exact .begins _ _ _ _
    · exact .stays _
  | reorgBlock response =>
    cases task : node.sync with
    | branching localTip peerHeight set branch =>
      simp only [synchronise,task]
      exact onBranchBlock_move response task
    | _ =>
      simp only [synchronise,task]
      exact task ▸ .stays _
  | _ => exact .stays _

theorem next_verified (node : Node crates) (event : NodeEvent) {verified : VerifiedBlock crates}
    (inside : verified ∈ (node.next event).sync.verified) :
    verified ∈ node.sync.verified ∨ node.Checks event verified := by
  have move := node.next_move event
  generalize (node.next event).sync = after at inside move
  cases move with
  | stays => exact .inl inside
  | empty _ fetched =>
    rw [fetched] at inside
    cases inside
  | fetched peerHeight checks =>
    obtain rfl := List.mem_singleton.mp inside
    exact .inr checks
  | begins => cases inside
  | grows task pushed checks
  | completes task pushed checks =>
    rw [SyncTask.verified,pushed] at inside
    rw [task]
    rcases List.mem_append.mp inside with old | new
    · exact .inl old
    · obtain rfl := List.mem_singleton.mp new
      exact .inr checks

theorem reorgApply_stored (clock : Clock) (fault : Option Nat) (holds : node.Holds P) :
    (node.next (.reorgApply clock fault)).state.chain.EveryBlock P := by
  cases task : node.sync with
  | applying localTip branch =>
    have inserts : ∀ block,
        .insert block ∈ node.state.chain.reorgWrites crates branch.forkHeight branch.blocks → P block := by
      intro block inside
      obtain ⟨verified,listed,rfl⟩ : ∃ verified ∈ branch.verified, verified.block = block := by
        simpa [ChainStore.reorgWrites,ChainStore.rebuildWrites,Branch.blocks] using inside
      apply holds.synced verified
      rw [task]
      exact listed
    simp only [Node.next,step,synchronise,task,NodeState.reorgApply]
    cases fault with
    | some done => exact holds.stored.performAll _ fun block inside => inserts block (List.mem_of_mem_take inside)
    | none => exact holds.stored.performAll _ inserts
  | _ =>
    simp only [Node.next,step,synchronise,task]
    exact holds.stored

theorem next_rounds (opens : ∀ block ∈ node.openable event, node.state.accepts crates block → P block)
    (rounds : node.state.pbftEngine.EveryRound fun _ round => P round.block) :
    (node.next event).state.pbftEngine.EveryRound fun _ round => P round.block := by
  by_cases keeps : event.keepsSet
  · refine ((node.next_engine event keeps).everyRound rounds ?_ ?_ ?_).1
    · exact fun now block inside accepted => opens block inside accepted
    · intro now hash id sig round _ kept
      rwa [round.receivePrepare_block]
    · intro hash id sig round _ kept
      rwa [round.receiveCommit_block]
  · cases event with
    | setChanged validators fault => exact rounds
    | _ => exact absurd rfl keeps

theorem Holds.next (holds : node.Holds P) (content : ∀ block listed : Block, block.SameContent listed → P listed → P block)
    (produced : ∀ block, Produced crates block → P block) (taken : ∀ block ∈ node.takesIn event, P block) :
    (node.next event).Holds P := by
  refine ⟨?_,?_,?_⟩
  · have allowed : ∀ block ∈ node.insertable event, P block := by
      intro block inside
      rcases node.insertable_origin inside with ⟨hash,round,found,rfl⟩ | made | ⟨verified,synced,rfl⟩
      · exact holds.rounds hash round found
      · exact produced block made
      · exact holds.synced verified synced
    by_cases reorg : event.reorganises
    · cases event with
      | reorgApply clock fault => exact reorgApply_stored clock fault holds
      | _ => cases reorg
    · cases node.next_effect event (Bool.not_eq_true _ ▸ reorg) with
      | kept chain index | failed now block listed inside same faulty chain index => rw [chain]; exact holds.stored
      | inserted now block listed inside same chain index =>
        rw [chain]
        exact holds.stored.insertBlock (content block listed same (allowed listed inside))
  · apply next_rounds _ holds.rounds
    intro block inside accepted
    rcases node.openable_origin inside accepted with received | made
    · exact taken block received
    · exact produced block made
  · intro verified inside
    rcases node.next_verified event inside with old | new
    · exact holds.synced verified old
    · exact taken verified.block new.takesIn

end Node
end ChainRegistry
