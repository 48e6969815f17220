import ChainRegistry.Contracts.Governance
import ChainRegistry.Contracts.RollupBatches
import ChainRegistry.Lib.GuardedLog

/-! The bridge of a node and the contracts on L1: `run` and `tick` of `crates/node/src/bridge.rs`,
with the journal of `bridge_anchors.rs`, over the multisig and the state root of the registry. Each
L1 call is a step that lands or has no effect, and the process may restart between any two. The
other signers vote as they like; only the bridge proposes batches. -/
namespace ChainRegistry
open Lib Runs GuardedLog Fallible Governance

namespace Bridge
structure Setup where
  sha256 : List UInt8 → Word
  (governance registry : Address)
  encode : RollupBatch → List UInt8
  decode : List UInt8 → Option Governance.Call

structure Anchored where
  batch : RollupBatch
  (firstHeight lastHeight : Nat)

structure AnchorRecord where
  (l2HeightStart l2Height : Nat)
  executed : Bool
  (prevRoot stateRoot dataRoot : Word)
  (txCount proposalId : Nat)

def maxAnchors : Nat := 500

def appendAnchor (journal : List AnchorRecord) (record : AnchorRecord) : List AnchorRecord :=
  (record :: journal).take maxAnchors

structure L1 where
  governance : Governance
  contracts : Contracts
  batches : Table Nat Anchored
  executed : List Anchored

namespace L1
def root (l1 : L1) : Word := l1.contracts.registry.latestStateRoot

def due (batches : Table Nat Anchored) (voted : Governance) : Governance.Call → Option Anchored
  | .vote id _ => if (voted.proposal id).status = .executed then batches.lookup id else none
  | _ => none

variable (setup : Setup)

def submitRollupBatch (tx : Registry.Tx) (batch : RollupBatch) (contracts : Contracts) : Registry.Result :=
  Registry.submitRollupBatch {tx with sender := setup.governance} batch.prevRoot batch.nextRoot batch.txCount batch.dataRoot
    batch.proof batch.publicInputs contracts

/-- A transaction to the multisig. If a vote executes a batch, then it reverts with the registry. -/
def transact (event : Governance.Event setup.governance) (tx : Registry.Tx) (l1 : L1) : Except Revert L1 := do
  let voted ← act setup.governance event.msg l1.governance event.call
  match due l1.batches voted event.call with
  | some anchored =>
    let contracts ← (submitRollupBatch setup tx anchored.batch l1.contracts).mapError fun _ => .executionFailed
    return {l1 with governance := voted, contracts := contracts, executed := l1.executed ++ [anchored]}
  | none =>
    let acts ← Governance.acts setup.decode l1.governance event
    return {l1 with governance := run (acting setup.governance) l1.governance acts}

def propose (msg : Msg) (anchored : Anchored) (description : String) (l1 : L1) : Except Revert L1 := do
  let governance ← Governance.submit msg setup.registry (setup.encode anchored.batch) description l1.governance
  return {l1 with governance := governance, batches := l1.batches.insert l1.governance.proposalCount anchored}

end L1

inductive Stage
  | idle
  | began (currentTip : Nat)
  | prepared (anchored : Anchored)
  | counted (anchored : Anchored) (proposalId : Nat)
  | submitted (anchored : Anchored) (proposalId : Nat)

def Stage.draft : Stage → Option Anchored
  | .prepared anchored | .counted anchored _ => some anchored
  | _ => none

def Stage.reading : Stage → Bool
  | .began _ => true
  | _ => false

structure State where
  chain : List Block
  lastProcessedHeight : Nat
  stage : Stage
  journal : List AnchorRecord
  l1 : L1

def blockAt (chain : List Block) (height : Nat) : Except String (Option Block) := .ok chain[height]?

inductive Event (holder : Address)
  | grow (block : Block)
  | start | tick
  | prepare (prove : BatchInputs → Except String (Vector Word 8)) (lands : Bool)
  | count (lands : Bool)
  | submit (msg : Msg) (selfApprove journaled lands : Bool)
  | vote (event : Governance.Event holder) (tx : Registry.Tx) (journaled lands : Bool)
  -- a transaction of another signer
  | other (event : Governance.Event holder) (tx : Registry.Tx)
  -- any other call of the contracts
  | settle (contracts : Contracts)

namespace State
def idle (state : State) : State := {state with stage := .idle}

def finish (state : State) (anchored : Anchored) (proposalId : Nat) (executed journaled : Bool) : State :=
  let record : AnchorRecord := ⟨anchored.firstHeight,anchored.lastHeight,executed,anchored.batch.prevRoot,anchored.batch.nextRoot,
    anchored.batch.dataRoot,anchored.batch.txCount,proposalId⟩
  {state with
    lastProcessedHeight := anchored.lastHeight
    stage := .idle
    journal := if journaled then appendAnchor state.journal record else state.journal}

def prepare (sha256 : List UInt8 → Word) (prove : BatchInputs → Except String (Vector Word 8)) (currentTip : Nat)
    (state : State) : State :=
  match prepareBatch sha256 prove state.l1.root (blockAt state.chain) state.lastProcessedHeight currentTip with
  | .error _ => state.idle
  | .ok none => {state with lastProcessedHeight := currentTip, stage := .idle}
  | .ok (some batch) => {state with stage := .prepared ⟨batch,state.lastProcessedHeight + 1,currentTip⟩}

variable (setup : Setup)

def submit (msg : Msg) (selfApprove journaled : Bool) (anchored : Anchored) (proposalId : Nat) (state : State) :
    State :=
  match L1.propose setup msg anchored ("Submit rollup batch " ++ toString proposalId) state.l1 with
  | .error _ => state.idle
  | .ok l1 =>
    if selfApprove then {state with l1 := l1, stage := .submitted anchored proposalId}
    else finish {state with l1 := l1} anchored proposalId false journaled

def vote (event : Governance.Event setup.governance) (tx : Registry.Tx) (journaled : Bool)
    (anchored : Anchored) (proposalId : Nat) (state : State) : State :=
  match L1.transact setup {event with call := .vote proposalId true} tx state.l1 with
  | .error _ => state.idle
  | .ok l1 => finish {state with l1 := l1} anchored proposalId true journaled

def step (state : State) : Event setup.governance → State
  | .grow block => {state with chain := state.chain ++ [block]}
  -- the journal is not read
  | .start => {state with lastProcessedHeight := 0, stage := .idle}
  | .tick =>
    match state.stage with
    | .idle =>
      if state.chain.length - 1 ≤ state.lastProcessedHeight then state
      else {state with stage := .began (state.chain.length - 1)}
    | _ => state
  | .prepare prove lands =>
    match state.stage with
    | .began currentTip => if lands then state.prepare setup.sha256 prove currentTip else state.idle
    | _ => state
  | .count lands =>
    match state.stage with
    | .prepared anchored =>
      if lands then {state with stage := .counted anchored state.l1.governance.proposalCount} else state.idle
    | _ => state
  | .submit msg selfApprove journaled lands =>
    match state.stage with
    | .counted anchored proposalId =>
      if lands then state.submit setup msg selfApprove journaled anchored proposalId else state.idle
    | _ => state
  | .vote event tx journaled lands =>
    match state.stage with
    | .submitted anchored proposalId =>
      if lands then state.vote setup event tx journaled anchored proposalId else state.idle
    | _ => state
  | .other event tx =>
    match L1.transact setup event tx state.l1 with
    | .error _ => state
    | .ok l1 => {state with l1 := l1}
  -- nothing but `submitRollupBatch` writes the state root
  | .settle contracts =>
    if contracts.registry.latestStateRoot = state.l1.root then {state with l1 := {state.l1 with contracts := contracts}}
    else state

end State

variable {anchored : Anchored} {description : String}

def Anchored.Carries (chain : List Block) (anchored : Anchored) (height : Nat) (record : ChainRecord) : Prop :=
  anchored.firstHeight ≤ height ∧ height ≤ anchored.lastHeight ∧ ∃ block ∈ chain[height]?, record ∈ published block

structure Anchored.Made (sha256 : List UInt8 → Word) (chain : List Block) (anchored : Anchored) : Prop where
  heights : 1 ≤ anchored.firstHeight ∧ anchored.firstHeight ≤ anchored.lastHeight
  inside : anchored.lastHeight < chain.length
  content : ∃ prove, prepareBatch sha256 prove anchored.batch.prevRoot (blockAt chain) (anchored.firstHeight - 1)
    anchored.lastHeight =
    .ok (some anchored.batch)

structure State.InOrder (sha256 : List UInt8 → Word) (state : State) : Prop where
  made : ∀ anchored ∈ state.l1.executed, anchored.Made sha256 state.chain
  once : ∀ height record, state.l1.executed.Pairwise fun earlier later =>
    earlier.Carries state.chain height record → ¬ later.Carries state.chain height record
  ordered : state.l1.executed.Pairwise fun earlier later => earlier.lastHeight < later.firstHeight
  linked : state.l1.executed.IsChain fun earlier later => later.batch.prevRoot = earlier.batch.nextRoot

/-- Where a tick reads the state root, `last_processed_height` has reached every executed batch. -/
def State.CaughtUp {holder : Address} (state : State) : Event holder → Prop
  | .prepare _ true => state.stage.reading = true → ∀ anchored ∈ state.l1.executed, anchored.lastHeight ≤
    state.lastProcessedHeight
  | _ => True

instance decidableCaughtUp {holder : Address} (state : State) : (event : Event holder) → Decidable (state.CaughtUp event)
  | .prepare _ true => inferInstanceAs (Decidable (state.stage.reading →
      ∀ anchored ∈ state.l1.executed, anchored.lastHeight ≤ state.lastProcessedHeight))
  | .prepare _ false | .grow _ | .start | .tick | .count _ | .submit .. | .vote .. | .other .. | .settle _ => isTrue trivial

def State.roots (start : Word) (state : State) : List Word := keys (·.batch.nextRoot) start state.l1.executed

theorem batchTransactions_congr {first second : Nat → Except String (Option Block)} {lastHeight currentTip : Nat}
    (same : ∀ height ≤ currentTip, first height = second height) :
    batchTransactions first lastHeight currentTip = batchTransactions second lastHeight currentTip := by
  have range : ∀ height ∈ List.range' (lastHeight + 1) (currentTip - lastHeight), first height = second height := by
    intro height inside
    rw [List.mem_range'_1] at inside
    exact same height (by omega)
  rw [batchTransactions,batchTransactions,mapM_congr range]

theorem Anchored.Made.grow {sha256 : List UInt8 → Word} {chain : List Block}
    (made : anchored.Made sha256 chain) (block : Block) : anchored.Made sha256 (chain ++ [block]) := by
  obtain ⟨prove,prepared⟩ := made.content
  refine ⟨made.heights,?_,prove,?_⟩
  · rw [List.length_append]
    exact Nat.lt_add_right _ made.inside
  · have same : ∀ height ≤ anchored.lastHeight, blockAt (chain ++ [block]) height = blockAt chain height := by
      intro height upTo
      rw [blockAt,List.getElem?_append_left (upTo.trans_lt made.inside)]
      rfl
    rw [prepareBatch,batchTransactions_congr same]
    exact prepared

namespace L1
variable {setup : Setup} {l1 after : L1}

theorem transact_ok {event : Governance.Event setup.governance} {tx : Registry.Tx} (ok : transact setup event tx l1 = .ok after) :
    after.batches = l1.batches ∧
      ((∃ id anchored, l1.batches.lookup id = some anchored ∧ anchored.batch.prevRoot = l1.root ∧
        after.root = anchored.batch.nextRoot ∧ after.executed = l1.executed ++ [anchored]) ∨
      after.root = l1.root ∧ after.executed = l1.executed) := by
  obtain ⟨voted,_,ok⟩ := (bind_ok _ _ _).mp ok
  split at ok
  · rename_i anchored isDue
    obtain ⟨contracts,accepted,made⟩ := (bind_ok _ _ _).mp ok
    obtain ⟨_,previous,_,next⟩ := Registry.submitRollupBatch_ok ((mapError_ok _ _ _).mp accepted)
    cases made
    refine ⟨rfl,.inl ?_⟩
    unfold due at isDue
    split at isDue
    · rename_i id approve call
      split_ifs at isDue
      exact ⟨id,anchored,isDue,previous,next,rfl⟩
    · cases isDue
  · obtain ⟨acts,_,made⟩ := (bind_ok _ _ _).mp ok
    cases made
    exact ⟨rfl,.inr ⟨rfl,rfl⟩⟩

theorem propose_ok {msg : Msg} (ok : propose setup msg anchored description l1 = .ok after) :
    after.root = l1.root ∧ after.executed = l1.executed ∧
      after.batches = l1.batches.insert l1.governance.proposalCount anchored := by
  obtain ⟨governance,_,made⟩ := (bind_ok _ _ _).mp ok
  cases made
  exact ⟨rfl,rfl,rfl⟩

end L1

structure Anchored.Pending (sha256 : List UInt8 → Word) (start : Word) (chain : List Block) (executed : List Anchored)
    (anchored : Anchored) : Prop where
  draft : Draft (·.batch.prevRoot) (·.batch.nextRoot) start (fun earlier later => earlier.lastHeight < later.firstHeight)
    executed anchored
  made : anchored.Made sha256 chain

theorem Anchored.Pending.grow {sha256 : List UInt8 → Word} {start : Word} {chain : List Block} {executed : List Anchored}
    (pending : anchored.Pending sha256 start chain executed) (block : Block) :
    anchored.Pending sha256 start (chain ++ [block]) executed :=
  ⟨pending.draft,pending.made.grow block⟩

namespace State
structure Accounted (sha256 : List UInt8 → Word) (start : Word) (state : State) : Prop where
  root : state.l1.root = lastKey (·.batch.nextRoot) start state.l1.executed
  log : Ordered (·.batch.prevRoot) (·.batch.nextRoot) (fun earlier later => earlier.lastHeight < later.firstHeight)
    state.l1.executed
  made : ∀ anchored ∈ state.l1.executed, anchored.Made sha256 state.chain
  filed : ∀ id, ∀ anchored ∈ state.l1.batches.lookup id, anchored.Pending sha256 start state.chain state.l1.executed
  held : ∀ anchored ∈ state.stage.draft, anchored.Pending sha256 start state.chain state.l1.executed
  began : ∀ currentTip, state.stage = .began currentTip → state.lastProcessedHeight < currentTip ∧ currentTip < state.chain.length

variable {sha256 : List UInt8 → Word} {start : Word} {state : State}

section
variable (accounted : state.Accounted sha256 start)
include accounted

theorem Accounted.inOrder : state.InOrder sha256 where
  made := accounted.made
  once := by
    intro height record
    apply accounted.log.sorted.imp
    intro earlier later below first second
    have := first.2.1
    have := second.1
    omega
  ordered := accounted.log.sorted
  linked := accounted.log.linked

theorem Accounted.stop (height : Nat) (journal : List AnchorRecord) :
    Accounted sha256 start {state with lastProcessedHeight := height, stage := .idle, journal := journal} :=
  ⟨accounted.root,accounted.log,accounted.made,accounted.filed,nofun,nofun⟩

theorem Accounted.idle : state.idle.Accounted sha256 start :=
  accounted.stop state.lastProcessedHeight state.journal

theorem Accounted.grow (block : Block) : Accounted sha256 start {state with chain := state.chain ++ [block]} where
  root := accounted.root
  log := accounted.log
  made anchored inside := (accounted.made anchored inside).grow block
  filed id anchored found := (accounted.filed id anchored found).grow block
  held anchored found := (accounted.held anchored found).grow block
  began currentTip stage := by
    obtain ⟨above,inside⟩ := accounted.began currentTip stage
    rw [List.length_append]
    exact ⟨above,Nat.lt_add_right _ inside⟩

theorem Accounted.prepare {currentTip : Nat} (stage : state.stage = .began currentTip)
    (caughtUp : ∀ anchored ∈ state.l1.executed, anchored.lastHeight ≤ state.lastProcessedHeight)
    (prove : BatchInputs → Except String (Vector Word 8)) : (state.prepare sha256 prove currentTip).Accounted sha256 start := by
  unfold State.prepare
  split
  · exact accounted.idle
  · exact accounted.stop currentTip state.journal
  · rename_i batch prepared
    obtain ⟨above,inside⟩ := accounted.began currentTip stage
    have previous : batch.prevRoot = state.l1.root := prepareBatch_prevRoot prepared
    refine ⟨accounted.root,accounted.log,accounted.made,accounted.filed,?_,nofun⟩
    intro anchored same
    cases same
    refine ⟨draft_of_last (previous.trans accounted.root) ?_,⟨Nat.succ_pos _,above⟩,inside,prove,?_⟩
    · intro earlier executed
      exact Nat.lt_succ_of_le (caughtUp earlier executed)
    · rw [previous]
      exact prepared

theorem Accounted.propose {setup : Setup} {msg : Msg} {l1 : L1} (draft : state.stage.draft = some anchored)
    (ok : L1.propose setup msg anchored description state.l1 = .ok l1) :
    Accounted sha256 start {state with l1 := l1} := by
  obtain ⟨root,executed,batches⟩ := L1.propose_ok ok
  constructor
  · rw [root,executed]
    exact accounted.root
  · rw [executed]
    exact accounted.log
  · rw [executed]
    exact accounted.made
  · intro id other found
    rw [executed]
    rw [batches,Table.lookup_insert_eq] at found
    split_ifs at found
    · cases found
      exact accounted.held anchored draft
    · exact accounted.filed id other found
  · rw [executed]
    exact accounted.held
  · exact accounted.began

theorem Accounted.transact {setup : Setup} {event : Governance.Event setup.governance} {tx : Registry.Tx} {l1 : L1}
    (ok : L1.transact setup event tx state.l1 = .ok l1) (distinct : (roots start {state with l1 := l1}).Nodup) :
    Accounted sha256 start {state with l1 := l1} := by
  obtain ⟨batches,⟨id,anchored,found,previous,next,executed⟩ | ⟨root,executed⟩⟩ := L1.transact_ok ok
  · have last := previous.trans accounted.root
    have pending := accounted.filed id anchored found
    rw [roots,executed] at distinct
    have later : ∀ other : Anchored, other.Pending sha256 start state.chain state.l1.executed →
        other.Pending sha256 start state.chain (state.l1.executed ++ [anchored]) :=
      fun other before => ⟨before.draft.append distinct,before.made⟩
    constructor
    · rw [executed,lastKey_append]
      exact next
    · rw [executed]
      exact accounted.log.append pending.draft last
    · intro other inside
      rw [executed,List.mem_append,List.mem_singleton] at inside
      rcases inside with inside | rfl
      · exact accounted.made other inside
      · exact pending.made
    · intro other value filed
      rw [executed]
      rw [batches] at filed
      exact later value (accounted.filed other value filed)
    · rw [executed]
      exact fun other held => later other (accounted.held other held)
    · exact accounted.began
  · constructor
    · rw [root,executed]
      exact accounted.root
    · rw [executed]
      exact accounted.log
    · rw [executed]
      exact accounted.made
    · rw [batches,executed]
      exact accounted.filed
    · rw [executed]
      exact accounted.held
    · exact accounted.began

end

theorem Accounted.step {setup : Setup} (accounted : state.Accounted setup.sha256 start)
    (event : Event setup.governance) (caughtUp : state.CaughtUp event)
    (distinct : (roots start (state.step setup event)).Nodup) : (state.step setup event).Accounted setup.sha256 start := by
  cases event with
  | grow block => exact accounted.grow block
  | start => exact accounted.stop 0 state.journal
  | tick =>
    simp only [State.step]
    split
    · split_ifs with reached
      · exact accounted
      · refine ⟨accounted.root,accounted.log,accounted.made,accounted.filed,nofun,?_⟩
        intro currentTip stage
        cases stage
        have above : state.lastProcessedHeight < state.chain.length - 1 := Nat.lt_of_not_le reached
        have inside : state.chain.length - 1 < state.chain.length := by omega
        exact ⟨above,inside⟩
    · exact accounted
  | prepare prove lands =>
    simp only [State.step]
    split
    · rename_i currentTip stage
      split_ifs with isLands
      · subst isLands
        exact accounted.prepare stage (caughtUp (by rw [stage]; rfl)) prove
      · exact accounted.idle
    · exact accounted
  | count lands =>
    simp only [State.step]
    split
    · rename_i anchored stage
      split_ifs
      · refine ⟨accounted.root,accounted.log,accounted.made,accounted.filed,?_,nofun⟩
        intro other same
        apply accounted.held other
        rw [stage]
        exact same
      · exact accounted.idle
    · exact accounted
  | submit msg selfApprove journaled lands =>
    simp only [State.step]
    split
    · rename_i anchored proposalId stage
      split_ifs
      · unfold State.submit
        split
        · exact accounted.idle
        · rename_i l1 proposed
          have filed := accounted.propose (by rw [stage]; rfl) proposed
          split_ifs
          · exact ⟨filed.root,filed.log,filed.made,filed.filed,nofun,nofun⟩
          · exact filed.stop _ _
      · exact accounted.idle
    · exact accounted
  | vote event tx journaled lands =>
    simp only [State.step] at distinct ⊢
    split
    · rename_i anchored proposalId stage
      split_ifs with isLands
      · unfold State.vote
        simp only [stage,isLands,if_true,State.vote] at distinct
        split
        · exact accounted.idle
        · rename_i l1 voted
          rw [voted] at distinct
          exact (accounted.transact voted distinct).stop _ _
      · exact accounted.idle
    · exact accounted
  | other event tx =>
    simp only [State.step] at distinct ⊢
    split
    · exact accounted
    · rename_i l1 voted
      rw [voted] at distinct
      exact accounted.transact voted distinct
  | settle contracts =>
    simp only [State.step]
    split_ifs with same
    · exact ⟨same.trans accounted.root,accounted.log,accounted.made,accounted.filed,accounted.held,accounted.began⟩
    · exact accounted

/-- Executed batches are in order, where ticks start from the last executed height and no root comes twice. -/
theorem anchored_in_order (setup : Setup) (chain : List Block) (journal : List AnchorRecord) (governance : Governance)
    (contracts : Contracts) (events : List (Event setup.governance))
    (caughtUp : Along (State.step setup) CaughtUp ⟨chain,0,.idle,journal,⟨governance,contracts,∅,[]⟩⟩ events)
    (distinct : Throughout (State.step setup) (fun state => (state.roots contracts.registry.latestStateRoot).Nodup)
      ⟨chain,0,.idle,journal,⟨governance,contracts,∅,[]⟩⟩ events) :
    Throughout (State.step setup) (InOrder setup.sha256) ⟨chain,0,.idle,journal,⟨governance,contracts,∅,[]⟩⟩ events := by
  apply throughout_run (fun state event accounted allowed => Accounted.step accounted event allowed.1 allowed.2)
    (fun state => Accounted.inOrder) _ _ _ (along_and caughtUp (along_of_throughout distinct))
  exact ⟨rfl,ordered_nil,nofun,nofun,nofun,nofun⟩

end State
end Bridge

namespace Desk
open Lib Runs

def anchoring : Bridge.Setup := ⟨evm.keccak256,4,6,fun _ => [],fun _ => none⟩

def council : Governance where
  signers := [10]
  isSigner := {10}
  threshold := 1
  proposalCount := 0
  votingPeriod := 3 * 86400
  proposals := ∅
  systemStatus := .active
  pausedAt := 0
  pauseReason := ""
  openPauseRequest := ⟨0,0,0,"",0⟩
  pauseRequestCoSigners := ∅

example : deploy [10] 1 = .ok council := rfl

def round : List (Bridge.Event anchoring.governance) :=
  [.tick,.prepare (fun _ => .ok (.replicate 8 0)) true,.count true,.submit ⟨10,500⟩ true true true,
    .vote ⟨⟨10,500⟩,.cancel 0,[],true,by decide,nofun⟩ governing true true]

def bridging : Bridge.State := ⟨[Block.genesis,block],0,.idle,[],⟨council,start,∅,[]⟩⟩

theorem rounds_in_order : Throughout (Bridge.State.step anchoring) (Bridge.State.InOrder evm.keccak256) bridging
    (round ++ .grow block :: round) ∧
    (run (Bridge.State.step anchoring) bridging (round ++ .grow block :: round)).l1.executed.map
      (fun anchored => (anchored.firstHeight,anchored.lastHeight)) = [(1,1),(2,2)] :=
  ⟨Bridge.State.anchored_in_order anchoring _ _ _ _ _ (by decide +kernel) (by decide +kernel),by decide +kernel⟩

theorem height_anchored_twice :
    (run (Bridge.State.step anchoring) bridging (round ++ [.start])).journal.map
      (fun record => (record.l2HeightStart,record.l2Height)) =
      [(1,1)] ∧
    (run (Bridge.State.step anchoring) bridging (round ++ .start :: round)).l1.executed.map
      (fun anchored => (anchored.firstHeight,anchored.lastHeight)) = [(1,1),(1,1)] ∧
    ¬ (run (Bridge.State.step anchoring) bridging (round ++ .start :: round)).InOrder evm.keccak256 := by
  have twice : (run (Bridge.State.step anchoring) bridging (round ++ .start :: round)).l1.executed.map
      (fun anchored => (anchored.firstHeight,anchored.lastHeight)) = [(1,1),(1,1)] := by decide +kernel
  refine ⟨by decide +kernel,twice,?_⟩
  intro inOrder
  have sorted : [(1,1),(1,1)].Pairwise fun earlier later : Nat × Nat => earlier.2 < later.1 := by
    rw [← twice,List.pairwise_map]
    exact inOrder.ordered
  exact absurd sorted (by decide)

end Desk
end ChainRegistry
