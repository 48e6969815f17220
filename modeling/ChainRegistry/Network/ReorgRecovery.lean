import ChainRegistry.Network.DerivedIndexes
import ChainRegistry.Node.Provenance

/-! Recovery from a fork: `attempt_reorg_recovery` of `crates/node/src/sync.rs` among the other
writers of the node. The branch is compared with the tip read before the first probe; each of the
writes may fail. -/
namespace ChainRegistry
open Lib Runs LinkedChain List SyncTask

variable {crates : Crates} {localTip : Nat} {blocks : List Block} {hash : String} {fork : Nat}

namespace ChainStore
variable {store : ChainStore}

theorem tipHeight_of_top {tip : Nat} (bound : ∀ height, (store.blocksByHeight.lookup height).isSome → height ≤ tip)
    (top : (store.blocksByHeight.lookup tip).isSome) : store.tipHeight = tip := by
  apply Nat.le_antisymm
  · apply max_le_of_forall_le
    intro height inside
    exact bound height (AList.lookup_isSome.mpr inside)
  · exact le_tipHeight top

theorem lookup_tipHeight (store : ChainStore) (positive : 0 < store.tipHeight) :
    (store.blocksByHeight.lookup store.tipHeight).isSome := by
  have inside : ∀ heights : List Nat, 0 < heights.foldr max 0 → heights.foldr max 0 ∈ heights := by
    intro heights
    induction heights with
    | nil => simp
    | cons height heights ih =>
      intro above
      rw [foldr_cons] at above ⊢
      obtain first | rest := Nat.le_total height (heights.foldr max 0)
      · rw [Nat.max_eq_right first] at above ⊢
        exact mem_cons_of_mem _ (ih above)
      · rw [Nat.max_eq_left rest]
        exact mem_cons_self
  exact AList.lookup_isSome.mpr (inside _ positive)

section
variable (indexed : Indexed crates store) (injective : crates.CollisionFree)
include indexed injective

theorem view_insertAll (blocks : List Block) : (store.performAll crates (blocks.map .insert)).getBlockByHeight =
    blocks.foldl (put fun block => block.header.height) store.getBlockByHeight := by
  induction blocks generalizing store with
  | nil => rfl
  | cons block blocks ih =>
    have first := indexed.view_insert injective block
    rw [foldl_cons,← first]
    exact ih (indexed.insertBlock injective block)

theorem view_reorgWrites (follows : Block.Follows crates fork hash blocks) (height : Nat) :
    (store.performAll crates (store.reorgWrites crates fork blocks)).getBlockByHeight height =
      if height ≤ fork then store.getBlockByHeight height else blocks[height - fork - 1]? := by
  have adopted := indexed.performAll injective (.rollback fork :: blocks.map .insert)
  have rebuilt : (store.performAll crates (store.reorgWrites crates fork blocks)).getBlockByHeight =
      (store.performAll crates (.rollback fork :: blocks.map .insert)).getBlockByHeight := by
    rw [reorgWrites,performAll,foldl_append]
    exact (rebuildPackageIndex_same adopted.listed).view
  have inserted := view_insertAll (indexed.rollback fork) injective blocks
  rw [rebuilt,performAll,foldl_cons]
  refine (congrFun inserted height).trans ?_
  rw [foldl_put follows,view_rollback,cut]
  by_cases low : height ≤ fork
  · have outside : ¬(fork < height ∧ height ≤ fork + blocks.length) := by omega
    rw [if_neg outside,if_pos low,if_pos low]
  · by_cases inside : height ≤ fork + blocks.length
    · have within : fork < height ∧ height ≤ fork + blocks.length := by omega
      rw [if_pos within,if_neg low]
    · have outside : ¬(fork < height ∧ height ≤ fork + blocks.length) := by omega
      rw [if_neg outside,if_neg low,if_neg low,List.getElem?_eq_none (by omega)]

theorem tipHeight_reorgWrites (follows : Block.Follows crates fork hash blocks) (nonempty : blocks ≠ []) :
    (store.performAll crates (store.reorgWrites crates fork blocks)).tipHeight = fork + blocks.length := by
  have kept := indexed.performAll injective (store.reorgWrites crates fork blocks)
  have size := length_pos_of_ne_nil nonempty
  apply tipHeight_of_top
  · intro height found
    rw [← kept.isSome_iff,view_reorgWrites indexed injective follows] at found
    by_contra above
    rw [if_neg (by omega),List.getElem?_eq_none (by omega)] at found
    cases found
  · rw [← kept.isSome_iff,view_reorgWrites indexed injective follows,if_neg (by omega)]
    simp
    omega

end

def SameIndexes (before after : ChainStore) : Prop :=
  (∀ height, after.blocksByHeight.lookup height = before.blocksByHeight.lookup height) ∧
    ∀ canonical, after.packages.lookup canonical = before.packages.lookup canonical

theorem sameIndexes_rollback_iff (store : ChainStore) (fork : Nat) :
    SameIndexes store (store.rollbackToHeight fork).1 ↔ store.tipHeight ≤ fork := by
  constructor
  · intro same
    by_contra above
    have found := store.lookup_tipHeight (by omega)
    rw [← same.1,lookup_rollback,if_neg above] at found
    cases found
  · intro low
    refine ⟨?_,fun _ => rfl⟩
    intro height
    rw [lookup_rollback]
    split_ifs with below
    · rfl
    · symm
      rw [← Option.not_isSome_iff_eq_none]
      intro found
      exact below (Nat.le_trans (le_tipHeight found) low)

end ChainStore
def NodeEvent.ofRecovery : NodeEvent → Bool
  | .reorgProbe _ | .reorgSet | .reorgBlock _ | .reorgApply _ _ => true
  | _ => false

namespace Node
def recovered (node : Node crates) : NodeEvent → Option (Branch crates)
  | .reorgApply _ none =>
    match node.sync with
    | .applying _ branch => some branch
    | _ => none
  | _ => none

def lateFault (node : Node crates) (event : NodeEvent) : Bool :=
  match event, node.sync with
  | .reorgApply _ (some done), .applying _ _ => 2 ≤ done
  | _, _ => false

def RecoveryAtomic (node : Node crates) (event : NodeEvent) : Prop :=
  let before := node.state.chain
  let after := (node.next event).state.chain
  match node.recovered event with
  | some branch =>
    before.tipHeight < after.tipHeight ∧
      ∀ height, branch.forkHeight < height → after.getBlockByHeight height = branch.blocks[height - branch.forkHeight - 1]?
  | none => event.ofRecovery = true → before.SameIndexes after

/-- The tip is still below the branch when the lock is taken, and no write fails after
another one has changed the store. -/
def RecoveryUndisturbed (node : Node crates) (event : NodeEvent) : Prop :=
  match event, node.sync with
  | .reorgApply _ none, .applying _ branch => node.state.chain.tipHeight < branch.tipHeight
  | .reorgApply _ (some n), .applying _ branch => n = 0 ∨ n = 1 ∧ node.state.chain.tipHeight ≤ branch.forkHeight
  | _, _ => True

instance recoveryUndisturbedDecidable (node : Node crates) (event : NodeEvent) : Decidable (node.RecoveryUndisturbed event) := by
  unfold RecoveryUndisturbed
  split <;> infer_instance

structure Recoverable (node : Node crates) : Prop where
  indexed : node.state.chain.Indexed crates
  fetched : ∀ localTip branch, node.sync = .applying localTip branch → branch.blocks ≠ []

theorem next_indexed (injective : crates.CollisionFree) (node : Node crates) (event : NodeEvent)
    (indexed : node.state.chain.Indexed crates) : (node.next event).state.chain.Indexed crates := by
  by_cases reorg : event.reorganises
  · cases event with
    | reorgApply clock fault =>
      cases task : node.sync with
      | applying localTip branch =>
        simp only [next,step,synchronise,task,NodeState.reorgApply]
        cases fault with
        | some | none => exact indexed.performAll injective _
      | _ =>
        simp only [next,step,synchronise,task]
        exact indexed
    | _ => cases reorg
  · cases node.next_effect event (Bool.not_eq_true _ ▸ reorg) with
    | kept chain index | failed now block listed inside same faulty chain index =>
      rw [chain]
      exact indexed
    | inserted now block listed inside same chain index =>
      rw [chain]
      exact indexed.insertBlock injective block

variable {node : Node crates} {branch : Branch crates}

theorem next_applying (node : Node crates) (event : NodeEvent) (task : (node.next event).sync = .applying localTip branch) :
    node.sync = .applying localTip branch ∨ branch.blocks ≠ [] := by
  rw [next_sync] at task
  cases event with
  | reorgBlock response =>
    cases old : node.sync with
    | branching tip peerHeight set fetched =>
      simp only [synchronise,old,onBranchBlock] at task
      right
      cases response with
      | none => cases task
      | some block =>
        dsimp only at task
        split_ifs at task
        cases task
        simp [Branch.blocks,Branch.push]
    | _ =>
      simp only [synchronise,old] at task
      exact .inl task
  | syncStart | reorgSet | reorgApply =>
    simp only [synchronise] at task
    split at task
    · cases task
    · exact .inl task
  | syncPeers peerHeight =>
    simp only [synchronise] at task
    split at task
    · unfold onPeerHeight at task
      split_ifs at task
    · exact .inl task
  | syncBlock response =>
    simp only [synchronise] at task
    split at task
    · unfold onBlock at task
      split at task
      · cases task
      · dsimp only at task
        split_ifs at task
    · exact .inl task
  | syncInsert clock fault =>
    simp only [synchronise] at task
    split at task
    · unfold NodeState.syncInsert at task
      dsimp only at task
      split_ifs at task
    · exact .inl task
  | reorgProbe response =>
    simp only [synchronise] at task
    split at task
    · unfold onProbe at task
      dsimp only at task
      split at task
      · split_ifs at task
      · split at task
        · cases task
        · split_ifs at task
    · exact .inl task
  | _ => exact .inl task

theorem next_recoverable (injective : crates.CollisionFree) (node : Node crates) (event : NodeEvent)
    (recoverable : node.Recoverable) : (node.next event).Recoverable := by
  refine ⟨next_indexed injective node event recoverable.indexed,?_⟩
  intro localTip branch task
  rcases node.next_applying event task with old | fetched
  · exact recoverable.fetched localTip branch old
  · exact fetched

theorem initial_recoverable (injective : crates.CollisionFree) (config : NodeConfig) (pbft : PbftConfig)
    (validators : Validators) : (Node.initial config pbft validators : Node crates).Recoverable := by
  refine ⟨(initial_derived injective config pbft validators).indexed,?_⟩
  intro localTip branch task
  cases task

theorem quiet_atomic {event : NodeEvent} (quiet : node.recovered event = none)
    (kept : event.ofRecovery → (node.next event).state.chain = node.state.chain) : node.RecoveryAtomic event := by
  simp only [RecoveryAtomic,quiet]
  intro own
  rw [kept own]
  exact ⟨fun _ => rfl,fun _ => rfl⟩

theorem applied_atomic_iff (injective : crates.CollisionFree) (recoverable : node.Recoverable)
    (task : node.sync = .applying localTip branch) (clock : Clock) :
    node.RecoveryAtomic (.reorgApply clock none) ↔ node.state.chain.tipHeight < branch.tipHeight := by
  have indexed := recoverable.indexed
  have chain : (node.next (.reorgApply clock none)).state.chain =
      node.state.chain.performAll crates (node.state.chain.reorgWrites crates branch.forkHeight branch.blocks) := by
    simp only [next,step,synchronise,task,NodeState.reorgApply]
    rfl
  have follows : Block.Follows crates branch.forkHeight branch.ancestorHash branch.blocks := branch.follows
  have tip := ChainStore.tipHeight_reorgWrites indexed injective follows (recoverable.fetched localTip branch task)
  have adopted : node.recovered (.reorgApply clock none) = some branch := by simp only [recovered,task]
  simp only [RecoveryAtomic,adopted]
  rw [chain]
  constructor
  · intro atomic
    exact atomic.1.trans_eq tip
  · intro longer
    refine ⟨longer.trans_eq tip.symm,?_⟩
    intro height above
    rw [ChainStore.view_reorgWrites indexed injective follows,if_neg (by omega)]

theorem failed_atomic_iff (task : node.sync = .applying localTip branch) (clock : Clock) {done : Nat} (early : done < 2) :
    node.RecoveryAtomic (.reorgApply clock (some done)) ↔
      done = 0 ∨ done = 1 ∧ node.state.chain.tipHeight ≤ branch.forkHeight := by
  have chain : (node.next (.reorgApply clock (some done))).state.chain =
      node.state.chain.performAll crates
        ((node.state.chain.reorgWrites crates branch.forkHeight branch.blocks).take done) := by
    simp only [next,step,synchronise,task,NodeState.reorgApply]
  simp only [RecoveryAtomic,recovered,NodeEvent.ofRecovery,true_imp_iff]
  rw [chain]
  obtain none | first : done = 0 ∨ done = 1 := by omega
  · subst none
    simp only [true_or,iff_true]
    exact ⟨fun _ => rfl,fun _ => rfl⟩
  · subst first
    have rolled := ChainStore.sameIndexes_rollback_iff node.state.chain branch.forkHeight
    simp only [Nat.one_ne_zero,false_or,true_and]
    exact rolled

theorem recoveryAtomic_iff (injective : crates.CollisionFree) (recoverable : node.Recoverable) (event : NodeEvent)
    (early : node.lateFault event = false) : node.RecoveryAtomic event ↔ node.RecoveryUndisturbed event := by
  by_cases reorg : event.reorganises
  · cases event with
    | reorgApply clock fault =>
      cases task : node.sync with
      | applying localTip branch =>
        cases fault with
        | none =>
          rw [applied_atomic_iff injective recoverable task clock]
          simp only [RecoveryUndisturbed,task]
        | some done =>
          have first : done < 2 := by simpa [lateFault,task] using early
          rw [failed_atomic_iff task clock first]
          simp only [RecoveryUndisturbed,task]
      | _ =>
        have kept : (node.next (.reorgApply clock fault)).state.chain = node.state.chain := by
          simp only [next,step,synchronise,task]
        have quiet : node.recovered (.reorgApply clock fault) = none := by
          cases fault <;> simp only [recovered,task]
        have free : node.RecoveryUndisturbed (.reorgApply clock fault) := by
          cases fault <;> simp only [RecoveryUndisturbed,task]
        exact iff_of_true (quiet_atomic quiet fun _ => kept) free
    | _ => cases reorg
  · have quiet : node.recovered event = none := by
      cases event with
      | reorgApply clock fault => exact absurd rfl reorg
      | _ => rfl
    have free : node.RecoveryUndisturbed event := by
      cases event with
      | reorgApply clock fault => exact absurd rfl reorg
      | _ => trivial
    refine iff_of_true (quiet_atomic quiet ?_) free
    intro own
    cases event with
    | reorgProbe | reorgSet | reorgBlock => exact congrArg _ (node.synchronise_kept _ (by simp) rfl)
    | reorgApply clock fault => exact absurd rfl reorg
    | _ => cases own

theorem undisturbed_early (node : Node crates) (event : NodeEvent) (undisturbed : node.RecoveryUndisturbed event) :
    node.lateFault event = false := by
  cases event with
  | reorgApply clock fault =>
    cases fault with
    | none => rfl
    | some done =>
      cases task : node.sync with
      | applying localTip branch =>
        simp only [RecoveryUndisturbed,task] at undisturbed
        simp only [lateFault,task,decide_eq_false_iff_not]
        omega
      | _ => simp only [lateFault,task]
  | _ => rfl

end Node

/-- A reorganisation is all or nothing where it is undisturbed, and without late faults only there. -/
theorem recovery_atomic (injective : crates.CollisionFree) (config : NodeConfig) (pbft : PbftConfig)
    (validators : Validators) (events : List NodeEvent) :
    let start : Node crates := .initial config pbft validators
    (Along Node.next Node.RecoveryUndisturbed start events → Along Node.next Node.RecoveryAtomic start events) ∧
      (Along Node.next (fun node event => node.lateFault event = false) start events →
        Along Node.next Node.RecoveryAtomic start events → Along Node.next Node.RecoveryUndisturbed start events) := by
  intro start
  have same (early : Along Node.next (fun node event => node.lateFault event = false) start events) :
      Along Node.next Node.RecoveryAtomic start events ↔ Along Node.next Node.RecoveryUndisturbed start events := by
    apply along_congr _ _ start events (Node.initial_recoverable injective config pbft validators) early
    · intro node event recoverable _
      exact Node.next_recoverable injective node event recoverable
    · intro node event recoverable early
      exact Node.recoveryAtomic_iff injective recoverable event early
  constructor
  · intro undisturbed
    exact (same (along_mono Node.undisturbed_early start events undisturbed)).mpr undisturbed
  · intro early
    exact (same early).mp

namespace Quartet
def recovery : List NodeEvent :=
  [.syncStart,.syncPeers 1,.syncBlock (some {replacing with header := {replacing.header with prevHash := zeroHash}}),
    .reorgProbe (some .genesis),.reorgSet,.reorgBlock (some replacing)]

end Quartet
open Quartet

theorem quartet_recovers :
    let start := start pairCrates "b"
    let events := recovery ++ [.reorgApply ⟨0,0⟩ none]
    Along Node.next Node.RecoveryAtomic start events ∧ (run Node.next start events).state.chain.tipHeight = 1 := by
  have undisturbed : Along Node.next Node.RecoveryUndisturbed (start pairCrates "b")
      (recovery ++ [.reorgApply ⟨0,0⟩ none]) := by decide +kernel
  exact ⟨(recovery_atomic (Ideal.collisionFree _ _) _ _ _ _).1 undisturbed,by decide +kernel⟩

/-- A commit at the height of the branch is replaced by the branch, or lost if the write after the rollback fails. -/
theorem commit_undone_by_recovery :
    let events := recovery ++ seenBy pairCrates "b" publishing
    let node := run Node.next (start pairCrates "b") events
    node.state.chain.tipHeight = 1 ∧ ¬node.RecoveryAtomic (.reorgApply ⟨0,0⟩ none) ∧
      ¬node.RecoveryAtomic (.reorgApply ⟨0,0⟩ (some 1)) := by
  intro events node
  have injective : pairCrates.CollisionFree := Ideal.collisionFree _ _
  have recoverable : node.Recoverable :=
    always_run (Node.next_recoverable injective) _ events (Node.initial_recoverable injective _ _ _)
  refine ⟨by decide +kernel,?_,?_⟩
  all_goals
    intro atomic
    have undisturbed := (Node.recoveryAtomic_iff injective recoverable _ (by decide +kernel)).mp atomic
    revert undisturbed
    decide +kernel

end ChainRegistry
