import ChainRegistry.Network.Model
import ChainRegistry.Node.PackageIndex

/-! The indexes that are derived from the chain. They are kept up to date block by block
and rebuilt after a reorganisation; the two ways agree as long as every inserted block
is above the tip and no write fails half way. -/
namespace ChainRegistry
open Lib Runs LinkedChain List Option Table Ideal

variable {crates : Crates}

namespace ChainStore
variable {store : ChainStore}

theorem reorg_rebuilds (indexed : Indexed crates store) (injective : crates.CollisionFree) (forkHeight : Nat)
    (branch : List Block) : ∃ adopted : ChainStore, Indexed crates adopted ∧
      store.performAll crates (store.reorgWrites crates forkHeight branch) = adopted.rebuildPackageIndex crates := by
  refine ⟨_,indexed.performAll injective (.rollback forkHeight :: branch.map .insert),?_⟩
  rw [reorgWrites,performAll,foldl_append]
  rfl

private theorem filterMap_range_add {view : Nat → Option Block} {bound : Nat} (extra : Nat)
    (empty : ∀ height, bound ≤ height → height < bound + extra → view height = none) :
    (List.range (bound + extra)).filterMap view = (List.range bound).filterMap view := by
  induction extra with
  | zero => rfl
  | succ extra ih =>
    rw [← Nat.add_assoc,range_succ,filterMap_append,ih fun height low high => empty height low (by omega)]
    simp [empty (bound + extra) (by omega) (by omega)]

theorem canonicalBlocks_insert (indexed : Indexed crates store) (injective : crates.CollisionFree) {block : Block}
    (above : store.tipHeight < block.header.height) :
    (store.insertBlock crates block).canonicalBlocks = store.canonicalBlocks ++ [block] := by
  have view := indexed.view_insert injective block
  have kept := indexed.insertBlock injective block
  have empty : ∀ height, store.tipHeight < height → store.getBlockByHeight height = none := by
    intro height high
    rw [← not_isSome_iff_eq_none]
    intro found
    have low := le_tipHeight ((indexed.isSome_iff height).mp found)
    omega
  have tip : (store.insertBlock crates block).tipHeight = block.header.height := by
    apply Nat.le_antisymm
    · apply max_le_of_forall_le
      intro height inside
      have found := (kept.isSome_iff height).mpr (AList.lookup_isSome.mpr inside)
      rw [view,put_apply] at found
      split_ifs at found with same
      · exact same.le
      · exact (le_tipHeight ((indexed.isSome_iff height).mp found)).trans above.le
    · apply le_tipHeight
      rw [← kept.isSome_iff,view,put_apply,if_pos rfl]
      rfl
  obtain ⟨extra,more⟩ := Nat.exists_eq_add_of_lt above
  have below : ∀ height ∈ List.range block.header.height,
      put (fun block : Block => block.header.height) store.getBlockByHeight block height =
        store.getBlockByHeight height := by
    intro height inside
    rw [put_apply,if_neg (mem_range.mp inside).ne]
  rw [canonicalBlocks,tip,view,range_succ,filterMap_append,filterMap_congr below]
  congr 1
  · rw [canonicalBlocks,show block.header.height = store.tipHeight + 1 + extra by omega]
    exact filterMap_range_add extra fun height low _ => empty height (by omega)
  · simp [put_apply]

end ChainStore
namespace PublisherIndex
def core (stats : PublisherStats) : PublisherStats := {stats with stakeWei := 0, firstSeenDays := 0}

theorem core_published {first second : PublisherStats} (same : core first = core second) (now now' timestamp : DateTime) :
    core (published first now timestamp) = core (published second now' timestamp) := by
  simp only [core,PublisherStats.mk.injEq] at same
  obtain ⟨pubkey,total,verified,revoked,_,seen,_⟩ := same
  simp [core,published,pubkey,total,verified,revoked,seen]

theorem core_penalised {first second : PublisherStats} (same : core first = core second) :
    core (penalised first) = core (penalised second) := by
  simp only [core,PublisherStats.mk.injEq] at same
  obtain ⟨pubkey,total,verified,revoked,_,seen,_⟩ := same
  simp [core,penalised,pubkey,total,verified,revoked,seen]

theorem core_rotated {first second : PublisherStats} (same : core first = core second) (newPubkey : String) :
    core {first with pubkey := newPubkey} = core {second with pubkey := newPubkey} := by
  simp only [core,PublisherStats.mk.injEq] at same
  obtain ⟨_,total,verified,revoked,_,seen,_⟩ := same
  simp [core,total,verified,revoked,seen]

def SameStats (first second : Table String PublisherStats) : Prop :=
  ∀ pubkey, (first.lookup pubkey).map core = (second.lookup pubkey).map core

variable {first second : Table String PublisherStats}

section
variable (same : SameStats first second) (pubkey : String)
include same pubkey

theorem SameStats.insert {left right : PublisherStats}
    (stats : core left = core right) : SameStats (first.insert pubkey left) (second.insert pubkey right) := by
  intro other
  rw [lookup_insert_eq,lookup_insert_eq]
  split_ifs
  · exact congrArg some stats
  · exact same other

theorem SameStats.erase : SameStats (first.erase pubkey) (second.erase pubkey) := by
  intro other
  rw [lookup_erase_eq,lookup_erase_eq]
  split_ifs
  · rfl
  · exact same other

theorem SameStats.cases : (first.lookup pubkey = none ∧ second.lookup pubkey = none) ∨
    ∃ left right, first.lookup pubkey = some left ∧ second.lookup pubkey = some right ∧ core left = core right := by
  have entry := same pubkey
  cases left : first.lookup pubkey with
  | none =>
    rw [left,map_none,eq_comm,map_eq_none_iff] at entry
    exact .inl ⟨rfl,entry⟩
  | some stats =>
    rw [left,map_some,eq_comm,map_eq_some_iff] at entry
    obtain ⟨right,found,core⟩ := entry
    exact .inr ⟨stats,right,rfl,found,core.symm⟩

end

structure Agrees (first second : PublisherIndex) : Prop where
  stats : SameStats first.stats second.stats
  keys : first.canonicalToPubkey = second.canonicalToPubkey

theorem Agrees.applyTx {first second : PublisherIndex} (agrees : Agrees first second) (now now' timestamp : DateTime)
    (tx : Transaction) : Agrees (applyTx now timestamp first tx) (applyTx now' timestamp second tx) := by
  cases tx with
  | publish record =>
    simp only [PublisherIndex.applyTx,← agrees.keys]
    refine ⟨agrees.stats.insert _ (core_published ?_ now now' timestamp),rfl⟩
    rcases agrees.stats.cases record.publisherPubkey with ⟨left,right⟩ | ⟨stats,stats',left,right,same⟩
    · rw [left,right]
    · rw [left,right]
      exact same
  | revoke canonical reason revoker evidence =>
    simp only [PublisherIndex.applyTx,← agrees.keys]
    cases mapped : first.canonicalToPubkey.lookup canonical with
    | none => exact agrees
    | some pubkey =>
      rcases agrees.stats.cases pubkey with ⟨left,right⟩ | ⟨stats,stats',left,right,same⟩
      · simp only [left,right]
        exact agrees
      · simp only [left,right]
        exact ⟨agrees.stats.insert pubkey (core_penalised same),rfl⟩
  | slash validatorId amount evidence =>
    simp only [PublisherIndex.applyTx]
    rcases agrees.stats.cases validatorId with ⟨left,right⟩ | ⟨stats,stats',left,right,same⟩
    · simp only [left,right]
      exact agrees
    · simp only [left,right]
      exact ⟨agrees.stats.insert validatorId same,agrees.keys⟩
  | rotatePublisherKey canonicalPrefix oldPubkey newPubkey sigFromOld sigFromNew rotatedAt nonce =>
    simp only [PublisherIndex.applyTx,rotated,← agrees.keys]
    rcases agrees.stats.cases oldPubkey with ⟨left,right⟩ | ⟨stats,stats',left,right,same⟩
    · simp only [left,right]
      exact ⟨agrees.stats,rfl⟩
    · simp only [left,right]
      exact ⟨(agrees.stats.erase oldPubkey).insert newPubkey (core_rotated same newPubkey),rfl⟩
  | validatorJoin | validatorLeave => exact agrees

theorem Agrees.applyBlock {first second : PublisherIndex} (agrees : Agrees first second) (now now' : DateTime)
    (block : Block) : Agrees (applyBlock now first block) (applyBlock now' second block) := by
  unfold PublisherIndex.applyBlock
  induction block.transactions generalizing first second with
  | nil => exact agrees
  | cons tx rest ih => exact ih (agrees.applyTx now now' block.header.timestamp tx)

theorem rebuildFromChain_agrees (now now' : DateTime) (blocks : List Block) :
    Agrees (rebuildFromChain now blocks) (rebuildFromChain now' blocks) := by
  have fold : ∀ (blocks : List Block) (first second : PublisherIndex), Agrees first second →
      Agrees (blocks.foldl (PublisherIndex.applyBlock now) first)
        (blocks.foldl (PublisherIndex.applyBlock now') second) := by
    intro blocks
    induction blocks with
    | nil => exact fun _ _ agrees => agrees
    | cons block rest ih => exact fun first second agrees => ih _ _ (agrees.applyBlock now now' block)
  exact fold blocks new new ⟨fun _ => rfl,rfl⟩

end PublisherIndex
structure NodeState.Derived (crates : Crates) (state : NodeState) : Prop where
  indexed : state.chain.Indexed crates
  packages : state.chain.packages = ChainStore.replay crates ∅ state.chain.canonicalBlocks
  publishers : ∀ now, state.publisherIndex.Agrees (.rebuildFromChain now state.chain.canonicalBlocks)

def NodeEvent.reorgFault : NodeEvent → Bool
  | .reorgApply _ (some _) => true
  | _ => false

namespace Node
def KeepsIndexes (node : Node crates) (event : NodeEvent) : Prop :=
  (∀ block ∈ node.insertable event, node.state.chain.tipHeight < block.header.height ∧
    event.finalisationFault = false) ∧ event.reorgFault = false

instance (node : Node crates) (event : NodeEvent) : Decidable (node.KeepsIndexes event) :=
  inferInstanceAs (Decidable (_ ∧ _))

section
variable (injective : crates.CollisionFree)
include injective

theorem reorgApply_derived {node : Node crates} (clock : Clock)
    (derived : node.state.Derived crates) : (node.next (.reorgApply clock none)).state.Derived crates := by
  cases task : node.sync with
  | applying localTip branch =>
    obtain ⟨store,indexed,whole⟩ := ChainStore.reorg_rebuilds derived.indexed injective branch.forkHeight branch.blocks
    obtain ⟨packages,blocks⟩ := ChainStore.rebuildPackageIndex_spec indexed.listed
    have chain : (node.next (.reorgApply clock none)).state.chain = store.rebuildPackageIndex crates := by
      simp only [next,step,synchronise,task,NodeState.reorgApply,← whole]
      rfl
    have index : (node.next (.reorgApply clock none)).state.publisherIndex =
        .rebuildFromChain clock.utc (store.rebuildPackageIndex crates).canonicalBlocks := by
      simp only [next,step,synchronise,task,NodeState.reorgApply,← whole]
      rfl
    refine ⟨?_,?_,?_⟩
    · rw [chain]
      exact indexed.performAll injective _
    · rw [chain,packages,blocks]
    · intro now
      rw [chain,index]
      exact PublisherIndex.rebuildFromChain_agrees clock.utc now _
  | _ =>
    simp only [next,step,synchronise,task]
    exact derived

theorem next_derived (node : Node crates) (event : NodeEvent)
    (derived : node.state.Derived crates) (keeps : node.KeepsIndexes event) :
    (node.next event).state.Derived crates := by
  by_cases reorg : event.reorganises
  · cases event with
    | reorgApply clock fault =>
      cases fault with
      | none => exact reorgApply_derived injective clock derived
      | some done => cases keeps.2
    | _ => cases reorg
  · cases node.next_effect event (Bool.not_eq_true _ ▸ reorg) with
    | kept chain index =>
      refine ⟨?_,?_,?_⟩
      · rw [chain]; exact derived.indexed
      · rw [chain]; exact derived.packages
      · rw [chain,index]; exact derived.publishers
    | inserted now block listed inside same chain index =>
      have above : node.state.chain.tipHeight < block.header.height := by
        rw [same.1]
        exact (keeps.1 listed inside).1
      have blocks := ChainStore.canonicalBlocks_insert derived.indexed injective above
      refine ⟨?_,?_,?_⟩
      · rw [chain]
        exact derived.indexed.insertBlock injective block
      · rw [chain,blocks,ChainStore.replay,foldl_append,foldl_cons,foldl_nil]
        change ChainStore.indexBlock _ node.state.chain.packages block = _
        rw [derived.packages]
        rfl
      · intro other
        rw [chain,blocks,index,PublisherIndex.rebuildFromChain,foldl_append,foldl_cons,foldl_nil]
        exact (derived.publishers other).applyBlock now other block
    | failed now block listed inside same faulty chain index =>
      rw [(keeps.1 listed inside).2] at faulty
      cases faulty

theorem initial_derived (config : NodeConfig) (pbft : PbftConfig)
    (validators : Validators) : (Node.initial config pbft validators : Node crates).state.Derived crates := by
  have blocks : (ChainStore.genesis crates).canonicalBlocks = [Block.genesis] := by
    have tip : (ChainStore.genesis crates).tipHeight = 0 := rfl
    rw [ChainStore.canonicalBlocks,tip]
    simp [ChainStore.getBlockByHeight_genesis injective]
  refine ⟨ChainStore.indexed_genesis injective,?_,fun now => PublisherIndex.rebuildFromChain_agrees 0 now _⟩
  change (ChainStore.genesis crates).packages = ChainStore.replay crates ∅ (ChainStore.genesis crates).canonicalBlocks
  rw [blocks]
  rfl

end

end Node

/-- The indexes are those that a rebuild from the chain gives, whichever writes fail. -/
theorem indexes_follow_chain (injective : crates.CollisionFree) (config : NodeConfig) (pbft : PbftConfig)
    (validators : Validators) (events : List NodeEvent)
    (keeps : Along Node.next Node.KeepsIndexes (Node.initial config pbft validators : Node crates) events) :
    let state := (run Node.next (Node.initial config pbft validators : Node crates) events).state
    state.chain.packages = (state.chain.rebuildPackageIndex crates).packages ∧
      ∀ now, state.publisherIndex.Agrees (.rebuildFromChain now state.chain.canonicalBlocks) := by
  intro state
  have derived : state.Derived crates :=
    invariant_run (Node.next_derived injective) _ events (Node.initial_derived injective config pbft validators) keeps
  exact ⟨derived.packages.trans (ChainStore.rebuildPackageIndex_spec derived.indexed.listed).1.symm,derived.publishers⟩

namespace Quartet
def publishing : Block := block 1 "m" [.publish (Solo.record "h" [])]

def replacing : Block := block 1 "n" []

def pairCrates : Crates := Ideal.crates [Block.genesis.header,publishing.header,replacing.header] checksum

end Quartet
open Quartet

theorem quartet_indexes_follow :
    let state := (run Node.next (start pairCrates "b")
      (seenBy pairCrates "b" publishing)).state
    state.chain.tipHeight = 1 ∧ state.chain.packages = (state.chain.rebuildPackageIndex pairCrates).packages := by
  have keeps : Along Node.next Node.KeepsIndexes (start pairCrates "b")
      (seenBy pairCrates "b" publishing) := by decide +kernel
  exact ⟨by decide +kernel,(indexes_follow_chain (collisionFree _ _) _ _ _ _ keeps).1⟩

theorem index_keeps_replaced_block :
    ¬∀ (crates : Crates), crates.CollisionFree → crates.SignaturesCorrect → ∀ config pbft validators events,
      let state := (run Node.next (Node.initial config pbft validators : Node crates) events).state
      state.chain.packages = (state.chain.rebuildPackageIndex crates).packages := by
  intro claimed
  have same := claimed pairCrates (collisionFree _ _) (signaturesCorrect _ _)
    (deployment.config "b") deployment.pbft deployment.validators
    (seenBy pairCrates "b" publishing ++ seenBy pairCrates "b" replacing)
  have differ : ∀ store : ChainStore, (store.getPackage Solo.package.canonical).isSome →
      ((store.rebuildPackageIndex pairCrates).getPackage Solo.package.canonical).isSome = false →
      store.packages ≠ (store.rebuildPackageIndex pairCrates).packages := by
    intro store present absent same
    rw [ChainStore.getPackage,← same,← ChainStore.getPackage,present] at absent
    cases absent
  exact differ _ (by decide +kernel) (by decide +kernel) same

end ChainRegistry
