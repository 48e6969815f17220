import ChainRegistry.Network.Agreement
import ChainRegistry.Node.ChainView

/-! The chain of a running node. Four tasks write to one store that takes any block.
The chain stays whole in every run in which each inserted block has a place in it and
no reorganisation has lost the block it forks from. -/
namespace ChainRegistry
open Lib Runs LinkedChain Option Ideal

variable {crates : Crates}

namespace ChainStore
variable {store : ChainStore} {branch : Branch crates}

def Allowed (crates : Crates) (store : ChainStore) : Write → Prop
  | .rollback height => height ≤ store.tipHeight
  | .insert block => FitsInto crates store block
  | _ => True

theorem Canonical.performed (injective : crates.CollisionFree) (store : ChainStore) (write : Write)
    (canonical : Canonical crates store) (allowed : store.Allowed crates write) :
    Canonical crates (store.perform crates write) := by
  cases write with
  | rollback height => exact (canonical.rollback allowed).1
  | insert block => exact (canonical.insertBlock injective allowed).1
  | clearPackages => exact ⟨⟨canonical.indexed.hashed,canonical.indexed.stored⟩,canonical.chain⟩
  | reinsert height => exact canonical.reinsert height

theorem Canonical.along_branch (injective : crates.CollisionFree) {blocks : List Block}
    (canonical : Canonical crates store) {top : Block} (found : store.getBlockByHeight store.tipHeight = some top)
    (follows : Block.Follows crates store.tipHeight (top.hash crates) blocks) :
    Along (perform crates) (Allowed crates) store (blocks.map .insert) := by
  induction blocks generalizing store top with
  | nil => trivial
  | cons block blocks ih =>
    obtain ⟨next,link,rest⟩ := follows
    simp only at next link
    have fits : FitsInto crates store block := canonical.chain.fits_next found next link
    obtain ⟨kept,tip⟩ := canonical.insertBlock injective fits
    rw [next,Nat.max_eq_right (Nat.le_succ _)] at tip
    have onTop : (store.insertBlock crates block).getBlockByHeight (store.insertBlock crates block).tipHeight =
        some block := by
      rw [tip,canonical.indexed.view_insert injective,put_apply,if_pos next.symm]
    have above : Block.Follows crates (store.insertBlock crates block).tipHeight (block.hash crates) blocks := by
      rw [tip]
      exact rest
    exact ⟨fits,ih kept onTop above⟩

theorem along_rebuild (store start : ChainStore) : Along (perform crates) (Allowed crates) start store.rebuildWrites := by
  refine ⟨trivial,?_⟩
  generalize List.range (store.tipHeight + 1) = heights
  generalize start.perform crates .clearPackages = start
  induction heights generalizing start with
  | nil => trivial
  | cons height heights ih => exact ⟨trivial,ih _⟩

section
variable (injective : crates.CollisionFree)
include injective

theorem Canonical.along_reorg (canonical : Canonical crates store) {ancestor : Block}
    (found : store.getBlockByHeight branch.forkHeight = some ancestor) (same : ancestor.hash crates = branch.ancestorHash) :
    Along (perform crates) (Allowed crates) store
      (store.reorgWrites crates branch.forkHeight branch.blocks) := by
  have inside : branch.forkHeight ≤ store.tipHeight := (canonical.chain.present _).mp (by rw [found]; rfl)
  obtain ⟨kept,tip⟩ := canonical.rollback inside
  refine (along_append _ _ _).mpr ⟨⟨inside,?_⟩,along_rebuild _ _⟩
  have onTop : (store.rollbackToHeight branch.forkHeight).1.getBlockByHeight
      (store.rollbackToHeight branch.forkHeight).1.tipHeight = some ancestor := by
    rw [tip,view_rollback,cut,if_pos (Nat.le_refl _)]
    exact found
  refine kept.along_branch injective onTop ?_
  rw [tip,same]
  exact branch.follows

theorem Canonical.reorg (canonical : Canonical crates store) {ancestor : Block}
    (found : store.getBlockByHeight branch.forkHeight = some ancestor) (same : ancestor.hash crates = branch.ancestorHash)
    (done : Nat) :
    Canonical crates (store.performAll crates
      ((store.reorgWrites crates branch.forkHeight branch.blocks).take done)) := by
  have along := canonical.along_reorg injective found same
  rw [← List.take_append_drop done (store.reorgWrites crates branch.forkHeight branch.blocks)] at along
  exact invariant_run (Canonical.performed injective) _ _ canonical ((along_append _ _ _).mp along).1

theorem canonical_genesis : Canonical crates (genesis crates) := by
  refine (Canonical.of_chain (indexed_genesis injective) (?_ : Chain _ _ _ _ 0)).1
  rw [genesis,(indexed_empty crates).view_insert injective]
  refine ⟨?_,?_,?_⟩
  · intro height
    rw [put_apply]
    split_ifs with same
    · simp [same,Block.genesis]
    · simpa [getBlockByHeight,Block.genesis] using same
  · intro height block found
    rw [put_apply] at found
    split_ifs at found with same
    · cases found
      exact same.symm
    · cases found
  · intro height block child _ above
    rw [put_apply,if_neg (by simp [Block.genesis])] at above
    cases above

end

theorem FitsInto.congr {block listed : Block} (same : block.SameContent listed) (fits : FitsInto crates store listed) :
    FitsInto crates store block := by
  obtain ⟨near,above,below⟩ := fits
  refine ⟨?_,?_,?_⟩
  · rwa [same.1]
  · simpa only [same.1] using above
  · simpa only [same.1,same.hash] using below

end ChainStore

namespace Node
variable {node : Node crates}

def forkKept (node : Node crates) : Bool :=
  match node.sync with
  | .applying _ branch =>
    (node.state.chain.getBlockByHeight branch.forkHeight).map (Block.hash crates) = some branch.ancestorHash
  | _ => true

def KeepsChain (node : Node crates) (event : NodeEvent) : Prop :=
  (∀ block ∈ node.insertable event, node.state.chain.FitsInto crates block) ∧
    (event.reorganises → node.forkKept)

instance (node : Node crates) (event : NodeEvent) : Decidable (node.KeepsChain event) :=
  haveI : DecidablePred (node.state.chain.FitsInto crates) := fun block =>
    inferInstanceAs (Decidable (Fits _ _ _ _ _ block))
  inferInstanceAs (Decidable (_ ∧ _))

theorem reorgApply_canonical (injective : crates.CollisionFree) (clock : Clock) (fault : Option Nat)
    (canonical : node.state.chain.Canonical crates) (kept : node.forkKept) :
    (node.next (.reorgApply clock fault)).state.chain.Canonical crates := by
  cases task : node.sync with
  | applying localTip branch =>
    simp only [forkKept,task,decide_eq_true_eq] at kept
    obtain ⟨ancestor,found,same⟩ := map_eq_some_iff.mp kept
    have part := canonical.reorg injective found same
    simp only [next,step,synchronise,task,NodeState.reorgApply]
    cases fault with
    | some done => exact part done
    | none =>
      have whole := part (node.state.chain.reorgWrites crates branch.forkHeight branch.blocks).length
      rwa [List.take_length] at whole
  | _ =>
    simp only [next,step,synchronise,task]
    exact canonical

theorem next_canonical (injective : crates.CollisionFree) (node : Node crates) (event : NodeEvent)
    (canonical : node.state.chain.Canonical crates) (keeps : node.KeepsChain event) :
    (node.next event).state.chain.Canonical crates := by
  by_cases reorg : event.reorganises
  · cases event with
    | reorgApply clock fault => exact reorgApply_canonical injective clock fault canonical (keeps.2 rfl)
    | _ => cases reorg
  · have effect := node.next_effect event (Bool.not_eq_true _ ▸ reorg)
    cases effect with
    | kept chain index | failed now block listed inside same faulty chain index =>
      rw [chain]
      exact canonical
    | inserted now block listed inside same chain index =>
      rw [chain]
      exact (canonical.insertBlock injective ((keeps.1 listed inside).congr same)).1

end Node

/-- The height index holds exactly the heights up to the tip, each with a stored block
of that height, and every block names the hash of the one below. -/
structure ChainStore.WholeChain (crates : Crates) (store : ChainStore) : Prop where
  heights : ∀ height, (store.blocksByHeight.lookup height).isSome ↔ height ≤ store.tipHeight
  stored : ∀ height hash, store.blocksByHeight.lookup height = some hash →
    ∃ block, store.getBlockByHash hash = some block ∧ block.header.height = height
  linked : ∀ height, 1 ≤ height → height ≤ store.tipHeight → ∃ parent block,
    store.getBlockByHeight (height - 1) = some parent ∧ store.getBlockByHeight height = some block ∧
      block.header.prevHash = parent.hash crates

theorem ChainStore.Canonical.whole {store : ChainStore} (canonical : store.Canonical crates) : store.WholeChain crates := by
  refine ⟨?_,canonical.indexed.stored,?_⟩
  · intro height
    rw [← canonical.indexed.isSome_iff,canonical.chain.present]
  · intro height positive inside
    obtain ⟨block,found⟩ := isSome_iff_exists.mp ((canonical.chain.present height).mpr inside)
    obtain ⟨parent,below⟩ := isSome_iff_exists.mp ((canonical.chain.present (height - 1)).mpr (by omega))
    refine ⟨parent,block,below,found,?_⟩
    apply canonical.chain.linked (height - 1) parent block below
    rwa [Nat.sub_add_cancel positive]

/-- Whichever writer comes next, the stored blocks form one linked chain up to the tip. -/
theorem chain_stays_whole (injective : crates.CollisionFree) (config : NodeConfig) (pbft : PbftConfig)
    (validators : Validators) (events : List NodeEvent)
    (keeps : Along Node.next Node.KeepsChain (Node.initial config pbft validators : Node crates) events) :
    (run Node.next (Node.initial config pbft validators : Node crates) events).state.chain.WholeChain crates := by
  apply ChainStore.Canonical.whole
  exact invariant_run (Node.next_canonical injective) _ events (ChainStore.canonical_genesis injective) keeps

theorem quartet_chain_whole :
    let node := run Node.next (Quartet.start Quartet.crates "b") (Quartet.seenBy Quartet.crates "b" Quartet.one)
    node.state.chain.tipHeight = 1 ∧ node.state.chain.WholeChain Quartet.crates := by
  refine ⟨by decide +kernel,chain_stays_whole (collisionFree _ _) _ _ _ _ ?_⟩
  decide +kernel

namespace Quartet
def far : Block := block 7 "m" []

def farCrates : Crates := Ideal.crates [Block.genesis.header,far.header] checksum

end Quartet
open Quartet

theorem chain_broken_by_height : ¬∀ (crates : Crates) (deployment : Deployment), crates.CollisionFree → crates.SignaturesCorrect →
    3 * deployment.byzantine.card < deployment.set.members.card →
    ∀ events, Along Network.step (Network.Admissible deployment) (Network.initial deployment : Network crates) events →
    ∀ id ∈ deployment.honest,
      ((run Network.step (Network.initial deployment : Network crates) events).nodes id).state.chain.WholeChain
        crates := by
  intro claimed
  have relayed : Along Network.step (Network.Relays deployment)
      (Network.initial deployment : Network farCrates)
      (deliveries farCrates far) := by decide +kernel
  have whole := claimed farCrates deployment (collisionFree _ _) (signaturesCorrect _ _)
    (by decide +kernel) _ (Network.along_admissible relayed) "b" (by decide)
  rw [Network.run_node] at whole
  have gap : ∀ store : ChainStore, store.tipHeight = 7 → store.blocksByHeight.lookup 1 = none →
      ¬store.WholeChain farCrates := by
    intro store tip missing whole
    have present := (whole.heights 1).mpr (by omega)
    rw [missing] at present
    cases present
  exact gap _ (by decide +kernel) (by decide +kernel) whole

end ChainRegistry
