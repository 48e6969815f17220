import ChainRegistry.Node.Provenance
import ChainRegistry.Node.VoteQuorum

/-! What a block has passed before the synchronisation inserts it. Peers answer as they
like; a block of theirs reaches the store only with a quorum of approvals behind every
record that it publishes. -/
namespace ChainRegistry
open Lib Runs List

variable {crates : Crates}

def NodeEvent.adopting : NodeEvent → Bool
  | .syncInsert _ _ => true
  | .reorgApply _ _ => true
  | _ => false

namespace Node
def adopts (node : Node crates) : NodeEvent → List (VerifiedBlock crates)
  | .syncInsert _ _ =>
    match node.sync with
    | .inserting _ next => [next]
    | _ => []
  | .reorgApply _ _ =>
    match node.sync with
    | .applying _ branch => branch.verified
    | _ => []
  | _ => []

variable (node : Node crates)

theorem adopts_synced {event : NodeEvent} {verified : VerifiedBlock crates} (inside : verified ∈ node.adopts event) :
    verified ∈ node.sync.verified := by
  unfold adopts at inside
  split at inside
  · split at inside
    · rename_i task
      rwa [task]
    · cases inside
  · split at inside
    · rename_i task
      rwa [task]
    · cases inside
  · cases inside

theorem adopting_stored {event : NodeEvent} (adopting : event.adopting) :
    (node.next event).state.chain.EveryBlock fun block =>
      (∃ hash, node.state.chain.getBlockByHash hash = some block) ∨ ∃ verified ∈ node.adopts event,
        verified.block = block := by
  have before : node.state.chain.EveryBlock fun block =>
      (∃ hash, node.state.chain.getBlockByHash hash = some block) ∨ ∃ verified ∈ node.adopts event,
        verified.block = block :=
    fun hash block found => .inl ⟨hash,found⟩
  cases event with
  | syncInsert clock fault =>
    cases task : node.sync with
    | inserting peerHeight next =>
      simp only [Node.next,step,synchronise,task,NodeState.syncInsert]
      cases fault with
      | true => exact before
      | false => exact before.insertBlock (.inr ⟨next,by simp [adopts,task],rfl⟩)
    | _ =>
      simp only [Node.next,step,synchronise,task]
      exact before
  | reorgApply clock fault =>
    cases task : node.sync with
    | applying localTip branch =>
      have inserts : ∀ block, .insert block ∈ node.state.chain.reorgWrites crates branch.forkHeight branch.blocks →
          (∃ hash, node.state.chain.getBlockByHash hash = some block) ∨
            ∃ verified ∈ node.adopts (.reorgApply clock fault), verified.block = block := by
        intro block inside
        right
        simpa [ChainStore.reorgWrites,ChainStore.rebuildWrites,Branch.blocks,adopts,task] using inside
      simp only [Node.next,step,synchronise,task,NodeState.reorgApply]
      cases fault with
      | some done => exact before.performAll _ fun block inside => inserts block (mem_of_mem_take inside)
      | none => exact before.performAll _ inserts
    | _ =>
      simp only [Node.next,step,synchronise,task]
      exact before
  | _ => cases adopting

theorem next_readSet (event : NodeEvent) {set : Validators} (reads : (node.next event).sync.readSet = some set) :
    node.sync.readSet = some set ∨ set = node.state.validatorSet := by
  have move := node.next_move event
  generalize (node.next event).sync = after at reads move
  cases move with
  | stays => exact .inl reads
  | empty _ _ read =>
    rw [read] at reads
    cases reads
  | fetched | completes => cases reads
  | begins => exact .inr (Option.some.inj reads).symm
  | grows task =>
    rw [task]
    exact .inl reads

/-- The set recorded for the height or that of the node, at some earlier point of the run. -/
def SetUsed (start : Node crates) (events : List NodeEvent) (verified : VerifiedBlock crates) : Prop :=
  ∃ read checked, read <+: events ∧ checked <+: events ∧
    verified.set = SyncTask.effectiveSet (run next start checked).history verified.block.header.height
      (run next start read).state.validatorSet

theorem sets_used {start : Node crates} (idle : start.sync = .idle) (events : List NodeEvent) :
    (∀ verified ∈ (run next start events).sync.verified, SetUsed start events verified) ∧
      ∀ set, (run next start events).sync.readSet = some set →
        ∃ read, read <+: events ∧ set = (run next start read).state.validatorSet := by
  induction events using List.reverseRecOn with
  | nil =>
    rw [run_nil,idle]
    exact ⟨by simp [SyncTask.verified],by simp [SyncTask.readSet]⟩
  | append_singleton events event ih =>
    obtain ⟨sets,reads⟩ := ih
    have grows : ∀ {earlier : List NodeEvent}, earlier <+: events → earlier <+: events ++ [event] :=
      fun inside => inside.trans (prefix_append events [event])
    have here : events <+: events ++ [event] := prefix_append events [event]
    rw [run_append,run_cons,run_nil]
    refine ⟨?_,?_⟩
    · intro verified inside
      rcases next_verified _ event inside with old | checks
      · obtain ⟨read,checked,first,second,used⟩ := sets verified old
        exact ⟨read,checked,grows first,grows second,used⟩
      · cases checks with
        | next _ task link place used => exact ⟨events,events,here,here,used⟩
        | branch _ task place link used =>
          obtain ⟨read,earlier,rfl⟩ := reads _ (by rw [task]; rfl)
          exact ⟨read,events,grows earlier,here,used⟩
    · intro set now
      rcases next_readSet _ event now with old | rfl
      · obtain ⟨read,earlier,same⟩ := reads set old
        exact ⟨read,grows earlier,same⟩
      · exact ⟨events,here,rfl⟩

end Node

/-- What sync adds it has verified: each record has an approval quorum of the set in use. -/
theorem synced_blocks_approved (start : Node crates) (idle : start.sync = .idle) (events : List NodeEvent)
    (event : NodeEvent) (adopting : event.adopting) :
    let node := run Node.next start events
    (∀ hash block, (node.next event).state.chain.getBlockByHash hash = some block →
      (∃ other, node.state.chain.getBlockByHash other = some block) ∨
        ∃ verified ∈ node.adopts event, verified.block = block) ∧
    ∀ verified ∈ node.adopts event, 1 ≤ verified.block.header.height →
      Node.SetUsed start events verified ∧ verified.set ≠ [] ∧
        ∀ record, .publish record ∈ verified.block.transactions →
          ∃ votes, ApprovalQuorum crates verified.set record votes := by
  intro node
  refine ⟨node.adopting_stored adopting,?_⟩
  intro verified inside positive
  obtain ⟨nonempty,approved⟩ := (verifyBlockSignatures_iff verified.block verified.set positive).mp verified.verified
  refine ⟨(Node.sets_used idle events).1 verified (node.adopts_synced inside),nonempty,?_⟩
  intro record published
  exact approvals_quorum (approved record published)

namespace Solo
def follower (crates : Crates) : Node crates := Node.initial ⟨"f",none,false,false⟩ config members

def served (block : Block) : List NodeEvent := [.syncStart,.syncPeers 1,.syncBlock (some block)]

end Solo

namespace Quartet
def approved : ChainRecord := Solo.record "h" (approvers.map (approvalBy Solo.crates "h"))

def publication : Block := {Solo.block with transactions := [.publish approved]}

end Quartet

theorem quartet_publication_approved :
    let listener : Node Solo.crates := Node.initial ⟨"f",none,false,false⟩ Solo.config Quartet.panel
    ∃ verified ∈ (run Node.next listener (Solo.served Quartet.publication)).adopts (.syncInsert ⟨0,0⟩ false),
      ∃ votes, ApprovalQuorum Solo.crates verified.set Quartet.approved votes := by
  intro listener
  obtain ⟨verified,inside,same⟩ : ∃ verified ∈ (run Node.next listener
      (Solo.served Quartet.publication)).adopts (.syncInsert ⟨0,0⟩ false), verified.block = Quartet.publication := by
    rw [← mem_map]
    decide +kernel
  have approved := (synced_blocks_approved listener rfl (Solo.served Quartet.publication)
    (.syncInsert ⟨0,0⟩ false) rfl).2 verified inside (by rw [same]; decide)
  refine ⟨verified,inside,approved.2.2 _ ?_⟩
  rw [same]
  exact mem_singleton.mpr rfl

def CommitSigned (crates : Crates) (set : Validators) (block : Block) : Prop :=
  ∃ sigs : List BlockSignature, sigs.Sublist block.pbftSignatures ∧ 2 * set.length / 3 + 1 ≤ sigs.length ∧
    (sigs.map BlockSignature.validatorId).Nodup ∧ ∀ sig ∈ sigs, ∃ v ∈ set, v.id = sig.validatorId ∧
      SignedPhase crates "commit" (block.hash crates) (normalisedPubkey v.pubkey) sig.signature

theorem unsigned_block_synced : ¬∀ (crates : Crates), crates.CollisionFree → crates.SignaturesCorrect → ∀ (start : Node crates),
    start.sync = .idle → ∀ events event, ∀ verified ∈ (run Node.next start events).adopts event,
      1 ≤ verified.block.header.height → CommitSigned crates verified.set verified.block := by
  intro claimed
  obtain ⟨verified,inside,same⟩ : ∃ verified ∈ (run Node.next (Solo.follower Solo.crates)
      (Solo.served Solo.block)).adopts (.syncInsert ⟨0,0⟩ false), verified.block = Solo.block := by
    rw [← mem_map]
    decide +kernel
  obtain ⟨sigs,carried,enough,_⟩ := claimed Solo.crates (Ideal.collisionFree _ _) (Ideal.signaturesCorrect _ _)
    (Solo.follower Solo.crates) rfl (Solo.served Solo.block) (.syncInsert ⟨0,0⟩ false) verified inside
    (by rw [same]; decide)
  rw [same] at carried
  have none : sigs = [] := eq_nil_of_sublist_nil carried
  rw [none] at enough
  simp at enough

end ChainRegistry
