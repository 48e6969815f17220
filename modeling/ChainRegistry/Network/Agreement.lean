import ChainRegistry.Network.Model

/-! Agreement on finalised blocks. Two commit quorums share an honest validator, whose engine has a
round for both blocks; so they agree if no honest engine holds rounds for two blocks of one height.
Nothing in the handlers ensures that. -/
namespace ChainRegistry
open Lib Runs List Option Finset Table Ideal

namespace Network
variable {crates : Crates} {deployment : Deployment} {round : PbftRound} {hash : String}

structure RoundOk (deployment : Deployment) (network : Network crates) (hash : String) (round : PbftRound) : Prop where
  kept : KeptRound crates hash round
  set : round.validatorSet = deployment.set
  config : round.config = deployment.pbft
  proposer : deployment.set.isMember round.block.header.proposerId
  votes : ∀ id sig, round.commitSigs.lookup id = some sig → id ∈ deployment.honest → network.Voted "commit" hash id

theorem RoundOk.step {network : Network crates} (ok : RoundOk deployment network hash round) (event : String × NodeEvent) :
    RoundOk deployment (network.step event) hash round :=
  {ok with votes := fun id sig found honest => (ok.votes id sig found honest).step event}

theorem RoundOk.opened (network : Network crates) (now : Nat) (block : Block)
    (member : deployment.set.isMember block.header.proposerId) :
    RoundOk deployment network (block.hash crates) (PbftRound.opened now block deployment.set deployment.pbft) := by
  have sound : PbftRound.Sound crates _ := .withConfig now block deployment.set deployment.pbft
  refine ⟨⟨rfl,sound.rephase rfl rfl rfl rfl (.inl ?_)⟩,rfl,rfl,member,?_⟩
  · exact ⟨by simp [PbftRound.opened],by simp [PbftRound.opened]⟩
  · simp [PbftRound.opened,PbftRound.withConfig]

theorem RoundOk.receivePrepare {network : Network crates} (ok : RoundOk deployment network hash round) (now : Nat)
    (id : String) (sig : BlockSignature) : RoundOk deployment network hash (round.receivePrepare crates now id sig).1 := by
  have sound := ok.kept.2.receivePrepare now id sig
  obtain ⟨e,refused,_⟩ | ⟨_,⟨_,entered⟩ | ⟨_,entered⟩⟩ := PbftRound.receivePrepare_cases crates round now id sig
  · rw [refused]
    exact ok
  all_goals
    rw [entered] at sound ⊢
    exact ⟨⟨ok.kept.1,sound⟩,ok.set,ok.config,ok.proposer,ok.votes⟩

theorem RoundOk.receiveCommit {network : Network crates} (ok : RoundOk deployment network hash round) (id : String)
    (sig : BlockSignature) (unforged : network.Unforged deployment "commit" hash id sig.signature) :
    RoundOk deployment network hash (round.receiveCommit crates id sig).1 := by
  have sound := ok.kept.2.receiveCommit id sig
  -- an entry of an honest member is one that it has signed
  have votes (valid : PbftRound.ValidEntry crates round.validatorSet "commit" (round.block.hash crates) id sig) :
      ∀ other entry, (round.commitSigs.insert id sig).lookup other = some entry → other ∈ deployment.honest →
        network.Voted "commit" hash other := by
    intro other entry found honest
    rw [lookup_insert_eq] at found
    split_ifs at found with same
    · subst same
      obtain ⟨v,member,_,_,signed⟩ := valid.member
      rw [ok.set] at member
      rw [ok.kept.1] at signed
      exact unforged honest v member signed
    · exact ok.votes other entry found honest
  obtain ⟨e,refused,_⟩ | ⟨⟨_,valid⟩,⟨_,entered⟩ | ⟨_,entered⟩⟩ := PbftRound.receiveCommit_cases crates round id sig
  · rw [refused]
    exact ok
  all_goals
    rw [entered] at sound ⊢
    exact ⟨⟨ok.kept.1,sound⟩,ok.set,ok.config,ok.proposer,votes valid⟩

/-- The block of a round that an honest node opens has a height for which its engine
holds no other block. -/
def FreshHeight (network : Network crates) (event : String × NodeEvent) : Prop :=
  ∀ block ∈ (network.nodes event.1).openable event.2, (network.nodes event.1).state.accepts crates block →
    ∀ hash round, (network.nodes event.1).state.pbftEngine.rounds.lookup hash = some round →
      round.block.header.height = block.header.height → hash = block.hash crates

instance (network : Network crates) (event : String × NodeEvent) : Decidable (network.FreshHeight event) :=
  decidable_of_iff (∀ block ∈ (network.nodes event.1).openable event.2,
    (network.nodes event.1).state.accepts crates block →
      ∀ entry ∈ (network.nodes event.1).state.pbftEngine.rounds.entries,
        entry.2.block.header.height = block.header.height → entry.1 = block.hash crates) (by
    simp only [FreshHeight,← AList.mem_lookup_iff,Sigma.forall,Option.mem_def])

def OneBlockPerHeight (engine : PbftEngine) : Prop :=
  ∀ hash round other second, engine.rounds.lookup hash = some round → engine.rounds.lookup other = some second →
    round.block.header.height = second.block.header.height → hash = other

structure Invariant (deployment : Deployment) (network : Network crates) : Prop where
  config : ∀ id, (network.nodes id).state.config = deployment.config id
  set : ∀ id, (network.nodes id).state.validatorSet = deployment.validators
  pbft : ∀ id, (network.nodes id).state.pbftEngine.config = deployment.pbft
  rounds : ∀ id, (network.nodes id).state.pbftEngine.EveryRound (RoundOk deployment network)
  voted : ∀ hash id, network.Voted "commit" hash id →
    ((network.nodes id).state.pbftEngine.rounds.lookup hash).isSome
  heights : ∀ id, OneBlockPerHeight (network.nodes id).state.pbftEngine

theorem voted_commit_iff (network : Network crates) (hash id : String) :
    network.Voted "commit" hash id ↔ ∃ signature, (id,.pbftCommit hash id signature) ∈ network.sent := by
  simp [Voted]

theorem initial_invariant : Invariant deployment (initial deployment : Network crates) where
  config _ := rfl
  set _ := rfl
  pbft _ := rfl
  rounds id := by intro hash round found; cases found
  voted hash id := by simp [voted_commit_iff,initial]
  heights id := by intro hash round other second found; cases found

section
variable {network : Network crates} {event : String × NodeEvent}

theorem Unforged.step {phase hash id signature : String} (unforged : network.Unforged deployment phase hash id signature)
    (event : String × NodeEvent) : (network.step event).Unforged deployment phase hash id signature :=
  fun honest v found signed => (unforged honest v found signed).step event

section
variable (invariant : Invariant deployment network) (admissible : network.Admissible deployment event)
include invariant admissible

theorem Invariant.explained_commit {hash id : String} {sig : BlockSignature}
    (explained : Explained (network.nodes event.1).state ((network.nodes event.1).openable event.2)
      event.2.received ((network.nodes event.1).sends event.2) (.commit hash id sig)) :
    (network.step event).Unforged deployment "commit" hash id sig.signature := by
  rcases explained with inside | ⟨own,inside⟩
  · exact Unforged.step (admissible.delivered _ inside) event
  · rw [invariant.config] at own
    intro _ _ _ _
    rw [voted_commit_iff]
    subst own
    exact ⟨sig.signature,mem_append_right _ (List.mem_map.mpr ⟨_,inside,rfl⟩)⟩

theorem Invariant.step_rounds :
    ((network.nodes event.1).next event.2).state.pbftEngine.EveryRound (RoundOk deployment (network.step event)) ∧
      ((network.nodes event.1).next event.2).state.pbftEngine.config = deployment.pbft := by
  have effect := (network.nodes event.1).next_engine event.2 admissible.keepsSet
  rw [← invariant.pbft event.1]
  apply effect.everyRound
  · intro hash round found
    exact (invariant.rounds event.1 hash round found).step event
  · intro now block _ accepted
    rw [invariant.set,invariant.pbft]
    apply RoundOk.opened
    have member := NodeState.accepts_member accepted
    rwa [invariant.set] at member
  · intro now hash id sig round _ ok
    exact ok.receivePrepare now id sig
  · intro hash id sig round explained ok
    exact ok.receiveCommit id sig (invariant.explained_commit admissible explained)

theorem Invariant.step_heights (fresh : network.FreshHeight event) :
    OneBlockPerHeight ((network.nodes event.1).next event.2).state.pbftEngine := by
  have effect := (network.nodes event.1).next_engine event.2 admissible.keepsSet
  have origin := (effect.everyRound (P := fun hash round =>
    (∃ old, (network.nodes event.1).state.pbftEngine.rounds.lookup hash = some old ∧ round.block = old.block) ∨
      (round.block ∈ (network.nodes event.1).openable event.2 ∧
        (network.nodes event.1).state.accepts crates round.block ∧ hash = round.block.hash crates))
    (fun hash round found => .inl ⟨round,found,rfl⟩) (fun now block inside accepted => .inr ⟨inside,accepted,rfl⟩)
    (fun now hash id sig round _ kept => by rwa [round.receivePrepare_block])
    (fun hash id sig round _ kept => by rwa [round.receiveCommit_block])).1
  intro hash round other second found found' same
  rcases origin hash round found with ⟨old,before,block⟩ | ⟨inside,accepted,own⟩
  · rw [block] at same
    rcases origin other second found' with ⟨old',before',block'⟩ | ⟨inside',accepted',own'⟩
    · rw [block'] at same
      exact invariant.heights event.1 hash old other old' before before' same
    · rw [own']
      exact fresh _ inside' accepted' hash old before same
  · rcases origin other second found' with ⟨old',before',block'⟩ | ⟨inside',accepted',own'⟩
    · rw [block'] at same
      rw [own]
      exact (fresh _ inside accepted other old' before' same.symm).symm
    · rw [own,own',(network.nodes event.1).openable_unique inside inside']

theorem Invariant.step_voted (hash id : String) (voted : (network.step event).Voted "commit" hash id) :
    (((network.step event).nodes id).state.pbftEngine.rounds.lookup hash).isSome := by
  have effect := (network.nodes event.1).next_engine event.2 admissible.keepsSet
  obtain ⟨signature,inside⟩ := (voted_commit_iff _ hash id).mp voted
  rcases mem_append.mp inside with old | new
  · have before := invariant.voted hash id ((voted_commit_iff _ hash id).mpr ⟨signature,old⟩)
    by_cases own : id = event.1
    · subst own
      rw [step_self]
      exact effect.lookup_isSome before
    · rw [network.step_other event own]
      exact before
  · obtain ⟨message,sent,same⟩ := List.mem_map.mp new
    cases same
    rw [step_self]
    exact (effect.commits hash event.1 signature sent).2

theorem Invariant.step (fresh : network.FreshHeight event) : Invariant deployment (network.step event) := by
  have effect := (network.nodes event.1).next_engine event.2 admissible.keepsSet
  obtain ⟨rounds,pbft⟩ := invariant.step_rounds admissible
  refine ⟨?_,?_,?_,?_,invariant.step_voted admissible,?_⟩
  · exact step_nodes (fun id node => node.state.config = deployment.config id) invariant.config
      (effect.config.trans (invariant.config event.1))
  · exact step_nodes (fun _ node => node.state.validatorSet = deployment.validators) invariant.set
      (effect.set.trans (invariant.set event.1))
  · exact step_nodes (fun _ node => node.state.pbftEngine.config = deployment.pbft) invariant.pbft pbft
  · refine step_nodes (fun _ node => node.state.pbftEngine.EveryRound (RoundOk deployment (network.step event))) ?_ rounds
    intro id hash round found
    exact (invariant.rounds id hash round found).step event
  · exact step_nodes (fun _ node => OneBlockPerHeight node.state.pbftEngine) invariant.heights
      (invariant.step_heights admissible fresh)

end

end

theorem Voted.run {network : Network crates} {phase hash id : String} (voted : network.Voted phase hash id)
    (events : List (String × NodeEvent)) : (Runs.run Network.step network events).Voted phase hash id := by
  apply kept_run (fun network : Network crates => network.Voted phase hash id) events _ network voted
  intro network event _ voted
  exact voted.step event

theorem RoundOk.committed_vote {network : Network crates} {hash member : String} (ok : RoundOk deployment network hash round)
    (inside : member ∈ ids round.commitSigs) (honest : member ∈ deployment.honest) :
    network.Voted "commit" hash member := by
  obtain ⟨sig,found⟩ := (mem_ids _ member).mp inside
  exact ok.votes member sig found honest

theorem RoundOk.committers {network : Network crates} (ok : RoundOk deployment network hash round)
    (final : round.phase = .finalised) (strict : deployment.pbft.allowSmallClusterQuorum = false) :
    ids round.commitSigs ⊆ deployment.set.members ∧
      2 * deployment.set.members.card / 3 + 1 ≤ (ids round.commitSigs).card ∧
      0 < deployment.set.members.card := by
  have nonempty : 0 < deployment.set.members.card :=
    card_pos.mpr ⟨_,(deployment.set.isMember_iff _).mp ok.proposer⟩
  obtain ⟨inside,enough⟩ := ok.kept.2.committers final (by rw [ok.config,strict]) (by rwa [ok.set])
  rw [ok.set] at inside enough
  exact ⟨inside,enough,nonempty⟩

theorem Invariant.committed_round {network : Network crates} (invariant : Invariant deployment network)
    (injective : crates.CollisionFree) {member hash : String} {block : Block} (same : block.hash crates = hash)
    (voted : network.Voted "commit" hash member) :
    ∃ round, (network.nodes member).state.pbftEngine.rounds.lookup hash = some round ∧
      round.block.header = block.header := by
  obtain ⟨round,found⟩ := isSome_iff_exists.mp (invariant.voted hash member voted)
  have kept := (invariant.rounds member hash round found).kept.1
  exact ⟨round,found,injective.headers (kept.trans same.symm)⟩

end Network

open Network in
/-- With fewer than a third byzantine, all nodes finalise one block at a height. -/
theorem agreement {crates : Crates} (injective : crates.CollisionFree) (deployment : Deployment)
    (strict : deployment.pbft.allowSmallClusterQuorum = false)
    (bounded : deployment.byzantine.card ≤ (deployment.set.members.card - 1) / 3) (first second : List (String × NodeEvent))
    (admissible : Along step (Admissible deployment) (initial deployment : Network crates) (first ++ second))
    (fresh : Along step FreshHeight (initial deployment : Network crates) (first ++ second))
    {i j hash hash' : String} {block block' : Block}
    (final : ((run step (initial deployment : Network crates) first).nodes i).state.pbftEngine.getFinalisedBlock hash =
      some block)
    (final' : ((run step (initial deployment : Network crates) (first ++ second)).nodes j).state.pbftEngine.getFinalisedBlock
      hash' = some block')
    (height : block.header.height = block'.header.height) :
    block.hash crates = block'.hash crates := by
  have keeps : ∀ (network : Network crates) event, Invariant deployment network →
      (network.Admissible deployment event ∧ network.FreshHeight event) → Invariant deployment (network.step event) :=
    fun _ _ invariant allowed => invariant.step allowed.1 allowed.2
  have allowed := along_and admissible fresh
  have later := invariant_run keeps _ _ initial_invariant allowed
  have earlier := invariant_run keeps _ _ initial_invariant ((along_append _ _ _).mp allowed).1
  obtain ⟨round,found,phase,rfl⟩ := getFinalisedBlock_eq_some final
  obtain ⟨round',found',phase',rfl⟩ := getFinalisedBlock_eq_some final'
  have ok := earlier.rounds i hash round found
  have ok' := later.rounds j hash' round' found'
  obtain ⟨inside,quorum,nonempty⟩ := ok.committers phase strict
  obtain ⟨inside',quorum',_⟩ := ok'.committers phase' strict
  obtain ⟨member,left,right,correct⟩ := Quorum.honest_overlap nonempty inside inside' quorum quorum' bounded
  -- the shared validator follows the protocol, and so has one block for the height
  have honest : member ∈ deployment.honest := by
    by_contra faulty
    exact correct (Finset.mem_sdiff.mpr ⟨inside left,faulty⟩)
  have voted := (ok.committed_vote left honest).run second
  rw [← run_append] at voted
  have voted' := ok'.committed_vote right honest
  obtain ⟨own,holds,header⟩ := later.committed_round injective ok.kept.1 voted
  obtain ⟨own',holds',header'⟩ := later.committed_round injective ok'.kept.1 voted'
  have same := later.heights member hash own hash' own' holds holds' (by rw [header,header']; exact height)
  calc round.block.hash crates = hash := ok.kept.1
    _ = hash' := same
    _ = round'.block.hash crates := ok'.kept.1.symm

namespace Quartet
def one : Block := block 1 "m" []

def two : Block := block 1 "n" []

def crates : Crates := Ideal.crates [Block.genesis.header,one.header,two.header] checksum

end Quartet
open Quartet

theorem quartet_agrees :
    let after := fun events => run Network.step (Network.initial deployment : Network crates) events
    let first := (deliveries crates one).take 8
    let second := (deliveries crates one).drop 8
    ∃ block other, ((after first).nodes "b").state.pbftEngine.getFinalisedBlock "AA" = some block ∧
      ((after (first ++ second)).nodes "c").state.pbftEngine.getFinalisedBlock "AA" = some other ∧
      block.hash crates = other.hash crates := by
  intro after first second
  have final : (((after first).nodes "b").state.pbftEngine.getFinalisedBlock "AA").map Block.header =
      some one.header := by decide +kernel
  have final' : (((after (first ++ second)).nodes "c").state.pbftEngine.getFinalisedBlock "AA").map Block.header =
      some one.header := by decide +kernel
  obtain ⟨block,returned,header⟩ := map_eq_some_iff.mp final
  obtain ⟨other,returned',header'⟩ := map_eq_some_iff.mp final'
  have relayed : Along Network.step (Network.Relays deployment)
      (Network.initial deployment : Network crates) (first ++ second) := by decide +kernel
  have fresh : Along Network.step Network.FreshHeight
      (Network.initial deployment : Network crates) (first ++ second) := by decide +kernel
  exact ⟨block,other,returned,returned',agreement (collisionFree _ _) deployment rfl (by decide +kernel)
    first second (Network.along_admissible relayed) fresh returned returned' (by rw [header,header'])⟩

theorem agreement_lost_on_equivocation :
    ¬∀ (crates : Crates) (deployment : Deployment), crates.CollisionFree → crates.SignaturesCorrect →
      deployment.pbft.allowSmallClusterQuorum = false →
      deployment.byzantine.card ≤ (deployment.set.members.card - 1) / 3 →
      ∀ events, Along Network.step (Network.Admissible deployment) (Network.initial deployment : Network crates) events →
      ∀ i j hash hash' block block', i ∈ deployment.honest → j ∈ deployment.honest →
        ((run Network.step (Network.initial deployment : Network crates) events).nodes i).state.pbftEngine.getFinalisedBlock
          hash = some block →
        ((run Network.step (Network.initial deployment : Network crates) events).nodes j).state.pbftEngine.getFinalisedBlock
          hash' = some block' →
        block.header.height = block'.header.height → block.hash crates = block'.hash crates := by
  intro claimed
  have relayed : Along Network.step (Network.Relays deployment)
      (Network.initial deployment : Network crates)
      (deliveries crates one ++ deliveries crates two) := by
    decide +kernel
  have agrees := claimed crates deployment (collisionFree _ _) (signaturesCorrect _ _) rfl
    (by decide +kernel) _ (Network.along_admissible relayed) "b" "b" "AA" "AAA"
  rw [Network.run_node] at agrees
  have final : ((run Node.next ((Network.initial deployment : Network crates).nodes "b")
      (((deliveries crates one ++ deliveries crates two).filter
        fun event => event.1 = "b").map Prod.snd)).state.pbftEngine.getFinalisedBlock "AA").map Block.header =
      some one.header := by decide +kernel
  have final' : ((run Node.next ((Network.initial deployment : Network crates).nodes "b")
      (((deliveries crates one ++ deliveries crates two).filter
        fun event => event.1 = "b").map Prod.snd)).state.pbftEngine.getFinalisedBlock "AAA").map Block.header =
      some two.header := by decide +kernel
  obtain ⟨block,returned,header⟩ := map_eq_some_iff.mp final
  obtain ⟨other,returned',header'⟩ := map_eq_some_iff.mp final'
  have same := agrees block other (by decide) (by decide) returned returned' (by rw [header,header']; rfl)
  rw [Block.hash,Block.hash,header,header'] at same
  revert same
  decide +kernel

end ChainRegistry
