import ChainRegistry.Network.Agreement
import ChainRegistry.Node.Provenance

/-! The body of a block and the root in its header. The producer computes the root from
the body; none of the paths on which a node receives a block computes it again. -/
namespace ChainRegistry
open Lib Runs Option Node Ideal

variable {crates : Crates}

def Block.BodyBound (crates : Crates) (block : Block) : Prop :=
  block.header.merkleRoot = merkleRoot crates block.transactions

instance (block : Block) : Decidable (block.BodyBound crates) := inferInstanceAs (Decidable (_ = _))

theorem produced_bound {block : Block} (produced : Node.Produced crates block) : block.BodyBound crates := by
  obtain ⟨snapshot,clock,id,output,proof,rfl⟩ := produced
  rfl

def Node.TakesBound (node : Node crates) (event : NodeEvent) : Prop :=
  ∀ block ∈ node.takesIn event, 1 ≤ block.header.height → block.BodyBound crates

instance (node : Node crates) (event : NodeEvent) : Decidable (node.TakesBound event) :=
  inferInstanceAs (Decidable (∀ block ∈ _, _))

theorem stored_bound (config : NodeConfig) (pbft : PbftConfig) (validators : Validators) {events : List NodeEvent}
    (bound : Along next Node.TakesBound (initial config pbft validators : Node crates) events) :
    (run next (initial config pbft validators : Node crates) events).Holds fun block =>
      1 ≤ block.header.height → block.BodyBound crates := by
  refine invariant_run ?_ _ events ?_ bound
  · intro node event holds taken
    refine holds.next ?_ (fun block produced _ => produced_bound produced) taken
    intro block listed ⟨header,transactions⟩ bound
    rwa [Block.BodyBound,header,transactions]
  · refine ⟨?_,?_,?_⟩
    · intro hash block found
      simp only [initial,ChainStore.genesis,ChainStore.insertBlock,Table.lookup_insert_eq] at found
      split_ifs at found
      · cases found
        exact fun positive => absurd positive (by simp [Block.genesis])
      · cases found
    · intro hash round found
      cases found
    · intro block inside
      cases inside

/-- A stored block has the body of its Merkle root, and blocks with one hash have one root. -/
theorem bodies_bound (injective : crates.CollisionFree) (config other : NodeConfig) (pbft pbft' : PbftConfig)
    (validators validators' : Validators) (events events' : List NodeEvent)
    (bound : Along next Node.TakesBound (initial config pbft validators : Node crates) events)
    (bound' : Along next Node.TakesBound (initial other pbft' validators' : Node crates) events') :
    let first := (run next (initial config pbft validators : Node crates) events).state.chain
    let second := (run next (initial other pbft' validators' : Node crates) events').state.chain
    (∀ hash block, first.getBlockByHash hash = some block → 1 ≤ block.header.height → block.BodyBound crates) ∧
    ∀ hash hash' block block', first.getBlockByHash hash = some block → second.getBlockByHash hash' = some block' →
      1 ≤ block.header.height → block.hash crates = block'.hash crates →
      merkleRoot crates block.transactions = merkleRoot crates block'.transactions := by
  intro first second
  have stored := (stored_bound config pbft validators bound).stored
  have stored' := (stored_bound other pbft' validators' bound').stored
  refine ⟨stored,?_⟩
  intro hash hash' block block' found found' positive same
  have header := injective.headers same
  calc merkleRoot crates block.transactions = block.header.merkleRoot := (stored hash block found positive).symm
    _ = block'.header.merkleRoot := by rw [header]
    _ = merkleRoot crates block'.transactions := stored' hash' block' found' (header ▸ positive)

namespace Quartet
def bound : Block := block 1 (merkleRoot (Ideal.crates [] checksum) []) []

def boundCrates : Crates := Ideal.crates [Block.genesis.header,bound.header] checksum

end Quartet

open Quartet

theorem quartet_bodies_bound :
    let first := run Node.next (start boundCrates "b") (seenBy boundCrates "b" bound)
    let second := run Node.next (start boundCrates "c") (seenBy boundCrates "c" bound)
    ∃ block block', first.state.chain.getBlockByHash "AA" = some block ∧
      second.state.chain.getBlockByHash "AA" = some block' ∧ block.BodyBound boundCrates ∧
      merkleRoot boundCrates block.transactions = merkleRoot boundCrates block'.transactions := by
  intro first second
  have stored : (first.state.chain.getBlockByHash "AA").map Block.header = some bound.header := by
    decide +kernel
  have stored' : (second.state.chain.getBlockByHash "AA").map Block.header = some bound.header := by
    decide +kernel
  obtain ⟨block,found,header⟩ := map_eq_some_iff.mp stored
  obtain ⟨block',found',header'⟩ := map_eq_some_iff.mp stored'
  have same : block.hash boundCrates = block'.hash boundCrates := by
    rw [Block.hash,Block.hash,header,header']
  have positive : 1 ≤ block.header.height := by
    rw [header]
    decide
  have takes : Along Node.next Node.TakesBound (start boundCrates "b") (seenBy boundCrates "b" bound) := by decide +kernel
  have takes' : Along Node.next Node.TakesBound (start boundCrates "c") (seenBy boundCrates "c" bound) := by decide +kernel
  obtain ⟨bound,agree⟩ := bodies_bound (Ideal.collisionFree _ _) _ _ _ _ _ _ _ _ takes takes'
  exact ⟨block,block',found,found',bound _ _ found positive,agree _ _ _ _ found found' positive same⟩

theorem body_unbound_by_proposer :
    ¬∀ (crates : Crates) (deployment : Deployment), crates.CollisionFree → crates.SignaturesCorrect →
      3 * deployment.byzantine.card < deployment.set.members.card →
      ∀ events, Along Network.step (Network.Admissible deployment) (Network.initial deployment : Network crates) events →
      ∀ id ∈ deployment.honest, ∀ hash block,
        ((run Network.step (Network.initial deployment : Network crates) events).nodes id).state.chain.getBlockByHash
          hash = some block → 1 ≤ block.header.height → block.BodyBound crates := by
  intro claimed
  have relayed : Along Network.step (Network.Relays deployment) (Network.initial deployment : Network crates)
      (deliveries crates one) := by decide +kernel
  have bound := claimed crates deployment (collisionFree _ _) (signaturesCorrect _ _)
    (by decide +kernel) _ (Network.along_admissible relayed) "b" (by decide) "AA"
  rw [Network.run_node] at bound
  have unbound : ∀ found : Option Block, (found.map fun block => (block.header,block.transactions)) =
      some (one.header,one.transactions) →
      ¬∀ block, found = some block → 1 ≤ block.header.height → block.BodyBound crates := by
    intro found stored bound
    obtain ⟨block,present,content⟩ := map_eq_some_iff.mp stored
    obtain ⟨header,transactions⟩ := Prod.mk.inj content
    have root := bound block present (by rw [header]; decide)
    rw [Block.BodyBound,header,transactions] at root
    revert root
    decide +kernel
  exact unbound _ (by decide +kernel) bound

end ChainRegistry
