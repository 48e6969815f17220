import ChainRegistry.Consensus.RoundAuthority
import ChainRegistry.Node.EngineEffects

/-! Honest nodes over one validator set. The environment chooses what the network delivers, and
when; a Byzantine validator is a source of messages. The votes that honest nodes have sent are
remembered, for unforgeability. -/
namespace ChainRegistry
open Lib Runs List

structure Network (crates : Crates) where
  nodes : String → Node crates
  sent : List (String × GossipMessage)

structure Deployment where
  validators : Validators
  honest : Finset String
  pbft : PbftConfig
  privkey : String → Option String

namespace Deployment
variable (deployment : Deployment)

def set : ValidatorSet := ValidatorSet.ofCommon deployment.validators

def byzantine : Finset String := deployment.set.members \ deployment.honest

def config (id : String) : NodeConfig where
  nodeId := id
  validatorPrivkey := deployment.privkey id
  isValidator := true
  shieldedPublishEnabled := false

end Deployment

namespace Network
variable {crates : Crates} {network : Network crates} {deployment : Deployment}

def initial (deployment : Deployment) : Network crates where
  nodes id := Node.initial (deployment.config id) deployment.pbft deployment.validators
  sent := []

def step (network : Network crates) (event : String × NodeEvent) : Network crates where
  nodes := Function.update network.nodes event.1 ((network.nodes event.1).next event.2)
  sent := network.sent ++ ((network.nodes event.1).sends event.2).map fun message => (event.1,message)

def Voted (network : Network crates) (phase hash id : String) : Prop :=
  (phase = "prepare" ∧ ∃ signature, (id,.pbftPrepare hash id signature) ∈ network.sent) ∨
    (phase = "commit" ∧ ∃ signature, (id,.pbftCommit hash id signature) ∈ network.sent)

def Unforged (deployment : Deployment) (network : Network crates) (phase hash id signature : String) : Prop :=
  id ∈ deployment.honest → ∀ v, deployment.set.validators.lookup id = some v →
    SignedPhase crates phase hash (normalisedPubkey v.pubkey) signature → network.Voted phase hash id

def Deliverable (deployment : Deployment) (network : Network crates) : GossipMessage → Prop
  | .pbftPrepare hash id signature => network.Unforged deployment "prepare" hash id signature
  | .pbftCommit hash id signature => network.Unforged deployment "commit" hash id signature
  | _ => True

structure Admissible (deployment : Deployment) (network : Network crates) (event : String × NodeEvent) : Prop where
  honest : event.1 ∈ deployment.honest
  keepsSet : event.2.keepsSet
  delivered : ∀ message ∈ event.2.received, network.Deliverable deployment message

theorem step_other (network : Network crates) (event : String × NodeEvent) {id : String} (other : id ≠ event.1) :
    (network.step event).nodes id = network.nodes id := by
  simp [step,other]

theorem step_self (network : Network crates) (event : String × NodeEvent) :
    (network.step event).nodes event.1 = (network.nodes event.1).next event.2 := by
  simp [step]

theorem step_nodes {event : String × NodeEvent} (holds : String → Node crates → Prop)
    (kept : ∀ id, holds id (network.nodes id)) (next : holds event.1 ((network.nodes event.1).next event.2)) (id : String) :
    holds id ((network.step event).nodes id) := by
  by_cases own : id = event.1
  · rw [own,step_self]
    exact next
  · rw [network.step_other event own]
    exact kept id

theorem Voted.step {phase hash id : String} (voted : network.Voted phase hash id) (event : String × NodeEvent) :
    (network.step event).Voted phase hash id := by
  rcases voted with ⟨same,signature,inside⟩ | ⟨same,signature,inside⟩
  · exact .inl ⟨same,signature,mem_append_left _ inside⟩
  · exact .inr ⟨same,signature,mem_append_left _ inside⟩

def relayed (deployment : Deployment) (network : Network crates) : GossipMessage → Bool
  | .pbftPrepare hash id signature => id ∉ deployment.honest ∨ (id,.pbftPrepare hash id signature) ∈ network.sent
  | .pbftCommit hash id signature => id ∉ deployment.honest ∨ (id,.pbftCommit hash id signature) ∈ network.sent
  | _ => true

theorem deliverable_of_relayed {message : GossipMessage} (passed : network.relayed deployment message) :
    network.Deliverable deployment message := by
  cases message with
  | pbftPrepare hash id signature =>
    rcases of_decide_eq_true passed with faulty | sent
    · exact fun honest => absurd honest faulty
    · exact fun _ _ _ _ => .inl ⟨rfl,signature,sent⟩
  | pbftCommit hash id signature =>
    rcases of_decide_eq_true passed with faulty | sent
    · exact fun honest => absurd honest faulty
    · exact fun _ _ _ _ => .inr ⟨rfl,signature,sent⟩
  | _ => trivial

def Relays (deployment : Deployment) (network : Network crates) (event : String × NodeEvent) : Prop :=
  event.1 ∈ deployment.honest ∧ event.2.keepsSet ∧
    ∀ message ∈ event.2.received, network.relayed deployment message

instance (deployment : Deployment) (network : Network crates) (event : String × NodeEvent) :
    Decidable (network.Relays deployment event) :=
  inferInstanceAs (Decidable (_ ∧ _ ∧ _))

theorem along_admissible {events : List (String × NodeEvent)} (along : Along step (Relays deployment) network events) :
    Along step (Admissible deployment) network events := by
  refine along_mono ?_ network events along
  intro network event ⟨honest,keepsSet,received⟩
  exact ⟨honest,keepsSet,fun message inside => deliverable_of_relayed (received message inside)⟩

theorem run_node (events : List (String × NodeEvent)) (network : Network crates) (id : String) :
    (run step network events).nodes id =
      run Node.next (network.nodes id) ((events.filter fun event => event.1 = id).map Prod.snd) := by
  induction events generalizing network with
  | nil => rfl
  | cons event events ih =>
    rw [run_cons,ih]
    by_cases own : event.1 = id
    · subst own
      rw [step_self,filter_cons_of_pos (by simp),map_cons,run_cons]
    · rw [network.step_other event (Ne.symm own),filter_cons_of_neg (by simpa using own)]

end Network

namespace Quartet
def validator (id pubkey : String) : Validator := ⟨id,id,pubkey,"",100,100,"online"⟩

def key (first : String) : String := first ++ String.ofList (List.replicate 62 '0')

def deployment : Deployment where
  validators := [validator "a" "01",validator "b" "02",validator "c" "03",validator "d" "04"]
  honest := {"b","c","d"}
  pbft := ⟨30,3,600,false⟩
  privkey
    | "b" => some (key "02")
    | "c" => some (key "03")
    | "d" => some (key "04")
    | _ => none

def block (height : Nat) (merkleRoot : String) (transactions : List Transaction) : Block where
  header :=
    { height := height, prevHash := "A", merkleRoot := merkleRoot, proposerId := "a", timestamp := 0
      validatorSetHash := "s", vrfOutput := none, vrfProof := none }
  transactions := transactions
  pbftSignatures := []

section
variable (crates : Crates)

def signature (first : UInt8) (phase : String) (block : Block) : String :=
  Text.hexEncode (crates.sign [first] (Text.bytes (pbftSignatureMessage phase (block.hash crates))))

def deliver (receiver : String) (message : GossipMessage) : String × NodeEvent :=
  (receiver,.blocks ⟨0,0⟩ deployment.validators false message)

def prepare (id : String) (first : UInt8) (block : Block) : GossipMessage :=
  .pbftPrepare (block.hash crates) id (signature crates first "prepare" block)

def commit (id : String) (first : UInt8) (block : Block) : GossipMessage :=
  .pbftCommit (block.hash crates) id (signature crates first "commit" block)

def deliveries (block : Block) : List (String × NodeEvent) :=
  [deliver "b" (.pbftPrePrepare block),deliver "c" (.pbftPrePrepare block),
    deliver "b" (prepare crates "a" 1 block),deliver "b" (prepare crates "c" 3 block),
    deliver "c" (prepare crates "a" 1 block),deliver "c" (prepare crates "b" 2 block),
    deliver "b" (commit crates "a" 1 block),deliver "b" (commit crates "c" 3 block),
    deliver "c" (commit crates "a" 1 block),deliver "c" (commit crates "b" 2 block)]

def start (id : String) : Node crates := Node.initial (deployment.config id) deployment.pbft deployment.validators

def seenBy (id : String) (block : Block) : List NodeEvent :=
  ((deliveries crates block).filter fun event => event.1 = id).map Prod.snd

end

end Quartet

end ChainRegistry
