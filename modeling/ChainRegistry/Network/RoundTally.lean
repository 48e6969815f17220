import ChainRegistry.Lib.Phases
import ChainRegistry.Network.Model

/-! A round of the engine as a collector of votes in two phases: which messages count
for it, what the votes of the node itself add, and how one entry changes it. -/
namespace ChainRegistry
open Lib Runs Phases Option Text Finset PbftRound ValidatorSet Table

namespace NodeState
section
variable (crates : Crates) (state : NodeState) (block : Block)

def counts (phase : String) (sig : BlockSignature) : Bool :=
  ((withConfig 0 block (ofCommon state.validatorSet) state.pbftEngine.config).verifyBlockSignature
    crates phase sig.validatorId sig).isOk

def countsMessage (phase id signature : String) : Bool :=
  match validatePbftPhaseMessage crates state.validatorSet phase (block.hash crates) id signature with
  | .error _ => false
  | .ok sig => state.counts crates block phase sig

def ownVoters (phase : String) : Finset String :=
  match state.config.signPhase crates phase (block.hash crates) with
  | none => ∅
  | some own => if state.counts crates block phase own then {own.validatorId} else ∅

def quorum : Nat :=
  quorumThreshold (ofCommon state.validatorSet).len state.pbftEngine.config.allowSmallClusterQuorum

def ballot : GossipMessage → Option (Ballot String)
  | .pbftPrePrepare proposed =>
    if proposed.hash crates = block.hash crates ∧ state.accepts crates proposed then some .opening else none
  | .pbftPrepare hash id signature =>
    if hash = block.hash crates ∧ state.countsMessage crates block "prepare" id signature then some (.prepare id) else none
  | .pbftCommit hash id signature =>
    if hash = block.hash crates ∧ state.countsMessage crates block "commit" id signature then some (.commit id) else none
  | _ => none

end

variable {crates : Crates} {state : NodeState} {block : Block}

theorem counts_iff {phase : String} {sig : BlockSignature} : state.counts crates block phase sig ↔
    PbftRound.ValidEntry crates (ofCommon state.validatorSet) phase (block.hash crates) sig.validatorId sig := by
  rw [counts,Fallible.isOk_iff]
  refine Iff.trans ?_ (verifyBlockSignature_iff crates
    (withConfig 0 block (ofCommon state.validatorSet) state.pbftEngine.config) phase sig.validatorId sig)
  exact ⟨fun ⟨_,passed⟩ => passed,fun passed => ⟨(),passed⟩⟩

theorem quorum_pos {proposed : Block} (accepted : state.accepts crates proposed) : 0 < state.quorum := by
  have member := accepts_member accepted
  rw [isMember_iff] at member
  have some := card_pos.mpr ⟨_,member⟩
  rw [card_members] at some
  unfold quorum quorumThreshold
  split
  · omega
  · split_ifs <;> omega

end NodeState

theorem signPhase_eq (crates : Crates) (config : NodeConfig) :
    ∃ key : Option (List UInt8), (∀ bytes ∈ key, crates.signingKey bytes = .ok ()) ∧ ∀ phase hash,
      config.signPhase crates phase hash = key.map fun bytes =>
        { validatorId := config.nodeId
          pubkey := hexEncode (crates.verifyingKeyOf bytes)
          signature := hexEncode (crates.sign bytes (Text.bytes (pbftSignatureMessage phase hash))) } := by
  unfold NodeConfig.signPhase
  cases config.validatorPrivkey with
  | none => exact ⟨none,by simp,fun _ _ => rfl⟩
  | some privkey =>
    cases decoded : hexDecode privkey with
    | error e => exact ⟨none,by simp,fun _ _ => by simp [decoded]⟩
    | ok bytes =>
      cases accepted : crates.signingKey bytes with
      | error e => exact ⟨none,by simp,fun _ _ => by simp [decoded,accepted]⟩
      | ok done => exact ⟨some bytes,by simpa using accepted,fun _ _ => by simp [decoded,accepted]⟩

theorem normalisedPubkey_hexEncode (data : List UInt8) : normalisedPubkey (hexEncode data) = hexEncode data := by
  rw [normalisedPubkey,trimStartHexMark_hexEncode,toAsciiLowercase_hexEncode]

theorem signedPhase_own {crates : Crates} (correct : crates.SignaturesCorrect) {key : List UInt8}
    (accepted : crates.signingKey key = .ok ()) (phase hash : String) :
    SignedPhase crates phase hash (hexEncode (crates.verifyingKeyOf key))
      (hexEncode (crates.sign key (bytes (pbftSignatureMessage phase hash)))) := by
  refine ⟨crates.verifyingKeyOf key,_,?_,correct.accepted key accepted,?_,correct.formatted key _ accepted,
    correct.verifies key _ accepted⟩
  · rw [normalisedPubkey_hexEncode,hexDecode_hexEncode]
  · rw [trimStartHexMark_hexEncode,hexDecode_hexEncode]

theorem NodeState.ownVoters_eq {crates : Crates} (correct : crates.SignaturesCorrect) (state : NodeState) (block : Block)
    (phase : String) : state.ownVoters crates block phase = state.ownVoters crates block "prepare" := by
  obtain ⟨key,accepted,signs⟩ := signPhase_eq crates state.config
  unfold ownVoters
  rw [signs,signs]
  cases key with
  | none => rfl
  | some bytes =>
    have registered : ∀ phase, state.counts crates block phase
        { validatorId := state.config.nodeId
          pubkey := hexEncode (crates.verifyingKeyOf bytes)
          signature := hexEncode (crates.sign bytes (Text.bytes (pbftSignatureMessage phase (block.hash crates)))) } ↔
        ∃ v, (ofCommon state.validatorSet).validators.lookup state.config.nodeId = some v ∧ v.isActive ∧
          hexEncode (crates.verifyingKeyOf bytes) = normalisedPubkey v.pubkey := by
      intro phase
      rw [counts_iff]
      constructor
      · intro ⟨_,v,found,active,same,_⟩
        exact ⟨v,found,active,(normalisedPubkey_hexEncode _).symm.trans same⟩
      · intro ⟨v,found,active,same⟩
        refine ⟨rfl,v,found,active,(normalisedPubkey_hexEncode _).trans same,?_⟩
        rw [← same]
        exact signedPhase_own correct (accepted bytes rfl) phase (block.hash crates)
    simp only [map_some,registered]

structure Mirrors (crates : Crates) (start : NodeState) (block : Block) (round : PbftRound) (tally : Tally String) : Prop where
  hash : round.block.hash crates = block.hash crates
  set : round.validatorSet = ofCommon start.validatorSet
  config : round.config = start.pbftEngine.config
  phase : round.phase = match tally.phase with
    | .preparing => .prepare
    | .committing => .commit
    | .decided => .finalised
  prepared : ids round.prepareSigs = tally.prepared
  committed : ids round.commitSigs = tally.committed

namespace Mirrors
variable {crates : Crates} {start : NodeState} {block : Block} {round : PbftRound} {tally : Tally String} {sig : BlockSignature}

variable (mirrors : Mirrors crates start block round tally)
include mirrors

theorem quorum_eq : round.quorum = start.quorum := by
  rw [PbftRound.quorum,mirrors.set,mirrors.config,NodeState.quorum]

theorem valid_iff {phase : String} :
    PbftRound.ValidEntry crates round.validatorSet phase (round.block.hash crates) sig.validatorId sig ↔
      start.counts crates block phase sig := by
  rw [NodeState.counts_iff,mirrors.set,mirrors.hash]

theorem prepare_iff : round.phase = .prepare ↔ tally.phase = .preparing := by
  rw [mirrors.phase]
  cases tally.phase <;> simp

theorem commit_iff : round.phase = .commit ↔ tally.phase = .committing := by
  rw [mirrors.phase]
  cases tally.phase <;> simp

theorem receivePrepare (sig : BlockSignature) (now : Nat) :
    (∃ e, round.receivePrepare crates now sig.validatorId sig = (round,.error e) ∧
      ¬(tally.phase = .preparing ∧ start.counts crates block "prepare" sig = true)) ∨
    (tally.phase = .preparing ∧ start.counts crates block "prepare" sig = true) ∧
      ∃ next, round.receivePrepare crates now sig.validatorId sig =
          (next,.ok (start.quorum ≤ (insert sig.validatorId tally.prepared).card)) ∧
        Mirrors crates start block next
          { tally with
            phase := if start.quorum ≤ (insert sig.validatorId tally.prepared).card then .committing else .preparing
            prepared := insert sig.validatorId tally.prepared } := by
  rw [← mirrors.prepare_iff,← mirrors.valid_iff,← mirrors.quorum_eq,← mirrors.prepared,← ids_insert _ _ sig,card_ids]
  obtain lost | ⟨takes,⟨enough,entered⟩ | ⟨few,entered⟩⟩ := round.receivePrepare_cases crates now sig.validatorId sig
  · exact .inl lost
  · have enough : round.quorum ≤ (round.prepareSigs.insert sig.validatorId sig).keys.length := enough
    rw [if_pos enough,decide_eq_true enough]
    exact .inr ⟨takes,_,entered,mirrors.hash,mirrors.set,mirrors.config,rfl,rfl,mirrors.committed⟩
  · have few : ¬round.quorum ≤ (round.prepareSigs.insert sig.validatorId sig).keys.length := not_le.mpr few
    rw [if_neg few,decide_eq_false few]
    exact .inr ⟨takes,_,entered,mirrors.hash,mirrors.set,mirrors.config,takes.1,rfl,mirrors.committed⟩

theorem receiveCommit (sig : BlockSignature) : (∃ e, round.receiveCommit crates sig.validatorId sig = (round,.error e) ∧
      ¬(tally.phase = .committing ∧ start.counts crates block "commit" sig = true)) ∨
    (tally.phase = .committing ∧ start.counts crates block "commit" sig = true) ∧
      ∃ next, round.receiveCommit crates sig.validatorId sig =
          (next,.ok (start.quorum ≤ (insert sig.validatorId tally.committed).card)) ∧
        Mirrors crates start block next
          { tally with
            phase := if start.quorum ≤ (insert sig.validatorId tally.committed).card then .decided else .committing
            committed := insert sig.validatorId tally.committed } := by
  rw [← mirrors.commit_iff,← mirrors.valid_iff,← mirrors.quorum_eq,← mirrors.committed,← ids_insert _ _ sig,card_ids]
  obtain lost | ⟨takes,⟨enough,entered⟩ | ⟨few,entered⟩⟩ := round.receiveCommit_cases crates sig.validatorId sig
  · exact .inl lost
  · have enough : round.quorum ≤ (round.commitSigs.insert sig.validatorId sig).keys.length := enough
    rw [if_pos enough,decide_eq_true enough]
    exact .inr ⟨takes,_,entered,mirrors.hash,mirrors.set,mirrors.config,rfl,mirrors.prepared,rfl⟩
  · have few : ¬round.quorum ≤ (round.commitSigs.insert sig.validatorId sig).keys.length := not_le.mpr few
    rw [if_neg few,decide_eq_false few]
    exact .inr ⟨takes,_,entered,mirrors.hash,mirrors.set,mirrors.config,takes.1,mirrors.prepared,rfl⟩

end Mirrors

section
variable {crates : Crates} {start : NodeState} {block : Block} {engine : PbftEngine}

theorem own_prepare {round : PbftRound} (found : engine.rounds.lookup (block.hash crates) = some round)
    (mirrors : Mirrors crates start block round ⟨.preparing,∅,∅⟩) (positive : 0 < start.quorum) (now : Nat) :
    (start.config.signPhase crates "prepare" (block.hash crates) = none →
      Mirrors crates start block round (.opened start.quorum (start.ownVoters crates block "prepare"))) ∧
    ∀ own, start.config.signPhase crates "prepare" (block.hash crates) = some own →
      ∃ next, (engine.prepare crates now (block.hash crates) own.validatorId own).1.rounds.lookup
        (block.hash crates) = some next ∧
        Mirrors crates start block next (.opened start.quorum (start.ownVoters crates block "prepare")) := by
  have unsigned : Tally.opened start.quorum (∅ : Finset String) = ⟨.preparing,∅,∅⟩ := by
    simp [Tally.opened,positive.ne']
  unfold NodeState.ownVoters
  constructor
  · intro keyless
    rw [keyless,unsigned]
    exact mirrors
  · intro own signed
    simp only [signed,PbftEngine.prepare,PbftEngine.lookup_onRound,if_true,found,map_some]
    refine ⟨_,rfl,?_⟩
    obtain ⟨e,refused,lost⟩ | ⟨⟨_,counted⟩,next,entered,after⟩ := mirrors.receivePrepare own now
    · rw [refused,if_neg (fun counted => lost ⟨rfl,counted⟩),unsigned]
      exact mirrors
    · rw [entered,if_pos counted]
      simpa [Tally.opened] using after

theorem own_commit (correct : crates.SignaturesCorrect) {round : PbftRound} {prepared : Finset String}
    (found : engine.rounds.lookup (block.hash crates) = some round)
    (mirrors : Mirrors crates start block round ⟨.committing,prepared,∅⟩)
    (short : (start.ownVoters crates block "prepare").card < start.quorum) :
    (start.config.signPhase crates "commit" (block.hash crates) = none →
      Mirrors crates start block round ⟨.committing,prepared,start.ownVoters crates block "prepare"⟩) ∧
    ∀ own, start.config.signPhase crates "commit" (block.hash crates) = some own →
      ∃ next, (engine.commit crates (block.hash crates) own.validatorId own).1.rounds.lookup (block.hash crates) = some next ∧
        Mirrors crates start block next ⟨.committing,prepared,start.ownVoters crates block "prepare"⟩ := by
  rw [← start.ownVoters_eq correct block "commit"] at short ⊢
  unfold NodeState.ownVoters at short ⊢
  constructor
  · intro keyless
    rw [keyless]
    exact mirrors
  · intro own signed
    simp only [signed,PbftEngine.commit,PbftEngine.lookup_onRound,if_true,found,map_some] at short ⊢
    refine ⟨_,rfl,?_⟩
    obtain ⟨e,refused,lost⟩ | ⟨⟨_,counted⟩,next,entered,after⟩ := mirrors.receiveCommit own
    · rw [refused,if_neg fun counted => lost ⟨rfl,counted⟩]
      exact mirrors
    · rw [if_pos counted,card_singleton] at short
      rw [entered,if_pos counted]
      simpa [not_le.mpr short] using after

end

end ChainRegistry
