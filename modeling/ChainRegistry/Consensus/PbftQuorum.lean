import ChainRegistry.Consensus.Pbft
import ChainRegistry.Lib.Runs
import ChainRegistry.Lib.Fallible

/-! What a finalised round has collected. Every entry of the signature tables has passed
`verify_block_signature`, and a phase is entered only with a quorum of entries for the phase before.
-/
namespace ChainRegistry
open Lib Fallible Text

def SignedPhase (crates : Crates) (phase blockHash pubkeyHex signatureHex : String) : Prop :=
  ∃ key sig, hexDecode (normalisedPubkey pubkeyHex) = .ok key ∧ crates.verifyingKey key = .ok () ∧
    hexDecode (trimStartHexMark signatureHex) = .ok sig ∧ crates.signatureFormat sig = .ok () ∧
    crates.verify key (bytes (pbftSignatureMessage phase blockHash)) sig = .ok ()

theorem verifyPbftPhaseSignature_iff (crates : Crates) (phase blockHash pubkeyHex signatureHex : String) :
    verifyPbftPhaseSignature crates phase blockHash pubkeyHex signatureHex = .ok () ↔
      SignedPhase crates phase blockHash pubkeyHex signatureHex := by
  simp only [verifyPbftPhaseSignature,bind_ok,mapError_ok,SignedPhase]
  constructor
  · rintro ⟨key,decoded,_,accepted,sig,signature,_,formatted,verified⟩
    exact ⟨key,sig,decoded,accepted,signature,formatted,verified⟩
  · rintro ⟨key,sig,decoded,accepted,signature,formatted,verified⟩
    exact ⟨key,decoded,(),accepted,sig,signature,(),formatted,verified⟩

namespace PbftRound
structure ValidEntry (crates : Crates) (set : ValidatorSet) (phase blockHash id : String)
    (sig : BlockSignature) : Prop where
  own : sig.validatorId = id
  member : ∃ v, set.validators.lookup id = some v ∧ v.isActive ∧
    normalisedPubkey sig.pubkey = normalisedPubkey v.pubkey ∧
    SignedPhase crates phase blockHash (normalisedPubkey v.pubkey) sig.signature

variable (crates : Crates) {round : PbftRound} {sig : BlockSignature} {id : String}

theorem verifyBlockSignature_iff (round : PbftRound) (phase id : String) (sig : BlockSignature) :
    round.verifyBlockSignature crates phase id sig = .ok () ↔
      ValidEntry crates round.validatorSet phase (round.block.hash crates) id sig := by
  unfold verifyBlockSignature
  rw [check_ok]
  cases found : round.validatorSet.validators.lookup id with
  | none =>
    simp only [throw_ok,and_false,false_iff]
    rintro ⟨_,v,present,_⟩
    rw [found] at present
    cases present
  | some v =>
    simp only [check_ok,verifyPbftPhaseSignature_iff]
    constructor
    · rintro ⟨own,active,keys,signed⟩
      exact ⟨by simpa using own,v,found,by simpa using active,by simpa using keys,signed⟩
    · rintro ⟨own,other,present,active,keys,signed⟩
      rw [found,Option.some.injEq] at present
      subst present
      exact ⟨by simpa using own,by simpa using active,by simpa using keys,signed⟩

structure Stage where
  phase : PbftPhase
  (word closed : String)
  sigs : PbftRound → Table String BlockSignature
  enter : PbftRound → String → BlockSignature → PbftRound
  advance : PbftRound → PbftRound

namespace Stage
@[simp] def prepare (now : Nat) : Stage where
  phase := .prepare
  word := "prepare"
  closed := "Not in PREPARE phase"
  sigs := prepareSigs
  enter round id sig := {round with prepareSigs := round.prepareSigs.insert id sig}
  advance round := {round with phase := .commit, phaseEnteredAt := now}

@[simp] def commit : Stage where
  phase := .commit
  word := "commit"
  closed := "Not in COMMIT phase"
  sigs := commitSigs
  enter round id sig := {round with commitSigs := round.commitSigs.insert id sig}
  advance round := {round with phase := .finalised}

variable (stage : Stage)

def receive (id : String) (sig : BlockSignature) (round : PbftRound) : PbftRound × Except String Bool :=
  if round.phase ≠ stage.phase then (round,.error stage.closed)
  else
    match round.verifyBlockSignature crates stage.word id sig with
    | .error e => (round,.error e)
    | .ok () =>
      if (stage.enter round id sig).quorum ≤ (stage.sigs (stage.enter round id sig)).keys.length then
        (stage.advance (stage.enter round id sig),.ok true)
      else (stage.enter round id sig,.ok false)

def Takes (round : PbftRound) (id : String) (sig : BlockSignature) : Prop :=
  round.phase = stage.phase ∧ ValidEntry crates round.validatorSet stage.word (round.block.hash crates) id sig

def Outcome (round : PbftRound) (id : String) (sig : BlockSignature) (result : PbftRound × Except String Bool) :
    Prop :=
  (∃ e, result = (round,.error e) ∧ ¬stage.Takes crates round id sig) ∨
    stage.Takes crates round id sig ∧
      ((stage.enter round id sig).quorum ≤ (stage.sigs (stage.enter round id sig)).keys.length ∧
          result = (stage.advance (stage.enter round id sig),.ok true) ∨
        (stage.sigs (stage.enter round id sig)).keys.length < (stage.enter round id sig).quorum ∧
          result = (stage.enter round id sig,.ok false))

theorem receive_outcome (round : PbftRound) (id : String) (sig : BlockSignature) :
    stage.Outcome crates round id sig (stage.receive crates id sig round) := by
  unfold receive
  by_cases inPhase : round.phase = stage.phase
  · rw [if_neg (not_not.mpr inPhase)]
    have valid := verifyBlockSignature_iff crates round stage.word id sig
    cases checked : round.verifyBlockSignature crates stage.word id sig with
    | error e => exact .inl ⟨e,rfl,fun takes => by simp [valid.mpr takes.2] at checked⟩
    | ok done =>
      refine .inr ⟨⟨inPhase,valid.mp checked⟩,?_⟩
      split_ifs with enough
      · exact .inl ⟨enough,rfl⟩
      · exact .inr ⟨not_le.mp enough,rfl⟩
  · exact .inl ⟨_,if_pos inPhase,fun takes => inPhase takes.1⟩

end Stage

theorem receivePrepare_cases (round : PbftRound) (now : Nat) (id : String) (sig : BlockSignature) :
    (Stage.prepare now).Outcome crates round id sig (round.receivePrepare crates now id sig) :=
  (Stage.prepare now).receive_outcome crates round id sig

theorem receiveCommit_cases (round : PbftRound) (id : String) (sig : BlockSignature) :
    Stage.commit.Outcome crates round id sig (round.receiveCommit crates id sig) :=
  Stage.commit.receive_outcome crates round id sig

structure PhaseQuorum (round : PbftRound) (phase : String) (sigs : Table String BlockSignature) : Prop where
  enough : round.quorum ≤ sigs.keys.length
  distinct : sigs.keys.Nodup
  valid : ∀ id sig, sigs.lookup id = some sig →
    ValidEntry crates round.validatorSet phase (round.block.hash crates) id sig

structure Sound (round : PbftRound) : Prop where
  prepares : ∀ id sig, round.prepareSigs.lookup id = some sig →
    ValidEntry crates round.validatorSet "prepare" (round.block.hash crates) id sig
  commits : ∀ id sig, round.commitSigs.lookup id = some sig →
    ValidEntry crates round.validatorSet "commit" (round.block.hash crates) id sig
  prepared : round.phase = .commit ∨ round.phase = .finalised → round.quorum ≤ round.prepareSigs.keys.length
  committed : round.phase = .finalised → round.quorum ≤ round.commitSigs.keys.length

variable {crates}

theorem Sound.withConfig (now : Nat) (block : Block) (set : ValidatorSet) (config : PbftConfig) :
    Sound crates (withConfig now block set config) := by
  refine ⟨?_,?_,?_,?_⟩ <;> simp [PbftRound.withConfig]

theorem Sound.rephase {round changed : PbftRound} (sound : Sound crates round)
    (block : changed.block = round.block) (set : changed.validatorSet = round.validatorSet)
    (prepares : changed.prepareSigs = round.prepareSigs) (commits : changed.commitSigs = round.commitSigs)
    (early : changed.phase ≠ .commit ∧ changed.phase ≠ .finalised ∨
      changed.phase = round.phase ∧ changed.config = round.config) : Sound crates changed := by
  have same : changed.phase = round.phase ∧ changed.config = round.config → changed.quorum = round.quorum := by
    rintro ⟨_,config⟩
    simp only [quorum,set,config]
  refine ⟨?_,?_,?_,?_⟩
  · rw [block,set,prepares]
    exact sound.prepares
  · rw [block,set,commits]
    exact sound.commits
  · intro later
    rcases early with ⟨notCommit,notFinal⟩ | kept
    · exact absurd later (by simp [notCommit,notFinal])
    · rw [same kept,prepares]
      exact sound.prepared (kept.1 ▸ later)
  · intro final
    rcases early with ⟨_,notFinal⟩ | kept
    · exact absurd final notFinal
    · rw [same kept,commits]
      exact sound.committed (kept.1 ▸ final)

private theorem valid_insert {P : String → BlockSignature → Prop} {table : Table String BlockSignature}
    (old : ∀ key entry, table.lookup key = some entry → P key entry) (new : P id sig) :
    ∀ key entry, (table.insert id sig).lookup key = some entry → P key entry := by
  intro key entry found
  rw [Table.lookup_insert_eq] at found
  split_ifs at found with same
  · cases found
    exact same ▸ new
  · exact old key entry found

section
variable (sound : Sound crates round)
include sound

variable (now : Nat)

theorem Sound.prePrepare (proposer : String) : Sound crates (round.prePrepare crates now proposer).1 := by
  unfold PbftRound.prePrepare
  split_ifs with inPhase
  · exact sound
  · split
    · exact sound
    · exact sound.rephase rfl rfl rfl rfl (.inl ⟨by simp,by simp⟩)

theorem Sound.receivePrepare (id : String) (sig : BlockSignature) :
    Sound crates (round.receivePrepare crates now id sig).1 := by
  obtain ⟨e,refused,_⟩ | ⟨⟨inPhase,valid⟩,⟨enough,entered⟩ | ⟨few,entered⟩⟩ :=
    receivePrepare_cases crates round now id sig
  · rw [refused]
    exact sound
  · rw [entered]
    exact ⟨valid_insert sound.prepares valid,sound.commits,fun _ => enough,by simp⟩
  · rw [entered]
    exact ⟨valid_insert sound.prepares valid,sound.commits,by simp [inPhase],by simp [inPhase]⟩

theorem Sound.receiveCommit (id : String) (sig : BlockSignature) : Sound crates (round.receiveCommit crates id sig).1 := by
  obtain ⟨e,refused,_⟩ | ⟨⟨inPhase,valid⟩,⟨enough,entered⟩ | ⟨few,entered⟩⟩ :=
    receiveCommit_cases crates round id sig
  · rw [refused]
    exact sound
  · rw [entered]
    exact ⟨sound.prepares,valid_insert sound.commits valid,fun _ => sound.prepared (.inl inPhase),
      fun _ => enough⟩
  · rw [entered]
    exact ⟨sound.prepares,valid_insert sound.commits valid,fun _ => sound.prepared (.inl inPhase),
      by simp [inPhase]⟩

theorem Sound.triggerViewChange : Sound crates (round.triggerViewChange now).1 := by
  unfold PbftRound.triggerViewChange
  split_ifs with exhausted
  · exact sound.rephase rfl rfl rfl rfl (.inl ⟨by simp,by simp⟩)
  · refine ⟨?_,?_,?_,?_⟩ <;> simp

theorem Sound.recordViewChange (id : String) (newView : Nat) :
    Sound crates (round.recordViewChange now id newView).1 := by
  unfold PbftRound.recordViewChange
  have voted : Sound crates {round with
      viewChangeVotes := round.viewChangeVotes.insert newView (round.votesWith id newView)} :=
    sound.rephase rfl rfl rfl rfl (.inr ⟨rfl,rfl⟩)
  simp only
  split_ifs with enough
  · exact voted.triggerViewChange now
  · exact voted

end

end PbftRound
end ChainRegistry
