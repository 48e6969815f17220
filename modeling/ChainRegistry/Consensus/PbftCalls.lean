import ChainRegistry.Common.IdealCrates
import ChainRegistry.Consensus.PbftQuorum

/-! The calls of a round and of the engine as events, and what holds of every
round after any sequence of them. -/
namespace ChainRegistry
open Lib Runs List

inductive RoundCall
  | prePrepare (now : Nat) (proposerId : String)
  | receivePrepare (now : Nat) (validatorId : String) (sig : BlockSignature)
  | receiveCommit (validatorId : String) (sig : BlockSignature)
  | recordViewChange (now : Nat) (validatorId : String) (newView : Nat)
  | triggerViewChange (now : Nat)

inductive EngineCall
  | startRound (now : Nat) (block : Block) (validatorSet : ValidatorSet)
  | prepare (now : Nat) (blockHash validatorId : String) (sig : BlockSignature)
  | commit (blockHash validatorId : String) (sig : BlockSignature)
  | receiveViewChange (now : Nat) (blockHash validatorId : String) (newView : Nat)
  | timeoutRounds (now : Nat)
  | cleanupStaleRounds (now : Nat)

section
variable (crates : Crates)

def PbftRound.call (round : PbftRound) : RoundCall → PbftRound
  | .prePrepare now proposerId => (round.prePrepare crates now proposerId).1
  | .receivePrepare now validatorId sig => (round.receivePrepare crates now validatorId sig).1
  | .receiveCommit validatorId sig => (round.receiveCommit crates validatorId sig).1
  | .recordViewChange now validatorId newView => (round.recordViewChange now validatorId newView).1
  | .triggerViewChange now => (round.triggerViewChange now).1

def PbftEngine.call (engine : PbftEngine) : EngineCall → PbftEngine
  | .startRound now block validatorSet => (engine.startRound crates now block validatorSet).1
  | .prepare now blockHash validatorId sig => (engine.prepare crates now blockHash validatorId sig).1
  | .commit blockHash validatorId sig => (engine.commit crates blockHash validatorId sig).1
  | .receiveViewChange now blockHash validatorId newView =>
    (engine.receiveViewChange now blockHash validatorId newView).1
  | .timeoutRounds now => (engine.timeoutRounds now).1
  | .cleanupStaleRounds now => (engine.cleanupStaleRounds now).1

variable {round : PbftRound} {hash : String} {sig : BlockSignature}

theorem PbftRound.Sound.call {crates : Crates} (sound : Sound crates round) (call : RoundCall) :
    Sound crates (round.call crates call) := by
  cases call with
  | prePrepare now proposerId => exact sound.prePrepare now proposerId
  | receivePrepare now validatorId sig => exact sound.receivePrepare now validatorId sig
  | receiveCommit validatorId sig => exact sound.receiveCommit validatorId sig
  | recordViewChange now validatorId newView => exact sound.recordViewChange now validatorId newView
  | triggerViewChange now => exact sound.triggerViewChange now

theorem PbftRound.call_fixed (round : PbftRound) (call : RoundCall) :
    (round.call crates call).block = round.block ∧ (round.call crates call).validatorSet = round.validatorSet ∧
      (round.call crates call).config = round.config := by
  cases call with
  | prePrepare now proposerId =>
    simp only [PbftRound.call,prePrepare]
    split <;> (try split) <;> exact ⟨rfl,rfl,rfl⟩
  | receivePrepare now validatorId sig =>
    obtain ⟨e,refused,_⟩ | ⟨_,⟨_,entered⟩ | ⟨_,entered⟩⟩ := receivePrepare_cases crates round now validatorId sig
    · simp [PbftRound.call,refused]
    · simp [PbftRound.call,entered]
    · simp [PbftRound.call,entered]
  | receiveCommit validatorId sig =>
    obtain ⟨e,refused,_⟩ | ⟨_,⟨_,entered⟩ | ⟨_,entered⟩⟩ := receiveCommit_cases crates round validatorId sig
    · simp [PbftRound.call,refused]
    · simp [PbftRound.call,entered]
    · simp [PbftRound.call,entered]
  | recordViewChange now validatorId newView =>
    simp only [PbftRound.call,recordViewChange,triggerViewChange]
    split <;> (try split) <;> exact ⟨rfl,rfl,rfl⟩
  | triggerViewChange now =>
    simp only [PbftRound.call,triggerViewChange]
    split <;> exact ⟨rfl,rfl,rfl⟩

theorem PbftRound.call_block (round : PbftRound) (call : RoundCall) : (round.call crates call).block = round.block :=
  (round.call_fixed crates call).1

theorem PbftRound.receivePrepare_block (round : PbftRound) (now : Nat) (id : String) (sig : BlockSignature) :
    (round.receivePrepare crates now id sig).1.block = round.block :=
  round.call_block crates (.receivePrepare now id sig)

theorem PbftRound.receiveCommit_block (round : PbftRound) (id : String) (sig : BlockSignature) :
    (round.receiveCommit crates id sig).1.block = round.block :=
  round.call_block crates (.receiveCommit id sig)

def PbftRound.opened (now : Nat) (block : Block) (set : ValidatorSet) (config : PbftConfig) : PbftRound :=
  {PbftRound.withConfig now block set config with phase := .prepare}

namespace PbftEngine
def withRound (engine : PbftEngine) (hash : String) (round : PbftRound) : PbftEngine :=
  {engine with rounds := engine.rounds.insert hash round}

@[simp] theorem lookup_withRound (engine : PbftEngine) (hash other : String) (round : PbftRound) :
    (engine.withRound hash round).rounds.lookup other =
      if other = hash then some round else engine.rounds.lookup other :=
  Table.lookup_insert_eq _ _ _ _

def EveryRound (P : String → PbftRound → Prop) (engine : PbftEngine) : Prop :=
  ∀ hash round, engine.rounds.lookup hash = some round → P hash round

theorem startRound_cases (engine : PbftEngine) (now : Nat) (block : Block) (set : ValidatorSet) :
    (∃ e, (PbftRound.withConfig now block set engine.config).checkProposer crates block.header.proposerId =
        .error e ∧ engine.startRound crates now block set = (engine,.error e)) ∨
    ((PbftRound.withConfig now block set engine.config).checkProposer crates block.header.proposerId = .ok () ∧
      engine.startRound crates now block set =
        (engine.withRound (block.hash crates) (PbftRound.opened now block set engine.config),
          .ok (block.hash crates))) := by
  unfold startRound PbftRound.prePrepare
  rw [if_neg (by simp [PbftRound.withConfig])]
  cases checked : (PbftRound.withConfig now block set engine.config).checkProposer crates
    block.header.proposerId with
  | error e => exact .inl ⟨e,rfl,rfl⟩
  | ok done => exact .inr ⟨rfl,rfl⟩

variable {α : Type}

theorem onRound_found (engine : PbftEngine) (method : PbftRound → PbftRound × Except String α)
    {round : PbftRound} (found : engine.rounds.lookup hash = some round) :
    engine.onRound hash method = (engine.withRound hash (method round).1,(method round).2) := by
  simp [onRound,found,withRound]

theorem lookup_onRound (engine : PbftEngine) (hash other : String) (method : PbftRound → PbftRound × Except String α) :
    (engine.onRound other method).1.rounds.lookup hash =
      if hash = other then (engine.rounds.lookup hash).map (fun round => (method round).1)
      else engine.rounds.lookup hash := by
  cases found : engine.rounds.lookup other with
  | none =>
    simp only [PbftEngine.onRound,found]
    split_ifs with same
    · rw [same,found]; rfl
    · rfl
  | some entry =>
    rw [engine.onRound_found method found,lookup_withRound]
    split_ifs with same
    · rw [same,found]; rfl
    · rfl

variable {crates} {P : String → PbftRound → Prop} {engine : PbftEngine}

theorem config_onRound (engine : PbftEngine) (hash : String) (method : PbftRound → PbftRound × Except String α) :
    (engine.onRound hash method).1.config = engine.config := by
  unfold onRound
  split <;> rfl

theorem EveryRound.insert (every : EveryRound P engine) {round : PbftRound} (new : P hash round) :
    EveryRound P (engine.withRound hash round) := by
  intro other entry present
  rw [lookup_withRound] at present
  split_ifs at present with same
  · cases present
    exact same ▸ new
  · exact every other entry present

theorem EveryRound.onRound (every : EveryRound P engine) (hash : String) (method : PbftRound → PbftRound × Except String α)
    (keeps : ∀ round, P hash round → P hash (method round).1) : EveryRound P (engine.onRound hash method).1 := by
  cases found : engine.rounds.lookup hash with
  | none =>
    simp only [PbftEngine.onRound,found]
    exact every
  | some round =>
    rw [engine.onRound_found method found]
    exact every.insert (keeps round (every hash round found))

theorem EveryRound.timeoutRounds (every : EveryRound P engine) (now : Nat)
    (keeps : ∀ hash round, P hash round → P hash (round.triggerViewChange now).1) :
    EveryRound P (engine.timeoutRounds now).1 := by
  -- the fold visits one round after the other; its signals play no part
  have fold : ∀ (hashes : List String) (progress : PbftEngine × List ViewChangeSignal), EveryRound P progress.1 →
      EveryRound P (hashes.foldl (timeoutRound now) progress).1 := by
    intro hashes
    induction hashes with
    | nil => exact fun _ holds => holds
    | cons hash hashes ih =>
      intro progress holds
      apply ih
      have next := holds.onRound hash (PbftRound.triggerViewChange now) (keeps hash)
      unfold timeoutRound
      split <;> simp_all
  exact fold _ _ every

theorem EveryRound.cleanupStaleRounds (every : EveryRound P engine) (now : Nat) :
    EveryRound P (engine.cleanupStaleRounds now).1 := by
  have fold : ∀ (hashes : List String) (rounds : Table String PbftRound) (hash : String) (round : PbftRound),
      (hashes.foldl (fun rounds hash => rounds.erase hash) rounds).lookup hash = some round →
      rounds.lookup hash = some round := by
    intro hashes
    induction hashes with
    | nil => exact fun _ _ _ found => found
    | cons gone hashes ih =>
      intro rounds hash round found
      have kept := ih _ hash round found
      rw [Table.lookup_erase_eq] at kept
      split_ifs at kept
      exact kept
  intro hash round found
  exact every hash round (fold _ _ hash round found)

/-- The rule for a property of single rounds: what opening gives and each method keeps, the engine keeps. -/
theorem EveryRound.call (every : EveryRound P engine)
    (starts : ∀ now block set, P (block.hash crates) (PbftRound.opened now block set engine.config))
    (keeps : ∀ hash round call, P hash round → P hash (round.call crates call)) (call : EngineCall) :
    EveryRound P (engine.call crates call) := by
  cases call with
  | startRound now block set =>
    obtain ⟨e,_,refused⟩ | ⟨_,opened⟩ := startRound_cases crates engine now block set
    · simp only [PbftEngine.call,refused]
      exact every
    · simp only [PbftEngine.call,opened]
      exact every.insert (starts now block set)
  | prepare now hash id sig => exact every.onRound hash _ (fun round => keeps hash round (.receivePrepare now id sig))
  | commit hash id sig => exact every.onRound hash _ (fun round => keeps hash round (.receiveCommit id sig))
  | receiveViewChange now hash id newView =>
    exact every.onRound hash _ (fun round => keeps hash round (.recordViewChange now id newView))
  | timeoutRounds now => exact every.timeoutRounds now (fun hash round => keeps hash round (.triggerViewChange now))
  | cleanupStaleRounds now => exact every.cleanupStaleRounds now

theorem onRound_reached (stage : PbftRound.Stage) {engine next : PbftEngine} {hash id : String}
    (reached : engine.onRound hash (stage.receive crates id sig) = (next,.ok true)) :
    ∃ round, engine.rounds.lookup hash = some round ∧ stage.Takes crates round id sig ∧
      (stage.enter round id sig).quorum ≤ (stage.sigs (stage.enter round id sig)).keys.length ∧
      next = engine.withRound hash (stage.advance (stage.enter round id sig)) := by
  cases found : engine.rounds.lookup hash with
  | none => simp [PbftEngine.onRound,found] at reached
  | some round =>
    rw [engine.onRound_found _ found] at reached
    obtain ⟨e,refused,_⟩ | ⟨takes,⟨enough,entered⟩ | ⟨_,entered⟩⟩ := stage.receive_outcome crates round id sig
    · simp [refused] at reached
    · rw [entered] at reached
      cases reached
      exact ⟨round,rfl,takes,enough,rfl⟩
    · simp [entered] at reached

theorem commit_reached {engine next : PbftEngine} {hash id : String}
    (reached : engine.commit crates hash id sig = (next,.ok true)) :
    ∃ round sigs, engine.rounds.lookup hash = some round ∧ round.phase = .commit ∧
      round.quorum ≤ round.commitSigs.keys.length + 1 ∧
      next = engine.withRound hash {round with commitSigs := sigs, phase := .finalised} := by
  obtain ⟨round,found,takes,enough,rfl⟩ := onRound_reached .commit reached
  have more : (round.commitSigs.insert id sig).keys.length ≤ round.commitSigs.keys.length + 1 := by
    rw [AList.keys_insert,length_cons]
    exact Nat.succ_le_succ (length_erase_le)
  exact ⟨round,_,found,takes.1,enough.trans more,rfl⟩

end PbftEngine

structure CommitCertificate (set : ValidatorSet) (quorum : Nat) (block : Block) : Prop where
  enough : quorum ≤ block.pbftSignatures.length
  distinct : (block.pbftSignatures.map BlockSignature.validatorId).Nodup
  valid : ∀ sig ∈ block.pbftSignatures,
    PbftRound.ValidEntry crates set "commit" (block.hash crates) sig.validatorId sig

variable {crates}

private theorem ids_eq_keys (sigs : Table String BlockSignature)
    (own : ∀ id sig, sigs.lookup id = some sig → sig.validatorId = id) :
    sigs.values.map BlockSignature.validatorId = sigs.keys := by
  simp only [Table.values,AList.keys,List.keys,map_map]
  apply map_congr_left
  intro entry inside
  exact own entry.1 entry.2 (AList.mem_lookup_iff.mpr inside)

theorem PbftRound.Sound.certificate (sound : Sound crates round) (final : round.phase = .finalised) :
    CommitCertificate crates round.validatorSet round.quorum
      {round.block with pbftSignatures := round.finalisedSignatures} := by
  have ids := ids_eq_keys round.commitSigs (fun id sig found => (sound.commits id sig found).own)
  refine ⟨?_,?_,?_⟩
  · simpa [finalisedSignatures] using sound.committed final
  · rw [finalisedSignatures,ids]
    exact round.commitSigs.nodupKeys
  · intro sig inside
    obtain ⟨id,found⟩ := (Table.mem_values_iff round.commitSigs sig).mp inside
    have valid := sound.commits id sig found
    rw [valid.own]
    exact valid

variable {engine : PbftEngine}

theorem getFinalisedBlock_eq_some {block : Block} (final : engine.getFinalisedBlock hash = some block) :
    ∃ round, engine.rounds.lookup hash = some round ∧ round.phase = .finalised ∧
      block = {round.block with pbftSignatures := round.finalisedSignatures} := by
  unfold PbftEngine.getFinalisedBlock at final
  split at final
  · cases final
  · rename_i round found
    split_ifs at final with phase
    cases final
    exact ⟨round,found,phase,rfl⟩

def KeptRound (crates : Crates) (hash : String) (round : PbftRound) : Prop :=
  round.block.hash crates = hash ∧ round.Sound crates

theorem keptRounds_call (every : engine.EveryRound (KeptRound crates)) (call : EngineCall) :
    (engine.call crates call).EveryRound (KeptRound crates) := by
  apply every.call
  · intro now block set
    have opened : PbftRound.Sound crates _ := .withConfig now block set engine.config
    exact ⟨rfl,opened.rephase rfl rfl rfl rfl (.inl ⟨by simp [PbftRound.opened],by simp [PbftRound.opened]⟩)⟩
  · intro hash round call ⟨same,sound⟩
    refine ⟨?_,sound.call call⟩
    rw [← same,round.call_block]

theorem PbftEngine.call_config (engine : PbftEngine) (call : EngineCall) : (engine.call crates call).config = engine.config := by
  cases call with
  | startRound now block set =>
    obtain ⟨e,_,refused⟩ | ⟨_,opened⟩ := startRound_cases crates engine now block set
    · simp only [PbftEngine.call,refused]
    · simp only [PbftEngine.call,opened]
      rfl
  | prepare now hash id sig | commit hash id sig | receiveViewChange now hash id newView => exact config_onRound engine hash _
  | timeoutRounds now =>
    have fold : ∀ (hashes : List String) (progress : PbftEngine × List ViewChangeSignal),
        (hashes.foldl (timeoutRound now) progress).1.config = progress.1.config := by
      intro hashes
      induction hashes with
      | nil => exact fun _ => rfl
      | cons hash hashes ih =>
        intro progress
        have kept := config_onRound progress.1 hash (PbftRound.triggerViewChange now)
        rw [foldl_cons,ih,timeoutRound]
        split <;> simp_all
    exact fold _ _
  | cleanupStaleRounds now => rfl

theorem PbftEngine.rounds_run (config : PbftConfig) (calls : List EngineCall)
    (found : (run (PbftEngine.call crates) (PbftEngine.withConfig config) calls).rounds.lookup hash = some round) :
    KeptRound crates hash round ∧ round.config = config := by
  have kept : (run (PbftEngine.call crates) (PbftEngine.withConfig config) calls).config = config ∧
      (run (PbftEngine.call crates) (PbftEngine.withConfig config) calls).EveryRound (KeptRound crates) ∧
      (run (PbftEngine.call crates) (PbftEngine.withConfig config) calls).EveryRound
        (fun _ round => round.config = config) := by
    apply kept_run (fun engine : PbftEngine => engine.config = config ∧ engine.EveryRound (KeptRound crates) ∧
      engine.EveryRound (fun _ round => round.config = config)) calls
    · intro engine call _ ⟨same,sound,configs⟩
      refine ⟨(engine.call_config call).trans same,keptRounds_call sound call,configs.call ?_ ?_ call⟩
      · exact fun _ _ _ => same
      · exact fun _ round call held => (round.call_fixed crates call).2.2.trans held
    · refine ⟨rfl,?_,?_⟩
      all_goals
        intro hash round found
        simp [PbftEngine.withConfig] at found
  exact ⟨kept.2.1 hash round found,kept.2.2 hash round found⟩

/-- After any calls of a round and of an engine: a finalised round holds both of its
quorums, and a block that the engine returns as finalised carries a commit certificate. -/
theorem finalised_rounds_hold_quorums (crates : Crates) : (∀ now block set config calls,
      let round := run (PbftRound.call crates) (PbftRound.withConfig now block set config) calls
      round.phase = .finalised →
        PbftRound.PhaseQuorum crates round "commit" round.commitSigs ∧
        PbftRound.PhaseQuorum crates round "prepare" round.prepareSigs) ∧
    (∀ config calls hash block,
      let engine := run (PbftEngine.call crates) (PbftEngine.withConfig config) calls
      engine.getFinalisedBlock hash = some block →
        ∃ round, engine.rounds.lookup hash = some round ∧ block.hash crates = hash ∧
          CommitCertificate crates round.validatorSet round.quorum block) := by
  constructor
  · intro now block set config calls round final
    have sound : PbftRound.Sound crates round := by
      apply always_run
      · exact fun _ call holds => holds.call call
      · exact PbftRound.Sound.withConfig now block set config
    exact ⟨⟨sound.committed final,round.commitSigs.nodupKeys,sound.commits⟩,
      ⟨sound.prepared (.inr final),round.prepareSigs.nodupKeys,sound.prepares⟩⟩
  · intro config calls hash block engine final
    have every : engine.EveryRound (KeptRound crates) := by
      apply always_run
      · exact fun _ call holds => keptRounds_call holds call
      · intro hash round found
        simp [PbftEngine.withConfig] at found
    obtain ⟨round,found,phase,rfl⟩ := getFinalisedBlock_eq_some final
    obtain ⟨same,sound⟩ := every hash round found
    exact ⟨round,found,same,sound.certificate phase⟩

end

namespace Solo
def validators : ValidatorSet := ValidatorSet.new.add ⟨"v","01",none,100,100,true⟩

def block : Block where
  header :=
    { height := 1, prevHash := "A", merkleRoot := "m", proposerId := "v", timestamp := 0
      validatorSetHash := "s", vrfOutput := none, vrfProof := none }
  transactions := []
  pbftSignatures := []

def crates : Crates := Ideal.crates [Block.genesis.header,block.header] Ideal.checksum

def signature (phase : String) : BlockSignature where
  validatorId := "v"
  pubkey := "01"
  signature := Text.hexEncode (crates.sign [1] (Text.bytes (pbftSignatureMessage phase (block.hash crates))))

def config : PbftConfig := ⟨30,3,600,false⟩

def calls : List EngineCall :=
  [.startRound 0 block validators,.prepare 0 (block.hash crates) "v" (signature "prepare"),
    .commit (block.hash crates) "v" (signature "commit")]

def engine : PbftEngine := run (PbftEngine.call crates) (PbftEngine.withConfig config) calls

end Solo

/-! Four validators, of which any three are a quorum. -/
namespace Quartet
def members : ValidatorSet :=
  [("a","01"),("b","02"),("c","03"),("d","04")].foldl (fun set v => set.add ⟨v.1,v.2,none,100,100,true⟩) .new

def proposal (merkleRoot : String) : Block :=
  {Solo.block with header := {Solo.block.header with merkleRoot := merkleRoot, proposerId := "a"}}

def twoCrates : Crates := Ideal.crates [Block.genesis.header,(proposal "m").header,(proposal "n").header] Ideal.checksum

def signedBy (block : Block) (phase : String) (signer : String × UInt8) : BlockSignature where
  validatorId := signer.1
  pubkey := Text.hexEncode [signer.2]
  signature := Text.hexEncode (twoCrates.sign [signer.2] (Text.bytes (pbftSignatureMessage phase (block.hash twoCrates))))

def calls (block : Block) (signers : List (String × UInt8)) : List EngineCall :=
  .startRound 0 block members ::
    (signers.map fun signer => .prepare 0 (block.hash twoCrates) signer.1 (signedBy block "prepare" signer)) ++
    signers.map fun signer => .commit (block.hash twoCrates) signer.1 (signedBy block "commit" signer)

def engine : PbftEngine :=
  run (PbftEngine.call twoCrates) (PbftEngine.withConfig Solo.config) (calls (proposal "m") [("a",1),("b",2),("c",3)])

end Quartet
open Quartet

theorem quartet_certificate :
    let block := proposal "m"
    let certified := {block with pbftSignatures := [("c",3),("b",2),("a",1)].map (signedBy block "commit")}
    engine.getFinalisedBlock (block.hash twoCrates) = some certified ∧
      ∃ round, engine.rounds.lookup (block.hash twoCrates) = some round ∧
        CommitCertificate twoCrates round.validatorSet round.quorum certified := by
  intro block certified
  have final : engine.getFinalisedBlock (block.hash twoCrates) = some certified := by decide +kernel
  obtain ⟨round,found,_,certificate⟩ := (finalised_rounds_hold_quorums twoCrates).2 Solo.config _ _ _ final
  exact ⟨final,round,found,certificate⟩

end ChainRegistry
