import ChainRegistry.Consensus.ValidatorSet

/-! Three-phase PBFT: `crates/consensus/src/pbft.rs`. A method on `&mut self` returns the state it
leaves beside its result, also when it fails. Instants are arguments. -/
namespace ChainRegistry
open Lib Text

def pbftSignatureMessage (phase blockHash : String) : String :=
  "creg-pbft-v1" ++ ":" ++ phase ++ ":" ++ blockHash

/-- `trim_start_matches("0x").to_ascii_lowercase()`, the form in which keys are compared. -/
def normalisedPubkey (pubkey : String) : String := toAsciiLowercase (trimStartHexMark pubkey)

def verifyPbftPhaseSignature (crates : Crates) (phase blockHash pubkeyHex signatureHex : String) : Except String Unit := do
  let pubkeyBytes ← (hexDecode (normalisedPubkey pubkeyHex)).mapError
    (fun e => "Invalid validator pubkey hex for PBFT " ++ phase ++ ": " ++ e)
  (crates.verifyingKey pubkeyBytes).mapError
    (fun e => "Invalid validator pubkey for PBFT " ++ phase ++ ": " ++ e)
  let signatureBytes ← (hexDecode (trimStartHexMark signatureHex)).mapError
    (fun e => "Invalid PBFT " ++ phase ++ " signature hex: " ++ e)
  (crates.signatureFormat signatureBytes).mapError
    (fun e => "Invalid PBFT " ++ phase ++ " signature format: " ++ e)
  (crates.verify pubkeyBytes (bytes (pbftSignatureMessage phase blockHash)) signatureBytes).mapError
    (fun e => "Invalid PBFT " ++ phase ++ " signature: " ++ e)

structure PbftConfig where
  (roundPhaseTimeout maxViewChanges staleRoundTtl : Nat)
  allowSmallClusterQuorum : Bool

/-- A word that is in neither list leaves the default in place. -/
def envFlag (value : Option String) (default : Bool) : Bool :=
  match value.map (fun text => toAsciiLowercase (trim text)) with
  | none => default
  | some word =>
    if word ∈ ["1","true","yes","on"] then true
    else if word ∈ ["0","false","no","off"] then false
    else default

def PbftConfig.default (roundPhaseTimeout maxViewChanges staleRoundTtl : Nat) (smallCluster : Option String) : PbftConfig where
  roundPhaseTimeout := roundPhaseTimeout
  maxViewChanges := maxViewChanges
  staleRoundTtl := staleRoundTtl
  allowSmallClusterQuorum := envFlag smallCluster false

inductive PbftPhase
  | prePrepare | prepare | commit | finalised | failed
  deriving DecidableEq

structure ViewChangeSignal where
  blockHash : String
  newView : Nat

def quorumThreshold (validatorCount : Nat) (allowSmallClusterQuorum : Bool) : Nat :=
  match validatorCount with
  | 0 => 0
  | n => if n = 3 ∧ allowSmallClusterQuorum then 2 else 2 * n / 3 + 1

theorem quorumThreshold_false {validatorCount : Nat} (nonempty : 0 < validatorCount) :
    quorumThreshold validatorCount false = 2 * validatorCount / 3 + 1 := by
  cases validatorCount with
  | zero => cases nonempty
  | succ n => simp [quorumThreshold]

structure PbftRound where
  block : Block
  phase : PbftPhase
  (prepareSigs commitSigs : Table String BlockSignature)
  validatorSet : ValidatorSet
  (phaseEnteredAt viewNumber viewChangeCount createdAt : Nat)
  config : PbftConfig
  viewChangeVotes : Table Nat (Finset String)

namespace PbftRound
def withConfig (now : Nat) (block : Block) (validatorSet : ValidatorSet) (config : PbftConfig) : PbftRound where
  block := block
  phase := .prePrepare
  prepareSigs := ∅
  commitSigs := ∅
  validatorSet := validatorSet
  phaseEnteredAt := now
  viewNumber := 0
  viewChangeCount := 0
  createdAt := now
  config := config
  viewChangeVotes := ∅

def quorum (round : PbftRound) : Nat :=
  quorumThreshold round.validatorSet.len round.config.allowSmallClusterQuorum

variable (crates : Crates) (round : PbftRound) (proposerId : String)

/-- A VRF proof is checked only when the header carries both of its parts. -/
def checkVrf : Except String Unit :=
  match round.block.header.vrfProof, round.block.header.vrfOutput with
  | some proof, some output =>
    match round.validatorSet.validators.lookup proposerId with
    | none => .error ("Proposer " ++ proposerId ++ " not found in validator set")
    | some validator =>
      (Vrf.verify crates (bytes round.block.header.prevHash) validator.pubkey output proof).mapError
        (fun e => "VRF verification failed for proposer " ++ proposerId ++ ": " ++ e)
  | _, _ => .ok ()

def checkSelected : Except String Unit :=
  let active := round.validatorSet.active.map fun v => ⟨v.id,v.pubkey,none,none⟩
  match Vrf.selectProposerDeterministic crates active round.block.header.prevHash with
  | none => .error "No active validators to select proposer"
  | some selected =>
    if selected = proposerId then .ok ()
    else .error ("Proposer " ++ proposerId ++ " is not the selected proposer for this epoch (expected " ++
      selected ++ ")")

def checkProposer : Except String Unit := do
  if !round.validatorSet.isMember proposerId then
    throw ("Proposer " ++ proposerId ++ " is not in the validator set")
  round.checkVrf crates proposerId
  round.checkSelected crates proposerId

variable (now : Nat)

def prePrepare (proposerId : String) (round : PbftRound) : PbftRound × Except String String :=
  if round.phase ≠ .prePrepare then (round,.error "Not in PRE-PREPARE phase")
  else
    match round.checkProposer crates proposerId with
    | .error e => (round,.error e)
    | .ok () => ({round with phase := .prepare, phaseEnteredAt := now},.ok (round.block.hash crates))

def verifyBlockSignature (phase validatorId : String) (sig : BlockSignature) : Except String Unit := do
  if sig.validatorId ≠ validatorId then
    throw ("PBFT " ++ phase ++ " signature validator mismatch: envelope=" ++ validatorId ++
      " signature=" ++ sig.validatorId)
  match round.validatorSet.validators.lookup validatorId with
  | none => throw ("Validator " ++ validatorId ++ " is not in the validator set")
  | some validator =>
    if !validator.isActive then throw ("Validator " ++ validatorId ++ " is not active")
    if normalisedPubkey sig.pubkey ≠ normalisedPubkey validator.pubkey then
      throw ("PBFT " ++ phase ++ " signature pubkey mismatch for validator " ++ validatorId)
    verifyPbftPhaseSignature crates phase (round.block.hash crates) (normalisedPubkey validator.pubkey) sig.signature

variable (validatorId : String) (sig : BlockSignature)

def receivePrepare (round : PbftRound) :
    PbftRound × Except String Bool :=
  if round.phase ≠ .prepare then (round,.error "Not in PREPARE phase")
  else
    match round.verifyBlockSignature crates "prepare" validatorId sig with
    | .error e => (round,.error e)
    | .ok () =>
      let round := {round with prepareSigs := round.prepareSigs.insert validatorId sig}
      if round.quorum ≤ round.prepareSigs.keys.length then
        ({round with phase := .commit, phaseEnteredAt := now},.ok true)
      else (round,.ok false)

def receiveCommit (round : PbftRound) : PbftRound × Except String Bool :=
  if round.phase ≠ .commit then (round,.error "Not in COMMIT phase")
  else
    match round.verifyBlockSignature crates "commit" validatorId sig with
    | .error e => (round,.error e)
    | .ok () =>
      let round := {round with commitSigs := round.commitSigs.insert validatorId sig}
      -- the source tests the same bound twice; its `Failed` branch is dead
      if round.quorum ≤ round.commitSigs.keys.length then ({round with phase := .finalised},.ok true)
      else (round,.ok false)

def finalisedSignatures : List BlockSignature := round.commitSigs.values

def isPhaseTimedOut (round : PbftRound) : Bool :=
  match round.phase with
  | .finalised => false
  | .failed => false
  | _ => round.config.roundPhaseTimeout < now - round.phaseEnteredAt

def isTerminal : Bool := round.phase = .finalised || round.phase = .failed

/-- An exhausted budget fails the round and keeps its signatures. -/
def triggerViewChange (round : PbftRound) : PbftRound × Except String Nat :=
  if round.config.maxViewChanges ≤ round.viewChangeCount then
    ({round with phase := .failed},.error ("View-change limit (" ++ toString round.config.maxViewChanges ++
      ") exhausted — round abandoned"))
  else
    ({round with
      viewChangeCount := round.viewChangeCount + 1
      viewNumber := round.viewNumber + 1
      prepareSigs := ∅
      commitSigs := ∅
      phase := .prePrepare
      phaseEnteredAt := now},.ok (round.viewNumber + 1))

def viewChangeThreshold : Nat := round.validatorSet.len / 3 + 1

def votesWith (newView : Nat) : Finset String :=
  insert validatorId ((round.viewChangeVotes.lookup newView).getD ∅)

def recordViewChange (newView : Nat) (round : PbftRound) : PbftRound × Except String Bool :=
  let votes := round.votesWith validatorId newView
  let voted := {round with viewChangeVotes := round.viewChangeVotes.insert newView votes}
  if round.viewChangeThreshold ≤ votes.card ∧ round.viewNumber < newView then
    let (changed,result) := voted.triggerViewChange now
    (changed,result.map (fun _ => true))
  else (voted,.ok false)

end PbftRound

structure PbftEngine where
  rounds : Table String PbftRound
  config : PbftConfig

namespace PbftEngine
def withConfig (config : PbftConfig) : PbftEngine := ⟨∅,config⟩

variable (crates : Crates) (now : Nat)

def startRound (block : Block) (validatorSet : ValidatorSet) (engine : PbftEngine) :
    PbftEngine × Except String String :=
  let hash := block.hash crates
  match (PbftRound.withConfig now block validatorSet engine.config).prePrepare crates now block.header.proposerId with
  | (_,.error e) => (engine,.error e)
  | (round,.ok _) => ({engine with rounds := engine.rounds.insert hash round},.ok hash)

def onRound {α : Type} (blockHash : String) (method : PbftRound → PbftRound × Except String α)
    (engine : PbftEngine) : PbftEngine × Except String α :=
  match engine.rounds.lookup blockHash with
  | none => (engine,.error ("No active round for block " ++ blockHash))
  | some round =>
    let (round,result) := method round
    ({engine with rounds := engine.rounds.insert blockHash round},result)

def prepare (blockHash validatorId : String) (sig : BlockSignature) (engine : PbftEngine) :
    PbftEngine × Except String Bool :=
  engine.onRound blockHash (PbftRound.receivePrepare crates now validatorId sig)

def commit (blockHash validatorId : String) (sig : BlockSignature) (engine : PbftEngine) : PbftEngine × Except String Bool :=
  engine.onRound blockHash (PbftRound.receiveCommit crates validatorId sig)

def receiveViewChange (blockHash validatorId : String) (newView : Nat) (engine : PbftEngine) :
    PbftEngine × Except String Bool :=
  engine.onRound blockHash (PbftRound.recordViewChange now validatorId newView)

variable (engine : PbftEngine)

def getFinalisedBlock (blockHash : String) : Option Block :=
  match engine.rounds.lookup blockHash with
  | none => none
  | some round =>
    if round.phase = .finalised then some {round.block with pbftSignatures := round.finalisedSignatures}
    else none

def timedOut : List String :=
  (engine.rounds.entries.filter (fun entry => entry.2.isPhaseTimedOut now)).map Sigma.fst

def timeoutRound (progress : PbftEngine × List ViewChangeSignal) (hash : String) :
    PbftEngine × List ViewChangeSignal :=
  match progress.1.onRound hash (PbftRound.triggerViewChange now) with
  | (engine,.ok newView) => (engine,progress.2 ++ [⟨hash,newView⟩])
  | (engine,.error _) => (engine,progress.2)

def timeoutRounds : PbftEngine × List ViewChangeSignal :=
  (engine.timedOut now).foldl (timeoutRound now) (engine,[])

def stale : List String :=
  (engine.rounds.entries.filter (fun entry =>
    entry.2.isTerminal && engine.config.staleRoundTtl < now - entry.2.createdAt)).map Sigma.fst

def cleanupStaleRounds (engine : PbftEngine) : PbftEngine × Nat :=
  ({engine with rounds := (engine.stale now).foldl (fun rounds hash => rounds.erase hash) engine.rounds},
    (engine.stale now).length)

end PbftEngine
end ChainRegistry
