import ChainRegistry.Contracts.Staking
import ChainRegistry.Lib.Runs

/-! The registry of packages: `contracts/Registry.sol`, with what it writes of
`contracts/Reputation.sol`. What governance and the verifier answer is part of a transaction. Events
are left out, and `withdrawFees`, which writes nothing. -/
namespace ChainRegistry
open Lib Text Ledger Abi

abbrev Bytes := {data : List UInt8 // data.length < 2 ^ 256}

theorem length_nil_lt : ([] : List UInt8).length < 2 ^ 256 := by decide

structure Score where
  (approvals rejections lastUpdated : Nat)

structure Reputation where
  scores : Table Address Score
  registry : Address

namespace Reputation
def score (reputation : Reputation) (account : Address) : Score := read ⟨0,0,0⟩ reputation.scores account

def setScore (reputation : Reputation) (account : Address) (score : Score) : Reputation :=
  {reputation with scores := reputation.scores.insert account score}

def increment (counter : Nat) : Except Revert Nat := if counter + 1 < 2 ^ 32 then .ok (counter + 1) else .error (.panic 0x11)

@[simp] theorem increment_ok (counter result : Nat) :
    increment counter = .ok result ↔ counter + 1 < 2 ^ 32 ∧ counter + 1 = result := by
  unfold increment
  split_ifs with fits
  · rw [and_iff_right fits,Except.ok.injEq]
  · exact iff_of_false nofun fun both => fits both.1

variable (sender : Address) (timestamp : Nat) (validator : Address) (reputation : Reputation)

def recordApproval : Except Revert Reputation := do
  require (sender = reputation.registry) (.message "Only registry")
  let score := reputation.score validator
  let approvals ← increment score.approvals
  return reputation.setScore validator {score with approvals := approvals, lastUpdated := timestamp % 2 ^ 64}

def recordRejection : Except Revert Reputation := do
  require (sender = reputation.registry) (.message "Only registry")
  let score := reputation.score validator
  let rejections ← increment score.rejections
  return reputation.setScore validator {score with rejections := rejections, lastUpdated := timestamp % 2 ^ 64}

end Reputation

namespace Registry
inductive PackageStatus
  | unknown | pending | verified | revoked
  deriving DecidableEq

inductive ValidationMode
  | pbft | zkProof
  deriving DecidableEq

structure PackageRecord where
  canonical : Bytes
  contentHash : Word
  ipfsCid : Bytes
  publisher : Address
  publishedAt : Nat
  blockHash : Word
  blockNumber : Nat
  status : PackageStatus
  revocationReason : String
  validationMode : ValidationMode
  zkProofHash : Word

def PackageRecord.blank : PackageRecord where
  canonical := ⟨[],by decide⟩
  contentHash := 0
  ipfsCid := ⟨[],by decide⟩
  publisher := 0
  publishedAt := 0
  blockHash := 0
  blockNumber := 0
  status := .unknown
  revocationReason := ""
  validationMode := .pbft
  zkProofHash := 0

structure ValidatorSig where
  validator : Address
  signature : List UInt8
  approved : Bool

structure ZKProofData where
  proof : Vector Word 8
  publicInputs : List Word
  verifiedAt : Nat

def ZKProofData.blank : ZKProofData := ⟨.replicate 8 0,[],0⟩

end Registry

structure Registry where
  packages : Table Word Registry.PackageRecord
  consensusProofs : Table Word (List Registry.ValidatorSig)
  zkProofs : Table Word Registry.ZKProofData
  governance : Address
  quorumPct : Nat
  zkValidationEnabled : Bool
  zkValidationFee : Nat
  latestStateRoot : Word
  totalBatches : Nat
  (batchRoots batchDataRoots : Table Nat Word)
  (packageSubmitRelays packageFinalizeRelays : Finset Address)
  enforceFinalizeRelays : Bool
  validatorSignedForPackage : Finset (Word × Address)
  dependentCounts : Table Word Nat

structure Contracts where
  registry : Registry
  world : World
  reputation : Reputation

namespace Registry
structure Tx where
  sender : Address
  (value timestamp number : Nat)
  -- of the block before
  parentHash : Word
  -- none where the call fails
  isPaused : Address → Option Bool
  verifyProof : Vector Word 8 → List Word → Option Bool
  takesRefund : Bool

def deploy (governance : Address) : Registry where
  packages := ∅
  consensusProofs := ∅
  zkProofs := ∅
  governance := governance
  quorumPct := 67
  zkValidationEnabled := true
  zkValidationFee := 10 ^ 15
  latestStateRoot := 0
  totalBatches := 0
  batchRoots := ∅
  batchDataRoots := ∅
  packageSubmitRelays := ∅
  packageFinalizeRelays := ∅
  enforceFinalizeRelays := false
  validatorSignedForPackage := ∅
  dependentCounts := ∅

variable (registry : Registry) (key : Word)

def package : PackageRecord := read .blank registry.packages key

def setPackage (registry : Registry) (key : Word) (record : PackageRecord) : Registry :=
  {registry with packages := registry.packages.insert key record}

def consensusProof : List ValidatorSig := read [] registry.consensusProofs key

def zkProof : ZKProofData := read .blank registry.zkProofs key

def setZkProof (registry : Registry) (key : Word) (data : ZKProofData) : Registry :=
  {registry with zkProofs := registry.zkProofs.insert key data}

abbrev Result := Except Revert Contracts

variable (evm : Evm) (self : Address) (tx : Tx)

def onlyGovernance (registry : Registry) : Except Revert Unit := require (tx.sender = registry.governance) .notGovernance

def whenNotPaused (registry : Registry) : Except Revert Unit :=
  match tx.isPaused registry.governance with
  | some paused => require (paused = false) (.message "System is paused")
  | none => .error .noCode

/-- `_key`. -/
def keyOf (canonical : Bytes) : Word := evm.keccak256 canonical.1

def sigDigest (canonical : Bytes) (contentHash : Word) : Word :=
  evm.keccak256 ([0x19] ++ bytes "Ethereum Signed Message:\n32" ++
    Abi.bytes (evm.keccak256 (canonical.1 ++ Abi.bytes contentHash)))

/-- `_recoverSigner`, which differs from that of the staking contract in what it does with a
signature of another length. -/
def recoverSigner (digest : Word) (sig : List UInt8) : Except Revert Address := do
  require (sig.length = 65) (.message "Invalid signature length")
  return World.recoverSigner evm digest sig

def encodeString (data : List UInt8) : List UInt8 :=
  Abi.bytes (ofUint data.length) ++ data ++ List.replicate ((32 - data.length % 32) % 32) 0

def packageZkBindingDomain : List UInt8 := bytes "creg-zk-package-v1"

def encodeBinding (canonical : Bytes) (contentHash : Word) (ipfsCid : Bytes) : List UInt8 :=
  let first := encodeString packageZkBindingDomain
  let second := encodeString canonical.1
  encode [ofUint 128,ofUint (128 + first.length),contentHash,ofUint (128 + first.length + second.length)] ++
    first ++ second ++ encodeString ipfsCid.1

def packageZKBindingInputs (canonical : Bytes) (contentHash : Word) (ipfsCid : Bytes) : Word × Word :=
  let binding := evm.keccak256 (encodeBinding canonical contentHash ipfsCid)
  (binding >>> 128,binding &&& BitVec.ofNat 256 (2 ^ 128 - 1))

def assertPackageProofBinding (canonical : Bytes) (contentHash : Word) (ipfsCid : Bytes) (publicInputs : List Word) :
    Except Revert Unit := do
  require (2 ≤ publicInputs.length) .invalidZKPublicInputs
  let (bindingHigh,bindingLow) := packageZKBindingInputs evm canonical contentHash ipfsCid
  require (publicInputs[0]? = some bindingHigh ∧ publicInputs[1]? = some bindingLow) .invalidZKPublicInputs

def checkProof (proof : Vector Word 8) (publicInputs : List Word) : Except Revert Unit :=
  match tx.verifyProof proof publicInputs with
  | some valid => require (valid) .invalidZKProof
  | none => .error .noCode

def proofHash (proof : Vector Word 8) (publicInputs : List Word) : Word :=
  evm.keccak256 (encode (proof.toList ++ publicInputs))

def storePendingPackage (publisher : Address) (canonical : Bytes) (contentHash : Word) (ipfsCid : Bytes)
    (state : Contracts) : Result := do
  let key := keyOf evm canonical
  require ((state.registry.package key).status = .unknown) (.alreadyExists canonical.1)
  require (0 < state.world.staking.stakedBalance publisher) (.message "Publisher must stake first")
  return {state with registry := state.registry.setPackage key {
    canonical := canonical
    contentHash := contentHash
    ipfsCid := ipfsCid
    publisher := publisher
    publishedAt := tx.timestamp % 2 ^ 64
    blockHash := tx.parentHash
    blockNumber := tx.number
    status := .pending
    revocationReason := ""
    validationMode := .pbft
    zkProofHash := 0 }}

def submitPackage (canonical : Bytes) (contentHash : Word) (ipfsCid : Bytes) (state : Contracts) : Result := do
  whenNotPaused tx state.registry
  storePendingPackage evm tx tx.sender canonical contentHash ipfsCid state

def submitPackageFor (publisher : Address) (canonical : Bytes) (contentHash : Word) (ipfsCid : Bytes) (state : Contracts) :
    Result := do
  whenNotPaused tx state.registry
  require (tx.sender = publisher ∨ tx.sender ∈ state.registry.packageSubmitRelays) .notAuthorizedSubmitRelay
  storePendingPackage evm tx publisher canonical contentHash ipfsCid state

def submitPackageWithZKProof (canonical : Bytes) (contentHash : Word) (ipfsCid : Bytes) (proof : Vector Word 8)
    (publicInputs : List Word) (state : Contracts) : Result := do
  whenNotPaused tx state.registry
  require (state.registry.zkValidationEnabled) .zkDisabled
  require (state.registry.zkValidationFee ≤ tx.value) (.message "Insufficient fee")
  let key := keyOf evm canonical
  require ((state.registry.package key).status = .unknown) (.alreadyExists canonical.1)
  require (0 < state.world.staking.stakedBalance tx.sender) (.message "Publisher must stake first")
  assertPackageProofBinding evm canonical contentHash ipfsCid publicInputs
  checkProof tx proof publicInputs
  require (state.registry.zkValidationFee < tx.value → tx.takesRefund) .refused
  let stored := state.registry.setPackage key {
    canonical := canonical
    contentHash := contentHash
    ipfsCid := ipfsCid
    publisher := tx.sender
    publishedAt := tx.timestamp % 2 ^ 64
    blockHash := tx.parentHash
    blockNumber := tx.number
    status := .verified
    revocationReason := ""
    validationMode := .zkProof
    zkProofHash := proofHash evm proof publicInputs }
  return {state with registry := stored.setZkProof key ⟨proof,publicInputs,tx.timestamp % 2 ^ 64⟩}

/-- The public inputs are not compared with the other arguments. -/
def submitRollupBatch (prevRoot nextRoot : Word) (_txCount : Nat) (dataRoot : Word) (proof : Vector Word 8)
    (publicInputs : List Word) (state : Contracts) : Result := do
  onlyGovernance tx state.registry
  require (prevRoot = state.registry.latestStateRoot) (.message "Invalid previous state root")
  checkProof tx proof publicInputs
  let batch ← checkedAdd state.registry.totalBatches 1
  return {state with registry := {state.registry with
    totalBatches := batch
    latestStateRoot := nextRoot
    batchRoots := state.registry.batchRoots.insert batch nextRoot
    batchDataRoots := state.registry.batchDataRoots.insert batch dataRoot}}

def noteSignature (registry : Registry) (key : Word) (sig : ValidatorSig) : Registry :=
  {registry with
    validatorSignedForPackage := insert (key,sig.validator) registry.validatorSignedForPackage
    consensusProofs := registry.consensusProofs.insert key (registry.consensusProof key ++ [sig])}

/-- The loop of `finalizePackage`: the number of approvals, and what it has written. -/
def countApprovals (key digest : Word) : List ValidatorSig → Nat → Contracts → Except Revert (Nat × Contracts)
  | [], approvals, state => .ok (approvals,state)
  | sig :: sigs, approvals, state =>
    if state.world.staking.isActiveValidator sig.validator then do
      require ((key,sig.validator) ∉ state.registry.validatorSignedForPackage) (.validatorAlreadySigned sig.validator)
      let recovered ← recoverSigner evm digest sig.signature
      require (recovered = sig.validator) (.invalidSignature sig.validator)
      let noted := {state with registry := state.registry.noteSignature key sig}
      if sig.approved then do
        let approvals ← checkedAdd approvals 1
        let reputation ← state.reputation.recordApproval self tx.timestamp sig.validator
        countApprovals key digest sigs approvals {noted with reputation := reputation}
      else do
        let reputation ← state.reputation.recordRejection self tx.timestamp sig.validator
        countApprovals key digest sigs approvals {noted with reputation := reputation}
    else countApprovals key digest sigs approvals state

def checkPending (canonical : Bytes) (record : PackageRecord) : Except Revert Unit :=
  match record.status with
  | .unknown => .error (.notFound canonical.1)
  | .verified => .error (.alreadyVerified canonical.1)
  | .revoked => .error (.alreadyRevoked canonical.1)
  | .pending => .ok ()

def requiredApprovals (state : Contracts) : Except Revert Nat := do
  let scaled ← checkedMul state.world.staking.activeValidatorCount state.registry.quorumPct
  checkedAdd (scaled / 100) 1

def finalizePackage (canonical : Bytes) (sigs : List ValidatorSig) (state : Contracts) : Result := do
  whenNotPaused tx state.registry
  require (state.registry.enforceFinalizeRelays → tx.sender ∈ state.registry.packageFinalizeRelays)
    .notAuthorizedFinalizeRelay
  let key := keyOf evm canonical
  let record := state.registry.package key
  checkPending canonical record
  let required ← requiredApprovals state
  let (approvals,counted) ← countApprovals evm self tx key (sigDigest evm canonical record.contentHash) sigs 0 state
  require (required ≤ approvals) (.insufficientQuorum approvals required)
  return {counted with registry := counted.registry.setPackage key {record with
    status := .verified
    blockHash := tx.parentHash
    blockNumber := tx.number
    validationMode := .pbft}}

/-- For a package that is verified already this does nothing, and succeeds. -/
def verifyZKProof (canonical : Bytes) (proof : Vector Word 8) (publicInputs : List Word) (state : Contracts) : Result := do
  whenNotPaused tx state.registry
  let key := keyOf evm canonical
  let record := state.registry.package key
  match record.status with
  | .unknown => .error (.notFound canonical.1)
  | .verified => .ok state
  | .revoked => .error (.alreadyRevoked canonical.1)
  | .pending => do
    require (state.registry.zkValidationEnabled) .zkDisabled
    assertPackageProofBinding evm canonical record.contentHash record.ipfsCid publicInputs
    checkProof tx proof publicInputs
    let stored := state.registry.setPackage key {record with
      status := .verified
      validationMode := .zkProof
      zkProofHash := proofHash evm proof publicInputs
      blockHash := tx.parentHash
      blockNumber := tx.number}
    return {state with registry := stored.setZkProof key ⟨proof,publicInputs,tx.timestamp % 2 ^ 64⟩}

def revokePackage (canonical : Bytes) (reason : String) (severity : Severity) (state : Contracts) : Result := do
  whenNotPaused tx state.registry
  let key := keyOf evm canonical
  let record := state.registry.package key
  require (record.status ≠ .unknown) (.notFound canonical.1)
  require (record.status ≠ .revoked) (.alreadyRevoked canonical.1)
  require (tx.sender = state.registry.governance ∨ tx.sender = record.publisher)
    (.message "Only governance or publisher may revoke")
  let stored := state.registry.setPackage key {record with status := .revoked, revocationReason := reason}
  let revoked := {state with registry := stored}
  if tx.sender = state.registry.governance then do
    let (world,_) ← state.world.slashSeverity ⟨self,tx.timestamp,fun _ _ => none⟩ record.publisher severity reason
    return {revoked with world := world}
  else return revoked

def configure (change : Registry → Registry) (state : Contracts) : Result := do
  onlyGovernance tx state.registry
  return {state with registry := change state.registry}

def setGovernance (newGov : Address) : Contracts → Result := configure tx fun registry => {registry with governance := newGov}

def setQuorum (pct : Nat) (state : Contracts) : Result := do
  onlyGovernance tx state.registry
  require (51 ≤ pct ∧ pct ≤ 100) (.message "Quorum must be 51-100%")
  return {state with registry := {state.registry with quorumPct := pct}}

def setZKValidationEnabled (enabled : Bool) : Contracts → Result :=
  configure tx fun registry => {registry with zkValidationEnabled := enabled}

def setZKValidationFee (fee : Nat) : Contracts → Result := configure tx fun registry => {registry with zkValidationFee := fee}

def setPackageSubmitRelay (relay : Address) (enabled : Bool) : Contracts → Result :=
  configure tx fun registry => {registry with
    packageSubmitRelays := (if enabled then insert relay registry.packageSubmitRelays
      else registry.packageSubmitRelays.erase relay)}

def setPackageFinalizeRelay (relay : Address) (enabled : Bool) : Contracts → Result :=
  configure tx fun registry => {registry with
    packageFinalizeRelays := (if enabled then insert relay registry.packageFinalizeRelays
      else registry.packageFinalizeRelays.erase relay)}

def setEnforceFinalizeRelays (enabled : Bool) : Contracts → Result :=
  configure tx fun registry => {registry with enforceFinalizeRelays := enabled}

def setDependentCount (canonical : Bytes) (count : Nat) : Contracts → Result :=
  configure tx fun registry => {registry with dependentCounts := registry.dependentCounts.insert (keyOf evm canonical) count}

inductive Call
  | submitPackage (canonical : Bytes) (contentHash : Word) (ipfsCid : Bytes)
  | submitPackageFor (publisher : Address) (canonical : Bytes) (contentHash : Word) (ipfsCid : Bytes)
  | submitPackageWithZKProof (canonical : Bytes) (contentHash : Word) (ipfsCid : Bytes) (proof : Vector Word 8)
    (publicInputs : List Word)
  | submitRollupBatch (prevRoot nextRoot : Word) (txCount : Nat) (dataRoot : Word) (proof : Vector Word 8)
    (publicInputs : List Word)
  | finalizePackage (canonical : Bytes) (sigs : List ValidatorSig)
  | verifyZKProof (canonical : Bytes) (proof : Vector Word 8) (publicInputs : List Word)
  | revokePackage (canonical : Bytes) (reason : String) (severity : Severity)
  | setGovernance (newGov : Address)
  | setQuorum (pct : Nat)
  | setZKValidationEnabled (enabled : Bool)
  | setZKValidationFee (fee : Nat)
  | setPackageSubmitRelay (relay : Address) (enabled : Bool)
  | setPackageFinalizeRelay (relay : Address) (enabled : Bool)
  | setEnforceFinalizeRelays (enabled : Bool)
  | setDependentCount (canonical : Bytes) (count : Nat)

def call (state : Contracts) : Call → Result
  | .submitPackage canonical contentHash ipfsCid => submitPackage evm tx canonical contentHash ipfsCid state
  | .submitPackageFor publisher canonical contentHash ipfsCid =>
    submitPackageFor evm tx publisher canonical contentHash ipfsCid state
  | .submitPackageWithZKProof canonical contentHash ipfsCid proof publicInputs =>
    submitPackageWithZKProof evm tx canonical contentHash ipfsCid proof publicInputs state
  | .submitRollupBatch prevRoot nextRoot txCount dataRoot proof publicInputs =>
    submitRollupBatch tx prevRoot nextRoot txCount dataRoot proof publicInputs state
  | .finalizePackage canonical sigs => finalizePackage evm self tx canonical sigs state
  | .verifyZKProof canonical proof publicInputs => verifyZKProof evm tx canonical proof publicInputs state
  | .revokePackage canonical reason severity => revokePackage evm self tx canonical reason severity state
  | .setGovernance newGov => setGovernance tx newGov state
  | .setQuorum pct => setQuorum tx pct state
  | .setZKValidationEnabled enabled => setZKValidationEnabled tx enabled state
  | .setZKValidationFee fee => setZKValidationFee tx fee state
  | .setPackageSubmitRelay relay enabled => setPackageSubmitRelay tx relay enabled state
  | .setPackageFinalizeRelay relay enabled => setPackageFinalizeRelay tx relay enabled state
  | .setEnforceFinalizeRelays enabled => setEnforceFinalizeRelays tx enabled state
  | .setDependentCount canonical count => setDependentCount evm tx canonical count state

inductive Event
  | call (tx : Tx) (call : Call)
  | other (world : World) (reputation : Reputation)

def next (state : Contracts) : Event → Contracts
  | .call tx call => match Registry.call evm self tx state call with
    | .ok after => after
    | .error _ => state
  | .other world reputation => {state with world := world, reputation := reputation}

end Registry

/-! A small registry at the address 6, on which the contract can be evaluated: the accounts 10
and 11 are validators with keys, and 12 has staked as a publisher. -/
namespace Desk
open Registry

def evm : Evm := ⟨Small.hash,fun _ _ r _ => if r = 10 ∨ r = 11 then r.setWidth 160 else 0,1⟩

def joined : List (ChainRegistry.Tx × ChainRegistry.Call) :=
  Small.joining 10 100 ++ Small.joining 11 200 ++
    [(Small.tx 12 300 0,.approve 2 (10 ^ 18)),(Small.tx 12 300 0,.stakeAsPublisher (10 ^ 18))]

def start : Contracts := ⟨deploy 4,Runs.run (World.next evm 2) Small.start joined,⟨∅,6⟩⟩

def tx (sender : Address) (timestamp : Nat) : Registry.Tx :=
    ⟨sender,10 ^ 15,timestamp,7,0,fun _ => some false,fun _ _ => some true,true⟩

def name : Bytes := ⟨bytes "npm:a@1",by decide +kernel⟩

def cid : Bytes := ⟨bytes "bafy",by decide +kernel⟩

def submitting : Event := .call (tx 12 400) (.submitPackage name 5 cid)

end Desk
end ChainRegistry
