import ChainRegistry.Lib.Claims
import ChainRegistry.Lib.Table
import ChainRegistry.Node.ValidatorSetSync

/-! The identities of validators that a node knows: `apply_validator_registration` of
`crates/node/src/api.rs` and `validator_registry_gossip.rs`, with the restore at a start in
`main.rs`. -/
namespace ChainRegistry.ValidatorRegistry
open Lib Runs SetSync Text

structure RegistrationProof where
  (evmAddress nodeId ed25519Pubkey : String)
  aliasName : Option String
  (nonce evmSignature ed25519Signature : String)
  deriving DecidableEq

structure ValidatorIdentity where
  (evmAddress nodeId ed25519Pubkey : String)

def ValidatorIdentity.normalized (identity : ValidatorIdentity) : ValidatorIdentity where
  evmAddress := toAsciiLowercase (trim identity.evmAddress)
  nodeId := trim identity.nodeId
  ed25519Pubkey := toAsciiLowercase (trim identity.ed25519Pubkey)

structure ValidatorRegistrationStatus where
  aliasName : String
  identity : ValidatorIdentity
  (registeredWithNode appliedOnChain governanceApproved admittedToConsensus active : Bool)
  status : String
  reputation : Nat

def validatorRegistrationStatusText (registration : ValidatorRegistrationStatus) : String :=
  if registration.active then "active"
  else if registration.admittedToConsensus then "admitted-to-consensus"
  else if registration.governanceApproved then "governance-approved"
  else if registration.appliedOnChain then "applied-on-chain"
  else if registration.registeredWithNode then "identity-registered"
  else "unregistered"

structure WalletCrates where
  parseAddress : String → Option Address
  keccak256 : List UInt8 → Word
  signatureFormat : List UInt8 → Except String Unit
  -- the public key as an uncompressed point
  recoverFromPrehash : (digest : Word) → (signature : List UInt8) → (recoveryId : UInt8) → Except String (List UInt8)

inductive StatusCode
  | badRequest | unauthorized | conflict

section Checks
variable (crates : Crates) (wallets : WalletCrates) (value : String)

def validateEvmAddress : Except String String :=
  match wallets.parseAddress (trim value) with
  | some address => .ok (addressText address)
  | none => .error "EVM address must be a valid 0x-prefixed address"

def validateNodeId : Except String String :=
  let trimmed := trim value
  if Text.isEmpty trimmed then .error "node_id is required" else .ok trimmed

def validateEd25519Pubkey : Except String String :=
  let trimmed := toAsciiLowercase (trimStartHexMark (trim value))
  match hexDecode trimmed with
  | .ok bytes =>
    if bytes.length = 32 then .ok trimmed
    else .error ("Ed25519 pubkey must be 32 bytes (64 hex chars), got " ++ toString bytes.length ++ " bytes")
  | .error _ => .error "Ed25519 pubkey must be valid hex"

def validateRegistrationNonce : Except String String :=
  let trimmed := trim value
  if Text.isEmpty trimmed then .error "nonce is required"
  else if 128 < (bytes trimmed).length then .error "nonce must be 128 characters or fewer"
  else .ok trimmed

structure ChainConfig where
  chainId : String
  isTestnet : Bool

def nodeChainId (config : ChainConfig) : String :=
  if !Text.isEmpty (trim config.chainId) then config.chainId
  else if config.isTestnet then "creg-testnet-1"
  else "creg-mainnet-1"

def validatorIdentityRegistrationMessage (chainId evmAddress nodeId ed25519Pubkey nonce : String) : String :=
  "creg-validator-identity-v1\nchain_id:" ++ chainId ++ "\nevm_address:" ++ evmAddress ++ "\nnode_id:" ++ nodeId ++
    "\ned25519_pubkey:" ++ ed25519Pubkey ++ "\nnonce:" ++ nonce

def parseEcdsaSignatureBytes (signatureHex : String) : Except String (Vector UInt8 65) := do
  let decoded ← (hexDecode (trimStartHexMark (trim signatureHex))).mapError
    (fun _ => "EVM signature must be valid hex")
  if size : decoded.length = 65 then return ⟨decoded.toArray,size⟩
  else throw ("EVM signature must be 65 bytes (130 hex chars), got " ++ toString decoded.length ++ " bytes")

def normalizeRecoveryId (v : UInt8) : Except String UInt8 :=
  if v = 0 ∨ v = 1 then .ok v
  else if v = 27 ∨ v = 28 then .ok (v - 27)
  else .error ("Unsupported EVM signature recovery id: " ++ toString v)

def ethereumPersonalMessageDigest (message : String) : Word :=
  let start := "\x19Ethereum Signed Message:\n" ++ toString (bytes message).length
  wallets.keccak256 (bytes start ++ bytes message)

def recoverEvmPersonalSigner (message signatureHex : String) : Except String String := do
  let digest := ethereumPersonalMessageDigest wallets message
  let bytes ← parseEcdsaSignatureBytes signatureHex
  let recoveryId ← normalizeRecoveryId bytes[64]
  let signature := bytes.toList.take 64
  (wallets.signatureFormat signature).mapError (fun error => "Invalid EVM signature: " ++ error)
  let pubkey ← (wallets.recoverFromPrehash digest signature recoveryId).mapError
    (fun error => "Failed to recover EVM signer: " ++ error)
  return addressText ((wallets.keccak256 (pubkey.drop 1)).setWidth 160)

def verifyEd25519IdentitySignature (message ed25519Pubkey signatureHex : String) : Except String Unit := do
  let pubkey ← (hexDecode ed25519Pubkey).mapError (fun _ => "Ed25519 pubkey must be valid hex")
  (crates.verifyingKey pubkey).mapError (fun error => "Invalid Ed25519 pubkey: " ++ error)
  let signature ← (hexDecode (trimStartHexMark (trim signatureHex))).mapError
    (fun _ => "Ed25519 identity signature must be valid hex")
  (crates.signatureFormat signature).mapError (fun error => "Invalid Ed25519 identity signature: " ++ error)
  (crates.verify pubkey (bytes message) signature).mapError
    (fun error => "Invalid Ed25519 identity signature: " ++ error)

def verifyValidatorIdentityProofs (chainId evmAddress nodeId ed25519Pubkey nonce evmSignature ed25519Signature : String) :
    Except String Unit := do
  let message := validatorIdentityRegistrationMessage chainId evmAddress nodeId ed25519Pubkey nonce
  let recovered ← recoverEvmPersonalSigner wallets message evmSignature
  if recovered ≠ evmAddress then throw ("EVM signature recovered " ++ recovered ++ ", expected " ++ evmAddress)
  verifyEd25519IdentitySignature crates message ed25519Pubkey ed25519Signature

/-- The part of `apply_validator_registration` that reads the proof and checks the signatures. -/
def checkedIdentity (chainId : String) (proof : RegistrationProof) : Except (StatusCode × String) ValidatorIdentity := do
  let evmAddress ← (validateEvmAddress wallets proof.evmAddress).mapError (StatusCode.badRequest,·)
  let nodeId ← (validateNodeId proof.nodeId).mapError (StatusCode.badRequest,·)
  let ed25519Pubkey ← (validateEd25519Pubkey proof.ed25519Pubkey).mapError (StatusCode.badRequest,·)
  let nonce ← (validateRegistrationNonce proof.nonce).mapError (StatusCode.badRequest,·)
  (verifyValidatorIdentityProofs crates wallets chainId evmAddress nodeId ed25519Pubkey nonce proof.evmSignature
    proof.ed25519Signature).mapError (StatusCode.unauthorized,·)
  return ⟨evmAddress,nodeId,ed25519Pubkey⟩

end Checks

abbrev Registrations := Table String ValidatorRegistrationStatus

def markActive (active : Finset String) (registration : ValidatorRegistrationStatus) : ValidatorRegistrationStatus :=
  let key := normalizedValidatorKey registration.identity.evmAddress
  let isActive := decide (key ≠ "" ∧ key ∈ active)
  let registration := {registration with admittedToConsensus := isActive, active := isActive}
  {registration with status := validatorRegistrationStatusText registration}

/-- What `reconcile_after_identity_registration` does to the registrations: `active` is the
observed set, if the worker is enabled and has saved one. -/
def reconcile (active : Option (Finset String)) (registrations : Registrations) : Registrations :=
  match active with
  | none => registrations
  | some active => registrations.putAll (registrations.entries.map fun entry => (entry.1,markActive active entry.2))

def takenByAnother (registrations : Registrations) (key : String) (identity : ValidatorIdentity) : Bool :=
  registrations.entries.any fun entry => entry.1 ≠ key &&
    (entry.2.identity.nodeId = identity.nodeId || entry.2.identity.ed25519Pubkey = identity.ed25519Pubkey)

def registered (previous : Option ValidatorRegistrationStatus) (proof : RegistrationProof) (identity : ValidatorIdentity) :
    ValidatorRegistrationStatus :=
  let registration := previous.getD
    { aliasName := "", identity := ⟨"","",""⟩, registeredWithNode := false, appliedOnChain := false
      governanceApproved := false, admittedToConsensus := false, active := false, status := "", reputation := 100 }
  let registration := {registration with
    aliasName := trim (proof.aliasName.getD identity.nodeId)
    identity := identity.normalized
    registeredWithNode := true}
  {registration with status := validatorRegistrationStatusText registration}

def applyValidatorRegistration (crates : Crates) (wallets : WalletCrates) (config : ChainConfig)
    (active : Option (Finset String)) (registrations : Registrations) (proof : RegistrationProof) :
    Except (StatusCode × String) (ValidatorRegistrationStatus × Registrations) := do
  let identity ← checkedIdentity crates wallets (nodeChainId config) proof
  let key := normalizedValidatorKey identity.evmAddress
  if takenByAnother registrations key identity then
    throw (.conflict,"node_id or Ed25519 pubkey is already registered to another wallet")
  let registration := registered (registrations.lookup key) proof identity
  return (registration,reconcile active (registrations.insert key registration))

def persist (journal : List RegistrationProof) (proof : RegistrationProof) : List RegistrationProof :=
  let key := toAsciiLowercase (trim proof.evmAddress)
  journal.filter (fun p => toAsciiLowercase (trim p.evmAddress) ≠ key) ++ [proof]

/-- `restoring` is the rest of the journal that the task of the start has still to go through;
requests and gossip are already served meanwhile. -/
structure RegistryNode where
  config : ChainConfig
  registrations : Registrations
  (journal restoring : List RegistrationProof)

def RegistryNode.new (config : ChainConfig) : RegistryNode := ⟨config,∅,[],[]⟩

inductive Event
  -- by a request or by gossip
  | deliver (proof : RegistrationProof) (active : Option (Finset String))
  | restart
  | restore (active : Option (Finset String))

variable (crates : Crates) (wallets : WalletCrates)

def RegistryNode.step (node : RegistryNode) : Event → RegistryNode
  | .deliver proof active =>
    match applyValidatorRegistration crates wallets node.config active node.registrations proof with
    | .ok (_,registrations) => {node with registrations := registrations, journal := persist node.journal proof}
    | .error _ => node
  | .restart => {node with registrations := ∅, restoring := node.journal}
  | .restore active =>
    match node.restoring with
    | [] => node
    | proof :: restoring =>
      match applyValidatorRegistration crates wallets node.config active node.registrations proof with
      | .ok (_,registrations) => {node with registrations := registrations, restoring := restoring}
      | .error _ => {node with restoring := restoring}

def bindings (registrations : Registrations) (evmAddress : String) : Option (String × String) :=
  (registrations.lookup evmAddress).map fun registration =>
    (registration.identity.nodeId,registration.identity.ed25519Pubkey)

end ChainRegistry.ValidatorRegistry
