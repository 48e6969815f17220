import ChainRegistry.Node.Admission
import ChainRegistry.Node.ValidatorRegistry

/-! Who may publish: `verify_publish_auth` of `crates/node/src/package_admission.rs`, and
`admit_publish_request` as a whole where nothing else runs during the scan. -/
namespace ChainRegistry
open Lib ValidatorRegistry Fallible Text

def canonicalPublisherAddress (publisherAddress : String) : String :=
  let trimmed := trim publisherAddress
  if Text.isEmpty trimmed then ""
  else
    let stripped := if startsWith trimmed "0x" then String.ofList ((toChars trimmed).drop 2) else trimmed
    "0x" ++ toAsciiLowercase stripped

def publishSignatureMessage (id : PackageId) (contentHash publisherAddress : String) : String :=
  id.canonical ++ contentHash ++ canonicalPublisherAddress publisherAddress

section Signatures
variable (crates : Crates)

def publisherSigned (message : String) (pair : String × String) : Bool :=
  match hexDecode pair.1, hexDecode pair.2 with
  | .ok key, .ok signature => (crates.verifyingKey key).isOk && (crates.signatureFormat signature).isOk &&
      (crates.verify key (bytes message) signature).isOk
  | _, _ => false

def verifySingleSig (message publisherPubkey signature : String) : Except String Unit := do
  let pubkeyBytes ← hexDecode publisherPubkey
  let sigBytes ← hexDecode signature
  (crates.verifyingKey pubkeyBytes).mapError (fun _ => "Invalid Ed25519 public key")
  (crates.signatureFormat sigBytes).mapError (fun _ => "Invalid Ed25519 signature")
  (crates.verify pubkeyBytes (bytes message) sigBytes).mapError (fun _ => "Signature verification failed")

/-- A pair that cannot be read is passed over; a key may stand in the list twice. -/
def verifyMultiSig (message : String) (threshold : Nat) (publisherPubkeys signatures : List String) : Except String Unit :=
  if signatures.length ≠ publisherPubkeys.length then
    .error ("Signature count (" ++ toString signatures.length ++ ") does not match pubkey count (" ++
      toString publisherPubkeys.length ++ ")")
  else
    let valid := (publisherPubkeys.zip signatures).countP (publisherSigned crates message)
    if threshold ≤ valid then .ok ()
    else .error ("Multi-sig verification failed: only " ++ toString valid ++ "/" ++ toString publisherPubkeys.length ++
      " valid signatures (need " ++ toString threshold ++ ")")

def verifyPublishSig (request : PublishRequest) : Except String Unit :=
  if Text.isEmpty (trim request.publisherAddress) then
    .error "Publisher EVM address is required for runtime admission"
  else
    let message := publishSignatureMessage request.id request.contentHash request.publisherAddress
    if request.publisherPubkeys = [] then verifySingleSig crates message request.publisherPubkey request.signature
    else verifyMultiSig crates message (if request.threshold = 0 then 2 else request.threshold) request.publisherPubkeys
      request.signatures

end Signatures

inductive PublisherAdmissionError
  | invalidAddress (message : String)
  | unstaked (message : String)
  | unavailable (message : String)
  deriving DecidableEq

def PublisherAdmissionError.message : PublisherAdmissionError → String
  | .invalidAddress message => message
  | .unstaked message => message
  | .unavailable message => message

structure StakeSource where
  ethRpcUrl : String
  urlParses : Bool
  stakingAddr : String
  stakedBalance : (staking publisher : Address) → Except String Nat

section Stake
variable (wallets : WalletCrates)

def parsePublisherAddress (publisherAddress : String) : Except PublisherAdmissionError Address :=
  let normalized := canonicalPublisherAddress publisherAddress
  if Text.isEmpty normalized then .error (.invalidAddress "Publisher EVM address is required for runtime admission")
  else
    match wallets.parseAddress normalized with
    | some address => .ok address
    | none => .error (.invalidAddress "Publisher EVM address must be a valid 0x-prefixed address")

def parseStakingAddress (stakingAddr : String) : Except PublisherAdmissionError Address :=
  if Text.isEmpty (trim stakingAddr) ∨
      toAsciiLowercase stakingAddr = "0x0000000000000000000000000000000000000000" then
    .error (.unavailable "Publisher stake enforcement unavailable: CREG_STAKING_ADDR is not configured")
  else
    match wallets.parseAddress stakingAddr with
    | some address => .ok address
    | none => .error (.unavailable "Publisher stake enforcement unavailable: CREG_STAKING_ADDR is invalid")

def ensurePublisherStaked (source : StakeSource) (publisherAddress : String) : Except PublisherAdmissionError Unit := do
  let publisher ← parsePublisherAddress wallets publisherAddress
  if Text.isEmpty (trim source.ethRpcUrl) then
    throw (.unavailable "Publisher stake enforcement unavailable: CREG_ETH_RPC is not configured")
  let staking ← parseStakingAddress wallets source.stakingAddr
  if !source.urlParses then throw (.unavailable "Publisher stake enforcement unavailable: CREG_ETH_RPC is invalid")
  let staked ← (source.stakedBalance staking publisher).mapError
    (fun error => .unavailable ("Publisher stake lookup failed: " ++ error))
  if staked = 0 then
    throw (.unstaked ("Publisher " ++ canonicalPublisherAddress publisherAddress ++
      " has no on-chain stake and cannot publish"))

end Stake

variable (crates : Crates) (wallets : WalletCrates) (source : StakeSource)

def verifyPublishAuth (request : PublishRequest) : Except AdmissionError Unit := do
  validatePackageId request
  (verifyPublishSig crates request).mapError .invalidPublisherSignature
  (ensurePublisherStaked wallets source request.publisherAddress).mapError (fun error => .publisher error.message)

def admitPublishRequest (now : DateTime) (request : PublishRequest) (verifyPublisherAuth : Bool)
    (gate : Except String Unit) (state : NodeState) : NodeState × Except AdmissionError AdmissionReceipt :=
  match admitCheck state request verifyPublisherAuth (verifyPublishAuth crates wallets source request) with
  | .error e => (state,.error e)
  | .ok () => admitInsert now request gate state

structure WellMade (config : NodeConfig) (request : PublishRequest) : Prop where
  id : validatePackageId request = .ok ()
  signed : verifyPublishSig crates request = .ok ()
  shielded : request.shielded → config.shieldedPublishEnabled

structure Timely (state : NodeState) (request : PublishRequest) : Prop where
  staked : ensurePublisherStaked wallets source request.publisherAddress = .ok ()
  unsettled : ∀ record, state.chain.getPackage request.id.canonical = some record → record.status = .pending

structure MeetsRules (state : NodeState) (request : PublishRequest) : Prop where
  wellMade : WellMade crates state.config request
  timely : Timely wallets source state request

theorem checkExisting_ok_iff (chain : ChainStore) (canonical : String) : checkExisting chain canonical = .ok () ↔
    ∀ record, chain.getPackage canonical = some record → record.status = .pending := by
  unfold checkExisting
  cases chain.getPackage canonical with
  | none => simp
  | some record => cases status : record.status <;> simp [status]

theorem checkPending_ok_iff (pool : PendingPool) (request : PublishRequest) :
    checkPending pool request = .ok () ↔ ∀ existing, pool.get request.id.canonical = some existing →
      existing.request.contentHash ≠ request.contentHash := by
  unfold checkPending
  cases pool.get request.id.canonical with
  | none => simp
  | some existing => by_cases same : existing.request.contentHash = request.contentHash <;> simp [same]

theorem verifyPublishAuth_ok_iff (request : PublishRequest) :
    verifyPublishAuth crates wallets source request = .ok () ↔ validatePackageId request = .ok () ∧
      verifyPublishSig crates request = .ok () ∧ ensurePublisherStaked wallets source request.publisherAddress = .ok () := by
  simp only [verifyPublishAuth,bind_ok,mapError_ok,Unique.exists_iff,PUnit.default_eq_unit]

theorem admitCheck_ok_iff (state : NodeState) (request : PublishRequest) (verify : Bool) (auth : Except AdmissionError Unit) :
    admitCheck state request verify auth = .ok () ↔ validatePackageId request = .ok () ∧
      (request.shielded → state.config.shieldedPublishEnabled) ∧ (verify → auth = .ok ()) ∧
      checkExisting state.chain request.id.canonical = .ok () ∧ checkPending state.pendingPool request = .ok () := by
  unfold admitCheck
  cases verify <;>
    simp only [bind_ok,check_ok,Unique.exists_iff,PUnit.default_eq_unit,Bool.and_eq_true,
      Bool.not_eq_true',not_and,Bool.not_eq_false,if_true,Bool.false_eq_true,if_false,true_and,false_implies,true_implies]

theorem admitCheck_rules_iff (state : NodeState) (request : PublishRequest) :
    admitCheck state request true (verifyPublishAuth crates wallets source request) = .ok () ↔
      MeetsRules crates wallets source state request ∧ checkPending state.pendingPool request = .ok () := by
  rw [admitCheck_ok_iff,verifyPublishAuth_ok_iff,checkExisting_ok_iff]
  constructor
  · rintro ⟨id,shielded,auth,unsettled,pending⟩
    obtain ⟨_,signed,staked⟩ := auth rfl
    exact ⟨⟨⟨id,signed,shielded⟩,⟨staked,unsettled⟩⟩,pending⟩
  · rintro ⟨⟨⟨id,signed,shielded⟩,⟨staked,unsettled⟩⟩,pending⟩
    exact ⟨id,shielded,fun _ => ⟨id,signed,staked⟩,unsettled,pending⟩

end ChainRegistry
