import ChainRegistry.Lib.Usage
import ChainRegistry.Node.ValidatorSetSync

/-! `sponsor_request` of `crates/relayer/src/main.rs`, up to `send_sponsored_transaction`, as the
steps that other calls may fall between: every access to one of the shared maps, and the await
of the nonce on chain. -/
namespace ChainRegistry.Relayer
open Lib Usage Text Abi

inductive SponsoredActionKind
  | publisher | validator
  deriving DecidableEq

namespace SponsoredActionKind
def asStr : SponsoredActionKind → String
  | publisher => "publisher"
  | validator => "validator"

def asCode : SponsoredActionKind → UInt8
  | publisher => 0
  | validator => 1

def fromCode (value : UInt8) : Option SponsoredActionKind :=
  if value = 0 then some publisher else if value = 1 then some validator else none

def fromKey (value : String) : Option SponsoredActionKind :=
  let key := toAsciiLowercase value
  if key = "publisher" then some publisher else if key = "validator" then some validator else none

end SponsoredActionKind

structure PermitMessage where
  (owner spender value nonce deadline : String)

structure SponsoredStakeIntentMessage where
  (owner tokenContract stakingContract : String)
  action : UInt8
  (amount permitNonce permitDeadline relayerNonce expiresAt : String)

structure SponsorRequest where
  action : String
  permitMessage : PermitMessage
  intentMessage : SponsoredStakeIntentMessage
  (permitSignature intentSignature : String)

structure ValidatedActionRequest where
  action : SponsoredActionKind
  (owner tokenContract stakingContract : Address)
  (amount permitNonce permitDeadline relayerNonce expiresAt : Nat)

structure ParsedSignatureParts where
  v : UInt8
  (r s : Word)

structure SponsorResponse where
  success : Bool
  (requestId status : String)
  txHash : Option String
  message : String

inductive StatusCode
  | badRequest | conflict | tooManyRequests | badGateway

abbrev Answer := StatusCode × SponsorResponse

def rejected (code : StatusCode) (message : String) : Answer := (code,⟨false,"","rejected",none,message⟩)

def failed (code : StatusCode) (message : String) : Answer := (code,⟨false,"","failed",none,message⟩)

structure LoadedChainPolicy where
  (dailyWalletQuota dailyIpQuota : Nat)
  allowContracts : List Address
  -- the largest amount of each action
  actions : SponsoredActionKind → Option Nat

structure LoadedPolicy where
  (domainName domainVersion : String)
  maxExpirySeconds : Nat
  chain : LoadedChainPolicy

structure RelayerConfig where
  relayerAddress : Address
  activeChainId : Nat

structure RelayerCrates where
  address : String → Except String Address
  u256 : String → Except String Nat
  u64 : String → Except String Nat
  keccak256 : List UInt8 → Word
  signatureFormat : List UInt8 → Except String Unit
  -- the public key as an uncompressed point
  recoverFromPrehash : (digest : Word) → (signature : List UInt8) → (recoveryId : UInt8) → Except String (List UInt8)

abbrev DailyCounter := Counter

structure AppState where
  config : RelayerConfig
  policy : LoadedPolicy
  sponsorNonces : Table String Nat
  (walletDailyCounts ipDailyCounts : Table String DailyCounter)

section Checks
variable (crates : RelayerCrates)

/-- An address as it is displayed, with the capitals that the hash of its digits asks for. -/
def displayAddress (a : Address) : String :=
  let digits := hexEncode (SetSync.addressBytes a)
  let hash := crates.keccak256 (bytes digits)
  "0x" ++ String.ofList ((toChars digits).zipIdx.map fun (c,i) => if 8 ≤ hash.toNat / 16 ^ (63 - i) % 16 then c.toUpper else c)

def parseAddress (value fieldName : String) : Except String Address :=
  (crates.address value).mapError fun error => "Invalid " ++ fieldName ++ ": " ++ error

def parseU256 (value fieldName : String) : Except String Nat :=
  (crates.u256 value).mapError fun error => "Invalid " ++ fieldName ++ ": " ++ error

def parseU64 (value fieldName : String) : Except String Nat :=
  (crates.u64 value).mapError fun error => "Invalid " ++ fieldName ++ ": " ++ error

def walletQuotaKey (owner : Address) (action : SponsoredActionKind) : String :=
  displayAddress crates owner ++ ":" ++ action.asStr

def ipQuotaKey (chainId : Nat) (ip : String) : String := toString chainId ++ ":" ++ ip

def sponsorNonceKey (chainId : Nat) (owner : Address) : String := toString chainId ++ ":" ++ displayAddress crates owner

def currentNonce (store : Table String Nat) (key : String) : Nat := Ledger.read 0 store key

variable (now : Nat)

def day : Nat := now / 86400

variable (store : Table String DailyCounter)

def checkQuota (key : String) (limit : Nat) : Except String Unit :=
  match store.lookup key with
  | some counter =>
    if counter.day = day now ∧ limit ≤ counter.count then .error ("Daily quota reached for " ++ key ++ ".") else .ok ()
  | none => .ok ()

def nextCount (key : String) : DailyCounter where
  day := day now
  count :=
    match store.lookup key with
    | some entry => if entry.day = day now then entry.count + 1 else 1
    | none => 1

def ensureContractAllowed (chain : LoadedChainPolicy) (contract : Address) (label : String) : Except String Unit :=
  if chain.allowContracts.contains contract then .ok () else .error (label ++ " is not allowlisted by the relayer policy.")

variable (state : AppState)

def validateSponsorRequest (time : Nat) (request : SponsorRequest) : Except String ValidatedActionRequest := do
  let some action := SponsoredActionKind.fromKey request.action
    | throw ("Unsupported sponsored action: " ++ request.action)
  let some intentAction := SponsoredActionKind.fromCode request.intentMessage.action
    | throw "Intent message uses an unsupported action code."
  if intentAction ≠ action then throw "Action mismatch between sponsor request and typed intent."
  let owner ← parseAddress crates request.intentMessage.owner "intent owner"
  let permitOwner ← parseAddress crates request.permitMessage.owner "permit owner"
  if owner ≠ permitOwner then throw "Permit owner and intent owner do not match."
  let tokenContract ← parseAddress crates request.intentMessage.tokenContract "token contract"
  let stakingContract ← parseAddress crates request.intentMessage.stakingContract "staking contract"
  let permitSpender ← parseAddress crates request.permitMessage.spender "permit spender"
  if permitSpender ≠ stakingContract then throw "Permit spender must match the staking contract."
  let amount ← parseU256 crates request.intentMessage.amount "amount"
  let value ← parseU256 crates request.permitMessage.value "permit value"
  if amount ≠ value then throw "Permit value must match the sponsored amount."
  let permitNonce ← parseU256 crates request.intentMessage.permitNonce "permit nonce"
  let nonce ← parseU256 crates request.permitMessage.nonce "permit nonce"
  if permitNonce ≠ nonce then throw "Permit nonce mismatch between permit and intent message."
  let permitDeadline ← parseU256 crates request.intentMessage.permitDeadline "permit deadline"
  let deadline ← parseU256 crates request.permitMessage.deadline "permit deadline"
  if permitDeadline ≠ deadline then throw "Permit deadline mismatch between permit and intent message."
  let relayerNonce ← parseU256 crates request.intentMessage.relayerNonce "relayer nonce"
  let expiresAt ← parseU256 crates request.intentMessage.expiresAt "intent expiry"
  if expiresAt ≤ time then throw "Sponsored intent has already expired."
  if permitDeadline ≤ time then throw "Permit has already expired."
  let maxFuture := time + state.policy.maxExpirySeconds
  if maxFuture < expiresAt ∨ maxFuture < permitDeadline then throw "Requested expiry exceeds relayer policy limits."
  ensureContractAllowed state.policy.chain tokenContract "token contract"
  ensureContractAllowed state.policy.chain stakingContract "staking contract"
  let some maxAmountWei := state.policy.chain.actions action
    | throw ("Policy does not allow sponsored " ++ action.asStr ++ " actions.")
  if maxAmountWei < amount then throw ("Requested amount exceeds the relayer policy cap for " ++ action.asStr ++ ".")
  return ⟨action,owner,tokenContract,stakingContract,amount,permitNonce,permitDeadline,relayerNonce,expiresAt⟩

def domainSeparator (name version : String) (chainId : Nat) (verifyingContract : Address) : Word :=
  crates.keccak256 (encode
    [crates.keccak256 (bytes "EIP712Domain(string name,string version,uint256 chainId,address verifyingContract)"),
      crates.keccak256 (bytes name),crates.keccak256 (bytes version),ofUint chainId,
      ofAddress verifyingContract])

def typedDataDigest (domainSeparator structHash : Word) : Word :=
  crates.keccak256 ([0x19,0x01] ++ Abi.bytes domainSeparator ++ Abi.bytes structHash)

def hashSponsoredIntent (request : ValidatedActionRequest) : Word :=
  typedDataDigest crates
    (domainSeparator crates state.policy.domainName state.policy.domainVersion state.config.activeChainId
      state.config.relayerAddress)
    (crates.keccak256 (encode
      [crates.keccak256 (bytes ("SponsoredStakeIntent(address owner,address tokenContract,address stakingContract," ++
          "uint8 action,uint256 amount,uint256 permitNonce,uint256 permitDeadline,uint256 relayerNonce,uint256 expiresAt)")),
        ofAddress request.owner,ofAddress request.tokenContract,ofAddress request.stakingContract,
        ofUint request.action.asCode.toNat,ofUint request.amount,ofUint request.permitNonce,
        ofUint request.permitDeadline,ofUint request.relayerNonce,ofUint request.expiresAt]))

def hashPermit (prepared : ValidatedActionRequest) : Word :=
  typedDataDigest crates
    (domainSeparator crates "Chain Registry Token" "1" state.config.activeChainId prepared.tokenContract)
    (crates.keccak256 (encode
      [crates.keccak256 (bytes "Permit(address owner,address spender,uint256 value,uint256 nonce,uint256 deadline)"),
        ofAddress prepared.owner,ofAddress prepared.stakingContract,ofUint prepared.amount,
        ofUint prepared.permitNonce,ofUint prepared.permitDeadline]))

variable (signatureHex : String)

def parseSignatureBytes : Except String (Vector UInt8 65) := do
  let decoded ← (hexDecode (trimStartHexMark (trim signatureHex))).mapError
    fun error => "Invalid hex signature: " ++ error
  if size : decoded.length = 65 then return ⟨decoded.toArray,size⟩
  else throw "Signatures must be 65-byte hex strings."

def normalizeRecoveryId (v : UInt8) : Except String UInt8 :=
  if v = 0 ∨ v = 1 then .ok v
  else if v = 27 ∨ v = 28 then .ok (v - 27)
  else .error ("Unsupported recovery id: " ++ toString v)

theorem lastByte : 64 < 65 := by decide

def parseSignatureParts : Except String ParsedSignatureParts := do
  let bytes ← parseSignatureBytes signatureHex
  let last := bytes.get ⟨64,lastByte⟩
  return {
    -- `saturating_add`
    v := if last = 27 ∨ last = 28 then last else UInt8.ofNat (min (last.toNat + 27) 255)
    r := word (bytes.toList.take 32)
    s := word ((bytes.toList.drop 32).take 32) }

def recoverAddressFromSignature (digest : Word) (signatureHex : String) : Except String Address := do
  let bytes ← parseSignatureBytes signatureHex
  let recoveryId ← normalizeRecoveryId (bytes.get ⟨64,lastByte⟩)
  let signature := bytes.toList.take 64
  (crates.signatureFormat signature).mapError fun error => "Invalid ECDSA signature: " ++ error
  let pubkey ← (crates.recoverFromPrehash digest signature recoveryId).mapError
    fun error => "Failed to recover signer: " ++ error
  return (crates.keccak256 (pubkey.drop 1)).setWidth 160

variable (request : SponsorRequest) (prepared : ValidatedActionRequest)

def verifyIntentSignature :
    Except String Unit := do
  let recovered ← recoverAddressFromSignature crates (hashSponsoredIntent crates state prepared) request.intentSignature
  if recovered ≠ prepared.owner then
    throw ("Intent signature recovered " ++ displayAddress crates recovered ++ ", expected " ++
      displayAddress crates prepared.owner ++ ".")

def verifyPermitSignature :
    Except String Unit := do
  let recovered ← recoverAddressFromSignature crates (hashPermit crates state prepared) request.permitSignature
  if recovered ≠ prepared.owner then
    throw ("Permit signature recovered " ++ displayAddress crates recovered ++ ", expected owner " ++
      displayAddress crates prepared.owner ++ ".")

end Checks

structure Admitted where
  prepared : ValidatedActionRequest
  expectedNonce : Nat
  permitSignature : ParsedSignatureParts

inductive Progress
  | permitted | nonceTaken
  -- within the first `record_quota`, between its `get` and its `insert`
  | walletRead (counter : DailyCounter)
  | walletRecorded
  | ipRead (counter : DailyCounter)
  | ipRecorded
  -- `send_sponsored_transaction` is called, on this day
  | sent (day : Nat)

inductive Stage
  | received
  | validated (prepared : ValidatedActionRequest)
  | walletChecked (prepared : ValidatedActionRequest)
  | ipChecked (prepared : ValidatedActionRequest)
  | fetching (prepared : ValidatedActionRequest) (expectedNonce : Nat)
  | recording (admitted : Admitted) (progress : Progress)
  | answered (answer : Answer)

structure Call where
  clientIp : String
  request : SponsorRequest
  stage : Stage

variable (crates : RelayerCrates)

def AppState.checked (state : AppState) (now : Nat) (reply : Except String Nat) (call : Call) : Except Answer Stage :=
  match call.stage with
  | .received => do
    let prepared ← (validateSponsorRequest crates state now call.request).mapError (rejected .badRequest)
    return .validated prepared
  | .validated prepared => do
    (checkQuota now state.walletDailyCounts (walletQuotaKey crates prepared.owner prepared.action)
      state.policy.chain.dailyWalletQuota).mapError (rejected .tooManyRequests)
    return .walletChecked prepared
  | .walletChecked prepared => do
    (checkQuota now state.ipDailyCounts (ipQuotaKey state.config.activeChainId call.clientIp)
      state.policy.chain.dailyIpQuota).mapError (rejected .tooManyRequests)
    return .ipChecked prepared
  | .ipChecked prepared => do
    let expected := currentNonce state.sponsorNonces (sponsorNonceKey crates state.config.activeChainId prepared.owner)
    let provided ← (parseU64 crates call.request.intentMessage.relayerNonce "relayer nonce").mapError (rejected .badRequest)
    if provided ≠ expected then
      throw (rejected .conflict ("Relayer nonce mismatch. Expected " ++ toString expected ++ ", got " ++
        toString provided ++ "."))
    (verifyIntentSignature crates state call.request prepared).mapError (rejected .badRequest)
    return .fetching prepared expected
  | .fetching prepared expected => do
    let onChain ← reply.mapError fun error => failed .badGateway ("Relayer failed to reach blockchain node: " ++ error)
    if onChain ≠ prepared.permitNonce then
      throw (rejected .conflict ("Permit nonce mismatch. Current on-chain nonce is " ++ toString onChain ++ ", requested " ++
        toString prepared.permitNonce ++ "."))
    let parts ← (parseSignatureParts call.request.permitSignature).mapError (rejected .badRequest)
    (verifyPermitSignature crates state call.request prepared).mapError (rejected .badRequest)
    return .recording ⟨prepared,expected,parts⟩ .permitted
  | .recording admitted progress => .ok (.recording admitted progress)
  | .answered answer => .error answer

variable (config : RelayerConfig) (admitted : Admitted)

def Admitted.nonceKey : String :=
  sponsorNonceKey crates config.activeChainId admitted.prepared.owner

def Admitted.walletKey : String :=
  walletQuotaKey crates admitted.prepared.owner admitted.prepared.action

/-- The writes, in the order of the code. The new nonce is a `u64`, which wraps. -/
def AppState.recorded (state : AppState) (now : Nat) (clientIp : String) (admitted : Admitted) : Progress → AppState × Progress
  | .permitted =>
    ({state with sponsorNonces :=
        state.sponsorNonces.insert (admitted.nonceKey crates state.config) ((admitted.expectedNonce + 1) % 2 ^ 64)},
      .nonceTaken)
  | .nonceTaken => (state,.walletRead (nextCount now state.walletDailyCounts (admitted.walletKey crates)))
  | .walletRead counter =>
    ({state with walletDailyCounts := state.walletDailyCounts.insert (admitted.walletKey crates) counter},.walletRecorded)
  | .walletRecorded => (state,.ipRead (nextCount now state.ipDailyCounts (ipQuotaKey state.config.activeChainId clientIp)))
  | .ipRead counter =>
    ({state with ipDailyCounts := state.ipDailyCounts.insert (ipQuotaKey state.config.activeChainId clientIp) counter},
      .ipRecorded)
  | .ipRecorded => (state,.sent (day now))
  | .sent day => (state,.sent day)

structure Process where
  state : AppState
  calls : List Call
  now : Nat

inductive Event
  | arrive (clientIp : String) (request : SponsorRequest)
  -- one call goes one step on
  | advance (call : Nat) (reply : Except String Nat)
  | clock (now : Nat)

def Process.step (process : Process) : Event → Process
  | .arrive clientIp request => {process with calls := process.calls ++ [⟨clientIp,request,.received⟩]}
  | .advance i reply =>
    match process.calls[i]? with
    | none => process
    | some call =>
      match call.stage with
      | .recording admitted progress =>
        let (state,progress) := process.state.recorded crates process.now call.clientIp admitted progress
        {process with state := state, calls := process.calls.set i {call with stage := .recording admitted progress}}
      | _ =>
        match process.state.checked crates process.now reply call with
        | .ok stage => {process with calls := process.calls.set i {call with stage := stage}}
        | .error answer => {process with calls := process.calls.set i {call with stage := .answered answer}}
  | .clock now => {process with now := now}

/-- A start restores the nonces from their file; the counters are empty. -/
def Process.start (policy : LoadedPolicy) (restored : Table String Nat) (now : Nat) : Process where
  state := ⟨config,policy,restored,∅,∅⟩
  calls := []
  now := now

end ChainRegistry.Relayer
