import ChainRegistry.Consensus.Pbft

/-! The light client of the resolver: `crates/resolver/src/light_client.rs`. The node's answers and
the environment variable are arguments; a slice inside a character of a peer's text panics. -/
namespace ChainRegistry
open Lib Text

inductive Failure
  | error (message : String)
  | panicked
  deriving DecidableEq

abbrev Outcome := Except Failure

def Outcome.of {α : Type} (result : Except String α) : Outcome α := result.mapError .error

structure Checkpoint where
  height : Nat
  hash : String

structure MerkleStep where
  siblingHash : String
  isRight : Bool

structure MerkleProof where
  txHash : String
  path : List MerkleStep
  expectedRoot : String

structure LightClientResponse where
  (status blockHash : String)
  blockHeader : BlockHeader
  proof : MerkleProof
  headerChain : List (BlockHeader × String)
  pbftSignatures : List BlockSignature
  activeValidators : Validators

structure HttpReply (α : Type) where
  status : Nat
  json : Except String α

def HttpReply.body {α : Type} (reply : HttpReply α) (refused invalid : String) : Except String α :=
  if 400 ≤ reply.status ∧ reply.status < 600 then .error refused else reply.json.mapError (fun _ => invalid)

structure Http (α : Type) where
  client : Except String Unit
  get : String → Except String (HttpReply α)

namespace Http
variable {α : Type}

def isLegacy (status : Nat) : Bool := status = 404 || status = 405 || status = 501

def getEither (http : Http α) (groupedUrl legacyUrl unreached legacyUnreached : String) : Except String (HttpReply α) := do
  let reply ← (http.get groupedUrl).mapError (fun _ => unreached)
  if isLegacy reply.status then (http.get legacyUrl).mapError (fun _ => legacyUnreached) else return reply

end Http

variable (crates : Crates)

def Checkpoint.genesis : Checkpoint := ⟨0,Block.genesis.hash crates⟩

def MerkleProof.climb (current : String) (step : MerkleStep) : String :=
  if step.isRight then sha256Text crates (current ++ step.siblingHash)
  else sha256Text crates (step.siblingHash ++ current)

def MerkleProof.verify (proof : MerkleProof) : Bool := proof.path.foldl (climb crates) proof.txHash = proof.expectedRoot

variable (validators : Validators)

def computeValidatorSetHash : String :=
  crates.sha256Hex (((validators.map Validator.id).insertionSort (fun a b => a ≤ b)).flatMap fun id => bytes id ++ [0])

/-- Only these two texts enable the exception here; the node reads more of them. -/
def clientSmallClusterFlag (value : Option String) : Bool := value = some "true" || value = some "1"

def clientQuorum (count : Nat) (allowSmallClusterQuorum : Bool) : Nat :=
  if count = 3 ∧ allowSmallClusterQuorum then 2 else 2 * count / 3 + 1

def validatorPubkeys : Table String String :=
  validators.foldl (fun keys v => keys.insert v.id (normalisedPubkey v.pubkey)) ∅

def verifyCommitSignature (blockHash expectedPubkey : String) (sig : BlockSignature) : Except String Unit := do
  let pubkeyBytes ← (hexDecode expectedPubkey).mapError
    (fun e => "Invalid validator pubkey hex for " ++ sig.validatorId ++ ": " ++ e)
  (crates.verifyingKey pubkeyBytes).mapError (fun e => "Invalid validator pubkey for " ++ sig.validatorId ++ ": " ++ e)
  let signatureBytes ← (hexDecode (trimStartHexMark sig.signature)).mapError
    (fun e => "Invalid signature hex from " ++ sig.validatorId ++ ": " ++ e)
  (crates.signatureFormat signatureBytes).mapError
    (fun e => "Invalid signature format from " ++ sig.validatorId ++ ": " ++ e)
  (crates.verify pubkeyBytes (bytes ("creg-pbft-v1:commit:" ++ blockHash)) signatureBytes).mapError
    (fun e => "Cryptographic signature verification failed for " ++ sig.validatorId ++ ": " ++ e)

/-- The loop over the signatures. One of an unknown validator, under another key or of a
validator already seen is passed over; any other has to verify. -/
def countSignatures (blockHash : String) (keys : Table String String) :
    List BlockSignature → Finset String → Except String (Finset String)
  | [], seen => .ok seen
  | sig :: rest, seen =>
    match keys.lookup sig.validatorId with
    | none => countSignatures blockHash keys rest seen
    | some expected =>
      if normalisedPubkey sig.pubkey ≠ expected then countSignatures blockHash keys rest seen
      else if sig.validatorId ∈ seen then countSignatures blockHash keys rest seen
      else
        match verifyCommitSignature crates blockHash expected sig with
        | .error e => .error e
        | .ok () => countSignatures blockHash keys rest (insert sig.validatorId seen)

variable (flag : Option String)

def verifyPbftConsensus (blockHash : String) (header : BlockHeader) (activeValidators : Validators)
    (pbftSignatures : List BlockSignature) : Except String Unit := do
  let computed := computeValidatorSetHash crates activeValidators
  if computed ≠ header.validatorSetHash then
    throw ("Validator set hash mismatch: header has " ++ header.validatorSetHash ++ ", computed " ++ computed)
  let n := activeValidators.length
  if n = 0 then throw "Active validator set is empty"
  let quorum := clientQuorum n (clientSmallClusterFlag flag)
  let seen ← countSignatures crates blockHash (validatorPubkeys activeValidators) pbftSignatures ∅
  if seen.card < quorum then
    throw ("Insufficient PBFT consensus signatures: got " ++ toString seen.card ++ " valid, need " ++ toString quorum ++
      " (quorum for validator set size " ++ toString n ++ ")")

def hashPrefix (value : String) : Outcome String :=
  match slice value (min (bytes value).length 12) with
  | some start => .ok start
  | none => .error .panicked

variable (header : BlockHeader)

def verifyHeader (expectedHash : String) (expectedHeight : Nat) : Outcome Unit := do
  let computed := crates.sha256Hex (crates.headerJson header)
  if computed ≠ expectedHash then
    let expected ← hashPrefix expectedHash
    let got ← hashPrefix computed
    throw (.error ("Block header hash mismatch at height " ++ toString expectedHeight ++ ": expected " ++ expected ++
      " got " ++ got))
  if header.height ≠ expectedHeight then
    throw (.error ("Block height mismatch: expected " ++ toString expectedHeight ++ " got " ++ toString header.height))

def checkLink (prevHash : String) : Outcome Unit :=
  if header.prevHash ≠ prevHash then do
    let expected ← hashPrefix prevHash
    let got ← hashPrefix header.prevHash
    throw (.error ("Chain break at height " ++ toString header.height ++ ": expected prev=" ++ expected ++ " got=" ++ got))
  else .ok ()

def verifyLinks (height : Nat) (hash : String) : List (BlockHeader × String) → Outcome Unit
  | [] => .ok ()
  | (header,nextHash) :: rest => do
    verifyHeader crates header nextHash (height + 1)
    checkLink header hash
    verifyLinks header.height nextHash rest

/-- The first header is checked against the checkpoint as a later one is against its predecessor. -/
def verifyHeaderChain (headers : List (BlockHeader × String)) (checkpoint : Checkpoint) : Outcome Unit :=
  verifyLinks crates checkpoint.height checkpoint.hash headers

def relevantHeaders (response : LightClientResponse) (checkpoint : Checkpoint) : List (BlockHeader × String) :=
  response.headerChain.filter fun entry => checkpoint.height < entry.1.height

def checkTerminal (canonical : String) (response : LightClientResponse) (checkpoint : Checkpoint) : Outcome Unit := do
  let relevant := relevantHeaders response checkpoint
  if checkpoint.height < response.blockHeader.height ∧ relevant = [] then
    throw (.error ("Header chain for " ++ canonical ++ " omitted the terminal block after checkpoint " ++
      toString checkpoint.height))
  match relevant.getLast? with
  | some (terminalHeader,terminalHash) =>
    if terminalHash ≠ response.blockHash ∨ terminalHeader.height ≠ response.blockHeader.height then
      throw (.error ("Header chain terminal entry does not match proof block for " ++ canonical))
    verifyHeaderChain crates relevant checkpoint
  | none =>
    if response.blockHeader.height ≠ checkpoint.height ∨ response.blockHash ≠ checkpoint.hash then
      throw (.error ("Checkpoint " ++ toString checkpoint.height ++ " does not match proof block " ++
        toString response.blockHeader.height ++ " for " ++ canonical))

def checkResponse (canonical : String) (response : LightClientResponse) (checkpoint : Checkpoint) :
    Outcome Bool := do
  if response.status ≠ "verified" then return false
  if !response.proof.verify crates then
    throw (.error ("Merkle proof verification failed for " ++ canonical))
  if response.proof.expectedRoot ≠ response.blockHeader.merkleRoot then
    throw (.error ("Merkle root mismatch in block header for " ++ canonical))
  verifyHeader crates response.blockHeader response.blockHash response.blockHeader.height
  .of (verifyPbftConsensus crates flag response.blockHash response.blockHeader response.activeValidators
    response.pbftSignatures)
  checkTerminal crates canonical response checkpoint
  -- the log line slices the block hash
  let _ ← hashPrefix response.blockHash
  return true

def proofUrl (nodeUrl group canonical : String) : String :=
  trimEndSlash nodeUrl ++ group ++ "/packages/" ++ urlEncode canonical ++ "/proof"

variable (http : Http LightClientResponse)

def fetchProof (canonical nodeUrl : String) : Except String LightClientResponse := do
  http.client
  let reply ← http.getEither (proofUrl nodeUrl "/v1/public" canonical) (proofUrl nodeUrl "/v1" canonical)
    "Failed to reach chain node for light-client proof" "Failed to reach legacy light-client proof endpoint"
  reply.body "Node returned an error for light-client proof"
    "Invalid JSON from light-client proof endpoint"

def verifyPackage (canonical nodeUrl : String) (checkpoint : Checkpoint) : Outcome Bool := do
  let response ← .of (fetchProof http canonical nodeUrl)
  checkResponse crates flag canonical response checkpoint

end ChainRegistry
