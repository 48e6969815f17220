import ChainRegistry.Common.Package

/-! Blocks, validators and gossip messages: `crates/common/src/block.rs` and
`lib.rs`, with the third-party crates they call as a parameter of the model. -/
namespace ChainRegistry
structure BlockHeader where
  height : Nat
  (prevHash merkleRoot proposerId : String)
  timestamp : DateTime
  validatorSetHash : String
  (vrfOutput vrfProof : Option String)
  deriving DecidableEq

structure BlockSignature where
  (validatorId pubkey signature : String)
  deriving DecidableEq

inductive Transaction
  | publish (record : ChainRecord)
  | revoke (packageCanonical reason revokedBy evidenceHash : String)
  | slash (validatorId : String) (amount : Nat) (reason : String)
  | validatorJoin (validatorId pubkey : String) (stake : Nat)
  | validatorLeave (validatorId : String)
  | rotatePublisherKey (canonicalPrefix oldPubkey newPubkey sigFromOld sigFromNew : String)
      (timestamp : DateTime) (nonce : Nat)
  deriving DecidableEq

structure Block where
  header : BlockHeader
  transactions : List Transaction
  pbftSignatures : List BlockSignature
  deriving DecidableEq

structure Validator where
  (id aliasName pubkey ethAddress : String)
  (stake reputation : Nat)
  status : String
  deriving DecidableEq

/-- `common::ValidatorSet`, the list that the node keeps in its state. -/
abbrev Validators := List Validator

inductive GossipMessage
  | publishRequest (request : PublishRequest)
  | vrfProof (validatorId pubkey epochSeed output proof : String)
  | viewChange (blockHash : String) (newView : Nat) (validatorId signature : String)
  | pbftPrePrepare (block : Block)
  | pbftPrepare (blockHash validatorId signature : String)
  | pbftCommit (blockHash validatorId signature : String)
  | validatorRegistration (evmAddress nodeId ed25519Pubkey : String) (aliasName : Option String)
      (nonce evmSignature ed25519Signature : String)
  deriving DecidableEq

/-- What the third-party crates compute: `sha2`, `serde_json` and `ed25519_dalek`.
Keys and signatures are their bytes; a fallible constructor says whether the
bytes are accepted. -/
structure Crates where
  sha256Hex : List UInt8 → String
  headerJson : BlockHeader → List UInt8
  transactionJson : Transaction → List UInt8
  verifyingKey : List UInt8 → Except String Unit
  signatureFormat : List UInt8 → Except String Unit
  verify : (key message signature : List UInt8) → Except String Unit
  signingKey : List UInt8 → Except String Unit
  verifyingKeyOf : List UInt8 → List UInt8
  sign : (key message : List UInt8) → List UInt8

variable (crates : Crates)

def sha256Text (text : String) : String := crates.sha256Hex (Text.bytes text)

/-- The block hash covers the serialized header and nothing else. -/
def Block.hash (block : Block) : String := crates.sha256Hex (crates.headerJson block.header)

def zeroHash : String := String.ofList (List.replicate 64 '0')

def Block.genesis : Block where
  header :=
    { height := 0, prevHash := zeroHash, merkleRoot := zeroHash, proposerId := "genesis"
      timestamp := 1704067200000000000, validatorSetHash := zeroHash
      vrfOutput := none, vrfProof := none }
  transactions := []
  pbftSignatures := []

/-- One round of the loop of `merkle_root`: an odd last hash is paired with itself. -/
def merkleLevel : List String → List String
  | left :: right :: rest => sha256Text crates (left ++ right) :: merkleLevel rest
  | [last] => [sha256Text crates (last ++ last)]
  | [] => []

def merkleFold : Nat → List String → String
  | _, [] => ""
  | _, [root] => root
  | 0, first :: _ => first
  | fuel + 1, hashes => merkleFold fuel (merkleLevel crates hashes)

def transactionHash (tx : Transaction) : String := crates.sha256Hex (crates.transactionJson tx)

/-- Every level is at most as long as the one before, so that the number of
transactions bounds the number of levels. -/
def merkleRoot (txs : List Transaction) : String :=
  if txs = [] then sha256Text crates "empty"
  else merkleFold crates txs.length (txs.map (transactionHash crates))

def scannerProfileDigest (scannerVersion : String) (refs : AnalysisBundleRefs) : String :=
  sha256Text crates (refs.scannerProfileInput scannerVersion)

end ChainRegistry
