import ChainRegistry.Common.Block
import ChainRegistry.Lib.Table
import Mathlib.Data.List.Sort

/-! The active validator set and the choice of its proposer:
`crates/consensus/src/validator_set.rs` and the proposer rules of `vrf.rs`. -/
namespace ChainRegistry
open Lib Text

structure ValidatorInfo where
  (id pubkey : String)
  ethAddress : Option String
  (stake reputation : Nat)
  isActive : Bool
  deriving DecidableEq

structure ValidatorSet where
  validators : Table String ValidatorInfo

namespace ValidatorSet
def new : ValidatorSet := ⟨∅⟩

variable (set : ValidatorSet)

def add (info : ValidatorInfo) : ValidatorSet :=
  ⟨set.validators.insert info.id info⟩

def isMember (id : String) : Bool :=
  ((set.validators.lookup id).map ValidatorInfo.isActive).getD false

def active : List ValidatorInfo :=
  set.validators.values.filter ValidatorInfo.isActive

def len : Nat := set.active.length

end ValidatorSet

def Validator.isActive (v : Validator) : Bool := v.status == "online" || v.status == "self"

def Validator.info (v : Validator) : ValidatorInfo where
  id := v.id
  pubkey := v.pubkey
  ethAddress := some v.ethAddress
  stake := v.stake
  -- `try_into().unwrap_or(100)` from `u32` to `u8`
  reputation := if v.reputation < 256 then v.reputation else 100
  isActive := v.isActive

/-- `From<common::ValidatorSet>`: a later entry with the same id replaces an earlier one. -/
def ValidatorSet.ofCommon (validators : Validators) : ValidatorSet :=
  validators.foldl (fun set v => set.add v.info) .new

namespace Vrf
structure VrfValidator where
  (id pubkey : String)
  (vrfOutput vrfProof : Option String)
  deriving DecidableEq

variable (crates : Crates)

def prove (seed : List UInt8) (privkeyHex : String) : Except String (String × String) := do
  let key ← hexDecode (trim privkeyHex)
  if key.length ≠ 32 then throw "Private key must be 32 bytes"
  let sig := crates.sign key seed
  return (crates.sha256Hex sig,hexEncode sig)

def verify (seed : List UInt8) (pubkeyHex outputHex proofHex : String) : Except String Unit := do
  let key ← hexDecode pubkeyHex
  (crates.verifyingKey key).mapError (fun _ => "Invalid Ed25519 public key")
  let sig ← hexDecode proofHex
  (crates.signatureFormat sig).mapError (fun _ => "Invalid Ed25519 signature")
  (crates.verify key seed sig).mapError (fun _ => "VRF proof verification failed")
  if crates.sha256Hex sig ≠ outputHex then throw "VRF output does not match proof"

def scored (epochSeed : String) (v : VrfValidator) : String × String :=
  (v.id,sha256Text crates (v.pubkey ++ ":" ++ epochSeed))

/-- `Iterator::min_by` on the score: of equal scores the first one wins. -/
def lowestScore : List (String × String) → Option (String × String)
  | [] => none
  | first :: rest => some (rest.foldl (fun best next => if next.2 < best.2 then next else best) first)

variable (validators : List VrfValidator)

def selectProposerDeterministic (epochSeed : String) : Option String :=
  (lowestScore (validators.map (scored crates epochSeed))).map Prod.fst

def rankProposers (epochSeed : String) : List String :=
  ((validators.map (scored crates epochSeed)).insertionSort
    (fun a b => a.2 < b.2 ∨ a.2 = b.2 ∧ a.1 ≤ b.1)).map Prod.fst

end Vrf
end ChainRegistry
