import ChainRegistry.ZkValidator.BatchCircuit

/-! Proofs of double signing: `SlashingProofGenerator` of `crates/zk-validator/src/slashing.rs` with
the inputs of `DoubleSignCircuit`. The witness of an evidence value is not read, and what is only
logged is left out. -/
namespace ChainRegistry
open Lib Fallible Text

structure DoubleSignPublicInputs where
  (validatorPubkeyX validatorPubkeyY packageHash vote1Hash vote2Hash : String)

structure VoteDetails where
  approved : Bool
  blockHeight : Nat
  signatureHex : String

structure DoubleSignEvidence where
  publicInputs : DoubleSignPublicInputs
  (validatorAddress packageCanonical : String)
  (vote1Details vote2Details : VoteDetails)

/-- `sha2`, `ed25519-dalek` and `ark-groth16` with the keys of the node. -/
structure SlashingCrates (π : Type) where
  sha256 : List UInt8 → List UInt8
  verifyingKey : List UInt8 → Except String Unit
  verify : (key message signature : List UInt8) → Bool
  prove : List (List UInt8) → Except String π
  selfVerify : List Fr → π → Except String Bool

structure ZKSlashingProof (π : Type) where
  proof : π
  publicInputs : List Fr
  (offender nullifier : String)

namespace DoubleSignEvidence
variable {π : Type} (crates : SlashingCrates π)

def parseValidatorPubkey (x y : String) : Except String (List UInt8) :=
  let yTrim := trimStartHexMark y
  let xTrim := trimStartHexMark x
  if isEmpty yTrim ∨ yTrim = "0" then do
    let data ← (hexDecode xTrim).mapError fun _ => "decode validator pubkey X"
    return if data.length = 32 then data else crates.sha256 data
  else .ok (crates.sha256 ((hexDecode xTrim).toOption.getD (bytes x) ++ (hexDecode yTrim).toOption.getD (bytes y)))

def hex32 (s context : String) : Except String (List UInt8) := do
  let data ← (hexDecode (trimStartHexMark s)).mapError fun _ => context
  if data.length = 32 then return data else throw context

def message (canonical : String) (vote : VoteDetails) : String :=
  canonical ++ ":" ++ toString vote.approved ++ ":" ++ toString vote.blockHeight

/-- A signature that is no hex text of 64 bytes is not looked at. -/
def verifyVoteSig (key : List UInt8) (canonical label : String) (vote : VoteDetails) : Except String Unit :=
  match hexDecode (trimStartHexMark vote.signatureHex) with
  | .error _ => .ok ()
  | .ok signature =>
    if signature.length = 64 then do
      (crates.verifyingKey key).mapError ("invalid Ed25519 pubkey in evidence: " ++ ·)
      if crates.verify key (crates.sha256 (bytes (message canonical vote))) signature then return ()
      else throw (label ++ " Ed25519 signature verification failed")
    else .ok ()

def pubkey (evidence : DoubleSignEvidence) : Except String (List UInt8) :=
  parseValidatorPubkey crates evidence.publicInputs.validatorPubkeyX evidence.publicInputs.validatorPubkeyY

def validateDoubleSignEvidence (evidence : DoubleSignEvidence) : Except String Unit := do
  if evidence.vote1Details.approved = evidence.vote2Details.approved then
    throw ("Votes are not conflicting: both are " ++ if evidence.vote1Details.approved then "approve" else "reject")
  let key ← evidence.pubkey crates
  verifyVoteSig crates key evidence.packageCanonical "vote1" evidence.vote1Details
  verifyVoteSig crates key evidence.packageCanonical "vote2" evidence.vote2Details

def circuitFromEvidence (evidence : DoubleSignEvidence) : Except String (List (List UInt8)) := do
  let validatorPubkey ← evidence.pubkey crates
  let packageHash ← hex32 evidence.publicInputs.packageHash "invalid package_hash in evidence"
  let vote1Hash ← hex32 evidence.publicInputs.vote1Hash "invalid vote1_hash in evidence"
  let vote2Hash ← hex32 evidence.publicInputs.vote2Hash "invalid vote2_hash in evidence"
  if vote1Hash = vote2Hash then throw "vote1_hash == vote2_hash: not a double-sign"
  return [validatorPubkey,packageHash,vote1Hash,vote2Hash]

def circuitInputs (hashes : List (List UInt8)) : List Fr :=
  hashes.flatMap fun hash => [Fr.fromLeBytesModOrder (hash.take 16),Fr.fromLeBytesModOrder (hash.drop 16)]

def computeNullifier (inputs : DoubleSignPublicInputs) : String :=
  hexEncode (crates.sha256 (bytes (inputs.validatorPubkeyX ++ ":" ++ inputs.validatorPubkeyY ++ ":" ++
    inputs.packageHash ++ ":" ++
    inputs.vote1Hash ++ ":" ++ inputs.vote2Hash)))

def generateDoubleSignProof (evidence : DoubleSignEvidence) : Except String (ZKSlashingProof π) := do
  evidence.validateDoubleSignEvidence crates
  let circuit ← evidence.circuitFromEvidence crates
  let proof ← crates.prove circuit
  let verified ← (crates.selfVerify (circuitInputs circuit) proof).mapError ("groth16 self-verify failed: " ++ ·)
  if verified then
    return ⟨proof,circuitInputs circuit,evidence.validatorAddress,computeNullifier crates evidence.publicInputs⟩
  else throw "generated double-sign proof failed self-verification"

def Decodes (vote : VoteDetails) : Prop :=
  ∃ signature, hexDecode (trimStartHexMark vote.signatureHex) = .ok signature ∧ signature.length = 64

def Signed (evidence : DoubleSignEvidence) (vote : VoteDetails) : Prop :=
  ∃ key signature, evidence.pubkey crates = .ok key ∧ crates.verifyingKey key = .ok () ∧
    hexDecode (trimStartHexMark vote.signatureHex) = .ok signature ∧ signature.length = 64 ∧
      crates.verify key (crates.sha256 (bytes (message evidence.packageCanonical vote))) signature

variable {crates} {evidence : DoubleSignEvidence} {vote : VoteDetails}

theorem verifyVoteSig_iff {key : List UInt8} {label : String} (keyed : evidence.pubkey crates = .ok key)
    (ok : verifyVoteSig crates key evidence.packageCanonical label vote = .ok ()) :
    evidence.Signed crates vote ↔ Decodes vote := by
  constructor
  · rintro ⟨_,signature,_,_,decoded,whole,_⟩
    exact ⟨signature,decoded,whole⟩
  · rintro ⟨signature,decoded,whole⟩
    simp only [verifyVoteSig,decoded,whole,if_true,bind_ok] at ok
    obtain ⟨_,accepted,ok⟩ := ok
    refine ⟨key,signature,keyed,?_,decoded,whole,?_⟩
    · exact (mapError_ok _ _ _).mp accepted
    · by_contra wrong
      simp [wrong] at ok

theorem message_approved {canonical : String} {a b : VoteDetails} (same : message canonical a = message canonical b) :
    a.approved = b.approved := by
  have chars := congrArg String.toList same
  simp only [message,String.toList_append,List.append_assoc,List.append_cancel_left_eq] at chars
  cases first : a.approved <;> cases second : b.approved <;> simp [first,second,toString] at chars ⊢

/-- A proof is about two signed votes only where both signatures were looked at. -/
theorem double_sign_signed_iff {proof : ZKSlashingProof π} (ok : evidence.generateDoubleSignProof crates = .ok proof) :
    (evidence.Signed crates evidence.vote1Details ∧ evidence.Signed crates evidence.vote2Details ∧
      message evidence.packageCanonical evidence.vote1Details ≠ message evidence.packageCanonical evidence.vote2Details) ↔
    Decodes evidence.vote1Details ∧ Decodes evidence.vote2Details := by
  simp only [generateDoubleSignProof,bind_ok] at ok
  obtain ⟨_,valid,_⟩ := ok
  simp only [validateDoubleSignEvidence,check_ok,bind_ok] at valid
  obtain ⟨conflicting,key,keyed,_,first,second⟩ := valid
  have differ : message evidence.packageCanonical evidence.vote1Details ≠ message evidence.packageCanonical
    evidence.vote2Details :=
    fun same => conflicting (message_approved same)
  rw [verifyVoteSig_iff keyed first,verifyVoteSig_iff keyed second,and_iff_left differ]

end DoubleSignEvidence

namespace Accused
open DoubleSignEvidence

def crates : SlashingCrates Unit := ⟨id,fun _ => .ok (),fun _ _ _ => true,fun _ => .ok (),fun _ _ => .ok true⟩

def filled (length : Nat) (byte : UInt8) : String := hexEncode (List.replicate length byte)

def evidence (signature : String) : DoubleSignEvidence :=
  ⟨⟨filled 32 1,"",filled 32 2,filled 32 3,filled 32 4⟩,"validator","npm:a@1",⟨true,5,signature⟩,⟨false,5,signature⟩⟩

theorem signed_twice : (evidence (filled 64 0)).Signed crates ⟨true,5,filled 64 0⟩ := by
  have accepted : ((evidence (filled 64 0)).generateDoubleSignProof crates).isOk := by decide +kernel
  obtain ⟨proof,ok⟩ := isOk_iff.mp accepted
  have decodes : hexDecode (trimStartHexMark (filled 64 0)) = .ok (List.replicate 64 0) := by decide +kernel
  exact ((double_sign_signed_iff ok).mpr ⟨⟨_,decodes,rfl⟩,⟨_,decodes,rfl⟩⟩).1

theorem proved_unsigned : ((evidence "").generateDoubleSignProof crates).isOk = true ∧
    ¬ (evidence "").Signed crates (evidence "").vote1Details := by
  refine ⟨by decide +kernel,?_⟩
  rintro ⟨_,signature,_,_,decoded,whole,_⟩
  have empty : hexDecode (trimStartHexMark "") = .ok [] := by decide +kernel
  cases empty.symm.trans decoded
  cases whole

end Accused
end ChainRegistry
