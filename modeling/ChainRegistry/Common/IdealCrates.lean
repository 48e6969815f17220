import ChainRegistry.Common.Block
import ChainRegistry.Lib.Codes

/-! What the security arguments assume of the hash, serialization and signature
crates, and instances that meet the assumptions by keeping their input readable. -/
namespace ChainRegistry
open Lib Codes List

structure Crates.CollisionFree (crates : Crates) : Prop where
  digest : Function.Injective crates.sha256Hex
  header : Function.Injective crates.headerJson

theorem Crates.CollisionFree.headers {crates : Crates} (free : crates.CollisionFree) {a b : Block}
    (same : a.hash crates = b.hash crates) : a.header = b.header :=
  free.header (free.digest same)

structure Crates.SignaturesCorrect (crates : Crates) : Prop where
  accepted : ∀ key, crates.signingKey key = .ok () → crates.verifyingKey (crates.verifyingKeyOf key) = .ok ()
  formatted : ∀ key message, crates.signingKey key = .ok () →
    crates.signatureFormat (crates.sign key message) = .ok ()
  verifies : ∀ key message, crates.signingKey key = .ok () →
    crates.verify (crates.verifyingKeyOf key) message (crates.sign key message) = .ok ()

namespace Ideal
def sha256Hex (data : List UInt8) : String := String.ofList (data.map fun b => Char.ofNat b.toNat)

def text : String → List UInt8 := short zeroHash Text.bytes

def optionText : Option String → List UInt8
  | none => [0]
  | some s => 1 :: text s

def timestamp (t : DateTime) : List UInt8 := (if 0 ≤ t then 0 else 1) :: number t.natAbs

def fields (header : BlockHeader) : List UInt8 :=
  number header.height ++ (text header.prevHash ++ (text header.merkleRoot ++ (text header.proposerId ++
    (timestamp header.timestamp ++ (text header.validatorSetHash ++ (optionText header.vrfOutput ++
      optionText header.vrfProof))))))

def headerJson (known : List BlockHeader) (header : BlockHeader) : List UInt8 :=
  match known.findIdx? (fun other => other = header) with
  | some index => List.replicate (index + 1) 65
  | none => 0 :: fields header

def transactionJson : Transaction → List UInt8
  | .publish record => 0 :: text record.id.canonical ++ text record.contentHash
  | .revoke canonical reason _ _ => 1 :: text canonical ++ text reason
  | .slash id amount _ => 2 :: text id ++ number amount
  | .validatorJoin id pubkey _ => 3 :: text id ++ text pubkey
  | .validatorLeave id => 4 :: text id
  | .rotatePublisherKey canonicalPrefix oldPubkey newPubkey _ _ _ _ =>
    5 :: text canonicalPrefix ++ text oldPubkey ++ text newPubkey

/-- A signature is the public key and a tag of the message; a public key is the first byte
of its private key. -/
def crates (known : List BlockHeader) (tag : List UInt8 → List UInt8) : Crates where
  sha256Hex := sha256Hex
  headerJson := headerJson known
  transactionJson := transactionJson
  verifyingKey key := if key.length = 1 then .ok () else .error "signature error"
  signatureFormat _ := .ok ()
  verify key message signature := if signature = key ++ tag message then .ok () else .error "signature error"
  signingKey key := if key.length = 32 then .ok () else .error "signature error"
  verifyingKeyOf key := key.take 1
  sign key message := key.take 1 ++ tag message

def checksum (message : List UInt8) : List UInt8 := [message.foldl (· + ·) 0]

theorem bytes_injective : Function.Injective Text.bytes := by
  intro a b same
  apply String.toByteArray_inj.mp
  apply ByteArray.ext
  exact Array.toList_inj.mp same

theorem delimits_text : Delimits text := delimits_short zeroHash bytes_injective

theorem delimits_optionText : Delimits optionText := by
  intro a b rest other same
  cases a with
  | none =>
    cases b with
    | none => exact ⟨rfl,by simpa [optionText] using same⟩
    | some t => simp [optionText] at same
  | some s =>
    cases b with
    | none => simp [optionText] at same
    | some t =>
      simp only [optionText,cons_append,List.cons.injEq,true_and] at same
      obtain ⟨texts,rests⟩ := delimits_text _ _ _ _ same
      exact ⟨by rw [texts],rests⟩

private theorem int_of_sign_and_size (a b : Int) (signs : 0 ≤ a ↔ 0 ≤ b) (sizes : a.natAbs = b.natAbs) : a = b := by
  omega

theorem delimits_timestamp : Delimits timestamp := by
  intro a b rest other same
  simp only [timestamp,cons_append,List.cons.injEq] at same
  obtain ⟨sizes,rests⟩ := delimits_number _ _ _ _ same.2
  refine ⟨int_of_sign_and_size a b ?_ sizes,rests⟩
  have signs := same.1
  constructor
  · intro first
    by_contra second
    simp [first,second] at signs
  · intro second
    by_contra first
    simp [first,second] at signs

theorem fields_injective : Function.Injective fields := by
  have fields := (delimits_number.pair (delimits_text.pair (delimits_text.pair (delimits_text.pair
    (delimits_timestamp.pair (delimits_text.pair (delimits_optionText.pair delimits_optionText)))))))
  have view : Function.Injective (fun h : BlockHeader => (h.height,h.prevHash,h.merkleRoot,h.proposerId,
      h.timestamp,h.validatorSetHash,h.vrfOutput,h.vrfProof)) := by
    intro a b same
    cases a
    cases b
    simpa using same
  exact (fields.comap view).injective

theorem headerJson_injective (known : List BlockHeader) : Function.Injective (headerJson known) :=
  listed_injective known fields_injective

private theorem charOfByte_toNat (byte : UInt8) : (Char.ofNat byte.toNat).toNat = byte.toNat := by
  have valid : byte.toNat.isValidChar := .inl (by have := byte.toNat_lt; omega)
  rw [Char.ofNat,dif_pos valid]
  rfl

theorem sha256Hex_injective : Function.Injective sha256Hex := by
  intro a b same
  apply map_injective_iff.mpr _ (String.ofList_injective same)
  intro x y chars
  have numbers := congrArg Char.toNat chars
  rw [charOfByte_toNat,charOfByte_toNat] at numbers
  exact UInt8.toNat_inj.mp numbers

variable (known : List BlockHeader) (tag : List UInt8 → List UInt8)

theorem collisionFree : (crates known tag).CollisionFree := ⟨sha256Hex_injective,headerJson_injective known⟩

theorem signaturesCorrect : (crates known tag).SignaturesCorrect where
  accepted key size := by
    by_cases long : key.length = 32 <;> simp [crates,long] at size ⊢
  formatted _ _ _ := rfl
  verifies key message _ := by simp [crates]

end Ideal
end ChainRegistry
