import ChainRegistry.Node.AdmissionSurfaces

/-! How many keys stand behind a publication with several signatures. -/
namespace ChainRegistry
open Lib List Text PublishRequest

def keyBytes (pubkey : String) : List UInt8 := (hexDecode pubkey).toOption.getD []

variable (request : PublishRequest)

def PublishRequest.signatureMessage : String :=
  publishSignatureMessage request.id request.contentHash request.publisherAddress

def PublishRequest.needed : Nat := if request.threshold = 0 then 2 else request.threshold

section
variable (crates : Crates)

def signed (message : String) (pubkeys signatures : List String) : List String :=
  ((pubkeys.zip signatures).filter (publisherSigned crates message)).map Prod.fst

def PublishRequest.signers (request : PublishRequest) : Finset (List UInt8) :=
  ((signed crates request.signatureMessage request.publisherPubkeys request.signatures).map keyBytes).toFinset

variable {crates} {message : String} {pubkeys signatures keys : List String}

theorem verifyPublishSig_several (request : PublishRequest) (addressed : Text.isEmpty (trim request.publisherAddress) = false)
    (several : request.publisherPubkeys ≠ []) :
    verifyPublishSig crates request = .ok () ↔ request.signatures.length = request.publisherPubkeys.length ∧
      request.needed ≤ (signed crates request.signatureMessage request.publisherPubkeys request.signatures).length := by
  rw [signed,length_map,← countP_eq_length_filter]
  unfold verifyPublishSig verifyMultiSig
  rw [if_neg (by simp [addressed])]
  rw [if_neg several]
  by_cases length : request.signatures.length = request.publisherPubkeys.length
  · rw [if_neg (not_not.mpr length)]
    by_cases enough : request.needed ≤ (request.publisherPubkeys.zip request.signatures).countP
        (publisherSigned crates request.signatureMessage)
    · simp only [length,enough,true_and,iff_true]
      exact if_pos enough
    · simp only [length,enough,true_and,iff_false]
      rw [needed,signatureMessage] at enough
      simp [enough]
  · simp [length]

theorem addressed_of_ok {request : PublishRequest} (accepted : verifyPublishSig crates request = .ok ()) :
    Text.isEmpty (trim request.publisherAddress) = false := by
  by_contra missing
  rw [verifyPublishSig,if_pos (by simpa using missing)] at accepted
  cases accepted

/-- As many keys as needed sign an accepted request in which no two of the entries that verify have one key; and
where no more entries verify than are needed, only such a request has them. -/
theorem publish_signers_distinct (request : PublishRequest) (several : request.publisherPubkeys ≠ [])
    (accepted : verifyPublishSig crates request = .ok ()) :
    (((signed crates request.signatureMessage request.publisherPubkeys request.signatures).map keyBytes).Nodup →
      request.needed ≤ (request.signers crates).card) ∧
    ((signed crates request.signatureMessage request.publisherPubkeys request.signatures).length = request.needed →
      request.needed ≤ (request.signers crates).card →
      ((signed crates request.signatureMessage request.publisherPubkeys request.signatures).map keyBytes).Nodup) := by
  have enough := ((verifyPublishSig_several request (addressed_of_ok accepted) several).mp accepted).2
  rw [signers,card_toFinset]
  constructor
  · intro distinct
    rwa [distinct.dedup,length_map]
  · intro tight many
    rw [← tight,← length_map keyBytes] at many
    exact dedup_eq_self.mp ((dedup_sublist _).eq_of_length_le many)

end

namespace Solo
def listed (pubkeys : List String) : PublishRequest :=
  {signedRequest with threshold := 2, publisherPubkeys := pubkeys, signatures := pubkeys.map fun _ => signedRequest.signature}

def signatureOf (key : UInt8) : String := Text.hexEncode (crates.sign [key] (Text.bytes signedRequest.signatureMessage))

/-- A key that is listed twice and has signed once, and another key. -/
def twoSigned : PublishRequest := {listed ["01","01","02"] with signatures := [signatureOf 1,"zz",signatureOf 2]}

end Solo

theorem different_keys_sign : 2 ≤ (Solo.twoSigned.signers Solo.crates).card :=
  (publish_signers_distinct Solo.twoSigned (by decide) (by decide +kernel)).1 (by decide +kernel)

theorem one_key_signs_twice : verifyPublishSig Solo.crates (Solo.listed ["01","01"]) = .ok () ∧
    ((Solo.listed ["01","01"]).signers Solo.crates).card = 1 ∧ (Solo.listed ["01","01"]).needed = 2 := by
  decide +kernel

end ChainRegistry
