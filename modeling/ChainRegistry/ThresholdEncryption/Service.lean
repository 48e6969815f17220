import ChainRegistry.Common.Text
import ChainRegistry.Lib.Table
import ChainRegistry.ThresholdEncryption.Shamir
import Mathlib.Data.Vector.Defs

/-! The decryption service of a validator and its client:
`crates/threshold-encryption/src/service.rs`, with the shares and the keys of `lib.rs` and the
messages of `distribution.rs`. -/
namespace ChainRegistry
open Lib Fallible Text ShamirSecretSharing
open List hiding Vector

/-- The hash, the cipher and the signatures of the crates, with what is drawn at random and read
from the clock as arguments of the functions. -/
structure ThresholdCrates where
  sha256 : List UInt8 → Vector UInt8 32
  encrypt : Vector UInt8 32 → (nonce plaintext : List UInt8) → List UInt8
  decrypt : Vector UInt8 32 → (nonce ciphertext : List UInt8) → Option (List UInt8)
  sign : (key message : List UInt8) → List UInt8
  verifyingKey : List UInt8 → Except String Unit
  verify : (key message signature : List UInt8) → Bool

structure ThresholdCrates.Authenticated (crates : ThresholdCrates) : Prop where
  opens : ∀ key nonce plaintext, crates.decrypt key nonce (crates.encrypt key nonce plaintext) = some plaintext
  refuses : ∀ key other nonce plaintext, other ≠ key → crates.decrypt other nonce (crates.encrypt key nonce plaintext) = none

def beBytes (count n : Nat) : List UInt8 := (List.range count).map fun i => UInt8.ofNat (n >>> (8 * (count - 1 - i)))

def beNat (bytes : List UInt8) : Nat := bytes.foldl (fun n byte => n * 256 + byte.toNat) 0

structure KeyShare where
  index : UInt8
  (value publicKey : List UInt8)

namespace KeyShare
def toBytes (share : KeyShare) : List UInt8 := share.index :: (beBytes 4 share.value.length ++ share.value ++ share.publicKey)

def toShare (share : KeyShare) : Share := ⟨share.index,share.value⟩

end KeyShare

structure ThresholdEncryption where
  (threshold totalShares : UInt8)

namespace ThresholdEncryption
def new (threshold totalShares : UInt8) : ThresholdResult ThresholdEncryption :=
  if threshold = 0 ∨ totalShares < threshold then .error (.error (.invalidThreshold threshold totalShares))
  else .ok ⟨threshold,totalShares⟩

def sss (te : ThresholdEncryption) : ShamirSecretSharing := ⟨te.threshold,te.totalShares⟩

/-- The public key of a share is the hash of its value. -/
def generateShares (crates : ThresholdCrates) (random : Nat → Nat → UInt8) (secret : List UInt8) (te : ThresholdEncryption) :
    List KeyShare :=
  (te.sss.splitSecret random secret).map fun share => ⟨share.index,share.value,(crates.sha256 share.value).toList⟩

theorem size_of_length {secret : List UInt8} (whole : secret.length = 32) : secret.toArray.size = 32 := whole

def reconstructKey (shares : List KeyShare) (te : ThresholdEncryption) : ThresholdResult (Vector UInt8 32) := do
  let secret ← te.sss.reconstructSecret (shares.map KeyShare.toShare)
  if whole : secret.length = 32 then .ok ⟨secret.toArray,size_of_length whole⟩
  else .error (.error (.reconstructionFailed "Invalid key length"))

end ThresholdEncryption

structure DecryptionRequest where
  (canonical requestor : String)
  requestorPubkey : List UInt8
  timestamp : Nat
  signature : List UInt8
  purpose : String

structure DecryptionResponse where
  (validatorId canonical : String)
  encryptedShare : List UInt8
  shareIndex : UInt8
  timestamp : Nat
  signature : List UInt8
  deriving DecidableEq

def DecryptionRequest.message (request : DecryptionRequest) : List UInt8 :=
  bytes request.canonical ++ bytes request.purpose ++ beBytes 8 request.timestamp

def DecryptionResponse.message (response : DecryptionResponse) : List UInt8 :=
  bytes response.canonical ++ response.encryptedShare ++ beBytes 8 response.timestamp

def verifyEd25519Signature (crates : ThresholdCrates) (pubkey signature message : List UInt8) : Except String Bool := do
  if pubkey.length ≠ 32 then throw ("Expected 32-byte pubkey, got " ++ toString pubkey.length ++ " bytes")
  if signature.length ≠ 64 then throw ("Expected 64-byte signature, got " ++ toString signature.length ++ " bytes")
  (crates.verifyingKey pubkey).mapError fun error => "Invalid pubkey: " ++ error
  return crates.verify pubkey message signature

structure ServiceConfig where
  validatorId : String
  (validatorKey validatorPubkey : List UInt8)
  (threshold totalShares : UInt8)
  maxConcurrent : Nat

structure DecryptionService where
  config : ServiceConfig
  shares : Table String KeyShare
  activeCount : Nat

def ShareDistributor.encryptShare (crates : ThresholdCrates) (nonce : Vector UInt8 12) (share : KeyShare)
    (publicKey : List UInt8) : List UInt8 :=
  nonce.toList ++ crates.encrypt (crates.sha256 (publicKey ++ bytes "share-encryption-salt")) nonce.toList share.toBytes

namespace DecryptionService
variable (crates : ThresholdCrates) (service : DecryptionService)

def storageKey : Vector UInt8 32 := crates.sha256 (service.config.validatorKey ++ bytes "share-encryption-salt")

def decryptShare (encrypted : List UInt8) : ThresholdResult (List UInt8) :=
  if encrypted.length < 12 then .error (.error (.decryptionError "Encrypted data too short"))
  else match crates.decrypt (service.storageKey crates) (encrypted.take 12) (encrypted.drop 12) with
    | some plaintext => .ok plaintext
    | none => .error (.error (.decryptionError "aead::Error"))

/-- The public key has 32 bytes here. -/
def bytesToShare (bytes : List UInt8) : ThresholdResult KeyShare :=
  if bytes.length < 6 then .error (.error (.invalidShare "Share bytes too short"))
  else
    let valueLen := beNat ((bytes.drop 1).take 4)
    if bytes.length < 5 + valueLen + 32 then .error (.error (.invalidShare "Invalid share format"))
    else .ok ⟨bytes.headD 0,(bytes.drop 5).take valueLen,(bytes.drop (5 + valueLen)).take 32⟩

def storeShare (canonical : String) (encryptedShare : List UInt8) : ThresholdResult DecryptionService := do
  let bytes ← service.decryptShare crates encryptedShare
  let share ← bytesToShare bytes
  return {service with shares := service.shares.insert canonical share}

variable (nonce : Vector UInt8 12)

def encryptToRequestor (share : KeyShare) (requestorPubkey : List UInt8) : List UInt8 :=
  let key := crates.sha256 (requestorPubkey ++ service.config.validatorPubkey)
  nonce.toList ++ crates.encrypt key nonce.toList share.toBytes

/-- A key of another length than 32 bytes leaves the response without a signature. -/
def signResponse (response : DecryptionResponse) : List UInt8 :=
  if service.config.validatorKey.length ≠ 32 then [] else crates.sign service.config.validatorKey response.message

def createResponse (timestamp : Nat) (request : DecryptionRequest) (share : KeyShare) : DecryptionResponse :=
  let encryptedShare := service.encryptToRequestor crates nonce share request.requestorPubkey
  let unsigned : DecryptionResponse := ⟨service.config.validatorId,request.canonical,encryptedShare,share.index,timestamp,[]⟩
  {unsigned with signature := service.signResponse crates unsigned}

def processRequest (timestamp : Nat) (channelOpen : Bool) (request : DecryptionRequest) : Option DecryptionResponse :=
  match service.shares.lookup request.canonical with
  | some share =>
    if service.config.maxConcurrent ≤ service.activeCount then none
    else if channelOpen then some (service.createResponse crates nonce timestamp request share) else none
  | none => none

end DecryptionService

structure DecryptionClient where
  (requestorKey requestorPubkey : List UInt8)
  (threshold totalShares : UInt8)

namespace DecryptionClient
variable (crates : ThresholdCrates) (client : DecryptionClient)

/-- What follows the index is taken for the value. -/
def parseShare : Option (List UInt8) → ThresholdResult Share
  | none => .error (.error (.decryptionError "aead::Error"))
  | some [] => .error .panicked
  | some (index :: value) => .ok ⟨index,value⟩

variable (response : DecryptionResponse)

def decryptResponseShare : ThresholdResult Share :=
  let key := crates.sha256 (client.requestorPubkey ++ client.requestorKey)
  let encrypted := response.encryptedShare
  if encrypted.length < 12 then .error (.error (.decryptionError "Invalid share"))
  else parseShare (crates.decrypt key (encrypted.take 12) (encrypted.drop 12))

def collectShare : ThresholdResult KeyShare := do
  let share ← client.decryptResponseShare crates response
  return ⟨share.index,share.value,[]⟩

def reconstructPackage (encryptedPackage : List UInt8) (responses : List DecryptionResponse) : ThresholdResult (List UInt8) := do
  let shares ← responses.mapM (client.collectShare crates)
  let te ← ThresholdEncryption.new client.threshold client.totalShares
  let key ← te.reconstructKey shares
  if encryptedPackage.length < 12 then .error (.error (.decryptionError "Invalid package"))
  else match crates.decrypt key (encryptedPackage.take 12) (encryptedPackage.drop 12) with
    | some plaintext => .ok plaintext
    | none => .error (.error (.decryptionError "aead::Error"))

end DecryptionClient

section Answers
variable {crates : ThresholdCrates}

variable {te : ThresholdEncryption}

theorem ThresholdEncryption.generateShares_lengths {random : Nat → Nat → UInt8} {secret : List UInt8} {share : KeyShare}
    (made : share ∈ te.generateShares crates random secret) :
    share.value.length = secret.length ∧ share.publicKey.length = 32 := by
  obtain ⟨part,split,rfl⟩ := mem_map.mp made
  exact ⟨splitSecret_value split,Vector.length_toList⟩

theorem KeyShare.toBytes_length (share : KeyShare) :
    (beBytes 4 share.value.length ++ share.value ++ share.publicKey).length = 4 + share.value.length +
      share.publicKey.length := by
  rw [length_append,length_append,beBytes,length_map,length_range]

theorem beNat_beBytes {n : Nat} (short : n < UInt32.size) : beNat (beBytes 4 n) = n := by
  rw [UInt32.size] at short
  simp [beNat,beBytes,range_succ,Nat.shiftRight_eq_div_pow]
  omega

section
variable {share : KeyShare} (short : share.value.length < UInt32.size) (whole : share.publicKey.length = 32)
include short whole

theorem DecryptionService.bytesToShare_toBytes : bytesToShare share.toBytes = .ok share := by
  have four : (beBytes 4 share.value.length).length = 4 := by simp [beBytes]
  have size : share.toBytes.length = 5 + share.value.length + 32 := by
    rw [KeyShare.toBytes,length_cons,share.toBytes_length,whole]
    omega
  have count : beNat ((share.toBytes.drop 1).take 4) = share.value.length := by
    rw [KeyShare.toBytes,drop_succ_cons,drop_zero,append_assoc,take_left' four,beNat_beBytes short]
  have tail : share.toBytes.drop (5 + share.value.length) = share.publicKey := by
    change ((share.index :: (beBytes 4 _ ++ share.value)) ++ share.publicKey).drop _ = _
    exact drop_left' (by simp [four]; omega)
  rw [bytesToShare,if_neg (by omega),count,if_neg (by omega),tail,take_of_length_le whole.le]
  simp [KeyShare.toBytes,append_assoc,four]

/-- A distributed share is stored as it was made exactly where the keys of the two sides are one: the distributor
hashes the public key, the service its own. -/
theorem distributed_share_stored (lawful : crates.Authenticated) (service : DecryptionService) (canonical : String)
    (nonce : Vector UInt8 12) (publicKey : List UInt8) :
    service.storeShare crates canonical (ShareDistributor.encryptShare crates nonce share publicKey) =
      if crates.sha256 (publicKey ++ bytes "share-encryption-salt") = service.storageKey crates then
        .ok {service with shares := service.shares.insert canonical share}
      else .error (.error (.decryptionError "aead::Error")) := by
  have twelve : nonce.toList.length = 12 := Vector.length_toList
  rw [DecryptionService.storeShare,DecryptionService.decryptShare,ShareDistributor.encryptShare,take_left' twelve,
    drop_left' twelve,if_neg (by rw [length_append]; omega)]
  split_ifs with same
  · rw [same,lawful.opens]
    simp only [Bind.bind,Except.bind,DecryptionService.bytesToShare_toBytes short whole]
    rfl
  · rw [lawful.refuses _ _ _ _ (Ne.symm same)]
    rfl

end

def DecryptionClient.Answered (crates : ThresholdCrates) (client : DecryptionClient) (shares : List KeyShare)
    (response : DecryptionResponse) : Prop :=
  ∃ (service : DecryptionService) (nonce : Vector UInt8 12) (timestamp : Nat) (request : DecryptionRequest) (share : KeyShare),
    share ∈ shares ∧ service.shares.lookup request.canonical = some share ∧ request.requestorPubkey = client.requestorPubkey ∧
      response = service.createResponse crates nonce timestamp request share

theorem DecryptionService.encryptToRequestor_parts (crates : ThresholdCrates) (service : DecryptionService)
    (nonce : Vector UInt8 12) (share : KeyShare) (pubkey : List UInt8) :
    let sent := service.encryptToRequestor crates nonce share pubkey
    ¬ sent.length < 12 ∧ sent.take 12 = nonce.toList ∧
      sent.drop 12 = crates.encrypt (crates.sha256 (pubkey ++ service.config.validatorPubkey)) nonce.toList share.toBytes := by
  have whole : nonce.toList.length = 12 := Vector.length_toList
  refine ⟨?_,take_left' whole,drop_left' whole⟩
  rw [encryptToRequestor,length_append,whole]
  exact Nat.not_lt.mpr (Nat.le_add_right 12 _)

theorem DecryptionClient.decryptResponseShare_created (crates : ThresholdCrates) (client : DecryptionClient)
    (service : DecryptionService) (nonce : Vector UInt8 12) (timestamp : Nat) (request : DecryptionRequest) (share : KeyShare) :
    client.decryptResponseShare crates (service.createResponse crates nonce timestamp request share) =
      parseShare (crates.decrypt (crates.sha256 (client.requestorPubkey ++ client.requestorKey)) nonce.toList
        (crates.encrypt (crates.sha256 (request.requestorPubkey ++ service.config.validatorPubkey)) nonce.toList
          share.toBytes)) := by
  obtain ⟨long,first,rest⟩ := service.encryptToRequestor_parts crates nonce share request.requestorPubkey
  rw [decryptResponseShare,DecryptionService.createResponse]
  rw [if_neg long,first,rest]

theorem DecryptionClient.decryptResponseShare_cases (lawful : crates.Authenticated) {client : DecryptionClient}
    {random : Nat → Nat → UInt8} {secret : List UInt8} {response : DecryptionResponse}
    (answered : client.Answered crates (te.generateShares crates random secret) response) :
    client.decryptResponseShare crates response = .error (.error (.decryptionError "aead::Error")) ∨
      ∃ share, client.decryptResponseShare crates response = .ok share ∧ share.value.length = secret.length + 36 := by
  obtain ⟨service,nonce,timestamp,request,share,made,_,pubkey,rfl⟩ := answered
  rw [decryptResponseShare_created]
  by_cases same : crates.sha256 (client.requestorPubkey ++ client.requestorKey) =
    crates.sha256 (request.requestorPubkey ++ service.config.validatorPubkey)
  · right
    obtain ⟨value,publicKey⟩ := ThresholdEncryption.generateShares_lengths made
    rw [same,lawful.opens]
    refine ⟨_,rfl,?_⟩
    rw [share.toBytes_length,value,publicKey]
    omega
  · left
    rw [lawful.refuses _ _ _ _ same]
    rfl

theorem ThresholdEncryption.reconstructKey_refused {shares : List KeyShare} {length : Nat}
    (even : ∀ share ∈ shares, share.value.length = length) (positive : te.threshold ≠ 0) (other : length ≠ 32) :
    ∃ error, te.reconstructKey shares = .error (.error error) := by
  rw [reconstructKey]
  by_cases few : shares.length < te.threshold.toNat
  · rw [reconstructSecret_few (by rwa [length_map])]
    exact ⟨_,rfl⟩
  have present : shares.map KeyShare.toShare ≠ [] := by
    rw [Ne,map_eq_nil_iff]
    rintro rfl
    exact positive (UInt8.toNat_inj.mp (Nat.eq_zero_of_not_pos few))
  have enough : te.sss.threshold.toNat ≤ (shares.map KeyShare.toShare).length := by
    rw [length_map]
    exact Nat.not_lt.mp few
  obtain ⟨secret,made,whole⟩ := reconstructSecret_length present enough (forall_mem_map.mpr even)
  rw [made]
  exact ⟨.reconstructionFailed "Invalid key length",dif_neg (whole ▸ other)⟩

theorem ThresholdEncryption.new_cases (threshold totalShares : UInt8) :
    (∃ error, new threshold totalShares = .error (.error error)) ∨
      ∃ te, new threshold totalShares = .ok te ∧ te.threshold ≠ 0 := by
  rw [new]
  split_ifs with wrong
  · exact .inl ⟨_,rfl⟩
  · exact .inr ⟨_,rfl,fun zero => wrong (.inl zero)⟩

/-- No list of responses gives the package: the two sides encrypt a share under different keys, and one that
opens all the same is read with its length and public key. -/
theorem DecryptionClient.reconstructPackage_refused (lawful : crates.Authenticated) (client : DecryptionClient)
    (te : ThresholdEncryption)
    (random : Nat → Nat → UInt8) (secret : Vector UInt8 32) (package : List UInt8) (responses : List DecryptionResponse)
    (answered : ∀ response ∈ responses, client.Answered crates (te.generateShares crates random secret.toList) response) :
    ∃ error, client.reconstructPackage crates package responses = .error (.error error) := by
  have each : ∀ response ∈ responses,
      (∃ error, client.collectShare crates response = .error error ∧ error = .error (.decryptionError "aead::Error")) ∨
      ∃ share, client.collectShare crates response = .ok share ∧ share.value.length = secret.toList.length + 36 := by
    intro response inside
    rw [collectShare]
    obtain refused | ⟨share,opened,length⟩ := decryptResponseShare_cases lawful (answered response inside)
    · rw [refused]
      exact .inl ⟨_,rfl,rfl⟩
    · rw [opened]
      exact .inr ⟨_,rfl,length⟩
  rw [reconstructPackage]
  obtain ⟨_,failed,rfl⟩ | ⟨shares,opened,_,even⟩ := mapM_cases each
  · rw [failed]
    exact ⟨_,rfl⟩
  rw [opened]
  obtain ⟨error,failed⟩ | ⟨own,made,positive⟩ := ThresholdEncryption.new_cases client.threshold client.totalShares
  · refine ⟨error,?_⟩
    simp only [Bind.bind,Except.bind,failed]
  have long : secret.toList.length + 36 ≠ 32 := by
    rw [Vector.length_toList]
    decide
  obtain ⟨error,failed⟩ := own.reconstructKey_refused even positive long
  refine ⟨error,?_⟩
  simp only [Bind.bind,Except.bind,made,failed]

def DecryptionRequest.Signed (crates : ThresholdCrates) (request : DecryptionRequest) : Prop :=
  verifyEd25519Signature crates request.requestorPubkey request.signature request.message = .ok true

theorem DecryptionRequest.Signed.length {request : DecryptionRequest} (signed : request.Signed crates) :
    request.signature.length = 64 := by
  by_contra short
  rw [Signed,verifyEd25519Signature] at signed
  simp only [bind_ok,check_ok] at signed
  exact signed.2.1 short

/-- What is read of a request is its package and where to send the share: a service that holds a share
releases it to signed requests only as long as it releases it to nobody. -/
theorem DecryptionService.released_to_signed_iff (crates : ThresholdCrates) (service : DecryptionService) (canonical : String)
    (share : KeyShare) (held : service.shares.lookup canonical = some share) (channelOpen : Bool) :
    (∀ (nonce : Vector UInt8 12) (timestamp : Nat) (request : DecryptionRequest) (response : DecryptionResponse),
      request.canonical = canonical →
      service.processRequest crates nonce timestamp channelOpen request = some response → request.Signed crates) ↔
      service.config.maxConcurrent ≤ service.activeCount ∨ channelOpen = false := by
  constructor
  · intro signed
    by_contra idle
    obtain ⟨free,reached⟩ := not_or.mp idle
    let request : DecryptionRequest := ⟨canonical,"",[],0,[],""⟩
    let nonce : Vector UInt8 12 := Vector.replicate 12 0
    have sent : service.processRequest crates nonce 0 channelOpen request =
      some (service.createResponse crates nonce 0 request share) := by
      rw [processRequest,held]
      dsimp only
      rw [if_neg free,if_pos (Bool.not_eq_false _ ▸ reached)]
    have length := (signed nonce 0 request _ rfl sent).length
    exact absurd length (Nat.zero_ne_add_one 63)
  · intro silent nonce timestamp request response same sent
    subst same
    rw [processRequest,held] at sent
    dsimp only at sent
    obtain busy | closed := silent
    · rw [if_pos busy] at sent
      cases sent
    · rw [closed,if_neg Bool.false_ne_true,ite_self] at sent
      cases sent

end Answers

/-! Two validators that hold the shares of a key, and a client. -/

namespace Vault
def crates : ThresholdCrates where
  sha256 bytes := Vector.replicate 32 (bytes.foldl (fun sum byte => sum * 2 + byte) 7)
  encrypt key _ plaintext := key.toList ++ plaintext
  decrypt key _ ciphertext := if ciphertext.take 32 = key.toList then some (ciphertext.drop 32) else none
  sign key message := (key ++ message).take 64
  verifyingKey _ := .ok ()
  verify key message signature := signature == (key.map (· - 100) ++ message).take 64

theorem authenticated : crates.Authenticated where
  opens key nonce plaintext := by
    have whole : key.toList.length = 32 := Vector.length_toList
    rw [crates]
    dsimp only
    rw [if_pos (take_left' whole),drop_left' whole]
  refuses key other nonce plaintext differs := by
    have whole : key.toList.length = 32 := Vector.length_toList
    rw [crates]
    dsimp only
    rw [take_left' whole,if_neg]
    intro same
    exact differs (Vector.toList_inj.mp same).symm

def te : ThresholdEncryption := ⟨2,2⟩

def secret : Vector UInt8 32 := Vector.replicate 32 5

def random (_ _ : Nat) : UInt8 := 3

def share (i : Nat) : KeyShare := ((te.generateShares crates random secret.toList)[i]?).getD ⟨0,[],[]⟩

variable (name : String) (key : UInt8)

def service (share : KeyShare) : DecryptionService where
  config := ⟨name,List.replicate 32 key,List.replicate 32 (key + 100),2,2,10⟩
  shares := (∅ : Table String KeyShare).insert "npm:left-pad@1.0.0" share
  activeCount := 0

def client : DecryptionClient := ⟨List.replicate 32 9,List.replicate 32 109,2,2⟩

def nonce : Vector UInt8 12 := Vector.replicate 12 1

def package : List UInt8 := nonce.toList ++ crates.encrypt secret nonce.toList [104,105]

def request : DecryptionRequest := ⟨"npm:left-pad@1.0.0","6d6d",client.requestorPubkey,1700000000,[],"audit"⟩

def response (i : Nat) : DecryptionResponse :=
  (service name key (share i)).createResponse crates nonce 1700000001 request (share i)

theorem share_stored : let held := service "bob" 2 (share 1)
    held.storeShare crates "npm:a@1" (ShareDistributor.encryptShare crates nonce (share 0) held.config.validatorKey) =
      .ok {held with shares := held.shares.insert "npm:a@1" (share 0)} :=
  (distributed_share_stored (by decide +kernel) (by decide +kernel) authenticated _ _ nonce _).trans (if_pos rfl)

theorem answered {i : Nat} (made : share i ∈ te.generateShares crates random secret.toList) :
    client.Answered crates (te.generateShares crates random secret.toList) (response name key i) :=
  ⟨service name key (share i),nonce,1700000001,request,share i,made,AList.lookup_insert _,rfl,rfl⟩

theorem answers_not_opened :
    (service "alice" 1 (share 0)).processRequest crates nonce 1700000001 true request = some (response "alice" 1 0) ∧
      (service "bob" 2 (share 1)).processRequest crates nonce 1700000001 true request = some (response "bob" 2 1) ∧
      client.reconstructPackage crates package [response "alice" 1 0,response "bob" 2 1] =
        .error (.error (.decryptionError "aead::Error")) := by
  decide +kernel

theorem answers_refused : (∀ answer ∈ [response "alice" 1 0,response "bob" 2 1],
      client.Answered crates (te.generateShares crates random secret.toList) answer) ∧
    ∃ error, client.reconstructPackage crates package [response "alice" 1 0,response "bob" 2 1] = .error (.error error) := by
  have made : ∀ i < 2, share i ∈ te.generateShares crates random secret.toList := by
    intro i small
    rw [share,List.getElem?_eq_getElem (small : i < (te.generateShares crates random secret.toList).length)]
    exact getElem_mem _
  have each : ∀ answer ∈ [response "alice" 1 0,response "bob" 2 1],
      client.Answered crates (te.generateShares crates random secret.toList) answer :=
    forall_mem_cons.mpr ⟨answered _ _ (made 0 Nat.two_pos),forall_mem_singleton.mpr (answered _ _ (made 1 Nat.one_lt_two))⟩
  exact ⟨each,client.reconstructPackage_refused authenticated te random secret package _ each⟩

theorem released_unsigned : (service "alice" 1 (share 0)).processRequest crates nonce 1700000001 true request =
    some (response "alice" 1 0) ∧
    ¬ request.Signed crates := by
  refine ⟨rfl,fun signed => ?_⟩
  exact absurd signed.length (Nat.zero_ne_add_one 63)

theorem released_to_anyone :
    ¬ ∀ (nonce : Vector UInt8 12) (timestamp : Nat) (request : DecryptionRequest)
      (response : DecryptionResponse), request.canonical = "npm:left-pad@1.0.0" →
      (service "alice" 1 (share 0)).processRequest crates nonce timestamp true request = some response →
        request.Signed crates := by
  intro signed
  have silent := (DecryptionService.released_to_signed_iff crates (service "alice" 1 (share 0)) "npm:left-pad@1.0.0" (share 0)
    (AList.lookup_insert _) true).mp signed
  exact absurd silent (by decide)

end Vault

end ChainRegistry
