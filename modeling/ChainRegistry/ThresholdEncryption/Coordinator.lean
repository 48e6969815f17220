import ChainRegistry.Lib.Runs
import ChainRegistry.ThresholdEncryption.Service

/-! The coordinator of a decryption, which collects the responses of the validators:
`crates/threshold-encryption/src/distribution.rs`. -/
namespace ChainRegistry
open Lib List Function Runs

structure DecryptionCoordinator where
  threshold : UInt8
  pendingRequests : Table String DecryptionRequest
  partialShares : Table String (List DecryptionResponse)
  validatorPubkeys : Table String (List UInt8)

def DecryptionResponse.SignedBy (crates : ThresholdCrates) (pubkey : List UInt8) (response : DecryptionResponse) : Prop :=
  verifyEd25519Signature crates pubkey response.signature response.message = .ok true

namespace DecryptionCoordinator
variable (crates : ThresholdCrates) (coordinator : DecryptionCoordinator)

def new (threshold : UInt8) : DecryptionCoordinator := ⟨threshold,∅,∅,∅⟩

def registerValidatorPubkey (validatorId : String) (pubkey : List UInt8) : DecryptionCoordinator :=
  {coordinator with validatorPubkeys := coordinator.validatorPubkeys.insert validatorId pubkey}

/-- The access policy is not looked at here. -/
def validateRequest (now : Nat) (request : DecryptionRequest) : Bool :=
  if 3600 < now - request.timestamp then false
  else if request.signature ≠ [] ∧ request.requestorPubkey ≠ [] then
    match verifyEd25519Signature crates request.requestorPubkey request.signature request.message with
    | .ok valid => valid
    | .error _ => false
  else true

def requestDecryption (now : Nat) (request : DecryptionRequest) : Except ThresholdError DecryptionCoordinator :=
  if validateRequest crates now request then
    .ok {coordinator with
      pendingRequests := coordinator.pendingRequests.insert request.canonical request
      partialShares := coordinator.partialShares.insert request.canonical []}
  else .error (.invalidShare "Invalid decryption request")

/-- The response of an unknown validator is let through, and so is one without a signature. -/
def verifyResponse (response : DecryptionResponse) : Bool :=
  match coordinator.validatorPubkeys.lookup response.validatorId with
  | none => true
  | some pubkey =>
    if response.signature = [] then true
    else match verifyEd25519Signature crates pubkey response.signature response.message with
      | .ok valid => valid
      | .error _ => false

def submitPartial (canonical : String) (response : DecryptionResponse) : Except ThresholdError DecryptionCoordinator :=
  if coordinator.verifyResponse crates response then
    match coordinator.partialShares.lookup canonical with
    | some shares => .ok {coordinator with partialShares := coordinator.partialShares.insert canonical (shares ++ [response])}
    | none => .ok coordinator
  else .error (.invalidShare "Invalid response signature")

def isReady (canonical : String) : Bool :=
  match coordinator.partialShares.lookup canonical with
  | some shares => coordinator.threshold.toNat ≤ shares.length
  | none => false

end DecryptionCoordinator

structure Submission where
  response : DecryptionResponse
  key : Option (List UInt8)

inductive CoordinatorCall
  | register (validatorId : String) (pubkey : List UInt8)
  | request (now : Nat) (request : DecryptionRequest)
  | submit (canonical : String) (response : DecryptionResponse)

structure Collection where
  coordinator : DecryptionCoordinator
  submitted : String → List Submission

namespace Collection
variable (crates : ThresholdCrates)

def start (threshold : UInt8) : Collection := ⟨.new threshold,fun _ => []⟩

def submission (collection : Collection) (response : DecryptionResponse) : Submission :=
  ⟨response,collection.coordinator.validatorPubkeys.lookup response.validatorId⟩

def step (collection : Collection) : CoordinatorCall → Collection
  | .register validatorId pubkey =>
    {collection with coordinator := collection.coordinator.registerValidatorPubkey validatorId pubkey}
  | .request now request => match collection.coordinator.requestDecryption crates now request with
    | .ok coordinator => ⟨coordinator,Function.update collection.submitted request.canonical []⟩
    | .error _ => collection
  | .submit canonical response =>
    let submitted := Function.update collection.submitted canonical
      (collection.submitted canonical ++ [collection.submission response])
    match collection.coordinator.submitPartial crates canonical response with
    | .ok coordinator => ⟨coordinator,submitted⟩
    | .error _ => ⟨collection.coordinator,submitted⟩

structure Genuine (canonical : String) (submissions : List Submission) : Prop where
  canonical : ∀ submission ∈ submissions, submission.response.canonical = canonical
  signed : ∀ submission ∈ submissions, ∃ key, submission.key = some key ∧ submission.response.SignedBy crates key
  validators : (submissions.map fun submission => submission.response.validatorId).Nodup
  indices : (submissions.map fun submission => submission.response.shareIndex).Nodup

def Sound (collection : Collection) : Prop :=
  ∀ canonical, collection.coordinator.isReady canonical →
    ∃ submissions, submissions.Sublist (collection.submitted canonical) ∧ Genuine crates canonical submissions ∧
      collection.coordinator.threshold.toNat ≤ submissions.length

/-- As long as shares are missing, a response is from a registered validator and signed; and if
the signature is right, it is for this package, by another validator and with another share
than those before. -/
def Proper (collection : Collection) : CoordinatorCall → Prop
  | .submit canonical response => ∀ shares ∈ collection.coordinator.partialShares.lookup canonical,
    shares.length < collection.coordinator.threshold.toNat →
      response.signature ≠ [] ∧ ∃ key, collection.coordinator.validatorPubkeys.lookup response.validatorId = some key ∧
        (response.SignedBy crates key → response.canonical = canonical ∧
          ∀ share ∈ shares, share.validatorId ≠ response.validatorId ∧ share.shareIndex ≠ response.shareIndex)
  | _ => True

variable {crates} {collection : Collection} {canonical : String} {shares : List DecryptionResponse}
  {submitted : List Submission} {submission : Submission}

theorem Genuine.nil (canonical : String) : Genuine crates canonical [] where
  canonical _ absent := absurd absent not_mem_nil
  signed _ absent := absurd absent not_mem_nil
  validators := nodup_nil
  indices := nodup_nil

theorem Genuine.append {submissions : List Submission} (genuine : Genuine crates canonical submissions)
    (same : submission.response.canonical = canonical)
    (signed : ∃ key, submission.key = some key ∧ submission.response.SignedBy crates key)
    (other : ∀ share ∈ submissions.map Submission.response, share.validatorId ≠ submission.response.validatorId ∧
      share.shareIndex ≠ submission.response.shareIndex) :
    Genuine crates canonical (submissions ++ [submission]) where
  canonical := forall_mem_append.mpr ⟨genuine.canonical,forall_mem_singleton.mpr same⟩
  signed := forall_mem_append.mpr ⟨genuine.signed,forall_mem_singleton.mpr signed⟩
  validators := by
    rw [map_append,map_singleton]
    refine nodup_append'.mpr ⟨genuine.validators,nodup_singleton _,disjoint_singleton.mpr ?_⟩
    intro inside
    obtain ⟨before,member,equal⟩ := mem_map.mp inside
    exact (other before.response (mem_map_of_mem member)).1 equal
  indices := by
    rw [map_append,map_singleton]
    refine nodup_append'.mpr ⟨genuine.indices,nodup_singleton _,disjoint_singleton.mpr ?_⟩
    intro inside
    obtain ⟨before,member,equal⟩ := mem_map.mp inside
    exact (other before.response (mem_map_of_mem member)).2 equal

def Backed (crates : ThresholdCrates) (threshold : Nat) (canonical : String) (shares : List DecryptionResponse)
    (submitted : List Submission) : Prop :=
  ∃ submissions, submissions.Sublist submitted ∧ Genuine crates canonical submissions ∧
    (submissions.map Submission.response = shares ∨ threshold ≤ submissions.length)

theorem Backed.later {threshold : Nat} (backed : Backed crates threshold canonical shares submitted) (submission : Submission) :
    Backed crates threshold canonical shares (submitted ++ [submission]) := by
  obtain ⟨submissions,sub,rest⟩ := backed
  exact ⟨submissions,sub.trans (sublist_append_left submitted [submission]),rest⟩

theorem Backed.append {threshold : Nat} (backed : Backed crates threshold canonical shares submitted)
    (proper : shares.length < threshold → submission.response.canonical = canonical ∧
      (∃ key, submission.key = some key ∧ submission.response.SignedBy crates key) ∧
      ∀ share ∈ shares, share.validatorId ≠ submission.response.validatorId ∧
        share.shareIndex ≠ submission.response.shareIndex) :
    Backed crates threshold canonical (shares ++ [submission.response]) (submitted ++ [submission]) := by
  obtain ⟨submissions,sub,genuine,whole⟩ := backed
  by_cases enough : threshold ≤ submissions.length
  · exact ⟨submissions,sub.trans (sublist_append_left submitted [submission]),genuine,.inr enough⟩
  -- shares are missing, so the genuine submissions are all of them and the condition speaks of this one
  have all := whole.resolve_right enough
  subst all
  rw [length_map] at proper
  obtain ⟨same,signed,other⟩ := proper (Nat.not_le.mp enough)
  refine ⟨submissions ++ [submission],sub.append_right _,genuine.append same signed other,.inl ?_⟩
  rw [map_append,map_singleton]

def Accounted (crates : ThresholdCrates) (collection : Collection) : Prop :=
  ∀ canonical, ∀ shares ∈ collection.coordinator.partialShares.lookup canonical,
    Backed crates collection.coordinator.threshold.toNat canonical shares (collection.submitted canonical)

theorem signed_of_verified {coordinator : DecryptionCoordinator} {response : DecryptionResponse} {key : List UInt8}
    (registered : coordinator.validatorPubkeys.lookup response.validatorId = some key) (signature : response.signature ≠ [])
    (verified : coordinator.verifyResponse crates response) : response.SignedBy crates key := by
  rw [DecryptionCoordinator.verifyResponse,registered] at verified
  dsimp only at verified
  rw [if_neg signature] at verified
  rw [DecryptionResponse.SignedBy]
  split at verified
  · next valid checked => rw [checked,verified]
  · cases verified

section
variable (accounted : Accounted crates collection)
include accounted

theorem Accounted.request (now : Nat) (request : DecryptionRequest) :
    Accounted crates (collection.step crates (.request now request)) := by
  rw [step,DecryptionCoordinator.requestDecryption]
  split_ifs
  · intro canonical shares found
    dsimp only at found ⊢
    rw [Table.lookup_insert_eq] at found
    rw [update_apply]
    split_ifs at found ⊢ with same
    · cases found
      exact ⟨[],List.Sublist.refl [],.nil canonical,.inl rfl⟩
    · exact accounted canonical shares found
  · exact accounted

theorem Accounted.submit (canonical : String) (response : DecryptionResponse)
    (proper : collection.Proper crates (.submit canonical response)) :
    Accounted crates (collection.step crates (.submit canonical response)) := by
  -- a call that is refused, or that finds no request, is a submission all the same
  have later : Accounted crates {collection with
      submitted := Function.update collection.submitted canonical
        (collection.submitted canonical ++ [collection.submission response])} := by
    intro other shares found
    dsimp only
    rw [update_apply]
    split_ifs with same
    · subst same
      exact (accounted other shares found).later _
    · exact accounted other shares found
  rw [step,DecryptionCoordinator.submitPartial]
  split_ifs with verified
  · cases held : collection.coordinator.partialShares.lookup canonical with
    | none => exact later
    | some before =>
      intro other shares found
      dsimp only at found ⊢
      rw [Table.lookup_insert_eq] at found
      rw [update_apply]
      split_ifs at found ⊢ with same
      · cases found
        subst same
        refine (accounted other before held).append fun few => ?_
        obtain ⟨signature,key,registered,rest⟩ := proper before held few
        have signed := signed_of_verified registered signature verified
        exact ⟨(rest signed).1,⟨key,registered,signed⟩,(rest signed).2⟩
      · exact accounted other shares found
  · exact later

theorem Accounted.step {call : CoordinatorCall}
    (proper : collection.Proper crates call) : Accounted crates (collection.step crates call) := by
  cases call with
  | register validatorId pubkey => exact accounted
  | request now request => exact accounted.request now request
  | submit canonical response => exact accounted.submit canonical response proper

theorem Accounted.sound : collection.Sound crates := by
  intro canonical ready
  rw [DecryptionCoordinator.isReady] at ready
  cases held : collection.coordinator.partialShares.lookup canonical with
  | none =>
    rw [held] at ready
    cases ready
  | some shares =>
    rw [held] at ready
    have enough := of_decide_eq_true ready
    obtain ⟨submissions,sub,genuine,all | reached⟩ := accounted canonical shares held
    · refine ⟨submissions,sub,genuine,?_⟩
      rwa [← all,length_map] at enough
    · exact ⟨submissions,sub,genuine,reached⟩

end

/-- Readiness is sound where submissions are proper while shares are missing. -/
theorem ready_sound (crates : ThresholdCrates) (threshold : UInt8) (calls : List CoordinatorCall)
    (proper : Runs.Along (step crates) (Proper crates) (start threshold) calls) :
    Runs.Throughout (step crates) (Sound crates) (start threshold) calls := by
  apply throughout_run (fun _ _ accounted proper => Accounted.step accounted proper)
    (fun _ accounted => accounted.sound) _ _ _ proper
  intro canonical shares found
  cases found

end Collection

namespace Vault
def canonical : String := "npm:left-pad@1.0.0"

def signedBy (name : String) (key index : UInt8) : DecryptionResponse :=
  let unsigned : DecryptionResponse := ⟨name,canonical,List.replicate 40 index,index,1700000001,[]⟩
  {unsigned with signature := crates.sign (List.replicate 32 key) unsigned.message}

def registered : List CoordinatorCall :=
  [.register "alice" (List.replicate 32 101),.register "bob" (List.replicate 32 102),.request 1700000000 request]

def forged : DecryptionResponse := ⟨"mallory","npm:other@1.0.0",[],1,1700000001,[]⟩

theorem ready_by_stranger :
    let reached := run (Collection.step crates) (Collection.start 2)
      (registered ++ [.submit canonical forged,.submit canonical forged])
    reached.coordinator.isReady canonical ∧ ¬ reached.Sound crates := by
  intro reached
  have ready : reached.coordinator.isReady canonical := by rfl
  refine ⟨ready,fun sound => ?_⟩
  obtain ⟨submissions,sub,genuine,enough⟩ := sound canonical ready
  have unknown : ∀ submission ∈ reached.submitted canonical, submission.key = none := by
    have submitted : reached.submitted canonical = [⟨forged,none⟩,⟨forged,none⟩] := rfl
    rw [submitted]
    decide
  cases submissions with
  | nil => exact absurd enough (by decide)
  | cons submission rest =>
    obtain ⟨key,known,_⟩ := genuine.signed submission mem_cons_self
    rw [unknown submission (sub.mem mem_cons_self)] at known
    cases known

def collected : List CoordinatorCall := registered ++
    [.submit canonical (signedBy "alice" 1 1),.submit canonical (signedBy "bob" 2 2)]

theorem collected_sound : (run (Collection.step crates) (Collection.start 2) collected).coordinator.isReady canonical ∧
    Runs.Throughout (Collection.step crates) (Collection.Sound crates) (Collection.start 2) collected := by
  have first : (run (Collection.step crates) (Collection.start 2)
    (registered ++ [.submit canonical (signedBy "alice" 1 1)])).coordinator.partialShares.lookup
      canonical = some [signedBy "alice" 1 1] := by decide +kernel
  refine ⟨by decide +kernel,Collection.ready_sound crates 2 collected ⟨trivial,trivial,trivial,?_,?_,trivial⟩⟩
  · intro shares found _
    cases found
    exact ⟨by decide +kernel,_,rfl,fun _ => ⟨rfl,fun _ absent => absurd absent not_mem_nil⟩⟩
  · intro shares found _
    cases Option.mem_unique found first
    exact ⟨by decide +kernel,List.replicate 32 102,by decide +kernel,fun _ =>
      ⟨rfl,forall_mem_singleton.mpr ⟨by decide,by decide⟩⟩⟩

end Vault
end ChainRegistry
