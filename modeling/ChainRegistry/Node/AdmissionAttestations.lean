import ChainRegistry.Contracts.ConsensusAdmission
import ChainRegistry.Node.ValidatorIdentities

/-! Admission by consensus as a node prepares it: `crates/node/src/consensus_admission.rs`, and
what its bundle of signatures needs for `approveByConsensus` to take it. -/
namespace ChainRegistry.ConsensusAdmission
open Lib ValidatorRegistry Fallible List Option Text Abi SetSync Staking World Small

structure AdmissionAttestation where
  (applicant stake nonce ruleSetVersion signer signature : String)

structure AttestationKey where
  (applicant nonce : String)
  deriving DecidableEq

def AdmissionAttestation.key (att : AdmissionAttestation) : AttestationKey :=
  ⟨toAsciiLowercase att.applicant,toAsciiLowercase att.nonce⟩

abbrev AttestationStore := Table AttestationKey (Table String AdmissionAttestation)

namespace AttestationStore
variable (store : AttestationStore)

def insert (att : AdmissionAttestation) : AttestationStore :=
  AList.insert att.key (((store.lookup att.key).getD ∅).insert (toAsciiLowercase att.signer) att) store

def snapshot (key : AttestationKey) : List AdmissionAttestation :=
  match store.lookup key with
  | some bySigner => Table.values bySigner
  | none => []

def dropApplicant (applicant : String) : AttestationStore :=
  (store.keys.filter fun key => key.applicant = toAsciiLowercase applicant).foldl (fun store key => store.erase key) store

end AttestationStore

structure AdmissionCrates where
  address : String → Except String Address
  u256FromHex : String → Except String Nat
  recoverAddressFromPrehash : (digest : Word) → (signature : List UInt8) → Except String Address
  signerAddress : (privKey : String) → Except String Address
  signHash : (privKey : String) → (digest : Word) → Except String (List UInt8)

section Node
variable (evm : Evm) (crates : AdmissionCrates)

def domainSeparator (chainId : Nat) (stakingAddr : Address) : Word :=
  evm.keccak256 (encode
    [evm.keccak256 (bytes "EIP712Domain(string name,string version,uint256 chainId,address verifyingContract)"),
      evm.keccak256 (bytes "Chain Registry Validator Admission"),evm.keccak256 (bytes "1"),ofUint chainId,
      ofAddress stakingAddr])

def structHash (applicant : Address) (stake nonce ruleSetVersion : Nat) : Word :=
  evm.keccak256 (encode
    [evm.keccak256 (bytes "ValidatorAdmission(address applicant,uint256 stake,uint256 nonce,uint256 ruleSetVersion)"),
      ofAddress applicant,ofUint stake,ofUint nonce,ofUint ruleSetVersion])

def admissionDigest (chainId : Nat) (stakingAddr applicant : Address) (stake nonce ruleSetVersion : Nat) : Word :=
  evm.keccak256 ([0x19,0x01] ++ Abi.bytes (domainSeparator evm chainId stakingAddr) ++
    Abi.bytes (structHash evm applicant stake nonce ruleSetVersion))

variable (s : String)

def unmarked : String := trimStartMatches (trimStartMatches s "0x") "0X"

def parseU256 : Except String Nat :=
  (crates.u256FromHex (unmarked s)).mapError fun error => "bad u256: " ++ error

def hexDecode : Except String (List UInt8) := Text.hexDecode (unmarked s)

def hexText (n : Nat) : String := "0x" ++ String.ofList (Nat.toDigits 16 n)

def signAttestation (privKey : String) (chainId : Nat) (stakingAddr applicant : Address) (stake nonce ruleSetVersion : Nat) :
    Except String AdmissionAttestation := do
  let signer ← crates.signerAddress privKey
  let signature ← crates.signHash privKey (admissionDigest evm chainId stakingAddr applicant stake nonce ruleSetVersion)
  return {
    applicant := addressText applicant
    stake := hexText stake
    nonce := hexText nonce
    ruleSetVersion := hexText ruleSetVersion
    signer := addressText signer
    signature := "0x" ++ hexEncode signature }

def verifyAttestation (chainId : Nat) (stakingAddr : Address) (att : AdmissionAttestation) : Except String Bool := do
  let applicant ← crates.address att.applicant
  let stake ← parseU256 crates att.stake
  let nonce ← parseU256 crates att.nonce
  let ruleSetVersion ← parseU256 crates att.ruleSetVersion
  let claimedSigner ← crates.address att.signer
  let raw ← hexDecode att.signature
  if raw.length ≠ 65 then return false
  let recovered ← crates.recoverAddressFromPrehash
    (admissionDigest evm chainId stakingAddr applicant stake nonce ruleSetVersion) raw
  return recovered = claimedSigner

structure TickCtx where
  chainId : Nat
  stakingAddr : Address
  bridgePriv : Option String
  selfAddr : Option Address
  weAreActive : Bool
  -- the clock of the node
  now : Nat

inductive Decision
  | leave | drop
  -- the call of `approveByConsensus`
  | submit (applicant : Address) (nonce : Nat) (signers : List Address) (sigs : List (List UInt8))
  deriving DecidableEq

inductive Screening
  | leave | drop | attest
  deriving DecidableEq

variable (ctx : TickCtx)

def screening (registrations : Registrations) (staking : Staking) (applicantKey : String) (applicant : Address) : Screening :=
  let v := staking.entry applicant
  let haveIdentity := ((registrations.lookup applicantKey).map fun r =>
    r.registeredWithNode && r.identity.normalized.isComplete).getD false
  if v.state ≠ .pending then .drop
  else if v.stake < staking.minValidatorStake then .leave
  else if !haveIdentity then .leave
  else if 0 < v.ejectedAt ∧ v.appliedAt ≤ v.ejectedAt then .leave
  else if (v.appliedAt + applicationTimeout) % 2 ^ 256 ≤ ctx.now then .drop
  else if (applicant,v.appliedAt) ∈ staking.consensusNonceUsed then .drop
  else .attest

variable (staking : Staking)

def withOwn (applicant : Address) (store : AttestationStore) :
    Except String AttestationStore :=
  let v := staking.entry applicant
  match ctx.weAreActive,ctx.bridgePriv with
  | true,some privKey => do
    let att ← signAttestation evm crates privKey ctx.chainId ctx.stakingAddr applicant v.stake v.appliedAt
      ruleSetVersion
    return store.insert att
  | _,_ => .ok store

variable (att : AdmissionAttestation)

def verifies : Bool :=
  match verifyAttestation evm crates ctx.chainId ctx.stakingAddr att with
  | .ok valid => valid
  | .error _ => false

def activeSigners (staking : Staking) : List AdmissionAttestation → Except String (List (Address × AdmissionAttestation))
  | [] => .ok []
  | att :: atts => do
    let signer ← crates.address att.signer
    let rest ← activeSigners staking atts
    return if (staking.entry signer).state = .active then (signer,att) :: rest else rest

def sorted (found : List (Address × AdmissionAttestation)) : List (Address × AdmissionAttestation) :=
  found.insertionSort fun a b => a.1.toNat ≤ b.1.toNat

variable (applicantKey : String) (applicant : Address)

def snapshotKey : AttestationKey :=
  ⟨toAsciiLowercase applicantKey,hexText (staking.entry applicant).appliedAt⟩

def rawSignature : List UInt8 :=
  match hexDecode att.signature with
  | .ok raw => raw
  | .error _ => []

def bundle (store : AttestationStore) :
    Except String Decision := do
  let atts := store.snapshot (snapshotKey staking applicantKey applicant)
  let found ← activeSigners crates staking (atts.filter (verifies evm crates ctx))
  let filtered := sorted found
  if filtered.length * 3 % 2 ^ 256 < countActive staking * 2 % 2 ^ 256 then return .leave
  if ctx.selfAddr = none ∨ (filtered.head?.map Prod.fst) ≠ ctx.selfAddr then return .leave
  if ctx.bridgePriv.getD "" = "" then throw "no bridge private key available for submitter"
  let _ ← crates.signerAddress (ctx.bridgePriv.getD "")
  return .submit applicant (staking.entry applicant).appliedAt (filtered.map Prod.fst)
    (filtered.map fun entry => rawSignature entry.2)

def processApplicant (registrations : Registrations) (staking : Staking) (applicantKey : String)
    (store : AttestationStore) : Except String (AttestationStore × Decision) := do
  let applicant ← crates.address applicantKey
  match screening ctx registrations staking applicantKey applicant with
  | .leave => return (store,.leave)
  | .drop => return (store.dropApplicant applicantKey,.drop)
  | .attest =>
    let store ← withOwn evm crates ctx staking applicant store
    let decision ← bundle evm crates ctx staking applicantKey applicant store
    return (store,decision)

def countedSigner : Option Address :=
  if verifies evm crates ctx att then
    match crates.address att.signer with
    | .ok signer => if (staking.entry signer).state = .active then some signer else none
    | .error _ => none
  else none

end Node

def recoveryByte (sig : List UInt8) : UInt8 :=
  let v := (sig[64]?).getD 0
  if v < 27 then v + 27 else v

/-- A signature of 65 bytes with a low `s` and one of the two recovery ids. -/
structure Canonical (sig : List UInt8) : Prop where
  length : sig.length = 65
  low : (word ((sig.drop 32).take 32)).toNat ≤ 0x7FFFFFFFFFFFFFFFFFFFFFFFFFFFFFFF5D576E7357A4501DDFE92F46681B20A0
  byte : recoveryByte sig = 27 ∨ recoveryByte sig = 28

/-- The node and the chain recover the same signer. `ecrecover` knows two recovery ids only. -/
structure SameRecovery (evm : Evm) (crates : AdmissionCrates) : Prop where
  recovers : ∀ digest sig signer, Canonical sig → (crates.recoverAddressFromPrehash digest sig = .ok signer ↔
    evm.ecrecover digest (recoveryByte sig) (word (sig.take 32)) (word ((sig.drop 32).take 32)) = signer ∧ signer ≠ 0)
  ids : ∀ digest v r s, v ≠ 27 → v ≠ 28 → evm.ecrecover digest v r s = 0

def SignedFor (crates : AdmissionCrates) (digest : Word) (att : AdmissionAttestation) (signer : Address) : Prop :=
  ∃ raw, hexDecode att.signature = .ok raw ∧ Canonical raw ∧ crates.recoverAddressFromPrehash digest raw = .ok signer

structure Acceptable (evm : Evm) (crates : AdmissionCrates) (ctx : TickCtx) (staking : Staking) (timestamp : Nat)
    (applicantKey : String) (applicant : Address) (store : AttestationStore) : Prop where
  unexpired : (staking.entry applicant).appliedAt + applicationTimeout < 2 ^ 256 ∧
    timestamp < (staking.entry applicant).appliedAt + applicationTimeout
  listed : countActive staking * 2 < 2 ^ 256
  distinct : ((store.snapshot (snapshotKey staking applicantKey applicant)).filterMap
    (countedSigner evm crates ctx staking)).Nodup
  -- over the stake and the version of the rules on chain, whatever the attestation names
  signed : ∀ att ∈ store.snapshot (snapshotKey staking applicantKey applicant),
    ∀ signer ∈ countedSigner evm crates ctx staking att,
      SignedFor crates (consensusMessageHash evm staking applicant (staking.entry applicant).stake
        (staking.entry applicant).appliedAt) att signer

section Bundles
variable {evm : Evm} {crates : AdmissionCrates} {ctx : TickCtx} {staking : Staking}

variable {found : List (Address × AdmissionAttestation)} {att : AdmissionAttestation} {atts : List AdmissionAttestation}
  {signer : Address} {signers : List Address}

theorem activeSigners_ok (ok : activeSigners crates staking (atts.filter (verifies evm crates ctx)) = .ok found) :
    found = atts.filterMap fun att => (countedSigner evm crates ctx staking att).map (·,att) := by
  induction atts generalizing found with
  | nil =>
    cases ok
    rfl
  | cons att atts ih =>
    by_cases valid : verifies evm crates ctx att
    · rw [filter_cons_of_pos valid] at ok
      simp only [activeSigners,bind_ok,pure_ok] at ok
      obtain ⟨signer,parsed,rest,ok,rfl⟩ := ok
      rw [filterMap_cons,← ih ok]
      by_cases active : (staking.entry signer).state = .active
      · simp [countedSigner,valid,parsed,active]
      · simp [countedSigner,valid,parsed,active]
    · rw [filter_cons_of_neg valid] at ok
      rw [filterMap_cons,ih ok]
      simp [countedSigner,valid]

theorem recoverSigner_eq (digest : Word) (sig : List UInt8) : recoverSigner evm digest sig =
    if sig.length ≠ 65 then 0
    else if 0x7FFFFFFFFFFFFFFFFFFFFFFFFFFFFFFF5D576E7357A4501DDFE92F46681B20A0 < (word ((sig.drop 32).take 32)).toNat then 0
    else evm.ecrecover digest (recoveryByte sig) (word (sig.take 32)) (word ((sig.drop 32).take 32)) := rfl

theorem recoverSigner_iff (same : SameRecovery evm crates) {digest : Word} {sig : List UInt8} (nonzero : signer ≠ 0) :
    recoverSigner evm digest sig = signer ↔
      Canonical sig ∧ crates.recoverAddressFromPrehash digest sig = .ok signer := by
  constructor
  · intro recovered
    rw [recoverSigner_eq] at recovered
    split_ifs at recovered with short high
    · exact absurd recovered.symm nonzero
    · exact absurd recovered.symm nonzero
    · have canonical : Canonical sig := by
        refine ⟨not_not.mp short,Nat.le_of_not_lt high,?_⟩
        by_contra other
        push Not at other
        rw [← recovered] at nonzero
        exact nonzero (same.ids _ _ _ _ other.1 other.2)
      exact ⟨canonical,(same.recovers _ _ _ canonical).mpr ⟨recovered,nonzero⟩⟩
  · rintro ⟨canonical,recovered⟩
    rw [recoverSigner_eq,if_neg (not_not.mpr canonical.length),if_neg (Nat.not_lt.mpr canonical.low)]
    exact ((same.recovers _ _ _ canonical).mp recovered).1

variable {registrations : Registrations} {applicantKey : String}

theorem screening_attest {applicant : Address}
    (attests : screening ctx registrations staking applicantKey applicant = .attest) :
    (staking.entry applicant).state = .pending ∧ staking.minValidatorStake ≤ (staking.entry applicant).stake ∧
      (applicant,(staking.entry applicant).appliedAt) ∉ staking.consensusNonceUsed := by
  unfold screening at attests
  dsimp only at attests
  split_ifs at attests with pending enough _ _ _ used
  exact ⟨not_not.mp pending,Nat.le_of_not_lt enough,used⟩

theorem submit_spec {store after : AttestationStore} {applicant : Address} {nonce : Nat} {sigs : List (List UInt8)}
    (ok : processApplicant evm crates ctx registrations staking applicantKey store =
      .ok (after,.submit applicant nonce signers sigs)) :
    screening ctx registrations staking applicantKey applicant = .attest ∧ nonce = (staking.entry applicant).appliedAt ∧
      ∃ found, found = (after.snapshot (snapshotKey staking applicantKey applicant)).filterMap
          (fun att => (countedSigner evm crates ctx staking att).map (·,att)) ∧
        signers = (sorted found).map Prod.fst ∧ sigs = (sorted found).map (fun entry => rawSignature entry.2) ∧
        sorted found ≠ [] ∧ countActive staking * 2 % 2 ^ 256 ≤ (sorted found).length * 3 % 2 ^ 256 := by
  simp only [processApplicant,bind_ok] at ok
  obtain ⟨parsed,-,ok⟩ := ok
  split at ok
  · simp at ok
  · simp at ok
  · next attests =>
    simp only [bind_ok,pair_ok] at ok
    obtain ⟨own,-,decision,made,rfl,rfl⟩ := ok
    simp only [bundle,bind_ok] at made
    obtain ⟨found,listed,made⟩ := made
    split_ifs at made with few other keyless
    · simp at made
    · simp at made
    · simp at made
    · simp only [bind_ok,pure_ok,Decision.submit.injEq] at made
      obtain ⟨_,-,rfl,rfl,rfl,rfl⟩ := made
      refine ⟨attests,rfl,found,activeSigners_ok listed,rfl,rfl,?_,Nat.le_of_not_lt few⟩
      intro none
      rw [none] at other
      exact other (by by_cases nobody : ctx.selfAddr = .none <;> simp [nobody,eq_comm])

theorem sorted_perm (found : List (Address × AdmissionAttestation)) : (sorted found).Perm found :=
  perm_insertionSort _ found

theorem sorted_ascending (found : List (Address × AdmissionAttestation)) :
    ((sorted found).map Prod.fst).Pairwise fun a b => a.toNat ≤ b.toNat := by
  have total : Std.Total fun a b : Address × AdmissionAttestation => a.1.toNat ≤ b.1.toNat :=
    ⟨fun a b => Nat.le_total _ _⟩
  have trans : IsTrans (Address × AdmissionAttestation) fun a b => a.1.toNat ≤ b.1.toNat :=
    ⟨fun _ _ _ => Nat.le_trans⟩
  exact pairwise_map.mpr (pairwise_insertionSort _ found)

theorem strictly_ascending_iff (ascending : signers.Pairwise fun a b => a.toNat ≤ b.toNat)
    (nonzero : ∀ signer ∈ signers, signer ≠ 0) : ((0 : Address) :: signers).Pairwise (· < ·) ↔ signers.Nodup := by
  have positive : ∀ signer ∈ signers, (0 : Address) < signer := by
    intro signer inside
    have other : signer.toNat ≠ (0 : Address).toNat := fun same => nonzero signer inside (BitVec.eq_of_toNat_eq same)
    exact BitVec.lt_def.mpr (Nat.pos_of_ne_zero other)
  rw [pairwise_cons,and_iff_right positive]
  constructor
  · intro strict
    refine strict.imp ?_
    rintro a _ less rfl
    exact BitVec.lt_irrefl a less
  · intro distinct
    refine (ascending.and distinct).imp ?_
    rintro a b ⟨below,other⟩
    have differ : a.toNat ≠ b.toNat := fun same => other (BitVec.eq_of_toNat_eq same)
    exact BitVec.lt_def.mpr (Nat.lt_of_le_of_ne below differ)

theorem length_le_of_nodup (distinct : signers.Nodup) : signers.length ≤ 2 ^ 160 := by
  rw [← toFinset_card_of_nodup distinct]
  exact card_addresses _

theorem countedSigner_active (counted : countedSigner evm crates ctx staking att = some signer) :
    (staking.entry signer).state = .active := by
  unfold countedSigner at counted
  split_ifs at counted
  split at counted
  · split_ifs at counted with active
    rwa [← Option.some.inj counted]
  · cases counted

theorem rawSignature_ok (canonical : Canonical (rawSignature att)) : hexDecode att.signature = .ok (rawSignature att) := by
  have length := canonical.length
  unfold rawSignature at length ⊢
  cases decoded : hexDecode att.signature with
  | ok raw => rfl
  | error e =>
    rw [decoded] at length
    cases length

theorem mem_sorted (counts : found = atts.filterMap fun att => (countedSigner evm crates ctx staking att).map (·,att)) :
    (signer,att) ∈ sorted found ↔ att ∈ atts ∧ countedSigner evm crates ctx staking att = some signer := by
  rw [(sorted_perm _).mem_iff,counts,mem_filterMap]
  constructor
  · rintro ⟨other,inside,counted⟩
    obtain ⟨own,counts,made⟩ := map_eq_some_iff.mp counted
    cases made
    exact ⟨inside,counts⟩
  · rintro ⟨inside,counts⟩
    exact ⟨att,inside,by rw [counts]; rfl⟩

section
variable (same : SameRecovery evm crates)
include same

theorem signedFor_iff {digest : Word} (nonzero : signer ≠ 0) :
    recoverSigner evm digest (rawSignature att) = signer ↔ SignedFor crates digest att signer := by
  rw [recoverSigner_iff same nonzero]
  constructor
  · rintro ⟨canonical,recovered⟩
    exact ⟨_,rawSignature_ok canonical,canonical,recovered⟩
  · rintro ⟨raw,decoded,canonical,recovered⟩
    have own : rawSignature att = raw := by rw [rawSignature,decoded]
    rw [own]
    exact ⟨canonical,recovered⟩

theorem SignedFor.nonzero {digest : Word} (signed : SignedFor crates digest att signer) : signer ≠ 0 := by
  obtain ⟨raw,-,canonical,recovered⟩ := signed
  exact ((same.recovers _ _ _ canonical).mp recovered).2

theorem bundle_signers_iff (atts : List AdmissionAttestation) (digest : Word)
    (counts : found = atts.filterMap fun att => (countedSigner evm crates ctx staking att).map (·,att)) :
    checkSigners evm staking digest 0 ((sorted found).map Prod.fst)
        ((sorted found).map fun entry => rawSignature entry.2) = .ok () ↔
      ((sorted found).map Prod.fst).Nodup ∧
        ∀ att ∈ atts, ∀ signer ∈ countedSigner evm crates ctx staking att, SignedFor crates digest att signer := by
  rw [checkSigners_iff Prod.fst fun entry => rawSignature entry.2]
  constructor
  · rintro ⟨strict,behind⟩
    have nonzero : ∀ signer ∈ (sorted found).map Prod.fst, signer ≠ 0 := by
      intro signer inside zero
      exact BitVec.lt_irrefl 0 (zero ▸ (pairwise_cons.mp strict).1 signer inside)
    refine ⟨(strictly_ascending_iff (sorted_ascending found) nonzero).mp strict,?_⟩
    intro att inside signer counted
    have entry := (mem_sorted counts).mpr ⟨inside,counted⟩
    have recovered := (behind _ entry).2
    exact (signedFor_iff same (nonzero signer (List.mem_map_of_mem entry))).mp recovered
  · rintro ⟨distinct,signed⟩
    have nonzero : ∀ signer ∈ (sorted found).map Prod.fst, signer ≠ 0 := by
      intro signer inside
      obtain ⟨⟨_,att⟩,entry,rfl⟩ := List.mem_map.mp inside
      obtain ⟨stored,counted⟩ := (mem_sorted counts).mp entry
      exact (signed att stored _ counted).nonzero same
    refine ⟨(strictly_ascending_iff (sorted_ascending found) nonzero).mpr distinct,?_⟩
    rintro ⟨signer,att⟩ entry
    obtain ⟨stored,counted⟩ := (mem_sorted counts).mp entry
    have own := signed att stored signer counted
    exact ⟨countedSigner_active counted,(signedFor_iff same (own.nonzero same)).mpr own⟩

end

theorem signers_perm (counts : found = atts.filterMap fun att => (countedSigner evm crates ctx staking att).map (·,att)) :
    ((sorted found).map Prod.fst).Perm (atts.filterMap (countedSigner evm crates ctx staking)) := by
  have firsts : found.map Prod.fst = atts.filterMap (countedSigner evm crates ctx staking) := by
    rw [counts,map_filterMap]
    simp [Option.map_map,Function.comp_def]
  exact firsts ▸ (sorted_perm found).map Prod.fst

end Bundles

/-- The contract takes a bundle exactly if its attestations are distinct and signed over what the chain hashes, before the
application expires. -/
theorem bundle_accepted_iff {evm : Evm} {crates : AdmissionCrates} (same : SameRecovery evm crates) (ctx : TickCtx)
    (registrations : Registrations) (world : World) (applicantKey : String) (store after : AttestationStore)
    (applicant : Address) (nonce : Nat) (signers : List Address) (sigs : List (List UInt8))
    (submits : processApplicant evm crates ctx registrations world.staking applicantKey store =
      .ok (after,.submit applicant nonce signers sigs)) (tx : Tx) :
    (∃ result, world.approveByConsensus evm tx applicant nonce signers sigs = .ok result) ↔
      Acceptable evm crates ctx world.staking tx.timestamp applicantKey applicant after := by
  obtain ⟨attests,rfl,found,counts,rfl,rfl,present,quorum⟩ := submit_spec submits
  have rules := screening_attest attests
  have distinct := (signers_perm counts).nodup_iff
  rw [approveByConsensus_iff]
  dsimp only
  rw [bundle_signers_iff same _ _ counts,checkQuorum_iff]
  constructor
  · rintro ⟨-,unexpired,-,⟨nodup,signed⟩,-,listed,-⟩
    exact ⟨unexpired,listed,distinct.mp nodup,signed⟩
  · rintro ⟨unexpired,listed,apart,signed⟩
    have nodup := distinct.mpr apart
    have few := length_le_of_nodup nodup
    rw [length_map] at few
    refine ⟨rules,unexpired,⟨?_,?_⟩,⟨nodup,signed⟩,?_,listed,?_⟩
    · simpa using present
    · rw [length_map,length_map]
    · rw [length_map]
      omega
    · rw [length_map]
      rw [Nat.mod_eq_of_lt listed,Nat.mod_eq_of_lt (by omega)] at quorum
      exact quorum

/-! Two active validators, the accounts 10 and 12, and an applicant, the account 11. A signature is the
signer and the digest, and a digest is the last word of what is hashed. -/
namespace Attested
def evm : Evm where
  keccak256 := word
  ecrecover digest v r s := if (v = 27 ∨ v = 28) ∧ s = digest then r.setWidth 160 else 0
  chainId := 1

def sign (signer : Address) (digest : Word) : List UInt8 := Abi.bytes (ofAddress signer) ++ Abi.bytes digest ++ [27]

def crates : AdmissionCrates where
  address text :=
    match [10,11,12].find? fun a => addressText a = text with
    | some a => .ok a
    | none => .error "invalid string length"
  u256FromHex text := .ok ((toChars text).foldl (fun n c => n * 16 + c.toNat - 48) 0)
  recoverAddressFromPrehash digest sig :=
    let signer := evm.ecrecover digest (recoveryByte sig) (word (sig.take 32)) (word ((sig.drop 32).take 32))
    if signer = 0 then .error "signature error" else .ok signer
  signerAddress _ := .ok 10
  signHash _ digest := .ok (sign 10 digest)

theorem sameRecovery : SameRecovery evm crates := by
  constructor
  · intro digest sig signer _
    simp only [crates]
    split_ifs with none
    · constructor
      · exact nofun
      · rintro ⟨rfl,nonzero⟩
        exact absurd none nonzero
    · rw [Except.ok.injEq]
      constructor
      · rintro rfl
        exact ⟨rfl,none⟩
      · exact And.left
  · intro digest v r s first second
    simp [evm,first,second]

def start : World := match World.deploy evm accounts with
  | .ok (world,_) => world
  | .error _ => ⟨CregToken.undistributed evm 1 3 5,Staking.deploy evm 2 3 4⟩

def world : World :=
  Runs.run (World.next evm 2) start (joining 10 100 ++ joining 12 150 ++ (joining 11 200).take 2)

def ctx : TickCtx := ⟨1,2,some "key",some 10,true,300⟩

def registrations : Registrations := (∅ : Registrations).insert (addressText 11)
  { aliasName := "", identity := ⟨addressText 11,"node-11","aa"⟩, registeredWithNode := true, appliedOnChain := true
    governanceApproved := false, admittedToConsensus := false, active := false, status := "", reputation := 100 }

def attestation (signer : Address) (version : Nat) : AdmissionAttestation where
  applicant := addressText 11
  stake := hexText (100 * 10 ^ 18)
  nonce := hexText 200
  ruleSetVersion := hexText version
  signer := addressText signer
  signature := "0x" ++ hexEncode (sign signer (BitVec.ofNat 256 version))

def stored (version : Nat) : AttestationStore :=
  AttestationStore.insert (AttestationStore.insert ∅ (attestation 12 version)) (attestation 10 1)

theorem screened : screening ctx registrations world.staking (addressText 11) 11 = .attest := by
  decide +kernel

theorem owned (store : AttestationStore) :
    withOwn evm crates ctx world.staking 11 store = .ok (store.insert (attestation 10 1)) := by
  have entry : (world.staking.entry 11).stake = 100 * 10 ^ 18 ∧ (world.staking.entry 11).appliedAt = 200 := by
    decide +kernel
  have digest : admissionDigest evm 1 2 11 (100 * 10 ^ 18) 200 1 = 1 := by decide +kernel
  simp only [withOwn,ctx,signAttestation,entry.1,entry.2,ruleSetVersion,digest]
  rfl

theorem submits {version : Nat} (known : version = 1 ∨ version = 2) :
    processApplicant evm crates ctx registrations world.staking (addressText 11)
        (AttestationStore.insert ∅ (attestation 12 version)) =
      .ok (stored version,.submit 11 200 [10,12] [sign 10 1,sign 12 (BitVec.ofNat 256 version)]) := by
  have parsed : crates.address (addressText 11) = .ok 11 := by decide +kernel
  have bundled : bundle evm crates ctx world.staking (SetSync.addressText 11) 11 (stored version) =
      .ok (.submit 11 200 [10,12] [sign 10 1,sign 12 (BitVec.ofNat 256 version)]) := by
    rcases known with rfl | rfl
    · decide +kernel
    · decide +kernel
  rw [processApplicant,bind_ok]
  refine ⟨11,parsed,?_⟩
  rw [screened]
  rw [bind_ok]
  refine ⟨stored version,owned _,?_⟩
  rw [bind_ok]
  exact ⟨_,bundled,rfl⟩

def tx : Tx := Small.tx 10 300 0

theorem agreeing_bundle_accepted : (∃ result, world.approveByConsensus evm tx 11 200 [10,12] [sign 10 1,sign 12 1] = .ok result) ∧
    Acceptable evm crates ctx world.staking tx.timestamp (addressText 11) 11 (stored 1) := by
  have taken : (world.approveByConsensus evm tx 11 200 [10,12] [sign 10 1,sign 12 1]).isOk := by decide +kernel
  have accepted := isOk_iff.mp taken
  exact ⟨accepted,(bundle_accepted_iff sameRecovery ctx registrations world _ _ _ 11 200 [10,12] _ (submits (.inl rfl)) tx).mp
    accepted⟩

/-- One active validator names another version of the rules: its attestation verifies and counts,
and the whole bundle is refused for it. -/
theorem foreign_version_refused : processApplicant evm crates ctx registrations world.staking (addressText 11)
      (AttestationStore.insert ∅ (attestation 12 2)) = .ok (stored 2,.submit 11 200 [10,12] [sign 10 1,sign 12 2]) ∧
    SameRecovery evm crates ∧
    ¬∃ result, world.approveByConsensus evm tx 11 200 [10,12] [sign 10 1,sign 12 2] = .ok result := by
  have refused : (world.approveByConsensus evm tx 11 200 [10,12] [sign 10 1,sign 12 2]).isOk = false := by decide +kernel
  refine ⟨submits (.inr rfl),sameRecovery,?_⟩
  intro accepted
  rw [isOk_iff.mpr accepted] at refused
  cases refused

end Attested
end ChainRegistry.ConsensusAdmission
