import ChainRegistry.Resolver.HeaderFinality

/-! Whose signatures the light client has counted. The header commits to the ids of the
set, each closed by a NUL byte; the keys are those of the list that the server sends. -/
namespace ChainRegistry
open Lib Codes Alone List Text Finset Ideal

section
variable (crates : Crates)

def Produced (state : NodeState) (header : BlockHeader) : Prop :=
  ∃ txs clock nodeId vrfOutput vrfProof,
    header = ((state.produceSnapshot crates txs).block crates clock nodeId vrfOutput vrfProof).header

def PlainIds (validators : Validators) : Prop := ∀ v ∈ validators, 0 ∉ bytes v.id

instance (validators : Validators) : Decidable (PlainIds validators) := inferInstanceAs (Decidable (∀ v ∈ _, _))

variable (signed : List UInt8 → Prop)

def Unforged (blockHash : String) (sigs : List BlockSignature) : Prop :=
  ∀ sig ∈ sigs, ∀ key data, hexDecode (trimStartHexMark sig.signature) = .ok data →
    crates.verify key (bytes ("creg-pbft-v1:commit:" ++ blockHash)) data = .ok () → signed key

def KeySigned (entry : Validator) : Prop :=
  ∃ key, hexDecode (normalisedPubkey entry.pubkey) = .ok key ∧ signed key

def AtLeast (count : Nat) (validators : Validators) (holds : Validator → Prop) : Prop :=
  ∃ signers : Validators, signers.Sublist validators ∧ count ≤ signers.length ∧ ∀ v ∈ signers, holds v

variable {crates} {listed validators : Validators}

theorem ids_perm_of_hash (injective : Function.Injective crates.sha256Hex) (left : PlainIds listed)
    (right : PlainIds validators) (same : computeValidatorSetHash crates listed = validatorSetHash crates validators) :
    (listed.map Validator.id).Perm (validators.map Validator.id) := by
  have plain {set : Validators} (ids : PlainIds set) :
      ∀ text ∈ ((set.map Validator.id).insertionSort (fun a b => a ≤ b)).map bytes, (0 : UInt8) ∉ text := by
    intro text inside
    obtain ⟨id,among,rfl⟩ := List.mem_map.mp inside
    obtain ⟨v,member,rfl⟩ := List.mem_map.mp ((perm_insertionSort _ _).mem_iff.mp among)
    exact ids v member
  have data := injective same
  have codes := terminated_injective (plain left) (plain right) (by simpa only [flatMap_map] using data)
  have sorted := map_injective_iff.mpr bytes_injective codes
  have back := (perm_insertionSort (fun a b => a ≤ b) (listed.map Validator.id)).symm
  rw [sorted] at back
  exact back.trans (perm_insertionSort _ _)

theorem atLeast_of_seen (ids : (listed.map Validator.id).Perm (validators.map Validator.id)) {seen : Finset String}
    (holds : String → Validator → Prop) (each : ∀ id ∈ seen, ∃ entry ∈ listed, entry.id = id ∧ holds id entry) :
    AtLeast seen.card validators (fun v => ∃ entry ∈ listed, entry.id = v.id ∧ holds v.id entry) := by
  refine ⟨validators.filter (fun v => v.id ∈ seen),filter_sublist,?_,?_⟩
  · have covered : seen ⊆ ((validators.filter (fun v => v.id ∈ seen)).map Validator.id).toFinset := by
      intro id inside
      obtain ⟨entry,among,rfl,_⟩ := each id inside
      obtain ⟨v,member,named⟩ := List.mem_map.mp (ids.mem_iff.mp (List.mem_map_of_mem among))
      rw [mem_toFinset,List.mem_map]
      exact ⟨v,List.mem_filter.mpr ⟨member,by simpa [named] using inside⟩,named⟩
    calc seen.card ≤ _ := card_le_card covered
      _ ≤ _ := toFinset_card_le _
      _ = _ := length_map _
  · intro v inside
    exact each v.id (by simpa using (List.mem_filter.mp inside).2)

theorem accepted_by_listed_keys (injective : Function.Injective crates.sha256Hex) {state : NodeState} {header : BlockHeader}
    (produced : Produced crates state header) (distinct : (state.validatorSet.map Validator.id).Nodup)
    (plain : PlainIds state.validatorSet) {listed : Validators} (plainListed : PlainIds listed) {flag : Option String}
    {blockHash : String} {sigs : List BlockSignature} {signed : List UInt8 → Prop}
    (unforged : Unforged crates signed blockHash sigs)
    (accepted : verifyPbftConsensus crates flag blockHash header listed sigs = .ok ()) :
    AtLeast (clientQuorum state.validatorSet.length (clientSmallClusterFlag flag)) state.validatorSet
      (fun v => ∃ entry ∈ listed, entry.id = v.id ∧ (∃ sig ∈ sigs, sig.validatorId = v.id) ∧ KeySigned signed entry) := by
  obtain ⟨same,_,seen,counted,enough⟩ := (verifyPbftConsensus_iff flag header listed sigs).mp accepted
  have committed : header.validatorSetHash = validatorSetHash crates state.validatorSet := by
    obtain ⟨txs,clock,nodeId,output,proof,rfl⟩ := produced
    rfl
  have ids := ids_perm_of_hash injective plainListed plain (same.trans committed)
  have sizes : listed.length = state.validatorSet.length := by simpa using ids.length_eq
  have listedDistinct : (listed.map Validator.id).Nodup := ids.nodup_iff.mpr distinct
  have each : ∀ id ∈ seen, ∃ entry ∈ listed, entry.id = id ∧
      (∃ sig ∈ sigs, sig.validatorId = id) ∧ KeySigned signed entry := by
    intro id inside
    rcases (countSignatures_ok counted).2 id inside with old | ⟨sig,among,rfl,relevant,key,data,decoded,_,text,_,verified⟩
    · exact absurd old (notMem_empty id)
    · obtain ⟨entry,member,named,keys⟩ := (lookup_validatorPubkeys listedDistinct _ _).mp relevant
      rw [← keys] at decoded
      exact ⟨entry,member,named,⟨sig,among,rfl⟩,key,decoded,unforged sig among key data text verified⟩
  obtain ⟨signers,sub,many,hold⟩ := atLeast_of_seen ids
    (fun id entry => (∃ sig ∈ sigs, sig.validatorId = id) ∧ KeySigned signed entry) each
  rw [sizes] at enough
  exact ⟨signers,sub,enough.trans many,hold⟩

/-- The keys of a quorum of the set are behind an accepted header, where the list gives the validators that the
signatures name the keys they have in the set and the exception for three validators is not in use. -/
theorem accepted_by_registered_keys (injective : Function.Injective crates.sha256Hex) {state : NodeState}
    {header : BlockHeader} (produced : Produced crates state header) (distinct : (state.validatorSet.map Validator.id).Nodup)
    (plain : PlainIds state.validatorSet) {listed : Validators} {flag : Option String} {blockHash : String}
    {sigs : List BlockSignature} {signed : List UInt8 → Prop} (unforged : Unforged crates signed blockHash sigs)
    (accepted : verifyPbftConsensus crates flag blockHash header listed sigs = .ok ()) (plainListed : PlainIds listed)
    (registered : ∀ sig ∈ sigs, ∀ entry ∈ listed, ∀ v ∈ state.validatorSet, entry.id = sig.validatorId →
      v.id = sig.validatorId → normalisedPubkey entry.pubkey = normalisedPubkey v.pubkey)
    (strict : state.validatorSet.length = 3 → clientSmallClusterFlag flag = false) :
    AtLeast (2 * state.validatorSet.length / 3 + 1) state.validatorSet (KeySigned signed) := by
  obtain ⟨signers,sub,many,hold⟩ := accepted_by_listed_keys injective produced distinct plain plainListed unforged accepted
  have quorum : clientQuorum state.validatorSet.length (clientSmallClusterFlag flag) =
      2 * state.validatorSet.length / 3 + 1 := by
    by_cases three : state.validatorSet.length = 3
    · rw [strict three]
      simp [clientQuorum]
    · simp [clientQuorum,three]
  refine ⟨signers,sub,quorum ▸ many,fun v inside => ?_⟩
  obtain ⟨entry,member,named,⟨sig,among,signer⟩,key,decoded,own⟩ := hold v inside
  have same := registered sig among entry member v (sub.subset inside) (named.trans signer.symm) signer.symm
  exact ⟨key,same ▸ decoded,own⟩

end
/-! Three responses that are accepted without the registered keys of a quorum: with another
key for the id, with two ids joined to one, and with the exception for three validators. -/
namespace Listed
def member (id key : String) : Validator := ⟨id,id,key,"0x",100,100,"online"⟩

def pair : Validators := [member "a" "01",member "b" "02"]

def triple : Validators := [member "a" "01",member "b" "02",member "c" "03"]

variable (validators : Validators)

def header : BlockHeader := (block validators).header

def signature (id : String) (key : UInt8) : BlockSignature where
  validatorId := id
  pubkey := hexEncode [key]
  signature := hexEncode (crates.sign [key] (bytes ("creg-pbft-v1:commit:" ++ "h")))

theorem produced : Produced crates (state validators) (header validators) :=
  ⟨[],⟨0,0⟩,"v",none,none,rfl⟩

theorem unforged {sigs : List BlockSignature} {keys : List (List UInt8)}
    (named : ∀ sig ∈ sigs, ∃ key ∈ keys, hexDecode (trimStartHexMark sig.signature) =
      .ok (key ++ checksum (bytes ("creg-pbft-v1:commit:" ++ "h")))) :
    Unforged crates (· ∈ keys) "h" sigs := by
  intro sig inside key data text verified
  obtain ⟨own,listed,read⟩ := named sig inside
  rw [read] at text
  change (if data = key ++ checksum _ then Except.ok () else Except.error "signature error") = Except.ok () at verified
  split_ifs at verified with same
  exact append_cancel_right ((Except.ok.inj text).trans same) ▸ listed

def holders (keys : List (List UInt8)) : Validators :=
  validators.filter fun v => ((hexDecode (normalisedPubkey v.pubkey)).toOption.any (· ∈ keys))

theorem few {validators : Validators} {keys : List (List UInt8)} {count : Nat}
    (small : (holders validators keys).length < count) : ¬AtLeast count validators (KeySigned (· ∈ keys)) := by
  rintro ⟨signers,sub,many,hold⟩
  have kept : signers.filter (fun v => (hexDecode (normalisedPubkey v.pubkey)).toOption.any (· ∈ keys)) = signers := by
    rw [List.filter_eq_self]
    intro v inside
    obtain ⟨key,decoded,listed⟩ := hold v inside
    simp [decoded,Except.toOption,listed]
  have bound := (sub.filter fun v => (hexDecode (normalisedPubkey v.pubkey)).toOption.any (· ∈ keys)).length_le
  rw [kept] at bound
  exact absurd (many.trans bound) (not_le.mpr small)

def Unbound (validators listed : Validators) (flag : Option String) (sigs : List BlockSignature)
    (keys : List (List UInt8)) : Prop :=
  Produced crates (state validators) (header validators) ∧ (validators.map Validator.id).Nodup ∧
    PlainIds validators ∧ Unforged crates (· ∈ keys) "h" sigs ∧
    verifyPbftConsensus crates flag "h" (header validators) listed sigs = .ok () ∧
    ¬AtLeast (2 * validators.length / 3 + 1) validators (KeySigned (· ∈ keys))

end Listed
open Listed

theorem listed_pair_signed : AtLeast 2 pair (KeySigned (· ∈ [[1],[2]])) :=
  accepted_by_registered_keys (sha256Hex_injective) (produced pair) (by decide) (by decide)
    (unforged (by decide +kernel)) (by decide +kernel :
      verifyPbftConsensus crates none "h" (header pair) pair [signature "a" 1,signature "b" 2] = .ok ())
    (by decide) (by decide +kernel) (by decide)

theorem accepted_without_registered_keys : Unbound [member "a" "01"] [member "a" "02"] none [signature "a" 2] [[2]] ∧
    Unbound pair [member "a\x00b" "03"] none [signature "a\x00b" 3] [[3]] ∧
    Unbound triple triple (some "true") [signature "a" 1,signature "b" 2] [[1],[2]] := by
  refine ⟨⟨produced _,by decide,by decide,unforged (by decide +kernel),by decide +kernel,few ?_⟩,
    ⟨produced _,by decide,by decide,unforged (by decide +kernel),by decide +kernel,few ?_⟩,
    ⟨produced _,by decide,by decide,unforged (by decide +kernel),by decide +kernel,few ?_⟩⟩
  all_goals decide +kernel

end ChainRegistry
