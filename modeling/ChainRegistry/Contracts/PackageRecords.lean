import ChainRegistry.Contracts.Registry

/-! What the calls of the registry do to the records of packages, read off once, and the
lifecycle of a record that follows. -/
namespace ChainRegistry
open Lib Runs Fallible List Ledger

namespace Registry
variable {evm : Evm} {self : Address} {tx : Tx} {state after : Contracts} {registry : Registry}

def Binds (evm : Evm) (canonical : Bytes) (contentHash : Word) (ipfsCid : Bytes) (publicInputs : List Word) : Prop :=
  publicInputs[0]? = some (packageZKBindingInputs evm canonical contentHash ipfsCid).1 ∧
    publicInputs[1]? = some (packageZKBindingInputs evm canonical contentHash ipfsCid).2

inductive Change (evm : Evm) (hashed : List (List UInt8)) (key : Word) (old : PackageRecord) (proof : ZKProofData) :
    PackageRecord → ZKProofData → Prop
  | kept : Change evm hashed key old proof old proof
  | submits {record : PackageRecord} (fresh : old.status = .unknown) (own : keyOf evm record.canonical = key)
    (names : record.canonical.1 ∈ hashed) (encodes : encodeBinding record.canonical record.contentHash record.ipfsCid ∈ hashed)
    (pending : record.status = .pending) (mode : record.validationMode = .pbft) : Change evm hashed key old proof record proof
  | submitsProved {record : PackageRecord} {data : ZKProofData} (fresh : old.status = .unknown)
    (own : keyOf evm record.canonical = key) (names : record.canonical.1 ∈ hashed)
    (encodes : encodeBinding record.canonical record.contentHash record.ipfsCid ∈ hashed) (verified : record.status = .verified)
    (binds : Binds evm record.canonical record.contentHash record.ipfsCid data.publicInputs) :
    Change evm hashed key old proof record data
  | finalizes {blockHash : Word} {blockNumber : Nat} (pending : old.status = .pending) : Change evm hashed key old proof
      {old with status := .verified, blockHash := blockHash, blockNumber := blockNumber, validationMode := .pbft} proof
  | proves {canonical : Bytes} {zkProofHash blockHash : Word} {blockNumber : Nat} {data : ZKProofData}
    (pending : old.status = .pending) (own : keyOf evm canonical = key) (names : canonical.1 ∈ hashed)
    (binds : Binds evm canonical old.contentHash old.ipfsCid data.publicInputs) : Change evm hashed key old proof
      {old with
        status := .verified
        validationMode := .zkProof
        zkProofHash := zkProofHash
        blockHash := blockHash
        blockNumber := blockNumber} data
  | revokes {reason : String} (known : old.status ≠ .unknown) (standing : old.status ≠ .revoked) : Change evm hashed key old proof
      {old with status := .revoked, revocationReason := reason} proof

def Call.hashed : Call → List (List UInt8)
  | .submitPackage canonical contentHash ipfsCid | .submitPackageFor _ canonical contentHash ipfsCid |
    .submitPackageWithZKProof canonical contentHash ipfsCid _ _ =>
    [canonical.1,encodeBinding canonical contentHash ipfsCid]
  | .finalizePackage canonical _ | .verifyZKProof canonical _ _ | .revokePackage canonical _ _ => [canonical.1]
  | _ => []

def Changes (evm : Evm) (hashed : List (List UInt8)) (registry after : Registry) : Prop :=
  ∀ key, Change evm hashed key (registry.package key) (registry.zkProof key) (after.package key) (after.zkProof key)

theorem package_setPackage (registry : Registry) (key other : Word) (record : PackageRecord) :
    (registry.setPackage key record).package other = if other = key then record else registry.package other :=
  read_insert ..

theorem zkProof_setZkProof (registry : Registry) (key other : Word) (data : ZKProofData) :
    (registry.setZkProof key data).zkProof other = if other = key then data else registry.zkProof other :=
  read_insert ..

variable {hashes : List (List UInt8)} {key : Word} {canonical : Bytes} {old record : PackageRecord} {publicInputs : List Word}

theorem Changes.of_same {after : Registry} (packages : after.packages = registry.packages)
    (proofs : after.zkProofs = registry.zkProofs) :
    Changes evm hashes registry after := by
  intro key
  have record : after.package key = registry.package key := congrArg (read _ · key) packages
  have proof : after.zkProof key = registry.zkProof key := congrArg (read _ · key) proofs
  rw [record,proof]
  exact .kept

theorem Changes.of_package {record : PackageRecord}
    (change : Change evm hashes key (registry.package key) (registry.zkProof key) record (registry.zkProof key)) :
    Changes evm hashes registry (registry.setPackage key record) := by
  intro other
  rw [package_setPackage]
  split_ifs with own
  · subst own
    exact change
  · exact .kept

theorem Changes.of_both {record : PackageRecord} {data : ZKProofData}
    (change : Change evm hashes key (registry.package key) (registry.zkProof key) record data) :
    Changes evm hashes registry ((registry.setPackage key record).setZkProof key data) := by
  intro other
  rw [zkProof_setZkProof]
  change Change evm hashes other _ _ ((registry.setPackage key record).package other) _
  rw [package_setPackage]
  split_ifs with own
  · subst own
    exact change
  · exact .kept

theorem assertPackageProofBinding_ok {canonical ipfsCid : Bytes} {contentHash : Word}
    (ok : assertPackageProofBinding evm canonical contentHash ipfsCid publicInputs = .ok ()) :
    Binds evm canonical contentHash ipfsCid publicInputs := by
  simp only [assertPackageProofBinding,bind_ok,require_ok,exists_const] at ok
  exact ok.2

theorem checkPending_ok {record : PackageRecord} (ok : checkPending canonical record = .ok ()) : record.status = .pending := by
  unfold checkPending at ok
  split at ok
  · cases ok
  · cases ok
  · cases ok
  · assumption

theorem countApprovals_same {digest : Word} (sigs : List ValidatorSig) {approvals total : Nat}
    (ok : countApprovals evm self tx key digest sigs approvals state = .ok (total,after)) :
    after.registry.packages = state.registry.packages ∧ after.registry.zkProofs = state.registry.zkProofs := by
  induction sigs generalizing approvals state with
  | nil =>
    cases ok
    exact ⟨rfl,rfl⟩
  | cons sig sigs ih =>
    unfold countApprovals at ok
    split_ifs at ok with active approved
    · simp only [bind_ok] at ok
      obtain ⟨_,_,_,_,_,_,_,_,_,_,rest⟩ := ok
      have kept := ih rest
      exact kept
    · simp only [bind_ok] at ok
      obtain ⟨_,_,_,_,_,_,_,_,rest⟩ := ok
      have kept := ih rest
      exact kept
    · exact ih ok

theorem storePendingPackage_changes {publisher : Address} {canonical ipfsCid : Bytes} {contentHash : Word}
    (ok : storePendingPackage evm tx publisher canonical contentHash ipfsCid state = .ok after) :
    Changes evm [canonical.1,encodeBinding canonical contentHash ipfsCid] state.registry after.registry := by
  simp only [storePendingPackage,bind_ok,require_and,pure_ok] at ok
  obtain ⟨fresh,_,rfl⟩ := ok
  exact .of_package (.submits fresh rfl (mem_cons_self ..) (mem_cons_of_mem _ (mem_cons_self ..)) rfl rfl)

theorem revokePackage_changes {reason : String} {severity : Severity}
    (ok : revokePackage evm self tx canonical reason severity state = .ok after) :
    Changes evm hashes state.registry after.registry := by
  simp only [revokePackage,bind_ok,require_and] at ok
  obtain ⟨_,_,known,standing,_,ok⟩ := ok
  have stored : after.registry = state.registry.setPackage (keyOf evm canonical)
      {state.registry.package (keyOf evm canonical) with status := .revoked, revocationReason := reason} := by
    split_ifs at ok
    · simp only [bind_ok,pure_ok] at ok
      obtain ⟨_,_,rfl⟩ := ok
      rfl
    · simp only [pure_ok] at ok
      rw [← ok]
  rw [stored]
  exact .of_package (.revokes known standing)

theorem finalizePackage_changes {sigs : List ValidatorSig} (ok : finalizePackage evm self tx canonical sigs state = .ok after) :
    Changes evm hashes state.registry after.registry := by
  simp only [finalizePackage,bind_ok,require_and,Prod.exists,pure_ok] at ok
  obtain ⟨_,_,_,_,pending,_,_,_,counted,loop,_,rfl⟩ := ok
  obtain ⟨packages,proofs⟩ := countApprovals_same sigs loop
  intro other
  have record : counted.registry.package other = state.registry.package other := congrArg (read _ · other) packages
  have proof : counted.registry.zkProof other = state.registry.zkProof other := congrArg (read _ · other) proofs
  change Change evm hashes other _ _ _ (counted.registry.zkProof other)
  rw [package_setPackage,record,proof]
  split_ifs with own
  · subst own
    exact .finalizes (checkPending_ok pending)
  · exact .kept

theorem verifyZKProof_changes (ok : verifyZKProof evm tx canonical proof publicInputs state = .ok after) :
    Changes evm [canonical.1] state.registry after.registry := by
  simp only [verifyZKProof,bind_ok] at ok
  obtain ⟨_,_,ok⟩ := ok
  split at ok
  · cases ok
  · cases ok
    exact .of_same rfl rfl
  · cases ok
  · rename_i pending
    simp only [bind_ok,require_and,pure_ok] at ok
    obtain ⟨_,_,binds,_,_,rfl⟩ := ok
    exact .of_both (.proves pending rfl (mem_cons_self ..) (assertPackageProofBinding_ok binds))

theorem call_changes {call : Call} (ok : Registry.call evm self tx state call = .ok after) :
    Changes evm call.hashed state.registry after.registry := by
  cases call with
  | submitPackage canonical contentHash ipfsCid =>
    simp only [Registry.call,submitPackage,bind_ok] at ok
    obtain ⟨_,_,ok⟩ := ok
    exact storePendingPackage_changes ok
  | submitPackageFor publisher canonical contentHash ipfsCid =>
    simp only [Registry.call,submitPackageFor,bind_ok] at ok
    obtain ⟨_,_,_,_,ok⟩ := ok
    exact storePendingPackage_changes ok
  | submitPackageWithZKProof canonical contentHash ipfsCid proof publicInputs =>
    simp only [Registry.call,submitPackageWithZKProof,bind_ok,require_and,pure_ok] at ok
    obtain ⟨_,_,_,_,fresh,_,_,binds,_,_,_,rfl⟩ := ok
    exact .of_both (.submitsProved fresh rfl (mem_cons_self ..) (mem_cons_of_mem _ (mem_cons_self ..)) rfl
      (assertPackageProofBinding_ok binds))
  | submitRollupBatch prevRoot nextRoot txCount dataRoot proof publicInputs =>
    simp only [Registry.call,submitRollupBatch,bind_ok,pure_ok] at ok
    obtain ⟨_,_,_,_,_,_,_,_,rfl⟩ := ok
    exact .of_same rfl rfl
  | finalizePackage canonical sigs => exact finalizePackage_changes ok
  | verifyZKProof canonical proof publicInputs => exact verifyZKProof_changes ok
  | revokePackage canonical reason severity => exact revokePackage_changes ok
  | setQuorum pct =>
    simp only [Registry.call,setQuorum,bind_ok,pure_ok] at ok
    obtain ⟨_,_,_,_,rfl⟩ := ok
    exact .of_same rfl rfl
  | _ =>
    simp only [Registry.call,setGovernance,setZKValidationEnabled,setZKValidationFee,setPackageSubmitRelay,
      setPackageFinalizeRelay,setEnforceFinalizeRelays,setDependentCount,configure,bind_ok,pure_ok] at ok
    obtain ⟨_,_,rfl⟩ := ok
    exact .of_same rfl rfl

def Event.hashed : Event → List (List UInt8)
  | .call _ made => made.hashed
  | .other _ _ => []

theorem next_changes (evm : Evm) (self : Address) (state : Contracts) (event : Event) :
    Changes evm event.hashed state.registry (next evm self state event).registry := by
  cases event with
  | call tx made =>
    cases ok : Registry.call evm self tx state made with
    | ok after =>
      have moved : next evm self state (.call tx made) = after := by rw [next,ok]
      rw [moved]
      exact call_changes ok
    | error failure =>
      have stayed : next evm self state (.call tx made) = state := by rw [next,ok]
      rw [stayed]
      exact .of_same rfl rfl
  | other world reputation => exact .of_same rfl rfl

def PackageStatus.moves : PackageStatus → PackageStatus → Bool
  | .unknown, .pending | .unknown, .verified | .pending, .verified | .pending, .revoked | .verified, .revoked => true
  | _, _ => false

structure Same (old record : PackageRecord) : Prop where
  canonical : record.canonical = old.canonical
  contentHash : record.contentHash = old.contentHash
  ipfsCid : record.ipfsCid = old.ipfsCid
  publisher : record.publisher = old.publisher

theorem Same.trans {first second third : PackageRecord} (same : Same first second) (also : Same second third) :
    Same first third :=
  ⟨also.canonical.trans same.canonical,also.contentHash.trans same.contentHash,also.ipfsCid.trans same.ipfsCid,
    also.publisher.trans same.publisher⟩

structure Lifecycle (old record : PackageRecord) : Prop where
  same : old.status ≠ .unknown → Same old record
  moves : record.status = old.status ∨ old.status.moves record.status

theorem Change.lifecycle {proof data : ZKProofData} (change : Change evm hashes key old proof record data) :
    Lifecycle old record := by
  cases change with
  | kept => exact ⟨fun _ => ⟨rfl,rfl,rfl,rfl⟩,.inl rfl⟩
  | submits fresh own names encodes pending mode =>
    refine ⟨fun known => absurd fresh known,.inr ?_⟩
    rw [fresh,pending]
    rfl
  | submitsProved fresh own names encodes verified binds =>
    refine ⟨fun known => absurd fresh known,.inr ?_⟩
    rw [fresh,verified]
    rfl
  | finalizes pending | proves pending own names binds =>
    refine ⟨fun _ => ⟨rfl,rfl,rfl,rfl⟩,.inr ?_⟩
    rw [pending]
    rfl
  | revokes known standing =>
    refine ⟨fun _ => ⟨rfl,rfl,rfl,rfl⟩,.inr ?_⟩
    cases status : old.status with
    | unknown => exact absurd status known
    | revoked => exact absurd status standing
    | pending => rfl
    | verified => rfl

theorem Lifecycle.known (lifecycle : Lifecycle old record) (known : old.status ≠ .unknown) : record.status ≠ .unknown := by
  rcases lifecycle.moves with same | moves
  · rw [same]
    exact known
  · intro unknown
    rw [unknown] at moves
    revert moves
    cases old.status <;> decide

theorem Lifecycle.revoked (lifecycle : Lifecycle old record) (revoked : old.status = .revoked) : record.status = .revoked := by
  rcases lifecycle.moves with same | moves
  · rw [same,revoked]
  · rw [revoked] at moves
    cases status : record.status <;> rw [status] at moves <;> cases moves

theorem lifecycle_next (evm : Evm) (self : Address) (state : Contracts) (event : Event) (key : Word) :
    Lifecycle (state.registry.package key) ((next evm self state event).registry.package key) :=
  (next_changes evm self state event key).lifecycle

theorem lifecycle_run (evm : Evm) (self : Address) (state : Contracts) (events : List Event) (key : Word)
    (known : (state.registry.package key).status ≠ .unknown) :
    Same (state.registry.package key) ((run (next evm self) state events).registry.package key) ∧
      ((state.registry.package key).status = .revoked →
        ((run (next evm self) state events).registry.package key).status = .revoked) := by
  induction events generalizing state with
  | nil => exact ⟨⟨rfl,rfl,rfl,rfl⟩,id⟩
  | cons event events ih =>
    have step := lifecycle_next evm self state event key
    obtain ⟨same,final⟩ := ih _ (step.known known)
    exact ⟨(step.same known).trans same,fun revoked => final (step.revoked revoked)⟩

/-- The status of every record moves along its lifecycle only, a record that has left `Unknown`
keeps its identity, and one that is revoked stays revoked. -/
theorem package_lifecycle (evm : Evm) (self governance : Address) (world : World) (reputation : Reputation)
    (before after : List Event) (key : Word) :
    Along (next evm self)
        (fun state event => Lifecycle (state.registry.package key) ((next evm self state event).registry.package key))
        ⟨deploy governance,world,reputation⟩ (before ++ after) ∧
      (((run (next evm self) ⟨deploy governance,world,reputation⟩ before).registry.package key).status ≠ .unknown →
        Same ((run (next evm self) ⟨deploy governance,world,reputation⟩ before).registry.package key)
            ((run (next evm self) ⟨deploy governance,world,reputation⟩ (before ++ after)).registry.package key) ∧
          (((run (next evm self) ⟨deploy governance,world,reputation⟩ before).registry.package key).status = .revoked →
            ((run (next evm self) ⟨deploy governance,world,reputation⟩ (before ++ after)).registry.package key).status =
              .revoked)) := by
  constructor
  · generalize (⟨deploy governance,world,reputation⟩ : Contracts) = state
    induction before ++ after generalizing state with
    | nil => trivial
    | cons event events ih => exact ⟨lifecycle_next evm self state event key,ih _⟩
  · rw [run_append]
    exact lifecycle_run evm self _ after key

end Registry

namespace Desk
open Registry

def revoking : Event := .call (tx 12 500) (.revokePackage name "withdrawn" .low)

theorem revoked_is_same : Same ((run (next evm 6) start [submitting]).registry.package (keyOf evm name))
    ((run (next evm 6) start [submitting,revoking]).registry.package (keyOf evm name)) :=
  ((package_lifecycle evm 6 4 start.world start.reputation [submitting] [revoking] (keyOf evm name)).2 (by decide +kernel)).1

end Desk
end ChainRegistry
