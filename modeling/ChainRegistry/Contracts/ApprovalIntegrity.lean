import ChainRegistry.Contracts.PackageRecords
import ChainRegistry.Contracts.Refinement

/-! What the signatures of a finalised package say. The digest that a validator signs names the
package but not the vote, so that the vote is whatever the caller writes next to it. -/
namespace ChainRegistry
open Lib Runs Fallible List Finset Reputation

namespace Registry
variable {evm : Evm} {self : Address} {tx : Tx} {key digest : Word} {state after : Contracts} {cast : List ValidatorSig}
  {reputation result : Reputation} {a : Address} {validator : Address} {sig : ValidatorSig}
  {canonical : Bytes} {timestamp : Nat} {approvals : Nat}

/-- The ballots that the validators have cast for a package. A signature over the digest is from one
of them: the rest of `ecrecover` fails, with the zero address. -/
structure Honest (evm : Evm) (digest : Word) (cast : List ValidatorSig) : Prop where
  valid : ∀ ballot ∈ cast, recoverSigner evm digest ballot.signature = .ok ballot.validator
  unforgeable : ∀ sig a, recoverSigner evm digest sig = .ok a → a ≠ 0 → ∃ ballot ∈ cast, ballot.validator = a

def required (state : Contracts) : Nat := state.world.staking.activeValidatorCount * state.registry.quorumPct / 100 + 1

def approvers (state : Contracts) (cast : List ValidatorSig) : Finset Address :=
  state.world.staking.activeAccounts.filter fun a => ∃ ballot ∈ cast, ballot.validator = a ∧ ballot.approved

/-- The active validators who have voted at all and whom the contract can still count. For the
zero address every signature counts that is not one. -/
def voters (state : Contracts) (key : Word) (cast : List ValidatorSig) : Finset Address :=
  state.world.staking.activeAccounts.filter fun a => (key,a) ∉ state.registry.validatorSignedForPackage ∧
    (state.reputation.score a).approvals + 1 < 2 ^ 32 ∧ (a = 0 ∨ ∃ ballot ∈ cast, ballot.validator = a)

structure Finalizable (holder : Address) (tx : Tx) (key : Word) (state : Contracts) : Prop where
  running : tx.isPaused state.registry.governance = some false
  relayed : state.registry.enforceFinalizeRelays → tx.sender ∈ state.registry.packageFinalizeRelays
  pending : (state.registry.package key).status = .pending
  inRange : state.world.staking.activeValidatorCount * state.registry.quorumPct < 2 ^ 256
  recorded : holder = state.reputation.registry

structure Countable (evm : Evm) (holder : Address) (key digest : Word) (state : Contracts) (a : Address) : Prop where
  active : state.world.staking.isActiveValidator a
  unsigned : (key,a) ∉ state.registry.validatorSignedForPackage
  room : (state.reputation.score a).approvals + 1 < 2 ^ 32
  recovers : ∃ sig, recoverSigner evm digest sig = .ok a
  recorded : holder = state.reputation.registry

def counted (state : Contracts) (key : Word) (sig : ValidatorSig) (reputation : Reputation) : Contracts :=
  ⟨state.registry.noteSignature key sig,state.world,reputation⟩

theorem score_setScore (reputation : Reputation) (account other : Address) (score : Score) :
    (reputation.setScore account score).score other = if other = account then score else reputation.score other :=
  Ledger.read_insert ..

structure Touches (account : Address) (reputation result : Reputation) : Prop where
  registry : result.registry = reputation.registry
  others : ∀ other, other ≠ account → result.score other = reputation.score other

theorem touches_setScore (reputation : Reputation) (account : Address) (score : Score) :
    Touches account reputation (reputation.setScore account score) := by
  refine ⟨rfl,?_⟩
  intro other apart
  rw [score_setScore,if_neg apart]

theorem recordApproval_ok (ok : reputation.recordApproval self timestamp validator = .ok result) :
    self = reputation.registry ∧ (reputation.score validator).approvals + 1 < 2 ^ 32 ∧ Touches validator reputation result := by
  simp only [recordApproval,bind_ok,require_and,increment_ok,pure_ok] at ok
  obtain ⟨own,_,⟨room,rfl⟩,rfl⟩ := ok
  exact ⟨own,room,touches_setScore ..⟩

theorem recordRejection_ok
    (ok : reputation.recordRejection self timestamp validator = .ok result) : Touches validator reputation result := by
  simp only [recordRejection,bind_ok,require_and,increment_ok,pure_ok] at ok
  obtain ⟨_,_,_,rfl⟩ := ok
  exact touches_setScore ..

theorem mem_noted (registry : Registry) (sig : ValidatorSig) (a : Address) :
    (key,a) ∈ (registry.noteSignature key sig).validatorSignedForPackage ↔
      a = sig.validator ∨ (key,a) ∈ registry.validatorSignedForPackage := by
  change _ ∈ insert _ _ ↔ _
  rw [mem_insert,Prod.mk.injEq,and_iff_right rfl]

theorem Countable.of_counted {reputation : Reputation} (touches : Touches sig.validator state.reputation reputation)
    (countable : Countable evm self key digest (counted state key sig reputation) a) :
    a ≠ sig.validator ∧ Countable evm self key digest state a := by
  have unsigned := countable.unsigned
  rw [counted,mem_noted,not_or] at unsigned
  have room := countable.room
  rw [show (counted state key sig reputation).reputation = reputation from rfl,touches.others a unsigned.1] at room
  exact ⟨unsigned.1,countable.active,unsigned.2,room,countable.recovers,countable.recorded.trans touches.registry⟩

theorem Countable.counted {reputation : Reputation}
    (touches : Touches sig.validator state.reputation reputation) (countable : Countable evm self key digest state a)
    (apart : a ≠ sig.validator) : Countable evm self key digest (counted state key sig reputation) a := by
  refine ⟨countable.active,?_,?_,countable.recovers,countable.recorded.trans touches.registry.symm⟩
  · rw [Registry.counted,mem_noted,not_or]
    exact ⟨apart,countable.unsigned⟩
  · change (reputation.score a).approvals + 1 < _
    rw [touches.others a apart]
    exact countable.room

theorem countApprovals_le (sigs : List ValidatorSig) {approvals total : Nat}
    (ok : countApprovals evm self tx key digest sigs approvals state = .ok (total,after)) :
    ∃ accounts : Finset Address, total ≤ approvals + accounts.card ∧ ∀ a ∈ accounts, Countable evm self key digest state a := by
  induction sigs generalizing approvals state with
  | nil =>
    cases ok
    exact ⟨∅,le_rfl,nofun⟩
  | cons sig sigs ih =>
    unfold countApprovals at ok
    split_ifs at ok with active approved
    · simp only [bind_ok,require_and,checkedAdd_ok] at ok
      obtain ⟨unsigned,_,recovers,rfl,_,⟨_,rfl⟩,reputation,recorded,rest⟩ := ok
      obtain ⟨own,room,touches⟩ := recordApproval_ok recorded
      obtain ⟨accounts,bound,countable⟩ := ih rest
      have absent : sig.validator ∉ accounts := fun inside => ((countable _ inside).of_counted touches).1 rfl
      refine ⟨insert sig.validator accounts,?_,?_⟩
      · rw [card_insert_of_notMem absent]
        omega
      · intro a inside
        rcases mem_insert.mp inside with rfl | inside
        · exact ⟨active,unsigned,room,⟨_,recovers⟩,own⟩
        · exact ((countable a inside).of_counted touches).2
    · simp only [bind_ok,require_and] at ok
      obtain ⟨_,_,_,rfl,reputation,recorded,rest⟩ := ok
      have touches := recordRejection_ok recorded
      obtain ⟨accounts,bound,countable⟩ := ih rest
      exact ⟨accounts,bound,fun a inside => ((countable a inside).of_counted touches).2⟩
    · exact ih ok

theorem countApprovals_approved (tx : Tx) {signature : List UInt8} (countable : Countable evm self key digest state a)
    (recovers : recoverSigner evm digest signature = .ok a) (fits : approvals + 1 < 2 ^ 256) :
    ∃ reputation, Touches a state.reputation reputation ∧
      ∀ sigs, countApprovals evm self tx key digest (⟨a,signature,true⟩ :: sigs) approvals state =
        countApprovals evm self tx key digest sigs (approvals + 1) (counted state key ⟨a,signature,true⟩ reputation) := by
  have added : checkedAdd approvals 1 = .ok (approvals + 1) := (checkedAdd_ok _ _ _).mpr ⟨fits,rfl⟩
  have unsigned : require ((key,a) ∉ state.registry.validatorSignedForPackage) (.validatorAlreadySigned a) = .ok () :=
    (require_ok _ _ _).mpr countable.unsigned
  have recorded : ∃ reputation, state.reputation.recordApproval self tx.timestamp a = .ok reputation := by
    simp only [recordApproval,bind_ok,require_and,increment_ok,pure_ok]
    exact ⟨_,countable.recorded,_,⟨countable.room,rfl⟩,rfl⟩
  obtain ⟨reputation,recorded⟩ := recorded
  refine ⟨reputation,(recordApproval_ok recorded).2.2,?_⟩
  intro sigs
  rw [countApprovals,if_pos countable.active,unsigned,recovers]
  change (do
    require (a = a) (.invalidSignature a)
    let approvals ← checkedAdd approvals 1
    let reputation ← state.reputation.recordApproval self tx.timestamp a
    countApprovals evm self tx key digest sigs approvals (counted state key ⟨a,signature,true⟩ reputation)) = _
  rw [(require_ok (a = a) _ ()).mpr rfl,added,recorded]
  rfl

theorem countApprovals_all (tx : Tx) (accounts : List Address) (distinct : accounts.Nodup)
    (countable : ∀ a ∈ accounts, Countable evm self key digest state a) (fits : approvals + accounts.length < 2 ^ 256) :
    ∃ sigs after, countApprovals evm self tx key digest sigs approvals state = .ok (approvals + accounts.length,after) := by
  induction accounts generalizing approvals state with
  | nil => exact ⟨[],state,rfl⟩
  | cons a accounts ih =>
    obtain ⟨first,rest⟩ := nodup_cons.mp distinct
    obtain ⟨own,others⟩ := List.forall_mem_cons.mp countable
    obtain ⟨signature,recovers⟩ := own.recovers
    rw [length_cons] at fits
    obtain ⟨reputation,touches,step⟩ := countApprovals_approved tx own recovers (show approvals + 1 < 2 ^ 256 by omega)
    have still : ∀ b ∈ accounts, Countable evm self key digest (counted state key ⟨a,signature,true⟩ reputation) b := by
      intro b inside
      refine (others b inside).counted touches ?_
      rintro rfl
      exact first inside
    obtain ⟨sigs,after,done⟩ := ih rest still (show approvals + 1 + accounts.length < 2 ^ 256 by omega)
    refine ⟨⟨a,signature,true⟩ :: sigs,after,?_⟩
    rw [step,done,length_cons,Nat.add_assoc,Nat.add_comm 1]

theorem recoverSigner_zero (evm : Evm) (digest : Word) : recoverSigner evm digest (List.replicate 65 0xff) = .ok 0 := rfl

theorem mem_voters_iff (honest : Honest evm digest cast) (recorded : self = state.reputation.registry) (a : Address) :
    a ∈ voters state key cast ↔ Countable evm self key digest state a := by
  rw [voters,Finset.mem_filter,Staking.mem_activeAccounts]
  constructor
  · rintro ⟨active,unsigned,room,zero | ⟨ballot,inside,rfl⟩⟩
    · exact ⟨decide_eq_true active,unsigned,room,⟨_,zero ▸ recoverSigner_zero evm digest⟩,recorded⟩
    · exact ⟨decide_eq_true active,unsigned,room,⟨_,honest.valid ballot inside⟩,recorded⟩
  · intro countable
    obtain ⟨sig,recovers⟩ := countable.recovers
    exact ⟨of_decide_eq_true countable.active,countable.unsigned,countable.room,
      or_iff_not_imp_left.mpr (honest.unforgeable sig a recovers)⟩

theorem requiredApprovals_eq (inRange : state.world.staking.activeValidatorCount * state.registry.quorumPct < 2 ^ 256) :
    requiredApprovals state = .ok (required state) := by
  rw [requiredApprovals,(checkedMul_ok _ _ _).mpr ⟨inRange,rfl⟩]
  exact (checkedAdd_ok _ _ _).mpr ⟨by omega,rfl⟩

theorem requiredApprovals_ok {needed : Nat} (ok : requiredApprovals state = .ok needed) :
    state.world.staking.activeValidatorCount * state.registry.quorumPct < 2 ^ 256 ∧ needed = required state := by
  simp only [requiredApprovals,bind_ok,checkedMul_ok,checkedAdd_ok] at ok
  obtain ⟨_,⟨inRange,rfl⟩,_,rfl⟩ := ok
  exact ⟨inRange,rfl⟩

theorem whenNotPaused_ok {registry : Registry} (ok : whenNotPaused tx registry = .ok ()) :
    tx.isPaused registry.governance = some false := by
  unfold whenNotPaused at ok
  split at ok
  · rename_i paused asked
    rw [asked,(require_ok _ _ _).mp ok]
  · cases ok

theorem finalizePackage_ok {sigs : List ValidatorSig} (honest : Honest evm digest cast)
    (signed : digest = sigDigest evm canonical (state.registry.package (keyOf evm canonical)).contentHash)
    (ok : finalizePackage evm self tx canonical sigs state = .ok after) :
    Finalizable self tx (keyOf evm canonical) state ∧ required state ≤ (voters state (keyOf evm canonical) cast).card := by
  simp only [finalizePackage,bind_ok,require_and,Prod.exists,pure_ok] at ok
  obtain ⟨_,running,relayed,_,pending,needed,quorum,total,_,loop,enough,_⟩ := ok
  obtain ⟨inRange,rfl⟩ := requiredApprovals_ok quorum
  rw [← signed] at loop
  obtain ⟨accounts,bound,countable⟩ := countApprovals_le sigs loop
  have some : 0 < accounts.card := by
    have positive : 0 < required state := Nat.succ_pos _
    omega
  obtain ⟨a,inside⟩ := card_pos.mp some
  have recorded := (countable a inside).recorded
  have among : accounts ⊆ voters state (keyOf evm canonical) cast :=
    fun b inside => (mem_voters_iff honest recorded b).mpr (countable b inside)
  refine ⟨⟨whenNotPaused_ok running,relayed,checkPending_ok pending,inRange,recorded⟩,?_⟩
  calc required state ≤ total := enough
    _ ≤ 0 + accounts.card := bound
    _ ≤ (voters state (keyOf evm canonical) cast).card := by
      rw [Nat.zero_add]
      exact card_le_card among

theorem finalizePackage_of_voters (honest : Honest evm digest cast)
    (signed : digest = sigDigest evm canonical (state.registry.package (keyOf evm canonical)).contentHash)
    (finalizable : Finalizable self tx (keyOf evm canonical) state)
    (enough : required state ≤ (voters state (keyOf evm canonical) cast).card) :
    ∃ sigs after, finalizePackage evm self tx canonical sigs state = .ok after := by
  have few := card_addresses (voters state (keyOf evm canonical) cast)
  have fits : 0 + (voters state (keyOf evm canonical) cast).toList.length < 2 ^ 256 := by
    rw [length_toList]
    omega
  obtain ⟨sigs,counted,loop⟩ := countApprovals_all tx _ (nodup_toList _)
    (fun a inside => (mem_voters_iff honest finalizable.recorded a).mp (mem_toList.mp inside)) fits
  rw [Nat.zero_add,length_toList,signed] at loop
  have running : whenNotPaused tx state.registry = .ok () := by
    rw [whenNotPaused,finalizable.running]
    rfl
  have pending : checkPending canonical (state.registry.package (keyOf evm canonical)) = .ok () := by
    rw [checkPending,finalizable.pending]
  refine ⟨sigs,?_⟩
  simp only [finalizePackage,bind_ok,require_and,Prod.exists,pure_ok]
  exact ⟨_,_,running,finalizable.relayed,_,pending,_,requiredApprovals_eq finalizable.inRange,_,_,loop,enough,rfl⟩

/-- The calls that succeed have the approval of enough active validators exactly if none can
succeed, or too few validators have voted, or enough of them have approved. -/
theorem approval_integrity_iff (evm : Evm) (self : Address) (tx : Tx) (canonical : Bytes) (state : Contracts)
    (cast : List ValidatorSig)
    (honest : Honest evm (sigDigest evm canonical (state.registry.package (keyOf evm canonical)).contentHash) cast) :
    (∀ sigs after, finalizePackage evm self tx canonical sigs state = .ok after →
        required state ≤ (approvers state cast).card) ↔
      (¬Finalizable self tx (keyOf evm canonical) state ∨ (voters state (keyOf evm canonical) cast).card < required state ∨
        required state ≤ (approvers state cast).card) := by
  constructor
  · intro integrity
    by_contra none
    push Not at none
    obtain ⟨finalizable,enough,short⟩ := none
    obtain ⟨sigs,after,ok⟩ := finalizePackage_of_voters honest rfl finalizable enough
    exact absurd (integrity sigs after ok) (not_le.mpr short)
  · rintro cases sigs after ok
    obtain ⟨finalizable,enough⟩ := finalizePackage_ok honest rfl ok
    rcases cases with blocked | few | approved
    · exact absurd finalizable blocked
    · exact absurd enough (not_le.mpr few)
    · exact approved

end Registry

namespace Desk
open Registry

def sign (validator : Word) : List UInt8 := Abi.bytes validator ++ Abi.bytes 1 ++ [27]

def submitted : Contracts := run (next evm 6) start [submitting]

def ballots (approved : Bool) : List ValidatorSig := [⟨10,sign 10,approved⟩,⟨11,sign 11,approved⟩]

theorem recovered (digest : Word) (sig : List UInt8) : World.recoverSigner evm digest sig = 0 ∨
    World.recoverSigner evm digest sig = 10 ∨ World.recoverSigner evm digest sig = 11 := by
  have keys : ∀ v r s, evm.ecrecover digest v r s = 0 ∨ evm.ecrecover digest v r s = 10 ∨ evm.ecrecover digest v r s = 11 := by
    intro v r s
    change (if r = 10 ∨ r = 11 then r.setWidth 160 else 0) = (0 : Address) ∨ _ = (10 : Address) ∨ _ = (11 : Address)
    split_ifs with own
    · rcases own with rfl | rfl
      · exact .inr (.inl rfl)
      · exact .inr (.inr rfl)
    · exact .inl rfl
  unfold World.recoverSigner
  dsimp only
  split_ifs
  · exact .inl rfl
  · exact .inl rfl
  all_goals exact keys _ _ _

theorem ballots_honest (digest : Word) (approved : Bool) : Honest evm digest (ballots approved) := by
  constructor
  · intro ballot inside
    rcases mem_pair.mp inside with rfl | rfl
    · have own : World.recoverSigner evm 0 (sign 10) = 10 := by decide +kernel
      exact congrArg Except.ok own
    · have own : World.recoverSigner evm 0 (sign 11) = 11 := by decide +kernel
      exact congrArg Except.ok own
  · intro sig a recovers apart
    simp only [recoverSigner,bind_ok,require_and,pure_ok] at recovers
    obtain ⟨_,rfl⟩ := recovers
    rcases recovered digest sig with zero | first | second
    · exact absurd zero apart
    · exact ⟨_,List.mem_cons_self,first.symm⟩
    · exact ⟨_,List.mem_cons_of_mem _ List.mem_cons_self,second.symm⟩

theorem approved_by_both : (finalizePackage evm 6 (tx 12 500) name (ballots true) submitted).isOk ∧
    ∀ sigs after, finalizePackage evm 6 (tx 12 500) name sigs submitted = .ok after →
      required submitted ≤ (approvers submitted (ballots true)).card :=
  ⟨by decide +kernel,
    (approval_integrity_iff evm 6 (tx 12 500) name submitted (ballots true) (ballots_honest _ true)).mpr
      (.inr (.inr (by decide +kernel)))⟩

theorem rejected_and_finalised : Honest evm (sigDigest evm name 5) (ballots false) ∧
    (submitted.registry.package (keyOf evm name)).contentHash = 5 ∧
    (finalizePackage evm 6 (tx 12 500) name (ballots true) submitted).isOk ∧
    required submitted = 2 ∧ (approvers submitted (ballots false)).card = 0 :=
  ⟨ballots_honest _ false,by decide +kernel,by decide +kernel,by decide +kernel,by decide +kernel⟩

end Desk
end ChainRegistry
