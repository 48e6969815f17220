import ChainRegistry.Contracts.ConsensusAdmission
import ChainRegistry.Contracts.Exits

/-! Which application an attestation was made for. Validators sign for a pending application with
its time as the nonce; the contract takes the nonce from its caller. The applications of an account
are numbered by its entries in the list. -/
namespace ChainRegistry
open Lib Runs Fallible Small List World Abi

namespace Roster
variable {now : Nat} {roster : Roster}

theorem applied_step {move : Move} (other : ∀ account amount, move ≠ .apply account amount) :
    (roster.step now move).listed = roster.listed ∧
      ∀ a, ((roster.step now move).entry a).appliedAt = (roster.entry a).appliedAt := by
  constructor
  · cases move with
    | apply account amount => exact absurd rfl (other account amount)
    | _ => exact append_nil _
  · intro a
    rw [entry_step]
    split_ifs
    · cases move with
      | apply account amount => exact absurd rfl (other account amount)
      | _ => rfl
    · rfl

theorem applied_run {moves : List Move} (none : ∀ account amount, .apply account amount ∉ moves) :
    (run (step now) roster moves).listed = roster.listed ∧
      ∀ a, ((run (step now) roster moves).entry a).appliedAt = (roster.entry a).appliedAt := by
  induction moves generalizing roster with
  | nil => exact ⟨rfl,fun _ => rfl⟩
  | cons move moves ih =>
    obtain ⟨listed,times⟩ : (roster.step now move).listed = roster.listed ∧
        ∀ a, ((roster.step now move).entry a).appliedAt = (roster.entry a).appliedAt := by
      apply applied_step
      rintro account amount rfl
      exact none account amount mem_cons_self
    obtain ⟨later,after⟩ := ih fun account amount inside => none account amount (mem_cons_of_mem _ inside)
    exact ⟨later.trans listed,fun a => (after a).trans (times a)⟩

end Roster

structure Endorsement where
  (signer applicant : Address)
  (application stake nonce : Nat)
  digest : Word
  sig : List UInt8

structure Admissions where
  world : World
  given : List Endorsement

inductive Occurrence
  | transact (tx : Tx) (call : Call)
  | endorse (signer applicant : Address) (sig : List UInt8)

namespace Admissions
def applications (staking : Staking) (account : Address) : Nat := staking.validatorList.count account

def endorsement (evm : Evm) (staking : Staking) (signer applicant : Address) (sig : List UInt8) : Endorsement where
  signer := signer
  applicant := applicant
  application := applications staking applicant
  stake := (staking.entry applicant).stake
  nonce := (staking.entry applicant).appliedAt
  digest := consensusMessageHash evm staking applicant (staking.entry applicant).stake
    (staking.entry applicant).appliedAt
  sig := sig

def step (evm : Evm) (self : Address) (state : Admissions) : Occurrence → Admissions
  | .transact tx call => {state with world := state.world.next evm self (tx,call)}
  | .endorse signer applicant sig =>
    if (state.world.staking.entry applicant).state = .pending then
      {state with given := state.given ++ [endorsement evm state.world.staking signer applicant sig]}
    else state

def LaterApplication (state : Admissions) : Occurrence → Prop
  | .transact tx call => ∀ account amount, call.Applies tx account amount →
    0 < applications state.world.staking account → (state.world.staking.entry account).appliedAt < tx.timestamp
  | .endorse .. => True

structure Dated (roster : Roster) (given : Endorsement) : Prop where
  counted : 0 < given.application
  numbered : given.application ≤ roster.listed.count given.applicant
  earlier : given.nonce ≤ (roster.entry given.applicant).appliedAt
  last : given.application = roster.listed.count given.applicant ↔
    given.nonce = (roster.entry given.applicant).appliedAt

variable {evm : Evm} {self : Address} {roster : Roster} {given : Endorsement}

theorem Dated.of_same {after : Roster} (dated : Dated roster given) (listed : after.listed = roster.listed)
    (times : ∀ a, (after.entry a).appliedAt = (roster.entry a).appliedAt) : Dated after given := by
  refine ⟨dated.counted,?_,?_,?_⟩
  · rw [listed]
    exact dated.numbered
  · rw [times]
    exact dated.earlier
  · rw [listed,times]
    exact dated.last

theorem Dated.apply {now amount : Nat} {account : Address} (dated : Dated roster given)
    (later : 0 < roster.listed.count account → (roster.entry account).appliedAt < now) :
    Dated (roster.step now (.apply account amount)) given := by
  have counted : (roster.step now (.apply account amount)).listed.count given.applicant =
      roster.listed.count given.applicant + if given.applicant = account then 1 else 0 := by
    change (roster.listed ++ [account]).count given.applicant = _
    rw [count_append]
    by_cases own : given.applicant = account
    · simp [own]
    · simp [own,Ne.symm own]
  have time : ((roster.step now (.apply account amount)).entry given.applicant).appliedAt =
      if given.applicant = account then now else (roster.entry given.applicant).appliedAt := by
    rw [Roster.entry_step]
    change (if given.applicant = account then _ else _ : ValidatorEntry).appliedAt = _
    split_ifs <;> rfl
  have numbered := dated.numbered
  have earlier := dated.earlier
  by_cases own : given.applicant = account
  · rw [if_pos own] at counted time
    have before : (roster.entry given.applicant).appliedAt < now := by
      rw [own]
      apply later
      rw [← own]
      exact dated.counted.trans_le numbered
    refine ⟨dated.counted,?_,?_,?_⟩
    · omega
    · omega
    · rw [counted,time]
      exact iff_of_false (by omega) (by omega)
  · rw [if_neg own] at counted time
    refine ⟨dated.counted,?_,?_,?_⟩
    · omega
    · omega
    · rw [counted,time,Nat.add_zero]
      exact dated.last

theorem explains_cases {tx : Tx} {call : Call} {staking : Staking} {moves : List Move}
    (explains : call.Explains tx staking moves) :
    (∃ account amount, call.Applies tx account amount ∧ moves = [.apply account amount]) ∨
      ∀ account amount, .apply account amount ∉ moves := by
  cases call with
  | applyToBeValidator own => exact .inl ⟨tx.sender,own,⟨rfl,rfl⟩,explains⟩
  | applyToBeValidatorWithPermit validator own deadline v r s => exact .inl ⟨validator,own,⟨rfl,rfl⟩,explains⟩
  | _ =>
    refine .inr ?_
    intro account amount inside
    exact absurd ((explains_apply explains account amount).mp inside) id

theorem dated_next {world : World} {tx : Tx} {call : Call}
    (later : ∀ account amount, call.Applies tx account amount → 0 < applications world.staking account →
      (world.staking.entry account).appliedAt < tx.timestamp)
    (dated : Dated world.staking.roster given) : Dated (world.next evm self (tx,call)).staking.roster given := by
  rcases perform_cases evm self world (tx,call) with ⟨final,logs,done⟩ | ⟨-,same⟩
  · obtain ⟨moves,explains,refines⟩ := call_refines done
    rw [next_of_ok done,refines.roster]
    rcases explains_cases explains with ⟨account,amount,applies,rfl⟩ | none
    · exact dated.apply (later account amount applies)
    · obtain ⟨listed,times⟩ := Roster.applied_run none
      exact dated.of_same listed times
  · rw [World.next,same]
    exact dated

structure Traced (state : Admissions) : Prop where
  listed : state.world.staking.roster.Listed
  dated : ∀ given ∈ state.given, Dated state.world.staking.roster given

theorem traced_step (state : Admissions) (occurrence : Occurrence) (traced : state.Traced)
    (later : state.LaterApplication occurrence) : (state.step evm self occurrence).Traced := by
  cases occurrence with
  | transact tx call =>
    refine ⟨listed_next state.world (tx,call) traced.listed,?_⟩
    intro given inside
    exact dated_next later (traced.dated given inside)
  | endorse signer applicant sig =>
    change (if _ then _ else _ : Admissions).Traced
    split_ifs with pending
    · refine ⟨traced.listed,?_⟩
      intro given inside
      rcases mem_append.mp inside with earlier | new
      · exact traced.dated given earlier
      · rw [mem_singleton.mp new]
        refine ⟨?_,le_rfl,le_rfl,iff_of_true rfl rfl⟩
        exact count_pos_iff.mpr (traced.listed applicant (.inl pending))
    · exact traced

section Approvals
variable (evm : Evm) (state : Admissions) (applicant : Address) (nonce : Nat) (signers : List Address)
  (sigs : List (List UInt8))

def submitted : Word :=
  consensusMessageHash evm state.world.staking applicant (state.world.staking.entry applicant).stake nonce

def Behind (pair : Address × List UInt8) (given : Endorsement) : Prop :=
  given.signer = pair.1 ∧ given.sig = pair.2 ∧ given.digest = submitted evm state applicant nonce

def Unforged : Prop :=
  ∀ pair ∈ signers.zip sigs, recoverSigner evm (submitted evm state applicant nonce) pair.2 = pair.1 →
    ∃ given ∈ state.given, Behind evm state applicant nonce pair given

def Resistant : Prop :=
  ∀ given ∈ state.given, given.digest = submitted evm state applicant nonce →
    given.applicant = applicant ∧ given.stake = (state.world.staking.entry applicant).stake ∧ given.nonce = nonce

def OfThisApplication : Prop :=
  ∀ pair ∈ signers.zip sigs, ∀ given ∈ state.given, Behind evm state applicant nonce pair given →
    given.applicant = applicant ∧ given.application = applications state.world.staking applicant

end Approvals

/-- Where applications are made at later times: an admission uses signatures for the pending one only exactly if its nonce
is the time of this application. -/
theorem used_for_this_application_iff {accounts : Accounts} {start : World} {logs : List Log}
    (deployed : deploy evm accounts = .ok (start,logs)) (events : List Occurrence)
    (later : Along (step evm accounts.staking) LaterApplication ⟨start,[]⟩ events) (tx : Tx) (applicant : Address)
    (nonce : Nat) (signers : List Address) (sigs : List (List UInt8)) {state : Admissions}
    (reached : state = run (step evm accounts.staking) ⟨start,[]⟩ events)
    (unforged : Unforged evm state applicant nonce signers sigs) (resistant : Resistant evm state applicant nonce)
    {result : World × List Log}
    (ok : state.world.call evm accounts.staking tx (.approveByConsensus applicant nonce signers sigs) = .ok result) :
    OfThisApplication evm state applicant nonce signers sigs ↔
      nonce = (state.world.staking.entry applicant).appliedAt := by
  have traced : state.Traced := by
    rw [reached]
    refine invariant_run traced_step ⟨start,[]⟩ events ⟨listed_deploy deployed,?_⟩ later
    intro given inside
    exact absurd inside not_mem_nil
  constructor
  · intro belongs
    -- there is a signer, and its signature carries this nonce
    obtain ⟨_,_,⟨some,paired⟩,checked,_⟩ := approveByConsensus_iff.mp ⟨result,ok⟩
    have signs := map_fst_zip paired.le
    have bundled : checkSigners evm state.world.staking (submitted evm state applicant nonce) 0
        ((signers.zip sigs).map Prod.fst) ((signers.zip sigs).map Prod.snd) = .ok () := by
      rw [signs,map_snd_zip paired.ge]
      exact checked
    obtain ⟨pair,inside⟩ : ∃ pair, pair ∈ signers.zip sigs := by
      apply exists_mem_of_length_pos
      rw [← length_map Prod.fst,signs]
      exact Nat.pos_of_ne_zero some
    have recovered := (((checkSigners_iff Prod.fst Prod.snd).mp bundled).2 pair inside).2
    obtain ⟨given,among,behind⟩ := unforged pair inside recovered
    obtain ⟨own,number⟩ := belongs pair inside given among behind
    have last := (traced.dated given among).last
    rw [own] at last
    exact (resistant given among behind.2.2).2.2.symm.trans (last.mp number)
  · rintro rfl pair inside given among behind
    obtain ⟨own,_,time⟩ := resistant given among behind.2.2
    have dated := traced.dated given among
    refine ⟨own,?_⟩
    have last := dated.last
    rw [own] at last
    exact last.mpr time

end Admissions

/-! A validator, the account 10, and an applicant, 11. A digest is the last two words of what is
hashed, a signature the signer with the digest. -/
namespace Endorsed
def evm : Evm where
  keccak256 data := word (data.drop (data.length - 32)) ^^^ word ((data.drop (data.length - 64)).take 32)
  ecrecover digest _ r s := if s = digest then r.setWidth 160 else 0
  chainId := 1

def sign (signer : Address) (digest : Word) : List UInt8 := bytes (ofAddress signer) ++ bytes digest ++ [27]

def start : World := match deploy evm accounts with
  | .ok (world,_) => world
  | .error _ => ⟨CregToken.undistributed evm 1 3 5,Staking.deploy evm 2 3 4⟩

theorem deployed : ∃ logs, deploy evm accounts = .ok (start,logs) := by
  have succeeds : (deploy evm accounts).isOk := by decide +kernel
  unfold start
  generalize deploy evm accounts = outcome at succeeds ⊢
  obtain ⟨⟨world,logs⟩,rfl⟩ := isOk_iff.mp succeeds
  exact ⟨logs,rfl⟩

def transacted (calls : List (Tx × Call)) : List Occurrence := calls.map fun event => .transact event.1 event.2

def sigFor (time : Nat) : List UInt8 :=
  sign 10 (consensusMessageHash evm start.staking 11 (100 * 10 ^ 18) time)

def endorsed : List Occurrence :=
  transacted (joining 10 100 ++ (joining 11 200).take 2) ++ [.endorse 10 11 (sigFor 200)]

def reapplied : List Occurrence :=
  endorsed ++ transacted ([(tx 12 700000 0,.expireApplication 11)] ++ (joining 11 800000).take 2)

variable (events : List Occurrence)

def reached : Admissions := run (Admissions.step evm 2) ⟨start,[]⟩ events

theorem unforged (known : events = endorsed ∨ events = reapplied) :
    Admissions.Unforged evm (reached events) 11 200 [10] [sigFor 200] ∧ Admissions.Resistant evm (reached events) 11 200 := by
  unfold Admissions.Unforged Admissions.Resistant Admissions.Behind Admissions.submitted
  rcases known with rfl | rfl
  · decide +kernel
  · decide +kernel

theorem endorsed_later : Along (Admissions.step evm 2) Admissions.LaterApplication ⟨start,[]⟩ endorsed := by
  refine ⟨?_,?_,?_,?_,?_,trivial,trivial⟩
  · exact fun _ _ applies => absurd applies id
  · rintro _ _ ⟨rfl,rfl⟩
    decide +kernel
  · exact fun _ _ applies => absurd applies id
  · exact fun _ _ applies => absurd applies id
  · rintro _ _ ⟨rfl,rfl⟩
    decide +kernel

theorem reapplied_later : Along (Admissions.step evm 2) Admissions.LaterApplication ⟨start,[]⟩ reapplied := by
  rw [reapplied,along_append]
  refine ⟨endorsed_later,?_,?_,?_,trivial⟩
  · exact fun _ _ applies => absurd applies id
  · exact fun _ _ applies => absurd applies id
  · rintro _ _ ⟨rfl,rfl⟩
    decide +kernel

theorem endorsed_application_admitted :
    (∃ result, (reached endorsed).world.call evm 2 (tx 12 300 0) (.approveByConsensus 11 200 [10] [sigFor 200]) =
        .ok result) ∧ Admissions.OfThisApplication evm (reached endorsed) 11 200 [10] [sigFor 200] := by
  have succeeds : ((reached endorsed).world.call evm 2 (tx 12 300 0)
      (.approveByConsensus 11 200 [10] [sigFor 200])).isOk := by decide +kernel
  obtain ⟨result,done⟩ := isOk_iff.mp succeeds
  obtain ⟨logs,created⟩ := deployed
  obtain ⟨genuine,resistant⟩ := unforged endorsed (.inl rfl)
  refine ⟨⟨result,done⟩,(Admissions.used_for_this_application_iff created endorsed endorsed_later (tx 12 300 0) 11 200 [10]
    [sigFor 200] rfl genuine resistant done).mpr ?_⟩
  decide +kernel

theorem old_signature_admits : (∃ logs, deploy evm accounts = .ok (start,logs)) ∧
    Along (Admissions.step evm 2) Admissions.LaterApplication ⟨start,[]⟩ reapplied ∧
    Admissions.Unforged evm (reached reapplied) 11 200 [10] [sigFor 200] ∧
    Admissions.Resistant evm (reached reapplied) 11 200 ∧
    (∃ result, (reached reapplied).world.call evm 2 (tx 12 800100 0)
      (.approveByConsensus 11 200 [10] [sigFor 200]) = .ok result) ∧
    ¬Admissions.OfThisApplication evm (reached reapplied) 11 200 [10] [sigFor 200] := by
  have succeeds : ((reached reapplied).world.call evm 2 (tx 12 800100 0)
      (.approveByConsensus 11 200 [10] [sigFor 200])).isOk := by decide +kernel
  obtain ⟨genuine,resistant⟩ := unforged reapplied (.inr rfl)
  refine ⟨deployed,reapplied_later,genuine,resistant,isOk_iff.mp succeeds,?_⟩
  unfold Admissions.OfThisApplication Admissions.Behind Admissions.submitted
  decide +kernel

end Endorsed
end ChainRegistry
