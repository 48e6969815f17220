import ChainRegistry.Contracts.PinningRewards

/-! The records of the pins. A content id has one record for all pinners, and each pinner has a
list of ids and their size; the two agree as long as nobody registers an id that is pinned. -/
namespace ChainRegistry
open Lib Runs Fallible List Bool Ledger

namespace PinningRewards
variable {tx : Tx} {pinning after : PinningRewards} {account : Address}

theorem pinner_setPinner (pinning : PinningRewards) (account other : Address) (pinner : Pinner) :
    (pinning.setPinner account pinner).pinner other = if other = account then pinner else pinning.pinner other :=
  read_insert _ _ _ _ _

theorem pin_setPin (pinning : PinningRewards) (cid other : Word) (pin : Pin) :
    (pinning.setPin cid pin).pin other = if other = cid then pin else pinning.pin other :=
  read_insert _ _ _ _ _

theorem cidsOf_setCids (pinning : PinningRewards) (account other : Address) (cids : List Word) :
    (pinning.setCids account cids).cidsOf other = if other = account then cids else pinning.cidsOf other :=
  read_insert _ _ _ _ _

structure Recorded (pinning : PinningRewards) (p : Address) : Prop where
  distinct : (pinning.cidsOf p).Nodup
  exactly : ∀ cid, cid ∈ pinning.cidsOf p ↔ (pinning.pin cid).isActive ∧ (pinning.pin cid).pinner = p
  size : (pinning.pinner p).totalPinnedSize = ((pinning.cidsOf p).map fun cid => (pinning.pin cid).size).sum

def Consistent (pinning : PinningRewards) : Prop := ∀ p, pinning.Recorded p

def Enrolled (pinning : PinningRewards) : Prop := ∀ p, (pinning.pinner p).isRegistered = false → pinning.cidsOf p = []

structure SameRecords (before after : PinningRewards) : Prop where
  cids : ∀ p, after.cidsOf p = before.cidsOf p
  pins : ∀ cid, (after.pin cid).isActive = (before.pin cid).isActive ∧ (after.pin cid).pinner = (before.pin cid).pinner ∧
    (after.pin cid).size = (before.pin cid).size
  totals : ∀ p, (after.pinner p).totalPinnedSize = (before.pinner p).totalPinnedSize
  registered : ∀ p, (after.pinner p).isRegistered = (before.pinner p).isRegistered

theorem SameRecords.consistent (same : SameRecords pinning after) (consistent : pinning.Consistent) : after.Consistent := by
  intro p
  have recorded := consistent p
  refine ⟨?_,?_,?_⟩
  · rw [same.cids]
    exact recorded.distinct
  · intro cid
    rw [same.cids,(same.pins cid).1,(same.pins cid).2.1]
    exact recorded.exactly cid
  · have sizes : ∀ cid ∈ pinning.cidsOf p, (after.pin cid).size = (pinning.pin cid).size := fun cid _ => (same.pins cid).2.2
    rw [same.totals,same.cids,recorded.size,map_congr_left sizes]

theorem SameRecords.enrolled (same : SameRecords pinning after) (enrolled : pinning.Enrolled) : after.Enrolled := by
  intro p out
  rw [same.registered] at out
  rw [same.cids]
  exact enrolled p out

theorem SameRecords.setPinner (account : Address) (pinner : Pinner)
    (total : pinner.totalPinnedSize = (pinning.pinner account).totalPinnedSize)
    (registered : pinner.isRegistered = (pinning.pinner account).isRegistered) :
    SameRecords pinning (pinning.setPinner account pinner) := by
  refine ⟨fun _ => rfl,fun _ => ⟨rfl,rfl,rfl⟩,?_,?_⟩
  · intro p
    rw [pinner_setPinner]
    split_ifs with own
    · rw [own,total]
    · rfl
  · intro p
    rw [pinner_setPinner]
    split_ifs with own
    · rw [own,registered]
    · rfl

theorem SameRecords.setPin {cid : Word} {pin : Pin} (active : pin.isActive = (pinning.pin cid).isActive)
    (owner : pin.pinner = (pinning.pin cid).pinner) (size : pin.size = (pinning.pin cid).size) :
    SameRecords pinning (pinning.setPin cid pin) := by
  refine ⟨fun _ => rfl,?_,fun _ => rfl,fun _ => rfl⟩
  intro other
  rw [pin_setPin]
  split_ifs with own
  · rw [own]
    exact ⟨active,owner,size⟩
  · exact ⟨rfl,rfl,rfl⟩

theorem SameRecords.trans {middle : PinningRewards} (first : SameRecords pinning middle) (second : SameRecords middle after) :
    SameRecords pinning after where
  cids p := (second.cids p).trans (first.cids p)
  pins cid := ⟨(second.pins cid).1.trans (first.pins cid).1,(second.pins cid).2.1.trans (first.pins cid).2.1,
    (second.pins cid).2.2.trans (first.pins cid).2.2⟩
  totals p := (second.totals p).trans (first.totals p)
  registered p := (second.registered p).trans (first.registered p)

theorem reportAccess_records {cid : Word} (ok : pinning.reportAccess cid = .ok after) : SameRecords pinning after := by
  simp only [reportAccess,bind_ok,require_and,pure_ok] at ok
  obtain ⟨_,_,_,rfl⟩ := ok
  exact .setPin rfl rfl rfl

theorem verified_records {now : Nat} {cid : Word} (ok : pinning.verified now account cid = .ok after) :
    SameRecords pinning after := by
  simp only [verified,bind_ok,pure_ok] at ok
  obtain ⟨count,_,rfl⟩ := ok
  have counted := SameRecords.setPinner account {pinning.pinner account with successfulVerifications := count} rfl rfl
  exact counted.trans (.setPin rfl rfl rfl)

theorem penalized_records (ok : pinning.penalized account = .ok after) : SameRecords pinning after := by
  simp only [penalized,bind_ok,pure_ok] at ok
  obtain ⟨count,_,_,_,staked,_,_,_,rfl⟩ := ok
  have cut := SameRecords.setPinner account {pinning.pinner account with failedVerifications := count, stakedAmount := staked}
    rfl rfl
  exact ⟨cut.cids,cut.pins,cut.totals,cut.registered⟩

theorem submitVerification_records {cid : Word} {success : Bool} {proofHash : Word}
    (ok : pinning.submitVerification tx account cid success proofHash = .ok after) : SameRecords pinning after := by
  simp only [submitVerification,onlyRole,bind_ok,require_and] at ok
  obtain ⟨_,_,_,_,_,ok⟩ := ok
  split_ifs at ok
  · have same := verified_records ok
    exact ⟨same.cids,same.pins,same.totals,same.registered⟩
  · have same := penalized_records ok
    exact ⟨same.cids,same.pins,same.totals,same.registered⟩

theorem reset_enrolled {pinner : Pinner} (none : pinning.cidsOf account = []) (enrolled : pinning.Enrolled) :
    (pinning.setPinner account pinner).Enrolled := by
  intro p out
  rw [pinner_setPinner] at out
  split_ifs at out with own
  · rw [own]
    exact none
  · exact enrolled p out

theorem reset_consistent {pinner : Pinner} (none : pinning.cidsOf account = []) (zero : pinner.totalPinnedSize = 0)
    (consistent : pinning.Consistent) : (pinning.setPinner account pinner).Consistent := by
  intro p
  refine ⟨(consistent p).distinct,(consistent p).exactly,?_⟩
  rw [pinner_setPinner]
  split_ifs with own
  · rw [own,zero]
    change 0 = ((pinning.cidsOf account).map _).sum
    rw [none]
    rfl
  · exact (consistent p).size

/-- A registered pinner registers an id that another account has pinned, and the size fits. -/
def TakesOver (tx : Tx) (cid : Word) (size : Nat) (pinning : PinningRewards) : Prop :=
  (pinning.pin cid).isActive ∧ (pinning.pin cid).pinner ≠ tx.sender ∧ (pinning.pinner tx.sender).isRegistered ∧
    0 < size ∧ (pinning.pinner tx.sender).totalPinnedSize + size < 2 ^ 256

theorem TakesOver.registers {cid : Word} {size : Nat} (takes : TakesOver tx cid size pinning) :
    ∃ after, pinning.registerPin tx cid size = .ok after := by
  obtain ⟨_,other,registered,positive,fits⟩ := takes
  simp only [registerPin,bind_ok,require_ok,checkedAdd_ok,exists_const,pure_ok]
  exact ⟨_,registered,positive,.inr other,_,⟨fits,rfl⟩,rfl⟩

structure Registers (tx : Tx) (cid : Word) (size : Nat) (pinning after : PinningRewards) : Prop where
  registered : (pinning.pinner tx.sender).isRegistered
  positive : 0 < size
  free : (pinning.pin cid).isActive = false ∨ (pinning.pin cid).pinner ≠ tx.sender
  fits : (pinning.pinner tx.sender).totalPinnedSize + size < 2 ^ 256
  pins : ∀ other, after.pin other = if other = cid then ⟨tx.sender,size,tx.timestamp,0,0,true⟩ else pinning.pin other
  cids : ∀ p, after.cidsOf p = if p = tx.sender then pinning.cidsOf p ++ [cid] else pinning.cidsOf p
  pinners : ∀ p, after.pinner p = if p = tx.sender then
    {pinning.pinner p with totalPinnedSize := (pinning.pinner p).totalPinnedSize + size} else pinning.pinner p

theorem registerPin_ok {cid : Word} {size : Nat} (ok : pinning.registerPin tx cid size = .ok after) :
    Registers tx cid size pinning after := by
  simp only [registerPin,bind_ok,require_ok,checkedAdd_ok,exists_const,pure_ok] at ok
  obtain ⟨registered,positive,free,_,⟨fits,rfl⟩,rfl⟩ := ok
  refine ⟨registered,positive,free,fits,?_,?_,?_⟩
  · intro other
    exact pin_setPin _ _ _ _
  · intro p
    refine (cidsOf_setCids pinning tx.sender p _).trans ?_
    split_ifs with own
    · rw [own]
    · rfl
  · intro p
    refine (pinner_setPinner pinning tx.sender p _).trans ?_
    split_ifs with own
    · rw [own]
    · rfl

namespace Registers
variable {cid : Word} {size : Nat} (registers : Registers tx cid size pinning after)

include registers

theorem takesOver (active : (pinning.pin cid).isActive) : TakesOver tx cid size pinning :=
  have other := registers.free.resolve_left (eq_false_iff.not_left.mpr active)
  ⟨active,other,registers.registered,registers.positive,registers.fits⟩

theorem enrolled (enrolled : pinning.Enrolled) : after.Enrolled := by
  intro p out
  rw [registers.pinners] at out
  rw [registers.cids]
  split_ifs at out ⊢ with own
  · rw [own] at out
    exact absurd registers.registered (eq_false_iff.mp out)
  · exact enrolled p out

theorem consistent (consistent : pinning.Consistent) (idle : (pinning.pin cid).isActive = false) : after.Consistent := by
  intro p
  have recorded := consistent p
  have absent : ∀ q, cid ∉ pinning.cidsOf q := by
    intro q inside
    exact absurd (((consistent q).exactly cid).mp inside).1 (eq_false_iff.mp idle)
  have others : ∀ other ∈ pinning.cidsOf p, after.pin other = pinning.pin other := by
    intro other inside
    rw [registers.pins,if_neg]
    rintro rfl
    exact absent p inside
  have sizes : (pinning.cidsOf p).map (fun other => (after.pin other).size) =
      (pinning.cidsOf p).map fun other => (pinning.pin other).size :=
    map_congr_left fun other inside => congrArg Pin.size (others other inside)
  have written : after.pin cid = ⟨tx.sender,size,tx.timestamp,0,0,true⟩ := by
    rw [registers.pins,if_pos rfl]
  by_cases own : p = tx.sender
  · have list : after.cidsOf p = pinning.cidsOf p ++ [cid] := by rw [registers.cids,if_pos own]
    refine ⟨?_,?_,?_⟩
    · rw [list]
      exact nodup_append.mpr ⟨recorded.distinct,nodup_singleton cid,by
        intro a first b second same
        rw [mem_singleton.mp second] at same
        exact absent p (same ▸ first)⟩
    · intro other
      rw [list,mem_append,mem_singleton,recorded.exactly]
      by_cases same : other = cid
      · rw [same,written]
        exact iff_of_true (.inr rfl) ⟨rfl,own.symm⟩
      · rw [registers.pins,if_neg same]
        exact or_iff_left same
    · rw [list,map_append,sum_append,sizes,← recorded.size,map_singleton,sum_singleton,written,
        registers.pinners,if_pos own]
  · have list : after.cidsOf p = pinning.cidsOf p := by rw [registers.cids,if_neg own]
    refine ⟨?_,?_,?_⟩
    · rw [list]
      exact recorded.distinct
    · intro other
      rw [list,recorded.exactly]
      by_cases same : other = cid
      · rw [same,written,idle]
        exact iff_of_false (fun both => absurd both.1 Bool.false_ne_true) (fun both => own both.2.symm)
      · rw [registers.pins,if_neg same]
    · rw [list,sizes,← recorded.size,registers.pinners,if_neg own]

theorem inconsistent (consistent : pinning.Consistent) (active : (pinning.pin cid).isActive) : ¬after.Consistent := by
  intro still
  have other : (pinning.pin cid).pinner ≠ tx.sender := registers.free.resolve_left fun idle => eq_false_iff.mp idle active
  have inside : cid ∈ pinning.cidsOf (pinning.pin cid).pinner := ((consistent _).exactly cid).mpr ⟨active,rfl⟩
  have kept : cid ∈ after.cidsOf (pinning.pin cid).pinner := by
    rw [registers.cids,if_neg other]
    exact inside
  have owner := (((still _).exactly cid).mp kept).2
  rw [registers.pins,if_pos rfl] at owner
  exact other owner.symm

end Registers

structure Ends (tx : Tx) (cid : Word) (pinning after : PinningRewards) : Prop where
  active : (pinning.pin cid).isActive
  owner : (pinning.pin cid).pinner = tx.sender
  pins : ∀ other, after.pin other = if other = cid then {pinning.pin cid with isActive := false} else pinning.pin other
  cids : ∀ p, after.cidsOf p = if p = tx.sender then swapRemove cid (pinning.cidsOf p) else pinning.cidsOf p
  pinners : ∀ p, after.pinner p = if p = tx.sender then
    {pinning.pinner p with totalPinnedSize := (pinning.pinner p).totalPinnedSize - (pinning.pin cid).size} else pinning.pinner p

theorem unregisterPin_ok {cid : Word} (ok : pinning.unregisterPin tx cid = .ok after) : Ends tx cid pinning after := by
  simp only [unregisterPin,bind_ok,require_ok,checkedSub_ok,exists_const,pure_ok] at ok
  obtain ⟨active,owner,_,⟨_,rfl⟩,rfl⟩ := ok
  refine ⟨active,owner,?_,?_,?_⟩
  · intro other
    exact pin_setPin _ _ _ _
  · intro p
    refine (cidsOf_setCids pinning tx.sender p (swapRemove cid (pinning.cidsOf tx.sender))).trans ?_
    split_ifs with own
    · rw [own]
    · rfl
  · intro p
    refine (pinner_setPinner pinning tx.sender p _).trans ?_
    split_ifs with own
    · rw [own]
    · rfl

namespace Ends
variable {cid : Word} (ends : Ends tx cid pinning after)

include ends

theorem enrolled (enrolled : pinning.Enrolled) : after.Enrolled := by
  intro p out
  rw [ends.pinners] at out
  rw [ends.cids]
  split_ifs at out ⊢ with own
  · rw [enrolled p out]
    rfl
  · exact enrolled p out

theorem consistent (consistent : pinning.Consistent) : after.Consistent := by
  intro p
  have recorded := consistent p
  have sizes : ∀ list : List Word, cid ∉ list →
      list.map (fun other => (after.pin other).size) = list.map fun other => (pinning.pin other).size := by
    intro list absent
    apply map_congr_left
    intro other inside
    rw [ends.pins,if_neg]
    rintro rfl
    exact absent inside
  by_cases own : p = tx.sender
  · have inside : cid ∈ pinning.cidsOf p := (recorded.exactly cid).mpr ⟨ends.active,ends.owner.trans own.symm⟩
    have list : after.cidsOf p = swapRemove cid (pinning.cidsOf p) := by rw [ends.cids,if_pos own]
    have perm := swapRemove_perm inside
    obtain ⟨absent,distinct⟩ := nodup_cons.mp (perm.nodup_iff.mpr recorded.distinct)
    refine ⟨?_,?_,?_⟩
    · rw [list]
      exact distinct
    · intro other
      have before := perm.mem_iff (a := other)
      rw [list,ends.pins]
      by_cases same : other = cid
      · rw [if_pos same,same]
        exact iff_of_false absent fun both => Bool.false_ne_true both.1
      · rw [if_neg same,← recorded.exactly,← before,mem_cons,or_iff_right same]
    · have total := (perm.map fun other => (pinning.pin other).size).sum_eq
      rw [map_cons,sum_cons,← recorded.size] at total
      rw [list,sizes _ absent,ends.pinners,if_pos own,← total,Nat.add_sub_cancel_left]
  · have list : after.cidsOf p = pinning.cidsOf p := by rw [ends.cids,if_neg own]
    have absent : cid ∉ pinning.cidsOf p := by
      intro inside
      exact own (((recorded.exactly cid).mp inside).2.symm.trans ends.owner)
    refine ⟨?_,?_,?_⟩
    · rw [list]
      exact recorded.distinct
    · intro other
      rw [list,ends.pins]
      by_cases same : other = cid
      · rw [if_pos same,same]
        exact iff_of_false absent fun both => Bool.false_ne_true both.1
      · rw [if_neg same]
        exact recorded.exactly other
    · rw [list,sizes _ absent,ends.pinners,if_neg own,recorded.size]

end Ends
end PinningRewards

namespace PinningState
open PinningRewards

variable {evm : Evm} {staking self : Address} {tx : Tx} {state after : PinningState} {call : PinningCall}

theorem apart_ok {method : PinningRewards → Except Revert PinningRewards} (ok : state.apart method = .ok after) :
    method state.pinning = .ok after.pinning := by
  rw [PinningState.apart,map_ok] at ok
  obtain ⟨pinning,done,rfl⟩ := ok
  exact done

theorem SameBooks.records (books : SameBooks state after) : SameRecords state.pinning after.pinning := by
  have pins : ∀ cid, after.pinning.pin cid = state.pinning.pin cid := by
    intro cid
    rw [pin,books.pins]
    rfl
  have pinners : ∀ p, after.pinning.pinner p = state.pinning.pinner p := by
    intro p
    rw [pinner,books.pinners]
    rfl
  refine ⟨?_,?_,?_,?_⟩
  · intro p
    rw [cidsOf,books.pinnerCids]
    rfl
  · intro cid
    rw [pins]
    exact ⟨rfl,rfl,rfl⟩
  all_goals
    intro p
    rw [pinners]

theorem claim_records {account : Address} (ok : state.claimFor self tx account = .ok after) :
    SameRecords state.pinning after.pinning := by
  simp only [claimFor,bind_ok,require_and,Prod.exists,pure_ok] at ok
  obtain ⟨_,_,_,_,cumulative,_,_,_,_,_,_,_,_,rfl⟩ := ok
  have claimed : SameRecords state.pinning (state.pinning.setPinner account {state.pinning.pinner account with
      lastRewardClaim := tx.timestamp
      cumulativeRewards := cumulative}) := .setPinner account _ rfl rfl
  exact ⟨claimed.cids,claimed.pins,claimed.totals,claimed.registered⟩

def Undivided (state : PinningState) (event : Tx × PinningCall) : Prop :=
  match event.2 with
  | .registerPin cid size => ¬TakesOver event.1 cid size state.pinning
  | _ => True

structure KeepsRecords (event : Tx × PinningCall) (state after : PinningState) : Prop where
  enrolled : after.pinning.Enrolled
  consistent : state.pinning.Consistent → (after.pinning.Consistent ↔ state.Undivided event)

theorem KeepsRecords.of_same (same : SameRecords state.pinning after.pinning) (enrolled : state.pinning.Enrolled)
    (undivided : state.Undivided (tx,call)) : KeepsRecords (tx,call) state after where
  enrolled := same.enrolled enrolled
  consistent consistent := iff_of_true (same.consistent consistent) undivided

theorem call_records (ok : state.call evm staking self tx call = .ok after) (enrolled : state.pinning.Enrolled) :
    KeepsRecords (tx,call) state after := by
  cases call with
  | registerPinner stakeAmount =>
    simp only [PinningState.call,PinningState.registerPinner,bind_ok,require_and,Prod.exists,pure_ok] at ok
    obtain ⟨out,_,_,_,_,rfl⟩ := ok
    have none := enrolled tx.sender out
    exact ⟨reset_enrolled none enrolled,fun consistent => iff_of_true (reset_consistent none rfl consistent) trivial⟩
  | unregisterPinner =>
    simp only [PinningState.call,unregisterPinner,bind_ok,require_and,Prod.exists,pure_ok] at ok
    obtain ⟨_,empty,claimed,done,_,_,_,rfl⟩ := ok
    have same := claim_records done
    have none : claimed.pinning.cidsOf tx.sender = [] := by
      rw [same.cids]
      exact length_eq_zero_iff.mp empty
    refine ⟨reset_enrolled none (same.enrolled enrolled),fun consistent => iff_of_true ?_ trivial⟩
    exact reset_consistent none rfl (same.consistent consistent)
  | registerPin cid size =>
    have registers := registerPin_ok (apart_ok ok)
    refine ⟨registers.enrolled enrolled,?_⟩
    intro consistent
    constructor
    · intro still takes
      exact registers.inconsistent consistent takes.1 still
    · intro undivided
      apply registers.consistent consistent
      by_contra active
      exact undivided (registers.takesOver (eq_true_of_not_eq_false active))
  | unregisterPin cid =>
    have ends := unregisterPin_ok (apart_ok ok)
    exact ⟨ends.enrolled enrolled,fun consistent => iff_of_true (ends.consistent consistent) trivial⟩
  | reportAccess cid => exact .of_same (reportAccess_records (apart_ok ok)) enrolled trivial
  | submitVerification pinner cid success proofHash => exact .of_same (submitVerification_records (apart_ok ok)) enrolled trivial
  | claimRewards => exact .of_same (claim_records ok) enrolled trivial
  | fundRewardsPool amount =>
    simp only [PinningState.call,fundRewardsPool,bind_ok,Prod.exists,pure_ok] at ok
    obtain ⟨_,_,_,_,_,rfl⟩ := ok
    exact .of_same ⟨fun _ => rfl,fun _ => ⟨rfl,rfl,rfl⟩,fun _ => rfl,fun _ => rfl⟩ enrolled trivial
  | setRewardRate | setVerificationParams | rolesChanged => exact .of_same (settings_books ok trivial).records enrolled trivial
  | elsewhere call =>
    rw [PinningState.call,map_ok] at ok
    obtain ⟨_,_,rfl⟩ := ok
    exact ⟨enrolled,fun consistent => iff_of_true consistent trivial⟩

theorem undivided_of_error {failure : Revert} (fails : state.call evm staking self tx call = .error failure) :
    state.Undivided (tx,call) := by
  cases call with
  | registerPin cid size =>
    intro takes
    obtain ⟨after,done⟩ := takes.registers
    rw [PinningState.call,PinningState.apart,done] at fails
    cases fails
  | _ => trivial

theorem next_records (state : PinningState) (event : Tx × PinningCall) (enrolled : state.pinning.Enrolled) :
    KeepsRecords event state (state.next evm staking self event) := by
  obtain ⟨tx,call⟩ := event
  rw [next]
  cases done : state.call evm staking self tx call with
  | ok after => exact call_records done enrolled
  | error _ => exact ⟨enrolled,fun consistent => iff_of_true consistent (undivided_of_error done)⟩

/-- The records of the pins are consistent in all states of a run exactly if no registration of
the run is for an id that is pinned. -/
theorem records_consistent_iff (world : World) (deployer : Address) (events : List (Tx × PinningCall)) :
    Throughout (next evm staking self) (fun state => state.pinning.Consistent) ⟨world,deploy deployer⟩ events ↔
      Along (next evm staking self) Undivided ⟨world,deploy deployer⟩ events := by
  have enrolled : (deploy deployer).Enrolled := fun _ _ => rfl
  have consistent : (deploy deployer).Consistent := by
    intro p
    refine ⟨nodup_nil,?_,rfl⟩
    intro cid
    exact iff_of_false not_mem_nil fun both => Bool.false_ne_true both.1
  have stays : ∀ (state : PinningState) (event : Tx × PinningCall), state.pinning.Enrolled →
      (state.next evm staking self event).pinning.Enrolled :=
    fun state event enrolled => (next_records state event enrolled).enrolled
  have keeps : ∀ (state : PinningState) (event : Tx × PinningCall), state.pinning.Enrolled ∧ state.pinning.Consistent →
      ((state.next evm staking self event).pinning.Enrolled ∧ (state.next evm staking self event).pinning.Consistent ↔
        state.Undivided event) := by
    intro state event both
    rw [and_iff_right (stays state event both.1)]
    exact (next_records state event both.1).consistent both.2
  have both := throughout_iff_along keeps ⟨world,deploy deployer⟩ events ⟨enrolled,consistent⟩
  apply Iff.trans _ both
  apply throughout_congr stays
  · intro state enrolled
    rw [and_iff_right enrolled]
  · exact enrolled

end PinningState

namespace Small
def pinnedAgain : List (Tx × PinningCall) :=
  [(tx 10 100 0,.elsewhere (.approve 13 (1000 * 10 ^ 18))),(tx 10 100 0,.registerPinner (1000 * 10 ^ 18)),
    (tx 11 100 0,.elsewhere (.approve 13 (1000 * 10 ^ 18))),(tx 11 100 0,.registerPinner (1000 * 10 ^ 18)),
    (tx 10 100 0,.registerPin 1 5),(tx 10 100 0,.unregisterPin 1),(tx 10 100 0,.registerPin 1 7),(tx 10 100 0,.registerPin 2 3)]

theorem pinned_again_consistent : ((run (PinningState.next evm 2 13) unpinned pinnedAgain).pinning.pinner 10).totalPinnedSize =
    10 ∧
    Throughout (PinningState.next evm 2 13) (fun state => state.pinning.Consistent) unpinned pinnedAgain := by
  refine ⟨by decide +kernel,(PinningState.records_consistent_iff start 3 pinnedAgain).mpr ?_⟩
  refine ⟨trivial,trivial,trivial,trivial,fun takes => ?_,trivial,fun takes => ?_,fun takes => ?_,trivial⟩
  · exact absurd takes.1 (by decide +kernel)
  · exact absurd takes.1 (by decide +kernel)
  · exact absurd takes.1 (by decide +kernel)

theorem pin_of_two_pinners : ¬Throughout (PinningState.next evm 2 13) (fun state => state.pinning.Consistent) unpinned
    (pinnedAgain ++ [(tx 11 100 0,.registerPin 1 7)]) := by
  intro throughout
  have last := throughout_last throughout
  have listed : (1 : Word) ∈ (run (PinningState.next evm 2 13) unpinned
      (pinnedAgain ++ [(tx 11 100 0,.registerPin 1 7)])).pinning.cidsOf 10 := by decide +kernel
  exact absurd (((last 10).exactly 1).mp listed).2 (by decide +kernel)

end Small
end ChainRegistry
