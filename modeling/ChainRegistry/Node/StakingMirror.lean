import ChainRegistry.Contracts.Refinement
import ChainRegistry.Node.ValidatorSetSync

/-! The events of the staking contract, folded by the node, against the storage of the
contract. Every step of the lifecycle out of the active set is announced but one: the slash
that takes everything. -/
namespace ChainRegistry
open Lib Runs List Roster Membership SetSync.LogView

def World.history (evm : Evm) (self : Address) : World → List (Tx × Call) → List Log
  | _, [] => []
  | world, event :: events => (world.perform evm self event).2 ++ history evm self (world.next evm self event) events

def World.WithinBase (world : World) (event : Tx × Call) : Prop :=
  match event.2 with
  | .slash account amount _ =>
    (world.staking.entry account).state = .active → amount ≤ world.staking.slashBase account
  | _ => True

namespace SetSync
theorem item_decode (view : LogView) : (decode view).bind ValidatorSetDelta.item =
    view.event.membership.map fun item => (addressText item.1,item.2) := by
  unfold decode
  cases view.event with
  | _ => rfl

variable (views : List LogView)

theorem items_decode : (views.filterMap decode).filterMap ValidatorSetDelta.item =
    ((views.map LogView.event).filterMap Log.membership).map fun item => (addressText item.1,item.2) := by
  rw [filterMap_filterMap,filterMap_map,map_filterMap]
  apply filterMap_congr
  intro view _
  exact item_decode view

theorem position_decode {view : LogView} {delta : ValidatorSetDelta} (decoded : decode view = some delta) :
    delta.position = (view.blockNumber,view.logIndex) := by
  obtain ⟨_,_,rfl⟩ := Option.map_eq_some_iff.mp decoded
  rfl

def InOrder : Prop :=
  views.Pairwise fun first second => notAfter (second.blockNumber,second.logIndex) (first.blockNumber,first.logIndex) = false

theorem ordered_decode {views : List LogView} (inOrder : InOrder views) : Ordered (views.filterMap decode) := by
  refine List.Pairwise.filterMap decode ?_ inOrder
  intro first second apart delta decoded other decoded'
  rw [position_decode decoded,position_decode decoded']
  exact apart

end SetSync

namespace World
variable {evm : Evm} {self : Address} {tx : Tx} {world final : World} {logs : List Log} {moves : List Move}
  {staking : Staking} {now : Nat}

theorem announces_of_no_wipe {roster : Roster} (none : ∀ move ∈ moves, ∀ account, move ≠ .wipe account) :
    Along (step now) Roster.Announces roster moves := by
  induction moves generalizing roster with
  | nil => trivial
  | cons move moves ih =>
    refine ⟨?_,ih fun later inside => none later (mem_cons_of_mem _ inside)⟩
    cases move with
    | wipe account => exact absurd rfl (none _ mem_cons_self account)
    | _ => trivial

theorem slash_announces {account : Address} {amount : Nat} (shape : staking.SlashMoves account amount moves)
    (within : (staking.entry account).state = .active → amount ≤ staking.slashBase account) :
    Along (step now) Roster.Announces staking.roster moves := by
  unfold Staking.SlashMoves at shape
  unfold Staking.slashBase at within
  dsimp only at shape
  split_ifs at shape with validator publisher
  · obtain ⟨stake,slashCount,rfl | rfl⟩ := shape
    · exact ⟨trivial,trivial⟩
    · exact ⟨trivial,trivial⟩
  · rw [shape]
    trivial
  · rw [shape]
    refine ⟨?_,trivial⟩
    intro active
    have bound := within active
    split_ifs at bound with standing
    · exact validator ⟨standing,bound⟩
    · exact publisher ⟨standing,bound⟩

theorem call_announces (now : Nat) {call : Call} (explains : call.Explains tx staking moves)
    (within : ∀ account amount reason, call = .slash account amount reason → (staking.entry account).state = .active →
      amount ≤ staking.slashBase account) :
    Along (step now) Roster.Announces staking.roster moves := by
  cases call with
  | slash account amount reason => exact slash_announces explains (within account amount reason rfl)
  | slashSeverity account severity reason =>
    exact slash_announces explains fun _ => slashed_le severity _
  | distributeSlashPool =>
    apply announces_of_no_wipe
    intro move inside account same
    obtain ⟨_,_,reward⟩ := explains move inside
    rw [reward] at same
    cases same
  | claimSlashPoolShare =>
    obtain ⟨stake,rfl⟩ := explains
    exact ⟨trivial,trivial⟩
  | _ =>
    rw [show moves = _ from explains]
    exact announces_of_no_wipe (by simp)

theorem announced_iff {members : Address → Prop} {set : Finset Address} (same : ∀ a, members a ↔ a ∈ set)
    (news : List (Address × Bool)) (a : Address) : announced members news a ↔ a ∈ Membership.after set news := by
  induction news generalizing members set with
  | nil => exact same a
  | cons item news ih =>
    apply ih
    intro other
    change Function.update members item.1 (item.2 = true) other ↔ _
    rw [mem_enter,Function.update_apply]
    split_ifs
    · exact Iff.rfl
    · exact same other

theorem activeAccounts_next (world : World) (event : Tx × Call) (within : world.WithinBase event) :
    (world.next evm self event).staking.activeAccounts =
      Membership.after world.staking.activeAccounts ((world.perform evm self event).2.filterMap Log.membership) := by
  rcases perform_cases evm self world event with ⟨final,logs,done⟩ | ⟨-,same⟩
  · obtain ⟨moves,explains,refines⟩ := call_refines done
    rw [next_of_ok done,perform_of_ok done]
    have announces := call_announces event.1.timestamp explains fun account amount reason called => ?_
    · have active := activeIn_run refines.allowed announces
      rw [← refines.roster,← refines.news] at active
      ext a
      rw [Staking.mem_activeAccounts,← announced_iff (fun a => (world.staking.mem_activeAccounts a).symm)]
      exact Iff.of_eq (congrFun active a)
    · rw [WithinBase,called] at within
      exact within
  · rw [next,same]
    rfl

theorem activeAccounts_run (world : World) (events : List (Tx × Call)) (within : Along (next evm self) WithinBase world events) :
    (run (next evm self) world events).staking.activeAccounts =
      Membership.after world.staking.activeAccounts ((world.history evm self events).filterMap Log.membership) := by
  induction events generalizing world with
  | nil => rfl
  | cons event events ih =>
    rw [run_cons,ih _ within.2,activeAccounts_next world event within.1,history,filterMap_append,after_append]

variable {accounts : Accounts}

theorem activeAccounts_deploy {start : World} (deployed : World.deploy evm accounts = .ok (start,logs)) :
    start.staking.activeAccounts = ∅ := by
  rw [deploy_staking deployed]
  rfl

/-- The fold of the events is the active set, where no slash exceeds what it is taken from. -/
theorem mirror_exact {start : World} (deployed : World.deploy evm accounts = .ok (start,logs))
    (events : List (Tx × Call)) (within : Along (next evm accounts.staking) WithinBase start events)
    (views : List SetSync.LogView) (emitted : views.map event = start.history evm accounts.staking events)
    (inOrder : SetSync.InOrder views) :
    ((views.filterMap SetSync.decode).foldl SetSync.applyDelta .empty).observedActive =
      (run (next evm accounts.staking) start events).staking.activeAccounts.image SetSync.addressText := by
  rw [SetSync.foldl_applyDelta .empty (fun _ _ => rfl) (SetSync.ordered_decode inOrder),activeAccounts_run start events within,
    activeAccounts_deploy deployed,
    image_after SetSync.addressText_injective,SetSync.items_decode,emitted]
  rfl

end World

namespace Small
def wiped (amount : Nat) : List (Tx × Call) := joining 10 100 ++ [(tx 4 200 0,.slash 10 amount "")]

variable (events : List (Tx × Call))

def views : List SetSync.LogView :=
  (start.history evm 2 events).mapIdx fun i log => ⟨log,i,0,0⟩

theorem views_event : (views events).map event = start.history evm 2 events := by
  apply ext_getElem
  · simp [views]
  · intro i left right
    simp [views]

theorem slashed_mirrored :
    (((views (wiped (50 * 10 ^ 18))).filterMap SetSync.decode).foldl SetSync.applyDelta .empty).observedActive =
      (run (World.next evm 2) start (wiped (50 * 10 ^ 18))).staking.activeAccounts.image SetSync.addressText := by
  obtain ⟨logs,deployed⟩ := deployed
  refine World.mirror_exact deployed _ ?_ _ (views_event _) ?_
  · refine ⟨trivial,trivial,trivial,fun _ => ?_,trivial⟩
    decide +kernel
  · unfold SetSync.InOrder
    decide +kernel

theorem wiped_still_observed : (∃ logs, World.deploy evm accounts = .ok (start,logs)) ∧
    (views (wiped (200 * 10 ^ 18))).map event = start.history evm 2 (wiped (200 * 10 ^ 18)) ∧
    SetSync.InOrder (views (wiped (200 * 10 ^ 18))) ∧
    (((views (wiped (200 * 10 ^ 18))).filterMap SetSync.decode).foldl SetSync.applyDelta .empty).observedActive ≠
      (run (World.next evm 2) start (wiped (200 * 10 ^ 18))).staking.activeAccounts.image SetSync.addressText := by
  refine ⟨deployed,views_event _,?_,?_⟩
  · unfold SetSync.InOrder
    decide +kernel
  · decide +kernel

end Small
end ChainRegistry
