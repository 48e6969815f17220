import ChainRegistry.Contracts.Appeal
import ChainRegistry.Lib.LedgerSums

/-! The ether of the appeal contract covers the bonds of all pending appeals. -/
namespace ChainRegistry
open Lib Fallible List AppealRecord Ledger
open Lib.Runs
open Lib.Payouts (Till)
open Lib.Fallible (Avoids)

def AppealRecord.due (record : AppealRecord) : Nat :=
  if record.status = .pending then record.bond + record.voters.length * Appeal.panelistVoteBond else 0

namespace Appeal
def due (appeal : Appeal) : Nat := total AppealRecord.due appeal.appeals

def Unused (appeal : Appeal) : Prop :=
  ∀ id, appeal.appealCount ≤ id → (appeal.record id).voters = [] ∧ (appeal.record id).submittedAt = 0

variable {appeal changed : Appeal} {id : Nat} {record counted : AppealRecord}

theorem due_insert (appeals : changed.appeals = appeal.appeals.insert id record) :
    changed.due + (appeal.record id).due = appeal.due + record.due := by
  rw [due,appeals]
  exact total_insert AppealRecord.due rfl appeal.appeals id record

theorem due_le (appeal : Appeal) (id : Nat) : (appeal.record id).due ≤ appeal.due := by
  have part : ∑ key ∈ {id}, (appeal.record key).due ≤ appeal.due := sum_le_total AppealRecord.due rfl appeal.appeals {id}
  rwa [Finset.sum_singleton] at part

variable {till after : AppealTill} {balance value : Nat} {tx : AppealTx} {status : AppealStatus}

theorem Resolves.covered (resolves : Resolves id counted status till after) (ended : status ≠ .pending)
    (owed : counted.bond + counted.voters.length * panelistVoteBond ≤ (till.state.record id).due + value)
    (covered : till.state.due + value ≤ till.funds) : after.state.due ≤ after.funds := by
  have total := due_insert resolves.appeals
  have paid := counted.payout_le status
  have funds := resolves.funds
  have settled : ({counted with status := status, bond := 0} : AppealRecord).due = 0 := if_neg ended
  rw [settled] at total
  omega

theorem Resolves.unused (resolves : Resolves id counted status till after)
    (same : till.state.appealCount ≤ id → counted.voters = [] ∧ counted.submittedAt = 0) (unused : till.state.Unused) :
    after.state.Unused := by
  intro other free
  rw [resolves.appealCount] at free
  rw [resolves.reads]
  split_ifs with own
  · exact same (own ▸ free)
  · exact unused other free

theorem Opens.covered (opens : Opens tx value record till after) (unused : till.state.Unused)
    (covered : till.state.due + value ≤ till.funds) : after.state.due ≤ after.funds := by
  have total := due_insert opens.appeals
  have fresh : record.due = value := by
    rw [AppealRecord.due,if_pos opens.status,opens.bond,opens.voters,(unused _ le_rfl).1]
    rfl
  rw [opens.funds]
  omega

theorem Opens.unused (opens : Opens tx value record till after) (unused : till.state.Unused) : after.state.Unused := by
  intro other free
  rw [opens.appealCount] at free
  rw [opens.reads,if_neg (by omega)]
  exact unused other (by omega)

section Vote
variable {approve : Bool} (votes : Votes tx value id approve counted till after)

include votes

theorem Votes.posted : counted.bond + counted.voters.length * panelistVoteBond ≤ (till.state.record id).due + value := by
  have enough := votes.enough
  rw [AppealRecord.due,if_pos votes.pending,votes.casts.bond,votes.casts.voters,length_append,length_singleton,Nat.add_mul]
  omega

theorem Votes.used (late : appealWindow < tx.timestamp) (unused : till.state.Unused) : id < till.state.appealCount := by
  by_contra free
  have inTime := votes.inTime
  rw [(unused id (Nat.le_of_not_lt free)).2] at inTime
  omega

theorem Votes.covered (covered : till.state.due + value ≤ till.funds) : after.state.due ≤ after.funds := by
  cases decided : counted.decision till.state.panelQuorum with
  | none =>
    have posted := votes.posted
    have total : (till.state.setRecord id counted).due + (till.state.record id).due = till.state.due + counted.due :=
      due_insert rfl
    have waiting : counted.due = counted.bond + counted.voters.length * panelistVoteBond :=
      if_pos (votes.casts.status.trans votes.pending)
    rw [votes.waits decided]
    dsimp only
    omega
  | some outcome =>
    have ended : AppealStatus.of outcome ≠ .pending := by cases outcome <;> decide
    exact (votes.decides outcome decided).covered ended votes.posted covered

theorem Votes.unused (late : appealWindow < tx.timestamp) (unused : till.state.Unused) : after.state.Unused := by
  have used := votes.used late unused
  cases decided : counted.decision till.state.panelQuorum with
  | none =>
    rw [votes.waits decided]
    intro other free
    have apart : other ≠ id := (Nat.lt_of_lt_of_le used free).ne.symm
    have same : (till.state.setRecord id counted).record other = till.state.record other :=
      (record_setRecord ..).trans (if_neg apart)
    rw [same]
    exact unused other free
  | some outcome => exact (votes.decides outcome decided).unused (fun free => absurd used (Nat.not_lt.mpr free)) unused

end Vote

end Appeal

namespace AppealState
variable {evm : Evm} {state : AppealState} {till : AppealTill} {tx : AppealTx} {call : AppealCall}

def Solvent (state : AppealState) : Prop := state.appeal.due ≤ state.balance

structure Kept (state : AppealState) : Prop where
  solvent : state.Solvent
  unused : state.appeal.Unused

theorem Kept.of_frame {changed : Appeal} {balance : Nat} (kept : state.Kept)
    (frame : changed.appeals = state.appeal.appeals ∧ changed.appealCount = state.appeal.appealCount)
      (more : state.balance ≤ balance) :
    Kept ⟨changed,balance⟩ := by
  refine ⟨?_,?_⟩
  · change total AppealRecord.due changed.appeals ≤ balance
    rw [frame.1]
    exact kept.solvent.trans more
  · intro id free
    change (read {} changed.appeals id).voters = [] ∧ (read {} changed.appeals id).submittedAt = 0
    rw [frame.1]
    exact kept.unused id (frame.2 ▸ free)

theorem Kept.of_ok (kept : state.Kept) (late : Appeal.appealWindow < tx.timestamp) (ok : state.call evm tx call = .ok till) :
    Kept ⟨till.state,till.funds⟩ := by
  have unused : (state.enter tx call).state.Unused := kept.unused
  have covered : (state.enter tx call).state.due + call.value ≤ (state.enter tx call).funds := Nat.add_le_add_right kept.solvent _
  -- a verdict and an expiry find the record with what is due for it
  have owed : ∀ {id}, (state.appeal.record id).status = .pending → (state.appeal.record id).bond +
      (state.appeal.record id).voters.length * Appeal.panelistVoteBond ≤ (state.appeal.record id).due + call.value := by
    intro id pending
    rw [AppealRecord.due,if_pos pending]
    exact Nat.le_add_right _ _
  cases call with
  | appeal value canonical statement =>
    obtain ⟨record,opens⟩ := Appeal.submit_ok ok
    exact ⟨opens.covered unused covered,opens.unused unused⟩
  | vote value id approve =>
    obtain ⟨counted,votes⟩ := Appeal.vote_ok ok
    exact ⟨votes.covered covered,votes.unused late unused⟩
  | submitAIVerdict id approve signature =>
    obtain ⟨pending,resolves⟩ := Appeal.submitAIVerdict_ok ok
    have ended : AppealStatus.of approve ≠ .pending := by cases approve <;> decide
    exact ⟨resolves.covered ended (owed pending) covered,resolves.unused (unused id) unused⟩
  | expireAppeal id =>
    obtain ⟨pending,resolves⟩ := Appeal.expireAppeal_ok ok
    exact ⟨resolves.covered (by decide) (owed pending) covered,resolves.unused (unused id) unused⟩
  | set setting =>
    simp only [AppealState.call,AppealCall.run,bind_ok,pure_ok] at ok
    obtain ⟨changed,done,rfl⟩ := ok
    exact kept.of_frame (Appeal.set_frame done) le_rfl
  | forced amount =>
    cases ok
    exact kept.of_frame ⟨rfl,rfl⟩ (Nat.le_add_right _ _)

end AppealState

def Appeal.paymentFailures : List String :=
  ["Bond transfer failed","Bond refund failed","Bond forfeit failed","Panelist bond refund failed"]

def Revert.Unpaid : Revert → Prop
  | .message text => text ∈ Appeal.paymentFailures
  | _ => False

namespace Appeal
open Revert (Unpaid)

variable {till : AppealTill} {record : AppealRecord} {outcome : Bool} {id : Nat} {tx : AppealTx}
  {condition : Prop}

theorem require_avoids [Decidable condition] {failure : Revert} (other : ¬failure.Unpaid) :
    Avoids Unpaid (require condition failure) := by
  intro e failed
  rw [require] at failed
  split_ifs at failed
  cases failed
  exact other

theorem message_avoids [Decidable condition] {text : String} (other : text ∉ paymentFailures) :
    Avoids Unpaid (require condition (.message text)) := require_avoids other

theorem checkedAdd_avoids (a b : Nat) : Avoids Unpaid (checkedAdd a b) := by
  intro e failed
  rw [checkedAdd] at failed
  split_ifs at failed
  cases failed
  exact id

theorem pay_avoids (failure : String) (receiver : Address) {amount : Nat} (willing : till.Willing)
    (enough : amount ≤ till.funds) :
    Avoids Unpaid (pay failure receiver amount till) := by
  obtain ⟨paid,done⟩ : ∃ paid, till.pay act receiver amount = some paid := Till.pay_willing receiver willing enough
  rw [pay,done]
  exact .ok paid

theorem refunds_avoid {reward : Nat} {voters : List Address} (willing : till.Willing)
    (enough : (voters.countP fun v => record.side v = outcome) * (panelistVoteBond + reward) ≤ till.funds) :
    Avoids Unpaid (voters.foldlM (refund record outcome reward) till) := by
  induction voters generalizing till with
  | nil => exact .ok till
  | cons v voters ih =>
    rw [foldlM_cons,refund]
    split_ifs with wins
    · simp only [countP_cons,wins,decide_true,if_true,Nat.add_mul,Nat.one_mul] at enough
      refine .bind (.bind (checkedAdd_avoids _ _) ?_) ?_
      · intro share added
        obtain ⟨_,rfl⟩ := (checkedAdd_ok _ _ _).mp added
        exact pay_avoids _ _ willing (by omega)
      · intro paid done
        simp only [bind_ok,checkedAdd_ok] at done
        obtain ⟨_,⟨_,rfl⟩,done⟩ := done
        have spends := pay_ok done
        have funds := spends.funds
        exact ih (spends.willing willing) (by omega)
    · simp only [countP_cons,wins,decide_false,Bool.false_eq_true,if_false,Nat.add_zero] at enough
      exact ih willing enough

theorem counts_avoid (voters : List Address) (counts : Nat × Nat) :
    Avoids Unpaid (voters.foldlM (record.count outcome) counts) := by
  induction voters generalizing counts with
  | nil => exact .ok counts
  | cons v voters ih =>
    rw [foldlM_cons]
    refine .bind ?_ fun _ _ => ih _
    rw [AppealRecord.count]
    split_ifs
    · exact .bind (checkedAdd_avoids _ _) fun _ _ => .ok _
    · exact .bind (checkedAdd_avoids _ _) fun _ _ => .ok _

theorem distribute_avoids (willing : till.Willing) (enough : record.shared outcome ≤ till.funds) :
    Avoids Unpaid (distributePanelistBonds record outcome till) := by
  refine .bind (counts_avoid _ _) ?_
  intro counts tallied
  rw [tally_ok tallied]
  exact refunds_avoid willing enough

theorem resolve_avoids (status : AppealStatus) (receiver : Address) (failure : String) (willing : till.Willing)
    (enough : (till.state.record id).bond + (till.state.record id).shared outcome ≤ till.funds) :
    Avoids Unpaid (close status receiver failure id till >>= distributePanelistBonds (till.state.record id) outcome) := by
  refine .bind (pay_avoids _ _ willing (Nat.le_of_add_right_le enough)) ?_
  intro paid done
  have spends := pay_ok done
  have funds : till.funds ≤ paid.funds + (till.state.record id).bond := spends.funds
  exact distribute_avoids (spends.willing willing) (by omega)

theorem resolveApproved_avoids (willing : till.Willing) (enough : (till.state.record id).payout .approved ≤ till.funds) :
    Avoids Unpaid (resolveApproved id till) := resolve_avoids _ _ _ willing enough

theorem resolveRejected_avoids (willing : till.Willing) (enough : (till.state.record id).payout .rejected ≤ till.funds) :
    Avoids Unpaid (resolveRejected id till) := resolve_avoids _ _ _ willing enough

theorem castVote_avoids (voter : Address) (approve : Bool) : Avoids Unpaid (record.castVote voter approve) := by
  cases approve with
  | true | false => exact .bind (checkedAdd_avoids _ _) fun _ _ => .ok _

theorem payout_le_due (pending : record.status = .pending) (status : AppealStatus) : record.payout status ≤ record.due := by
  rw [AppealRecord.due,if_pos pending]
  exact record.payout_le status

theorem set_avoids (appeal : Appeal) (sender : Address) (setting : AppealSetting) :
    Avoids Unpaid (appeal.set sender setting) := by
  refine .bind (require_avoids not_false) ?_
  intro _ _
  cases setting with
  | addPanelist | setPanelQuorum => exact .bind (message_avoids (by decide)) fun _ _ => .ok _
  | removePanelist | authorizeAIModel | revokeAIModel => exact .ok _

theorem vote_avoids {value : Nat} {approve : Bool} (willing : till.Willing) (covered : till.state.due + value ≤ till.funds) :
    Avoids Unpaid (vote tx value id approve till) := by
  refine .bind (require_avoids not_false) fun _ _ => ?_
  refine .bind (message_avoids (by decide)) fun _ posts => ?_
  refine .bind (require_avoids not_false) fun _ opens => ?_
  refine .bind (checkedAdd_avoids _ _) fun _ _ => ?_
  refine .bind (require_avoids not_false) fun _ _ => ?_
  refine .bind (require_avoids not_false) fun _ _ => ?_
  refine .bind (castVote_avoids _ _) ?_
  intro counted cast
  have casts := castVote_ok cast
  have written : (till.state.setRecord id counted).record id = counted := (record_setRecord ..).trans (if_pos rfl)
  have enough : ∀ status, ((till.state.setRecord id counted).record id).payout status ≤ till.funds := by
    intro status
    have posted : panelistVoteBond ≤ value := (require_ok _ _ _).mp posts
    have due : (till.state.record id).due = _ := if_pos ((require_ok _ _ _).mp opens)
    have part := till.state.due_le id
    have paid := counted.payout_le status
    rw [casts.bond,casts.voters,length_append,length_singleton,Nat.add_mul,Nat.one_mul] at paid
    rw [written]
    omega
  rw [autoResolve]
  split_ifs
  · exact resolveApproved_avoids willing (enough _)
  · exact resolveRejected_avoids willing (enough _)
  · exact .ok _

theorem submitAIVerdict_avoids {evm : Evm} {approve : Bool} {signature : List UInt8} (willing : till.Willing)
    (covered : till.state.due ≤ till.funds) : Avoids Unpaid (submitAIVerdict evm id approve signature till) := by
  refine .bind (require_avoids not_false) fun _ opens => ?_
  refine .bind (.bind (message_avoids (by decide)) fun _ _ => .ok _) fun _ _ => ?_
  refine .bind (require_avoids not_false) fun _ _ => ?_
  have enough : ∀ status, (till.state.record id).payout status ≤ till.funds := by
    intro status
    have paid := payout_le_due ((require_ok _ _ _).mp opens) status
    exact (paid.trans (till.state.due_le id)).trans covered
  cases approve with
  | true => exact resolveApproved_avoids willing (enough _)
  | false => exact resolveRejected_avoids willing (enough _)

theorem expireAppeal_avoids (willing : till.Willing) (covered : till.state.due ≤ till.funds) :
    Avoids Unpaid (expireAppeal tx id till) := by
  refine .bind (require_avoids not_false) fun _ opens => ?_
  refine .bind (checkedAdd_avoids _ _) fun _ _ => ?_
  refine .bind (require_avoids not_false) fun _ _ => ?_
  have paid := payout_le_due ((require_ok _ _ _).mp opens) .expired
  exact pay_avoids _ _ willing ((paid.trans (till.state.due_le id)).trans covered)

end Appeal

namespace AppealState
variable {evm : Evm}

def Funded (evm : Evm) (state : AppealState) (event : AppealTx × AppealCall) : Prop :=
  (∀ reply ∈ event.1.replies, reply.accepts) → ∀ failure, state.call evm event.1 event.2 = .error failure → ¬failure.Unpaid

variable {state : AppealState}

theorem Kept.funded (kept : state.Kept) (event : AppealTx × AppealCall) : state.Funded evm event := by
  obtain ⟨tx,call⟩ := event
  intro willing
  change Avoids Revert.Unpaid (call.run evm tx (state.enter tx call))
  have covered : (state.enter tx call).state.due + call.value ≤ (state.enter tx call).funds := Nat.add_le_add_right kept.solvent _
  cases call with
  | appeal value canonical statement =>
    refine .bind (Appeal.require_avoids not_false) fun _ _ => ?_
    exact .bind (Appeal.checkedAdd_avoids _ _) fun _ _ => .ok _
  | vote value id approve => exact Appeal.vote_avoids willing covered
  | submitAIVerdict id approve signature => exact Appeal.submitAIVerdict_avoids willing covered
  | expireAppeal id => exact Appeal.expireAppeal_avoids willing covered
  | set setting => exact .bind (Appeal.set_avoids _ _ _) fun _ _ => .ok _
  | forced amount => exact .ok _

theorem Kept.next {event : AppealTx × AppealCall} (kept : state.Kept)
    (late : Appeal.appealWindow < event.1.timestamp) : (state.next evm event).Kept := by
  rw [AppealState.next]
  cases done : state.call evm event.1 event.2 with
  | ok till => exact kept.of_ok late done
  | error _ => exact kept

/-- The bonds of pending appeals are covered in every state, also where receivers call back. -/
theorem pending_appeals_covered (governance : Address) (balance : Nat) (events : List (AppealTx × AppealCall))
    (late : ∀ event ∈ events, Appeal.appealWindow < event.1.timestamp) :
    Throughout (next evm) Solvent ⟨Appeal.deploy governance,balance⟩ events ∧
      Along (next evm) (Funded evm) ⟨Appeal.deploy governance,balance⟩ events := by
  have start : Kept ⟨Appeal.deploy governance,balance⟩ := ⟨Nat.zero_le _,fun _ _ => ⟨rfl,rfl⟩⟩
  have along : Along (next evm) (fun _ event => Appeal.appealWindow < event.1.timestamp) ⟨Appeal.deploy governance,
    balance⟩ events := by
    apply along_of_splits
    intro before event rest split
    apply late
    rw [split]
    exact mem_append_right _ mem_cons_self
  have keeps : ∀ (state : AppealState) (event : AppealTx × AppealCall), state.Kept → Appeal.appealWindow < event.1.timestamp →
      (state.next evm event).Kept := fun _ _ kept => kept.next
  exact ⟨throughout_run keeps (fun _ kept => kept.solvent) _ events start along,
    along_invariant keeps (fun _ event kept _ => kept.funded event) _ events start along⟩

end AppealState

/-! Governance is account 4, the panel 10, 11 and 12, and the publisher 20. -/
namespace Hearing
def evm : Evm := ⟨fun _ => 0,fun _ _ r _ => r.setWidth 160,1⟩

def start : AppealState := ⟨Appeal.deploy 4,0⟩

def sent (timestamp : Nat) (sender : Address) (call : AppealCall) : AppealTx × AppealCall := (⟨sender,timestamp,[]⟩,call)

def panel : List (AppealTx × AppealCall) :=
  [sent 700000 4 (.set (.addPanelist 10)),sent 700000 4 (.set (.addPanelist 11)),sent 700000 4 (.set (.addPanelist 12)),
    sent 700000 4 (.set (.setPanelQuorum 2))]

def heard : List (AppealTx × AppealCall) := panel ++
  [sent 700000 5 (.expireAppeal 1),sent 700000 20 (.appeal (10 ^ 18) [112] []),sent 700001 10 (.vote (10 ^ 16) 0 true),
    sent 700002 11 (.vote (10 ^ 16) 0 false),sent 700003 12 (.vote (10 ^ 16) 0 true)]

theorem heard_covered : ((run (AppealState.next evm) start heard).appeal.record 0).status = .approved ∧
    (run (AppealState.next evm) start heard).balance = 0 ∧ Throughout (AppealState.next evm) AppealState.Solvent start heard ∧
    Along (AppealState.next evm) (AppealState.Funded evm) start heard :=
  ⟨by decide +kernel,by decide +kernel,AppealState.pending_appeals_covered 4 0 heard (by decide +kernel)⟩

end Hearing
end ChainRegistry
