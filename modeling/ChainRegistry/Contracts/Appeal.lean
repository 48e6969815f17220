import ChainRegistry.Contracts.Evm
import ChainRegistry.Lib.Ledger
import ChainRegistry.Lib.Payouts
import ChainRegistry.Lib.Runs

/-! The appeals of rejected packages, with the bonds of the publishers and of the panel, in ether: a
receiver may refuse, and may call back. All functions with payments have the reentrancy guard, which
leaves a receiver governance's settings and ether that comes in without a call. -/
namespace ChainRegistry
open Lib Fallible List Ledger Abi
open Lib.Payouts (Till Reply)

variable {approve : Bool} {voters : List Address}

inductive AppealStatus
  | pending | approved | rejected | expired
  deriving DecidableEq

structure AppealRecord where
  canonical : List UInt8 := []
  publisher : Address := 0
  bond : Nat := 0
  submittedAt : Nat := 0
  status : AppealStatus := .pending
  approveVotes : Nat := 0
  rejectVotes : Nat := 0
  publisherStatement : List UInt8 := []
  voted : Table Address Bool := ∅
  votedApprove : Table Address Bool := ∅
  voters : List Address := []

structure Appeal where
  appeals : Table Nat AppealRecord := ∅
  appealCount : Nat := 0
  governance : Address
  isPanelist : Table Address Bool := ∅
  isAIAuthorized : Table Address Bool := ∅
  panelists : List Address := []
  panelQuorum : Nat := 3

inductive AppealSetting
  | addPanelist (panelist : Address)
  | removePanelist (panelist : Address)
  | setPanelQuorum (q : Nat)
  | authorizeAIModel (model : Address)
  | revokeAIModel (model : Address)

namespace Appeal
def minAppealBond : Nat := 10 ^ 17

def panelistVoteBond : Nat := 10 ^ 16

def appealWindow : Nat := 7 * 86400

def deploy (governance : Address) : Appeal := {governance := governance}

variable (appeal : Appeal)

def record (id : Nat) : AppealRecord := read {} appeal.appeals id

def setRecord (appeal : Appeal) (id : Nat) (record : AppealRecord) : Appeal :=
  {appeal with appeals := appeal.appeals.insert id record}

def panelist (account : Address) : Bool := read false appeal.isPanelist account

def aiAuthorized (model : Address) : Bool := read false appeal.isAIAuthorized model

def set (sender : Address) (appeal : Appeal) (setting : AppealSetting) : Except Revert Appeal := do
  require (sender = appeal.governance) .notGovernance
  match setting with
  | .addPanelist panelist =>
    require (appeal.panelist panelist = false) (.message "Already a panelist")
    return {appeal with
      panelists := appeal.panelists ++ [panelist]
      isPanelist := appeal.isPanelist.insert panelist true}
  | .removePanelist panelist => return {appeal with isPanelist := appeal.isPanelist.insert panelist false}
  | .setPanelQuorum q =>
    require (1 ≤ q ∧ q ≤ appeal.panelists.length) (.message "Invalid quorum")
    return {appeal with panelQuorum := q}
  | .authorizeAIModel model => return {appeal with isAIAuthorized := appeal.isAIAuthorized.insert model true}
  | .revokeAIModel model => return {appeal with isAIAuthorized := appeal.isAIAuthorized.insert model false}

/-- What a receiver does while it is paid: some account calls one of these functions. -/
def act (called : Address × AppealSetting) : Appeal :=
  match appeal.set called.1 called.2 with
  | .ok after => after
  | .error _ => appeal

end Appeal

abbrev AppealTill := Till Appeal (Address × AppealSetting) Address

namespace AppealRecord
variable (record : AppealRecord)

def hasVoted (account : Address) : Bool := read false record.voted account

def side (voter : Address) : Bool := read false record.votedApprove voter

def castVote (voter : Address) (approve : Bool) (record : AppealRecord) : Except Revert AppealRecord := do
  let written : AppealRecord := {record with
    voted := record.voted.insert voter true
    votedApprove := record.votedApprove.insert voter approve
    voters := record.voters ++ [voter]}
  if approve then
    let approveVotes ← checkedAdd record.approveVotes 1
    return {written with approveVotes := approveVotes}
  else
    let rejectVotes ← checkedAdd record.rejectVotes 1
    return {written with rejectVotes := rejectVotes}

variable (outcomeApproved : Bool)

/-- A turn of the first loop of `_distributePanelistBonds`, over `correctCount` and
`incorrectPool`. -/
def count (counts : Nat × Nat) (v : Address) : Except Revert (Nat × Nat) :=
  if record.side v = outcomeApproved then do
    let correctCount ← checkedAdd counts.1 1
    return (correctCount,counts.2)
  else do
    let incorrectPool ← checkedAdd counts.2 Appeal.panelistVoteBond
    return (counts.1,incorrectPool)

def tally : Except Revert (Nat × Nat) :=
  record.voters.foldlM (record.count outcomeApproved) (0,0)

end AppealRecord

namespace Appeal
def pay (failure : String) (receiver : Address) (amount : Nat) (till : AppealTill) : Except Revert AppealTill :=
  match till.pay act receiver amount with
  | some paid => .ok paid
  | none => .error (.message failure)

def refund (record : AppealRecord) (outcomeApproved : Bool) (reward : Nat) (till : AppealTill) (v : Address) :
    Except Revert AppealTill :=
  if record.side v = outcomeApproved then do
    let share ← checkedAdd panelistVoteBond reward
    pay "Panelist bond refund failed" v share till
  else return till

def distributePanelistBonds (record : AppealRecord) (outcomeApproved : Bool) (till : AppealTill) : Except Revert AppealTill := do
  let counts ← record.tally outcomeApproved
  let reward := if 0 < counts.1 then counts.2 / counts.1 else 0
  record.voters.foldlM (refund record outcomeApproved reward) till

/-- The part that the ways out of `Pending` share: the status, and the bond, which is cleared
before it is paid. -/
def close (status : AppealStatus) (receiver : Address) (failure : String) (id : Nat) (till : AppealTill) :
    Except Revert AppealTill :=
  let record := till.state.record id
  pay failure receiver record.bond {till with state := till.state.setRecord id {record with status := status, bond := 0}}

def resolveApproved (id : Nat) (till : AppealTill) : Except Revert AppealTill := do
  let record := till.state.record id
  let paid ← close .approved record.publisher "Bond refund failed" id till
  distributePanelistBonds record true paid

def resolveRejected (id : Nat) (till : AppealTill) : Except Revert AppealTill := do
  let record := till.state.record id
  let paid ← close .rejected till.state.governance "Bond forfeit failed" id till
  distributePanelistBonds record false paid

end Appeal

structure AppealTx where
  sender : Address
  timestamp : Nat
  replies : List (Reply (Address × AppealSetting)) := []

/-- Only `appeal` and `vote` are payable. `forced` is ether that comes in without a call. -/
inductive AppealCall
  | appeal (value : Nat) (canonical statement : List UInt8)
  | vote (value : Nat) (id : Nat) (approve : Bool)
  | submitAIVerdict (id : Nat) (approve : Bool) (signature : List UInt8)
  | expireAppeal (id : Nat)
  | set (setting : AppealSetting)
  | forced (amount : Nat)

namespace Appeal
/-- `appeal`. The value has come in before the function runs. -/
def submit (tx : AppealTx) (value : Nat) (canonical statement : List UInt8) (till : AppealTill) : Except Revert AppealTill := do
  require (minAppealBond ≤ value) (.bondTooLow value minAppealBond)
  let id := till.state.appealCount
  let appealCount ← checkedAdd id 1
  let opened := till.state.setRecord id {till.state.record id with
    canonical := canonical
    publisher := tx.sender
    bond := value
    submittedAt := tx.timestamp
    status := .pending
    publisherStatement := statement}
  return {till with state := {opened with appealCount := appealCount}}

def autoResolve (id : Nat) (till : AppealTill) : Except Revert AppealTill :=
  if till.state.panelQuorum ≤ (till.state.record id).approveVotes then resolveApproved id till
  else if till.state.panelQuorum ≤ (till.state.record id).rejectVotes then resolveRejected id till
  else return till

def vote (tx : AppealTx) (value : Nat) (id : Nat) (approve : Bool) (till : AppealTill) : Except Revert AppealTill := do
  require (till.state.panelist tx.sender) .notPanelist
  require (panelistVoteBond ≤ value) (.message "Must post panelist vote bond")
  let record := till.state.record id
  require (record.status = .pending) .appealNotPending
  let closes ← checkedAdd record.submittedAt appealWindow
  require (tx.timestamp ≤ closes) .appealExpiredErr
  require (record.hasVoted tx.sender = false) .alreadyVoted
  let counted ← record.castVote tx.sender approve
  autoResolve id {till with state := till.state.setRecord id counted}

variable (evm : Evm)

/-- `recoverSigner` and `splitSignature`. -/
def recoverSigner (ethSignedMessageHash : Word) (signature : List UInt8) : Except Revert Address := do
  require (signature.length = 65) (.message "invalid signature length")
  let r := word (signature.take 32)
  let s := word ((signature.drop 32).take 32)
  return evm.ecrecover ethSignedMessageHash ((signature[64]?).getD 0) r s

def verdictHash (id : Nat) (approve : Bool) (canonical : List UInt8) : Word :=
  let messageHash := evm.keccak256 (bytes (ofUint id) ++ [if approve then 1 else 0] ++ canonical)
  evm.keccak256 ([0x19] ++ Text.bytes "Ethereum Signed Message:\n32" ++ bytes messageHash)

def submitAIVerdict (id : Nat) (approve : Bool) (signature : List UInt8) (till : AppealTill) : Except Revert AppealTill := do
  let record := till.state.record id
  require (record.status = .pending) .appealNotPending
  let signer ← recoverSigner evm (verdictHash evm id approve record.canonical) signature
  require (till.state.aiAuthorized signer) .notAuthorized
  if approve then resolveApproved id till else resolveRejected id till

def expireAppeal (tx : AppealTx) (id : Nat) (till : AppealTill) : Except Revert AppealTill := do
  let record := till.state.record id
  require (record.status = .pending) .appealNotPending
  let closes ← checkedAdd record.submittedAt appealWindow
  require (closes < tx.timestamp) .appealNotPending
  close .expired till.state.governance "Bond transfer failed" id till

end Appeal

structure AppealState where
  appeal : Appeal
  balance : Nat

namespace AppealCall
def value : AppealCall → Nat
  | .appeal value _ _ => value
  | .vote value _ _ => value
  | .forced amount => amount
  | _ => 0

def run (evm : Evm) (tx : AppealTx) (call : AppealCall) (till : AppealTill) : Except Revert AppealTill :=
  match call with
  | .appeal value canonical statement => Appeal.submit tx value canonical statement till
  | .vote value id approve => Appeal.vote tx value id approve till
  | .submitAIVerdict id approve signature => Appeal.submitAIVerdict evm id approve signature till
  | .expireAppeal id => Appeal.expireAppeal tx id till
  | .set setting => do
    let after ← till.state.set tx.sender setting
    return {till with state := after}
  | .forced _ => return till

end AppealCall

namespace AppealState
variable (evm : Evm)

def enter (state : AppealState) (tx : AppealTx) (call : AppealCall) : AppealTill :=
  {state := state.appeal, funds := state.balance + call.value, replies := tx.replies}

def call (state : AppealState) (tx : AppealTx) (call : AppealCall) : Except Revert AppealTill :=
  call.run evm tx (state.enter tx call)

def next (state : AppealState) (event : AppealTx × AppealCall) : AppealState :=
  match state.call evm event.1 event.2 with
  | .ok till => ⟨till.state,till.funds⟩
  | .error _ => state

end AppealState

namespace AppealRecord
def winners (record : AppealRecord) (outcome : Bool) : Nat := record.voters.countP fun v => record.side v = outcome

def losers (record : AppealRecord) (outcome : Bool) : Nat := record.voters.countP fun v => ¬record.side v = outcome

def shared (record : AppealRecord) (outcome : Bool) : Nat :=
  record.winners outcome * (Appeal.panelistVoteBond +
    if 0 < record.winners outcome then record.losers outcome * Appeal.panelistVoteBond / record.winners outcome else 0)

def payout (record : AppealRecord) : AppealStatus → Nat
  | .approved => record.bond + record.shared true
  | .rejected => record.bond + record.shared false
  | _ => record.bond

variable {record counted : AppealRecord} {outcome : Bool}

theorem winners_add_losers (record : AppealRecord) (outcome : Bool) :
    record.winners outcome + record.losers outcome = record.voters.length := by
  rw [winners,losers,length_eq_countP_add_countP fun v => record.side v = outcome]
  simp only [decide_eq_true_eq]

theorem shared_le (record : AppealRecord) (outcome : Bool) :
    record.shared outcome ≤ record.voters.length * Appeal.panelistVoteBond := by
  rw [shared,← record.winners_add_losers outcome,Nat.mul_add,Nat.add_mul]
  apply Nat.add_le_add_left
  split_ifs
  · exact Nat.mul_div_le _ _
  · exact Nat.zero_le _

theorem payout_le (record : AppealRecord) (status : AppealStatus) :
    record.payout status ≤ record.bond + record.voters.length * Appeal.panelistVoteBond := by
  cases status with
  | approved => exact Nat.add_le_add_left (record.shared_le true) _
  | rejected => exact Nat.add_le_add_left (record.shared_le false) _
  | pending | expired => exact Nat.le_add_right _ _

theorem counts_ok {start counts : Nat × Nat} (ok : voters.foldlM (record.count outcome) start = .ok counts) :
    counts = (start.1 + voters.countP fun v => record.side v = outcome,
      start.2 + (voters.countP fun v => ¬record.side v = outcome) * Appeal.panelistVoteBond) := by
  induction voters generalizing start with
  | nil =>
    cases ok
    simp
  | cons v voters ih =>
    rw [foldlM_cons,bind_ok] at ok
    obtain ⟨middle,first,rest⟩ := ok
    rw [ih rest]
    rw [count] at first
    split_ifs at first with wins
    · simp only [bind_ok,checkedAdd_ok,pure_ok] at first
      obtain ⟨_,⟨_,rfl⟩,rfl⟩ := first
      simp [wins]
      omega
    · simp only [bind_ok,checkedAdd_ok,pure_ok] at first
      obtain ⟨_,⟨_,rfl⟩,rfl⟩ := first
      simp [wins,Nat.add_mul]
      omega

theorem tally_ok {counts : Nat × Nat} (ok : record.tally outcome = .ok counts) :
    counts = (record.winners outcome,record.losers outcome * Appeal.panelistVoteBond) := by
  have counted := counts_ok ok
  rwa [Nat.zero_add,Nat.zero_add] at counted

structure Casts (voter : Address) (approve : Bool) (record counted : AppealRecord) : Prop where
  voters : counted.voters = record.voters ++ [voter]
  bond : counted.bond = record.bond
  status : counted.status = record.status
  submittedAt : counted.submittedAt = record.submittedAt
  hasVoted : ∀ v, counted.hasVoted v = if v = voter then true else record.hasVoted v
  side : ∀ v, counted.side v = if v = voter then approve else record.side v
  approveVotes : counted.approveVotes = record.approveVotes + if approve then 1 else 0
  rejectVotes : counted.rejectVotes = record.rejectVotes + if approve then 0 else 1

theorem castVote_ok {voter : Address} (ok : record.castVote voter approve = .ok counted) :
    Casts voter approve record counted := by
  cases approve with
  | true =>
    simp only [castVote,if_true,bind_ok,checkedAdd_ok,pure_ok] at ok
    obtain ⟨_,⟨_,rfl⟩,rfl⟩ := ok
    exact ⟨rfl,rfl,rfl,rfl,fun _ => read_insert ..,fun _ => read_insert ..,rfl,rfl⟩
  | false =>
    simp only [castVote,Bool.false_eq_true,if_false,bind_ok,checkedAdd_ok,pure_ok] at ok
    obtain ⟨_,⟨_,rfl⟩,rfl⟩ := ok
    exact ⟨rfl,rfl,rfl,rfl,fun _ => read_insert ..,fun _ => read_insert ..,rfl,rfl⟩

def decision (quorum : Nat) (record : AppealRecord) : Option Bool :=
  if quorum ≤ record.approveVotes then some true else if quorum ≤ record.rejectVotes then some false else none

end AppealRecord

def AppealStatus.of (outcome : Bool) : AppealStatus := if outcome then .approved else .rejected

namespace Appeal
variable {till after : AppealTill} {tx : AppealTx} {id : Nat} {record : AppealRecord} {outcome : Bool} {value : Nat}
  {status : AppealStatus} {amount : Nat}

theorem record_setRecord (appeal : Appeal) (id other : Nat) (record : AppealRecord) :
    (appeal.setRecord id record).record other = if other = id then record else appeal.record other :=
  read_insert ..

theorem set_frame {appeal changed : Appeal} {sender : Address} {setting : AppealSetting}
    (ok : appeal.set sender setting = .ok changed) :
    changed.appeals = appeal.appeals ∧ changed.appealCount = appeal.appealCount := by
  simp only [set,bind_ok,require_and] at ok
  obtain ⟨_,ok⟩ := ok
  cases setting with
  | addPanelist | setPanelQuorum =>
    simp only [bind_ok,require_and,pure_ok] at ok
    obtain ⟨_,rfl⟩ := ok
    exact ⟨rfl,rfl⟩
  | removePanelist | authorizeAIModel | revokeAIModel =>
    cases ok
    exact ⟨rfl,rfl⟩

theorem act_frame (appeal : Appeal) (called : Address × AppealSetting) :
    (appeal.act called).appeals = appeal.appeals ∧ (appeal.act called).appealCount = appeal.appealCount := by
  rw [act]
  cases done : appeal.set called.1 called.2 with
  | ok changed => exact set_frame done
  | error _ => exact ⟨rfl,rfl⟩

theorem spends_frame (spends : Till.Spends act amount till after) :
    after.state.appeals = till.state.appeals ∧ after.state.appealCount = till.state.appealCount := by
  have each : ∀ (appeal : Appeal) (called : Address × AppealSetting),
      appeal.appeals = till.state.appeals ∧ appeal.appealCount = till.state.appealCount →
        (appeal.act called).appeals = till.state.appeals ∧ (appeal.act called).appealCount = till.state.appealCount := by
    intro appeal called same
    have frame := appeal.act_frame called
    exact ⟨frame.1.trans same.1,frame.2.trans same.2⟩
  exact spends.keeps each ⟨rfl,rfl⟩

theorem pay_ok {failure : String} {receiver : Address} (ok : pay failure receiver amount till = .ok after) :
    Till.Spends act amount till after := by
  rw [pay] at ok
  cases paid : till.pay act receiver amount with
  | some made =>
    rw [paid] at ok
    cases ok
    exact Till.pay_spends paid
  | none =>
    rw [paid] at ok
    cases ok

theorem refunds_ok {reward : Nat} (ok : voters.foldlM (refund record outcome reward) till = .ok after) :
    Till.Spends act ((voters.countP fun v => record.side v = outcome) * (panelistVoteBond + reward)) till after := by
  induction voters generalizing till with
  | nil =>
    cases ok
    rw [countP_nil,Nat.zero_mul]
    exact Till.Spends.refl _
  | cons v voters ih =>
    rw [foldlM_cons,bind_ok] at ok
    obtain ⟨middle,first,rest⟩ := ok
    rw [refund] at first
    split_ifs at first with wins
    · simp only [bind_ok,checkedAdd_ok] at first
      obtain ⟨share,⟨_,rfl⟩,paid⟩ := first
      simp only [countP_cons,wins,decide_true,if_true,Nat.add_comm _ 1,Nat.add_mul,Nat.one_mul]
      exact (pay_ok paid).trans (ih rest)
    · cases first
      simp only [countP_cons,wins,decide_false,Bool.false_eq_true,if_false,Nat.add_zero]
      exact ih rest

theorem distribute_ok (ok : distributePanelistBonds record outcome till = .ok after) :
    Till.Spends act (record.shared outcome) till after := by
  simp only [distributePanelistBonds,bind_ok] at ok
  obtain ⟨counts,tallied,ok⟩ := ok
  rw [AppealRecord.tally_ok tallied] at ok
  exact refunds_ok ok

structure Resolves (id : Nat) (record : AppealRecord) (status : AppealStatus) (before after : AppealTill) : Prop where
  appeals : after.state.appeals = before.state.appeals.insert id {record with status := status, bond := 0}
  appealCount : after.state.appealCount = before.state.appealCount
  total : after.total = before.total + record.payout status
  funds : before.funds ≤ after.funds + record.payout status

theorem Resolves.of_spends (spends : Till.Spends act (record.payout status)
      {till with state := till.state.setRecord id {record with status := status, bond := 0}} after) :
    Resolves id record status till after where
  appeals := (spends_frame spends).1
  appealCount := (spends_frame spends).2
  total := spends.total
  funds := spends.funds

theorem resolveApproved_ok (ok : resolveApproved id till = .ok after) :
    Resolves id (till.state.record id) .approved till after := by
  simp only [resolveApproved,bind_ok] at ok
  obtain ⟨_,closed,shares⟩ := ok
  exact .of_spends ((pay_ok closed).trans (distribute_ok shares))

theorem resolveRejected_ok (ok : resolveRejected id till = .ok after) :
    Resolves id (till.state.record id) .rejected till after := by
  simp only [resolveRejected,bind_ok] at ok
  obtain ⟨_,closed,shares⟩ := ok
  exact .of_spends ((pay_ok closed).trans (distribute_ok shares))

theorem Resolves.reads (resolves : Resolves id record status till after) (other : Nat) :
    after.state.record other = if other = id then {record with status := status, bond := 0} else till.state.record other := by
  rw [Appeal.record,resolves.appeals]
  exact read_insert ..

structure Opens (tx : AppealTx) (value : Nat) (record : AppealRecord) (before after : AppealTill) : Prop where
  enough : minAppealBond ≤ value
  appeals : after.state.appeals = before.state.appeals.insert before.state.appealCount record
  bond : record.bond = value
  status : record.status = .pending
  submittedAt : record.submittedAt = tx.timestamp
  voters : record.voters = (before.state.record before.state.appealCount).voters
  voted : record.voted = (before.state.record before.state.appealCount).voted
  votedApprove : record.votedApprove = (before.state.record before.state.appealCount).votedApprove
  appealCount : after.state.appealCount = before.state.appealCount + 1
  total : after.total = before.total
  funds : after.funds = before.funds

theorem submit_ok {canonical statement : List UInt8} (ok : submit tx value canonical statement till = .ok after) :
    ∃ record, Opens tx value record till after := by
  simp only [submit,bind_ok,require_and,checkedAdd_ok,pure_ok] at ok
  obtain ⟨enough,_,⟨_,rfl⟩,rfl⟩ := ok
  exact ⟨_,enough,rfl,rfl,rfl,rfl,rfl,rfl,rfl,rfl,rfl,rfl⟩

theorem Opens.reads (opens : Opens tx value record till after) (other : Nat) :
    after.state.record other = if other = till.state.appealCount then record else till.state.record other := by
  rw [Appeal.record,opens.appeals]
  exact read_insert ..

structure Votes (tx : AppealTx) (value : Nat) (id : Nat) (approve : Bool) (counted : AppealRecord) (before after : AppealTill) :
    Prop where
  enough : panelistVoteBond ≤ value
  pending : (before.state.record id).status = .pending
  inTime : tx.timestamp ≤ (before.state.record id).submittedAt + appealWindow
  unvoted : (before.state.record id).hasVoted tx.sender = false
  casts : AppealRecord.Casts tx.sender approve (before.state.record id) counted
  waits : counted.decision before.state.panelQuorum = none → after = {before with state := before.state.setRecord id counted}
  decides : ∀ outcome, counted.decision before.state.panelQuorum = some outcome → Resolves id counted (.of outcome) before after

theorem vote_ok (ok : vote tx value id approve till = .ok after) : ∃ counted, Votes tx value id approve counted till after := by
  simp only [vote,bind_ok,require_and,checkedAdd_ok] at ok
  obtain ⟨_,enough,pending,_,⟨_,rfl⟩,inTime,unvoted,counted,cast,ok⟩ := ok
  have written : (till.state.setRecord id counted).record id = counted := (record_setRecord ..).trans (if_pos rfl)
  -- the record is written twice, with the vote and with the new status
  have again : ∀ {status : AppealStatus}, Resolves id counted status {till with state := till.state.setRecord id counted} after →
      Resolves id counted status till after := by
    intro status resolves
    refine ⟨resolves.appeals.trans ?_,resolves.appealCount,resolves.total,resolves.funds⟩
    exact AList.insert_insert _
  refine ⟨counted,enough,pending,inTime,unvoted,AppealRecord.castVote_ok cast,?_,?_⟩
  · intro undecided
    rw [AppealRecord.decision] at undecided
    rw [autoResolve,written] at ok
    change (if till.state.panelQuorum ≤ counted.approveVotes then _ else if till.state.panelQuorum ≤ counted.rejectVotes then _
      else _ : Except Revert AppealTill) = _ at ok
    split_ifs at undecided ok
    cases ok
    rfl
  · intro outcome decided
    rw [AppealRecord.decision] at decided
    rw [autoResolve,written] at ok
    change (if till.state.panelQuorum ≤ counted.approveVotes then _ else if till.state.panelQuorum ≤ counted.rejectVotes then _
      else _ : Except Revert AppealTill) = _ at ok
    split_ifs at decided ok
    · cases decided
      have resolves := resolveApproved_ok ok
      rw [written] at resolves
      exact again resolves
    · cases decided
      have resolves := resolveRejected_ok ok
      rw [written] at resolves
      exact again resolves

theorem submitAIVerdict_ok {evm : Evm} {signature : List UInt8} (ok : submitAIVerdict evm id approve signature till = .ok after) :
    (till.state.record id).status = .pending ∧ Resolves id (till.state.record id) (.of approve) till after := by
  simp only [submitAIVerdict,bind_ok,require_and] at ok
  obtain ⟨pending,_,_,_,ok⟩ := ok
  cases approve with
  | true => exact ⟨pending,resolveApproved_ok ok⟩
  | false => exact ⟨pending,resolveRejected_ok ok⟩

theorem expireAppeal_ok (ok : expireAppeal tx id till = .ok after) :
    (till.state.record id).status = .pending ∧ Resolves id (till.state.record id) .expired till after := by
  simp only [expireAppeal,bind_ok,require_and,checkedAdd_ok] at ok
  obtain ⟨pending,_,_,_,closed⟩ := ok
  exact ⟨pending,.of_spends (pay_ok closed)⟩

end Appeal
end ChainRegistry
