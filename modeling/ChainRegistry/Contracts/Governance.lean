import ChainRegistry.Contracts.Evm
import ChainRegistry.Lib.Ledger
import ChainRegistry.Lib.Runs
import ChainRegistry.Lib.SwapRemove

/-! The multisig: `contracts/Governance.sol`. A transaction is one call and, if it is a vote that
executes a proposal, the calls that come back while the target runs. Every call is an act of its
own; the acts of the transactions that do not revert are the history. Events are left out, and the
storage of the former pause flow, which nothing reads. -/
namespace ChainRegistry
open Lib Runs

inductive ProposalStatus
  | pending | executed | cancelled
  deriving DecidableEq

inductive SystemStatus
  | active | paused
  deriving DecidableEq

structure Proposal where
  target : Address
  callData : List UInt8
  description : String
  (submittedAt executedAt : Nat)
  status : ProposalStatus
  (approvalCount rejectionCount : Nat)
  (voted approval : Finset Address)

def Proposal.blank : Proposal := ⟨0,[],"",0,0,.pending,0,0,∅,∅⟩

structure OpenPauseRequest where
  (openedAt nonce : Nat)
  opener : Address
  reason : String
  coSignCount : Nat

structure Governance where
  signers : List Address
  isSigner : Finset Address
  (threshold proposalCount votingPeriod : Nat)
  proposals : Table Nat Proposal
  systemStatus : SystemStatus
  pausedAt : Nat
  pauseReason : String
  openPauseRequest : OpenPauseRequest
  -- by the nonce of the request
  pauseRequestCoSigners : Finset (Nat × Address)

structure Msg where
  sender : Address
  timestamp : Nat
  deriving DecidableEq

namespace Governance
def pauseThreshold : Nat := 2
def pauseCooldown : Nat := 7 * 86400
def pauseRequestTtl : Nat := 1 * 86400

def deploy (signers : List Address) (threshold : Nat) : Except Revert Governance := do
  require (threshold ≤ signers.length) (.message "Threshold exceeds signer count")
  require (0 < threshold) (.message "Threshold must be > 0")
  return {
    signers := signers
    isSigner := signers.toFinset
    threshold := threshold
    proposalCount := 0
    votingPeriod := 3 * 86400
    proposals := ∅
    systemStatus := .active
    pausedAt := 0
    pauseReason := ""
    openPauseRequest := ⟨0,0,0,"",0⟩
    pauseRequestCoSigners := ∅ }

def proposal (gov : Governance) (id : Nat) : Proposal := Ledger.read .blank gov.proposals id

def setProposal (gov : Governance) (id : Nat) (proposal : Proposal) : Governance :=
  {gov with proposals := gov.proposals.insert id proposal}

abbrev Result := Except Revert Governance

variable (self : Address) (msg : Msg)

def resetOpenPauseRequest (gov : Governance) : Governance :=
  {gov with openPauseRequest := ⟨0,gov.openPauseRequest.nonce,0,"",0⟩}

def applyPause (gov : Governance) : Governance :=
  resetOpenPauseRequest {gov with
    systemStatus := .paused
    pausedAt := msg.timestamp
    pauseReason := gov.openPauseRequest.reason}

variable (gov : Governance)

def noOpenRequest : Except Revert Bool :=
  if gov.openPauseRequest.openedAt = 0 then .ok true
  else do
    let expiry ← checkedAdd gov.openPauseRequest.openedAt pauseRequestTtl
    return decide (expiry ≤ msg.timestamp)

def openRequest (reason : String) (gov : Governance) : Result := do
  let nonce ← checkedAdd gov.openPauseRequest.nonce 1
  let opened := {gov with
    openPauseRequest := ⟨msg.timestamp,nonce,msg.sender,reason,1⟩
    pauseRequestCoSigners := insert (nonce,msg.sender) gov.pauseRequestCoSigners}
  return if pauseThreshold = 1 then applyPause msg opened else opened

def coSign (gov : Governance) : Result := do
  let request := gov.openPauseRequest
  require ((request.nonce,msg.sender) ∉ gov.pauseRequestCoSigners) (.message "already confirmed")
  let coSignCount ← checkedAdd request.coSignCount 1
  let signed := {gov with
    openPauseRequest := {request with coSignCount := coSignCount}
    pauseRequestCoSigners := insert (request.nonce,msg.sender) gov.pauseRequestCoSigners}
  return if pauseThreshold ≤ coSignCount then applyPause msg signed else signed

def checkCooldown : Except Revert Unit := do
  let available ← checkedAdd gov.pausedAt pauseCooldown
  require (available ≤ msg.timestamp) (.message "Pause cooldown active")

/-- `openPauseRequest`. -/
def openPause (reason : String) (gov : Governance) : Result := do
  require (msg.sender ∈ gov.isSigner) .notSigner
  require (reason ≠ "") .invalidPauseReason
  require (gov.systemStatus = .active) .systemPaused
  checkCooldown msg gov
  let free ← noOpenRequest msg gov
  require (free) (.message "a pause request is already open")
  openRequest msg reason gov

def confirmPauseRequest : Result := do
  require (msg.sender ∈ gov.isSigner) .notSigner
  require (gov.systemStatus = .active) .systemPaused
  require (gov.openPauseRequest.openedAt ≠ 0) (.message "no open pause request")
  let expiry ← checkedAdd gov.openPauseRequest.openedAt pauseRequestTtl
  require (msg.timestamp < expiry) (.message "open pause request has expired")
  coSign msg gov

def expirePauseRequest : Result := do
  require (gov.openPauseRequest.openedAt ≠ 0) (.message "no open pause request")
  let expiry ← checkedAdd gov.openPauseRequest.openedAt pauseRequestTtl
  require (expiry ≤ msg.timestamp) (.message "open pause request has not expired")
  return resetOpenPauseRequest gov

/-- The former flow: it opens a request, or confirms the one that is open. -/
def emergencyPause (reason : String) (gov : Governance) : Result := do
  require (msg.sender ∈ gov.isSigner) .notSigner
  require (reason ≠ "") .invalidPauseReason
  require (gov.systemStatus = .active) .systemPaused
  checkCooldown msg gov
  let free ← noOpenRequest msg gov
  if free then openRequest msg reason gov else coSign msg gov

def emergencyUnpause (gov : Governance) : Result := do
  require (gov.systemStatus = .paused) .systemNotPaused
  require (msg.sender = self) .notGovernance
  return {gov with systemStatus := .active}

def submit (target : Address) (callData : List UInt8) (description : String) (gov : Governance) : Result := do
  require (gov.systemStatus = .active) .systemPaused
  require (msg.sender ∈ gov.isSigner) .notSigner
  let count ← checkedAdd gov.proposalCount 1
  let id := gov.proposalCount
  return {gov.setProposal id {gov.proposal id with
    target := target
    callData := callData
    description := description
    submittedAt := msg.timestamp
    status := .pending} with proposalCount := count}

def recordVote (approve : Bool) (p : Proposal) : Except Revert Proposal := do
  let approvalCount ← if approve then checkedAdd p.approvalCount 1 else .ok p.approvalCount
  let rejectionCount ← if approve then .ok p.rejectionCount else checkedAdd p.rejectionCount 1
  return {p with
    voted := insert msg.sender p.voted
    approval := if approve then insert msg.sender p.approval else p.approval.erase msg.sender
    approvalCount := approvalCount
    rejectionCount := rejectionCount}

/-- `vote`, up to the call of the target: with the threshold the proposal is executed. -/
def vote (id : Nat) (approve : Bool) (gov : Governance) : Result := do
  require (msg.sender ∈ gov.isSigner) .notSigner
  let p := gov.proposal id
  require (p.status = .pending) .proposalNotPending
  let deadline ← checkedAdd p.submittedAt gov.votingPeriod
  require (msg.timestamp ≤ deadline) .votingPeriodExpired
  require (msg.sender ∉ p.voted) .alreadyVoted
  let p ← recordVote msg approve p
  return gov.setProposal id
    (if gov.threshold ≤ p.approvalCount then {p with status := .executed, executedAt := msg.timestamp} else p)

/-- The voting period is not looked at, nor is the threshold. -/
def cancel (id : Nat) (gov : Governance) : Result := do
  require (msg.sender ∈ gov.isSigner) .notSigner
  let p := gov.proposal id
  require (p.status = .pending) .proposalNotPending
  return gov.setProposal id {p with status := .cancelled}

def addSigner (newSigner : Address) (gov : Governance) : Result := do
  require (msg.sender = self) (.message "Only via governance proposal")
  require (newSigner ∉ gov.isSigner) (.message "Already a signer")
  return {gov with signers := gov.signers ++ [newSigner], isSigner := insert newSigner gov.isSigner}

/-- The votes of the signer are kept. -/
def removeSigner (signer : Address) (gov : Governance) : Result := do
  require (msg.sender = self) (.message "Only via governance proposal")
  require (signer ∈ gov.isSigner) (.message "Not a signer")
  let left ← checkedSub gov.signers.length 1
  require (gov.threshold ≤ left) (.message "Would break threshold")
  return {gov with signers := swapRemove signer gov.signers, isSigner := gov.isSigner.erase signer}

def updateThreshold (newThreshold : Nat) (gov : Governance) : Result := do
  require (msg.sender = self) (.message "Only via governance proposal")
  require (0 < newThreshold ∧ newThreshold ≤ gov.signers.length) (.message "Invalid threshold")
  return {gov with threshold := newThreshold}

inductive Call
  | openPauseRequest (reason : String)
  | confirmPauseRequest | expirePauseRequest
  | emergencyPause (reason : String)
  | emergencyUnpause
  | submit (target : Address) (callData : List UInt8) (description : String)
  | vote (id : Nat) (approve : Bool)
  | cancel (id : Nat)
  | addSigner (newSigner : Address)
  | removeSigner (signer : Address)
  | updateThreshold (newThreshold : Nat)
  -- any of the functions that only read
  | view
  deriving DecidableEq

def act : Call → Result
  | .openPauseRequest reason => openPause msg reason gov
  | .confirmPauseRequest => confirmPauseRequest msg gov
  | .expirePauseRequest => expirePauseRequest msg gov
  | .emergencyPause reason => emergencyPause msg reason gov
  | .emergencyUnpause => emergencyUnpause self msg gov
  | .submit target callData description => submit msg target callData description gov
  | .vote id approve => vote msg id approve gov
  | .cancel id => cancel msg id gov
  | .addSigner newSigner => addSigner self msg newSigner gov
  | .removeSigner signer => removeSigner self msg signer gov
  | .updateThreshold newThreshold => updateThreshold self msg newThreshold gov
  | .view => .ok gov

/-- A call that comes while a proposal is being executed: the guard lets no vote in. -/
def actInside : Call → Result
  | .vote _ _ => .error (.message "Reentrant call")
  | call => act self msg gov call

abbrev Act := Msg × Call

def acting (event : Act) : Governance :=
  match act self event.1 gov event.2 with
  | .ok next => next
  | .error _ => gov

def nestedActs (now : Nat) : Governance → List (Address × Call) → List Act
  | _, [] => []
  | gov, (sender,call) :: rest =>
    match actInside self ⟨sender,now⟩ gov call with
    | .ok next => (⟨sender,now⟩,call) :: nestedActs now next rest
    | .error _ => nestedActs now gov rest

/-- A transaction from outside, with what a foreign target does when it is called: the calls that
come back from it, and whether it succeeds. -/
structure Event (holder : Address) where
  msg : Msg
  call : Call
  nested : List (Address × Call)
  success : Bool
  outside : msg.sender ≠ holder
  foreign : ∀ inner ∈ nested, inner.1 ≠ holder

/-- `p.target.call(p.callData)`, in the state that executes the proposal. The contract calls itself
by the given decoding, and takes a call without data for a payment. -/
def callTarget {self : Address} (decode : List UInt8 → Option Call) (gov : Governance) (p : Proposal) (event : Event self) :
    Except Revert (List Act) :=
  if p.target = self then
    if p.callData = [] then .ok []
    else match decode p.callData with
      | none => .error .executionFailed
      | some call => match actInside self ⟨self,event.msg.timestamp⟩ gov call with
        | .ok _ => .ok [(⟨self,event.msg.timestamp⟩,call)]
        | .error _ => .error .executionFailed
  else if event.success then .ok (nestedActs self event.msg.timestamp gov event.nested)
  else .error .executionFailed

def due (after : Governance) : Call → Option Proposal
  | .vote id _ => if (after.proposal id).status = .executed then some (after.proposal id) else none
  | _ => none

def acts {self : Address} (decode : List UInt8 → Option Call) (gov : Governance) (event : Event self) :
    Except Revert (List Act) := do
  let next ← act self event.msg gov event.call
  match due next event.call with
  | some p => return (event.msg,event.call) :: (← callTarget decode next p event)
  | none => return [(event.msg,event.call)]

def committed {self : Address} (decode : List UInt8 → Option Call) (gov : Governance) (event : Event self) : List Act :=
  match acts decode gov event with
  | .ok done => done
  | .error _ => []

def next {self : Address} (decode : List UInt8 → Option Call) (gov : Governance) (event : Event self) : Governance :=
  run (acting self) gov (committed decode gov event)

def history {self : Address} (decode : List UInt8 → Option Call) : Governance → List (Event self) → List Act
  | _, [] => []
  | gov, event :: events => committed decode gov event ++ history decode (next decode gov event) events

end Governance

/-! A small council at the address 1, on which the contract can be evaluated. -/
namespace Council
open Governance

def decode (data : List UInt8) : Option Call :=
  match data.take 4 with
  | [0x0e,0x31,0x6a,0xb7] =>
    if 36 ≤ data.length then some (.removeSigner ((Abi.word ((data.drop 4).take 32)).setWidth 160)) else none
  | [0x4a,0x4e,0x3b,0xd5] => some .emergencyUnpause
  | _ => none

def removal (signer : Address) : List UInt8 := [0x0e,0x31,0x6a,0xb7] ++ Abi.bytes (Abi.ofAddress signer)

def tx (sender : Address) (outside : sender ≠ 1) (timestamp : Nat) (call : Call) : Event 1 :=
  ⟨⟨sender,timestamp⟩,call,[],true,outside,nofun⟩

variable (timestamp : Nat) (call : Call)

def tx10 : Event 1 := tx 10 (by decide) timestamp call

def tx11 : Event 1 := tx 11 (by decide) timestamp call

def tx12 : Event 1 := tx 12 (by decide) timestamp call

def start : Governance where
  signers := [10,11,12]
  isSigner := [10,11,12].toFinset
  threshold := 2
  proposalCount := 0
  votingPeriod := 3 * 86400
  proposals := ∅
  systemStatus := .active
  pausedAt := 0
  pauseReason := ""
  openPauseRequest := ⟨0,0,0,"",0⟩
  pauseRequestCoSigners := ∅

theorem deployed : Governance.deploy [10,11,12] 2 = .ok start := rfl

end Council
end ChainRegistry
