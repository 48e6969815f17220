import ChainRegistry.Contracts.Governance

/-! What each call of the multisig does when it succeeds, read off once. -/
namespace ChainRegistry
open Lib Runs Fallible

namespace Governance
structure Recorded (msg : Msg) (approve : Bool) (p q : Proposal) : Prop where
  target : q.target = p.target
  callData : q.callData = p.callData
  submittedAt : q.submittedAt = p.submittedAt
  status : q.status = p.status
  voted : q.voted = insert msg.sender p.voted
  approval : q.approval = if approve then insert msg.sender p.approval else p.approval.erase msg.sender
  approvalCount : q.approvalCount = if approve then p.approvalCount + 1 else p.approvalCount

def settled (gov : Governance) (now : Nat) (q : Proposal) : Proposal :=
  if gov.threshold ≤ q.approvalCount then {q with status := .executed, executedAt := now} else q

def submitted (msg : Msg) (target : Address) (callData : List UInt8) (description : String) (p : Proposal) : Proposal :=
  {p with target := target, callData := callData, description := description, submittedAt := msg.timestamp, status := .pending}

def opened (msg : Msg) (reason : String) (gov : Governance) : Governance :=
  {gov with
    openPauseRequest := ⟨msg.timestamp,gov.openPauseRequest.nonce + 1,msg.sender,reason,1⟩
    pauseRequestCoSigners := insert (gov.openPauseRequest.nonce + 1,msg.sender) gov.pauseRequestCoSigners}

def coSigned (msg : Msg) (gov : Governance) : Governance :=
  {gov with
    openPauseRequest := {gov.openPauseRequest with coSignCount := gov.openPauseRequest.coSignCount + 1}
    pauseRequestCoSigners := insert (gov.openPauseRequest.nonce,msg.sender) gov.pauseRequestCoSigners}

structure Confirms (msg : Msg) (gov : Governance) : Prop where
  signer : msg.sender ∈ gov.isSigner
  active : gov.systemStatus = .active
  present : gov.openPauseRequest.openedAt ≠ 0
  early : msg.timestamp < gov.openPauseRequest.openedAt + pauseRequestTtl
  unsigned : (gov.openPauseRequest.nonce,msg.sender) ∉ gov.pauseRequestCoSigners

inductive Effect (self : Address) (msg : Msg) (gov : Governance) : Call → Governance → Prop
  | opens {call : Call} {reason : String} (signer : msg.sender ∈ gov.isSigner) (active : gov.systemStatus = .active)
    (cooled : gov.pausedAt + pauseCooldown ≤ msg.timestamp)
    (asked : call = .openPauseRequest reason ∨ call = .emergencyPause reason) : Effect self msg gov call (opened msg reason gov)
  | coSigns {call : Call} (confirms : Confirms msg gov) (few : gov.openPauseRequest.coSignCount + 1 < pauseThreshold)
    (asked : call = .confirmPauseRequest ∨ ∃ reason, call = .emergencyPause reason) :
    Effect self msg gov call (coSigned msg gov)
  | pauses {call : Call} (confirms : Confirms msg gov) (enough : pauseThreshold ≤ gov.openPauseRequest.coSignCount + 1)
    (asked : call = .confirmPauseRequest ∨ ∃ reason, call = .emergencyPause reason) :
    Effect self msg gov call (applyPause msg (coSigned msg gov))
  | expires : Effect self msg gov .expirePauseRequest (resetOpenPauseRequest gov)
  | unpauses (paused : gov.systemStatus = .paused) (own : msg.sender = self) :
    Effect self msg gov .emergencyUnpause {gov with systemStatus := .active}
  | submits {target : Address} {callData : List UInt8} {description : String} (active : gov.systemStatus = .active)
    (signer : msg.sender ∈ gov.isSigner) : Effect self msg gov (.submit target callData description)
      {gov.setProposal gov.proposalCount (submitted msg target callData description (gov.proposal gov.proposalCount)) with
        proposalCount := gov.proposalCount + 1}
  | votes {id : Nat} {approve : Bool} {q : Proposal} (signer : msg.sender ∈ gov.isSigner)
    (pending : (gov.proposal id).status = .pending)
    (inRange : (gov.proposal id).submittedAt + gov.votingPeriod < 2 ^ 256)
    (inTime : msg.timestamp ≤ (gov.proposal id).submittedAt + gov.votingPeriod) (fresh : msg.sender ∉ (gov.proposal id).voted)
    (recorded : Recorded msg approve (gov.proposal id) q) :
    Effect self msg gov (.vote id approve) (gov.setProposal id (settled gov msg.timestamp q))
  | cancels {id : Nat} (signer : msg.sender ∈ gov.isSigner) (pending : (gov.proposal id).status = .pending) :
    Effect self msg gov (.cancel id) (gov.setProposal id {gov.proposal id with status := .cancelled})
  | addsSigner {newSigner : Address} (own : msg.sender = self) : Effect self msg gov (.addSigner newSigner)
      {gov with signers := gov.signers ++ [newSigner], isSigner := insert newSigner gov.isSigner}
  | removesSigner {signer : Address} (own : msg.sender = self) : Effect self msg gov (.removeSigner signer)
      {gov with signers := swapRemove signer gov.signers, isSigner := gov.isSigner.erase signer}
  | setsThreshold {newThreshold : Nat} (own : msg.sender = self) : Effect self msg gov (.updateThreshold newThreshold)
      {gov with threshold := newThreshold}
  | reads : Effect self msg gov .view gov

variable {self : Address} {msg : Msg} {gov next : Governance} {call : Call}

theorem recordVote_ok {approve : Bool} {p q : Proposal} (ok : recordVote msg approve p = .ok q) : Recorded msg approve p q := by
  cases approve with
  | true =>
    simp only [recordVote,if_true,bind_ok,checkedAdd_ok,pure_ok] at ok
    obtain ⟨_,⟨_,rfl⟩,_,_,rfl⟩ := ok
    exact ⟨rfl,rfl,rfl,rfl,rfl,rfl,rfl⟩
  | false =>
    simp only [recordVote,Bool.false_eq_true,if_false,bind_ok,checkedAdd_ok,pure_ok] at ok
    obtain ⟨_,kept,_,⟨_,rfl⟩,rfl⟩ := ok
    cases kept
    exact ⟨rfl,rfl,rfl,rfl,rfl,rfl,rfl⟩

theorem checkCooldown_ok (ok : checkCooldown msg gov = .ok ()) : gov.pausedAt + pauseCooldown ≤ msg.timestamp := by
  simp only [checkCooldown,bind_ok,checkedAdd_ok,require_ok] at ok
  obtain ⟨_,⟨_,rfl⟩,elapsed⟩ := ok
  exact elapsed

theorem openRequest_ok {reason : String} (ok : openRequest msg reason gov = .ok next) : next = opened msg reason gov := by
  simp only [openRequest,bind_ok,checkedAdd_ok,pure_ok] at ok
  obtain ⟨_,⟨_,rfl⟩,rfl⟩ := ok
  rfl

theorem coSign_ok (ok : coSign msg gov = .ok next) : (gov.openPauseRequest.nonce,msg.sender) ∉ gov.pauseRequestCoSigners ∧
    next = if pauseThreshold ≤ gov.openPauseRequest.coSignCount + 1 then applyPause msg (coSigned msg gov)
      else coSigned msg gov := by
  simp only [coSign,bind_ok,require_and,checkedAdd_ok,pure_ok] at ok
  obtain ⟨unsigned,_,⟨_,rfl⟩,rfl⟩ := ok
  exact ⟨unsigned,rfl⟩

theorem noOpenRequest_false (ok : noOpenRequest msg gov = .ok false) :
    gov.openPauseRequest.openedAt ≠ 0 ∧ msg.timestamp < gov.openPauseRequest.openedAt + pauseRequestTtl := by
  unfold noOpenRequest at ok
  split_ifs at ok with none
  · cases ok
  · simp only [bind_ok,checkedAdd_ok,pure_ok,decide_eq_false_iff_not,not_le] at ok
    obtain ⟨_,⟨_,rfl⟩,early⟩ := ok
    exact ⟨none,early⟩

theorem effect_coSign (signer : msg.sender ∈ gov.isSigner) (active : gov.systemStatus = .active)
    (present : gov.openPauseRequest.openedAt ≠ 0) (early : msg.timestamp < gov.openPauseRequest.openedAt + pauseRequestTtl)
    (asked : call = .confirmPauseRequest ∨ ∃ reason, call = .emergencyPause reason) (ok : coSign msg gov = .ok next) :
    Effect self msg gov call next := by
  obtain ⟨unsigned,rfl⟩ := coSign_ok ok
  split_ifs with enough
  · exact .pauses ⟨signer,active,present,early,unsigned⟩ enough asked
  · exact .coSigns ⟨signer,active,present,early,unsigned⟩ (not_le.mp enough) asked

theorem act_ok (ok : act self msg gov call = .ok next) : Effect self msg gov call next := by
  cases call with
  | openPauseRequest reason =>
    simp only [act,openPause,bind_ok,require_and] at ok
    obtain ⟨signer,_,active,_,cooled,_,_,_,ok⟩ := ok
    rw [openRequest_ok ok]
    exact .opens signer active (checkCooldown_ok cooled) (.inl rfl)
  | confirmPauseRequest =>
    simp only [act,confirmPauseRequest,bind_ok,require_and,checkedAdd_ok] at ok
    obtain ⟨signer,active,present,_,⟨_,rfl⟩,early,ok⟩ := ok
    exact effect_coSign signer active present early (.inl rfl) ok
  | expirePauseRequest =>
    simp only [act,expirePauseRequest,bind_ok,require_and,pure_ok] at ok
    obtain ⟨_,_,_,_,rfl⟩ := ok
    exact .expires
  | emergencyPause reason =>
    simp only [act,emergencyPause,bind_ok,require_and] at ok
    obtain ⟨signer,_,active,_,cooled,free,asked,ok⟩ := ok
    cases free with
    | true =>
      rw [openRequest_ok ok]
      exact .opens signer active (checkCooldown_ok cooled) (.inr rfl)
    | false =>
      obtain ⟨present,early⟩ := noOpenRequest_false asked
      exact effect_coSign signer active present early (.inr ⟨reason,rfl⟩) ok
  | emergencyUnpause =>
    simp only [act,emergencyUnpause,bind_ok,require_and,pure_ok] at ok
    obtain ⟨paused,own,rfl⟩ := ok
    exact .unpauses paused own
  | submit target callData description =>
    simp only [act,submit,bind_ok,require_and,checkedAdd_ok,pure_ok] at ok
    obtain ⟨active,signer,_,⟨_,rfl⟩,rfl⟩ := ok
    exact .submits active signer
  | vote id approve =>
    simp only [act,vote,bind_ok,require_and,checkedAdd_ok,pure_ok] at ok
    obtain ⟨signer,pending,_,⟨inRange,rfl⟩,inTime,fresh,q,recorded,rfl⟩ := ok
    exact .votes signer pending inRange inTime fresh (recordVote_ok recorded)
  | cancel id =>
    simp only [act,cancel,bind_ok,require_and,pure_ok] at ok
    obtain ⟨signer,pending,rfl⟩ := ok
    exact .cancels signer pending
  | addSigner newSigner =>
    simp only [act,addSigner,bind_ok,require_and,pure_ok] at ok
    obtain ⟨own,_,rfl⟩ := ok
    exact .addsSigner own
  | removeSigner signer =>
    simp only [act,removeSigner,bind_ok,require_and,pure_ok] at ok
    obtain ⟨own,_,_,_,_,rfl⟩ := ok
    exact .removesSigner own
  | updateThreshold newThreshold =>
    simp only [act,updateThreshold,bind_ok,require_and,pure_ok] at ok
    obtain ⟨own,_,rfl⟩ := ok
    exact .setsThreshold own
  | view =>
    cases ok
    exact .reads

theorem acting_cases (self : Address) (gov : Governance) (event : Act) :
    Effect self event.1 gov event.2 (acting self gov event) ∨ acting self gov event = gov := by
  unfold acting
  split
  · rename_i done
    exact .inl (act_ok done)
  · exact .inr rfl

theorem proposal_setProposal (gov : Governance) (id other : Nat) (p : Proposal) :
    (gov.setProposal id p).proposal other = if other = id then p else gov.proposal other :=
  Ledger.read_insert ..

end Governance
end ChainRegistry
