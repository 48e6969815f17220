import ChainRegistry.Contracts.InsurancePool

/-! What the insurance takes and pays for a policy, over whole runs. -/
namespace ChainRegistry
open Lib Runs Fallible List Function Ledger

namespace Payment
variable (policyId : Nat)

def premiumFor : Payment → Nat
  | .premium id amount => if id = policyId then amount else 0
  | _ => 0

def refundFor : Payment → Nat
  | .refund id amount => if id = policyId then amount else 0
  | _ => 0

def payoutFor : Payment → Nat
  | .payout claim amount => if claim.policyId = policyId then amount else 0
  | _ => 0

end Payment

structure InsuranceRun where
  state : InsuranceState
  payments : List Payment
  now : Nat

namespace InsuranceRun
def start (world : World) (governance : Address) : InsuranceRun := ⟨⟨world,.deploy governance⟩,[],0⟩

def step (evm : Evm) (staking self : Address) (run : InsuranceRun) (event : InsuranceTx × InsuranceCall) : InsuranceRun :=
  match run.state.call evm staking self event.1 event.2 with
  | .ok (after,payments) => ⟨after,run.payments ++ payments,event.1.timestamp⟩
  | .error _ => {run with now := event.1.timestamp}

def premiums (run : InsuranceRun) (policyId : Nat) : Nat := (run.payments.map (Payment.premiumFor policyId)).sum

def refunds (run : InsuranceRun) (policyId : Nat) : Nat := (run.payments.map (Payment.refundFor policyId)).sum

def payouts (run : InsuranceRun) (policyId : Nat) : Nat := (run.payments.map (Payment.payoutFor policyId)).sum

def Timely (run : InsuranceRun) (event : InsuranceTx × InsuranceCall) : Prop := run.now ≤ event.1.timestamp

instance timelyDecidable (run : InsuranceRun) (event : InsuranceTx × InsuranceCall) : Decidable (run.Timely event) :=
  inferInstanceAs (Decidable (_ ≤ _))

def RefundsWithinPremiums (run : InsuranceRun) : Prop := ∀ policyId, run.refunds policyId ≤ run.premiums policyId

def RenewsActive (run : InsuranceRun) (event : InsuranceTx × InsuranceCall) : Prop :=
  match event.2 with
  | .renewPolicy policyId => (run.state.insurance.policy policyId).active = true
  | _ => True

def PayoutsBounded (run : InsuranceRun) : Prop :=
  (∀ claim amount, .payout claim amount ∈ run.payments → amount ≤ claim.amount) ∧
    ∀ policyId, run.payouts policyId ≤ (run.state.insurance.policy policyId).coverageAmount

end InsuranceRun

namespace PackageInsurance
def paidWeight (policyId : Nat) (claim : InsuranceClaim) : Nat :=
  if claim.status = .paid ∧ claim.policyId = policyId then claim.amount else 0

def paidAmount (claims : Table Nat InsuranceClaim) (policyId : Nat) : Nat := total (paidWeight policyId) claims

end PackageInsurance

/-- A payout is at most what is claimed, and that is covered besides the claims of the policy that are paid. -/
def InsuranceRun.PaysWithin (run : InsuranceRun) (event : InsuranceTx × InsuranceCall) : Prop :=
  match event.2 with
  | .resolveClaim claimId .approved payout =>
    let claim := run.state.insurance.claim claimId
    payout ≤ claim.amount ∧
      PackageInsurance.paidAmount run.state.insurance.claims claim.policyId + claim.amount ≤
        (run.state.insurance.policy claim.policyId).coverageAmount
  | _ => True

namespace PackageInsurance
theorem policy_setPolicy (insurance : PackageInsurance) (id other : Nat) (policy : Policy) :
    (insurance.setPolicy id policy).policy other = if other = id then policy else insurance.policy other :=
  read_insert _ _ _ _ _

theorem paidAmount_insert (claims : Table Nat InsuranceClaim) (id : Nat) (claim : InsuranceClaim) (policyId : Nat) :
    paidAmount (claims.insert id claim) policyId + paidWeight policyId (read .blank claims id) =
      paidAmount claims policyId + paidWeight policyId claim := by
  have unpaid : paidWeight policyId .blank = 0 := if_neg fun both => ClaimStatus.noConfusion both.1
  exact total_insert (paidWeight policyId) unpaid _ _ _

theorem paidWeight_unpaid {claim : InsuranceClaim} (unpaid : claim.status ≠ .paid) (policyId : Nat) :
    paidWeight policyId claim = 0 :=
  if_neg fun both => unpaid both.1

theorem refundOf_le {policy : Policy} {now refund : Nat} (ok : refundOf policy now = .ok refund)
    (soon : policy.expiration ≤ now + policyDuration) : refund ≤ policy.premium := by
  simp only [refundOf,bind_ok,checkedMul_ok,pure_ok] at ok
  obtain ⟨_,⟨_,rfl⟩,_,⟨_,rfl⟩,rfl⟩ := ok
  have remaining : (if now < policy.expiration then policy.expiration - now else 0) ≤ policyDuration := by
    split_ifs
    · omega
    · exact Nat.zero_le _
  have share : policy.premium * (if now < policy.expiration then policy.expiration - now else 0) / policyDuration ≤
    policy.premium := by
    apply Nat.div_le_of_le_mul
    rw [Nat.mul_comm policyDuration]
    exact Nat.mul_le_mul_left policy.premium remaining
  omega

end PackageInsurance

namespace InsuranceRun
open PackageInsurance InsuranceState

variable {evm : Evm} {staking self : Address} {run : InsuranceRun} {event : InsuranceTx × InsuranceCall} {after : InsuranceState}
  {payments : List Payment}

structure PolicyAccount (premiums refunds now : Nat) (policy : Policy) : Prop where
  account : refunds + (if policy.active then policy.premium else 0) ≤ premiums
  soon : policy.expiration ≤ now + policyDuration

section
variable {paid refunded now moment amount : Nat} {policy : Policy}

section
variable (account : PolicyAccount paid refunded now policy)
include account

theorem PolicyAccount.later (timely : now ≤ moment) : PolicyAccount paid refunded moment policy :=
  ⟨account.account,account.soon.trans (Nat.add_le_add_right timely _)⟩

theorem PolicyAccount.refunded_le : refunded ≤ paid :=
  (Nat.le_add_right _ _).trans account.account

theorem PolicyAccount.bought {bought : Policy} (premium : bought.premium = amount)
    (expires : bought.expiration = moment + policyDuration) : PolicyAccount (paid + amount) refunded moment bought := by
  refine ⟨?_,expires.le⟩
  have before := account.refunded_le
  split_ifs <;> omega

theorem PolicyAccount.renewed (active : policy.active) : PolicyAccount (paid + amount) refunded moment {policy with
    premium := policy.premium + amount
    expiration := moment + policyDuration
    active := true} := by
  refine ⟨?_,le_rfl⟩
  have before := account.account
  rw [if_pos active] at before
  rw [if_pos rfl]
  dsimp only
  omega

theorem PolicyAccount.canceled (timely : now ≤ moment) (active : policy.active) (made : refundOf policy moment = .ok amount) :
      PolicyAccount paid (refunded + amount) moment {policy with active := false} := by
  have soon := (account.later timely).soon
  refine ⟨?_,soon⟩
  have before := account.account
  have less := refundOf_le made soon
  rw [if_pos active] at before
  rw [if_neg Bool.false_ne_true]
  omega

end

end

def Accounted (run : InsuranceRun) : Prop :=
  ∀ policyId, PolicyAccount (run.premiums policyId) (run.refunds policyId) run.now (run.state.insurance.policy policyId)

def extend (run : InsuranceRun) (after : InsuranceState) (payments : List Payment) (now : Nat) : InsuranceRun :=
  ⟨after,run.payments ++ payments,now⟩

theorem premiums_extend (policyId now : Nat) :
    (run.extend after payments now).premiums policyId = run.premiums policyId +
      (payments.map (Payment.premiumFor policyId)).sum := by
  rw [premiums,extend,map_append,sum_append,premiums]

theorem refunds_extend (policyId now : Nat) :
    (run.extend after payments now).refunds policyId =
      run.refunds policyId + (payments.map (Payment.refundFor policyId)).sum := by
  rw [refunds,extend,map_append,sum_append,refunds]

theorem Accounted.frame {now : Nat} (accounted : run.Accounted) (timely : run.now ≤ now)
    (policies : after.insurance.policies = run.state.insurance.policies)
    (quiet : ∀ policyId, (payments.map (Payment.premiumFor policyId)).sum = 0 ∧
      (payments.map (Payment.refundFor policyId)).sum = 0) :
    (run.extend after payments now).Accounted := by
  intro policyId
  have same : (run.extend after payments now).state.insurance.policy policyId = run.state.insurance.policy policyId := by
    rw [policy,policy]
    exact congrArg (fun table => read Policy.blank table policyId) policies
  rw [premiums_extend,refunds_extend,(quiet policyId).1,(quiet policyId).2,same]
  exact (accounted policyId).later timely

theorem Accounted.write {now id taken given : Nat} {written : Policy} (accounted : run.Accounted) (timely : run.now ≤ now)
    (policies : after.insurance.policies = run.state.insurance.policies.insert id written)
    (taking : ∀ policyId, (payments.map (Payment.premiumFor policyId)).sum = if id = policyId then taken else 0)
    (giving : ∀ policyId, (payments.map (Payment.refundFor policyId)).sum = if id = policyId then given else 0)
    (account : PolicyAccount (run.premiums id + taken) (run.refunds id + given) now written) :
    (run.extend after payments now).Accounted := by
  intro policyId
  have read : (run.extend after payments now).state.insurance.policy policyId =
      if policyId = id then written else run.state.insurance.policy policyId := by
    rw [← policy_setPolicy]
    exact congrArg (fun table => Ledger.read Policy.blank table policyId) policies
  rw [premiums_extend,refunds_extend,taking,giving,read]
  by_cases same : policyId = id
  · subst same
    rw [if_pos rfl,if_pos rfl,if_pos rfl]
    exact account
  · rw [if_neg (Ne.symm same),if_neg (Ne.symm same),if_neg same]
    exact (accounted policyId).later timely

theorem sum_premium (id amount policyId : Nat) :
    (([.premium id amount] : List Payment).map (Payment.premiumFor policyId)).sum = if id = policyId then amount else 0 :=
  sum_singleton

theorem sum_refund (id amount policyId : Nat) :
    (([.refund id amount] : List Payment).map (Payment.refundFor policyId)).sum = if id = policyId then amount else 0 :=
  sum_singleton

theorem Accounted.call (accounted : run.Accounted) (timely : run.Timely event) (renews : run.RenewsActive event)
    (ok : run.state.call evm staking self event.1 event.2 = .ok (after,payments)) :
    (run.extend after payments event.1.timestamp).Accounted := by
  obtain ⟨tx,call⟩ := event
  have quiet : ∀ policyId, (([] : List Payment).map (Payment.premiumFor policyId)).sum = 0 ∧
      (([] : List Payment).map (Payment.refundFor policyId)).sum = 0 := fun _ => ⟨rfl,rfl⟩
  cases call with
  | purchaseInsurance packageCanonical coverageAmount =>
    obtain ⟨premium,_,_,_,_,rfl,rfl⟩ := purchaseInsurance_ok ok
    apply accounted.write timely rfl (sum_premium _ premium) (fun _ => (ite_self 0).symm)
    exact (accounted _).bought rfl rfl
  | cancelPolicy policyId =>
    obtain ⟨refund,_,_,_,active,made,_,_,rfl,rfl⟩ := cancelPolicy_ok ok
    apply accounted.write timely rfl (fun _ => (ite_self 0).symm) (sum_refund policyId refund)
    exact (accounted policyId).canceled timely active made
  | renewPolicy policyId =>
    obtain ⟨newPremium,_,_,_,_,rfl,rfl⟩ := renewPolicy_ok ok
    apply accounted.write timely rfl (sum_premium policyId newPremium) (fun _ => (ite_self 0).symm)
    exact (accounted policyId).renewed renews
  | submitClaim policyId amount reason evidence =>
    obtain ⟨_,rfl,rfl⟩ := submitClaim_ok ok
    exact accounted.frame timely rfl quiet
  | resolveClaim claimId status payout =>
    obtain ⟨_,⟨_,paid⟩ | ⟨_,rfl,rfl⟩⟩ := resolveClaim_ok ok
    · obtain ⟨_,_,_,_,_,_,rfl,rfl⟩ := payClaim_ok paid
      exact accounted.frame timely rfl fun _ => ⟨rfl,rfl⟩
    · exact accounted.frame timely rfl quiet
  | setClaimUnderReview claimId =>
    simp only [InsuranceState.call,setClaimUnderReview,bind_ok,require_and,pair_ok] at ok
    obtain ⟨_,_,_,rfl,rfl⟩ := ok
    exact accounted.frame timely rfl quiet
  | replenishPool amount =>
    simp only [InsuranceState.call,replenishPool,bind_ok,Prod.exists,pair_ok] at ok
    obtain ⟨_,_,_,_,_,rfl,rfl⟩ := ok
    exact accounted.frame timely rfl quiet
  | emergencyWithdraw dst amount =>
    simp only [InsuranceState.call,emergencyWithdraw,bind_ok,require_and,Prod.exists,pair_ok] at ok
    obtain ⟨_,_,_,_,_,_,_,rfl,rfl⟩ := ok
    exact accounted.frame timely rfl quiet
  | set setting =>
    obtain ⟨_,rfl,unchanged⟩ := set_ok ok
    exact accounted.frame timely unchanged.policies quiet
  | elsewhere call =>
    rw [InsuranceState.call,map_ok] at ok
    obtain ⟨⟨world,logs⟩,_,same⟩ := ok
    cases same
    exact accounted.frame timely rfl quiet

theorem Accounted.step (accounted : run.Accounted) (allowed : run.Timely event ∧ run.RenewsActive event) :
    (run.step evm staking self event).Accounted := by
  rw [InsuranceRun.step]
  cases done : run.state.call evm staking self event.1 event.2 with
  | ok result => exact accounted.call allowed.1 allowed.2 done
  | error _ => exact fun policyId => (accounted policyId).later allowed.1

/-- Refunds stay within the premiums where no canceled policy is renewed. -/
theorem refunds_within_premiums (evm : Evm) (staking self : Address) (world : World) (governance : Address)
    (events : List (InsuranceTx × InsuranceCall)) (timely : Along (step evm staking self) Timely (start world governance) events)
    (renews : Along (step evm staking self) RenewsActive (start world governance) events) :
    Throughout (step evm staking self) RefundsWithinPremiums (start world governance) events := by
  apply throughout_run (fun _ _ accounted allowed => Accounted.step accounted allowed)
    (fun _ accounted policyId => (accounted policyId).refunded_le) _ events _ (along_and timely renews)
  exact fun _ => ⟨le_rfl,Nat.zero_le _⟩

structure Book where
  coverage : Nat → Nat
  policyCount : Nat
  claims : Table Nat InsuranceClaim
  claimCount : Nat

namespace Book
def claim (book : Book) (id : Nat) : InsuranceClaim := read .blank book.claims id

def issue (book : Book) (amount : Nat) : Book :=
  {book with coverage := Function.update book.coverage (book.policyCount + 1) amount, policyCount := book.policyCount + 1}

def file (book : Book) (claim : InsuranceClaim) : Book :=
  {book with claims := book.claims.insert (book.claimCount + 1) claim, claimCount := book.claimCount + 1}

def restate (book : Book) (id : Nat) (claim : InsuranceClaim) : Book := {book with claims := book.claims.insert id claim}

structure Numbered (book : Book) : Prop where
  policies : ∀ id, book.policyCount < id → book.coverage id = 0
  claims : ∀ id, book.claimCount < id → (book.claim id).amount = 0

end Book

def book (insurance : PackageInsurance) : Book :=
  ⟨fun id => (insurance.policy id).coverageAmount,insurance.policyCount,insurance.claims,insurance.claimCount⟩

def Quiet (payments : List Payment) : Prop := ∀ claim amount, .payout claim amount ∉ payments

inductive BookMove (book : Book) : Book → List Payment → Prop
  | still {payments : List Payment} (quiet : Quiet payments) : BookMove book book payments
  | issue {payments : List Payment} (amount : Nat) (quiet : Quiet payments) : BookMove book (book.issue amount) payments
  | file (claim : InsuranceClaim) : BookMove book (book.file claim) []
  | restate (id : Nat) (claim : InsuranceClaim) (unpaid : (book.claim id).status ≠ .paid)
    (amount : claim.amount = (book.claim id).amount) :
    BookMove book (book.restate id claim) []
  | pay (id payout : Nat) (claim : InsuranceClaim) (unpaid : (book.claim id).status ≠ .paid) (paid : claim.status = .paid)
    (policyId : claim.policyId = (book.claim id).policyId) (amount : claim.amount = (book.claim id).amount)
    (within : payout ≤ (book.claim id).amount)
    (covered : paidAmount book.claims (book.claim id).policyId + (book.claim id).amount ≤
      book.coverage (book.claim id).policyId) :
    BookMove book (book.restate id claim) [.payout (book.claim id) payout]

def paidFor (payments : List Payment) (policyId : Nat) : Nat := (payments.map (Payment.payoutFor policyId)).sum

theorem paidFor_quiet {payments : List Payment} (quiet : Quiet payments) (policyId : Nat) : paidFor payments policyId = 0 := by
  apply sum_eq_zero
  intro amount member
  obtain ⟨payment,inside,rfl⟩ := mem_map.mp member
  cases payment with
  | premium | refund => rfl
  | payout claim amount => exact absurd inside (quiet claim amount)

theorem quiet_premium (id amount : Nat) : Quiet [.premium id amount] := by
  intro claim payout member
  cases mem_singleton.mp member

theorem quiet_refund (id amount : Nat) : Quiet [.refund id amount] := by
  intro claim payout member
  cases mem_singleton.mp member

theorem quiet_nil : Quiet [] := fun _ _ => not_mem_nil

structure PaidOut (payments : List Payment) (book : Book) : Prop where
  each : ∀ claim amount, .payout claim amount ∈ payments → amount ≤ claim.amount
  covered : ∀ policyId, paidFor payments policyId ≤ book.coverage policyId
  counted : ∀ policyId, paidFor payments policyId ≤ paidAmount book.claims policyId
  numbered : book.Numbered

section
variable {book after : Book} {payments more : List Payment}

theorem PaidOut.quiet (paidOut : PaidOut payments book) (quiet : Quiet more)
    (coverages : ∀ policyId, book.coverage policyId ≤ after.coverage policyId)
    (amounts : ∀ policyId, paidAmount book.claims policyId ≤ paidAmount after.claims policyId) (numbered : after.Numbered) :
    PaidOut (payments ++ more) after := by
  have same : ∀ policyId, paidFor (payments ++ more) policyId = paidFor payments policyId := by
    intro policyId
    rw [paidFor,map_append,sum_append]
    exact congrArg (paidFor payments policyId + ·) (paidFor_quiet quiet policyId)
  refine ⟨?_,?_,?_,numbered⟩
  · intro claim amount member
    exact paidOut.each claim amount ((mem_append.mp member).resolve_right (quiet claim amount))
  · intro policyId
    rw [same]
    exact (paidOut.covered policyId).trans (coverages policyId)
  · intro policyId
    rw [same]
    exact (paidOut.counted policyId).trans (amounts policyId)

theorem Book.claim_insert (book : Book) (id other : Nat) (claim : InsuranceClaim) :
    (book.restate id claim).claim other = if other = id then claim else book.claim other :=
  read_insert _ _ _ _ _

theorem Book.Numbered.restate {id : Nat} {claim : InsuranceClaim} (numbered : book.Numbered)
    (amount : claim.amount = (book.claim id).amount) :
    (book.restate id claim).Numbered := by
  refine ⟨numbered.policies,?_⟩
  intro other fresh
  rw [Book.claim_insert]
  split_ifs with same
  · rw [amount,← same]
    exact numbered.claims other fresh
  · exact numbered.claims other fresh

theorem Book.Numbered.issue (numbered : book.Numbered) (amount : Nat) : (book.issue amount).Numbered := by
  refine ⟨?_,numbered.claims⟩
  intro id fresh
  have other : id ≠ book.policyCount + 1 := ne_of_gt fresh
  rw [Book.issue]
  dsimp only
  rw [update_of_ne other]
  exact numbered.policies id (Nat.lt_of_succ_lt fresh)

theorem Book.Numbered.file (numbered : book.Numbered) (claim : InsuranceClaim) : (book.file claim).Numbered := by
  refine ⟨numbered.policies,?_⟩
  intro id fresh
  have other : id ≠ book.claimCount + 1 := ne_of_gt fresh
  have read : (book.file claim).claim id = if id = book.claimCount + 1 then claim else book.claim id := read_insert _ _ _ _ _
  rw [read,if_neg other]
  exact numbered.claims id (Nat.lt_of_succ_lt fresh)

theorem PaidOut.pay {id payout : Nat} {claim : InsuranceClaim} (paidOut : PaidOut payments book)
    (unpaid : (book.claim id).status ≠ .paid) (paid : claim.status = .paid) (policy : claim.policyId = (book.claim id).policyId)
      (amount : claim.amount = (book.claim id).amount)
    (within : payout ≤ (book.claim id).amount)
    (covered : paidAmount book.claims (book.claim id).policyId + (book.claim id).amount ≤
      book.coverage (book.claim id).policyId) :
    PaidOut (payments ++ [.payout (book.claim id) payout]) (book.restate id claim) := by
  have sums : ∀ policyId, paidFor (payments ++ [.payout (book.claim id) payout]) policyId =
      paidFor payments policyId + if (book.claim id).policyId = policyId then payout else 0 := by
    intro policyId
    rw [paidFor,map_append,sum_append]
    exact congrArg (paidFor payments policyId + ·) sum_singleton
  have amounts : ∀ policyId, paidAmount (book.restate id claim).claims policyId =
      paidAmount book.claims policyId + if (book.claim id).policyId = policyId then (book.claim id).amount else 0 := by
    intro policyId
    have inserted := paidAmount_insert book.claims id claim policyId
    have before : paidWeight policyId (read .blank book.claims id) = 0 := paidWeight_unpaid unpaid policyId
    rw [before,paidWeight,policy,amount] at inserted
    simp only [paid,true_and,Nat.add_zero] at inserted
    exact inserted
  refine ⟨?_,?_,?_,paidOut.numbered.restate amount⟩
  · intro other value member
    obtain before | this := mem_append.mp member
    · exact paidOut.each other value before
    · cases mem_singleton.mp this
      exact within
  · intro policyId
    rw [sums]
    have counted := paidOut.counted policyId
    have bound := paidOut.covered policyId
    change _ ≤ book.coverage policyId
    split_ifs with same
    · subst same
      omega
    · exact bound
  · intro policyId
    rw [sums,amounts]
    have counted := paidOut.counted policyId
    split_ifs
    · omega
    · exact counted

theorem PaidOut.move (paidOut : PaidOut payments book) (move : BookMove book after more) : PaidOut (payments ++ more) after := by
  cases move with
  | still quiet => exact paidOut.quiet quiet (fun _ => le_rfl) (fun _ => le_rfl) paidOut.numbered
  | issue amount quiet =>
    refine paidOut.quiet quiet ?_ (fun _ => le_rfl) (paidOut.numbered.issue amount)
    intro policyId
    rw [Book.issue]
    dsimp only
    rw [update_apply]
    split_ifs with same
    · rw [paidOut.numbered.policies policyId (same ▸ Nat.lt_succ_self _)]
      exact Nat.zero_le _
    · exact le_rfl
  | file claim =>
    refine paidOut.quiet quiet_nil (fun _ => le_rfl) ?_ (paidOut.numbered.file claim)
    intro policyId
    -- what stood at the new number has no amount
    have inserted := paidAmount_insert book.claims (book.claimCount + 1) claim policyId
    have before : paidWeight policyId (read .blank book.claims (book.claimCount + 1)) = 0 := by
      rw [paidWeight]
      split_ifs
      · exact paidOut.numbered.claims _ (Nat.lt_succ_self _)
      · rfl
    change _ ≤ paidAmount (book.claims.insert (book.claimCount + 1) claim) policyId
    omega
  | restate id claim unpaid amount =>
    refine paidOut.quiet quiet_nil (fun _ => le_rfl) ?_ (paidOut.numbered.restate amount)
    intro policyId
    have inserted := paidAmount_insert book.claims id claim policyId
    have before : paidWeight policyId (read .blank book.claims id) = 0 := paidWeight_unpaid unpaid policyId
    change _ ≤ paidAmount (book.claims.insert id claim) policyId
    omega
  | pay id payout claim unpaid paid policy amount within covered => exact paidOut.pay unpaid paid policy amount within covered

end

section
variable {insurance written : PackageInsurance} {id : Nat} {policy : Policy}

section
variable (policies : written.policies = (insurance.setPolicy id policy).policies)
include policies

theorem coverage_written : (book written).coverage = Function.update (book insurance).coverage id policy.coverageAmount := by
  funext other
  have read : written.policy other = (insurance.setPolicy id policy).policy other :=
    congrArg (fun table => Ledger.read Policy.blank table other) policies
  change (written.policy other).coverageAmount = _
  rw [read,policy_setPolicy,update_apply]
  split_ifs <;> rfl

theorem BookMove.rewrite
    (same : policy.coverageAmount = (insurance.policy id).coverageAmount)
      (policyCount : written.policyCount = insurance.policyCount)
    (claims : written.claims = insurance.claims) (claimCount : written.claimCount = insurance.claimCount)
      (quiet : Quiet payments) :
    BookMove (book insurance) (book written) payments := by
  have coverages : (book written).coverage = (book insurance).coverage := by
    rw [coverage_written policies,same]
    exact update_eq_self id (book insurance).coverage
  have unmoved : book written = book insurance := by
    change Book.mk (book written).coverage written.policyCount written.claims written.claimCount = _
    rw [coverages,policyCount,claims,claimCount]
    rfl
  rw [unmoved]
  exact .still quiet

end

theorem BookMove.issued (policies : written.policies = (insurance.setPolicy (insurance.policyCount + 1) policy).policies)
    (policyCount : written.policyCount = insurance.policyCount + 1) (claims : written.claims = insurance.claims)
    (claimCount : written.claimCount = insurance.claimCount) (quiet : Quiet payments) :
    BookMove (book insurance) (book written) payments := by
  have issued : book written = (book insurance).issue policy.coverageAmount := by
    change Book.mk (book written).coverage written.policyCount written.claims written.claimCount = _
    rw [coverage_written policies,policyCount,claims,claimCount]
    rfl
  rw [issued]
  exact .issue _ quiet

end

theorem not_paid_of_waiting {claim : InsuranceClaim} (waiting : claim.status = .pending ∨ claim.status = .underReview) :
    claim.status ≠ .paid := by
  intro paid
  rw [paid] at waiting
  obtain other | other := waiting
  · cases other
  · cases other

theorem call_moves (within : run.PaysWithin event) (ok : run.state.call evm staking self event.1 event.2 = .ok (after,payments)) :
    BookMove (book run.state.insurance) (book after.insurance) payments := by
  obtain ⟨tx,call⟩ := event
  cases call with
  | purchaseInsurance packageCanonical coverageAmount =>
    obtain ⟨premium,_,_,_,_,rfl,rfl⟩ := purchaseInsurance_ok ok
    exact .issued rfl rfl rfl rfl (quiet_premium _ premium)
  | cancelPolicy policyId =>
    obtain ⟨refund,_,_,_,_,_,_,_,rfl,rfl⟩ := cancelPolicy_ok ok
    exact .rewrite rfl rfl rfl rfl rfl (quiet_refund policyId refund)
  | renewPolicy policyId =>
    obtain ⟨newPremium,_,_,_,_,rfl,rfl⟩ := renewPolicy_ok ok
    exact .rewrite rfl rfl rfl rfl rfl (quiet_premium policyId newPremium)
  | submitClaim policyId amount reason evidence =>
    obtain ⟨_,rfl,rfl⟩ := submitClaim_ok ok
    exact .file _
  | resolveClaim claimId status payout =>
    obtain ⟨waiting,⟨rfl,paid⟩ | ⟨_,rfl,rfl⟩⟩ := resolveClaim_ok ok
    · obtain ⟨_,_,_,_,_,_,rfl,rfl⟩ := payClaim_ok paid
      exact .pay claimId payout _ (not_paid_of_waiting waiting) rfl rfl rfl within.1 within.2
    · exact .restate claimId _ (not_paid_of_waiting waiting) rfl
  | setClaimUnderReview claimId =>
    simp only [InsuranceState.call,setClaimUnderReview,bind_ok,require_and,pair_ok] at ok
    obtain ⟨_,_,waiting,rfl,rfl⟩ := ok
    exact .restate claimId _ (not_paid_of_waiting (.inl waiting)) rfl
  | replenishPool amount =>
    simp only [InsuranceState.call,replenishPool,bind_ok,Prod.exists,pair_ok] at ok
    obtain ⟨_,_,_,_,_,rfl,rfl⟩ := ok
    exact .still quiet_nil
  | emergencyWithdraw dst amount =>
    simp only [InsuranceState.call,emergencyWithdraw,bind_ok,require_and,Prod.exists,pair_ok] at ok
    obtain ⟨_,_,_,_,_,_,_,rfl,rfl⟩ := ok
    exact .still quiet_nil
  | set setting =>
    obtain ⟨_,rfl,unchanged⟩ := set_ok ok
    have same : book after.insurance = book run.state.insurance := by
      have policies : after.insurance.policy = run.state.insurance.policy := by
        funext id
        rw [PackageInsurance.policy,PackageInsurance.policy,unchanged.policies]
      rw [book,book,policies,unchanged.policyCount,unchanged.claims,unchanged.claimCount]
    rw [same]
    exact .still quiet_nil
  | elsewhere call =>
    rw [InsuranceState.call,map_ok] at ok
    obtain ⟨⟨world,logs⟩,_,same⟩ := ok
    cases same
    exact .still quiet_nil

/-- Payouts are bounded where each is within its claim and the coverage. -/
theorem payouts_bounded (evm : Evm) (staking self : Address) (world : World) (governance : Address)
    (events : List (InsuranceTx × InsuranceCall))
      (within : Along (step evm staking self) PaysWithin (start world governance) events) :
    Throughout (step evm staking self) PayoutsBounded (start world governance) events := by
  have keeps : ∀ (run : InsuranceRun) event, PaidOut run.payments (book run.state.insurance) → run.PaysWithin event →
      PaidOut (run.step evm staking self event).payments (book (run.step evm staking self event).state.insurance) := by
    intro run event paidOut within
    rw [InsuranceRun.step]
    cases done : run.state.call evm staking self event.1 event.2 with
    | ok result => exact paidOut.move (call_moves within done)
    | error _ => exact paidOut
  have shows : ∀ run : InsuranceRun, PaidOut run.payments (book run.state.insurance) → run.PayoutsBounded :=
    fun _ paidOut => ⟨paidOut.each,paidOut.covered⟩
  apply throughout_run keeps shows _ events _ within
  refine ⟨?_,fun _ => Nat.zero_le _,fun _ => Nat.zero_le _,fun _ _ => rfl,fun _ _ => rfl⟩
  intro claim amount member
  exact absurd member not_mem_nil

end InsuranceRun

namespace Small
def beginning : InsuranceRun := .start start 4

def paying (payout : Nat) : List (InsuranceTx × InsuranceCall) :=
  insured ++ [(insuring 13 400 .revoked,.resolveClaim 1 .approved payout)]

def overpaying : List (InsuranceTx × InsuranceCall) :=
  insured ++ [(insuring 10 350 .revoked,.submitClaim 1 (5 * 10 ^ 17) "stolen" [2]),
    (insuring 13 400 .revoked,.resolveClaim 2 .approved (10 ^ 18))]

def payingTwice : List (InsuranceTx × InsuranceCall) :=
  insured ++ [(insuring 10 350 .revoked,.submitClaim 1 (10 ^ 18) "stolen" [2]),
    (insuring 10 360 .verified,.purchaseInsurance packageName (10 ^ 18)),
    (insuring 13 400 .revoked,.resolveClaim 1 .approved (10 ^ 18)),(insuring 13 400 .revoked,.resolveClaim 2 .approved (10 ^ 18))]

theorem payouts_beyond : ¬ (run (InsuranceRun.step evm 2 8) beginning overpaying).PayoutsBounded ∧
    ¬ (run (InsuranceRun.step evm 2 8) beginning payingTwice).PayoutsBounded := by
  refine ⟨fun bounded => ?_,fun bounded => ?_⟩
  · have paid : .payout ⟨2,1,10,5 * 10 ^ 17,"stolen",[2],.pending,350,0,0⟩ (10 ^ 18) ∈
        (run (InsuranceRun.step evm 2 8) beginning overpaying).payments := by
      decide +kernel
    exact absurd (bounded.1 _ _ paid) (by decide)
  · exact absurd (bounded.2 1) (by decide +kernel)

theorem paying_bounded : (run (InsuranceRun.step evm 2 8) beginning (paying (10 ^ 18))).payouts 1 = 10 ^ 18 ∧
    Throughout (InsuranceRun.step evm 2 8) InsuranceRun.PayoutsBounded beginning (paying (10 ^ 18)) := by
  have within : InsuranceRun.PaysWithin (run (InsuranceRun.step evm 2 8) beginning insured)
      (insuring 13 400 .revoked,.resolveClaim 1 .approved (10 ^ 18)) := by
    rw [InsuranceRun.PaysWithin]
    decide +kernel
  refine ⟨by decide +kernel,InsuranceRun.payouts_bounded evm 2 8 start 4 (paying (10 ^ 18)) ?_⟩
  exact ⟨trivial,trivial,trivial,trivial,trivial,trivial,trivial,within,trivial⟩

def canceling : List (InsuranceTx × InsuranceCall) :=
  insured ++ [(insuring 10 300 .verified,.cancelPolicy 1),(insuring 10 300 .verified,.renewPolicy 1),
    (insuring 10 300 .verified,.cancelPolicy 1)]

theorem premium_refunded_twice : Along (InsuranceRun.step evm 2 8) InsuranceRun.Timely beginning canceling ∧
    ¬ (run (InsuranceRun.step evm 2 8) beginning canceling).RefundsWithinPremiums := by
  refine ⟨by decide +kernel,fun within => ?_⟩
  exact absurd (within 1) (by decide +kernel)

def renewing : List (InsuranceTx × InsuranceCall) :=
  insured ++ [(insuring 10 300 .verified,.renewPolicy 1),(insuring 10 300 .verified,.cancelPolicy 1)]

theorem renewed_refunded_once : 0 < (run (InsuranceRun.step evm 2 8) beginning renewing).refunds 1 ∧
    Throughout (InsuranceRun.step evm 2 8) InsuranceRun.RefundsWithinPremiums beginning renewing := by
  have active : InsuranceRun.RenewsActive (run (InsuranceRun.step evm 2 8) beginning insured)
      (insuring 10 300 .verified,.renewPolicy 1) := by
    rw [InsuranceRun.RenewsActive]
    decide +kernel
  refine ⟨by decide +kernel,InsuranceRun.refunds_within_premiums evm 2 8 start 4 renewing (by decide +kernel) ?_⟩
  exact ⟨trivial,trivial,trivial,trivial,trivial,trivial,trivial,active,trivial,trivial⟩

end Small
end ChainRegistry
