import ChainRegistry.Contracts.Staking
import ChainRegistry.Lib.LedgerSums
import ChainRegistry.Lib.Runs

/-! The supply of the token: over every sequence of calls from the constructor it is the sum
of all balances, and within the cap. -/
namespace ChainRegistry
open Lib Runs Fallible Ledger

inductive TokenCall
  | transfer (dst : Address) (value : Nat)
  | transferFrom (src dst : Address) (value : Nat)
  | approve (spender : Address) (value : Nat)
  | permit (owner spender : Address) (value deadline : Nat) (v : UInt8) (r s : Word)
  | mint (dst : Address) (value : Nat)
  | burn (value : Nat)
  | transferOwnership (newOwner : Address)

structure TokenTx where
  sender : Address
  timestamp : Nat
  call : TokenCall

namespace CregToken
variable (evm : Evm)

def call (token : CregToken) (tx : TokenTx) : Result :=
  match tx.call with
  | .transfer dst value => token.transfer tx.sender dst value
  | .transferFrom src dst value => token.transferFrom tx.sender src dst value
  | .approve spender value => token.approve tx.sender spender value
  | .permit owner spender value deadline v r s => token.permit evm tx.timestamp owner spender value deadline v r s
  | .mint dst value => token.mint tx.sender dst value
  | .burn value => token.burn tx.sender value
  | .transferOwnership newOwner => token.transferOwnership tx.sender newOwner

def next (token : CregToken) (tx : TokenTx) : CregToken :=
  match token.call evm tx with
  | .ok (after,_) => after
  | .error _ => token

variable {evm} {token after : CregToken} {logs : List Log} {value : Nat}

structure Supplied (token : CregToken) : Prop where
  total : Ledger.total id token.balances = token.totalSupply
  capped : token.totalSupply ≤ maxSupply

theorem total_setBalance (token : CregToken) (account : Address) (value : Nat) :
    total id (token.setBalance account value).balances + token.balanceOf account =
      total id token.balances + value :=
  total_insert id rfl token.balances account value

theorem move_supplied {src dst : Address} (ok : token.move src dst value = .ok (after,logs)) (supplied : token.Supplied) :
    after.Supplied := by
  simp only [move,bind_ok,require_ok,checkedSub_ok,checkedAdd_ok,exists_const,pair_ok] at ok
  obtain ⟨covered,_,⟨_,rfl⟩,_,⟨_,rfl⟩,rfl,rfl⟩ := ok
  refine ⟨?_,supplied.capped⟩
  have debit := token.total_setBalance src (token.balanceOf src - value)
  have credit := (token.setBalance src (token.balanceOf src - value)).total_setBalance dst
    ((token.setBalance src (token.balanceOf src - value)).balanceOf dst + value)
  have before := supplied.total
  change _ = token.totalSupply
  omega

theorem issue_supplied {account : Address} (ok : token.issue account value = .ok (after,logs)) (supplied : token.Supplied) :
    after.Supplied := by
  simp only [issue,bind_ok,require_ok,checkedAdd_ok,exists_const,pair_ok] at ok
  obtain ⟨_,⟨_,rfl⟩,within,_,⟨_,rfl⟩,rfl,rfl⟩ := ok
  refine ⟨?_,within⟩
  have credit := token.total_setBalance account (token.balanceOf account + value)
  have before := supplied.total
  change total id (token.setBalance account _).balances = token.totalSupply + value
  omega

theorem burn_supplied {sender : Address} (ok : token.burn sender value = .ok (after,logs)) (supplied : token.Supplied) :
    after.Supplied := by
  simp only [burn,bind_ok,require_ok,checkedSub_ok,exists_const,pair_ok] at ok
  obtain ⟨_,_,⟨_,rfl⟩,_,⟨_,rfl⟩,rfl,rfl⟩ := ok
  refine ⟨?_,(Nat.sub_le _ _).trans supplied.capped⟩
  have debit := token.total_setBalance sender (token.balanceOf sender - value)
  have before := supplied.total
  change total id (token.setBalance sender _).balances = token.totalSupply - value
  omega

theorem call_supplied {tx : TokenTx} (ok : token.call evm tx = .ok (after,logs)) (supplied : token.Supplied) :
    after.Supplied := by
  obtain ⟨sender,timestamp,called⟩ := tx
  cases called with
  | transfer dst value => exact move_supplied ok supplied
  | transferFrom src dst value =>
    simp only [call,transferFrom,bind_ok,require_and] at ok
    obtain ⟨_,left,_,moved⟩ := ok
    have allowed : (token.setAllowance src sender left).Supplied := ⟨supplied.total,supplied.capped⟩
    exact move_supplied moved allowed
  | approve spender value =>
    cases ok
    exact ⟨supplied.total,supplied.capped⟩
  | permit owner spender value deadline v r s =>
    simp only [call,permit,bind_ok,require_and,pair_ok] at ok
    obtain ⟨_,_,_,_,rfl,_⟩ := ok
    exact ⟨supplied.total,supplied.capped⟩
  | mint dst value =>
    simp only [call,mint,bind_ok,require_and] at ok
    exact issue_supplied ok.2 supplied
  | burn value => exact burn_supplied ok supplied
  | transferOwnership newOwner =>
    simp only [call,transferOwnership,bind_ok,require_and,pair_ok] at ok
    obtain ⟨_,_,rfl,_⟩ := ok
    exact ⟨supplied.total,supplied.capped⟩

theorem next_supplied (token : CregToken) (tx : TokenTx) (supplied : token.Supplied) : (token.next evm tx).Supplied := by
  unfold next
  split
  · rename_i done
    exact call_supplied done supplied
  · exact supplied

theorem undistributed_supplied (evm : Evm) (self sender treasury : Address) : (undistributed evm self sender treasury).Supplied :=
  ⟨rfl,Nat.zero_le _⟩

theorem deploy_supplied {self sender treasury team investors community : Address}
    (deployed : deploy evm self sender treasury team investors community = .ok (token,logs)) : token.Supplied := by
  simp only [deploy,bind_ok,Prod.exists,pair_ok] at deployed
  obtain ⟨_,_,first,_,_,second,_,_,third,_,_,fourth,rfl,_⟩ := deployed
  exact issue_supplied fourth (issue_supplied third (issue_supplied second
    (issue_supplied first (undistributed_supplied evm self sender treasury))))

theorem Supplied.sum (supplied : token.Supplied) : finsum token.balanceOf = token.totalSupply := by
  rw [← supplied.total]
  exact (total_eq_finsum id rfl token.balances).symm

/-- The balances of all addresses sum up to the supply, which stays capped. -/
theorem supply_is_sum_of_balances {self sender treasury team investors community : Address}
    (deployed : deploy evm self sender treasury team investors community = .ok (token,logs)) (txs : List TokenTx) :
    Throughout (next evm) (fun token => finsum token.balanceOf = token.totalSupply ∧ token.totalSupply ≤ maxSupply)
      token txs := by
  refine throughout_always next_supplied ?_ token txs (deploy_supplied deployed)
  intro token supplied
  exact ⟨supplied.sum,supplied.capped⟩

theorem supply_of_one_holder : ∃ token logs, deploy Small.evm 1 3 5 10 10 10 = .ok (token,logs) ∧
    Throughout (next Small.evm) (fun token => finsum token.balanceOf = token.totalSupply ∧ token.totalSupply ≤ maxSupply)
      token [⟨10,100,.transfer 10 7⟩,⟨3,100,.mint 10 5⟩,⟨10,100,.burn 3⟩] := by
  have succeeds : (deploy Small.evm 1 3 5 10 10 10).isOk := by decide +kernel
  obtain ⟨⟨token,logs⟩,deployed⟩ := isOk_iff.mp succeeds
  exact ⟨token,logs,deployed,supply_is_sum_of_balances deployed _⟩

end CregToken
end ChainRegistry
