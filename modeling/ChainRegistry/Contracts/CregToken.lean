import ChainRegistry.Contracts.Evm
import ChainRegistry.Lib.Ledger
import Mathlib.Tactic.Linarith

/-! The token: `contracts/CregToken.sol`. Its functions return `true` whenever they
return, so the result of `transfer`, `approve` and `transferFrom` is left out. -/
namespace ChainRegistry
open Lib Fallible Ledger Abi

structure CregToken where
  totalSupply : Nat
  (owner treasury : Address)
  balances : Table Address Nat
  allowances : Table (Address × Address) Nat
  nonces : Table Address Nat
  domainSeparator : Word
  deriving DecidableEq

namespace CregToken
def maxSupply : Nat := 42000000 * 10 ^ 18

def balanceOf (token : CregToken) (account : Address) : Nat := read 0 token.balances account

def allowance (token : CregToken) (owner spender : Address) : Nat := read 0 token.allowances (owner,spender)

def nonceOf (token : CregToken) (owner : Address) : Nat := read 0 token.nonces owner

def setBalance (token : CregToken) (account : Address) (value : Nat) : CregToken :=
  {token with balances := token.balances.insert account value}

def setAllowance (token : CregToken) (owner spender : Address) (value : Nat) : CregToken :=
  {token with allowances := token.allowances.insert (owner,spender) value}

abbrev Result := Except Revert (CregToken × List Log)

/-- `_transfer`. The second balance is read after the first is written. -/
def move (src dst : Address) (value : Nat) (token : CregToken) : Result := do
  require (value ≤ token.balanceOf src) (.message "ERC20: insufficient balance")
  let left ← checkedSub (token.balanceOf src) value
  let debited := token.setBalance src left
  let received ← checkedAdd (debited.balanceOf dst) value
  return (debited.setBalance dst received,[.transfer src dst value])

/-- `_mint`. -/
def issue (account : Address) (value : Nat) (token : CregToken) : Result := do
  let supply ← checkedAdd token.totalSupply value
  require (supply ≤ maxSupply) (.message "CREG: exceeds max supply of 42,000,000")
  let received ← checkedAdd (token.balanceOf account) value
  return ({token.setBalance account received with totalSupply := supply},[.transfer 0 account value])

def transfer (sender dst : Address) (value : Nat) (token : CregToken) : Result := token.move sender dst value

def approve (sender spender : Address) (value : Nat) (token : CregToken) : Result :=
  .ok (token.setAllowance sender spender value,[.approval sender spender value])

def transferFrom (sender src dst : Address) (value : Nat) (token : CregToken) : Result := do
  require (value ≤ token.allowance src sender) (.message "ERC20: insufficient allowance")
  let left ← checkedSub (token.allowance src sender) value
  (token.setAllowance src sender left).move src dst value

/-- `burn`, with `_burn`. -/
def burn (sender : Address) (value : Nat) (token : CregToken) : Result := do
  require (value ≤ token.balanceOf sender) (.message "ERC20: insufficient balance")
  let left ← checkedSub (token.balanceOf sender) value
  let supply ← checkedSub token.totalSupply value
  return ({token.setBalance sender left with totalSupply := supply},[.transfer sender 0 value])

def mint (sender dst : Address) (value : Nat) (token : CregToken) : Result := do
  require (sender = token.owner) (.message "Ownable: caller is not the owner")
  token.issue dst value

def transferOwnership (sender newOwner : Address) (token : CregToken) : Result := do
  require (sender = token.owner) (.message "Ownable: caller is not the owner")
  require (newOwner ≠ 0) (.message "Ownable: new owner is the zero address")
  return ({token with owner := newOwner},[.ownershipTransferred token.owner newOwner])

variable (evm : Evm)

def permitDigest (owner spender : Address) (value deadline : Nat) (token : CregToken) : Word :=
  Eip712.digest evm token.domainSeparator (evm.keccak256 (encode
    [evm.keccak256 (Text.bytes "Permit(address owner,address spender,uint256 value,uint256 nonce,uint256 deadline)"),
      ofAddress owner,ofAddress spender,ofUint value,ofUint (token.nonceOf owner),ofUint deadline]))

def permit (now : Nat) (owner spender : Address) (value deadline : Nat) (v : UInt8) (r s : Word)
    (token : CregToken) : Result := do
  require (now ≤ deadline) (.message "ERC20Permit: expired deadline")
  let next ← checkedAdd (token.nonceOf owner) 1
  let signer := evm.ecrecover (token.permitDigest evm owner spender value deadline) v r s
  require (signer ≠ 0 ∧ signer = owner) (.message "ERC20Permit: invalid signature")
  return ({token.setAllowance owner spender value with nonces := token.nonces.insert owner next},
    [.approval owner spender value])

def undistributed (self sender treasury : Address) : CregToken where
  totalSupply := 0
  owner := sender
  treasury := treasury
  balances := ∅
  allowances := ∅
  nonces := ∅
  domainSeparator := Eip712.domainSeparator evm "Chain Registry Token" self

def deploy (self sender treasury team investors community : Address) : Result := do
  let (token,first) ← (undistributed evm self sender treasury).issue team (4000000 * 10 ^ 18)
  let (token,second) ← token.issue investors (3000000 * 10 ^ 18)
  let (token,third) ← token.issue community (5000000 * 10 ^ 18)
  let (token,fourth) ← token.issue treasury (8000000 * 10 ^ 18)
  return (token,first ++ second ++ third ++ fourth)

def getVotes (token : CregToken) (account : Address) : Nat := token.balanceOf account

def sqrtLoop (x : Nat) : Nat → Nat → Nat → Except Revert Nat
  | 0, y, _ => .ok y
  | turns + 1, y, z =>
    if z < y then do
      let quotient ← checkedDiv x z
      let sum ← checkedAdd quotient z
      sqrtLoop x turns z (sum / 2)
    else .ok y

def sqrt (x : Nat) : Except Revert Nat :=
  if x = 0 then .ok 0
  else do
    let next ← checkedAdd x 1
    sqrtLoop x x x (next / 2)

def quadraticVotingPower (votes : Nat) : Except Revert Nat :=
  if votes = 0 then .ok 0
  else do
    let root ← sqrt votes
    checkedMul root (10 ^ 9)

variable {token after : CregToken} {logs : List Log}

theorem balanceOf_setBalance (token : CregToken) (account other : Address) (value : Nat) :
    (token.setBalance account value).balanceOf other = if other = account then value else token.balanceOf other :=
  read_insert _ _ _ _ _

theorem allowance_setAllowance (token : CregToken) (owner spender a b : Address) (value : Nat) :
    (token.setAllowance owner spender value).allowance a b =
      if (a,b) = (owner,spender) then value else token.allowance a b :=
  read_insert _ _ _ _ _

def shifted (token : CregToken) (src dst : Address) (value : Nat) (account : Address) : Nat :=
  if src = dst then token.balanceOf account
  else if account = src then token.balanceOf account - value
  else if account = dst then token.balanceOf account + value
  else token.balanceOf account

structure Moved (token : CregToken) (src dst : Address) (value : Nat) (after : CregToken) (logs : List Log) : Prop where
  covered : value ≤ token.balanceOf src
  balances : ∀ account, after.balanceOf account = token.shifted src dst value account
  allowances : after.allowances = token.allowances
  logged : logs = [.transfer src dst value]

theorem move_ok {src dst : Address} {value : Nat} (moved : token.move src dst value = .ok (after,logs)) :
    Moved token src dst value after logs := by
  simp only [move,bind_ok,require_ok,checkedSub_ok,checkedAdd_ok,exists_const,pair_ok] at moved
  obtain ⟨covered,_,⟨_,rfl⟩,_,⟨_,rfl⟩,rfl,rfl⟩ := moved
  refine ⟨covered,?_,rfl,rfl⟩
  intro account
  simp only [balanceOf_setBalance,shifted]
  by_cases loop : src = dst
  · subst loop
    by_cases same : account = src
    · subst same
      simp only [if_true]
      omega
    · simp [same]
  · by_cases first : account = src
    · subst first
      simp [loop]
    · by_cases second : account = dst
      · subst second
        simp [loop,first]
      · simp [loop,first,second]

theorem transferFrom_ok {sender src dst : Address} {value : Nat}
    (moved : token.transferFrom sender src dst value = .ok (after,logs)) :
    value ≤ token.allowance src sender ∧
      Moved (token.setAllowance src sender (token.allowance src sender - value)) src dst value after logs := by
  simp only [transferFrom,bind_ok,require_ok,checkedSub_ok,exists_const] at moved
  obtain ⟨allowed,_,⟨_,rfl⟩,moved⟩ := moved
  exact ⟨allowed,move_ok moved⟩

theorem sqrtLoop_ok {x : Nat} (small : x + 1 < 2 ^ 256) (turns y : Nat) (positive : 0 < y) (below : y ≤ x) (enough : y ≤ turns)
    (above : x < (y + 1) * (y + 1)) :
    ∃ root, sqrtLoop x turns y ((x / y + y) / 2) = .ok root ∧ root * root ≤ x ∧ x < (root + 1) * (root + 1) := by
  induction turns generalizing y with
  | zero => omega
  | succ turns ih =>
    have quotient : 1 ≤ x / y := (Nat.le_div_iff_mul_le positive).mpr (by omega)
    by_cases less : (x / y + y) / 2 < y
    · generalize next : (x / y + y) / 2 = z at *
      have above : x < (z + 1) * (z + 1) := by
        have product := Nat.lt_mul_div_succ x positive
        have mean : x / y + y + 1 ≤ 2 * (z + 1) := by omega
        nlinarith [Nat.mul_le_mul mean mean,sq_nonneg ((x / y + 1 : Int) - y)]
      have least : 0 < z := by omega
      have fits : x / z + z < 2 ^ 256 := by
        have product := Nat.div_mul_le_self x z
        have one : 1 ≤ x / z := (Nat.le_div_iff_mul_le least).mpr (by omega)
        nlinarith
      obtain ⟨root,done,bounds⟩ := ih z least (by omega) (by omega) above
      refine ⟨root,?_,bounds⟩
      simp only [sqrtLoop,if_pos less,bind_ok,checkedDiv_ok,checkedAdd_ok]
      exact ⟨_,⟨least.ne',rfl⟩,_,⟨fits,rfl⟩,done⟩
    · refine ⟨y,by rw [sqrtLoop,if_neg less],?_,above⟩
      exact (Nat.le_div_iff_mul_le positive).mp (by omega)

/-- The loop ends without overflow with the integer square root. -/
theorem sqrt_exact {x : Nat} (small : x < 2 ^ 256 - 1) : ∃ y, sqrt x = .ok y ∧ y * y ≤ x ∧ x < (y + 1) * (y + 1) ∧
    ∀ other, other * other ≤ x → x < (other + 1) * (other + 1) → other = y := by
  have unique : ∀ y other, y * y ≤ x → x < (other + 1) * (other + 1) → y ≤ other := by
    intro y other root bound
    exact Nat.le_of_lt_succ (Nat.mul_self_lt_mul_self_iff.mp (root.trans_lt bound))
  suffices found : ∃ y, sqrt x = .ok y ∧ y * y ≤ x ∧ x < (y + 1) * (y + 1) by
    obtain ⟨y,done,root,bound⟩ := found
    exact ⟨y,done,root,bound,fun other lower upper => (unique other y lower bound).antisymm (unique y other root upper)⟩
  by_cases zero : x = 0
  · exact ⟨0,by rw [sqrt,if_pos zero],by omega,by omega⟩
  · have small : x + 1 < 2 ^ 256 := by omega
    obtain ⟨y,done,bounds⟩ := sqrtLoop_ok small x x (by omega) le_rfl le_rfl (by nlinarith)
    refine ⟨y,?_,bounds⟩
    rw [Nat.div_self (by omega),Nat.add_comm] at done
    simp only [sqrt,if_neg zero,bind_ok,checkedAdd_ok]
    exact ⟨_,⟨small,rfl⟩,done⟩

theorem sqrt_of_ten : sqrt 10 = .ok 3 := by
  obtain ⟨y,done,_,_,unique⟩ := sqrt_exact (x := 10) (by decide)
  rw [done,unique 3 (by decide) (by decide)]

end CregToken
end ChainRegistry
