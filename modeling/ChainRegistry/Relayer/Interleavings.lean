import ChainRegistry.Lib.Runs
import ChainRegistry.Relayer.Sponsor

/-! Concurrent calls of `sponsor_request` on the maps that they share: the interleavings that
keep the nonces and the quotas, and one that does not. -/
namespace ChainRegistry.Relayer
open Lib Usage Runs Fallible List Text AppState SetSync

section Accounts
variable (crates : RelayerCrates)

namespace Call
variable (call : Call)

def sentFor : Option (Address × Nat) :=
  match call.stage,parseU64 crates call.request.intentMessage.relayerNonce "relayer nonce" with
  | .recording admitted (.sent _),.ok nonce => some (admitted.prepared.owner,nonce)
  | _,_ => none

def sentByWallet : Option (String × Nat) :=
  match call.stage with
  | .recording admitted (.sent day) => some (admitted.walletKey crates,day)
  | _ => none

variable (config : RelayerConfig)

def sentByIp (call : Call) : Option (String × Nat) :=
  match call.stage with
  | .recording _ (.sent day) => some (ipQuotaKey config.activeChainId call.clientIp,day)
  | _ => none

def takesNonce : Option Admitted :=
  match call.stage with
  | .recording admitted .permitted => some admitted
  | _ => none

def writesWallet : Option String :=
  match call.stage with
  | .recording admitted (.walletRead _) => some (admitted.walletKey crates)
  | _ => none

def writesIp (call : Call) : Option String :=
  match call.stage with
  | .recording _ (.ipRead _) => some (ipQuotaKey config.activeChainId call.clientIp)
  | _ => none

def counting : Bool :=
  match call.stage with
  | .recording _ (.walletRead _) | .recording _ .walletRecorded | .recording _ (.ipRead _) | .recording _ .ipRecorded => true
  | _ => false

end Call

namespace Process
structure Safe (process : Process) : Prop where
  nonce_once : ∀ owner nonce, uses (Call.sentFor crates) process.calls (owner,nonce) ≤ 1
  wallet_quota : ∀ key day,
    uses (Call.sentByWallet crates) process.calls (key,day) ≤ process.state.policy.chain.dailyWalletQuota
  ip_quota : ∀ key day,
    uses (Call.sentByIp process.state.config) process.calls (key,day) ≤ process.state.policy.chain.dailyIpQuota

/-- A nonce is written while the map still has the one that was compared, a counter while it is
below the quota and no other call is about to write it, and no day ends between the first read
of a counter and the send. -/
def Undisturbed (process : Process) : Event → Prop
  | .arrive _ _ => True
  | .advance i _ => ∀ call ∈ process.calls[i]?,
    (∀ admitted ∈ call.takesNonce,
      currentNonce process.state.sponsorNonces (admitted.nonceKey crates process.state.config) = admitted.expectedNonce ∧
        admitted.expectedNonce + 1 < 2 ^ 64) ∧
    (∀ key ∈ call.writesWallet crates,
      countOn process.state.walletDailyCounts (day process.now) key < process.state.policy.chain.dailyWalletQuota ∧
        ∀ other ∈ process.calls.eraseIdx i, other.writesWallet crates ≠ some key) ∧
    ∀ key ∈ call.writesIp process.state.config,
      countOn process.state.ipDailyCounts (day process.now) key < process.state.policy.chain.dailyIpQuota ∧
        ∀ other ∈ process.calls.eraseIdx i, other.writesIp process.state.config ≠ some key
  | .clock now => day process.now = day now ∨ day process.now < day now ∧ ∀ call ∈ process.calls, call.counting = false

instance decidableUndisturbed (process : Process) : (event : Event) → Decidable (process.Undisturbed crates event)
  | .arrive _ _ => isTrue trivial
  | .advance i _ => inferInstanceAs (Decidable (∀ call ∈ process.calls[i]?,_ ∧ _ ∧ _))
  | .clock now => inferInstanceAs (Decidable (day process.now = day now ∨ _ ∧ ∀ call ∈ process.calls,call.counting = false))

end Process

namespace Call
def nonceUse (config : RelayerConfig) (call : Call) : Option (String × Nat) :=
  match call.stage with
  | .recording _ .permitted => none
  | .recording admitted _ => some (admitted.nonceKey crates config,admitted.expectedNonce)
  | _ => none

def walletUse (today : Nat) (call : Call) : Option (String × Nat) :=
  match call.stage with
  | .recording admitted .walletRecorded | .recording admitted (.ipRead _) | .recording admitted .ipRecorded =>
    some (admitted.walletKey crates,today)
  | .recording admitted (.sent day) => some (admitted.walletKey crates,day)
  | _ => none

def ipUse (config : RelayerConfig) (today : Nat) (call : Call) : Option (String × Nat) :=
  match call.stage with
  | .recording _ .ipRecorded => some (ipQuotaKey config.activeChainId call.clientIp,today)
  | .recording _ (.sent day) => some (ipQuotaKey config.activeChainId call.clientIp,day)
  | _ => none

def compared (call : Call) : Option Nat :=
  match call.stage with
  | .fetching _ expected => some expected
  | .recording admitted _ => some admitted.expectedNonce
  | _ => none

structure Ready (state : AppState) (today : Nat) (call : Call) : Prop where
  provided : ∀ nonce, call.compared = some nonce →
    parseU64 crates call.request.intentMessage.relayerNonce "relayer nonce" = .ok nonce
  wallet : ∀ admitted counter, call.stage = .recording admitted (.walletRead counter) →
    counter = ⟨today,countOn state.walletDailyCounts today (admitted.walletKey crates) + 1⟩
  ip : ∀ admitted counter, call.stage = .recording admitted (.ipRead counter) →
    counter = ⟨today,countOn state.ipDailyCounts today (ipQuotaKey state.config.activeChainId call.clientIp) + 1⟩

end Call

structure Process.Accounted (process : Process) : Prop where
  nonces : Spent process.state.sponsorNonces (uses (Call.nonceUse crates process.state.config) process.calls)
  wallets : Counted process.state.walletDailyCounts process.state.policy.chain.dailyWalletQuota (day process.now)
    (uses (Call.walletUse crates (day process.now)) process.calls)
  ips : Counted process.state.ipDailyCounts process.state.policy.chain.dailyIpQuota (day process.now)
    (uses (Call.ipUse process.state.config (day process.now)) process.calls)
  ready : ∀ call ∈ process.calls, call.Ready crates process.state (day process.now)

end Accounts

section Steps
variable {crates : RelayerCrates} {process : Process} {state : AppState} {new : Call} {now : Nat}

theorem nextCount_eq (now : Nat) (store : Table String DailyCounter) (key : String) :
    nextCount now store key = ⟨day now,countOn store (day now) key + 1⟩ := by
  unfold nextCount countOn
  cases store.lookup key with
  | none => rfl
  | some entry => by_cases same : entry.day = day now <;> simp [same]

theorem mem_set_cases {calls : List Call} {i : Nat} {call new : Call} (inside : call ∈ calls.set i new) :
    call ∈ calls.eraseIdx i ∨ call = new := by
  obtain ⟨j,found⟩ := mem_iff_getElem?.mp inside
  by_cases same : i = j
  · subst same
    rw [List.getElem?_set] at found
    simp only [if_true] at found
    split_ifs at found
    exact .inr (Option.some.inj found).symm
  · rw [List.getElem?_set_ne same] at found
    exact .inl (List.mem_eraseIdx_iff_getElem?.mpr ⟨j,Ne.symm same,found⟩)

theorem Call.uses_at_rest (crates : RelayerCrates) {call : Call} (rest : call.counting = false) (config : RelayerConfig)
    (today other : Nat) :
    call.walletUse crates today = call.walletUse crates other ∧ call.ipUse config today = call.ipUse config other := by
  obtain ⟨clientIp,request,stage⟩ := call
  cases stage with
  | recording admitted progress =>
    cases progress with
    | walletRead | walletRecorded | ipRead | ipRecorded => cases rest
    | permitted | nonceTaken | sent => exact ⟨rfl,rfl⟩
  | received | validated | walletChecked | ipChecked | fetching | answered => exact ⟨rfl,rfl⟩

def Call.Fresh (call : Call) : Prop := ∀ admitted progress, call.stage = .recording admitted progress → progress = .permitted

namespace Call.Fresh
variable {call : Call} (fresh : call.Fresh)
include fresh

variable (config : RelayerConfig)

theorem nonceUse : call.nonceUse crates config = none := by
  unfold Call.nonceUse
  split
  · rfl
  · next written stage => exact (written (fresh _ _ stage)).elim
  · rfl

theorem walletUse (today : Nat) : call.walletUse crates today = none := by
  unfold Call.walletUse
  split
  all_goals first | rfl | next stage => cases fresh _ _ stage

theorem ipUse (today : Nat) : call.ipUse config today = none := by
  unfold Call.ipUse
  split
  all_goals first | rfl | next stage => cases fresh _ _ stage

end Call.Fresh

theorem Call.fresh_of_uncompared {call : Call} (uncompared : call.compared = none) : call.Fresh := by
  intro admitted progress stage
  rw [Call.compared,stage] at uncompared
  cases uncompared

theorem Call.provided_of_uncompared {call : Call} {holds : Nat → Prop} (uncompared : call.compared = none) :
    ∀ nonce, call.compared = some nonce → holds nonce := by
  intro nonce compared
  rw [uncompared] at compared
  cases compared

theorem Call.ready_of_unread {today : Nat} {call : Call} (provided : ∀ nonce, call.compared = some nonce →
      parseU64 crates call.request.intentMessage.relayerNonce "relayer nonce" = .ok nonce)
    (wallet : call.writesWallet crates = none) (ip : call.writesIp state.config = none) : call.Ready crates state today where
  provided := provided
  wallet admitted counter stage := by
    rw [Call.writesWallet,stage] at wallet
    cases wallet
  ip admitted counter stage := by
    rw [Call.writesIp,stage] at ip
    cases ip

theorem AppState.checked_spec {reply : Except String Nat} {call : Call} {stage : Stage}
    (ok : state.checked crates now reply call = .ok stage)
      (checks : ∀ admitted progress, call.stage ≠ .recording admitted progress)
    (ready : ∀ nonce, call.compared = some nonce →
      parseU64 crates call.request.intentMessage.relayerNonce "relayer nonce" = .ok nonce) :
    ({call with stage := stage} : Call).Fresh ∧
      ∀ nonce, ({call with stage := stage} : Call).compared = some nonce →
        parseU64 crates call.request.intentMessage.relayerNonce "relayer nonce" = .ok nonce := by
  unfold checked at ok
  cases before : call.stage with
  | recording admitted progress => exact absurd before (checks admitted progress)
  | answered answer => simp [before] at ok
  | received =>
    simp only [before,bind_ok,pure_ok] at ok
    obtain ⟨prepared,_,rfl⟩ := ok
    exact ⟨Call.fresh_of_uncompared rfl,Call.provided_of_uncompared rfl⟩
  | validated | walletChecked =>
    simp only [before,bind_ok,pure_ok] at ok
    obtain ⟨_,_,rfl⟩ := ok
    exact ⟨Call.fresh_of_uncompared rfl,Call.provided_of_uncompared rfl⟩
  | ipChecked prepared =>
    simp only [before,bind_ok,mapError_ok,check_ok,pure_ok,not_not] at ok
    obtain ⟨provided,parsed,same,_,_,rfl⟩ := ok
    constructor
    · intro admitted progress stage
      cases stage
    · intro nonce compared
      obtain rfl : _ = nonce := Option.some.inj compared
      rw [parsed,same]
  | fetching prepared expected =>
    simp only [before,bind_ok,check_ok,pure_ok] at ok
    obtain ⟨_,_,_,_,_,_,_,rfl⟩ := ok
    constructor
    · intro admitted progress same
      cases same
      rfl
    · intro nonce compared
      exact ready nonce (by simpa [Call.compared,before] using compared)

namespace Process
theorem Accounted.set {i : Nat}
    (nonces : Spent state.sponsorNonces (uses (Call.nonceUse crates state.config) (process.calls.set i new)))
    (wallets : Counted state.walletDailyCounts state.policy.chain.dailyWalletQuota (day process.now)
      (uses (Call.walletUse crates (day process.now)) (process.calls.set i new)))
    (ips : Counted state.ipDailyCounts state.policy.chain.dailyIpQuota (day process.now)
      (uses (Call.ipUse state.config (day process.now)) (process.calls.set i new)))
    (others : ∀ other ∈ process.calls.eraseIdx i, other.Ready crates state (day process.now))
    (ready : new.Ready crates state (day process.now)) :
    Accounted crates {process with state := state, calls := process.calls.set i new} where
  nonces := nonces
  wallets := wallets
  ips := ips
  ready call inside := by
    rcases mem_set_cases inside with other | rfl
    · exact others call other
    · exact ready

section
variable (accounted : process.Accounted crates)
include accounted

theorem Accounted.replace {i : Nat} {call new : Call} (found : process.calls[i]? = some call)
    (nonce : new.nonceUse crates process.state.config = call.nonceUse crates process.state.config)
    (wallet : new.walletUse crates (day process.now) = call.walletUse crates (day process.now))
    (ip : new.ipUse process.state.config (day process.now) = call.ipUse process.state.config (day process.now))
    (ready : new.Ready crates process.state (day process.now)) :
    Accounted crates {process with calls := process.calls.set i new} := by
  refine Accounted.set ?_ ?_ ?_ (fun other inside => accounted.ready other (mem_of_mem_eraseIdx inside)) ready
  · exact accounted.nonces.congr (uses_set_same found nonce)
  · exact accounted.wallets.congr (uses_set_same found wallet)
  · exact accounted.ips.congr (uses_set_same found ip)

theorem Accounted.arrive (clientIp : String) (request : SponsorRequest) :
    (process.step crates (.arrive clientIp request)).Accounted crates where
  nonces := accounted.nonces.congr (uses_append_free _ _ rfl)
  wallets := accounted.wallets.congr (uses_append_free _ _ rfl)
  ips := accounted.ips.congr (uses_append_free _ _ rfl)
  ready call inside := by
    rcases mem_append.mp inside with before | last
    · exact accounted.ready call before
    · obtain rfl := mem_singleton.mp last
      exact Call.ready_of_unread (Call.provided_of_uncompared rfl) rfl rfl

theorem Accounted.clock
    (allowed : process.Undisturbed crates (.clock now)) : (process.step crates (.clock now)).Accounted crates := by
  rcases allowed with same | ⟨later,idle⟩
  · obtain ⟨nonces,wallets,ips,ready⟩ := accounted
    rw [same] at wallets ips ready
    exact ⟨nonces,wallets,ips,ready⟩
  · have wallet := fun call inside => (Call.uses_at_rest crates (idle call inside) process.state.config
      (day now) (day process.now)).1
    have ip := fun call inside => (Call.uses_at_rest crates (idle call inside) process.state.config
      (day now) (day process.now)).2
    constructor
    · exact accounted.nonces
    · exact (accounted.wallets.advance later).congr (uses_congr wallet)
    · exact (accounted.ips.advance later).congr (uses_congr ip)
    · intro call inside
      have quiet := idle call inside
      refine ⟨(accounted.ready call inside).provided,?_,?_⟩
      all_goals
        intro admitted counter stage
        simp [Call.counting,stage] at quiet

end

variable {i : Nat} {call : Call} {reply : Except String Nat}

theorem step_checks (found : process.calls[i]? = some call)
    (checks : ∀ admitted progress, call.stage ≠ .recording admitted progress) :
    process.step crates (.advance i reply) =
      match process.state.checked crates process.now reply call with
      | .ok stage => {process with calls := process.calls.set i {call with stage := stage}}
      | .error answer => {process with calls := process.calls.set i {call with stage := .answered answer}} := by
  cases stage : call.stage with
  | recording admitted progress => exact absurd stage (checks admitted progress)
  | received | validated | walletChecked | ipChecked | fetching | answered =>
    cases answered : process.state.checked crates process.now reply call with
    | ok | error => simp only [step,found,stage,answered]

section
variable (accounted : process.Accounted crates) (found : process.calls[i]? = some call)
include accounted found

theorem Accounted.fresh (before : call.Fresh) (after : new.Fresh) (provided : ∀ nonce, new.compared = some nonce →
      parseU64 crates new.request.intentMessage.relayerNonce "relayer nonce" = .ok nonce) :
    Accounted crates {process with calls := process.calls.set i new} := by
  apply accounted.replace found
  · rw [after.nonceUse,before.nonceUse]
  · rw [after.walletUse,before.walletUse]
  · rw [after.ipUse,before.ipUse]
  · refine ⟨provided,?_,?_⟩
    all_goals
      intro admitted counter stage
      cases after admitted _ stage

theorem Accounted.check (checks : ∀ admitted progress, call.stage ≠ .recording admitted progress) :
    (process.step crates (.advance i reply)).Accounted crates := by
  have ready := accounted.ready call (List.mem_of_getElem? found)
  have before : call.Fresh := fun admitted progress stage => absurd stage (checks admitted progress)
  rw [step_checks found checks]
  cases result : process.state.checked crates process.now reply call with
  | error answer =>
    exact accounted.fresh found before (Call.fresh_of_uncompared rfl) (Call.provided_of_uncompared rfl)
  | ok stage =>
    obtain ⟨fresh,provided⟩ := checked_spec result checks ready.provided
    exact accounted.fresh found before fresh provided

theorem Accounted.record {admitted : Admitted} {progress : Progress} (stage : call.stage = .recording admitted progress)
    (allowed : process.Undisturbed crates (.advance i reply)) :
    (process.step crates (.advance i reply)).Accounted crates := by
  have ready := accounted.ready call (List.mem_of_getElem? found)
  have others : ∀ other ∈ process.calls.eraseIdx i, other.Ready crates process.state (day process.now) :=
    fun other inside => accounted.ready other (mem_of_mem_eraseIdx inside)
  obtain ⟨takes,wallet,ip⟩ := allowed call found
  obtain ⟨clientIp,request,_⟩ := call
  obtain rfl := stage
  simp only [step,found]
  cases progress with
  | permitted =>
    obtain ⟨current,small⟩ := takes admitted rfl
    simp only [recorded]
    rw [Nat.mod_eq_of_lt small]
    apply Accounted.set
    · exact accounted.nonces.take current (uses_set_taken found rfl rfl)
    · exact accounted.wallets.congr (uses_set_same found rfl)
    · exact accounted.ips.congr (uses_set_same found rfl)
    · exact fun other inside => ⟨(others other inside).provided,(others other inside).wallet,(others other inside).ip⟩
    · exact Call.ready_of_unread ready.provided rfl rfl
  | nonceTaken =>
    refine accounted.replace found rfl rfl rfl ?_
    refine ⟨ready.provided,?_,?_⟩
    · intro holder counter same
      cases same
      exact nextCount_eq _ _ _
    · intro holder counter same
      cases same
  | walletRead counter =>
    have read : counter = ⟨day process.now,
        countOn process.state.walletDailyCounts (day process.now) (admitted.walletKey crates) + 1⟩ :=
      ready.wallet admitted counter rfl
    subst read
    obtain ⟨room,apart⟩ := wallet _ rfl
    apply Accounted.set
    · exact accounted.nonces.congr (uses_set_same found rfl)
    · exact accounted.wallets.record room (uses_set_taken found rfl rfl)
    · exact accounted.ips.congr (uses_set_same found rfl)
    · intro other inside
      refine ⟨(others other inside).provided,?_,(others other inside).ip⟩
      intro holder counter reads
      have differ : holder.walletKey crates ≠ admitted.walletKey crates := by
        intro same
        exact apart other inside (by rw [Call.writesWallet,reads,← same])
      simp only [recorded]
      rw [countOn_insert,if_neg differ]
      exact (others other inside).wallet holder counter reads
    · exact Call.ready_of_unread ready.provided rfl rfl
  | walletRecorded =>
    refine accounted.replace found rfl rfl rfl ?_
    refine ⟨ready.provided,?_,?_⟩
    · intro holder counter same
      cases same
    · intro holder counter same
      cases same
      exact nextCount_eq _ _ _
  | ipRead counter =>
    have read : counter = ⟨day process.now,countOn process.state.ipDailyCounts (day process.now)
        (ipQuotaKey process.state.config.activeChainId clientIp) + 1⟩ := ready.ip admitted counter rfl
    subst read
    obtain ⟨room,apart⟩ := ip _ rfl
    apply Accounted.set
    · exact accounted.nonces.congr (uses_set_same found rfl)
    · exact accounted.wallets.congr (uses_set_same found rfl)
    · exact accounted.ips.record room (uses_set_taken found rfl rfl)
    · intro other inside
      refine ⟨(others other inside).provided,(others other inside).wallet,?_⟩
      intro holder counter reads
      have differ : ipQuotaKey process.state.config.activeChainId other.clientIp ≠
          ipQuotaKey process.state.config.activeChainId clientIp := by
        intro same
        exact apart other inside (by rw [Call.writesIp,reads,← same])
      simp only [recorded]
      rw [countOn_insert,if_neg differ]
      exact (others other inside).ip holder counter reads
    · exact Call.ready_of_unread ready.provided rfl rfl
  | ipRecorded | sent => exact accounted.replace found rfl rfl rfl (Call.ready_of_unread ready.provided rfl rfl)

end

theorem Accounted.step (accounted : process.Accounted crates) (event : Event)
    (allowed : process.Undisturbed crates event) : (process.step crates event).Accounted crates := by
  cases event with
  | arrive clientIp request => exact accounted.arrive clientIp request
  | clock now => exact accounted.clock allowed
  | advance i reply =>
    cases found : process.calls[i]? with
    | none =>
      simp only [Process.step,found]
      exact accounted
    | some call =>
      by_cases recording : ∃ admitted progress, call.stage = .recording admitted progress
      · obtain ⟨admitted,progress,stage⟩ := recording
        exact accounted.record found stage allowed
      · refine accounted.check found ?_
        intro admitted progress stage
        exact recording ⟨admitted,progress,stage⟩

theorem accounted_start (config : RelayerConfig) (policy : LoadedPolicy) (restored : Table String Nat) (now : Nat) :
    (start config policy restored now).Accounted crates where
  nonces := spent_none restored
  wallets := counted_none _ _
  ips := counted_none _ _
  ready := nofun

theorem Accounted.safe (accounted : process.Accounted crates) : process.Safe crates where
  nonce_once owner nonce := by
    refine le_trans (uses_le ?_) (accounted.nonces.once (sponsorNonceKey crates process.state.config.activeChainId owner) nonce)
    intro call inside sent
    have provided := (accounted.ready call inside).provided
    unfold Call.sentFor at sent
    split at sent
    · next admitted _ parsed stage read =>
      cases sent
      have same := provided admitted.expectedNonce (by rw [Call.compared,stage])
      rw [read] at same
      rw [Call.nonceUse,stage]
      simp [Admitted.nonceKey,Except.ok.inj same]
    · cases sent
  wallet_quota key day := by
    refine le_trans (uses_le ?_) (accounted.wallets.within key day)
    intro call _ sent
    unfold Call.sentByWallet at sent
    split at sent
    · next stage =>
      rw [Call.walletUse,stage]
      exact sent
    · cases sent
  ip_quota key day := by
    refine le_trans (uses_le ?_) (accounted.ips.within key day)
    intro call _ sent
    unfold Call.sentByIp at sent
    split at sent
    · next stage =>
      rw [Call.ipUse,stage]
      exact sent
    · cases sent

end Process
end Steps

/-- In every run in which no write of a call is disturbed, no nonce of an owner is sent twice and
no quota is passed, in every state. -/
theorem undisturbed_calls_safe (crates : RelayerCrates) (config : RelayerConfig) (policy : LoadedPolicy)
    (restored : Table String Nat) (now : Nat) (events : List Event)
    (undisturbed : Along (Process.step crates) (Process.Undisturbed crates) (.start config policy restored now) events) :
    Throughout (Process.step crates) (Process.Safe crates) (.start config policy restored now) events :=
  throughout_run (fun _ event accounted => accounted.step event) (fun _ accounted => accounted.safe) _ events
    (Process.accounted_start config policy restored now) undisturbed

namespace Sponsored
def amongFirst (text : String) : Except String Nat :=
  match (List.range 10).find? fun n => toString n = text with
  | some n => .ok n
  | none => .error "invalid digit found in string"

def crates : RelayerCrates where
  address text :=
    match [1,2,3].find? fun a => addressText a = text with
    | some a => .ok a
    | none => .error "invalid string length"
  u256 := amongFirst
  u64 := amongFirst
  keccak256 _ := 1
  signatureFormat _ := .ok ()
  recoverFromPrehash _ _ _ := .ok [4,1]

def config : RelayerConfig := ⟨9,1⟩

def policy : LoadedPolicy := ⟨"Relayer","1",8,⟨1,1,[2,3],fun _ => some 5⟩⟩

def signature : String := hexEncode (List.replicate 65 0)

def request : SponsorRequest where
  action := "publisher"
  permitMessage := ⟨addressText 1,addressText 3,"5","0","8"⟩
  intentMessage := ⟨addressText 1,addressText 2,addressText 3,0,"5","0","8","0","8"⟩
  permitSignature := signature
  intentSignature := signature

def start : Process := .start config policy ∅ 0

def steps (i count : Nat) : List Event := List.replicate count (.advance i (.ok 0))

def overlapping : List Event :=
  .arrive "10.0.0.1" request :: .arrive "10.0.0.1" request :: (steps 1 2 ++ (steps 0 11 ++ steps 1 11))

def together : List Event :=
  .arrive "10.0.0.1" request :: .arrive "10.0.0.1" request :: (steps 0 5 ++ (steps 1 5 ++ (steps 0 6 ++ steps 1 6)))

end Sponsored
open Sponsored

theorem overlapping_calls_safe : uses (Call.sentFor crates) (run (Process.step crates) start overlapping).calls (1,0) = 1 ∧
    Throughout (Process.step crates) (Process.Safe crates) start overlapping := by
  have undisturbed : Along (Process.step crates) (Process.Undisturbed crates) start overlapping := by decide +kernel
  exact ⟨by decide +kernel,undisturbed_calls_safe crates config policy ∅ 0 overlapping undisturbed⟩

theorem one_intent_sent_twice : uses (Call.sentFor crates) (run (Process.step crates) start together).calls (1,0) = 2 ∧
    uses (Call.sentByWallet crates) (run (Process.step crates) start together).calls (walletQuotaKey crates 1 .publisher,0) = 2 ∧
    uses (Call.sentByIp config) (run (Process.step crates) start together).calls (ipQuotaKey 1 "10.0.0.1",0) = 2 ∧
    ¬(run (Process.step crates) start together).Safe crates := by
  have twice : uses (Call.sentFor crates) (run (Process.step crates) start together).calls (1,0) = 2 := by decide +kernel
  refine ⟨twice,by decide +kernel,by decide +kernel,fun safe => ?_⟩
  have once := safe.nonce_once 1 0
  rw [twice] at once
  exact absurd once (by decide)

end ChainRegistry.Relayer
