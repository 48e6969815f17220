import ChainRegistry.Node.RegistryConvergence
import Mathlib.Data.Finset.Sort
import Mathlib.Data.String.Basic

/-! The identities of the active validators: `reconcile_state_from_worker` of
`crates/node/src/validator_set_sync.rs` with the registrations of `api.rs`. An active address gets
its identity from its registration, or else from the first set; only registrations are compared. -/
namespace ChainRegistry.ValidatorRegistry
open Lib Runs SetSync Fallible List Option Text Finset Function ValidatorIdentity Validator RegistrationProof

attribute [local irreducible] Text.trim Text.toAsciiLowercase

def ValidatorIdentity.isComplete (identity : ValidatorIdentity) : Bool :=
  !Text.isEmpty (trim identity.evmAddress) && !Text.isEmpty (trim identity.nodeId) &&
    !Text.isEmpty (trim identity.ed25519Pubkey)

def activeStatusFor (nodeId validatorId : String) : String := if validatorId = nodeId then "self" else "online"

def validatorFromRegistration (registration : ValidatorRegistrationStatus) (stake fallbackStake : Nat) (nodeId : String) :
    Option Validator :=
  let identity := registration.identity.normalized
  if identity.isComplete then
    some
      { id := identity.nodeId
        aliasName := if Text.isEmpty (trim registration.aliasName) then identity.nodeId
          else trim registration.aliasName
        pubkey := identity.ed25519Pubkey
        ethAddress := identity.evmAddress
        stake := max stake fallbackStake
        reputation := max registration.reputation 100
        status := activeStatusFor nodeId identity.nodeId }
  else none

def byAddress (validators : Validators) : Table String Validator :=
  validators.foldl (fun table v =>
    let address := normalizedValidatorKey v.ethAddress
    if Text.isEmpty address then table else table.insert address v) ∅

structure IdentityNode where
  nodeId : String
  config : ChainConfig
  (bootstrap validators : Validators)
  registrations : Registrations

inductive IdentityEvent
  -- the first lock of `apply_validator_registration`
  | register (proof : RegistrationProof)
  -- with any observed set; `stakes` are those of the registrations
  | reconcile (active : Finset String) (stakes : String → Nat)

namespace IdentityNode
def new (nodeId : String) (config : ChainConfig) (bootstrap : Validators) : IdentityNode :=
  ⟨nodeId,config,bootstrap,bootstrap,∅⟩

variable (node : IdentityNode) (stakes : String → Nat) (address : String)

def known : Option Validator :=
  ((byAddress node.validators).lookup address).or (((byAddress node.bootstrap).lookup address).or
    ((node.registrations.lookup address).bind fun registration =>
      validatorFromRegistration registration (stakes address) 0 node.nodeId))

/-- The registration of the address, if there is one, has the last word on id, alias and key. -/
def withRegistration (existing : Validator) : Validator :=
  match (node.registrations.lookup address).bind fun registration =>
    validatorFromRegistration registration (stakes address) existing.stake node.nodeId with
  | some registered =>
    {existing with
      id := registered.id
      aliasName := registered.aliasName
      pubkey := registered.pubkey
      stake := max existing.stake registered.stake
      reputation := max existing.reputation registered.reputation}
  | none => existing

def admitted : Option Validator :=
  (node.known stakes address).map fun existing =>
    let existing := node.withRegistration stakes address existing
    {existing with
      ethAddress := address
      status := activeStatusFor node.nodeId existing.id
      aliasName := if Text.isEmpty (trim existing.aliasName) then existing.id else existing.aliasName}

def reconcileStateFromWorker (active : Finset String) (node : IdentityNode) : IdentityNode :=
  {node with
    validators := (active.sort fun a b => a ≤ b).filterMap (node.admitted stakes)
    registrations := reconcile (some active) node.registrations}

def step (crates : Crates) (wallets : WalletCrates) (node : IdentityNode) : IdentityEvent → IdentityNode
  | .register proof =>
    match applyValidatorRegistration crates wallets node.config none node.registrations proof with
    | .ok (_,registrations) => {node with registrations := registrations}
    | .error _ => node
  | .reconcile active stakes => node.reconcileStateFromWorker stakes active

def Distinct : Prop :=
  (node.validators.map Validator.id).Nodup ∧ (node.validators.map pubkey).Nodup

/-- Of the addresses that become active, none is registered under the id or the key that the first set
has for another one without a registration. -/
def Apart : IdentityEvent → Prop
  | .register _ => True
  | .reconcile active _ => ∀ wallet ∈ active, ∀ other ∈ active, ∀ identity v,
      bindings node.registrations wallet = some identity → bindings node.registrations other = none →
        (byAddress node.bootstrap).lookup other = some v → identity.1 ≠ v.id ∧ identity.2 ≠ v.pubkey

end IdentityNode

theorem normalizedValidatorKey_twice (address : String) :
    normalizedValidatorKey (normalizedValidatorKey address) = normalizedValidatorKey address := by
  simp only [normalizedValidatorKey]
  rw [trim_toAsciiLowercase,trim_trim,toAsciiLowercase_twice]

theorem byAddress_some {validators : Validators} {address : String} {v : Validator}
    (found : (byAddress validators).lookup address = some v) :
    v ∈ validators ∧ normalizedValidatorKey v.ethAddress = address := by
  induction validators using List.reverseRecOn with
  | nil => simp [byAddress] at found
  | append_singleton validators last ih =>
    rw [byAddress,foldl_append,foldl_cons,foldl_nil] at found
    dsimp only at found
    have earlier : (byAddress validators).lookup address = some v →
        v ∈ validators ++ [last] ∧ normalizedValidatorKey v.ethAddress = address :=
      fun found => ⟨mem_append_left _ (ih found).1,(ih found).2⟩
    split_ifs at found with empty
    · exact earlier found
    · rw [Table.lookup_insert_eq] at found
      split_ifs at found with own
      · cases found
        exact ⟨by simp,own.symm⟩
      · exact earlier found

namespace IdentityNode
def identityAt (node : IdentityNode) (address : String) : Option (String × String) :=
  (bindings node.registrations address).or
    (((byAddress node.bootstrap).lookup address).map fun v => (v.id,v.pubkey))

structure Sound (node : IdentityNode) : Prop where
  registered : ∀ address registration, node.registrations.lookup address = some registration →
    normalizedValidatorKey address = address ∧ registration.identity.normalized = registration.identity ∧
      registration.identity.isComplete
  apart : ∀ wallet other first second, bindings node.registrations wallet = some first →
    bindings node.registrations other = some second → wallet ≠ other → first.1 ≠ second.1 ∧ first.2 ≠ second.2
  -- an entry without a registration has kept the identity of the first set
  origin : ∀ address v, (byAddress node.validators).lookup address = some v → bindings node.registrations address = none →
    ((byAddress node.bootstrap).lookup address).map (fun v => (v.id,v.pubkey)) = some (v.id,v.pubkey)

variable {node : IdentityNode} {address : String}

section
variable (sound : node.Sound) (stakes : String → Nat)
include sound stakes

theorem withRegistration_identity (address : String) (existing : Validator) :
    ((node.withRegistration stakes address existing).id,(node.withRegistration stakes address existing).pubkey) =
      (bindings node.registrations address).getD (existing.id,existing.pubkey) := by
  unfold withRegistration bindings
  cases found : node.registrations.lookup address with
  | none => rfl
  | some registration =>
    obtain ⟨_,normal,complete⟩ := sound.registered address registration found
    simp only [bind_some,validatorFromRegistration,normal,complete,if_true]
    rfl

theorem known_of_registered
    (registered : bindings node.registrations address ≠ none) : ∃ existing, node.known stakes address = some existing := by
  apply isSome_iff_exists.mp
  cases found : node.registrations.lookup address with
  | none =>
    rw [bindings,found] at registered
    exact absurd rfl registered
  | some registration =>
    obtain ⟨_,normal,complete⟩ := sound.registered address registration found
    simp [known,found,validatorFromRegistration,normal,complete]

theorem admitted_identity (address : String) :
    (node.admitted stakes address).map (fun v => (v.id,v.pubkey)) = node.identityAt address := by
  have identity := withRegistration_identity sound stakes address
  rw [admitted,Option.map_map,identityAt]
  cases bound : bindings node.registrations address with
  | some own =>
    obtain ⟨existing,known⟩ := known_of_registered sound stakes (by rw [bound]; exact some_ne_none own)
    rw [known]
    simp only [map_some,some_or,Function.comp]
    rw [identity existing,bound,getD_some]
  | none =>
    have unregistered : node.registrations.lookup address = none := map_eq_none_iff.mp bound
    simp only [known,unregistered,bind_none,or_none,none_or]
    cases current : (byAddress node.validators).lookup address with
    | some v =>
      rw [sound.origin address v current bound]
      simp only [some_or,map_some,Function.comp]
      rw [identity v,bound,getD_none]
    | none =>
      rw [none_or]
      cases (byAddress node.bootstrap).lookup address with
      | none => rfl
      | some v =>
        simp only [map_some,Function.comp]
        rw [identity v,bound,getD_none]

end

theorem admitted_address {stakes : String → Nat} {v : Validator} (entry : node.admitted stakes address = some v) :
    v.ethAddress = address := by
  obtain ⟨existing,_,rfl⟩ := map_eq_some_iff.mp entry
  rfl

theorem admitted_normal (sound : node.Sound) {stakes : String → Nat} (some : node.admitted stakes address ≠ none) :
    normalizedValidatorKey address = address := by
  have listed : ∀ {validators : Validators} {v : Validator}, (byAddress validators).lookup address = .some v →
      normalizedValidatorKey address = address := by
    intro validators v found
    rw [← (byAddress_some found).2,normalizedValidatorKey_twice]
  cases current : (byAddress node.validators).lookup address with
  | some v => exact listed current
  | none =>
    cases first : (byAddress node.bootstrap).lookup address with
    | some v => exact listed first
    | none =>
      cases registered : node.registrations.lookup address with
      | some registration => exact (sound.registered address registration registered).1
      | none => exact absurd (by simp [admitted,known,current,first,registered]) some

theorem Sound.reconcile (sound : node.Sound) (stakes : String → Nat) (active : Finset String) :
    (node.reconcileStateFromWorker stakes active).Sound where
  registered address registration found := by
    have same := identities_reconcile (some active) node.registrations address
    have now : (ValidatorRegistry.reconcile (some active) node.registrations).lookup address = some registration := found
    rw [now,map_some] at same
    obtain ⟨before,present,identity⟩ := map_eq_some_iff.mp same.symm
    rw [← identity]
    exact sound.registered address before present
  apart := by
    simp only [reconcileStateFromWorker,bindings_reconcile]
    exact sound.apart
  origin := by
    simp only [reconcileStateFromWorker,bindings_reconcile]
    intro address v found unregistered
    obtain ⟨inside,own⟩ := byAddress_some found
    obtain ⟨other,_,entry⟩ := List.mem_filterMap.mp inside
    have same : other = address := by
      rw [← own,admitted_address entry,admitted_normal sound (by rw [entry]; exact some_ne_none v)]
    subst same
    have identity := admitted_identity sound stakes other
    rw [entry,identityAt,unregistered,none_or] at identity
    exact identity.symm

end IdentityNode

variable {crates : Crates} {wallets : WalletCrates} {config : ChainConfig} {proof : RegistrationProof}

theorem apply_ok {registrations after : Registrations} {registration : ValidatorRegistrationStatus}
    (ok : applyValidatorRegistration crates wallets config none registrations proof = .ok (registration,after)) :
    Passes crates wallets (nodeChainId config) proof ∧ ¬(rules wallets).Blocked (bindings registrations) proof ∧
      registration.identity = proof.identity wallets ∧ after = registrations.insert (proof.key wallets) registration := by
  have passes : Passes crates wallets (nodeChainId config) proof := by
    simp only [applyValidatorRegistration,bind_ok] at ok
    obtain ⟨identity,checked,_⟩ := ok
    exact isOk_iff.mpr ⟨identity,checked⟩
  rw [apply_eq none passes] at ok
  split_ifs at ok with taken
  cases ok
  exact ⟨passes,mt (takenByAnother_iff registrations).mpr taken,passes.spec.2.2,rfl⟩

theorem addressText_ne_empty (a : Address) : addressText a ≠ "" := by
  intro empty
  have marked := congrArg String.toList empty
  rw [addressText,toList_markedHex] at marked
  cases marked

theorem validateEd25519Pubkey_ne_empty {value pubkey : String} (ok : validateEd25519Pubkey value = .ok pubkey) : pubkey ≠ "" := by
  rintro rfl
  unfold validateEd25519Pubkey at ok
  dsimp only at ok
  split at ok
  · rename_i decoded
    split_ifs at ok with size
    obtain empty := Except.ok.inj ok
    rw [empty] at decoded
    obtain rfl := Except.ok.inj (decoded.symm.trans (by decide : hexDecode "" = .ok []))
    cases size
  · cases ok

theorem Passes.complete {chainId : String} (passes : Passes crates wallets chainId proof) :
    (proof.identity wallets).isComplete ∧ normalizedValidatorKey (proof.key wallets) = proof.key wallets := by
  obtain ⟨checked,⟨a,parsed⟩,normal⟩ := passes.spec
  have key : proof.key wallets = addressText a := by rw [RegistrationProof.key,parsed]; rfl
  simp only [checkedIdentity,bind_ok,mapError_ok,pure_ok] at checked
  obtain ⟨_,_,nodeId,named,pubkey,keyed,_,-,-,-,same⟩ := checked
  obtain ⟨_,rfl,rfl⟩ := ValidatorIdentity.mk.inj same
  have address : toAsciiLowercase (trim (proof.key wallets)) = proof.key wallets :=
    congrArg ValidatorIdentity.evmAddress normal
  have lower : toAsciiLowercase (trim proof.boundPubkey) = proof.boundPubkey :=
    congrArg ValidatorIdentity.ed25519Pubkey normal
  have small : toAsciiLowercase "" = "" := by decide +kernel
  have nonempty : ∀ {text : String}, text ≠ "" → toAsciiLowercase (trim text) = text →
      Text.isEmpty (trim text) = false := by
    intro text written same
    rw [Text.isEmpty,beq_eq_false_iff_ne]
    intro empty
    rw [empty,small] at same
    exact written same.symm
  have name : Text.isEmpty (trim proof.boundNodeId) = false := by
    simp only [validateNodeId] at named
    split_ifs at named with empty
    rw [boundNodeId,trim_trim]
    exact Bool.not_eq_true _ ▸ empty
  refine ⟨?_,address⟩
  simp only [isComplete,identity,name,nonempty (by rw [key]; exact addressText_ne_empty a) address,
    nonempty (validateEd25519Pubkey_ne_empty keyed) lower,Bool.not_false,Bool.and_self]

namespace IdentityNode
variable {node : IdentityNode} {registration : ValidatorRegistrationStatus}

theorem Sound.register (sound : node.Sound) {after : Registrations}
    (ok : applyValidatorRegistration crates wallets node.config none node.registrations proof = .ok (registration,after)) :
    {node with registrations := after}.Sound := by
  obtain ⟨passes,unblocked,identity,rfl⟩ := apply_ok ok
  obtain ⟨_,_,normal⟩ := passes.spec
  obtain ⟨complete,key⟩ := passes.complete
  have bound := bindings_insert node.registrations (proof.key wallets) registration
  refine ⟨?_,?_,?_⟩
  · intro address entry found
    rw [Table.lookup_insert_eq] at found
    split_ifs at found with own
    · cases found
      rw [identity,own]
      exact ⟨key,normal,complete⟩
    · exact sound.registered address entry found
  · -- the new binding clashes with none that is kept under another key
    have new : ∀ other value, bindings node.registrations other = some value → other ≠ proof.key wallets →
        value.1 ≠ proof.boundNodeId ∧ value.2 ≠ proof.boundPubkey := by
      intro other value held apart
      exact not_or.mp fun clash => unblocked ⟨other,value,held,apart,clash⟩
    simp only [bound,identity,update_apply]
    intro wallet other first second left right apart
    split_ifs at left right with own own' own'
    · exact absurd (own.trans own'.symm) apart
    · cases left
      obtain ⟨id,pubkey⟩ := new other second right own'
      exact ⟨id.symm,pubkey.symm⟩
    · cases right
      exact new wallet first left own
    · exact sound.apart wallet other first second left right apart
  · simp only [bound,update_apply]
    intro address v found unregistered
    split_ifs at unregistered
    exact sound.origin address v found unregistered

theorem nodup_filterMap_iff {α β : Type} {members : List α} (distinct : members.Nodup) (value : α → Option β) :
    (members.filterMap value).Nodup ↔
      ∀ a ∈ members, ∀ b ∈ members, a ≠ b → ∀ x, value a = some x → value b ≠ some x := by
  rw [List.Nodup,pairwise_filterMap]
  constructor
  · intro apart a first b second other x left right
    have symmetric : Std.Symm fun a b => ∀ x, value a = some x → ∀ y, value b = some y → x ≠ y :=
      ⟨fun a b apart x left y right => (apart y right x left).symm⟩
    exact apart.forall first second other x left x right rfl
  · intro apart
    refine distinct.imp_of_mem ?_
    intro a b first second other x left y right same
    exact apart a first b second other x left (same ▸ right)

theorem distinct_reconcile_iff (sound : node.Sound) (stakes : String → Nat) (active : Finset String) :
    (node.reconcileStateFromWorker stakes active).Distinct ↔ ∀ a ∈ active, ∀ b ∈ active, a ≠ b → ∀ first second,
      node.identityAt a = some first → node.identityAt b = some second → first.1 ≠ second.1 ∧ first.2 ≠ second.2 := by
  have part : ∀ (field : Validator → String) (take : String × String → String),
      (∀ v : Validator, field v = take (v.id,v.pubkey)) →
      (((node.reconcileStateFromWorker stakes active).validators.map field).Nodup ↔ ∀ a ∈ active, ∀ b ∈ active, a ≠ b →
        ∀ first second, node.identityAt a = some first → node.identityAt b = some second → take first ≠ take second) := by
    intro field take reads
    have values : ∀ address, (node.admitted stakes address).map field = (node.identityAt address).map take := by
      intro address
      rw [← admitted_identity sound stakes address,Option.map_map]
      congr 1
      funext v
      exact reads v
    rw [reconcileStateFromWorker,map_filterMap]
    simp only [values]
    rw [nodup_filterMap_iff (sort_nodup _ _)]
    simp only [mem_sort,map_eq_some_iff,ne_eq]
    constructor
    · intro apart a inside b among other first second left right same
      exact apart a inside b among other (take first) ⟨first,left,rfl⟩ ⟨second,right,same.symm⟩
    · rintro apart a inside b among other x ⟨first,left,rfl⟩ ⟨second,right,same⟩
      exact apart a inside b among other first second left right same.symm
  have ids := part Validator.id Prod.fst fun _ => rfl
  have keys := part pubkey Prod.snd fun _ => rfl
  rw [Distinct,ids,keys]
  constructor
  · rintro ⟨ids,keys⟩ a inside b among other first second left right
    exact ⟨ids a inside b among other first second left right,keys a inside b among other first second left right⟩
  · intro apart
    exact ⟨fun a inside b among other first second left right => (apart a inside b among other first second left right).1,
      fun a inside b among other first second left right => (apart a inside b among other first second left right).2⟩

theorem first_apart {bootstrap : Validators} {α : Type} {field : Validator → α} (distinct : (bootstrap.map field).Nodup)
    {address other : String} {v w : Validator} (left : (byAddress bootstrap).lookup address = some v)
    (right : (byAddress bootstrap).lookup other = some w) (apart : address ≠ other) : field v ≠ field w := by
  obtain ⟨inside,own⟩ := byAddress_some left
  obtain ⟨among,own'⟩ := byAddress_some right
  intro same
  have equal := inj_on_of_nodup_map distinct inside among same
  exact apart (own.symm.trans (equal ▸ own'))

theorem identityAt_cases {address : String} {identity : String × String} (found : node.identityAt address = some identity) :
    bindings node.registrations address = some identity ∨
      bindings node.registrations address = none ∧
        ∃ v, (byAddress node.bootstrap).lookup address = some v ∧ identity = (v.id,v.pubkey) := by
  unfold identityAt at found
  cases bound : bindings node.registrations address with
  | some own => exact .inl (by rwa [bound,some_or] at found)
  | none =>
    rw [bound,none_or] at found
    obtain ⟨v,present,same⟩ := map_eq_some_iff.mp found
    exact .inr ⟨rfl,v,present,same.symm⟩

theorem apart_reconcile_iff (sound : node.Sound) (ids : (node.bootstrap.map Validator.id).Nodup)
    (keys : (node.bootstrap.map pubkey).Nodup) (stakes : String → Nat) (active : Finset String) :
    (node.reconcileStateFromWorker stakes active).Distinct ↔ node.Apart (.reconcile active stakes) := by
  rw [distinct_reconcile_iff sound]
  constructor
  · intro apart wallet inside other among identity v registered unregistered first
    have different : wallet ≠ other := by
      rintro rfl
      rw [registered] at unregistered
      cases unregistered
    apply apart wallet inside other among different identity (v.id,v.pubkey)
    · rw [identityAt,registered,some_or]
    · rw [identityAt,unregistered,none_or,first,map_some]
  · intro apart a inside b among different first second left right
    obtain bound | ⟨unbound,v,present,rfl⟩ := identityAt_cases left
    · obtain bound' | ⟨unbound,v,present,rfl⟩ := identityAt_cases right
      · exact sound.apart a b first second bound bound' different
      · exact apart a inside b among first v bound unbound present
    · obtain bound' | ⟨_,w,present',rfl⟩ := identityAt_cases right
      · obtain ⟨id,key⟩ := apart b among a inside second v bound' unbound present
        exact ⟨id.symm,key.symm⟩
      · exact ⟨first_apart ids present present' different,first_apart keys present present' different⟩

theorem sound_new (nodeId : String) (config : ChainConfig) (bootstrap : Validators) : (new nodeId config bootstrap).Sound where
  registered address registration found := by simp [new] at found
  apart wallet other first second left := by simp [new,bindings] at left
  origin address v found _ := by
    rw [new] at found ⊢
    rw [found,map_some]

theorem Sound.step (sound : node.Sound) (event : IdentityEvent) : (node.step crates wallets event).Sound := by
  cases event with
  | register proof =>
    simp only [IdentityNode.step]
    split
    · rename_i ok
      exact sound.register ok
    · exact sound
  | reconcile active stakes => exact sound.reconcile stakes active

theorem step_bootstrap (node : IdentityNode) (event : IdentityEvent) :
    (node.step crates wallets event).bootstrap = node.bootstrap := by
  cases event with
  | register proof =>
    simp only [IdentityNode.step]
    split <;> rfl
  | reconcile active stakes => rfl

end IdentityNode

/-- Ids and keys stay distinct exactly if no registered wallet takes another's bootstrap entry. -/
theorem identities_distinct_iff (crates : Crates) (wallets : WalletCrates) (nodeId : String) (config : ChainConfig)
    (bootstrap : Validators) (ids : (bootstrap.map Validator.id).Nodup) (keys : (bootstrap.map pubkey).Nodup)
    (events : List IdentityEvent) :
    Throughout (IdentityNode.step crates wallets) IdentityNode.Distinct (.new nodeId config bootstrap) events ↔
      Along (IdentityNode.step crates wallets) IdentityNode.Apart (.new nodeId config bootstrap) events := by
  have keeps : ∀ (node : IdentityNode) (event : IdentityEvent), node.Sound ∧ node.bootstrap = bootstrap →
      (node.step crates wallets event).Sound ∧ (node.step crates wallets event).bootstrap = bootstrap :=
    fun node event kept => ⟨kept.1.step event,(node.step_bootstrap event).trans kept.2⟩
  have start : (IdentityNode.new nodeId config bootstrap).Sound ∧ (IdentityNode.new nodeId config bootstrap).bootstrap =
      bootstrap := ⟨IdentityNode.sound_new nodeId config bootstrap,rfl⟩
  rw [throughout_congr keeps (fun node kept => (and_iff_right kept).symm) _ _ start]
  apply throughout_iff_along _ _ _ ⟨start,ids,keys⟩
  intro node event holds
  obtain ⟨kept,distinct⟩ := holds
  rw [and_iff_right (keeps node event kept)]
  cases event with
  | register proof =>
    refine iff_of_true ?_ trivial
    simp only [IdentityNode.step]
    split <;> exact distinct
  | reconcile active stakes =>
    obtain ⟨sound,rfl⟩ := kept
    exact IdentityNode.apart_reconcile_iff sound ids keys stakes active

end ChainRegistry.ValidatorRegistry

namespace ChainRegistry.Fleet
open Lib Runs SetSync ValidatorRegistry

def started (id : String) : IdentityNode := .new "node-9" named [⟨id,id,"aa",addressText 2,100,100,"online"⟩]

def joining : List IdentityEvent := [.register first,.reconcile {addressText 1,addressText 2} fun _ => 0]

abbrev joined (id : String) : IdentityNode := (started id).step crates wallets (.register first)

theorem joined_apart : (joined "node-2").Apart (.reconcile {addressText 1,addressText 2} fun _ => 0) := by
  have registers : bindings (joined "node-2").registrations (addressText 1) =
    some ("node-1",Text.hexEncode (List.replicate 32 10)) ∧
      bindings (joined "node-2").registrations (addressText 2) = none ∧ (byAddress (joined "node-2").bootstrap).lookup
        (addressText 2) = some ⟨"node-2","node-2","aa",addressText 2,100,100,"online"⟩ := by decide +kernel
  intro wallet inside other among identity v registered unregistered found
  simp only [Finset.mem_insert,Finset.mem_singleton] at inside among
  obtain rfl | rfl := inside
  · obtain rfl | rfl := among
    · cases registered.symm.trans unregistered
    · cases registers.1.symm.trans registered
      cases registers.2.2.symm.trans found
      decide +kernel
  · cases registers.2.1.symm.trans registered

theorem joined_distinct : Throughout (IdentityNode.step crates wallets) IdentityNode.Distinct (started "node-2") joining :=
  (identities_distinct_iff crates wallets _ _ _ (by decide) (by decide) joining).mpr
    ⟨trivial,joined_apart,trivial⟩

theorem first_id_taken :
    ((started "node-1").bootstrap.map Validator.id).Nodup ∧ ((started "node-1").bootstrap.map Validator.pubkey).Nodup ∧
      ((started "node-1").bootstrap.map Validator.ethAddress).Nodup ∧
      ¬(run (IdentityNode.step crates wallets) (started "node-1") joining).Distinct := by
  refine ⟨by simp [started,IdentityNode.new],by simp [started,IdentityNode.new],by simp [started,IdentityNode.new],?_⟩
  intro distinct
  have clash := (IdentityNode.distinct_reconcile_iff ((IdentityNode.sound_new _ _ _).step _) (fun _ => 0)
    {addressText 1,addressText 2}).mp distinct (addressText 1) (by simp) (addressText 2) (by simp) (by decide +kernel)
  have names : (joined "node-1").identityAt (addressText 1) = some ("node-1",Text.hexEncode (List.replicate 32 10)) ∧
      (joined "node-1").identityAt (addressText 2) = some ("node-1","aa") := by decide +kernel
  exact (clash _ _ names.1 names.2).1 rfl

end ChainRegistry.Fleet
