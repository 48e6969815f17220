import ChainRegistry.Common.IdealCrates
import ChainRegistry.Node.ValidatorRegistry

/-! Nodes that hear of the same registrations. A node binds a wallet to its last proof and refuses a
proof while another wallet has its node id or its key: a book of claims, so nodes agree exactly when
the proofs are not in conflict. -/
namespace ChainRegistry.ValidatorRegistry
open Lib Runs SetSync Fallible List Option Text RegistryNode ValidatorIdentity Event Claims.Rules Claims.Book

variable {p q : RegistrationProof}

-- texts are not to be computed when two registrations are compared
attribute [local irreducible] trim toAsciiLowercase

/-- The digits of an address are read the same in capitals and in small letters. -/
def WalletCrates.Caseless (wallets : WalletCrates) : Prop :=
  ∀ first second a b, wallets.parseAddress first = some a → wallets.parseAddress second = some b →
    toAsciiLowercase first = toAsciiLowercase second → a = b

def Passes (crates : Crates) (wallets : WalletCrates) (chainId : String) (proof : RegistrationProof) : Prop :=
  (checkedIdentity crates wallets chainId proof).isOk

instance (crates : Crates) (wallets : WalletCrates) (chainId : String) (proof : RegistrationProof) :
    Decidable (Passes crates wallets chainId proof) := inferInstanceAs (Decidable (_ = true))

namespace RegistrationProof
def wallet (proof : RegistrationProof) (wallets : WalletCrates) : Option Address :=
  wallets.parseAddress (trim proof.evmAddress)

def boundNodeId (proof : RegistrationProof) : String := trim proof.nodeId

def boundPubkey (proof : RegistrationProof) : String :=
  toAsciiLowercase (trimStartHexMark (trim proof.ed25519Pubkey))

def key (proof : RegistrationProof) (wallets : WalletCrates) : String := ((proof.wallet wallets).map addressText).getD ""

def identity (proof : RegistrationProof) (wallets : WalletCrates) : ValidatorIdentity :=
  ⟨proof.key wallets,proof.boundNodeId,proof.boundPubkey⟩

end RegistrationProof

def ConflictFree (wallets : WalletCrates) (proofs : Finset RegistrationProof) : Prop :=
  ∀ p ∈ proofs, ∀ q ∈ proofs,
    (p.wallet wallets = q.wallet wallets → p.boundNodeId = q.boundNodeId ∧ p.boundPubkey = q.boundPubkey) ∧
      (p.wallet wallets ≠ q.wallet wallets → p.boundNodeId ≠ q.boundNodeId ∧ p.boundPubkey ≠ q.boundPubkey)

instance (wallets : WalletCrates) (proofs : Finset RegistrationProof) : Decidable (ConflictFree wallets proofs) :=
  inferInstanceAs (Decidable (∀ p ∈ proofs, ∀ q ∈ proofs, _ ∧ _))

variable (crates : Crates) (wallets : WalletCrates)

/-- The node processes every proof at least once and no other, with any restarts in between,
and has gone through its journal after the last of them. -/
structure Processed (config : ChainConfig) (proofs : Finset RegistrationProof) (events : List Event) : Prop where
  delivered : ∀ proof, (∃ active, .deliver proof active ∈ events) ↔ proof ∈ proofs
  restored : (run (RegistryNode.step crates wallets) (new config) events).restoring = []

variable {crates wallets}

theorem trim_addressText (a : Address) : trim (addressText a) = addressText a := trim_markedHex _

theorem toAsciiLowercase_addressText (a : Address) : toAsciiLowercase (addressText a) = addressText a :=
  toAsciiLowercase_markedHex _

theorem validateEd25519Pubkey_ok {value pubkey : String} (ok : validateEd25519Pubkey value = .ok pubkey) :
    pubkey = toAsciiLowercase (trimStartHexMark (trim value)) ∧
      toAsciiLowercase (trim pubkey) = pubkey := by
  unfold validateEd25519Pubkey at ok
  simp only at ok
  split at ok
  · rename_i bytes decoded
    split_ifs at ok
    cases ok
    rw [trim_alphanum (hexDecode_alphanum decoded),toAsciiLowercase_twice]
    exact ⟨rfl,rfl⟩
  · cases ok

variable {chainId : String} {proof : RegistrationProof} (active : Option (Finset String)) (registrations : Registrations)

theorem Passes.spec (passes : Passes crates wallets chainId proof) :
    checkedIdentity crates wallets chainId proof = .ok (proof.identity wallets) ∧
      (∃ a, proof.wallet wallets = some a) ∧ (proof.identity wallets).normalized = proof.identity wallets := by
  obtain ⟨identity,ok⟩ := isOk_iff.mp passes
  have parts := ok
  simp only [checkedIdentity,bind_ok,mapError_ok,pure_ok] at parts
  obtain ⟨evmAddress,parsed,nodeId,named,pubkey,keyed,nonce,-,-,-,rfl⟩ := parts
  obtain ⟨rfl,stable⟩ := validateEd25519Pubkey_ok keyed
  have trimmed : nodeId = proof.boundNodeId := by
    simp only [validateNodeId] at named
    split_ifs at named
    exact (Except.ok.inj named).symm
  cases found : proof.wallet wallets with
  | none =>
    rw [RegistrationProof.wallet] at found
    simp [validateEvmAddress,found] at parsed
  | some a =>
    have key : proof.key wallets = addressText a := by rw [RegistrationProof.key,found]; rfl
    have address : evmAddress = proof.key wallets := by
      rw [RegistrationProof.wallet] at found
      rw [key]
      simpa [validateEvmAddress,found] using parsed.symm
    subst trimmed address
    refine ⟨ok,⟨a,rfl⟩,?_⟩
    have lower : toAsciiLowercase (trim (proof.key wallets)) = proof.key wallets := by
      rw [key,trim_addressText,toAsciiLowercase_addressText]
    simp only [normalized,RegistrationProof.identity,lower]
    rw [RegistrationProof.boundNodeId,trim_trim,RegistrationProof.boundPubkey,stable]

def rules (wallets : WalletCrates) : Claims.Rules RegistrationProof String (String × String) where
  key proof := proof.key wallets
  value proof := (proof.boundNodeId,proof.boundPubkey)
  clash first second := first.1 = second.1 ∨ first.2 = second.2
  record := persist

def RegistryNode.book (node : RegistryNode) : Claims.Book RegistrationProof String (String × String) where
  held := bindings node.registrations
  journal := node.journal
  pending := node.restoring

def Event.claim : Event → Claims.Event RegistrationProof
  | .deliver proof _ => .deliver proof
  | .restart => .restart
  | .restore _ => .restore

theorem bindings_empty : bindings ∅ = fun _ => none := by
  funext evmAddress
  rw [bindings,AList.lookup_empty]
  rfl

theorem bindings_insert (key : String) (registration : ValidatorRegistrationStatus) :
    bindings (registrations.insert key registration) = Function.update (bindings registrations) key
      (some (registration.identity.nodeId,registration.identity.ed25519Pubkey)) := by
  funext other
  rw [bindings,Table.lookup_insert_eq,Function.update_apply]
  split_ifs <;> rfl

theorem identity_registered (previous : Option ValidatorRegistrationStatus) (proof : RegistrationProof)
    (identity : ValidatorIdentity) : (registered previous proof identity).identity = identity.normalized := rfl

theorem identities_reconcile (registrations : Registrations) (key : String) :
    ((reconcile active registrations).lookup key).map ValidatorRegistrationStatus.identity =
      (registrations.lookup key).map ValidatorRegistrationStatus.identity := by
  cases active with
  | none => rfl
  | some active =>
    have marked : (reconcile (some active) registrations).lookup key = (registrations.lookup key).map (markActive active) :=
      Table.lookup_putAll_map registrations (fun _ => markActive active) key
    rw [marked,Option.map_map]
    rfl

theorem bindings_eq (key : String) : bindings registrations key =
    ((registrations.lookup key).map ValidatorRegistrationStatus.identity).map fun identity =>
      (identity.nodeId,identity.ed25519Pubkey) := by
  rw [Option.map_map]
  rfl

theorem bindings_reconcile (registrations : Registrations) :
    bindings (reconcile active registrations) = bindings registrations := by
  funext key
  rw [bindings_eq,identities_reconcile,← bindings_eq]

theorem takenByAnother_iff : takenByAnother registrations (proof.key wallets) (proof.identity wallets) ↔
    (rules wallets).Blocked (bindings registrations) proof := by
  simp only [takenByAnother,List.any_eq_true,Bool.and_eq_true,Bool.or_eq_true,decide_eq_true_eq]
  constructor
  · rintro ⟨⟨key,registration⟩,inside,other,clash⟩
    have found : registrations.lookup key = some registration := AList.mem_lookup_iff.mpr inside
    refine ⟨key,(registration.identity.nodeId,registration.identity.ed25519Pubkey),?_,other,clash⟩
    rw [bindings,found,map_some]
  · rintro ⟨key,value,found,other,clash⟩
    obtain ⟨registration,entry,rfl⟩ := map_eq_some_iff.mp found
    exact ⟨⟨key,registration⟩,AList.mem_lookup_iff.mp entry,other,clash⟩

variable {config : ChainConfig} {events : List Event} {node : RegistryNode}

theorem apply_eq (passes : Passes crates wallets (nodeChainId config) proof) (registrations : Registrations) :
    applyValidatorRegistration crates wallets config active registrations proof =
      if takenByAnother registrations (proof.key wallets) (proof.identity wallets) then
        .error (.conflict,"node_id or Ed25519 pubkey is already registered to another wallet")
      else
        let registration := registered (registrations.lookup (proof.key wallets)) proof (proof.identity wallets)
        .ok (registration,reconcile active (registrations.insert (proof.key wallets) registration)) := by
  obtain ⟨checked,_,normal⟩ := passes.spec
  have key : normalizedValidatorKey (proof.identity wallets).evmAddress = proof.key wallets := by
    have address := congrArg ValidatorIdentity.evmAddress normal
    simp only [normalized] at address
    rw [normalizedValidatorKey,address,RegistrationProof.identity]
  simp only [applyValidatorRegistration,checked,bind,Except.bind]
  rw [key]
  split_ifs <;> rfl

theorem apply_spec (passes : Passes crates wallets (nodeChainId config) proof) (registrations : Registrations) :
    (∃ e, applyValidatorRegistration crates wallets config active registrations proof = .error e) ∧
        (rules wallets).Blocked (bindings registrations) proof ∨
      ∃ registration after, applyValidatorRegistration crates wallets config active registrations proof =
          .ok (registration,after) ∧ ¬(rules wallets).Blocked (bindings registrations) proof ∧
        bindings after = (rules wallets).take (bindings registrations) proof := by
  have applied := apply_eq active passes registrations
  by_cases taken : takenByAnother registrations (proof.key wallets) (proof.identity wallets)
  · rw [if_pos taken] at applied
    exact .inl ⟨⟨_,applied⟩,(takenByAnother_iff _).mp taken⟩
  · rw [if_neg taken] at applied
    have unblocked := mt (takenByAnother_iff registrations).mpr taken
    refine .inr ⟨_,_,applied,unblocked,?_⟩
    rw [bindings_reconcile,bindings_insert,identity_registered,passes.spec.2.2,take_unblocked unblocked]
    rfl

structure RegistryNode.Trusted (crates : Crates) (wallets : WalletCrates) (chainId : String) (node : RegistryNode) : Prop where
  chain : nodeChainId node.config = chainId
  journal : ∀ p ∈ node.journal, Passes crates wallets chainId p
  restoring : ∀ p ∈ node.restoring, Passes crates wallets chainId p

theorem RegistryNode.trusted_new : (new config).Trusted crates wallets (nodeChainId config) where
  chain := rfl
  journal _ inside := nomatch inside
  restoring _ inside := nomatch inside

theorem mem_persist {journal : List RegistrationProof} {p : RegistrationProof} (inside : p ∈ persist journal proof) :
    p = proof ∨ p ∈ journal := by
  simp only [persist,mem_append,mem_filter,mem_singleton] at inside
  exact inside.symm.imp_right And.left

theorem RegistryNode.step_spec (trusted : node.Trusted crates wallets chainId) {event : Event}
    (passes : ∀ p active, event = .deliver p active → Passes crates wallets chainId p) :
    (node.step crates wallets event).Trusted crates wallets chainId ∧
      (node.step crates wallets event).book = (rules wallets).step node.book event.claim := by
  obtain ⟨config,registrations,journal,restoring⟩ := node
  obtain ⟨rfl,written,left⟩ := trusted
  cases event with
  | deliver p active =>
    have passing := passes p active rfl
    rcases apply_spec active passing registrations with
      ⟨⟨e,refused⟩,blocked⟩ | ⟨registration,after,accepted,unblocked,bound⟩
    · simp only [RegistryNode.step,refused,Event.claim]
      exact ⟨⟨rfl,written,left⟩,(step_blocked blocked).symm⟩
    · simp only [RegistryNode.step,accepted,Event.claim,book,bound]
      rw [step_unblocked unblocked]
      refine ⟨⟨rfl,fun q inside => ?_,left⟩,rfl⟩
      rcases mem_persist inside with rfl | old
      · exact passing
      · exact written q old
  | restart => exact ⟨⟨rfl,written,written⟩,by rw [book,RegistryNode.step,bindings_empty]; rfl⟩
  | restore active =>
    cases restoring with
    | nil => exact ⟨⟨rfl,written,left⟩,rfl⟩
    | cons p restoring =>
      have passing := left p mem_cons_self
      have rest : ∀ q ∈ restoring, Passes crates wallets (nodeChainId config) q :=
        fun q inside => left q (mem_cons_of_mem _ inside)
      rcases apply_spec active passing registrations with
        ⟨⟨e,refused⟩,blocked⟩ | ⟨registration,after,accepted,unblocked,bound⟩
      · simp only [RegistryNode.step,refused,Event.claim,Claims.Rules.step,book,take_blocked blocked]
        exact ⟨⟨rfl,written,rest⟩,trivial⟩
      · simp only [RegistryNode.step,accepted,Event.claim,Claims.Rules.step,book,bound]
        exact ⟨⟨rfl,written,rest⟩,trivial⟩

theorem RegistryNode.run_spec (trusted : node.Trusted crates wallets chainId)
    (passes : ∀ p active, .deliver p active ∈ events → Passes crates wallets chainId p) :
    (run (RegistryNode.step crates wallets) node events).book =
      run (rules wallets).step node.book (events.map Event.claim) := by
  induction events generalizing node with
  | nil => rfl
  | cons event events ih =>
    obtain ⟨still,same⟩ := step_spec trusted fun p active now => passes p active (now ▸ mem_cons_self)
    rw [run_cons,ih still fun p active later => passes p active (mem_cons_of_mem _ later),same]
    rfl

variable {proofs : Finset RegistrationProof}

theorem records (caseless : wallets.Caseless) (passing : ∀ p ∈ proofs, Passes crates wallets chainId p) :
    (rules wallets).Records proofs where
  new journal p := mem_append_right _ (mem_singleton_self p)
  only journal p q inside := mem_persist inside
  kept journal p inside q among written := by
    by_cases same : toAsciiLowercase (trim q.evmAddress) = toAsciiLowercase (trim p.evmAddress)
    · right
      obtain ⟨a,found⟩ := (passing p inside).spec.2.1
      obtain ⟨b,found'⟩ := (passing q among).spec.2.1
      have equal : b = a := caseless _ _ b a found' found same
      change q.key wallets = p.key wallets
      rw [RegistrationProof.key,RegistrationProof.key,found,found',equal]
    · left
      exact mem_append_left _ (mem_filter.mpr ⟨written,decide_eq_true same⟩)

theorem key_eq_iff (first : Passes crates wallets chainId p)
    (second : Passes crates wallets chainId q) : p.key wallets = q.key wallets ↔ p.wallet wallets = q.wallet wallets := by
  obtain ⟨a,found⟩ := first.spec.2.1
  obtain ⟨b,found'⟩ := second.spec.2.1
  rw [RegistrationProof.key,RegistrationProof.key,found,found',map_some,map_some,getD_some,
    getD_some,addressText_injective.eq_iff,some_inj]

theorem free_iff (passing : ∀ p ∈ proofs, Passes crates wallets chainId p) :
    (rules wallets).Free proofs ↔ ConflictFree wallets proofs := by
  refine forall₂_congr fun p inside => forall₂_congr fun q among => ?_
  have keys := key_eq_iff (passing p inside) (passing q among)
  simp only [rules,keys,ne_eq,Prod.mk.injEq,not_or]

theorem run_new (passes : ∀ p active, .deliver p active ∈ events → Passes crates wallets (nodeChainId config) p) :
    (run (RegistryNode.step crates wallets) (new config) events).book =
      run (rules wallets).step empty (events.map Event.claim) := by
  have start : (new config).book = empty := by
    rw [book,new,bindings_empty]
    rfl
  rw [run_spec trusted_new passes,start]

theorem mem_claims (events : List Event) (p : RegistrationProof) :
    .deliver p ∈ events.map Event.claim ↔ ∃ active, .deliver p active ∈ events := by
  rw [List.mem_map]
  constructor
  · rintro ⟨event,inside,same⟩
    cases event with
    | deliver q active =>
      cases same
      exact ⟨active,inside⟩
    | restart | restore => cases same
  · rintro ⟨active,inside⟩
    exact ⟨_,inside,rfl⟩

variable (passing : ∀ p ∈ proofs, Passes crates wallets (nodeChainId config) p)
include passing

theorem Processed.run_eq (processed : Processed crates wallets config proofs events) :
    (run (RegistryNode.step crates wallets) (new config) events).book =
      run (rules wallets).step empty (events.map Event.claim) :=
  run_new fun p active inside => passing p ((processed.delivered p).mp ⟨active,inside⟩)

theorem Processed.complete (processed : Processed crates wallets config proofs events) :
    (rules wallets).Complete proofs (events.map Event.claim) where
  delivered p := (mem_claims events p).trans (processed.delivered p)
  restored := by
    rw [← processed.run_eq passing]
    exact processed.restored

theorem exists_processed {claims : List (Claims.Event RegistrationProof)} (complete : (rules wallets).Complete proofs claims) :
    ∃ events, Processed crates wallets config proofs events ∧ events.map Event.claim = claims := by
  let event : Claims.Event RegistrationProof → Event
    | .deliver p => .deliver p none
    | .restart => .restart
    | .restore => .restore none
  have same : (claims.map event).map Event.claim = claims := by
    rw [List.map_map]
    refine (map_congr_left fun claim _ => ?_).trans (List.map_id claims)
    cases claim <;> rfl
  have delivered : ∀ p, (∃ active, .deliver p active ∈ claims.map event) ↔ p ∈ proofs := by
    intro p
    rw [← mem_claims,same]
    exact complete.delivered p
  refine ⟨claims.map event,⟨delivered,?_⟩,same⟩
  have passes : ∀ p active, .deliver p active ∈ claims.map event → Passes crates wallets (nodeChainId config) p :=
    fun p active inside => passing p ((delivered p).mp ⟨active,inside⟩)
  have restored := complete.restored
  rw [← same,← run_new passes] at restored
  exact restored

omit passing

/-- Two nodes that have processed the same proofs agree on every wallet exactly when the proofs give each
wallet one identity and share no node id and no key between wallets. -/
theorem registrations_converge_iff (caseless : wallets.Caseless) {first second : ChainConfig}
    (same : nodeChainId first = nodeChainId second) {proofs : Finset RegistrationProof}
    (passing : ∀ p ∈ proofs, Passes crates wallets (nodeChainId first) p) :
    (∀ events events', Processed crates wallets first proofs events → Processed crates wallets second proofs events' →
      bindings (run (RegistryNode.step crates wallets) (new first) events).registrations =
        bindings (run (RegistryNode.step crates wallets) (new second) events').registrations) ↔
      ConflictFree wallets proofs := by
  have passing' : ∀ p ∈ proofs, Passes crates wallets (nodeChainId second) p := same ▸ passing
  rw [← free_iff passing,← converges_iff (records caseless passing)]
  constructor
  · intro converges claims claims' complete complete'
    obtain ⟨events,processed,rfl⟩ := exists_processed passing complete
    obtain ⟨events',processed',rfl⟩ := exists_processed passing' complete'
    rw [← processed.run_eq passing,← processed'.run_eq passing']
    exact converges events events' processed processed'
  · intro converges events events' processed processed'
    have agree := converges _ _ (processed.complete passing) (processed'.complete passing')
    rw [← processed.run_eq passing,← processed'.run_eq passing'] at agree
    exact agree

end ValidatorRegistry

/-! Two nodes of the test network, one by its name and one by the default, and two wallets. A
signature is the number of its wallet and the sum of what it signs. -/
namespace Fleet
open Lib Runs SetSync ValidatorRegistry Fallible Text

def named : ChainConfig := ⟨"creg-testnet-1",false⟩

def unnamed : ChainConfig := ⟨"",true⟩

def sum (data : List UInt8) : Word := .ofNat 256 (data.map UInt8.toNat).sum

def wallets : WalletCrates where
  parseAddress text := [1,2].find? fun a => addressText a = toAsciiLowercase text
  keccak256 := sum
  signatureFormat _ := .ok ()
  recoverFromPrehash digest signature _ :=
    match signature with
    | signer :: tag :: _ => if tag.toNat = digest.toNat % 256 then .ok [4,signer] else .error "signature error"
    | _ => .error "signature error"

def crates : Crates where
  __ := Ideal.crates [] Ideal.checksum
  verifyingKey key := if key.length = 32 then .ok () else .error "signature error"

def proof (wallet : UInt8) (nodeId : String) (key : UInt8) : RegistrationProof :=
  let evmAddress := addressText (.ofNat 160 wallet.toNat)
  let pubkey := List.replicate 32 key
  let message := validatorIdentityRegistrationMessage (nodeChainId named) evmAddress nodeId (hexEncode pubkey) "1"
  let digest := ethereumPersonalMessageDigest wallets message
  { evmAddress := evmAddress
    nodeId := nodeId
    ed25519Pubkey := hexEncode pubkey
    aliasName := none
    nonce := "1"
    evmSignature := hexEncode (wallet :: .ofNat digest.toNat :: List.replicate 62 0 ++ [27])
    ed25519Signature := hexEncode (pubkey ++ Ideal.checksum (bytes message)) }

theorem caseless : wallets.Caseless := by
  intro first second a b found found' same
  simp only [wallets,same] at found found'
  exact Option.some.inj (found.symm.trans found')

def first : RegistrationProof := proof 1 "node-1" 10

def second : RegistrationProof := proof 2 "node-2" 11

def renamed : RegistrationProof := proof 1 "node-1-renamed" 10

theorem all_pass : ∀ p ∈ [first,second,renamed], Passes crates wallets (nodeChainId named) p := by
  decide +kernel

theorem pair_passes (left : p ∈ [first,second,renamed]) (right : q ∈ [first,second,renamed]) :
    ∀ r ∈ ({p,q} : Finset RegistrationProof), Passes crates wallets (nodeChainId named) r := by
  intro r inside
  rcases Finset.mem_insert.mp inside with rfl | last
  · exact all_pass r left
  · exact all_pass r (Finset.mem_singleton.mp last ▸ right)

theorem wallets_apart : ConflictFree wallets {first,second} := by
  decide +kernel

theorem same_chain : nodeChainId named = nodeChainId unnamed := by decide +kernel

theorem wallets_apart_converge : (∀ p ∈ ({first,second} : Finset _), Passes crates wallets (nodeChainId named) p) ∧
    ∀ events events', Processed crates wallets named {first,second} events →
      Processed crates wallets unnamed {first,second} events' →
      bindings (run (RegistryNode.step crates wallets) (RegistryNode.new named) events).registrations =
        bindings (run (RegistryNode.step crates wallets) (RegistryNode.new unnamed) events').registrations := by
  have pass := pair_passes (p := first) (q := second) (by simp) (by simp)
  exact ⟨pass,(registrations_converge_iff caseless same_chain pass).mpr wallets_apart⟩

theorem renamed_diverges : (∀ p ∈ ({first,renamed} : Finset _), Passes crates wallets (nodeChainId named) p) ∧
    nodeChainId named = nodeChainId unnamed ∧
    Processed crates wallets named {first,renamed} [.deliver first none,.deliver renamed none] ∧
    Processed crates wallets unnamed {first,renamed} [.deliver renamed none,.deliver first none] ∧
    bindings (run (RegistryNode.step crates wallets) (RegistryNode.new named)
        [.deliver first none,.deliver renamed none]).registrations (first.key wallets) ≠
      bindings (run (RegistryNode.step crates wallets) (RegistryNode.new unnamed)
        [.deliver renamed none,.deliver first none]).registrations (first.key wallets) := by
  -- a delivery leaves what is still to be restored
  have kept : ∀ node p, (RegistryNode.step crates wallets node (.deliver p none)).restoring = node.restoring := by
    intro node p
    simp only [RegistryNode.step]
    split <;> rfl
  refine ⟨pair_passes (by simp) (by simp),same_chain,⟨?_,?_⟩,⟨?_,?_⟩,by decide +kernel⟩
  · simp [exists_or]
  · rw [run_cons,run_cons,run_nil,kept,kept,RegistryNode.new]
  · simp [exists_or,or_comm]
  · rw [run_cons,run_cons,run_nil,kept,kept,RegistryNode.new]

end Fleet
end ChainRegistry
