import ChainRegistry.Contracts.PackageRecords

/-! Which package a zero-knowledge proof stands for: the two public inputs that every proof
of the registry begins with determine the package. -/
namespace ChainRegistry
open Lib Runs List Abi

namespace Registry
variable {evm : Evm} {self : Address} {hashes : List (List UInt8)} {key : Word}

theorem encodeString_append {a b x y : List UInt8} (short : a.length < 2 ^ 256) (also : b.length < 2 ^ 256)
    (same : encodeString a ++ x = encodeString b ++ y) : a = b ∧ x = y := by
  simp only [encodeString,append_assoc] at same
  obtain ⟨head,same⟩ := append_inj same (by rw [length_bytes,length_bytes])
  have length : a.length = b.length := by
    have word := congrArg BitVec.toNat (bytes_injective head)
    rwa [ofUint,ofUint,BitVec.toNat_ofNat,BitVec.toNat_ofNat,Nat.mod_eq_of_lt short,Nat.mod_eq_of_lt also] at word
  obtain ⟨data,same⟩ := append_inj same length
  exact ⟨data,(append_inj same (by rw [data])).2⟩

theorem encodeBinding_injective {canonical canonical' ipfsCid ipfsCid' : Bytes} {contentHash contentHash' : Word}
    (same : encodeBinding canonical contentHash ipfsCid = encodeBinding canonical' contentHash' ipfsCid') :
    canonical = canonical' ∧ contentHash = contentHash' ∧ ipfsCid = ipfsCid' := by
  have lengths : ∀ v w : Word, (bytes v).length = (bytes w).length := fun v w => by
    rw [length_bytes,length_bytes]
  simp only [encodeBinding,encode,flatMap_cons,flatMap_nil,append_assoc] at same
  obtain ⟨_,same⟩ := append_inj same (lengths _ _)
  obtain ⟨_,same⟩ := append_inj same (lengths _ _)
  obtain ⟨hash,same⟩ := append_inj same (lengths _ _)
  obtain ⟨_,same⟩ := append_inj same (lengths _ _)
  have same := append_cancel_left (append_cancel_left same)
  obtain ⟨names,same⟩ := encodeString_append canonical.2 canonical'.2 same
  rw [← append_nil (encodeString ipfsCid.1),← append_nil (encodeString ipfsCid'.1)] at same
  obtain ⟨cids,_⟩ := encodeString_append ipfsCid.2 ipfsCid'.2 same
  exact ⟨Subtype.ext names,bytes_injective hash,Subtype.ext cids⟩

theorem limbs_injective {v w : Word} (high : v >>> 128 = w >>> 128)
    (low : v &&& BitVec.ofNat 256 (2 ^ 128 - 1) = w &&& BitVec.ofNat 256 (2 ^ 128 - 1)) : v = w := by
  have upper := congrArg BitVec.toNat high
  have lower := congrArg BitVec.toNat low
  have mask : (2 ^ 128 - 1) % 2 ^ 256 = 2 ^ 128 - 1 := by decide
  rw [BitVec.toNat_ushiftRight,BitVec.toNat_ushiftRight,Nat.shiftRight_eq_div_pow,Nat.shiftRight_eq_div_pow] at upper
  rw [BitVec.toNat_and,BitVec.toNat_and,BitVec.toNat_ofNat,mask,Nat.and_two_pow_sub_one_eq_mod,
    Nat.and_two_pow_sub_one_eq_mod] at lower
  refine BitVec.eq_of_toNat_eq ?_
  rw [← Nat.div_add_mod v.toNat (2 ^ 128),← Nat.div_add_mod w.toNat (2 ^ 128),upper,lower]

theorem Binds.unique {first second : PackageRecord} {inputs others : List Word}
    (binds : Binds evm first.canonical first.contentHash first.ipfsCid inputs)
    (also : Binds evm second.canonical second.contentHash second.ipfsCid others) (shared : inputs.take 2 = others.take 2) :
    evm.keccak256 (encodeBinding first.canonical first.contentHash first.ipfsCid) =
      evm.keccak256 (encodeBinding second.canonical second.contentHash second.ipfsCid) := by
  have at0 : inputs[0]? = others[0]? := by
    rw [← List.getElem?_take_of_lt (by decide : 0 < 2),shared,List.getElem?_take_of_lt (by decide)]
  have at1 : inputs[1]? = others[1]? := by
    rw [← List.getElem?_take_of_lt (by decide : 1 < 2),shared,List.getElem?_take_of_lt (by decide)]
  rw [binds.1,also.1,Option.some.injEq] at at0
  rw [binds.2,also.2,Option.some.injEq] at at1
  exact limbs_injective at0 at1

structure Bound (evm : Evm) (hashes : List (List UInt8)) (key : Word) (record : PackageRecord) (data : ZKProofData) : Prop where
  own : record.status ≠ .unknown → keyOf evm record.canonical = key
  names : record.status ≠ .unknown → record.canonical.1 ∈ hashes
  encodes : record.status ≠ .unknown → encodeBinding record.canonical record.contentHash record.ipfsCid ∈ hashes
  settled : record.validationMode = .zkProof → record.status = .verified ∨ record.status = .revoked
  binds : record.validationMode = .zkProof → Binds evm record.canonical record.contentHash record.ipfsCid data.publicInputs

def CollisionFree (evm : Evm) (hashes : List (List UInt8)) : Prop :=
  ∀ a ∈ hashes, ∀ b ∈ hashes, evm.keccak256 a = evm.keccak256 b → a = b

instance (evm : Evm) (hashes : List (List UInt8)) : Decidable (CollisionFree evm hashes) :=
  inferInstanceAs (Decidable (∀ a ∈ hashes, ∀ b ∈ hashes, evm.keccak256 a = evm.keccak256 b → a = b))

theorem Change.bound {hashed : List (List UInt8)} {old record : PackageRecord} {proof data : ZKProofData}
    (collisionFree : CollisionFree evm hashes) (among : ∀ a ∈ hashed, a ∈ hashes) (bound : Bound evm hashes key old proof)
    (change : Change evm hashed key old proof record data) : Bound evm hashes key record data := by
  cases change with
  | kept => exact bound
  | submits fresh own names encodes pending mode =>
    have other : record.validationMode ≠ .zkProof := by
      rw [mode]
      decide
    exact ⟨fun _ => own,fun _ => among _ names,fun _ => among _ encodes,fun proved => absurd proved other,
      fun proved => absurd proved other⟩
  | submitsProved fresh own names encodes verified binds =>
    exact ⟨fun _ => own,fun _ => among _ names,fun _ => among _ encodes,fun _ => .inl verified,fun _ => binds⟩
  | finalizes pending =>
    have known : old.status ≠ .unknown := by
      rw [pending]
      decide
    exact ⟨fun _ => bound.own known,fun _ => bound.names known,fun _ => bound.encodes known,nofun,nofun⟩
  | @proves canonical _ _ _ _ pending own names binds =>
    have known : old.status ≠ .unknown := by
      rw [pending]
      decide
    -- the argument has the key of the record, so it is its name
    have same : canonical = old.canonical :=
      Subtype.ext (collisionFree _ (among _ names) _ (bound.names known) (own.trans (bound.own known).symm))
    rw [same] at binds
    exact ⟨fun _ => bound.own known,fun _ => bound.names known,fun _ => bound.encodes known,fun _ => .inl rfl,fun _ => binds⟩
  | revokes known standing =>
    exact ⟨fun _ => bound.own known,fun _ => bound.names known,fun _ => bound.encodes known,fun _ => .inr rfl,bound.binds⟩

variable (events : List Event)

def hashedBy : List (List UInt8) := events.flatMap Event.hashed

theorem bound_run (collisionFree : CollisionFree evm hashes) (among : ∀ a ∈ hashedBy events, a ∈ hashes)
    (state : Contracts) (initially : ∀ key, Bound evm hashes key (state.registry.package key) (state.registry.zkProof key))
    (key : Word) : Bound evm hashes key ((run (next evm self) state events).registry.package key)
      ((run (next evm self) state events).registry.zkProof key) := by
  have keeps : ∀ state, ∀ event ∈ events,
      (∀ key, Bound evm hashes key (state.registry.package key) (state.registry.zkProof key)) →
      ∀ key, Bound evm hashes key ((next evm self state event).registry.package key)
        ((next evm self state event).registry.zkProof key) := by
    intro state event inside bound key
    have own : ∀ a ∈ event.hashed, a ∈ hashes := fun a hashed => among a (mem_flatMap.mpr ⟨event,inside,hashed⟩)
    exact (next_changes evm self state event key).bound collisionFree own (bound key)
  exact kept_run (fun state => ∀ key, Bound evm hashes key (state.registry.package key) (state.registry.zkProof key))
    events keeps state initially key

theorem bound_deploy (governance : Address) (key : Word) :
    Bound evm hashes key ((deploy governance).package key) ((deploy governance).zkProof key) := by
  have blank : (deploy governance).package key = .blank := Ledger.read_empty _ key
  rw [blank]
  exact ⟨fun known => absurd rfl known,fun known => absurd rfl known,fun known => absurd rfl known,nofun,nofun⟩

def Proved (record : PackageRecord) : Prop :=
  record.validationMode = .zkProof ∧ (record.status = .verified ∨ record.status = .revoked)

/-- Without collisions of the hashes: the proof that is kept for a package is bound to it, and the
proofs of different packages differ in their first two public inputs. -/
theorem proof_binding (evm : Evm) (self governance : Address) (world : World) (reputation : Reputation) (events : List Event)
    (collisionFree : CollisionFree evm (hashedBy events)) :
    let state := run (next evm self) ⟨deploy governance,world,reputation⟩ events
    (∀ key, Proved (state.registry.package key) →
      Binds evm (state.registry.package key).canonical (state.registry.package key).contentHash
        (state.registry.package key).ipfsCid (state.registry.zkProof key).publicInputs) ∧
    ∀ key other, Proved (state.registry.package key) → Proved (state.registry.package other) →
      (state.registry.zkProof key).publicInputs.take 2 = (state.registry.zkProof other).publicInputs.take 2 →
      (state.registry.package key).canonical = (state.registry.package other).canonical ∧
        (state.registry.package key).contentHash = (state.registry.package other).contentHash ∧
        (state.registry.package key).ipfsCid = (state.registry.package other).ipfsCid := by
  intro state
  have bound : ∀ key, Bound evm (hashedBy events) key (state.registry.package key) (state.registry.zkProof key) :=
    bound_run events collisionFree (fun _ => id) _ (bound_deploy governance)
  refine ⟨fun key proved => (bound key).binds proved.1,?_⟩
  intro key other proved also shared
  have known : ∀ key, Proved (state.registry.package key) → (state.registry.package key).status ≠ .unknown := by
    rintro key ⟨_,verified | revoked⟩
    · rw [verified]
      decide
    · rw [revoked]
      decide
  have collision := ((bound key).binds proved.1).unique ((bound other).binds also.1) shared
  exact encodeBinding_injective
    (collisionFree _ ((bound key).encodes (known key proved)) _ ((bound other).encodes (known other also)) collision)

end Registry

namespace Desk
open Registry

def inputs : List Word := [(packageZKBindingInputs evm name 5 cid).1,(packageZKBindingInputs evm name 5 cid).2]

def proving : Event := .call (tx 12 450) (.verifyZKProof name (.replicate 8 0) inputs)

def proved : Contracts := run (next evm 6) ⟨deploy 4,start.world,start.reputation⟩ [submitting,proving]

theorem proved_is_bound : Binds evm (proved.registry.package (keyOf evm name)).canonical
    (proved.registry.package (keyOf evm name)).contentHash (proved.registry.package (keyOf evm name)).ipfsCid
    (proved.registry.zkProof (keyOf evm name)).publicInputs :=
  (proof_binding evm 6 4 start.world start.reputation [submitting,proving] (by decide +kernel)).1 (keyOf evm name)
    ⟨by decide +kernel,by decide +kernel⟩

end Desk
end ChainRegistry
