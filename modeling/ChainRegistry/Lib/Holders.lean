import Mathlib.Data.List.Basic

/-! Members of a list that hold keys of a store, each key by one member at most. What a holder
knows of the value at its key is kept as long as only the holder writes there. -/
namespace ChainRegistry.Lib.Holders
open List

variable {C K V : Type*} (hold : C → Option K) (agrees : C → V → Prop)

structure Kept (members : List C) (store : K → V) : Prop where
  alone : ∀ (i j : Nat) first second key, members[i]? = some first → members[j]? = some second →
    hold first = some key → hold second = some key → i = j
  agrees : ∀ member ∈ members, ∀ key, hold member = some key → agrees member (store key)

variable {hold agrees} {members : List C} {store after : K → V} {i : Nat} {old new : C}

theorem kept_nil (store : K → V) : Kept hold agrees [] store := ⟨nofun,nofun⟩

section
variable (kept : Kept hold agrees members store)
include kept

theorem Kept.join {member : C} (free : hold member = none) : Kept hold agrees (members ++ [member]) store := by
  have inside : ∀ (i : Nat) other key, (members ++ [member])[i]? = some other → hold other = some key →
    members[i]? = some other := by
    intro i other key found holds
    rw [List.getElem?_append] at found
    split_ifs at found
    · exact found
    · obtain rfl : member = other := mem_singleton.mp (List.mem_of_getElem? found) ▸ rfl
      rw [free] at holds
      cases holds
  constructor
  · intro i j first second key atFirst atSecond left right
    exact kept.alone i j first second key (inside i first key atFirst left) (inside j second key atSecond right) left right
  · intro other found key holds
    obtain ⟨i,atOther⟩ := mem_iff_getElem?.mp found
    exact kept.agrees other (List.mem_of_getElem? (inside i other key atOther holds)) key holds

theorem Kept.change
    (free : ∀ key, hold new = some key → ∀ (j : Nat) other, j ≠ i → members[j]? = some other → hold other ≠ some key)
    (others : ∀ (j : Nat) other key, j ≠ i → members[j]? = some other → hold other = some key → after key = store key)
    (own : ∀ key, hold new = some key → agrees new (after key)) : Kept hold agrees (members.set i new) after := by
  have split : ∀ (j : Nat) other, (members.set i new)[j]? = some other → j = i ∧ other = new ∨ j ≠ i ∧
    members[j]? = some other := by
    intro j other found
    rw [List.getElem?_set] at found
    split_ifs at found with same inside
    · exact .inl ⟨same.symm,(Option.some.inj found).symm⟩
    · exact .inr ⟨fun eq => same eq.symm,found⟩
  constructor
  · intro j k first second key atFirst atSecond left right
    obtain ⟨rfl,rfl⟩ | ⟨apart,wasFirst⟩ := split j first atFirst
    · obtain ⟨rfl,_⟩ | ⟨apart,wasSecond⟩ := split k second atSecond
      · rfl
      · exact absurd right (free key left k second apart wasSecond)
    · obtain ⟨rfl,rfl⟩ | ⟨_,wasSecond⟩ := split k second atSecond
      · exact absurd left (free key right j first apart wasFirst)
      · exact kept.alone j k first second key wasFirst wasSecond left right
  · intro other found key holds
    obtain ⟨j,atOther⟩ := mem_iff_getElem?.mp found
    obtain ⟨rfl,rfl⟩ | ⟨apart,wasOther⟩ := split j other atOther
    · exact own key holds
    · rw [others j other key apart wasOther holds]
      exact kept.agrees other (List.mem_of_getElem? wasOther) key holds

theorem Kept.renew (found : members[i]? = some old) {key : K} (held : hold old = some key)
    (holds : hold new = some key) (others : ∀ other ≠ key, after other = store other) (own : agrees new (after key)) :
    Kept hold agrees (members.set i new) after := by
  have apart : ∀ (j : Nat) other, j ≠ i → members[j]? = some other → hold other ≠ some key := by
    intro j other different atOther same
    exact different (kept.alone j i other old key atOther found same held)
  apply kept.change
  · intro wanted same
    obtain rfl : key = wanted := Option.some.inj (holds.symm.trans same)
    exact apart
  · intro j other wanted different atOther same
    apply others
    intro eq
    exact apart j other different atOther (same.trans (congrArg some eq))
  · intro wanted same
    obtain rfl : key = wanted := Option.some.inj (holds.symm.trans same)
    exact own

theorem Kept.release (free : hold new = none) : Kept hold agrees (members.set i new) store := by
  apply kept.change
  · intro key same
    rw [free] at same
    cases same
  · exact fun _ _ _ _ _ _ => rfl
  · intro key same
    rw [free] at same
    cases same

end

end ChainRegistry.Lib.Holders
