import ChainRegistry.Lib.Ledger

/-! Members of a list that use at most one key each, and two ways to keep account of the uses
in a table: the next number of a key that is free, and a counter of a key that starts anew
every day. -/
namespace ChainRegistry.Lib.Usage
open List Ledger

variable {C K : Type*} [DecidableEq K] {members : List C} {counters : Table K Counter} {use : C → Option K}
  {spent after : K × Nat → Nat} {free : Table K Nat} {key : K} {i : Nat} {limit today : Nat}
  {old new : C}

def uses (use : C → Option K) (members : List C) (key : K) : Nat := members.countP fun member => use member = some key

theorem uses_cons (use : C → Option K) (member : C) (members : List C) (key : K) :
    uses use (member :: members) key = uses use members key + if use member = some key then 1 else 0 := by
  simp [uses,countP_cons]

theorem uses_append_free (use : C → Option K) (members : List C) {member : C} (free : use member = none) (key : K) :
    uses use (members ++ [member]) key = uses use members key := by
  simp [uses,countP_append,free]

theorem uses_congr {use other : C → Option K} (same : ∀ member ∈ members, use member = other member) (key : K) :
    uses use members key = uses other members key := by
  apply countP_congr
  intro member inside
  rw [same member inside]

theorem uses_le {L : Type*} [DecidableEq L] {other : C → Option L} {wider : L}
    (implies : ∀ member ∈ members, use member = some key → other member = some wider) :
    uses use members key ≤ uses other members wider := by
  apply countP_mono_left
  intro member inside used
  exact decide_eq_true (implies member inside (of_decide_eq_true used))

private theorem uses_set (use : C → Option K) {old : C} (found : members[i]? = some old) (new : C) (key : K) :
    uses use (members.set i new) key + (if use old = some key then 1 else 0) =
      uses use members key + if use new = some key then 1 else 0 := by
  induction members generalizing i with
  | nil => simp at found
  | cons member members ih =>
    cases i with
    | zero =>
      obtain rfl : member = old := by simpa using found
      rw [set_cons_zero,uses_cons,uses_cons]
      omega
    | succ i =>
      have rest := ih (by simpa using found)
      rw [set_cons_succ,uses_cons,uses_cons]
      omega

theorem uses_set_same (found : members[i]? = some old) (same : use new = use old) (key : K) :
    uses use (members.set i new) key = uses use members key := by
  have change := uses_set use found new key
  rw [same] at change
  omega

theorem uses_set_taken (found : members[i]? = some old) (free : use old = none) {taken : K}
    (takes : use new = some taken) (key : K) :
    uses use (members.set i new) key = uses use members key + if key = taken then 1 else 0 := by
  have change := uses_set use found new key
  simpa [free,takes,eq_comm (a := taken)] using change

structure Spent (free : Table K Nat) (spent : K × Nat → Nat) : Prop where
  once : ∀ key n, spent (key,n) ≤ 1
  below : ∀ key n, spent (key,n) ≠ 0 → n < read 0 free key

theorem spent_none (free : Table K Nat) : Spent free fun _ => 0 :=
  ⟨fun _ _ => Nat.zero_le 1,fun _ _ used => absurd rfl used⟩

theorem Spent.congr (account : Spent free spent) (same : ∀ use, after use = spent use) : Spent free after := by
  rwa [funext same]

theorem Spent.take (account : Spent free spent) {n : Nat} (next : read 0 free key = n)
    (takes : ∀ use, after use = spent use + if use = (key,n) then 1 else 0) : Spent (free.insert key (n + 1)) after := by
  have unused : spent (key,n) = 0 := by
    by_contra used
    have := account.below key n used
    omega
  constructor
  · intro other m
    rw [takes]
    split_ifs with same
    · rw [same,unused]
    · exact account.once other m
  · intro other m used
    rw [takes] at used
    rw [read_insert]
    by_cases same : other = key
    · subst same
      rw [if_pos rfl]
      by_cases last : m = n
      · omega
      · have before := account.below other m (by simpa [last] using used)
        omega
    · rw [if_neg same]
      exact account.below other m (by simpa [same] using used)

structure Counter where
  (day count : Nat)

def countOn (counters : Table K Counter) (day : Nat) (key : K) : Nat :=
  match counters.lookup key with
  | some counter => if counter.day = day then counter.count else 0
  | none => 0

theorem countOn_insert (counters : Table K Counter) (day count : Nat) (key other : K) :
    countOn (counters.insert key ⟨day,count⟩) day other = if other = key then count else countOn counters day other := by
  rw [countOn,Table.lookup_insert_eq]
  split_ifs
  · simp
  · rfl

structure Counted (counters : Table K Counter) (limit today : Nat) (used : K × Nat → Nat) : Prop where
  past : ∀ key, ∀ counter ∈ counters.lookup key, counter.day ≤ today
  agrees : ∀ key, used (key,today) = countOn counters today key
  future : ∀ key day, today < day → used (key,day) = 0
  within : ∀ key day, used (key,day) ≤ limit

theorem counted_none (limit today : Nat) : Counted (∅ : Table K Counter) limit today fun _ => 0 where
  past key counter found := by simp at found
  agrees key := by simp [countOn]
  future _ _ _ := rfl
  within _ _ := Nat.zero_le limit

theorem Counted.congr {used after : K × Nat → Nat} (account : Counted counters limit today used)
    (same : ∀ use, after use = used use) : Counted counters limit today after := by
  rwa [funext same]

theorem Counted.record {used after : K × Nat → Nat} (account : Counted counters limit today used)
    (room : countOn counters today key < limit) (records : ∀ use, after use = used use + if use = (key,today) then 1 else 0) :
    Counted (counters.insert key ⟨today,countOn counters today key + 1⟩) limit today after where
  past other counter found := by
    rw [Option.mem_def,Table.lookup_insert_eq] at found
    split_ifs at found with same
    · cases found
      exact le_rfl
    · exact account.past other counter found
  agrees other := by
    rw [records,countOn_insert,account.agrees other]
    by_cases same : other = key
    · simp [same]
    · simp [same]
  future other day later := by
    rw [records,account.future other day later,if_neg]
    intro same
    have := congrArg Prod.snd same
    omega
  within other day := by
    rw [records]
    split_ifs with same
    · cases same
      rw [account.agrees]
      exact room
    · exact account.within other day

theorem Counted.advance {limit today day : Nat} {used : K × Nat → Nat} (account : Counted counters limit today used)
    (later : today < day) : Counted counters limit day used where
  past key counter found := (account.past key counter found).trans later.le
  agrees key := by
    rw [account.future key day later,countOn]
    cases found : counters.lookup key with
    | none => rfl
    | some counter =>
      have before := account.past key counter found
      exact (if_neg (by omega)).symm
  future key other after := account.future key other (later.trans after)
  within := account.within

end ChainRegistry.Lib.Usage
