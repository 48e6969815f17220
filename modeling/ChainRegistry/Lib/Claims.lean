import ChainRegistry.Lib.Runs
import Mathlib.Data.Finset.Dedup

/-! Values that are claimed for keys. A claim is refused while another key holds a value that
clashes with it, and otherwise replaces what its key held. Accepted claims are journaled; after a
restart they are made again one by one, while new ones arrive. -/
namespace ChainRegistry.Lib.Claims
open Runs List Option Finset Function

structure Rules (C K V : Type*) where
  key : C → K
  value : C → V
  clash : V → V → Prop
  record : List C → C → List C

structure Book (C K V : Type*) where
  held : K → Option V
  (journal pending : List C)

inductive Event (C : Type*)
  | deliver (claim : C)
  | restart
  -- the next claim of the journal after a restart
  | restore

variable {C K V : Type*}

def Book.empty : Book C K V := ⟨fun _ => none,[],[]⟩

namespace Rules
variable (rules : Rules C K V)

def Blocked (held : K → Option V) (claim : C) : Prop :=
  ∃ key value, held key = some value ∧ key ≠ rules.key claim ∧ rules.clash value (rules.value claim)

open Classical in
noncomputable def take (held : K → Option V) (claim : C) : K → Option V :=
  if rules.Blocked held claim then held else Function.update held (rules.key claim) (some (rules.value claim))

open Classical in
noncomputable def step (book : Book C K V) : Event C → Book C K V
  | .deliver claim =>
    {book with
      held := rules.take book.held claim
      journal := if rules.Blocked book.held claim then book.journal else rules.record book.journal claim}
  | .restart => {book with held := fun _ => none, pending := book.journal}
  | .restore =>
    match book.pending with
    | [] => book
    | claim :: pending => {book with held := rules.take book.held claim, pending := pending}

def Free (claims : Finset C) : Prop :=
  ∀ c ∈ claims, ∀ d ∈ claims, (rules.key c = rules.key d → rules.value c = rules.value d) ∧
    (rules.key c ≠ rules.key d → ¬rules.clash (rules.value c) (rules.value d))

structure Records (claims : Finset C) : Prop where
  new : ∀ journal claim, claim ∈ rules.record journal claim
  only : ∀ journal claim, ∀ c ∈ rules.record journal claim, c = claim ∨ c ∈ journal
  kept : ∀ journal, ∀ claim ∈ claims, ∀ c ∈ claims, c ∈ journal →
    c ∈ rules.record journal claim ∨ rules.key c = rules.key claim

structure Complete (claims : Finset C) (events : List (Event C)) : Prop where
  delivered : ∀ claim, .deliver claim ∈ events ↔ claim ∈ claims
  restored : (run rules.step Book.empty events).pending = []

variable {rules} {held : K → Option V} {claim : C} {claims : Finset C} {book : Book C K V} {event : Event C} {order : List C}
  {events : List (Event C)}

theorem take_blocked (blocked : rules.Blocked held claim) : rules.take held claim = held := if_pos blocked

theorem take_own (unblocked : ¬rules.Blocked held claim) :
    rules.take held claim (rules.key claim) = some (rules.value claim) := by
  classical
  rw [take,if_neg unblocked,update_self]

theorem take_other {key : K} (other : key ≠ rules.key claim) : rules.take held claim key = held key := by
  classical
  rw [take]
  split_ifs
  · rfl
  · exact update_of_ne other _ _

theorem take_unblocked [DecidableEq K] (unblocked : ¬rules.Blocked held claim) :
    rules.take held claim = Function.update held (rules.key claim) (some (rules.value claim)) := by
  funext key
  by_cases own : key = rules.key claim
  · rw [own,take_own unblocked,update_self]
  · rw [take_other own,update_of_ne own]

theorem take_cases (rules : Rules C K V) (held : K → Option V) (claim : C) (key : K) : rules.take held claim key = held key ∨
    key = rules.key claim ∧ rules.take held claim key = some (rules.value claim) := by
  by_cases blocked : rules.Blocked held claim
  · exact .inl (by rw [take_blocked blocked])
  · by_cases own : key = rules.key claim
    · exact .inr ⟨own,own ▸ take_own blocked⟩
    · exact .inl (take_other own)

theorem step_blocked (blocked : rules.Blocked book.held claim) : rules.step book (.deliver claim) = book := by
  simp only [step,take_blocked blocked,if_pos blocked]

theorem step_unblocked (unblocked : ¬rules.Blocked book.held claim) : rules.step book (.deliver claim) =
    {book with held := rules.take book.held claim, journal := rules.record book.journal claim} := by
  simp only [step,if_neg unblocked]

def Supported (rules : Rules C K V) (claims : Finset C) (held : K → Option V) : Prop :=
  ∀ key value, held key = some value → ∃ c ∈ claims, rules.key c = key ∧ rules.value c = value

structure Sound (rules : Rules C K V) (claims : Finset C) (book : Book C K V) : Prop where
  held : rules.Supported claims book.held
  journal : ∀ c ∈ book.journal, c ∈ claims
  pending : ∀ c ∈ book.pending, c ∈ claims

theorem sound_empty : rules.Sound claims Book.empty where
  held _ _ found := nomatch found
  journal _ inside := nomatch inside
  pending _ inside := nomatch inside

theorem Supported.unblocked (free : rules.Free claims) (supported : rules.Supported claims held)
    (inside : claim ∈ claims) : ¬rules.Blocked held claim := by
  rintro ⟨key,value,found,other,clash⟩
  obtain ⟨c,among,rfl,rfl⟩ := supported key value found
  exact (free c among claim inside).2 other clash

theorem Supported.take (supported : rules.Supported claims held) (inside : claim ∈ claims) :
    rules.Supported claims (rules.take held claim) := by
  intro key value found
  rcases take_cases rules held claim key with kept | ⟨own,taken⟩
  · exact supported key value (kept ▸ found)
  · exact ⟨claim,inside,own.symm,Option.some.inj (taken.symm.trans found)⟩

def Offered (claims : Finset C) (event : Event C) : Prop := ∀ claim, event = .deliver claim → claim ∈ claims

theorem Sound.step (records : rules.Records claims) (sound : rules.Sound claims book) (offered : Offered claims event) :
    rules.Sound claims (rules.step book event) := by
  cases event with
  | deliver claim =>
    have inside := offered claim rfl
    by_cases blocked : rules.Blocked book.held claim
    · rwa [step_blocked blocked]
    · rw [step_unblocked blocked]
      refine ⟨sound.held.take inside,fun c among => ?_,sound.pending⟩
      rcases records.only _ _ c among with rfl | old
      · exact inside
      · exact sound.journal c old
  | restart => exact ⟨sound_empty.held,sound.journal,sound.journal⟩
  | restore =>
    obtain ⟨held,journal,pending⟩ := book
    cases pending with
    | nil => exact sound
    | cons claim pending =>
      exact ⟨sound.held.take (sound.pending claim List.mem_cons_self),sound.journal,
        fun c among => sound.pending c (List.mem_cons_of_mem _ among)⟩

structure Known (rules : Rules C K V) (claim : C) (book : Book C K V) : Prop where
  recorded : ∃ c ∈ book.journal, rules.key c = rules.key claim
  awaited : book.held (rules.key claim) ≠ none ∨ ∃ c ∈ book.pending, rules.key c = rules.key claim

theorem take_held {key : K} (found : held key ≠ none) : rules.take held claim key ≠ none := by
  rcases take_cases rules held claim key with kept | ⟨_,taken⟩
  · exact kept ▸ found
  · exact taken ▸ some_ne_none _

section
variable (free : rules.Free claims) (records : rules.Records claims) (sound : rules.Sound claims book)
include free records sound

theorem known_deliver (inside : claim ∈ claims) : rules.Known claim (rules.step book (.deliver claim)) := by
  have unblocked := sound.held.unblocked free inside
  rw [step_unblocked unblocked]
  refine ⟨⟨claim,records.new _ _,rfl⟩,.inl ?_⟩
  exact ne_of_eq_of_ne (take_own unblocked) (some_ne_none _)

theorem Known.step
    (known : rules.Known claim book) (offered : Offered claims event) : rules.Known claim (rules.step book event) := by
  obtain ⟨⟨c,among,same⟩,awaited⟩ := known
  cases event with
  | deliver other =>
    have inside := offered other rfl
    rw [step_unblocked (sound.held.unblocked free inside)]
    refine ⟨?_,awaited.imp_left take_held⟩
    rcases records.kept _ other inside c (sound.journal c among) among with kept | replaced
    · exact ⟨c,kept,same⟩
    · exact ⟨other,records.new _ _,replaced.symm.trans same⟩
  | restart => exact ⟨⟨c,among,same⟩,.inr ⟨c,among,same⟩⟩
  | restore =>
    obtain ⟨held,journal,pending⟩ := book
    refine ⟨?_,?_⟩
    · cases pending <;> exact ⟨c,among,same⟩
    · cases pending with
      | nil => exact awaited
      | cons next pending =>
        rcases awaited with found | ⟨d,later,equal⟩
        · exact .inl (take_held found)
        · rcases List.mem_cons.mp later with rfl | later
          · have unblocked := sound.held.unblocked free (sound.pending d List.mem_cons_self)
            have holds := take_own unblocked
            rw [equal] at holds
            exact .inl (ne_of_eq_of_ne holds (some_ne_none _))
          · exact .inr ⟨d,later,equal⟩

end

theorem Complete.offered (complete : rules.Complete claims events) (inside : event ∈ events) : Offered claims event := by
  rintro claim rfl
  exact (complete.delivered claim).mp inside

theorem held_complete (free : rules.Free claims) (records : rules.Records claims) (complete : rules.Complete claims events)
    (key : K) (value : V) :
    (run rules.step Book.empty events).held key = some value ↔
      ∃ c ∈ claims, rules.key c = key ∧ rules.value c = value := by
  have sound : ∀ events : List (Event C), (∀ event ∈ events, Offered claims event) →
      rules.Sound claims (run rules.step Book.empty events) := by
    intro events offered
    exact kept_run (rules.Sound claims) events (fun _ event inside sound => sound.step records (offered event inside))
      _ sound_empty
  constructor
  · exact (sound events fun event => complete.offered).held key value
  · rintro ⟨c,among,rfl,rfl⟩
    -- the run up to the delivery of the claim, and on from there
    obtain ⟨before,after,split⟩ := append_of_mem ((complete.delivered c).mpr among)
    have offered : ∀ event ∈ events, Offered claims event := fun event => complete.offered
    have first := sound before fun event inside => offered event (by simp [split,inside])
    have delivered := first.step records (offered (.deliver c) (by simp [split]))
    have known : rules.Known c (run rules.step Book.empty events) := by
      rw [split,run_append,run_cons]
      refine (kept_run (fun book => rules.Sound claims book ∧ rules.Known c book) after ?_ _
        ⟨delivered,known_deliver free records first among⟩).2
      rintro book event inside ⟨sound,known⟩
      have allowed := offered event (by simp [split,inside])
      exact ⟨sound.step records allowed,known.step free records sound allowed⟩
    have found : (run rules.step Book.empty events).held (rules.key c) ≠ none := by
      refine known.awaited.resolve_right ?_
      rw [complete.restored]
      exact fun ⟨_,inside,_⟩ => nomatch inside
    obtain ⟨value,holds⟩ := ne_none_iff_exists'.mp found
    obtain ⟨d,inside,same,rfl⟩ := (sound events offered).held _ _ holds
    rw [holds,(free d inside c among).1 same]

noncomputable def taken (rules : Rules C K V) (order : List C) : K → Option V := run rules.take (fun _ => none) order

theorem run_deliveries (rules : Rules C K V) (order : List C) (book : Book C K V) :
    (run rules.step book (order.map .deliver)).held = run rules.take book.held order ∧
      (run rules.step book (order.map .deliver)).pending = book.pending := by
  induction order generalizing book with
  | nil => exact ⟨rfl,rfl⟩
  | cons claim order ih => exact ih _

theorem complete_deliveries (all : ∀ c, c ∈ order ↔ c ∈ claims) : rules.Complete claims (order.map .deliver) where
  delivered c := by simp [all]
  restored := (run_deliveries rules order Book.empty).2

theorem not_blocked_alone (alone : ∀ key, key ≠ rules.key claim → held key = none) : ¬rules.Blocked held claim := by
  rintro ⟨key,value,found,other,_⟩
  rw [alone key other] at found
  cases found

theorem taken_last (own : ∀ c ∈ order, rules.key c = rules.key claim) :
    rules.taken (order ++ [claim]) (rules.key claim) = some (rules.value claim) := by
  have alone : ∀ key, key ≠ rules.key claim → run rules.take (fun _ => none) order key = none := by
    intro key other
    refine kept_run (fun held : K → Option V => held key = none) order (fun held c among empty => ?_) _ rfl
    rw [take_other (own c among ▸ other),empty]
  rw [taken,run_append]
  exact take_own (not_blocked_alone alone)

theorem exists_order_last (rules : Rules C K V) (inside : claim ∈ claims) :
    ∃ order : List C, (∀ c, c ∈ order ↔ c ∈ claims) ∧ rules.taken order (rules.key claim) = some (rules.value claim) := by
  classical
  let own := claims.toList.filter fun c => rules.key c = rules.key claim
  let others := claims.toList.filter fun c => rules.key c ≠ rules.key claim
  refine ⟨own ++ [claim] ++ others,?_,?_⟩
  · intro c
    simp only [own,others,mem_append,List.mem_singleton,List.mem_filter,Finset.mem_toList,decide_eq_true_eq]
    refine ⟨?_,fun among => ?_⟩
    · rintro ((⟨among,_⟩ | rfl) | ⟨among,_⟩)
      · exact among
      · exact inside
      · exact among
    · by_cases same : rules.key c = rules.key claim
      · exact .inl (.inl ⟨among,same⟩)
      · exact .inr ⟨among,same⟩
  · have last : rules.taken (own ++ [claim]) (rules.key claim) = some (rules.value claim) :=
      taken_last fun c among => by simpa [own] using (List.mem_filter.mp among).2
    rw [taken,run_append]
    refine kept_run (fun held : K → Option V => held (rules.key claim) = some (rules.value claim)) others ?_ _ last
    intro held c among found
    have other : rules.key c ≠ rules.key claim := by simpa [others] using (List.mem_filter.mp among).2
    rw [take_other other.symm,found]

theorem taken_first (single : ∀ c ∈ claims, ∀ d ∈ claims, rules.key c = rules.key d → rules.value c = rules.value d)
    (inside : claim ∈ claims) (all : ∀ c ∈ order, c ∈ claims) :
    rules.taken (claim :: order) (rules.key claim) = some (rules.value claim) ∧
      ∀ d ∈ claims, rules.key claim ≠ rules.key d → rules.clash (rules.value claim) (rules.value d) →
        rules.taken (claim :: order) (rules.key d) = none := by
  let Kept (held : K → Option V) : Prop := held (rules.key claim) = some (rules.value claim) ∧
    ∀ d ∈ claims, rules.key claim ≠ rules.key d → rules.clash (rules.value claim) (rules.value d) →
      held (rules.key d) = none
  rw [taken,run_cons]
  refine kept_run Kept order ?_ _ ⟨take_own (not_blocked_alone fun _ _ => rfl),?_⟩
  · rintro held c among ⟨found,empty⟩
    constructor
    · rcases take_cases rules held c (rules.key claim) with kept | ⟨own,replaced⟩
      · exact kept.trans found
      · rw [replaced,single c (all c among) claim inside own.symm]
    · intro d member other clash
      by_cases own : rules.key d = rules.key c
      · have blocked : rules.Blocked held c :=
          ⟨rules.key claim,rules.value claim,found,own ▸ other,single d member c (all c among) own ▸ clash⟩
        rw [take_blocked blocked]
        exact empty d member other clash
      · rw [take_other own]
        exact empty d member other clash
  · intro d _ other _
    exact take_other other.symm

theorem free_of_agree (agree : ∀ first second : List C, (∀ c, c ∈ first ↔ c ∈ claims) → (∀ c, c ∈ second ↔ c ∈ claims) →
    rules.taken first = rules.taken second) : rules.Free claims := by
  have single : ∀ c ∈ claims, ∀ d ∈ claims, rules.key c = rules.key d → rules.value c = rules.value d := by
    intro c inside d among same
    obtain ⟨first,all,holds⟩ := exists_order_last rules inside
    obtain ⟨second,all',holds'⟩ := exists_order_last rules among
    rw [agree first second all all',same] at holds
    exact Option.some.inj (holds.symm.trans holds')
  intro c inside d among
  refine ⟨single c inside d among,fun other clash => ?_⟩
  have whole : ∀ e, e ∈ claims → ∀ x, x ∈ e :: claims.toList ↔ x ∈ claims := by
    intro e member x
    simp only [List.mem_cons,Finset.mem_toList,or_iff_right_iff_imp]
    exact fun same => same ▸ member
  have members : ∀ e ∈ claims.toList, e ∈ claims := fun e => Finset.mem_toList.mp
  have absent := (taken_first single inside members).2 d among other clash
  have present := (taken_first single among members).1
  rw [agree _ _ (whole c inside) (whole d among),present] at absent
  cases absent

/-- All deliveries of the claims end with the same values exactly when no two are in conflict. -/
theorem converges_iff (records : rules.Records claims) :
    (∀ first second, rules.Complete claims first → rules.Complete claims second →
      (run rules.step Book.empty first).held = (run rules.step Book.empty second).held) ↔ rules.Free claims := by
  constructor
  · intro converges
    refine free_of_agree fun first second all all' => ?_
    have same := converges _ _ (complete_deliveries all) (complete_deliveries all')
    rwa [(run_deliveries rules first _).1,(run_deliveries rules second _).1] at same
  · intro free first second complete complete'
    funext key
    apply Option.ext
    intro value
    rw [held_complete free records complete,held_complete free records complete']

end Rules
end ChainRegistry.Lib.Claims
