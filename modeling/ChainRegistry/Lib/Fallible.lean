import Mathlib.Logic.Basic

/-! When a computation in `Except` succeeds, read step by step. -/
namespace ChainRegistry.Lib.Fallible
open List

variable {ε δ α β : Type} {inputs : List δ} {f : δ → Except ε α}

@[simp] theorem bind_ok (first : Except ε α) (next : α → Except ε β) (result : β) :
    (first >>= next) = .ok result ↔ ∃ value, first = .ok value ∧ next value = .ok result := by
  cases first <;> simp [bind,Except.bind]

theorem ok_bind (value : α) (next : α → Except ε β) : ((.ok value : Except ε α) >>= next) = next value := rfl

@[simp] theorem mapError_ok (input : Except ε α) (f : ε → δ) (value : α) : input.mapError f = .ok value ↔ input = .ok value := by
  cases input with
  | ok result => exact ⟨fun same => congrArg Except.ok (Except.ok.inj same),fun same => congrArg Except.ok (Except.ok.inj same)⟩
  | error e =>
    constructor
    · intro same
      cases same
    · intro same
      cases same

@[simp] theorem map_ok (input : Except ε α) (f : α → β) (result : β) :
    input.map f = .ok result ↔ ∃ value, input = .ok value ∧ f value = result := by
  cases input with
  | ok value =>
    constructor
    · intro same
      exact ⟨value,rfl,Except.ok.inj same⟩
    · rintro ⟨other,same,made⟩
      cases same
      exact congrArg Except.ok made
  | error e =>
    constructor
    · intro same
      cases same
    · rintro ⟨_,same,_⟩
      cases same

@[simp] theorem throw_ok (e : ε) (value : α) : (throw e : Except ε α) = .ok value ↔ False := by
  simp [throw,throwThe,MonadExceptOf.throw]

@[simp] theorem pure_ok (value result : α) : (pure value : Except ε α) = .ok result ↔ value = result := by
  simp [pure,Except.pure]

theorem pair_ok (a c : α) (b d : β) : (pure (a,b) : Except ε (α × β)) = .ok (c,d) ↔ a = c ∧ b = d := by
  rw [pure_ok,Prod.mk.injEq]

@[simp] theorem check_ok (bad : Prop) [Decidable bad] (e : ε) (next : Unit → Except ε α) (result : α) :
    (if bad then (throw e : Except ε Unit) >>= next else next ()) = .ok result ↔
      ¬bad ∧ next () = .ok result := by
  by_cases fails : bad <;> simp [fails,throw,throwThe,MonadExceptOf.throw,bind,Except.bind]

theorem isOk_iff {ε α : Type} {x : Except ε α} : x.isOk ↔ ∃ a, x = .ok a := by
  cases x <;> simp [Except.isOk,Except.toBool]

theorem mapM_congr {f g : δ → Except ε α} (same : ∀ input ∈ inputs, f input = g input) : inputs.mapM f = inputs.mapM g := by
  induction inputs with
  | nil => rfl
  | cons input inputs ih =>
    rw [mapM_cons,mapM_cons,same input mem_cons_self,ih fun other inside => same other (mem_cons_of_mem _ inside)]

theorem mapM_cases {P : ε → Prop} {Q : α → Prop}
    (each : ∀ input ∈ inputs, (∃ error, f input = .error error ∧ P error) ∨ ∃ value, f input = .ok value ∧ Q value) :
    (∃ error, inputs.mapM f = .error error ∧ P error) ∨
      ∃ values, inputs.mapM f = .ok values ∧ values.length = inputs.length ∧ ∀ value ∈ values, Q value := by
  induction inputs with
  | nil => exact .inr ⟨[],rfl,rfl,fun _ absent => absurd absent not_mem_nil⟩
  | cons input inputs ih =>
    rw [mapM_cons]
    obtain ⟨error,failed,kind⟩ | ⟨value,made,kind⟩ := each input mem_cons_self
    · rw [failed]
      exact .inl ⟨error,rfl,kind⟩
    rw [made]
    obtain ⟨error,failed,others⟩ | ⟨values,rest,length,others⟩ := ih fun other inside => each other (mem_cons_of_mem _ inside)
    · rw [failed]
      exact .inl ⟨error,rfl,others⟩
    · rw [rest]
      exact .inr ⟨value :: values,rfl,congrArg (· + 1) length,forall_mem_cons.mpr ⟨kind,others⟩⟩

theorem mapM_total (total : ∀ input ∈ inputs, ∃ value, f input = .ok value) :
    ∃ values, inputs.mapM f = .ok values ∧ values.length = inputs.length := by
  have each : ∀ input ∈ inputs, (∃ error, f input = .error error ∧ False) ∨ ∃ value, f input = .ok value ∧ True := by
    intro input inside
    obtain ⟨value,made⟩ := total input inside
    exact .inr ⟨value,made,trivial⟩
  obtain ⟨_,_,impossible⟩ | ⟨values,made,length,_⟩ := mapM_cases each
  · exact impossible.elim
  · exact ⟨values,made,length⟩

theorem mapM_error {error : ε} (only : ∀ input ∈ inputs, f input = .error error ∨ ∃ value, f input = .ok value)
    (fails : ∃ input ∈ inputs, f input = .error error) : inputs.mapM f = .error error := by
  induction inputs with
  | nil =>
    obtain ⟨_,absent,_⟩ := fails
    exact absurd absent not_mem_nil
  | cons input inputs ih =>
    rw [mapM_cons]
    obtain failed | ⟨value,made⟩ := only input mem_cons_self
    · rw [failed]
      rfl
    obtain ⟨other,inside,failed⟩ := fails
    rcases mem_cons.mp inside with rfl | inside
    · rw [made] at failed
      cases failed
    rw [made,ok_bind,ih (fun other inside => only other (mem_cons_of_mem _ inside)) ⟨other,inside,failed⟩]
    rfl

theorem foldlM_invariant {σ : Type} {f : σ → δ → Except ε σ} {holds : σ → Prop}
    (keeps : ∀ state input after, holds state → f state input = .ok after → holds after) {state after : σ}
    (initially : holds state) (done : inputs.foldlM f state = .ok after) : holds after := by
  induction inputs generalizing state with
  | nil =>
    cases done
    exact initially
  | cons input inputs ih =>
    rw [foldlM_cons,bind_ok] at done
    obtain ⟨next,first,rest⟩ := done
    exact ih (keeps state input next initially first) rest

def Avoids (bad : ε → Prop) (input : Except ε α) : Prop := ∀ e, input = .error e → ¬bad e

namespace Avoids
variable {bad : ε → Prop}

theorem ok (value : α) : Avoids bad (.ok value) := fun _ failed => nomatch failed

theorem bind {first : Except ε α} {next : α → Except ε β} (head : Avoids bad first)
    (rest : ∀ value, first = .ok value → Avoids bad (next value)) : Avoids bad (first >>= next) := by
  intro e failed
  cases done : first with
  | ok value =>
    rw [done] at failed
    exact rest value done e failed
  | error other =>
    rw [done] at failed
    cases failed
    exact head e done

end Avoids

end ChainRegistry.Lib.Fallible
