import Mathlib.Data.List.Basic
import Mathlib.Data.List.Induction

/-! Runs of a deterministic machine. Every choice of the environment is part of
an event, so that a run is a list of events and a property of all runs is a
property of all such lists. -/
namespace ChainRegistry.Lib.Runs
open List

variable {σ ε : Type*}

def run (step : σ → ε → σ) (start : σ) (events : List ε) : σ := events.foldl step start

def Along (step : σ → ε → σ) (allowed : σ → ε → Prop) : σ → List ε → Prop
  | _, [] => True
  | state, event :: events => allowed state event ∧ Along step allowed (step state event) events

def Throughout (step : σ → ε → σ) (holds : σ → Prop) : σ → List ε → Prop
  | state, [] => holds state
  | state, event :: events => holds state ∧ Throughout step holds (step state event) events

instance decidableAlong (step : σ → ε → σ) (allowed : σ → ε → Prop) [∀ state event, Decidable (allowed state event)] :
    (state : σ) → (events : List ε) → Decidable (Along step allowed state events)
  | _, [] => isTrue trivial
  | state, event :: events =>
    have := decidableAlong step allowed (step state event) events
    inferInstanceAs (Decidable (allowed state event ∧ Along step allowed (step state event) events))

instance decidableThroughout (step : σ → ε → σ) (holds : σ → Prop) [DecidablePred holds] :
    (state : σ) → (events : List ε) → Decidable (Throughout step holds state events)
  | state, [] => inferInstanceAs (Decidable (holds state))
  | state, event :: events =>
    have := decidableThroughout step holds (step state event) events
    inferInstanceAs (Decidable (holds state ∧ Throughout step holds (step state event) events))

variable {step : σ → ε → σ} {allowed : σ → ε → Prop} {holds : σ → Prop} {events : List ε} {state : σ} {more : σ → ε → Prop}

@[simp] theorem run_nil (state : σ) : run step state [] = state := rfl

@[simp] theorem run_cons (state : σ) (event : ε) (events : List ε) :
    run step state (event :: events) = run step (step state event) events := rfl

theorem run_append (state : σ) (first second : List ε) :
    run step state (first ++ second) = run step (run step state first) second :=
  foldl_append

theorem along_append (state : σ) (first second : List ε) : Along step allowed state (first ++ second) ↔
    Along step allowed state first ∧ Along step allowed (run step state first) second := by
  induction first generalizing state with
  | nil => simp [Along]
  | cons event events ih => simp only [cons_append,Along,run_cons,ih,and_assoc]

theorem along_and (left : Along step allowed state events) (right : Along step more state events) :
    Along step (fun state event => allowed state event ∧ more state event) state events := by
  induction events generalizing state with
  | nil => trivial
  | cons event events ih => exact ⟨⟨left.1,right.1⟩,ih left.2 right.2⟩

theorem along_mono (weaker : ∀ state event, allowed state event → more state event) (state : σ) (events : List ε)
    (along : Along step allowed state events) : Along step more state events := by
  induction events generalizing state with
  | nil => trivial
  | cons event events ih => exact ⟨weaker _ _ along.1,ih _ along.2⟩

theorem along_of_splits (allows : ∀ before event rest, events = before ++ event :: rest → allowed (run step state before) event) :
    Along step allowed state events := by
  induction events generalizing state with
  | nil => trivial
  | cons event events ih =>
    refine ⟨allows [] event events rfl,ih ?_⟩
    intro before other rest split
    exact allows (event :: before) other rest (by rw [split,cons_append])

section
variable (keeps : ∀ state event, holds state → allowed state event → holds (step state event))
include keeps

/-- The invariant rule: what one allowed event keeps, a whole run keeps. -/
theorem invariant_run (state : σ) (events : List ε) (initially : holds state) (along : Along step allowed state events) :
    holds (run step state events) := by
  induction events generalizing state with
  | nil => exact initially
  | cons event events ih => exact ih _ (keeps _ _ initially along.1) along.2

theorem throughout_run {shown : σ → Prop} (shows : ∀ state, holds state → shown state)
    (state : σ) (events : List ε) (initially : holds state) (along : Along step allowed state events) :
    Throughout step shown state events := by
  induction events generalizing state with
  | nil => exact shows state initially
  | cons event events ih => exact ⟨shows state initially,ih _ (keeps _ _ initially along.1) along.2⟩

theorem along_invariant {shown : σ → ε → Prop} (shows : ∀ state event, holds state → allowed state event → shown state event)
    (state : σ) (events : List ε) (initially : holds state) (along : Along step allowed state events) :
    Along step shown state events := by
  induction events generalizing state with
  | nil => trivial
  | cons event events ih => exact ⟨shows state event initially along.1,ih _ (keeps _ _ initially along.1) along.2⟩

theorem along_congr {shown other : σ → ε → Prop}
    (same : ∀ state event, holds state → allowed state event → (shown state event ↔ other state event))
    (state : σ) (events : List ε) (initially : holds state) (along : Along step allowed state events) :
    Along step shown state events ↔ Along step other state events := by
  induction events generalizing state with
  | nil => exact Iff.rfl
  | cons event events ih =>
    exact and_congr (same state event initially along.1) (ih _ (keeps _ _ initially along.1) along.2)

end

section
variable (keeps : ∀ state event, holds state → holds (step state event))
include keeps

theorem throughout_congr {shown other : σ → Prop}
    (same : ∀ state, holds state → (shown state ↔ other state)) (state : σ) (events : List ε) (initially : holds state) :
    Throughout step shown state events ↔ Throughout step other state events := by
  induction events generalizing state with
  | nil => exact same state initially
  | cons event events ih => exact and_congr (same state initially) (ih _ (keeps _ _ initially))

theorem always_run (state : σ) (events : List ε) (initially : holds state) : holds (run step state events) := by
  induction events generalizing state with
  | nil => exact initially
  | cons event events ih => exact ih _ (keeps _ _ initially)

theorem throughout_always {shown : σ → Prop}
    (shows : ∀ state, holds state → shown state) (state : σ) (events : List ε) (initially : holds state) :
    Throughout step shown state events := by
  induction events generalizing state with
  | nil => exact shows state initially
  | cons event events ih => exact ⟨shows state initially,ih _ (keeps _ _ initially)⟩

end

theorem kept_run (holds : σ → Prop) (events : List ε) (keeps : ∀ state, ∀ event ∈ events, holds state → holds (step state event))
    (state : σ) (initially : holds state) : holds (run step state events) :=
  List.foldlRecOn events step initially fun state kept event inside => keeps state event inside kept

theorem throughout_last (throughout : Throughout step holds state events) : holds (run step state events) := by
  induction events generalizing state with
  | nil => exact throughout
  | cons event events ih => exact ih throughout.2

theorem along_of_throughout (throughout : Throughout step holds state events) :
    Along step (fun state event => holds (step state event)) state events := by
  induction events generalizing state with
  | nil => trivial
  | cons event events ih =>
    refine ⟨?_,ih throughout.2⟩
    cases events with
    | nil => exact throughout.2
    | cons second events => exact throughout.2.1

theorem throughout_snoc (state : σ) (events : List ε) (event : ε) : Throughout step holds state (events ++ [event]) ↔
    Throughout step holds state events ∧ holds (run step state (events ++ [event])) := by
  induction events generalizing state with
  | nil => exact Iff.rfl
  | cons first events ih => rw [cons_append,Throughout,Throughout,ih,and_assoc,run_cons]

/-- If events keep a property exactly when they are allowed, it survives a run exactly when all of its events are. -/
theorem throughout_iff_along (keeps : ∀ state event, holds state → (holds (step state event) ↔ allowed state event))
    (state : σ) (events : List ε) (initially : holds state) :
    Throughout step holds state events ↔ Along step allowed state events := by
  induction events generalizing state with
  | nil => simp [Throughout,Along,initially]
  | cons event events ih =>
    simp only [Throughout,Along,initially,true_and]
    constructor
    · intro throughout
      have next : holds (step state event) := by cases events <;> simp_all [Throughout]
      exact ⟨(keeps state event initially).mp next,(ih _ next).mp throughout⟩
    · rintro ⟨allows,along⟩
      exact (ih _ ((keeps state event initially).mpr allows)).mpr along

/-- Two machines agree on events that each are fit to come after those before, by what these have made of the state. -/
theorem run_agree {fit : ε → ε → Prop} {known : ε → Prop} {next later : σ → ε → σ} {made : List ε → σ → Prop}
    (agree : ∀ events event now, made events now → known event → (∀ earlier ∈ events, fit earlier event) →
      next now event = later now event ∧ made (events ++ [event]) (later now event))
    {start : σ} (initially : made [] start) {events : List ε} (all : ∀ event ∈ events, known event)
      (apart : events.Pairwise fit) :
    run next start events = run later start events ∧ made events (run later start events) := by
  induction events using List.reverseRecOn with
  | nil => exact ⟨rfl,initially⟩
  | append_singleton events event ih =>
    obtain ⟨before,_,last⟩ := pairwise_append.mp apart
    obtain ⟨same,so⟩ := ih (fun event inside => all event (mem_append_left _ inside)) before
    rw [run_append,run_append,run_cons,run_nil,run_cons,run_nil,same]
    exact agree _ event _ so (all event (mem_append_right _ mem_cons_self)) fun earlier inside =>
      last earlier inside event mem_cons_self

end ChainRegistry.Lib.Runs
