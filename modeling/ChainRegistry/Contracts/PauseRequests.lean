import ChainRegistry.Contracts.Multisig

/-! Who pauses the system, and how often: the open request in every history of the multisig. -/
namespace ChainRegistry
open Lib Runs Fallible List Finset

namespace Governance
variable {self : Address} {msg : Msg} {gov next start : Governance} {call : Call}

structure Orderly (gov : Governance) : Prop where
  known : ∀ n a, (n,a) ∈ gov.pauseRequestCoSigners → n ≤ gov.openPauseRequest.nonce
  single : gov.openPauseRequest.openedAt ≠ 0 → gov.openPauseRequest.coSignCount = 1
  alone : gov.openPauseRequest.openedAt ≠ 0 →
    ∀ a, (gov.openPauseRequest.nonce,a) ∈ gov.pauseRequestCoSigners ↔ a = gov.openPauseRequest.opener
  cooled : gov.openPauseRequest.openedAt ≠ 0 → gov.pausedAt + pauseCooldown ≤ gov.openPauseRequest.openedAt

theorem Orderly.of_reset (known : ∀ n a, (n,a) ∈ gov.pauseRequestCoSigners → n ≤ gov.openPauseRequest.nonce)
    (reset : gov.openPauseRequest.openedAt = 0) : gov.Orderly :=
  ⟨known,fun present => absurd reset present,fun present => absurd reset present,fun present => absurd reset present⟩

theorem Orderly.opened (orderly : gov.Orderly) {reason : String} (elapsed : gov.pausedAt + pauseCooldown ≤ msg.timestamp) :
    (opened msg reason gov).Orderly where
  known := by
    intro n a inside
    rcases mem_insert.mp inside with own | old
    · rw [(Prod.mk.inj own).1]
      exact le_rfl
    · exact Nat.le_succ_of_le (orderly.known n a old)
  single := fun _ => rfl
  alone := by
    intro _ a
    change _ ∈ insert _ _ ↔ _
    rw [mem_insert,Prod.mk.injEq]
    constructor
    · rintro (⟨_,own⟩ | old)
      · exact own
      · -- the nonce is new
        exact absurd (orderly.known _ _ old) (Nat.not_succ_le_self _)
    · intro own
      exact .inl ⟨rfl,own⟩
  cooled := fun _ => elapsed

theorem Orderly.effect (orderly : gov.Orderly) (effect : Effect self msg gov call next) : next.Orderly := by
  cases effect with
  | opens signer active cooled asked => exact orderly.opened cooled
  | coSigns confirms few asked =>
    rw [orderly.single confirms.present] at few
    exact absurd few (by decide)
  | pauses confirms enough asked =>
    refine .of_reset ?_ rfl
    intro n a inside
    rcases mem_insert.mp inside with own | old
    · rw [(Prod.mk.inj own).1]
      exact le_rfl
    · exact orderly.known n a old
  | expires => exact .of_reset orderly.known rfl
  | _ => exact ⟨orderly.known,orderly.single,orderly.alone,orderly.cooled⟩

theorem Orderly.acting (orderly : gov.Orderly) (event : Act) : (acting self gov event).Orderly := by
  rcases acting_cases self gov event with effect | same
  · exact orderly.effect effect
  · rw [same]
    exact orderly

theorem orderly_deploy {signers : List Address} {threshold : Nat} (ok : deploy signers threshold = .ok start) :
    start.Orderly := by
  obtain ⟨_,_,_,request,coSigners⟩ := deploy_ok ok
  refine .of_reset ?_ ?_
  · intro n a inside
    rw [coSigners] at inside
    exact absurd inside (notMem_empty _)
  · rw [request]

theorem orderly_run (initially : start.Orderly) (acts : List Act) : (run (acting self) start acts).Orderly :=
  always_run (fun _ event orderly => orderly.acting event) start acts initially

def Pauses (self : Address) (gov : Governance) (event : Act) : Prop :=
  gov.systemStatus = .active ∧ (acting self gov event).systemStatus = .paused

theorem Pauses.confirms (pauses : Pauses self gov (msg,call)) : Confirms msg gov ∧
    acting self gov (msg,call) = applyPause msg (coSigned msg gov) := by
  obtain ⟨active,paused⟩ := pauses
  rcases acting_cases self gov (msg,call) with effect | same
  · generalize acting self gov (msg,call) = next at effect paused
    have apart : gov.systemStatus ≠ .paused := by
      rw [active]
      decide
    cases effect with
    | pauses confirms enough asked => exact ⟨confirms,rfl⟩
    | unpauses before own => cases paused
    | _ => exact absurd paused apart
  · rw [same,active] at paused
    cases paused

structure Since (holder : Address) (start : Governance) (acts earlier : List Act) (opening : Act)
    (between : List Act) : Prop where
  split : acts = earlier ++ opening :: between
  signer : opening.1.sender ∈ (run (acting holder) start earlier).isSigner
  opens : ∃ reason, acting holder (run (acting holder) start earlier) opening =
    opened opening.1 reason (run (acting holder) start earlier)
  kept : Throughout (acting holder)
    (fun gov => gov.openPauseRequest = (acting holder (run (acting holder) start earlier) opening).openPauseRequest)
    (acting holder (run (acting holder) start earlier) opening) between

variable {acts earlier between : List Act} {opening event : Act}

section
variable (since : Since self start acts earlier opening between)
include since

theorem Since.run_split :
    run (acting self) start acts = run (acting self) (acting self (run (acting self) start earlier) opening) between := by
  rw [since.split,run_append,run_cons]

theorem Since.request :
    (run (acting self) start acts).openPauseRequest =
      (acting self (run (acting self) start earlier) opening).openPauseRequest := by
  rw [since.run_split]
  exact throughout_last since.kept

theorem Since.opener : (run (acting self) start acts).openPauseRequest.opener = opening.1.sender ∧
    (run (acting self) start acts).openPauseRequest.openedAt = opening.1.timestamp ∧
    (run (acting self) start acts).openPauseRequest.nonce = (run (acting self) start earlier).openPauseRequest.nonce + 1 := by
  obtain ⟨reason,opens⟩ := since.opens
  rw [since.request,opens]
  exact ⟨rfl,rfl,rfl⟩

theorem Since.snoc (same : (acting self (run (acting self) start acts) event).openPauseRequest =
      (run (acting self) start acts).openPauseRequest) :
    Since self start (acts ++ [event]) earlier opening (between ++ [event]) where
  split := by rw [since.split,append_assoc,cons_append]
  signer := since.signer
  opens := since.opens
  kept := by
    rw [throughout_snoc,run_append,← since.run_split]
    refine ⟨since.kept,?_⟩
    exact same.trans since.request

end

theorem Effect.request (orderly : gov.Orderly) (effect : Effect self msg gov call next) :
    (msg.sender ∈ gov.isSigner ∧ ∃ reason, next = opened msg reason gov) ∨ next.openPauseRequest.openedAt = 0 ∨
      next.openPauseRequest = gov.openPauseRequest := by
  cases effect with
  | opens signer active cooled asked => exact .inl ⟨signer,_,rfl⟩
  | coSigns confirms few asked =>
    rw [orderly.single confirms.present] at few
    exact absurd few (by decide)
  | pauses | expires => exact .inr (.inl rfl)
  | _ => exact .inr (.inr rfl)

theorem since_run (initially : start.Orderly) (fresh : start.openPauseRequest.openedAt = 0) (acts : List Act)
    (present : (run (acting self) start acts).openPauseRequest.openedAt ≠ 0) :
    ∃ earlier opening between, Since self start acts earlier opening between := by
  -- on the last act: it opens the request, or the request stood before it
  induction acts using List.reverseRecOn with
  | nil => exact absurd fresh present
  | append_singleton acts event ih =>
    have last : run (acting self) start (acts ++ [event]) = acting self (run (acting self) start acts) event := by
      rw [run_append]
      rfl
    have stays : (acting self (run (acting self) start acts) event).openPauseRequest =
        (run (acting self) start acts).openPauseRequest →
        ∃ earlier opening between, Since self start (acts ++ [event]) earlier opening between := by
      intro same
      rw [last,same] at present
      obtain ⟨earlier,opening,between,since⟩ := ih present
      exact ⟨earlier,opening,between ++ [event],since.snoc same⟩
    rw [last] at present
    rcases acting_cases self (run (acting self) start acts) event with effect | same
    · rcases effect.request (orderly_run initially acts) with ⟨signer,reason,opens⟩ | reset | same
      · exact ⟨acts,event,[],rfl,signer,⟨reason,opens⟩,rfl⟩
      · exact absurd reset present
      · exact stays same
    · exact stays (congrArg openPauseRequest same)

def Chronological (acts : List Act) : Prop := acts.Pairwise fun earlier later => earlier.1.timestamp ≤ later.1.timestamp

theorem Since.in_time (since : Since self start acts earlier opening between) (chronological : Chronological (acts ++ [event])) :
    opening.1.timestamp ≤ event.1.timestamp := by
  refine (pairwise_append.mp chronological).2.2 opening ?_ event (List.mem_singleton_self event)
  rw [since.split]
  exact mem_append_right _ List.mem_cons_self

theorem Effect.pausedAt (effect : Effect self msg gov call next) :
    next.pausedAt = gov.pausedAt ∨ next.pausedAt = msg.timestamp := by
  cases effect with
  | pauses => exact .inr rfl
  | _ => exact .inl rfl

theorem pausedAt_acting (gov : Governance) (event : Act) :
    (acting self gov event).pausedAt = gov.pausedAt ∨ (acting self gov event).pausedAt = event.1.timestamp := by
  rcases acting_cases self gov event with effect | same
  · exact effect.pausedAt
  · exact .inl (congrArg Governance.pausedAt same)

theorem pausedAt_run {now : Nat} (acts : List Act) (later : ∀ event ∈ acts, now ≤ event.1.timestamp)
    (initially : now ≤ gov.pausedAt) : now ≤ (run (acting self) gov acts).pausedAt := by
  refine kept_run (fun gov => now ≤ gov.pausedAt) acts ?_ gov initially
  intro gov event inside past
  rcases pausedAt_acting gov event with same | moved
  · exact same ▸ past
  · exact moved ▸ later event inside

theorem Pauses.pausedAt (pauses : Pauses self gov event) : (acting self gov event).pausedAt = event.1.timestamp := by
  rw [pauses.confirms.2]
  rfl

structure Support (holder : Address) (start : Governance) (acts : List Act) (event : Act) (earlier : List Act) (opening : Act)
    (between : List Act) : Prop extends Since holder start acts earlier opening between where
  second : event.1.sender ∈ (run (acting holder) start acts).isSigner
  distinct : event.1.sender ≠ opening.1.sender
  after : opening.1.timestamp ≤ event.1.timestamp
  inTime : event.1.timestamp < opening.1.timestamp + pauseRequestTtl
  only : ∀ a, ((run (acting holder) start acts).openPauseRequest.nonce,a) ∈
    (run (acting holder) start acts).pauseRequestCoSigners ↔ a = opening.1.sender

section
variable (initially : start.Orderly) (fresh : start.openPauseRequest.openedAt = 0)
include initially fresh

theorem Pauses.support
    (chronological : Chronological (acts ++ [event])) (pauses : Pauses self (run (acting self) start acts) event) :
    ∃ earlier opening between, Support self start acts event earlier opening between := by
  have confirms := pauses.confirms.1
  have orderly : (run (acting self) start acts).Orderly := orderly_run initially acts
  obtain ⟨earlier,opening,between,since⟩ := since_run initially fresh acts confirms.present
  obtain ⟨opener,openedAt,_⟩ := since.opener
  have alone := orderly.alone confirms.present
  rw [opener] at alone
  have distinct : event.1.sender ≠ opening.1.sender := fun same => confirms.unsigned ((alone _).mpr same)
  have inTime := confirms.early
  rw [openedAt] at inTime
  exact ⟨earlier,opening,between,since,confirms.signer,distinct,since.in_time chronological,inTime,alone⟩

theorem Pauses.spaced {first : Act} (chronological : Chronological ((earlier ++ first :: between) ++ [event]))
    (before : Pauses self (run (acting self) start earlier) first)
    (pauses : Pauses self (run (acting self) start (earlier ++ first :: between)) event) :
    first.1.timestamp + pauseCooldown ≤ event.1.timestamp := by
  have confirms := pauses.confirms.1
  have orderly : (run (acting self) start (earlier ++ first :: between)).Orderly := orderly_run initially _
  have later : ∀ act ∈ between, first.1.timestamp ≤ act.1.timestamp := by
    have tail := (pairwise_append.mp (pairwise_append.mp chronological).1).2.1
    exact (List.pairwise_cons.mp tail).1
  have last : first.1.timestamp ≤ (run (acting self) start (earlier ++ first :: between)).pausedAt := by
    rw [run_append,run_cons]
    exact pausedAt_run between later before.pausedAt.ge
  obtain ⟨_,opening,_,since⟩ := since_run initially fresh _ confirms.present
  calc first.1.timestamp + pauseCooldown
      ≤ (run (acting self) start (earlier ++ first :: between)).pausedAt + pauseCooldown := Nat.add_le_add_right last _
    _ ≤ (run (acting self) start (earlier ++ first :: between)).openPauseRequest.openedAt := orderly.cooled confirms.present
    _ = opening.1.timestamp := since.opener.2.1
    _ ≤ event.1.timestamp := since.in_time chronological

end

theorem nestedActs_timestamp (now : Nat) (gov : Governance) (calls : List (Address × Call)) :
    ∀ event ∈ nestedActs self now gov calls, event.1.timestamp = now := by
  induction calls generalizing gov with
  | nil => exact nofun
  | cons call calls ih =>
    intro event inside
    unfold nestedActs at inside
    split at inside
    · rcases List.mem_cons.mp inside with rfl | inside
      · rfl
      · exact ih _ event inside
    · exact ih _ event inside

variable {decode : List UInt8 → Option Call}

theorem callTarget_timestamp {p : Proposal} {tx : Event self} {done : List Act} (ok : callTarget decode gov p tx = .ok done) :
    ∀ event ∈ done, event.1.timestamp = tx.msg.timestamp := by
  unfold callTarget at ok
  split_ifs at ok
  · cases ok
    exact nofun
  · split at ok
    · cases ok
    · split at ok
      · cases ok
        intro event inside
        rw [List.mem_singleton.mp inside]
      · cases ok
  · cases ok
    exact nestedActs_timestamp _ _ _

theorem committed_timestamp (gov : Governance) (tx : Event self) :
    ∀ event ∈ committed decode gov tx, event.1.timestamp = tx.msg.timestamp := by
  unfold committed
  split
  next done ok =>
    obtain ⟨next,_,ok⟩ := (bind_ok _ _ _).mp ok
    split at ok
    · obtain ⟨called,target,ok⟩ := (bind_ok _ _ _).mp ok
      rw [← (pure_ok _ _).mp ok]
      intro event inside
      rcases List.mem_cons.mp inside with rfl | inside
      · rfl
      · exact callTarget_timestamp target event inside
    · rw [← (pure_ok _ _).mp ok]
      intro event inside
      rw [List.mem_singleton.mp inside]
  next => exact nofun

theorem history_timestamp (gov : Governance) (events : List (Event self)) :
    ∀ event ∈ history decode gov events, ∃ tx ∈ events, event.1.timestamp = tx.msg.timestamp := by
  induction events generalizing gov with
  | nil => exact nofun
  | cons tx events ih =>
    intro event inside
    rcases mem_append.mp inside with inside | inside
    · exact ⟨tx,List.mem_cons_self,committed_timestamp gov tx event inside⟩
    · obtain ⟨later,among,same⟩ := ih _ event inside
      exact ⟨later,List.mem_cons_of_mem _ among,same⟩

theorem chronological_history (gov : Governance) (events : List (Event self))
    (ordered : events.Pairwise fun earlier later => earlier.msg.timestamp ≤ later.msg.timestamp) :
    Chronological (history decode gov events) := by
  induction events generalizing gov with
  | nil => exact List.Pairwise.nil
  | cons tx events ih =>
    obtain ⟨first,rest⟩ := List.pairwise_cons.mp ordered
    refine pairwise_append.mpr ⟨?_,ih _ rest,?_⟩
    · refine pairwise_of_forall_mem_list ?_
      intro earlier inside later among
      rw [committed_timestamp gov tx earlier inside,committed_timestamp gov tx later among]
    · intro earlier inside later among
      obtain ⟨other,listed,same⟩ := history_timestamp _ events later among
      rw [committed_timestamp gov tx earlier inside,same]
      exact first other listed

/-- Two signers are behind every pause, for one request in its time, a cooldown after every earlier pause. -/
theorem pause_authority {signers : List Address} {threshold : Nat} (deployed : deploy signers threshold = .ok start)
    (events : List (Event self)) (ordered : events.Pairwise fun earlier later => earlier.msg.timestamp ≤ later.msg.timestamp)
    (acts after : List Act) (event : Act) (split : history decode start events = acts ++ event :: after)
    (pauses : Pauses self (run (acting self) start acts) event) :
    (∃ earlier opening between, Support self start acts event earlier opening between) ∧
      ∀ earlier first between, acts = earlier ++ first :: between → Pauses self (run (acting self) start earlier) first →
        first.1.timestamp + pauseCooldown ≤ event.1.timestamp := by
  have initially := orderly_deploy deployed
  have fresh : start.openPauseRequest.openedAt = 0 := by rw [(deploy_ok deployed).2.2.2.1]
  have chronological : Chronological (acts ++ [event]) := by
    have whole : Chronological (history decode start events) := chronological_history start events ordered
    rw [split,append_cons] at whole
    exact (pairwise_append.mp whole).1
  refine ⟨pauses.support initially fresh chronological,?_⟩
  rintro earlier first between rfl before
  exact before.spaced initially fresh chronological pauses

end Governance

namespace Council
open Governance

def asking : Act := (⟨10,30 * 86400⟩,.openPauseRequest "incident")

def confirming : Act := (⟨11,30 * 86400 + 5⟩,.confirmPauseRequest)

def pausing : List (Event 1) := [tx10 (30 * 86400) asking.2,tx11 (30 * 86400 + 5) confirming.2]

theorem pausing_history : history decode start pausing = [asking,confirming] := by decide +kernel

theorem pausing_pauses : Pauses 1 (run (acting 1) start [asking]) confirming := ⟨rfl,rfl⟩

theorem pausing_supported : ∃ earlier opening between, Support 1 start [asking] confirming earlier opening between :=
  (pause_authority deployed pausing (by decide +kernel) [asking] [] confirming pausing_history pausing_pauses).1

end Council
end ChainRegistry
