import ChainRegistry.Lib.Runs

/-! The rate limiter of the REST API: `crates/node/src/rate_limit.rs`. An instant is a number of
nanoseconds. Each class has a map behind its own mutex, so a run is of steps on one map: calls of
`check`, and its turn in calls of `purge_expired`. -/
namespace ChainRegistry.RateLimiter
open Lib.Runs List Function

inductive RateClass
  | general | publish | vote
  deriving DecidableEq

structure RateLimitConfig where
  generalLimit : Nat := 3000
  publishLimit : Nat := 10
  voteLimit : Nat := 60
  window : Nat := 60000000000

/-- What `check_general`, `check_publish` and `check_vote` pass to `check`. -/
def RateLimitConfig.limit (config : RateLimitConfig) : RateClass → Nat
  | .general => config.generalLimit
  | .publish => config.publishLimit
  | .vote => config.voteLimit

def isAllowed (now : Int) (window limit : Nat) (timestamps : List Int) : Bool × List Int :=
  let kept := timestamps.filter fun t => now - window < t
  if kept.length < limit then (true,kept ++ [now]) else (false,kept)

variable {IpAddr : Type} (config : RateLimitConfig)

/-- A difference of instants is never below zero. -/
def purgeExpired (buckets : IpAddr → Option (List Int)) (now : Int) (ip : IpAddr) : Option (List Int) := do
  let kept := (← buckets ip).filter fun t => (now - t).toNat < config.window
  if kept.isEmpty then none else some kept

theorem purgeExpired_getD (buckets : IpAddr → Option (List Int)) (now : Int) (ip : IpAddr) :
    (purgeExpired config buckets now ip).getD [] = ((buckets ip).getD []).filter fun t => (now - t).toNat < config.window := by
  rw [purgeExpired]
  cases buckets ip with
  | none => rfl
  | some timestamps =>
    simp only [Option.bind_eq_bind,Option.bind_some,Option.getD_some]
    split_ifs with empty
    · exact (isEmpty_iff.mp empty).symm
    · rfl

variable [DecidableEq IpAddr] (kind : RateClass)

def check (buckets : IpAddr → Option (List Int)) (ip : IpAddr) (now : Int) : Bool × (IpAddr → Option (List Int)) :=
  let result := isAllowed now config.window (config.limit kind) ((buckets ip).getD [])
  (result.1,update buckets ip (some result.2))

inductive Event (IpAddr : Type)
  | check (ip : IpAddr) (now : Int)
  | purge (now : Int)

structure Served (IpAddr : Type) where
  buckets : IpAddr → Option (List Int)
  allowed : IpAddr → List Int
  seen : List Int

def Served.new : Served IpAddr := ⟨fun _ => none,fun _ => [],[]⟩

def serve (served : Served IpAddr) : Event IpAddr → Served IpAddr
  | .check ip now =>
    let result := check config kind served.buckets ip now
    ⟨result.2,if result.1 then update served.allowed ip (served.allowed ip ++ [now]) else served.allowed,now :: served.seen⟩
  | .purge now => ⟨purgeExpired config served.buckets now,served.allowed,now :: served.seen⟩

def Clocked (served : Served IpAddr) : Event IpAddr → Prop
  | .check _ now => ∀ instant ∈ served.seen, instant ≤ now
  | .purge _ => True

def within (window : Nat) (t : Int) (instants : List Int) : List Int :=
  instants.filter fun instant => t - window < instant ∧ instant ≤ t

def RefusedFull (served : Served IpAddr) : Event IpAddr → Prop
  | .check ip now => (check config kind served.buckets ip now).1 = false →
    (within config.window now (served.allowed ip)).length = config.limit kind
  | .purge _ => True

structure Stores (window : Nat) (t : Int) (timestamps allowed : List Int) : Prop where
  stored : ∀ instant ∈ timestamps, instant ≤ t
  past : ∀ instant ∈ allowed, instant ≤ t
  same : timestamps.filter (fun instant => t - window < instant) = allowed.filter fun instant => t - window < instant

variable {config} {kind} {window limit : Nat} {now t : Int} {timestamps allowed : List Int} {served : Served IpAddr}

theorem Stores.kept (stores : Stores window t timestamps allowed) :
    timestamps.filter (fun instant => t - window < instant) = within window t allowed := by
  rw [stores.same]
  refine filter_congr fun instant inside => ?_
  rw [decide_eq_decide,and_iff_left (stores.past instant inside)]

theorem Stores.drop (stores : Stores window t timestamps allowed) {keep : Int → Bool}
    (keeps : ∀ instant ∈ timestamps, t - window < instant → keep instant) :
    Stores window t (timestamps.filter keep) allowed := by
  refine ⟨fun instant inside => stores.stored instant (mem_of_mem_filter inside),stores.past,?_⟩
  rw [filter_filter,← stores.same]
  refine filter_congr fun instant inside => ?_
  by_cases left : t - window < instant
  · simp [left,keeps instant inside left]
  · simp [left]

theorem Stores.push (stores : Stores window t timestamps allowed) (before : now ≤ t) :
    Stores window t (timestamps ++ [now]) (allowed ++ [now]) := by
  refine ⟨?_,?_,by rw [filter_append,filter_append,stores.same]⟩
  · simpa [or_imp,forall_and,before] using stores.stored
  · simpa [or_imp,forall_and,before] using stores.past

theorem within_push (stores : Stores window now timestamps allowed)
    (room : (timestamps.filter fun instant => now - window < instant).length < limit)
    (bounded : (within window t allowed).length ≤ limit) : (within window t (allowed ++ [now])).length ≤ limit := by
  rw [within,filter_append,length_append]
  by_cases inside : t - window < now ∧ now ≤ t
  · -- every call in the interval still counts at `now`
    have fewer : (within window t allowed).length ≤ (allowed.filter fun instant => now - window < instant).length := by
      refine (monotone_filter_right allowed fun instant counts => ?_).length_le
      simp only [decide_eq_true_eq] at *
      omega
    rw [← stores.same] at fewer
    simp only [filter_cons,inside,and_self,decide_true,if_true,filter_nil]
    exact Nat.lt_of_le_of_lt fewer room
  · simpa [inside,within] using bounded

structure Limits (config : RateLimitConfig) (kind : RateClass) (served : Served IpAddr) : Prop where
  stores : ∀ ip t, (∀ instant ∈ served.seen, instant ≤ t) →
    Stores config.window t ((served.buckets ip).getD []) (served.allowed ip)
  bounded : ∀ ip t, (within config.window t (served.allowed ip)).length ≤ config.limit kind

variable (event : Event IpAddr)

theorem serve_limits (limits : Limits config kind served) (clocked : Clocked served event) :
    Limits config kind (serve config kind served event) := by
  cases event with
  | purge now =>
    refine ⟨fun ip t after => ?_,limits.bounded⟩
    obtain ⟨before,after⟩ := forall_mem_cons.mp after
    have stores := limits.stores ip t after
    change Stores _ t ((purgeExpired config served.buckets now ip).getD []) _
    rw [purgeExpired_getD]
    refine stores.drop fun instant inside left => ?_
    have past := stores.stored instant inside
    rw [decide_eq_true_eq]
    omega
  | check ip now =>
    have here := limits.stores ip now clocked
    have drops : ∀ t, now ≤ t → (∀ instant ∈ served.seen, instant ≤ t) →
        Stores config.window t (((served.buckets ip).getD []).filter fun instant => now - config.window < instant)
          (served.allowed ip) := by
      intro t before after
      refine (limits.stores ip t after).drop fun instant _ left => ?_
      rw [decide_eq_true_eq]
      omega
    by_cases room : (((served.buckets ip).getD []).filter fun t => now - config.window < t).length < config.limit kind
    · rw [serve,check,isAllowed,if_pos room]
      constructor <;> intro host t
      all_goals by_cases same : host = ip
      · subst same
        intro after
        obtain ⟨before,earlier⟩ := forall_mem_cons.mp after
        simpa using (drops t before earlier).push before
      · intro after
        simpa [same] using limits.stores host t (forall_mem_cons.mp after).2
      · subst same
        simpa using within_push here room (limits.bounded host t)
      · simpa [same] using limits.bounded host t
    · rw [serve,check,isAllowed,if_neg room]
      refine ⟨fun host t after => ?_,limits.bounded⟩
      obtain ⟨before,earlier⟩ := forall_mem_cons.mp after
      by_cases same : host = ip
      · subst same
        simpa using drops t before earlier
      · simpa [same] using limits.stores host t earlier

theorem refused_full (limits : Limits config kind served) (clocked : Clocked served event) :
    RefusedFull config kind served event := by
  cases event with
  | purge => trivial
  | check ip now =>
    intro refused
    have stores := limits.stores ip now clocked
    have full : ¬ (((served.buckets ip).getD []).filter fun t => now - config.window < t).length < config.limit kind := by
      intro room
      rw [check,isAllowed,if_pos room] at refused
      cases refused
    rw [stores.kept] at full
    exact Nat.le_antisymm (limits.bounded ip now) (Nat.not_lt.mp full)

/-- In every run no interval of the length of the window has more calls than the limit, and a call is
refused only at the end of a full one. -/
theorem rate_limit_exact (config : RateLimitConfig) (kind : RateClass) (events : List (Event IpAddr))
    (clocked : Along (serve config kind) Clocked .new events) :
    (∀ ip t, (within config.window t ((run (serve config kind) .new events).allowed ip)).length ≤ config.limit kind) ∧
      Along (serve config kind) (RefusedFull config kind) .new events := by
  have start : Limits config kind (.new : Served IpAddr) := ⟨fun _ _ _ => ⟨nofun,nofun,rfl⟩,fun _ _ => Nat.zero_le _⟩
  constructor
  · exact (invariant_run (fun _ event => serve_limits event) _ _ start clocked).bounded
  · exact along_invariant (fun _ event => serve_limits event) (fun _ event => refused_full event) _ _ start clocked

def brief : RateLimitConfig := {publishLimit := 1,window := 10}

def calls : List (Event String) := [.check "a" 0,.check "a" 9,.purge 8,.check "a" 10]

theorem second_call_refused : (run (serve brief .publish) .new calls).allowed "a" = [0,10] ∧
    Along (serve brief .publish) (RefusedFull brief .publish) .new calls := by
  have clocked : Along (serve brief .publish) Clocked .new calls := by
    simp [calls,Along,Clocked,serve,Served.new]
  exact ⟨by decide +kernel,(rate_limit_exact brief .publish calls clocked).2⟩

end ChainRegistry.RateLimiter
