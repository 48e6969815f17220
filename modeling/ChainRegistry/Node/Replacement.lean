import ChainRegistry.Node.PackageLifecycle

/-! The pending pool between those who submit and the runs of `process_package`. A
submission with other content takes the place of a pending one, and a run cleans up by
the name of the package alone. -/
namespace ChainRegistry
open Lib Runs List Option

structure PoolUse where
  pool : PendingPool
  tasks : List PublishRequest

/-- `ready` starts a run for each request that it returns, also while earlier runs go on. -/
inductive PoolEvent
  | insert (now : DateTime) (request : PublishRequest)
  | ready (now : DateTime)
  | cleanup (index : Nat)
  | panicked (index : Nat)

namespace PoolUse
def empty : PoolUse := ⟨⟨∅⟩,[]⟩

def step (use : PoolUse) : PoolEvent → PoolUse
  | .insert now request => {use with pool := (use.pool.insert now request).1}
  | .ready now =>
    let (pool,requests) := use.pool.readyForValidation now
    ⟨pool,use.tasks ++ requests⟩
  | .cleanup index =>
    match use.tasks[index]? with
    | some request => ⟨use.pool.remove request.id.canonical,use.tasks.eraseIdx index⟩
    | none => use
  | .panicked index => {use with tasks := use.tasks.eraseIdx index}

def requestAt (use : PoolUse) (canonical : String) : Option PublishRequest :=
  (use.pool.get canonical).map PendingEntry.request

def Accepts (use : PoolUse) (request : PublishRequest) : Prop :=
  ∀ pending, use.requestAt request.id.canonical = some pending → pending.contentHash ≠ request.contentHash

instance decidableAccepts (use : PoolUse) (request : PublishRequest) : Decidable (use.Accepts request) :=
  match found : use.requestAt request.id.canonical with
  | none => isTrue (by simp [Accepts,found])
  | some pending => decidable_of_iff (pending.contentHash ≠ request.contentHash) (by simp [Accepts,found])

section
variable (use : PoolUse) (now : DateTime) (request : PublishRequest)
include use now request

theorem insert_eq : use.pool.insert now request =
    if use.Accepts request then (⟨use.pool.entries.insert request.id.canonical ⟨request,now,0,false⟩⟩,true)
    else (use.pool,false) := by
  unfold PendingPool.insert
  cases found : use.pool.entries.lookup request.id.canonical with
  | none => simp [Accepts,requestAt,PendingPool.get,found]
  | some entry =>
    by_cases same : entry.request.contentHash = request.contentHash <;>
      simp [Accepts,requestAt,PendingPool.get,found,same]

theorem insert_accepted : (use.pool.insert now request).2 ↔ use.Accepts request := by
  rw [insert_eq]
  split_ifs with accepted <;> simp [accepted]

theorem requestAt_insert (canonical : String) : (use.step (.insert now request)).requestAt canonical =
    if use.Accepts request ∧ canonical = request.id.canonical then some request else use.requestAt canonical := by
  simp only [step,insert_eq]
  by_cases accepted : use.Accepts request
  · rw [if_pos accepted]
    simp only [accepted,true_and,requestAt,PendingPool.get,Table.lookup_insert_eq]
    split_ifs <;> rfl
  · simp [accepted,requestAt]

end

theorem requestAt_ready (use : PoolUse) (now : DateTime) (canonical : String) :
    (use.step (.ready now)).requestAt canonical = use.requestAt canonical := by
  simp only [step,requestAt,PendingPool.get,PendingPool.readyForValidation]
  obtain ⟨entry,put,found⟩ | kept := Table.lookup_putAll use.pool.entries
    ((use.pool.entries.entries.filter fun entry => PendingPool.isReady now entry.2).map
      fun entry => (entry.1,PendingPool.started entry.2)) canonical
  · simp only [List.mem_map,mem_filter,Prod.mk.injEq] at put
    obtain ⟨⟨key,pending⟩,⟨inside,_⟩,rfl,rfl⟩ := put
    have before : use.pool.entries.lookup key = some pending := AList.mem_lookup_iff.mpr inside
    rw [found,before]
    rfl
  · rw [kept]

theorem requestAt_cleanup (use : PoolUse) (index : Nat) (canonical : String) : (use.step (.cleanup index)).requestAt canonical =
    if (use.tasks[index]?).map (fun request => request.id.canonical) = some canonical then none
    else use.requestAt canonical := by
  cases task : use.tasks[index]? with
  | none => simp [step,task]
  | some request =>
    simp only [step,task,requestAt,PendingPool.get,PendingPool.remove,Table.lookup_erase_eq,map_some,Option.some.injEq]
    by_cases same : canonical = request.id.canonical
    · simp [same]
    · simp [same,Ne.symm same]

def Replaces (canonical : String) (use : PoolUse) : PoolEvent → Prop
  | .insert _ request => use.Accepts request ∧ canonical = request.id.canonical
  | _ => False

def EndsRunOf (request : PublishRequest) (use : PoolUse) : PoolEvent → Prop
  | .cleanup index => ∃ own, use.tasks[index]? = some own ∧ own.id.canonical = request.id.canonical ∧
      own.contentHash = request.contentHash
  | _ => False

def CleansOwn (use : PoolUse) : PoolEvent → Prop
  | .cleanup index => ∀ own pending, use.tasks[index]? = some own →
      use.requestAt own.id.canonical = some pending → pending.contentHash = own.contentHash
  | _ => True

variable {request : PublishRequest} {use : PoolUse} {event : PoolEvent} {events : List PoolEvent}
  {canonical : String}

theorem requestAt_step_of_cleansOwn (pending : use.requestAt request.id.canonical = some request)
    (cleans : use.CleansOwn event) (kept : ¬ Replaces request.id.canonical use event) (running : ¬ EndsRunOf request use event) :
    (use.step event).requestAt request.id.canonical = some request := by
  cases event with
  | insert now other =>
    simp only [Replaces] at kept
    rw [requestAt_insert,if_neg kept,pending]
  | ready now => rw [requestAt_ready,pending]
  | cleanup index =>
    rw [requestAt_cleanup,if_neg,pending]
    intro same
    obtain ⟨own,task,named⟩ := map_eq_some_iff.mp same
    have content := cleans own request task (by rw [named,pending])
    exact running ⟨own,task,named,content.symm⟩
  | panicked index => exact pending

theorem requestAt_step_back (pending : (use.step event).requestAt canonical = some request) :
    (∃ now, event = .insert now request ∧ use.Accepts request ∧ canonical = request.id.canonical) ∨
      use.requestAt canonical = some request ∧ ¬ Replaces canonical use event ∧
        (canonical = request.id.canonical → ¬ EndsRunOf request use event) := by
  cases event with
  | insert now other =>
    rw [requestAt_insert] at pending
    split_ifs at pending with replaced
    · cases pending
      exact .inl ⟨now,rfl,replaced⟩
    · exact .inr ⟨pending,replaced,fun _ => id⟩
  | ready now =>
    rw [requestAt_ready] at pending
    exact .inr ⟨pending,id,fun _ => id⟩
  | cleanup index =>
    rw [requestAt_cleanup] at pending
    split_ifs at pending with removed
    refine .inr ⟨pending,id,?_⟩
    rintro rfl ⟨own,task,named,_⟩
    exact removed (by rw [task,map_some,named])
  | panicked index => exact .inr ⟨pending,id,fun _ => id⟩

def Undisturbed (request : PublishRequest) : PoolUse → List PoolEvent → Prop :=
  Along step fun use event => ¬ Replaces request.id.canonical use event ∧ ¬ EndsRunOf request use event

def KeepsAccepted (start : PoolUse) (events : List PoolEvent) : Prop :=
  ∀ before now request after rest, events = before ++ .insert now request :: after ++ rest →
    ((run step start before).pool.insert now request).2 →
    Undisturbed request (run step start (before ++ [.insert now request])) after →
    ∃ entry, (run step start (before ++ .insert now request :: after)).pool.get request.id.canonical = some entry ∧
      entry.request = request

theorem requestAt_eq_some :
    use.requestAt canonical = some request ↔ ∃ entry, use.pool.get canonical = some entry ∧ entry.request = request :=
  map_eq_some_iff

theorem requestAt_run (pending : use.requestAt request.id.canonical = some request)
    (cleans : Along step CleansOwn use events) (undisturbed : Undisturbed request use events) :
    (run step use events).requestAt request.id.canonical = some request := by
  have keeps : ∀ (use : PoolUse) (event : PoolEvent), use.requestAt request.id.canonical = some request →
      use.CleansOwn event ∧ ¬ Replaces request.id.canonical use event ∧ ¬ EndsRunOf request use event →
      (use.step event).requestAt request.id.canonical = some request := by
    intro use event pending allowed
    exact requestAt_step_of_cleansOwn pending allowed.1 allowed.2.1 allowed.2.2
  exact invariant_run keeps use events pending (along_and cleans undisturbed)

theorem born (events : List PoolEvent) (canonical : String) (request : PublishRequest)
    (pending : (run step empty events).requestAt canonical = some request) :
    canonical = request.id.canonical ∧ ∃ before now after, events = before ++ .insert now request :: after ∧
      (run step empty before).Accepts request ∧
      Undisturbed request (run step empty (before ++ [.insert now request])) after := by
  induction events using List.reverseRecOn generalizing canonical request with
  | nil => simp [requestAt,empty,PendingPool.get] at pending
  | append_singleton events event ih =>
    rw [run_append,run_cons,run_nil] at pending
    obtain ⟨now,rfl,accepted,named⟩ | ⟨earlier,kept,running⟩ := requestAt_step_back pending
    · exact ⟨named,events,now,[],rfl,accepted,trivial⟩
    · obtain ⟨rfl,before,now,after,rfl,accepted,undisturbed⟩ := ih canonical request earlier
      refine ⟨rfl,before,now,after ++ [event],by simp,accepted,?_⟩
      have last : run step (run step empty (before ++ [.insert now request])) after =
          run step empty (before ++ .insert now request :: after) := by
        rw [← run_append,append_assoc,singleton_append]
      refine (along_append _ after [event]).mpr ⟨undisturbed,?_⟩
      rw [last]
      exact ⟨⟨kept,running rfl⟩,trivial⟩

theorem requestAt_accepted (use : PoolUse) (now : DateTime) (accepted : use.Accepts request) :
    (use.step (.insert now request)).requestAt request.id.canonical = some request := by
  rw [requestAt_insert,if_pos ⟨accepted,rfl⟩]

theorem keepsAccepted_of_cleansOwn (start : PoolUse)
    (cleans : Along step CleansOwn start events) : KeepsAccepted start events := by
  rintro before now request after rest rfl accepted undisturbed
  have later := ((along_append start _ rest).mp cleans).1
  rw [← singleton_append,← append_assoc] at later ⊢
  rw [← requestAt_eq_some,run_append]
  refine requestAt_run ?_ ((along_append start _ after).mp later).2 undisturbed
  rw [run_append]
  exact requestAt_accepted _ now ((insert_accepted _ now request).mp accepted)

theorem cleansOwn_of_keepsAccepted {before rest : List PoolEvent} (keeps : KeepsAccepted empty (before ++ event :: rest)) :
    (run step empty before).CleansOwn event := by
  cases event with
  | cleanup index =>
    intro own pending task found
    by_contra other
    obtain ⟨named,first,now,after,rfl,accepted,undisturbed⟩ := born before _ pending found
    have again : run step (run step empty (first ++ [.insert now pending])) after =
        run step empty (first ++ .insert now pending :: after) := by
      rw [← run_append,append_assoc,singleton_append]
    have foreign : ¬ EndsRunOf pending (run step empty (first ++ .insert now pending :: after)) (.cleanup index) := by
      rintro ⟨running,same,_,content⟩
      rw [task,Option.some.injEq] at same
      exact other (by rw [same,content])
    have still : Undisturbed pending (run step empty (first ++ [.insert now pending])) (after ++ [.cleanup index]) := by
      refine (along_append _ after _).mpr ⟨undisturbed,?_⟩
      rw [again]
      exact ⟨⟨id,foreign⟩,trivial⟩
    obtain ⟨entry,present,_⟩ := keeps first now pending (after ++ [.cleanup index]) rest (by simp)
      ((insert_accepted _ now pending).mpr accepted) still
    have removed := requestAt_cleanup (run step empty (first ++ .insert now pending :: after)) index pending.id.canonical
    rw [if_pos (by rw [task,map_some,named])] at removed
    have last : run step empty (first ++ .insert now pending :: (after ++ [.cleanup index])) =
        (run step empty (first ++ .insert now pending :: after)).step (.cleanup index) := by
      rw [← cons_append,← append_assoc,run_append,run_cons,run_nil]
    rw [last] at present
    simp [requestAt,present] at removed
  | _ => trivial

/-- Exactly the runs in which nobody cleans up after another content keep what was accepted. -/
theorem accepted_stays_iff (events : List PoolEvent) : KeepsAccepted empty events ↔ Along step CleansOwn empty events := by
  constructor
  · intro keeps
    apply along_of_splits
    intro before event rest split
    rw [split] at keeps
    exact cleansOwn_of_keepsAccepted keeps
  · exact keepsAccepted_of_cleansOwn empty

def overtaken : List PoolEvent :=
  [.insert 0 (Solo.request "a"),.ready 0,.insert 0 (Solo.request "b"),.cleanup 0]

theorem replacement_lost : ¬∀ events, KeepsAccepted empty events := by
  intro claimed
  have running : (run step empty (overtaken.take 3)).tasks = [Solo.request "a"] := by decide +kernel
  have still : Undisturbed (Solo.request "b") (run step empty (overtaken.take 3)) [.cleanup 0] := by
    refine ⟨⟨id,?_⟩,trivial⟩
    rintro ⟨own,task,_,content⟩
    rw [running] at task
    cases task
    exact absurd content (by decide)
  obtain ⟨entry,present,_⟩ := claimed overtaken (overtaken.take 2) 0 (Solo.request "b") [.cleanup 0] [] rfl
    (by decide +kernel) still
  have gone : (run step empty overtaken).pool.get (Solo.request "b").id.canonical = none := by decide +kernel
  exact some_ne_none entry (present.symm.trans gone)

end PoolUse

namespace NodeState
section
variable (crates : Crates) (clock : Clock) (fault : Bool) (state : NodeState)

theorem insertFinalised_pool (hash : String) :
    (state.insertFinalised crates clock fault hash).pendingPool = state.pendingPool := by
  cases final : state.pbftEngine.getFinalisedBlock hash with
  | none => rw [insertFinalised_none crates clock fault final]
  | some block =>
    obtain ⟨reorgs,done⟩ := insertFinalised_some crates clock fault final
    rw [done]

theorem onBlocks_pool (seen : Validators) (message : GossipMessage) :
    (state.onBlocks crates clock seen fault message).1.pendingPool = state.pendingPool := by
  cases message with
  | pbftPrePrepare block =>
    simp only [onBlocks,onPrePrepare]
    split
    · rfl
    · split <;> rfl
  | pbftPrepare hash id signature =>
    simp only [onBlocks,onPrepare]
    split
    · rfl
    · split
      · split <;> rfl
      · rfl
  | pbftCommit hash id signature =>
    simp only [onBlocks,onCommit]
    split
    · rfl
    · split
      · exact insertFinalised_pool crates clock fault _ hash
      · rfl
  | _ => rfl

theorem proposerCommit_pool (hash : String) :
    (state.proposerCommit crates clock fault hash).1.pendingPool = state.pendingPool := by
  unfold proposerCommit
  split
  · rfl
  · dsimp only
    split
    · exact insertFinalised_pool crates clock fault _ hash
    · rfl

theorem produceWrite_pool (block : Block) : (state.produceWrite crates clock fault block).1.pendingPool = state.pendingPool := by
  unfold produceWrite
  split
  · rfl
  · simp only [clearVrfProofs,proposerVotes]
    split
    · rfl
    · split
      · exact proposerCommit_pool crates clock fault _ _
      · rfl

end
end NodeState

def PipelineTask.request : PipelineTask → PublishRequest
  | .processing request => request
  | .voted request _ => request
  | .waiting request _ _ => request

inductive PipelineStep.OfRun (request : PublishRequest) (state : NodeState) (step : PipelineStep) : Prop
  | goesOn (task : PipelineTask) (continued : step.task = some task) (own : task.request = request)
      (pool : step.state.pendingPool = state.pendingPool)
  | ends (ended : step.task = none) (pool : step.state.pendingPool = state.pendingPool.remove request.id.canonical)

namespace NodeState
theorem abandon_ofRun (state : NodeState) (request : PublishRequest) (transactions : List Transaction) :
    PipelineStep.OfRun request state {state.abandon request with transactions := transactions} :=
  .ends rfl rfl

variable (crates : Crates) (now : DateTime) (request : PublishRequest) (analysis : Analysis)

theorem castVote_ofRun (state : NodeState) :
    PipelineStep.OfRun request state (state.castVote crates now request analysis) := by
  unfold castVote
  split
  · exact abandon_ofRun state request []
  · split
    · exact abandon_ofRun state request []
    · split_ifs
      · exact abandon_ofRun state request []
      · exact .goesOn (.voted request analysis) rfl rfl rfl

theorem analyse_ofRun (tarball : Option (List UInt8)) (analysis : Option Analysis)
    (state : NodeState) : PipelineStep.OfRun request state (state.analyse crates now request tarball analysis) := by
  unfold analyse
  split
  · exact abandon_ofRun state request []
  · exact abandon_ofRun state request []
  · split_ifs
    · exact abandon_ofRun state request _
    · split
      · exact castVote_ofRun crates now request _ state
      · exact abandon_ofRun state request []

theorem poll_ofRun (count : Nat) (state : NodeState) :
    PipelineStep.OfRun request state (state.poll crates now request analysis count) := by
  unfold poll
  dsimp only
  split
  · exact .goesOn (.waiting request analysis count) rfl rfl rfl
  · exact abandon_ofRun state request _

end NodeState

namespace Node
variable {crates : Crates} (node : Node crates) {index : Nat}

def poolUse (node : Node crates) : PoolUse := ⟨node.state.pendingPool,node.pipeline.map PipelineTask.request⟩

theorem map_request_set {tasks : List PipelineTask} {task later : PipelineTask}
    (present : tasks[index]? = some task) (own : later.request = task.request) :
    (tasks.set index later).map PipelineTask.request = tasks.map PipelineTask.request := by
  apply ext_getElem?
  intro other
  rw [map_set]
  by_cases same : index = other
  · subst same
    simp [List.getElem?_set_self',present,own]
  · rw [List.getElem?_set_ne same]

def endsRun (index : Nat) (stage : PipelineStep) : List PoolEvent :=
  match stage.task with
  | some _ => []
  | none => [.cleanup index]

def poolEvents (node : Node crates) : NodeEvent → List PoolEvent
  | .submission clock request gate =>
    if gate = .ok () ∧ node.state.pendingPool.contains request.id.canonical = false then [.insert clock.utc request] else []
  | .admissionInsert clock index gate =>
    match node.admissions[index]? with
    | some request => if gate = .ok () then [.insert clock.utc request] else []
    | none => []
  | .pipelineTick clock =>
    if node.state.config.isValidator && node.pipeline.isEmpty then [.ready clock.utc] else []
  | .pipelineAnalyse clock index tarball analysis =>
    match node.pipeline[index]? with
    | some (.processing request) => endsRun index (node.state.analyse crates clock.utc request tarball analysis)
    | _ => []
  | .pipelinePoll clock index =>
    match node.pipeline[index]? with
    | some (.waiting request analysis count) => endsRun index (node.state.poll crates clock.utc request analysis count)
    | _ => []
  | .pipelineTimeout index =>
    match node.pipeline[index]? with
    | some (.waiting _ _ _) => [.cleanup index]
    | _ => []
  | _ => []

theorem poolUse_pipelineStep {node : Node crates} {task : PipelineTask} {stage : PipelineStep}
    (present : node.pipeline[index]? = some task) (ofRun : PipelineStep.OfRun task.request node.state stage) :
    (node.pipelineStep index stage).1.poolUse = run PoolUse.step node.poolUse (endsRun index stage) := by
  cases ofRun with
  | goesOn next continued own pool =>
    simp only [pipelineStep,endsRun,continued,poolUse,pool,map_request_set present own,run_nil]
  | ends ended pool =>
    simp only [pipelineStep,endsRun,ended,poolUse,pool,run_cons,run_nil,PoolUse.step,List.getElem?_map,present,
      map_some,eraseIdx_map]

variable (clock : Clock)

theorem poolUse_pipelineTick :
    (node.next (.pipelineTick clock)).poolUse = run PoolUse.step node.poolUse (node.poolEvents (.pipelineTick clock)) := by
  simp only [next,step,validate,poolEvents]
  split_ifs
  · simp [poolUse,PoolUse.step,PipelineTask.request,Function.comp_def]
  · rfl

theorem poolUse_pipelineAnalyse (index : Nat) (tarball : Option (List UInt8)) (analysis : Option Analysis) :
    (node.next (.pipelineAnalyse clock index tarball analysis)).poolUse =
      run PoolUse.step node.poolUse (node.poolEvents (.pipelineAnalyse clock index tarball analysis)) := by
  cases present : node.pipeline[index]? with
  | none => simp only [next,step,validate,poolEvents,present,run_nil]
  | some task =>
    cases task with
    | processing request =>
      simp only [next,step,validate,poolEvents,present]
      exact poolUse_pipelineStep present (NodeState.analyse_ofRun crates clock.utc request tarball analysis node.state)
    | _ => simp only [next,step,validate,poolEvents,present,run_nil]

theorem poolUse_pipelineAssign (index : Nat) : (node.next (.pipelineAssign index)).poolUse = node.poolUse := by
  simp only [next,step,validate]
  split
  · rename_i present
    simp only [poolUse]
    rw [map_request_set present]
    rfl
  · rfl

theorem poolUse_pipelinePoll (index : Nat) : (node.next (.pipelinePoll clock index)).poolUse =
    run PoolUse.step node.poolUse (node.poolEvents (.pipelinePoll clock index)) := by
  cases present : node.pipeline[index]? with
  | none => simp only [next,step,validate,poolEvents,present,run_nil]
  | some task =>
    cases task with
    | waiting request analysis count =>
      simp only [next,step,validate,poolEvents,present]
      exact poolUse_pipelineStep present (NodeState.poll_ofRun crates clock.utc request analysis count node.state)
    | _ => simp only [next,step,validate,poolEvents,present,run_nil]

theorem poolUse_pipelineTimeout (index : Nat) : (node.next (.pipelineTimeout index)).poolUse =
    run PoolUse.step node.poolUse (node.poolEvents (.pipelineTimeout index)) := by
  cases present : node.pipeline[index]? with
  | none => simp only [next,step,validate,poolEvents,present,run_nil]
  | some task =>
    cases task with
    | waiting request analysis count =>
      simp only [next,step,validate,poolEvents,present]
      exact poolUse_pipelineStep present (NodeState.abandon_ofRun node.state request [])
    | _ => simp only [next,step,validate,poolEvents,present,run_nil]

variable (request : PublishRequest)

theorem poolUse_submission (gate : Except String Unit) :
    (node.next (.submission clock request gate)).poolUse =
      run PoolUse.step node.poolUse (node.poolEvents (.submission clock request gate)) := by
  simp only [next,step,withState,NodeState.onSubmission,poolEvents]
  cases gate with
  | error e => rfl
  | ok passed =>
    cases contained : node.state.pendingPool.contains request.id.canonical with
    | true => simp
    | false => simp [poolUse,PoolUse.step]

theorem poolUse_admissionCheck (verify : Bool) (auth : Except AdmissionError Unit) :
    (node.next (.admissionCheck request verify auth)).poolUse = node.poolUse := by
  simp only [next,step,admission]
  split <;> rfl

theorem poolUse_admissionInsert (index : Nat) (gate : Except String Unit) :
    (node.next (.admissionInsert clock index gate)).poolUse =
      run PoolUse.step node.poolUse (node.poolEvents (.admissionInsert clock index gate)) := by
  simp only [next,step,admission,poolEvents]
  cases node.admissions[index]? with
  | none => rfl
  | some request =>
    cases gate with
    | error e => rfl
    | ok passed =>
      have inserted := node.poolUse.insert_eq clock.utc request
      have pool : node.poolUse.pool = node.state.pendingPool := rfl
      by_cases accepted : node.poolUse.Accepts request
      · rw [if_pos accepted,pool] at inserted
        simp only [admitInsert,if_pos,run_cons,run_nil,PoolUse.step,poolUse,inserted]
      · rw [if_neg accepted,pool] at inserted
        simp only [admitInsert,if_pos,run_cons,run_nil,PoolUse.step,poolUse,inserted]

variable (event : NodeEvent)

theorem poolUse_produce : (node.produce event).1.poolUse = node.poolUse := by
  cases event with
  | produceSnapshot =>
    simp only [produce]
    split <;> rfl
  | produceSelect rank =>
    simp only [produce]
    split
    · split <;> rfl
    · rfl
  | produceWrite clock fault =>
    simp only [produce]
    split
    · simp only [poolUse,NodeState.produceWrite_pool]
    · rfl
  | _ => rfl

theorem poolUse_synchronise : (node.synchronise event).poolUse = node.poolUse := by
  cases event with
  | syncInsert clock fault | reorgApply clock fault =>
    simp only [synchronise,NodeState.syncInsert,NodeState.reorgApply]
    split
    · cases fault <;> rfl
    · rfl
  | syncStart | syncPeers | syncBlock | reorgProbe | reorgSet | reorgBlock => simp only [synchronise]; split <;> rfl
  | _ => rfl

theorem poolUse_next : (node.next event).poolUse = run PoolUse.step node.poolUse (node.poolEvents event) := by
  cases event with
  | submission clock request gate => exact node.poolUse_submission clock request gate
  | vote clock message =>
    simp only [next,step,withState,NodeState.onVote]
    split <;> rfl
  | vrfProof id pubkey seed output proof =>
    simp only [next,step,withState,NodeState.onVrfProof]
    split_ifs
    · split <;> rfl
    · rfl
  | blocks clock seen fault message =>
    simp only [next,step,withState,poolUse,NodeState.onBlocks_pool,poolEvents,run_nil]
  | apiRevoke canonical reason pubkey =>
    simp only [next,step,apiRevoke]
    split
    · rfl
    · split_ifs <;> rfl
  | apiRotate | setChanged => rfl
  | produceSnapshot | produceSelect | produceWrite => exact node.poolUse_produce _
  | pipelineTick clock => exact node.poolUse_pipelineTick clock
  | pipelineAnalyse clock index tarball analysis =>
    exact node.poolUse_pipelineAnalyse clock index tarball analysis
  | pipelineAssign index => exact node.poolUse_pipelineAssign index
  | pipelinePoll clock index => exact node.poolUse_pipelinePoll clock index
  | pipelineTimeout index => exact node.poolUse_pipelineTimeout index
  | admissionCheck request verify auth => exact node.poolUse_admissionCheck request verify auth
  | admissionInsert clock index gate => exact node.poolUse_admissionInsert clock index gate
  | syncStart | syncPeers | syncBlock | syncInsert | reorgProbe | reorgSet | reorgBlock
  | reorgApply => exact node.poolUse_synchronise _

end Node
end ChainRegistry
