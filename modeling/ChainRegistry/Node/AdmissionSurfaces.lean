import ChainRegistry.Node.PublisherAuth
import ChainRegistry.Node.Replacement

/-! The two ways into the pending pool. The interfaces check a submission before the scan
and insert it after; the gossip handler scans and inserts, and checks nothing else. -/
namespace ChainRegistry
open Lib Runs ValidatorRegistry List Option PoolUse

variable (crates : Crates) (wallets : WalletCrates) {event : NodeEvent}

theorem PendingPool.insert_absent {pool : PendingPool} {request : PublishRequest} (now : DateTime)
    (absent : pool.contains request.id.canonical = false) :
    pool.insert now request = (⟨pool.entries.insert request.id.canonical ⟨request,now,0,false⟩⟩,true) := by
  have none : pool.entries.lookup request.id.canonical = none := by simpa [contains] using absent
  simp [insert,none]

namespace NodeState
theorem onSubmission_inserts_iff (now : DateTime) (request : PublishRequest) (state : NodeState) :
    (state.onSubmission now request (.ok ())).pendingPool ≠ state.pendingPool ↔
      state.pendingPool.contains request.id.canonical = false := by
  cases contained : state.pendingPool.contains request.id.canonical with
  | true => simp [onSubmission,contained]
  | false =>
    simp only [onSubmission,contained,Bool.false_eq_true,if_false,PendingPool.insert_absent now contained,iff_true]
    intro same
    have found := congrArg (fun pool => pool.contains request.id.canonical) same
    simp [PendingPool.contains] at found
    simp [PendingPool.contains,found] at contained

theorem gossip_as_admission_iff (source : StakeSource) (now : DateTime) (request : PublishRequest) (state : NodeState) :
    ((state.onSubmission now request (.ok ())).pendingPool ≠ state.pendingPool →
      (admitPublishRequest crates wallets source now request true (.ok ()) state).2.isOk) ↔
    state.pendingPool.contains request.id.canonical ∨ MeetsRules crates wallets source state request := by
  rw [onSubmission_inserts_iff]
  cases contained : state.pendingPool.contains request.id.canonical with
  | true => simp
  | false =>
    have fresh : checkPending state.pendingPool request = .ok () := by
      rw [checkPending_ok_iff]
      intro existing found
      simp [PendingPool.contains,PendingPool.get] at contained found
      simp [contained] at found
    simp only [Bool.false_eq_true,false_or,true_implies,admitPublishRequest]
    cases checked : admitCheck state request true (verifyPublishAuth crates wallets source request) with
    | error e =>
      have refused : ¬ MeetsRules crates wallets source state request := by
        intro meets
        rw [(admitCheck_rules_iff crates wallets source state request).mpr ⟨meets,fresh⟩] at checked
        cases checked
      simp [Fallible.isOk_iff,refused]
    | ok passed =>
      have meets := ((admitCheck_rules_iff crates wallets source state request).mp checked).1
      simp [admitInsert,PendingPool.insert_absent now contained,Fallible.isOk_iff,meets]

end NodeState

namespace Node
variable {crates} {request : PublishRequest} {node : Node crates}

theorem next_config (node : Node crates) (event : NodeEvent) : (node.next event).state.config = node.state.config := by
  cases keeps : event.keepsSet with
  | true => exact (node.next_engine event keeps).config
  | false =>
    cases event with
    | setChanged validators fault => rfl
    | _ => cases keeps

theorem admissions_synchronise (node : Node crates) (event : NodeEvent) :
    (node.synchronise event).admissions = node.admissions := by
  unfold synchronise
  split <;> first | rfl | (split <;> rfl)

theorem mem_admissions_next (waiting : request ∈ (node.next event).admissions) :
    request ∈ node.admissions ∨ ∃ verify auth, event = .admissionCheck request verify auth ∧
      admitCheck node.state request verify auth = .ok () := by
  cases event with
  | admissionCheck other verify auth =>
    simp only [next,step,admission] at waiting
    split at waiting
    · rename_i checked
      simp only [mem_append,mem_singleton] at waiting
      obtain earlier | rfl := waiting
      · exact .inl earlier
      · exact .inr ⟨verify,auth,rfl,checked⟩
    · exact .inl waiting
  | admissionInsert clock index gate =>
    simp only [next,step,admission] at waiting
    split at waiting
    · exact .inl (mem_of_mem_eraseIdx waiting)
    · exact .inl waiting
  | apiRevoke canonical reason pubkey =>
    simp only [next,step,apiRevoke] at waiting
    split at waiting
    · exact .inl waiting
    · split_ifs at waiting <;> exact .inl waiting
  | produceSnapshot | produceSelect
  | produceWrite => exact .inl ((node.produce_frame _).2.subst (motive := (request ∈ ·)) waiting)
  | pipelineTick | pipelineAnalyse | pipelineAssign | pipelinePoll
  | pipelineTimeout => exact .inl ((node.validate_frame _).2.subst (motive := (request ∈ ·)) waiting)
  | syncStart | syncPeers | syncBlock | syncInsert | reorgProbe | reorgSet | reorgBlock
  | reorgApply => exact .inl ((node.admissions_synchronise _).subst (motive := (request ∈ ·)) waiting)
  | _ => exact .inl waiting

variable (crates)

/-- How the interfaces call: with what `verify_publish_auth` has returned, and without
asking for it only if it has passed before. -/
def OfSurfaces : NodeEvent → Prop
  | .admissionCheck request verify auth => ∃ source, auth = verifyPublishAuth crates wallets source request ∧
      (verify ∨ auth = .ok ())
  | _ => True

def timedNext (node : Node crates) (timed : NodeEvent × StakeSource) : Node crates := node.next timed.1

def InsertsByRules (node : Node crates) (timed : NodeEvent × StakeSource) : Prop :=
  ∀ canonical request, (node.next timed.1).poolUse.requestAt canonical = some request →
    node.poolUse.requestAt canonical ≠ some request → MeetsRules crates wallets timed.2 node.state request

/-- A gossiped request meets the rules, or is pending; a request of the interfaces is still
timely after its scan, or is refused as pending. -/
def StillAdmissible (node : Node crates) (timed : NodeEvent × StakeSource) : Prop :=
  match timed.1 with
  | .submission _ request gate => gate = .ok () → node.state.pendingPool.contains request.id.canonical ∨
      MeetsRules crates wallets timed.2 node.state request
  | .admissionInsert _ index gate => ∀ request, node.admissions[index]? = some request → gate = .ok () →
      node.poolUse.Accepts request → Timely wallets timed.2 node.state request
  | _ => True

variable {crates wallets}

theorem wellMade_of_check {verify : Bool} {auth : Except AdmissionError Unit}
    (called : OfSurfaces crates wallets (.admissionCheck request verify auth))
    (checked : admitCheck node.state request verify auth = .ok ()) : WellMade crates node.state.config request := by
  obtain ⟨id,shielded,authorised,_⟩ := (admitCheck_ok_iff node.state request verify auth).mp checked
  obtain ⟨source,rfl,asked⟩ := called
  have passed := asked.elim authorised (fun passed => passed)
  exact ⟨id,((verifyPublishAuth_ok_iff crates wallets source request).mp passed).2.1,shielded⟩

theorem wellMade_next (wellMade : ∀ request ∈ node.admissions, WellMade crates node.state.config request)
    (called : OfSurfaces crates wallets event) :
    ∀ request ∈ (node.next event).admissions, WellMade crates (node.next event).state.config request := by
  intro request waiting
  rw [next_config]
  obtain earlier | ⟨verify,auth,rfl,checked⟩ := mem_admissions_next waiting
  · exact wellMade request earlier
  · exact wellMade_of_check called checked

theorem requestAt_run_back {use : PoolUse} {events : List PoolEvent} {canonical : String}
    (noInsert : ∀ now other, .insert now other ∉ events)
    (pending : (run PoolUse.step use events).requestAt canonical = some request) : use.requestAt canonical = some request := by
  induction events generalizing use with
  | nil => exact pending
  | cons event events ih =>
    have later := ih (fun now other inside => noInsert now other (mem_cons_of_mem _ inside)) pending
    obtain ⟨now,rfl,_⟩ | ⟨earlier,_⟩ := requestAt_step_back later
    · exact absurd mem_cons_self (noInsert now request)
    · exact earlier

end Node

def NodeEvent.submits : NodeEvent → Bool
  | .submission _ _ _ => true
  | .admissionInsert _ _ _ => true
  | _ => false

namespace Node
variable {crates wallets} {node : Node crates}

theorem endsRun_noInsert (index : Nat) (stage : PipelineStep) (now : DateTime) (request : PublishRequest) :
    .insert now request ∉ endsRun index stage := by
  unfold endsRun
  split <;> simp

theorem poolEvents_noInsert (node : Node crates) (other : event.submits = false) (now : DateTime)
    (request : PublishRequest) : .insert now request ∉ node.poolEvents event := by
  cases event with
  | submission | admissionInsert => cases other
  | pipelineTick clock => simp only [poolEvents]; split_ifs <;> simp
  | pipelineAnalyse clock index tarball analysis | pipelinePoll clock index =>
    simp only [poolEvents]
    split
    · exact endsRun_noInsert index _ now request
    · simp
  | pipelineTimeout index => simp only [poolEvents]; split <;> simp
  | _ => simp [poolEvents]

theorem brought_by_insert_iff (use : PoolUse) (now : DateTime) (request : PublishRequest) (P : PublishRequest → Prop) :
    (∀ canonical brought, (use.step (.insert now request)).requestAt canonical = some brought →
      use.requestAt canonical ≠ some brought → P brought) ↔ (use.Accepts request → P request) := by
  constructor
  · intro holds accepted
    apply holds request.id.canonical request (requestAt_accepted use now accepted)
    intro already
    exact accepted request already rfl
  · intro holds canonical brought after before
    obtain ⟨_,same,accepted,_⟩ | ⟨earlier,_⟩ := requestAt_step_back after
    · cases same
      exact holds accepted
    · exact absurd earlier before

theorem insertsByRules_of_poolEvents {timed : NodeEvent × StakeSource}
    (noInsert : ∀ now other, .insert now other ∉ node.poolEvents timed.1) : InsertsByRules crates wallets node timed := by
  intro canonical request after before
  rw [poolUse_next] at after
  exact absurd (requestAt_run_back noInsert after) before

theorem accepts_of_absent {request : PublishRequest} (absent : node.state.pendingPool.contains request.id.canonical = false) :
    node.poolUse.Accepts request := by
  intro pending found
  simp only [PendingPool.contains,isSome_eq_false_iff,isNone_iff_eq_none] at absent
  simp [requestAt,poolUse,PendingPool.get,absent] at found

theorem insertsByRules_iff (wellMade : ∀ request ∈ node.admissions, WellMade crates node.state.config request)
    (timed : NodeEvent × StakeSource) :
    InsertsByRules crates wallets node timed ↔ StillAdmissible crates wallets node timed := by
  obtain ⟨event,source⟩ := timed
  cases event with
  | submission clock request gate =>
    by_cases inserts : gate = .ok () ∧ node.state.pendingPool.contains request.id.canonical = false
    · have brought := brought_by_insert_iff node.poolUse clock.utc request (MeetsRules crates wallets source node.state)
      simp only [InsertsByRules,StillAdmissible,poolUse_next,poolEvents,if_pos inserts,run_cons,run_nil,brought]
      simp [accepts_of_absent inserts.2,inserts]
    · have quiet : InsertsByRules crates wallets node (.submission clock request gate,source) := by
        apply insertsByRules_of_poolEvents
        simp [poolEvents,inserts]
      simp only [quiet,StillAdmissible,true_iff]
      intro passed
      exact .inl (by simpa [passed] using inserts)
  | admissionInsert clock index gate =>
    by_cases inserts : (node.admissions[index]?).isSome ∧ gate = .ok ()
    · obtain ⟨waiting,rfl⟩ := inserts
      obtain ⟨request,found⟩ := isSome_iff_exists.mp waiting
      have made := wellMade request (List.mem_of_getElem? found)
      have brought := brought_by_insert_iff node.poolUse clock.utc request (MeetsRules crates wallets source node.state)
      simp only [InsertsByRules,StillAdmissible,poolUse_next,poolEvents,found,if_true,run_cons,run_nil,brought,
        Option.some.injEq,forall_eq',true_implies]
      exact forall_congr' fun _ => ⟨fun meets => meets.timely,fun timely => ⟨made,timely⟩⟩
    · have quiet : InsertsByRules crates wallets node (.admissionInsert clock index gate,source) := by
        apply insertsByRules_of_poolEvents
        intro now other inside
        simp only [poolEvents] at inside
        split at inside
        · rename_i request found
          rw [if_neg (fun passed => inserts ⟨by simp [found],passed⟩)] at inside
          cases inside
        · cases inside
      simp only [quiet,StillAdmissible,true_iff]
      intro request found passed
      exact absurd ⟨by simp [found],passed⟩ inserts
  | _ => exact iff_of_true (insertsByRules_of_poolEvents (node.poolEvents_noInsert rfl)) trivial

end Node

/-- Both surfaces follow the rules as far as the rules hold by themselves, per request and along every run. -/
theorem admission_rules_iff (crates : Crates) (wallets : WalletCrates) :
    (∀ (source : StakeSource) (now : DateTime) (request : PublishRequest) (state : NodeState),
      ((state.onSubmission now request (.ok ())).pendingPool ≠ state.pendingPool →
        (admitPublishRequest crates wallets source now request true (.ok ()) state).2.isOk) ↔
      state.pendingPool.contains request.id.canonical ∨ MeetsRules crates wallets source state request) ∧
    ∀ (node : Node crates) (timed : List (NodeEvent × StakeSource)), node.admissions = [] →
      (∀ event ∈ timed, Node.OfSurfaces crates wallets event.1) →
      (Along (Node.timedNext crates) (Node.InsertsByRules crates wallets) node timed ↔
        Along (Node.timedNext crates) (Node.StillAdmissible crates wallets) node timed) := by
  refine ⟨NodeState.gossip_as_admission_iff crates wallets,?_⟩
  intro node timed empty called
  have calls : Along (Node.timedNext crates) (fun _ event => Node.OfSurfaces crates wallets event.1) node timed := by
    apply along_of_splits
    intro before event rest split
    exact called event (by simp [split])
  have keeps : ∀ (node : Node crates) (timed : NodeEvent × StakeSource),
      (∀ request ∈ node.admissions, WellMade crates node.state.config request) → Node.OfSurfaces crates wallets timed.1 →
      ∀ request ∈ (Node.timedNext crates node timed).admissions,
        WellMade crates (Node.timedNext crates node timed).state.config request :=
    fun node timed wellMade called => Node.wellMade_next wellMade called
  apply along_congr keeps
  · intro node timed wellMade _
    exact Node.insertsByRules_iff wellMade timed
  · simp [empty]
  · exact calls

namespace Solo
def wallet : WalletCrates where
  parseAddress text := [1,2].find? fun a => SetSync.addressText a = Text.toAsciiLowercase text
  keccak256 _ := 0
  signatureFormat _ := .ok ()
  recoverFromPrehash _ _ _ := .error "signature error"

def staked : StakeSource := ⟨"http://l1",true,SetSync.addressText 2,fun _ _ => .ok 1⟩

def signedRequest : PublishRequest :=
  {request "h" with
    publisherAddress := SetSync.addressText 1
    publisherPubkey := "01"
    signature :=
      Text.hexEncode (Solo.crates.sign [1] (Text.bytes (publishSignatureMessage package "h" (SetSync.addressText 1))))}

theorem signedRequest_meets : MeetsRules Solo.crates wallet staked (producer Solo.crates).state signedRequest := by
  refine ⟨⟨?_,?_,?_⟩,⟨?_,?_⟩⟩
  · decide +kernel
  · decide +kernel
  · decide
  · decide +kernel
  · have absent : (producer Solo.crates).state.chain.getPackage signedRequest.id.canonical = none := by decide +kernel
    simp [absent]

end Solo

theorem signed_request_admitted : (admitPublishRequest Solo.crates Solo.wallet Solo.staked 0 Solo.signedRequest true (.ok ())
      (Solo.producer Solo.crates).state).2.isOk ∧
    Along (Node.timedNext Solo.crates) (Node.InsertsByRules Solo.crates Solo.wallet) (Solo.producer Solo.crates)
      [(.submission ⟨0,0⟩ Solo.signedRequest (.ok ()),Solo.staked)] := by
  obtain ⟨each,runs⟩ := admission_rules_iff Solo.crates Solo.wallet
  refine ⟨(each Solo.staked 0 Solo.signedRequest (Solo.producer Solo.crates).state).mpr (.inr Solo.signedRequest_meets) ?_,
    (runs (Solo.producer Solo.crates) _ rfl (by simp [Node.OfSurfaces])).mpr ⟨fun _ => .inr Solo.signedRequest_meets,trivial⟩⟩
  rw [NodeState.onSubmission_inserts_iff]
  decide +kernel

theorem unsigned_request_gossiped :
    ¬∀ (crates : Crates), crates.CollisionFree → crates.SignaturesCorrect → ∀ (wallets : WalletCrates) (source : StakeSource)
      (now : DateTime) (request : PublishRequest) (state : NodeState),
      (state.onSubmission now request (.ok ())).pendingPool ≠ state.pendingPool →
        (admitPublishRequest crates wallets source now request true (.ok ()) state).2.isOk := by
  intro claimed
  have accepted := claimed Solo.crates (Ideal.collisionFree _ _) (Ideal.signaturesCorrect _ _) Solo.wallet Solo.staked 0
    (Solo.request "h") (Solo.producer Solo.crates).state (by
      rw [NodeState.onSubmission_inserts_iff]
      decide +kernel)
  revert accepted
  decide +kernel

end ChainRegistry
