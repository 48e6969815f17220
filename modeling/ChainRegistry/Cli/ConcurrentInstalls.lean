import ChainRegistry.Cli.Install
import ChainRegistry.Lib.Fallible
import ChainRegistry.Lib.Holders
import ChainRegistry.Lib.Runs

/-! What the package manager is handed over by `creg install`, in the interleavings of processes
that share the temporary directory. -/
namespace ChainRegistry.Install
open Lib Holders Runs Fallible List Option Text

variable {path : Path}

def Process.holds (env : Environment) (process : Process) : Option Path :=
  match process.stage with
  | .writing _ | .ready true => some (process.tempFile env)
  | _ => none

def Process.creates (process : Process) : Bool :=
  match process.stage with
  | .fetched _ _ => true
  | _ => false

namespace System
/-- For a verified package, the argument after the verb is a file that now has the bytes with
the hash of the verdict. -/
def HandsOverVerified (env : Environment) (system : System) : Event → Prop
  | .act i (.delegate found) => ∀ process ∈ system.processes[i]?, ∀ tarball invocation, process.stage = .ready tarball →
    process.delegate env found tarball = .ok invocation → ∀ contentHash ∈ process.contentHash,
      ∃ verb artifact content, invocation.args = [verb,artifact] ∧ system.files.lookup (Text.bytes artifact) = some content ∧
        env.sha256Hex content = contentHash
  | _ => True

/-- A temporary file is created while no other process has it, and handed over as a file, after its
last write, under a path that is a text. -/
def Undisturbed (env : Environment) (system : System) : Event → Prop
  | .act i (.create true) => ∀ process ∈ system.processes[i]?, process.creates →
    ∀ other ∈ system.processes.eraseIdx i, other.holds env ≠ some (process.tempFile env)
  | .act i (.delegate _) => ∀ process ∈ system.processes[i]?, process.stage = .ready true →
    process.ecosystem ≠ "maven" ∧ (toStr (process.tempFile env)).isSome = true ∧ ∀ opened ∈ process.file, opened.flight = .idle
  | _ => True

instance decidableUndisturbed (env : Environment) (system : System) : (event : Event) → Decidable (system.Undisturbed env event)
  | .act i (.create true) => inferInstanceAs (Decidable (∀ process ∈ system.processes[i]?, process.creates →
      ∀ other ∈ system.processes.eraseIdx i, other.holds env ≠ some (process.tempFile env)))
  | .act i (.delegate _) => inferInstanceAs (Decidable (∀ process ∈ system.processes[i]?, process.stage = .ready true →
      process.ecosystem ≠ "maven" ∧ (toStr (process.tempFile env)).isSome = true ∧ ∀ opened ∈ process.file,
        opened.flight = .idle))
  | .resolve .. | .act _ (.create false) | .act _ (.decide _) | .act _ (.fetch _) | .act _ .write | .act _ (.land _) =>
    isTrue trivial

end System

theorem bytes_of_toStr {text : String} (read : toStr path = some text) : bytes text = path := by
  unfold toStr String.fromUTF8? at read
  split_ifs at read
  cases read
  rfl

theorem writeAt_take (bytes : List UInt8) {start written : Nat} (order : start ≤ written) (inside : written ≤ bytes.length) :
    writeAt start ((bytes.take written).drop start) (bytes.take start) = bytes.take written := by
  have whole : (bytes.take start).length = start := length_take_of_le (order.trans inside)
  have first : (bytes.take written).take start = bytes.take start := by rw [take_take,min_eq_left order]
  rw [writeAt,take_of_length_le whole.le,whole,Nat.sub_self,replicate_zero,append_nil,
    drop_eq_nil_of_le (whole.le.trans (Nat.le_add_right _ _)),append_nil,← first,take_append_drop]

def Opened.Fits (opened : Opened) (content : Option (List UInt8)) : Prop :=
  match opened.flight with
  | .idle => content = some (opened.bytes.take opened.written)
  | .busy start => start ≤ opened.written ∧ content = some (opened.bytes.take start)
  | .failed => True

structure Process.Agrees (env : Environment) (process : Process) (content : Option (List UInt8)) (opened : Opened) : Prop where
  file : process.file = some opened
  hash : process.contentHash = some (env.sha256Hex opened.bytes)
  inside : opened.written ≤ opened.bytes.length
  whole : process.stage = .ready true → opened.written = opened.bytes.length
  fits : opened.Fits content

structure Process.Sound (env : Environment) (process : Process) : Prop where
  fetched : ∀ attempt bytes, process.stage = .fetched attempt bytes → process.contentHash = some (env.sha256Hex bytes)
  fallback : process.stage = .ready false → process.contentHash = none
  resting : process.holds env = none → ∀ opened ∈ process.file, ∀ start, opened.flight ≠ .busy start

structure System.Guarded (env : Environment) (system : System) : Prop where
  kept : Kept (Process.holds env) (fun process content => ∃ opened, process.Agrees env content opened) system.processes
    (fun path => system.files.lookup path)
  sound : ∀ process ∈ system.processes, process.Sound env

variable {env : Environment} {system : System} {process : Process} {i : Nat} {stage : Stage}
  {new : Process} {invocation : Invocation}

namespace Process
theorem trustDecision_ok {answer : Option Bool} (ok : process.trustDecision answer = .ok stage) :
    stage = .downloading 1 ∨ stage = .ready false ∧ process.contentHash = none := by
  unfold trustDecision at ok
  split at ok
  · obtain ⟨_,_,ok⟩ := (bind_ok _ _ _).mp ok
    split_ifs at ok
    exact .inl (Except.ok.inj ok).symm
  · rename_i status
    obtain ⟨_,_,ok⟩ := (bind_ok _ _ _).mp ok
    exact .inr ⟨(Except.ok.inj ok).symm,by rw [contentHash,status]⟩
  · cases ok
  · rename_i status
    split_ifs at ok
    exact .inr ⟨(Except.ok.inj ok).symm,by rw [contentHash,status]⟩

theorem pmArgs_package {ecosystem name : String} (accepted : pmName ecosystem = .ok name) (other : ecosystem ≠ "maven")
    (rawPackage : String) : ∃ verb, pmArgs rawPackage ecosystem = [verb,rawPackage] := by
  unfold pmName at accepted
  split at accepted
  · exact ⟨_,rfl⟩
  · exact ⟨_,rfl⟩
  · exact ⟨_,rfl⟩
  · exact ⟨_,rfl⟩
  · exact absurd rfl other
  · cases accepted

theorem delegate_args {found tarball : Bool} (ok : process.delegate env found tarball = .ok invocation)
    (other : process.ecosystem ≠ "maven") : ∃ verb, invocation.args = [verb,process.installTarget env tarball] := by
  obtain ⟨name,accepted,ok⟩ := (bind_ok _ _ _).mp ok
  split_ifs at ok
  cases ok
  exact pmArgs_package accepted other _

end Process

def Stage.plain : Stage → Bool
  | .downloading _ | .delegated _ | .failed _ => true
  | _ => false

theorem Process.attemptFailed_eq (process : Process) (attempt : Nat) (error : String) :
    ∃ stage : Stage, stage.plain ∧ process.attemptFailed attempt error = {process with stage := stage} := by
  unfold Process.attemptFailed
  split_ifs <;> exact ⟨_,rfl,rfl⟩

theorem Process.holds_plain (plain : stage.plain) : Process.holds env {process with stage := stage} = none := by
  cases stage <;> first | rfl | cases plain

theorem Process.sound_plain (plain : stage.plain)
    (rests : ∀ opened ∈ process.file, ∀ start, opened.flight ≠ .busy start) : Process.Sound env
      {process with stage := stage} where
  fetched attempt bytes same := by
    subst same
    cases plain
  fallback same := by
    subst same
    cases plain
  resting _ := rests

theorem Process.sound_of_holds (holds : process.holds env = some path) : process.Sound env where
  fetched attempt bytes stage := by
    rw [Process.holds,stage] at holds
    cases holds
  fallback stage := by
    rw [Process.holds,stage] at holds
    cases holds
  resting free := by
    rw [free] at holds
    cases holds

namespace System.Guarded
section
variable (guarded : system.Guarded env)
include guarded

theorem sound_set (sound : new.Sound env) : ∀ process ∈ system.processes.set i new, process.Sound env := by
  intro process inside
  rcases mem_or_eq_of_mem_set inside with inside | rfl
  · exact guarded.sound process inside
  · exact sound

theorem put_free (free : new.holds env = none) (sound : new.Sound env) : (system.put i new).Guarded env :=
  ⟨guarded.kept.release free,guarded.sound_set sound⟩

theorem put_plain (plain : stage.plain) (rests : ∀ opened ∈ process.file, ∀ start, opened.flight ≠ .busy start) :
    (system.put i {process with stage := stage}).Guarded env :=
  guarded.put_free (Process.holds_plain plain) (Process.sound_plain plain rests)

theorem put_attemptFailed (attempt : Nat) (error : String)
    (rests : ∀ opened ∈ process.file, ∀ start, opened.flight ≠ .busy start) :
    (system.put i (process.attemptFailed attempt error)).Guarded env := by
  obtain ⟨stage,plain,same⟩ := process.attemptFailed_eq attempt error
  rw [same]
  exact guarded.put_plain plain rests

end

variable (guarded : system.Guarded env) (found : system.processes[i]? = some process)
include guarded found

theorem rests (free : process.holds env = none) : ∀ opened ∈ process.file, ∀ start, opened.flight ≠ .busy start :=
  (guarded.sound process (List.mem_of_getElem? found)).resting free

theorem decide (answer : Option Bool) : (system.act env i process (.decide answer)).Guarded env := by
  simp only [System.act]
  split
  · rename_i stage
    have rests := guarded.rests found (by rw [Process.holds,stage])
    split
    · rename_i next ok
      obtain rfl | ⟨rfl,unverified⟩ := Process.trustDecision_ok ok
      · exact guarded.put_plain rfl rests
      · exact guarded.put_free rfl ⟨nofun,fun _ => unverified,fun _ => rests⟩
    · exact guarded.put_plain rfl rests
  · exact guarded

theorem fetch (replies : List (Option (List UInt8))) : (system.act env i process (.fetch replies)).Guarded env := by
  simp only [System.act]
  split
  · rename_i attempt stage
    have rests := guarded.rests found (by rw [Process.holds,stage])
    unfold Process.fetch
    split
    · rename_i bytes taken
      have chosen := (List.find?_eq_some_iff_append.mp taken).1
      refine guarded.put_free rfl ⟨?_,nofun,fun _ => rests⟩
      intro _ _ same
      cases same
      exact of_decide_eq_true chosen
    · exact guarded.put_attemptFailed attempt _ rests
  · exact guarded

theorem create (opens : Bool) (undisturbed : system.Undisturbed env (.act i (.create opens))) :
    (system.act env i process (.create opens)).Guarded env := by
  simp only [System.act]
  split
  · rename_i attempt bytes stage
    split_ifs with isOpen
    · subst isOpen
      have hash := (guarded.sound process (List.mem_of_getElem? found)).fetched attempt bytes stage
      have free := undisturbed process found (by rw [Process.creates,stage])
      have apart : ∀ (j : Nat) other, j ≠ i → system.processes[j]? = some other →
        other.holds env ≠ some (process.tempFile env) := by
        intro j other different atOther
        exact free other (List.mem_eraseIdx_iff_getElem?.mpr ⟨j,different,atOther⟩)
      constructor
      · apply guarded.kept.change
        · intro path same
          cases same
          exact apart
        · intro j other path different atOther holds
          rw [System.create,Table.lookup_insert_eq,if_neg]
          intro same
          exact apart j other different atOther (same ▸ holds)
        · intro path same
          cases same
          refine ⟨⟨bytes,0,.idle⟩,rfl,hash,Nat.zero_le _,nofun,?_⟩
          exact AList.lookup_insert _
      · exact guarded.sound_set ⟨nofun,nofun,nofun⟩
    · exact guarded.put_attemptFailed attempt _ (guarded.rests found (by rw [Process.holds,stage]))
  · exact guarded

theorem put_holding (held : process.holds env = some path) (holds : new.holds env = some path)
    {opened : Opened} (agrees : new.Agrees env (system.files.lookup path) opened) : (system.put i new).Guarded env :=
  ⟨guarded.kept.renew found held holds (fun _ _ => rfl) ⟨opened,agrees⟩,guarded.sound_set (Process.sound_of_holds holds)⟩

theorem write : (system.act env i process .write).Guarded env := by
  simp only [System.act]
  split
  · rename_i attempt opened stage file
    have holds : process.holds env = some (process.tempFile env) := by rw [Process.holds,stage]
    obtain ⟨other,agrees⟩ := guarded.kept.agrees process (List.mem_of_getElem? found) _ holds
    obtain rfl : opened = other := Option.some.inj (file.symm.trans agrees.file)
    have unready : process.stage ≠ .ready true := by
      rw [stage]
      nofun
    have fits := agrees.fits
    unfold Process.write
    split_ifs with given
    · have whole := le_antisymm agrees.inside given
      exact guarded.put_holding found holds rfl ⟨agrees.file,agrees.hash,agrees.inside,fun _ => whole,fits⟩
    · split
      · rename_i flight
        rw [Opened.Fits,flight] at fits
        refine guarded.put_holding found holds holds ⟨rfl,agrees.hash,Nat.min_le_right _ _,fun ready => absurd ready unready,?_⟩
        exact ⟨le_min (Nat.le_add_right _ _) agrees.inside,fits⟩
      · exact guarded.put_holding found holds holds agrees
      · rename_i flight
        apply guarded.put_attemptFailed
        intro other same start busy
        obtain rfl : opened = other := Option.some.inj (file.symm.trans same)
        rw [flight] at busy
        cases busy
  · exact guarded

theorem land (arrived : Option Nat) : (system.act env i process (.land arrived)).Guarded env := by
  simp only [System.act]
  split
  · rename_i bytes written start file
    -- a write is under way only in a process that has its file
    have holds : process.holds env = some (process.tempFile env) := by
      cases held : process.holds env with
      | none => exact absurd rfl (guarded.rests found held _ file start)
      | some path =>
        unfold Process.holds at held
        split at held
        · exact held.symm
        · exact held.symm
        · cases held
    obtain ⟨opened,agrees⟩ := guarded.kept.agrees process (List.mem_of_getElem? found) _ holds
    obtain rfl : ⟨bytes,written,.busy start⟩ = opened := Option.some.inj (file.symm.trans agrees.file)
    obtain ⟨order,content⟩ := agrees.fits
    have others : ∀ value, ∀ path ≠ process.tempFile env,
        (system.files.insert (process.tempFile env) value).lookup path = system.files.lookup path := by
      intro value path different
      rw [Table.lookup_insert_eq,if_neg different]
    cases arrived with
    | none =>
      refine ⟨guarded.kept.renew found holds holds (others _) ⟨_,rfl,agrees.hash,agrees.inside,agrees.whole,?_⟩,
        guarded.sound_set (Process.sound_of_holds holds)⟩
      change (system.files.insert _ _).lookup _ = _
      rw [AList.lookup_insert,System.content,content,getD_some,writeAt_take bytes order agrees.inside]
    | some count =>
      exact ⟨guarded.kept.renew found holds holds (others _) ⟨_,rfl,agrees.hash,agrees.inside,agrees.whole,trivial⟩,
        guarded.sound_set (Process.sound_of_holds holds)⟩
  · exact guarded

theorem delegate (isFound : Bool) (undisturbed : system.Undisturbed env (.act i (.delegate isFound))) :
    (system.act env i process (.delegate isFound)).Guarded env := by
  simp only [System.act]
  split
  · rename_i tarball stage
    have rests : ∀ opened ∈ process.file, ∀ start, opened.flight ≠ .busy start := by
      cases tarball with
      | false => exact guarded.rests found (by rw [Process.holds,stage])
      | true =>
        intro opened file start busy
        rw [(undisturbed process found stage).2.2 opened file] at busy
        cases busy
    split
    · exact guarded.put_plain rfl rests
    · exact guarded.put_plain rfl rests
  · exact guarded

omit found in
theorem step (event : Event) (undisturbed : system.Undisturbed env event) : (system.step env event).Guarded env := by
  cases event with
  | resolve rawPackage ecosystem allowUnverified extraArgs status =>
    refine ⟨guarded.kept.join rfl,?_⟩
    intro process inside
    rw [System.step,mem_append,mem_singleton] at inside
    rcases inside with inside | rfl
    · exact guarded.sound process inside
    · exact ⟨nofun,nofun,nofun⟩
  | act i action =>
    simp only [System.step]
    split
    · rename_i process found
      cases action with
      | decide answer => exact guarded.decide found answer
      | fetch replies => exact guarded.fetch found replies
      | create opens => exact guarded.create found opens undisturbed
      | write => exact guarded.write found
      | land arrived => exact guarded.land found arrived
      | delegate isFound => exact guarded.delegate found isFound undisturbed
    · exact guarded

omit found in
theorem handsOverVerified (event : Event) (undisturbed : system.Undisturbed env event) : system.HandsOverVerified env event := by
  unfold System.HandsOverVerified
  split
  · rename_i i isFound
    intro process found tarball invocation stage delegated contentHash verified
    cases tarball with
    | false =>
      rw [(guarded.sound process (List.mem_of_getElem? found)).fallback stage] at verified
      cases verified
    | true =>
      obtain ⟨other,text,landed⟩ := undisturbed process found stage
      obtain ⟨verb,args⟩ := Process.delegate_args delegated other
      obtain ⟨artifact,read⟩ := isSome_iff_exists.mp text
      have holds : process.holds env = some (process.tempFile env) := by rw [Process.holds,stage]
      obtain ⟨opened,agrees⟩ := guarded.kept.agrees process (List.mem_of_getElem? found) _ holds
      have content := agrees.fits
      rw [Opened.Fits,landed opened agrees.file] at content
      refine ⟨verb,artifact,opened.bytes,?_,?_,?_⟩
      · rw [args,Process.installTarget,if_pos rfl,read,getD_some]
      · rw [bytes_of_toStr read,content,agrees.whole stage,take_length]
      · exact Option.some.inj (agrees.hash.symm.trans verified)
  · trivial

end System.Guarded

/-- Undisturbed, every verified package is handed over with the verified bytes. -/
theorem verified_bytes_handed_over (env : Environment) (files : Files) (events : List Event)
    (undisturbed : Along (System.step env) (System.Undisturbed env) ⟨files,[]⟩ events) :
    Along (System.step env) (System.HandsOverVerified env) ⟨files,[]⟩ events := by
  apply along_invariant (fun _ event guarded => System.Guarded.step guarded event)
    (fun _ event guarded => System.Guarded.handsOverVerified guarded event) _ _ _ undisturbed
  exact ⟨kept_nil _,nofun⟩

theorem not_handed_over {start : System} {before : List Event} {found : Bool} {contentHash : String}
    (reached : (run (System.step env) start before).processes[i]? = some process) (stage : process.stage = .ready true)
    (delegated : process.delegate env found true = .ok invocation) (verified : process.contentHash = some contentHash)
    (other : ∀ artifact ∈ invocation.args.tail, ∀ content ∈ (run (System.step env) start before).files.lookup (bytes artifact),
      env.sha256Hex content ≠ contentHash) :
    ¬ Along (System.step env) (System.HandsOverVerified env) start (before ++ [.act i (.delegate found)]) := by
  intro along
  obtain ⟨_,last,_⟩ := (along_append start before _).mp along
  obtain ⟨verb,artifact,content,args,file,hash⟩ := last process reached true invocation stage delegated contentHash verified
  exact other artifact (by simp [args]) content file hash

/-! Two packages of one name, one byte each, with the byte itself for its hash. -/
namespace Shared
def machine : Environment := ⟨hexEncode,[47,116,109,112],8⟩

def start : System := ⟨∅,[]⟩

def resolved (rawPackage ecosystem contentHash : String) : Event :=
    .resolve rawPackage ecosystem false [] (.verified "block" contentHash "cid" [])

def download (i : Nat) (byte : UInt8) : List Event :=
  [.act i (.decide none),.act i (.fetch [some [byte]]),.act i (.create true),.act i .write]

def landed (i : Nat) : List Event := [.act i (.land none),.act i .write]

def downloaded (ecosystem : String) (flight : Flight) : Process :=
  ⟨"a@1",ecosystem,false,[],.verified "block" "01" "cid" [],.ready true,some ⟨[1],1,flight⟩⟩

def inTurn : List Event :=
  resolved "a@1" "npm" "01" :: download 0 1 ++ landed 0 ++ [.act 0 (.delegate true)] ++
    resolved "a@2" "cargo" "02" :: download 1 2 ++ landed 1 ++ [.act 1 (.delegate true)]

theorem in_turn_handed_over : Along (System.step machine) (System.HandsOverVerified machine) start inTurn ∧
    (run (System.step machine) start inTurn).processes.map Process.stage =
      [.delegated ⟨"npm",["install","/tmp/a.tgz"],[]⟩,.delegated ⟨"cargo",["add","/tmp/a.tgz"],[]⟩] :=
  ⟨verified_bytes_handed_over machine ∅ inTurn (by decide +kernel),by decide +kernel⟩

def overlapping : List Event :=
  resolved "a@1" "npm" "01" :: download 0 1 ++ landed 0 ++ resolved "a@2" "cargo" "02" :: download 1 2 ++ landed 1

def unflushed : List Event := resolved "a@1" "npm" "01" :: download 0 1 ++ [.act 0 .write]

def forMaven : List Event := resolved "a@1" "maven" "01" :: download 0 1 ++ landed 0

theorem other_bytes_handed_over :
    ¬ Along (System.step machine) (System.HandsOverVerified machine) start (overlapping ++ [.act 0 (.delegate true)]) ∧
    ¬ Along (System.step machine) (System.HandsOverVerified machine) start (unflushed ++ [.act 0 (.delegate true)]) ∧
    ¬ Along (System.step machine) (System.HandsOverVerified machine) start (forMaven ++ [.act 0 (.delegate true)]) := by
  have delegated : ∀ flight ∈ [Flight.idle,.busy 0],
      (downloaded "npm" flight).delegate machine true true = .ok ⟨"npm",["install","/tmp/a.tgz"],[]⟩ := by decide +kernel
  refine ⟨?_,?_,?_⟩
  · have reached : (run (System.step machine) start overlapping).processes[0]? =
      some (downloaded "npm" .idle) := by decide +kernel
    exact not_handed_over reached rfl (delegated _ (.head _)) rfl (by decide +kernel)
  · have reached : (run (System.step machine) start unflushed).processes[0]? =
      some (downloaded "npm" (.busy 0)) := by decide +kernel
    exact not_handed_over reached rfl (delegated _ (.tail _ (.head _))) rfl (by decide +kernel)
  · have reached : (run (System.step machine) start forMaven).processes[0]? = some (downloaded "maven" .idle) := by decide +kernel
    have delegated : (downloaded "maven" .idle).delegate machine true true = .ok ⟨"mvn",["dependency:resolve"],[]⟩ := rfl
    exact not_handed_over reached rfl delegated rfl (by decide +kernel)

end Shared
end ChainRegistry.Install
