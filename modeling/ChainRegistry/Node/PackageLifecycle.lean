import ChainRegistry.Node.SyncSoundness

/-! The life of a published package in the index. A block may publish a name again; the
content of a version and its revocation last as long as no inserted block does so with
another content or against a revocation. -/
namespace ChainRegistry
open Lib Runs List Option ChainStore

variable {crates : Crates} {index : Table String ChainRecord}

def PackageStatus.isRevoked : PackageStatus → Bool
  | .revoked _ => true
  | _ => false

@[mk_iff]
structure ChainRecord.Continues (earlier later : ChainRecord) : Prop where
  content : later.contentHash = earlier.contentHash
  revoked : earlier.status.isRevoked → later.status.isRevoked

theorem ChainRecord.Continues.trans {first second third : ChainRecord} (left : first.Continues second)
    (right : second.Continues third) : first.Continues third :=
  ⟨right.content.trans left.content,fun revoked => right.revoked (left.revoked revoked)⟩

def IndexContinues (earlier later : Table String ChainRecord) : Prop :=
  ∀ canonical record, earlier.lookup canonical = some record →
    ∃ next, later.lookup canonical = some next ∧ record.Continues next

theorem IndexContinues.refl (index : Table String ChainRecord) : IndexContinues index index :=
  fun _ record found => ⟨record,found,rfl,id⟩

theorem IndexContinues.trans {first second third : Table String ChainRecord} (left : IndexContinues first second)
    (right : IndexContinues second third) : IndexContinues first third := by
  intro canonical record found
  obtain ⟨next,present,continues⟩ := left canonical record found
  obtain ⟨last,there,further⟩ := right canonical next present
  exact ⟨last,there,continues.trans further⟩

instance (earlier later : ChainRecord) : Decidable (earlier.Continues later) :=
  decidable_of_iff' _ (ChainRecord.continues_iff ..)

def Transaction.published : Transaction → Option ChainRecord
  | .publish record => some record
  | _ => none

def PublishesContinue (index : Table String ChainRecord) (block : Block) : Prop :=
  ∀ record ∈ block.transactions.filterMap Transaction.published, ∀ existing ∈ index.lookup record.id.canonical,
    existing.Continues record

instance (index : Table String ChainRecord) (block : Block) : Decidable (PublishesContinue index block) :=
  inferInstanceAs (Decidable (∀ record ∈ _, _))

theorem indexTransaction_continues {hash canonical : String} {block : Block} {tx : Transaction} {next existing : ChainRecord}
    (publishes : PublishesContinue index block) (inside : tx ∈ block.transactions)
    (put : (canonical,next) ∈ indexTransaction hash index tx) (found : index.lookup canonical = some existing) :
    existing.Continues next := by
  cases tx with
  | publish record =>
    simp only [indexTransaction,mem_singleton,Prod.mk.injEq] at put
    obtain ⟨rfl,rfl⟩ := put
    have published : record ∈ block.transactions.filterMap Transaction.published :=
      mem_filterMap.mpr ⟨_,inside,rfl⟩
    obtain ⟨content,revoked⟩ := publishes record published existing found
    exact ⟨content,revoked⟩
  | revoke target reason revoker evidence =>
    simp only [indexTransaction] at put
    split at put
    · rename_i record present
      simp only [mem_singleton,Prod.mk.injEq] at put
      obtain ⟨rfl,rfl⟩ := put
      rw [found,Option.some.injEq] at present
      exact ⟨by rw [present],fun _ => rfl⟩
    · cases put
  | rotatePublisherKey canonicalPrefix oldPubkey newPubkey sigFromOld sigFromNew rotatedAt nonce =>
    simp only [indexTransaction,mem_filterMap] at put
    obtain ⟨⟨name,record⟩,listed,rotated⟩ := put
    split_ifs at rotated
    simp only [Option.some.injEq,Prod.mk.injEq] at rotated
    obtain ⟨rfl,rfl⟩ := rotated
    have present := AList.mem_lookup_iff.mpr listed
    rw [found,mem_some_iff] at present
    exact ⟨by rw [present],fun revoked => by rw [← present]; exact revoked⟩
  | _ => cases put

theorem indexBlock_continues (hash : String) {block : Block} (publishes : PublishesContinue index block) :
    IndexContinues index (indexBlock hash index block) := by
  intro canonical existing found
  rcases Table.lookup_putAll index (block.transactions.flatMap (indexTransaction hash index)) canonical with
    ⟨next,put,present⟩ | kept
  · obtain ⟨tx,inside,written⟩ := mem_flatMap.mp put
    exact ⟨next,present,indexTransaction_continues publishes inside written found⟩
  · exact ⟨existing,kept.trans found,rfl,id⟩

namespace Node
def KeepsPackages (node : Node crates) (event : NodeEvent) : Prop :=
  ∀ block ∈ node.insertable event, PublishesContinue node.state.chain.packages block

instance (node : Node crates) (event : NodeEvent) : Decidable (node.KeepsPackages event) :=
  inferInstanceAs (Decidable (∀ block ∈ _, _))

theorem next_continues (node : Node crates) (event : NodeEvent) (noReorg : event.reorganises = false)
    (keeps : node.KeepsPackages event) :
    IndexContinues node.state.chain.packages (node.next event).state.chain.packages := by
  cases node.next_effect event noReorg with
  | kept chain index | failed now block listed inside same faulty chain index =>
    rw [chain]
    exact .refl _
  | inserted now block listed inside same chain index =>
    rw [chain]
    apply indexBlock_continues
    rw [PublishesContinue,same.2]
    exact keeps listed inside

theorem run_continues (start : Node crates) (events : List NodeEvent)
    (noReorg : ∀ event ∈ events, event.reorganises = false) (keeps : Along next KeepsPackages start events) :
    IndexContinues start.state.chain.packages (run next start events).state.chain.packages := by
  induction events generalizing start with
  | nil => exact .refl _
  | cons event events ih =>
    have step := start.next_continues event (noReorg event (by simp)) keeps.1
    exact step.trans (ih (start.next event) (fun later inside => noReorg later (by simp [inside])) keeps.2)

end Node

/-- Without a reorganisation a verified package keeps its content, and a revoked one is not verified again. -/
theorem packages_last (start : Node crates) (first second : List NodeEvent)
    (noReorg : ∀ event ∈ first ++ second, event.reorganises = false)
    (keeps : Along Node.next Node.KeepsPackages start (first ++ second)) :
    let before := (run Node.next start first).state.chain
    let after := (run Node.next start (first ++ second)).state.chain
    (∀ canonical record, before.getPackage canonical = some record → record.status = .verified →
      ∃ later, after.getPackage canonical = some later ∧ later.contentHash = record.contentHash) ∧
    ∀ canonical record reason, before.getPackage canonical = some record → record.status = .revoked reason →
      ∀ later, after.getPackage canonical = some later → later.status ≠ .verified := by
  intro before after
  have continues : IndexContinues before.packages after.packages := by
    simp only [after,run_append]
    apply Node.run_continues
    · exact fun event inside => noReorg event (mem_append_right first inside)
    · exact ((along_append _ _ _).mp keeps).2
  refine ⟨?_,?_⟩
  · intro canonical record found _
    obtain ⟨later,present,kept⟩ := continues canonical record found
    exact ⟨later,present,kept.content⟩
  · intro canonical record reason found revoked later present verified
    obtain ⟨other,there,kept⟩ := continues canonical record found
    rw [present.symm.trans there |> Option.some.inj] at verified
    have still := kept.revoked (by rw [revoked]; rfl)
    rw [verified] at still
    cases still

namespace Solo
def key : String := "01" ++ String.ofList (List.replicate 62 '0')

def producer (crates : Crates) : Node crates := Node.initial ⟨"v",some key,true,false⟩ config members

def request (contentHash : String) : PublishRequest where
  id := package
  contentHash := contentHash
  ipfsCid := ""
  publisherAddress := ""
  publisherPubkey := "p"
  signature := ""
  manifest := {}
  submittedAt := 0
  shielded := false
  keyBundle := none
  pgpSignature := none
  pgpPublicKey := none
  threshold := 1
  publisherPubkeys := []
  signatures := []

def scan : Analysis := ⟨.approve,none,[],bundles,"e",{},"s"⟩

def produced : List NodeEvent := [.produceSnapshot,.produceSelect 0,.produceWrite ⟨0,0⟩ false]

def submitted (crates : Crates) (payload : String) : List NodeEvent :=
  [.submission ⟨0,0⟩ (request (sha256Text crates payload)) (.ok ()),.pipelineTick ⟨0,0⟩,
    .pipelineAnalyse ⟨0,0⟩ 0 (some (Text.bytes payload)) (some scan),.pipelineAssign 0,.pipelinePoll ⟨0,0⟩ 0] ++ produced

def revoked : List NodeEvent := .apiRevoke package.canonical "bad" "01" :: produced

end Solo

theorem Solo.submitted_verified : ((run Node.next (Solo.producer Solo.crates)
    (Solo.submitted Solo.crates "x")).state.chain.getPackage Solo.package.canonical).map (fun record =>
      (record.contentHash,record.status)) = some (sha256Text Solo.crates "x",.verified) := by decide +kernel

theorem solo_content_lasts : ∃ later, (run Node.next (Solo.producer Solo.crates)
    (Solo.submitted Solo.crates "x" ++ Solo.revoked)).state.chain.getPackage Solo.package.canonical = some later ∧
      later.contentHash = sha256Text Solo.crates "x" := by
  obtain ⟨record,found,content⟩ := map_eq_some_iff.mp Solo.submitted_verified
  obtain ⟨hash,verified⟩ := Prod.mk.inj content
  obtain ⟨later,present,same⟩ := (packages_last (Solo.producer Solo.crates) (Solo.submitted Solo.crates "x") Solo.revoked
    (by decide) (by decide +kernel)).1 _ record found verified
  exact ⟨later,present,same.trans hash⟩

theorem content_replaced_by_gossip :
    ¬∀ (crates : Crates), crates.CollisionFree → crates.SignaturesCorrect → ∀ config pbft validators first second,
      (∀ event ∈ first ++ second, event.reorganises = false) →
      ∀ canonical record, (run Node.next (Node.initial config pbft validators : Node crates)
        first).state.chain.getPackage canonical = some record → record.status = .verified →
      ∀ later, (run Node.next (Node.initial config pbft validators : Node crates)
        (first ++ second)).state.chain.getPackage canonical = some later → later.contentHash = record.contentHash := by
  intro claimed
  have after : ((run Node.next (Solo.producer Solo.crates)
      (Solo.submitted Solo.crates "x" ++ Solo.submitted Solo.crates "y")).state.chain.getPackage
        Solo.package.canonical).map ChainRecord.contentHash = some (sha256Text Solo.crates "y") := by decide +kernel
  obtain ⟨record,found,content⟩ := map_eq_some_iff.mp Solo.submitted_verified
  obtain ⟨later,present,hash'⟩ := map_eq_some_iff.mp after
  obtain ⟨hash,verified⟩ := Prod.mk.inj content
  rw [Solo.producer] at found present
  have same := claimed Solo.crates (Ideal.collisionFree _ _) (Ideal.signaturesCorrect _ _) ⟨"v",some Solo.key,true,false⟩
    Solo.config Solo.members (Solo.submitted Solo.crates "x") (Solo.submitted Solo.crates "y") (by decide)
    Solo.package.canonical record found verified later present
  rw [hash,hash'] at same
  revert same
  decide +kernel

end ChainRegistry
