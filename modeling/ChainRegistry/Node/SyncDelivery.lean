import ChainRegistry.Node.ValidatorSetSync

/-! Deltas that come more than once, and endpoints that do not answer. -/
namespace ChainRegistry.SetSync
open List Option Text Bool

variable {deltas : List ValidatorSetDelta}

theorem foldl_applyDelta_old {worker : WorkerState}
    (old : ∀ delta ∈ deltas, worker.cursor.any (notAfter delta.position)) : deltas.foldl applyDelta worker = worker := by
  induction deltas with
  | nil => rfl
  | cons delta deltas ih =>
    rw [foldl_cons,applyDelta,if_pos (old delta mem_cons_self)]
    exact ih fun delta inside => old delta (mem_cons_of_mem _ inside)

theorem Ordered.last (ordered : Ordered deltas) {delta : ValidatorSetDelta}
    (inside : delta ∈ deltas) : (deltas.getLast?.map ValidatorSetDelta.position).any (notAfter delta.position) := by
  obtain rfl | ⟨earlier,last,rfl⟩ := deltas.eq_nil_or_concat
  · simp at inside
  · rw [concat_eq_append] at *
    rw [List.getLast?_concat,map_some,any_some,notAfter_true]
    rcases mem_append.mp inside with before | same
    · have apart := (pairwise_append.mp ordered).2.2 delta before last (mem_singleton_self _)
      rw [notAfter_false] at apart
      omega
    · rw [mem_singleton.mp same]
      exact .inr ⟨rfl,le_rfl⟩

structure Batch where
  (first last : Nat)

def Batch.of (deltas : List ValidatorSetDelta) (batch : Batch) : List ValidatorSetDelta :=
    (deltas.take batch.last).drop batch.first

def furthest (reached : Nat) (batches : List Batch) : Nat := batches.foldl (fun reached batch => max reached batch.last) reached

def Gapless : Nat → List Batch → Prop
  | _, [] => True
  | reached, batch :: batches => batch.first ≤ reached ∧ Gapless (max reached batch.last) batches

theorem foldl_batch (ordered : Ordered deltas) {start : WorkerState} (fresh : start.cursor = none)
    {reached : Nat} {batch : Batch} (meets : batch.first ≤ reached) :
    (batch.of deltas).foldl applyDelta ((deltas.take reached).foldl applyDelta start) =
      (deltas.take (max reached batch.last)).foldl applyDelta start := by
  have sorted : Ordered (deltas.take reached) := List.Pairwise.sublist (take_sublist _ _) ordered
  have old : ∀ delta ∈ deltas.take reached,
      ((deltas.take reached).foldl applyDelta start).cursor.any (notAfter delta.position) := by
    intro delta inside
    rw [foldl_applyDelta start (by simp [fresh]) sorted,fresh,or_none]
    exact sorted.last inside
  by_cases behind : batch.last ≤ reached
  · rw [max_eq_left behind]
    apply foldl_applyDelta_old
    intro delta inside
    exact old delta ((take_sublist_take_left behind).subset (mem_of_mem_drop inside))
  · have later : reached ≤ batch.last := by omega
    have whole : deltas.take batch.last = deltas.take reached ++ (deltas.take batch.last).drop reached := by
      have split := (take_append_drop reached (deltas.take batch.last)).symm
      rwa [take_take,min_eq_left later] at split
    have parts : batch.of deltas = (deltas.take reached).drop batch.first ++ (deltas.take batch.last).drop reached := by
      by_cases long : batch.first ≤ (deltas.take reached).length
      · rw [← drop_append_of_le_length long,← whole,Batch.of]
      · rw [length_take] at long
        rw [Batch.of,drop_eq_nil_of_le,drop_eq_nil_of_le,drop_eq_nil_of_le,nil_append]
        all_goals rw [length_take]; omega
    rw [parts,foldl_append,foldl_applyDelta_old fun delta inside => old delta (mem_of_mem_drop inside),
      ← foldl_append,← whole,max_eq_right later]

/-- However the batches overlap, each event is applied once, up to the last one delivered. -/
theorem deltas_applied_once {deltas : List ValidatorSetDelta} (ordered : Ordered deltas) {start : WorkerState}
    (fresh : start.cursor = none) {batches : List Batch} (gapless : Gapless 0 batches) :
    batches.foldl (fun worker batch => (batch.of deltas).foldl applyDelta worker) start =
      (deltas.take (furthest 0 batches)).foldl applyDelta start := by
  -- the worker is always where the deltas delivered so far, each once, take it
  suffices along : ∀ reached, Gapless reached batches →
      batches.foldl (fun worker batch => (batch.of deltas).foldl applyDelta worker)
        ((deltas.take reached).foldl applyDelta start) =
        (deltas.take (furthest reached batches)).foldl applyDelta start from along 0 gapless
  clear gapless
  induction batches with
  | nil => exact fun _ _ => rfl
  | cons batch batches ih =>
    intro reached gapless
    rw [foldl_cons,foldl_batch ordered fresh gapless.1]
    exact ih _ gapless.2

def admission (addr : String) (logIndex : Nat) : ValidatorSetDelta := ⟨.add "0" none,addr,1,logIndex,""⟩

theorem second_batch_overlaps :
    ([⟨0,1⟩,⟨0,2⟩] : List Batch).foldl (fun worker batch => (batch.of [admission "0x01" 0,admission "0x02" 1]).foldl
      applyDelta worker)
        .empty = [admission "0x01" 0,admission "0x02" 1].foldl applyDelta .empty :=
  deltas_applied_once (by simp [Ordered,admission,notAfter,ValidatorSetDelta.position]) rfl (by simp [Gapless])

/-! A majority of the answers need not be one of the endpoints. -/

theorem majorityHash_some {hashes : List String} {hash : String} : majorityHash hashes = some hash ↔
    hashes.length < 2 * (hashes.map fun hash => toAsciiLowercase (trim hash)).count hash := by
  unfold majorityHash
  obtain ⟨normal,same⟩ : ∃ normal, normal = hashes.map fun hash => toAsciiLowercase (trim hash) := ⟨_,rfl⟩
  have length : hashes.length = normal.length := by rw [same,length_map]
  rw [← same,length]
  constructor
  · intro found
    have most := List.find?_some found
    rw [decide_eq_true_eq] at most
    omega
  · intro most
    have inside : 0 < normal.count hash := by omega
    obtain ⟨other,found⟩ : ∃ other, normal.find? (fun hash => normal.length < normal.count hash * 2) = some other := by
      rw [← isSome_iff_exists,List.find?_isSome]
      exact ⟨hash,count_pos_iff.mp inside,decide_eq_true (by omega)⟩
    have also := List.find?_some found
    rw [decide_eq_true_eq] at also
    -- two hashes cannot both have more than half
    by_contra differs
    have apart : other ≠ hash := fun same => differs (same ▸ found)
    have rest : normal.count other ≤ normal.countP fun text => !(text == hash) :=
      countP_mono_left fun text _ same => by rw [eq_of_beq same]; simpa using apart
    have all := length_eq_countP_add_countP (· == hash) (l := normal)
    simp only [not_eq_true,← not_eq_true',Bool.decide_eq_true,← count_eq_countP] at all
    omega

def returned (endpoints : List String) (replies : Replies) (block : Nat) : List String :=
  (endpoints.filterMap fun url => (replies url).hashOf block).map fun hash => toAsciiLowercase (trim hash)

theorem fetchBlockHashQuorum_agreed {endpoints : List String} {replies : Replies} {block : Nat} {hash : String} :
    fetchBlockHashQuorum endpoints replies block = .agreed hash ↔
      (returned endpoints replies block).length < 2 * (returned endpoints replies block).count hash := by
  unfold fetchBlockHashQuorum returned
  rw [length_map,← majorityHash_some]
  dsimp only
  split
  · rename_i silent
    rw [List.isEmpty_iff.mp silent]
    simp [majorityHash]
  · split <;> simp [*]

/-- The endpoints that answer the question for the hash of the block. -/
def Answering (replies : Replies) (block : Nat) (answers : String → Bool) : Prop :=
  ∀ url, ((replies url).hashOf block).isSome = answers url

variable {endpoints : List String} {replies : Replies} {block : Nat} {answers : String → Bool}

variable (endpoints) in
theorem length_returned (given : Answering replies block answers) :
    (returned endpoints replies block).length = endpoints.countP answers := by
  rw [returned,length_map,length_filterMap_eq_countP]
  exact countP_congr fun url _ => by rw [given url]

variable (chosen : List String)

/-- Replies in which the chosen ones of the answering endpoints agree. -/
def dividing (answers : String → Bool) : Replies := fun url =>
  ⟨none,fun _ => if answers url then some (if url ∈ chosen then "a" else "b") else none,fun _ _ => none⟩

theorem dividing_answering (answers : String → Bool) (block : Nat) :
    Answering (dividing chosen answers) block answers := by
  intro url
  cases given : answers url <;> simp [dividing,given]

theorem count_dividing (distinct : endpoints.Nodup) {chosen : List String} (part : chosen.Sublist (endpoints.filter answers))
    (block : Nat) : (returned endpoints (dividing chosen answers) block).count "a" = chosen.length := by
  have normal : toAsciiLowercase (trim "a") = "a" ∧ toAsciiLowercase (trim "b") = "b" := by decide
  have among : ∀ url ∈ chosen, url ∈ endpoints ∧ answers url := fun url inside => mem_filter.mp (part.subset inside)
  have counted : (returned endpoints (dividing chosen answers) block).count "a" = (endpoints.filter (· ∈ chosen)).length := by
    rw [returned,count,countP_map,countP_filterMap,← countP_eq_length_filter]
    refine countP_congr fun url _ => ?_
    by_cases inside : url ∈ chosen
    · simp [dividing,inside,(among url inside).2,normal]
    · cases given : answers url <;> simp [dividing,inside,given,normal]
  have same : (endpoints.filter (· ∈ chosen)).Perm chosen := by
    refine (perm_ext_iff_of_nodup (distinct.filter _) (part.nodup (distinct.filter _))).mpr fun url => ?_
    simpa using fun inside => (among url inside).1
  rw [counted,same.length_eq]

/-- Agreement is by a majority of the endpoints, whatever the answering ones return, exactly if all answer,
or all but one of an odd number, or none. -/
theorem reorg_majority_iff (endpoints : List String) (distinct : endpoints.Nodup) (answers : String → Bool) (block : Nat) :
    (∀ replies, Answering replies block answers →
      (∀ hash, fetchBlockHashQuorum endpoints replies block = .agreed hash →
        endpoints.length < 2 * (returned endpoints replies block).count hash) ∧
      ∀ worker : WorkerState, 2 ≤ endpoints.length →
        (returned endpoints replies block).countP (cursorReorged worker) ≤ 1 →
        ∀ hash, fetchBlockHashQuorum endpoints replies block = .agreed hash → cursorReorged worker hash = false) ↔
      endpoints.countP answers = 0 ∨ endpoints.length ≤ endpoints.countP answers + endpoints.length % 2 := by
  simp only [fetchBlockHashQuorum_agreed]
  constructor
  · intro all
    by_contra few
    obtain ⟨some,missing⟩ := not_or.mp few
    -- just over half of the answering endpoints agree, and they are no majority of all
    obtain ⟨chosen,part,many⟩ : ∃ chosen : List String, chosen.Sublist (endpoints.filter answers) ∧
        chosen.length = endpoints.countP answers / 2 + 1 := by
      refine ⟨_,take_sublist (endpoints.countP answers / 2 + 1) _,?_⟩
      rw [length_take,← countP_eq_length_filter]
      omega
    have given := dividing_answering chosen answers block
    have counted := count_dividing distinct part block
    have whole := (all (dividing chosen answers) given).1 "a" (by rw [length_returned endpoints given,counted]; omega)
    rw [counted] at whole
    omega
  · intro enough replies given
    have size := length_returned endpoints given
    have whole : ∀ hash, (returned endpoints replies block).length < 2 * (returned endpoints replies block).count hash →
        endpoints.length < 2 * (returned endpoints replies block).count hash := by
      intro hash most
      have within := count_le_length (a := hash) (l := returned endpoints replies block)
      omega
    refine ⟨whole,fun worker several lone hash most => ?_⟩
    by_contra reorged
    have counted : (returned endpoints replies block).count hash ≤ (returned endpoints replies block).countP
      (cursorReorged worker) := by
      refine countP_mono_left fun other _ same => ?_
      rw [eq_of_beq same]
      exact not_eq_false _ ▸ reorged
    have := whole hash most
    omega

def pair : Replies := fun url => ⟨some 9,fun _ => if url = "c" then none else some "0xbb",fun _ _ => some []⟩

theorem one_of_three_silent : Answering pair 5 (fun url => url != "c") ∧
    fetchBlockHashQuorum ["a","b","c"] pair 5 = .agreed "0xbb" ∧ 3 < 2 * (returned ["a","b","c"] pair 5).count "0xbb" := by
  have given : Answering pair 5 fun url => url != "c" := by
    intro url
    by_cases silent : url = "c" <;> simp [pair,silent]
  have agreed : fetchBlockHashQuorum ["a","b","c"] pair 5 = .agreed "0xbb" := by decide
  have majority := (reorg_majority_iff ["a","b","c"] (by decide) (fun url => url != "c") 5).mpr (.inr (by decide))
  exact ⟨given,agreed,(majority pair given).1 "0xbb" agreed⟩

def lone : Replies := fun url => ⟨some 9,fun _ => if url = "b" then some "0xbb" else none,fun _ _ => some []⟩

theorem silent_endpoint_lets_the_other_rebuild : SyncConfig.rpcEndpoints ⟨"a",["b"],0,some 9⟩ = ["a","b"] ∧
    fetchBlockHashQuorum ["a","b"] lone 5 = .agreed "0xbb" ∧ (returned ["a","b"] lone 5).count "0xbb" = 1 ∧
    checkCursor ⟨"a",["b"],0,some 9⟩ [] ⟨lone,lone,lone,lone,lone,none,true,true,true⟩ 9 none ⟨some (5,0),some "0xaa",{"0x01"}⟩ =
      ⟨some ⟨some (9,blockEnd),some "0xbb",∅⟩,some ⟨some (9,blockEnd),some "0xbb",∅⟩⟩ := by
  decide

end ChainRegistry.SetSync
