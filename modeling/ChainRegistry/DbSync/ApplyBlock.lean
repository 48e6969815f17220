import ChainRegistry.Node.PackageIndex

/-! The mirror of the chain in PostgreSQL: `apply_block` of `crates/db-sync/src/lib.rs`. Of a
package it keeps status, content hash and publisher; nothing reads the other columns. -/
namespace ChainRegistry
open Lib Runs List Option Text ChainStore

/-! `LIKE`, as in SQL. -/
namespace Sql
inductive Wild
  | anything | single
  | just (c : Char)

def wild (c : Char) : Wild := if c = '%' then .anything else if c = '_' then .single else .just c

def parse : Bool → List Char → List Wild
  | _, [] => []
  | true, c :: pattern => .just c :: parse false pattern
  | false, c :: pattern => if c = '\\' then parse true pattern else wild c :: parse false pattern

def fits : List Wild → List Char → Bool
  | [], text => text.isEmpty
  | .anything :: pattern, text => text.tails.any (fits pattern)
  | _ :: _, [] => false
  | .single :: pattern, _ :: text => fits pattern text
  | .just c :: pattern, d :: text => c = d && fits pattern text

def like (text pattern : String) : Bool := fits (parse false pattern.toList) text.toList

theorem fits_anything (text : List Char) : fits [.anything] text := by
  rw [fits,List.any_eq_true]
  exact ⟨[],(mem_tails _ _).mpr nil_suffix,rfl⟩

theorem fits_plain {start : List Char} (plain : ∀ c ∈ start, c ≠ '%' ∧ c ≠ '_' ∧ c ≠ '\\') (text : List Char) :
    fits (parse false (start ++ ['%'])) text = start.isPrefixOf text := by
  induction start generalizing text with
  | nil =>
    rw [nil_append,isPrefixOf_nil_left]
    exact fits_anything text
  | cons c start ih =>
    obtain ⟨percent,underscore,backslash⟩ := plain c mem_cons_self
    have rest := ih fun c inside => plain c (mem_cons_of_mem _ inside)
    rw [cons_append,parse,if_neg backslash,wild,if_neg percent,if_neg underscore]
    cases text with
    | nil => rfl
    | cons d text =>
      rw [fits,rest]
      rfl

theorem like_plain {text start : String} (plain : ∀ c ∈ start.toList, c ≠ '%' ∧ c ≠ '_' ∧ c ≠ '\\') :
    like text (start ++ "%") = startsWith text start := by
  rw [like,String.toList_append,startsWith,toChars_eq,toChars_eq]
  exact fits_plain plain text.toList

end Sql

inductive RowStatus
  | verified | pending | revoked
  deriving DecidableEq

def RowStatus.ofStatus : PackageStatus → RowStatus
  | .verified => .verified
  | .pending => .pending
  | .revoked _ => .revoked

structure Row where
  status : RowStatus
  (contentHash publisherPubkey : String)
  deriving DecidableEq

def Row.ofRecord (record : ChainRecord) : Row := ⟨.ofStatus record.status,record.contentHash,record.publisherPubkey⟩

namespace Mirror
abbrev Packages := Table String Row

/-- `UPDATE packages SET`, with the `WHERE` inside the function. -/
def update (packages : Packages) (set : String → Row → Row) : Packages :=
  packages.putAll (packages.entries.map fun entry => (entry.1,set entry.1 entry.2))

def revoke (row : Row) : Row := {row with status := .revoked}

def rotate (oldPubkey newPubkey : String) (row : Row) : Row :=
  if row.publisherPubkey = oldPubkey then {row with publisherPubkey := newPubkey} else row

def selects (canonicalPrefix canonical : String) : Bool := Sql.like canonical (canonicalPrefix ++ "%")

def applyTransaction (packages : Packages) : Transaction → Packages
  | .publish record => packages.insert record.id.canonical (.ofRecord record)
  | .revoke packageCanonical _ _ _ => update packages fun canonical row =>
    if canonical = packageCanonical then revoke row else row
  | .rotatePublisherKey canonicalPrefix oldPubkey newPubkey _ _ _ _ => update packages fun canonical row =>
    if selects canonicalPrefix canonical then rotate oldPubkey newPubkey row else row
  | _ => packages

def applyTransactions (packages : Packages) (txs : List Transaction) : Packages := txs.foldl applyTransaction packages

def change (canonical : String) (row : Option Row) : Transaction → Option Row
  | .publish record => if canonical = record.id.canonical then some (.ofRecord record) else row
  | .revoke packageCanonical _ _ _ => if canonical = packageCanonical then row.map revoke else row
  | .rotatePublisherKey canonicalPrefix oldPubkey newPubkey _ _ _ _ =>
    if selects canonicalPrefix canonical then row.map (rotate oldPubkey newPubkey) else row
  | _ => row

theorem lookup_update (packages : Packages) (set : Row → Row) (chosen : String → Prop) [DecidablePred chosen]
    (canonical : String) :
    (update packages fun canonical row => if chosen canonical then set row else row).lookup canonical =
      if chosen canonical then (packages.lookup canonical).map set else packages.lookup canonical := by
  rw [update,Table.lookup_putAll_map packages (fun canonical row => if chosen canonical then set row else row)]
  split_ifs
  · rfl
  · exact Option.map_id'

theorem lookup_applyTransaction (packages : Packages) (tx : Transaction) (canonical : String) :
    (applyTransaction packages tx).lookup canonical = change canonical (packages.lookup canonical) tx := by
  cases tx with
  | publish record => exact Table.lookup_insert_eq _ _ _ _
  | revoke packageCanonical => exact lookup_update packages revoke (fun canonical => canonical = packageCanonical) canonical
  | rotatePublisherKey canonicalPrefix oldPubkey newPubkey =>
    exact lookup_update packages (rotate oldPubkey newPubkey) (fun canonical => selects canonicalPrefix canonical =
      true) canonical
  | slash | validatorJoin | validatorLeave => rfl

theorem lookup_applyTransactions (packages : Packages) (txs : List Transaction) (canonical : String) :
    (applyTransactions packages txs).lookup canonical = run (change canonical) (packages.lookup canonical) txs := by
  induction txs generalizing packages with
  | nil => rfl
  | cons tx txs ih =>
    rw [run_cons,← lookup_applyTransaction]
    exact ih (applyTransaction packages tx)

/-! The package index of the chain store, in the same columns: every transaction of a block reads the index
as it was before the block. -/

def put (canonical : String) (before : Option Row) : Transaction → Option Row
  | .publish record => if canonical = record.id.canonical then some (.ofRecord record) else none
  | .revoke packageCanonical _ _ _ => if canonical = packageCanonical then before.map revoke else none
  | .rotatePublisherKey canonicalPrefix oldPubkey newPubkey _ _ _ _ =>
    if startsWith canonical canonicalPrefix = true ∧ before.map Row.publisherPubkey = some oldPubkey then
      before.map (rotate oldPubkey newPubkey)
    else none
  | _ => none

def column (index : Table String ChainRecord) (canonical : String) : Option Row := (index.lookup canonical).map .ofRecord

theorem put_write (hash canonical : String) (before : Option ChainRecord) (tx : Transaction) :
    put canonical (before.map .ofRecord) tx = (write hash canonical before tx).map .ofRecord := by
  cases tx with
  | publish record =>
    rw [put,write,published]
    split_ifs <;> rfl
  | revoke packageCanonical =>
    rw [put,write]
    split_ifs
    · cases before <;> rfl
    · rfl
  | rotatePublisherKey canonicalPrefix oldPubkey newPubkey =>
    cases before with
    | none =>
      rw [put,write]
      split_ifs <;> rfl
    | some record =>
      rw [put,write]
      simp only [map_some,Row.ofRecord,Option.some.injEq]
      split_ifs with rotates
      · rw [map_some,rotate,if_pos rotates.2]
        rfl
      · rfl
  | slash | validatorJoin | validatorLeave => rfl

theorem column_indexBlock (hash : String) (index : Table String ChainRecord) (block : Block) (canonical : String) :
    column (indexBlock hash index block) canonical =
      run (fun row tx => (put canonical (column index canonical) tx).or row) (column index canonical) block.transactions := by
  have columns : ∀ (txs : List Transaction) (record : Option ChainRecord),
      (run (fun record tx => (write hash canonical (index.lookup canonical) tx).or record) record txs).map .ofRecord =
        run (fun row tx => (put canonical (column index canonical) tx).or row) (record.map .ofRecord) txs := by
    intro txs
    induction txs with
    | nil => exact fun _ => rfl
    | cons tx txs ih =>
      intro record
      rw [run_cons,run_cons,ih,column,put_write hash,map_or]
  rw [column,lookup_indexBlock]
  exact columns block.transactions _

def Reaches (canonicalPrefix canonical : String) : Prop := selects canonicalPrefix canonical ∨
    startsWith canonical canonicalPrefix

def Held (packages : Packages) (canonical pubkey : String) : Prop :=
    (packages.lookup canonical).map Row.publisherPubkey = some pubkey

/-- The later of two transactions of a block does not change a package that the earlier one has changed, unless
it publishes the package or both revoke it. -/
def Apart (packages : Packages) : Transaction → Transaction → Prop
  | .publish record, .revoke packageCanonical _ _ _ => packageCanonical ≠ record.id.canonical
  | .publish record, .rotatePublisherKey canonicalPrefix oldPubkey _ _ _ _ _ =>
    Reaches canonicalPrefix record.id.canonical → record.publisherPubkey ≠ oldPubkey ∧
      ¬ Held packages record.id.canonical oldPubkey
  | .revoke packageCanonical _ _ _, .rotatePublisherKey canonicalPrefix oldPubkey _ _ _ _ _ =>
    Reaches canonicalPrefix packageCanonical → ¬ Held packages packageCanonical oldPubkey
  | .rotatePublisherKey canonicalPrefix oldPubkey _ _ _ _ _, .revoke packageCanonical _ _ _ =>
    Reaches canonicalPrefix packageCanonical → ¬ Held packages packageCanonical oldPubkey
  | .rotatePublisherKey canonicalPrefix oldPubkey newPubkey _ _ _ _, .rotatePublisherKey canonicalPrefix' oldPubkey' _ _ _ _ _ =>
    ∀ canonical, Reaches canonicalPrefix canonical → Reaches canonicalPrefix' canonical → Held packages canonical oldPubkey →
      oldPubkey ≠ oldPubkey' ∧ newPubkey ≠ oldPubkey'
  | _, _ => True

def PatternIsPrefix (packages : Packages) : Transaction → Prop
  | .rotatePublisherKey canonicalPrefix oldPubkey _ _ _ _ _ =>
    ∀ canonical, Held packages canonical oldPubkey → selects canonicalPrefix canonical = startsWith canonical canonicalPrefix
  | _ => True

structure Undisturbed (packages : Packages) (txs : List Transaction) : Prop where
  patterns : ∀ tx ∈ txs, PatternIsPrefix packages tx
  apart : txs.Pairwise (Apart packages)

section
variable {packages : Packages} {txs : List Transaction} {canonical oldPubkey newPubkey : String} {row : Option Row}

theorem map_rotate_of_ne (other : row.map Row.publisherPubkey ≠ some oldPubkey) : row.map (rotate oldPubkey newPubkey) = row := by
  cases row with
  | none => rfl
  | some row => exact congrArg some (if_neg fun same => other (congrArg some same))

theorem pubkey_revoke (row : Option Row) : (row.map revoke).map Row.publisherPubkey = row.map Row.publisherPubkey := by
  cases row with
  | none | some => rfl

theorem revoke_twice (row : Option Row) : (row.map revoke).map revoke = row.map revoke := by
  cases row with
  | none | some => rfl

theorem map_or {before : Option Row} {f : Row → Row} (same : row.map f = before.map f) :
    (before.map f).or row = before.map f := by
  cases before with
  | none => exact map_eq_none_iff.mp same
  | some kept => rfl

/-- What the transactions have made of the row so far, and the one that has done it. -/
inductive Changed (packages : Packages) (canonical : String) (txs : List Transaction) : Option Row → Prop
  | kept : Changed packages canonical txs (packages.lookup canonical)
  | revoked {reason revokedBy evidenceHash} (inside : .revoke canonical reason revokedBy evidenceHash ∈ txs) :
      Changed packages canonical txs ((packages.lookup canonical).map revoke)
  | rotated {canonicalPrefix oldPubkey newPubkey sigFromOld sigFromNew timestamp nonce}
      (inside : .rotatePublisherKey canonicalPrefix oldPubkey newPubkey sigFromOld sigFromNew timestamp nonce ∈ txs)
      (reaches : Reaches canonicalPrefix canonical) (held : Held packages canonical oldPubkey) :
      Changed packages canonical txs ((packages.lookup canonical).map (rotate oldPubkey newPubkey))
  | published {record} (inside : .publish record ∈ txs) (own : record.id.canonical = canonical) :
      Changed packages canonical txs (some (.ofRecord record))

variable {tx : Transaction} (changed : Changed packages canonical txs row)
include changed

theorem Changed.later : Changed packages canonical (txs ++ [tx]) row := by
  cases changed with
  | kept => exact .kept
  | revoked inside => exact .revoked (mem_append_left _ inside)
  | rotated inside reaches held => exact .rotated (mem_append_left _ inside) reaches held
  | published inside own => exact .published (mem_append_left _ inside) own

theorem Changed.rotates {canonicalPrefix sigFromOld sigFromNew : String} {timestamp : DateTime} {nonce : Nat}
    (reaches : Reaches canonicalPrefix canonical) (apart : ∀ earlier ∈ txs, Apart packages earlier
      (.rotatePublisherKey canonicalPrefix oldPubkey newPubkey sigFromOld sigFromNew timestamp nonce)) :
    row = packages.lookup canonical ∨ row.map Row.publisherPubkey ≠ some oldPubkey ∧ ¬Held packages canonical oldPubkey := by
  cases changed with
  | kept => exact .inl rfl
  | revoked inside =>
    have other := apart _ inside reaches
    exact .inr ⟨fun same => other ((pubkey_revoke _).symm.trans same),other⟩
  | rotated inside first held =>
    obtain ⟨old,new⟩ := apart _ inside canonical first reaches held
    obtain ⟨kept,found,rfl⟩ := map_eq_some_iff.mp held
    refine .inr ⟨fun same => new ?_,fun same => old (Option.some.inj (held.symm.trans same))⟩
    rw [found,map_some,rotate,if_pos rfl] at same
    exact Option.some.inj same
  | published inside own =>
    subst own
    obtain ⟨key,held⟩ := apart _ inside reaches
    exact .inr ⟨fun same => key (Option.some.inj same),held⟩

theorem Changed.step (pattern : PatternIsPrefix packages tx) (apart : ∀ earlier ∈ txs, Apart packages earlier tx) :
    change canonical row tx = (put canonical (packages.lookup canonical) tx).or row ∧
      Changed packages canonical (txs ++ [tx]) ((put canonical (packages.lookup canonical) tx).or row) := by
  have last : tx ∈ txs ++ [tx] := mem_append_right _ mem_cons_self
  cases tx with
  | publish record =>
    rw [change,put]
    split_ifs with own
    · exact ⟨rfl,.published last own.symm⟩
    · exact ⟨rfl,changed.later⟩
  | revoke packageCanonical =>
    rw [change,put]
    split_ifs with own
    · subst own
      have same : row.map revoke = (packages.lookup canonical).map revoke := by
        cases changed with
        | kept => rfl
        | revoked => exact revoke_twice _
        | rotated inside reaches held => exact absurd held (apart _ inside reaches)
        | published inside own => exact absurd own.symm (apart _ inside)
      rw [same,map_or same]
      exact ⟨rfl,.revoked last⟩
    · exact ⟨rfl,changed.later⟩
  | rotatePublisherKey canonicalPrefix oldPubkey newPubkey =>
    rw [change,put]
    by_cases reaches : Reaches canonicalPrefix canonical
    · rcases changed.rotates reaches apart with rfl | ⟨other,unheld⟩
      · by_cases held : Held packages canonical oldPubkey
        · have starts : startsWith canonical canonicalPrefix := reaches.elim (fun same => pattern canonical held ▸ same) id
          rw [if_pos ((pattern canonical held).trans starts),if_pos ⟨starts,held⟩,map_or rfl]
          exact ⟨rfl,.rotated last reaches held⟩
        · rw [map_rotate_of_ne held,ite_self,if_neg fun both => held both.2]
          exact ⟨rfl,.kept⟩
      · rw [map_rotate_of_ne other,ite_self,if_neg fun both => unheld both.2]
        exact ⟨rfl,changed.later⟩
    · rw [if_neg fun selected => reaches (.inl selected),if_neg fun both => reaches (.inr both.1)]
      exact ⟨rfl,changed.later⟩
  | slash | validatorJoin | validatorLeave => exact ⟨rfl,changed.later⟩

omit changed

theorem run_change_eq_put (undisturbed : Undisturbed packages txs) (canonical : String) :
    run (change canonical) (packages.lookup canonical) txs =
      run (fun row tx => (put canonical (packages.lookup canonical) tx).or row) (packages.lookup canonical) txs :=
  (run_agree (fun _ _ _ changed pattern apart => Changed.step changed pattern apart)
    (.kept : Changed packages canonical [] _) undisturbed.patterns undisturbed.apart).1

end

theorem applyTransactions_column {packages : Packages} {index : Table String ChainRecord} {block : Block} (hash : String)
    (same : ∀ canonical, packages.lookup canonical = column index canonical)
      (undisturbed : Undisturbed packages block.transactions)
    (canonical : String) :
    (applyTransactions packages block.transactions).lookup canonical = column (indexBlock hash index block) canonical := by
  rw [lookup_applyTransactions,run_change_eq_put undisturbed,column_indexBlock,← same canonical]

def Settles : Transaction → Transaction → Prop
  | .rotatePublisherKey canonicalPrefix oldPubkey _ _ _ _ _, .rotatePublisherKey canonicalPrefix' _ newPubkey' _ _ _ _ =>
    ∀ canonical, selects canonicalPrefix canonical → selects canonicalPrefix' canonical → newPubkey' ≠ oldPubkey
  | _, _ => True

section
variable {txs : List Transaction} {canonical : String} {tx : Transaction}

theorem rotate_revoke (oldPubkey newPubkey : String) (row : Row) :
    rotate oldPubkey newPubkey (revoke row) = revoke (rotate oldPubkey newPubkey row) := by
  unfold rotate
  split_ifs with same same' same'
  · rfl
  · exact absurd same same'
  · exact absurd same' same
  · rfl

theorem rotate_twice (oldPubkey newPubkey : String) (row : Row) :
    rotate oldPubkey newPubkey (rotate oldPubkey newPubkey row) = rotate oldPubkey newPubkey row := by
  unfold rotate
  split_ifs <;> rfl

theorem rotate_settled {oldPubkey newPubkey oldPubkey' newPubkey' : String} (settled : newPubkey' ≠ oldPubkey) {row : Row}
    (fixed : rotate oldPubkey newPubkey row = row) :
    rotate oldPubkey newPubkey (rotate oldPubkey' newPubkey' row) = rotate oldPubkey' newPubkey' row := by
  by_cases same : row.publisherPubkey = oldPubkey'
  · have turned : rotate oldPubkey' newPubkey' row = {row with publisherPubkey := newPubkey'} := if_pos same
    rw [turned]
    exact if_neg settled
  · have kept : rotate oldPubkey' newPubkey' row = row := if_neg same
    rw [kept]
    exact fixed

def Publishes (canonical : String) : Transaction → Prop
  | .publish record => canonical = record.id.canonical
  | _ => False

def alter (canonical : String) (row : Row) : Transaction → Row
  | .revoke packageCanonical _ _ _ => if canonical = packageCanonical then revoke row else row
  | .rotatePublisherKey canonicalPrefix oldPubkey newPubkey _ _ _ _ =>
    if selects canonicalPrefix canonical then rotate oldPubkey newPubkey row else row
  | _ => row

theorem change_unpublished (unpublished : ¬ Publishes canonical tx) (row : Option Row) :
    change canonical row tx = row.map (alter canonical · tx) := by
  cases tx with
  | publish record =>
    have other : canonical ≠ record.id.canonical := unpublished
    rw [change,if_neg other]
    exact Option.map_id'.symm
  | revoke | rotatePublisherKey =>
    simp only [change,alter]
    split_ifs
    · rfl
    · exact Option.map_id'.symm
  | _ => exact Option.map_id'.symm

theorem alter_revoke (row : Row) (tx : Transaction) : alter canonical (revoke row) tx = revoke (alter canonical row tx) := by
  cases tx with
  | rotatePublisherKey canonicalPrefix oldPubkey newPubkey =>
    simp only [alter]
    split_ifs
    · exact rotate_revoke oldPubkey newPubkey row
    · rfl
  | revoke packageCanonical =>
    simp only [alter]
    split_ifs <;> rfl
  | _ => rfl

theorem alter_twice (row : Row) (tx : Transaction) : alter canonical (alter canonical row tx) tx = alter canonical row tx := by
  cases tx with
  | rotatePublisherKey canonicalPrefix oldPubkey newPubkey =>
    simp only [alter]
    split_ifs
    · exact rotate_twice oldPubkey newPubkey row
    · rfl
  | revoke packageCanonical =>
    simp only [alter]
    split_ifs <;> rfl
  | _ => rfl

theorem alter_settled {row : Row} {tx later : Transaction} (settles : Settles tx later) (fixed : alter canonical row tx = row) :
    alter canonical (alter canonical row later) tx = alter canonical row later := by
  cases later with
  | revoke packageCanonical =>
    rw [alter.eq_def canonical row]
    dsimp only
    split_ifs
    · rw [alter_revoke,fixed]
    · exact fixed
  | rotatePublisherKey canonicalPrefix oldPubkey newPubkey =>
    rw [alter.eq_def canonical row]
    dsimp only
    split_ifs with selected
    · cases tx with
      | revoke packageCanonical =>
        rw [alter] at fixed ⊢
        split_ifs at fixed ⊢
        · rw [← rotate_revoke,fixed]
        · rfl
      | rotatePublisherKey canonicalPrefix' oldPubkey' newPubkey' =>
        rw [alter] at fixed ⊢
        split_ifs at fixed ⊢ with selected'
        · exact rotate_settled (settles canonical selected' selected) fixed
        · rfl
      | _ => rfl
    · exact fixed
  | _ => exact fixed

theorem run_publishes (inside : tx ∈ txs) (publishes : Publishes canonical tx) (row other : Option Row) :
    run (change canonical) row txs = run (change canonical) other txs := by
  induction txs generalizing row other with
  | nil => cases inside
  | cons first txs ih =>
    rcases mem_cons.mp inside with rfl | inside
    · cases tx with
      | publish record =>
        have own : canonical = record.id.canonical := publishes
        rw [run_cons,run_cons,change,change,if_pos own,if_pos own]
      | _ => exact publishes.elim
    · exact ih inside _ _

theorem run_unpublished (unpublished : ∀ tx ∈ txs, ¬ Publishes canonical tx) (row : Option Row) :
    run (change canonical) row txs = row.map (run (alter canonical) · txs) := by
  induction txs generalizing row with
  | nil => exact Option.map_id'.symm
  | cons tx txs ih =>
    rw [run_cons,change_unpublished (unpublished tx mem_cons_self),ih fun tx inside => unpublished tx (mem_cons_of_mem _ inside),
      Option.map_map]
    rfl

theorem alter_run_settled (settled : txs.Pairwise Settles) (row : Row) :
    ∀ tx ∈ txs, alter canonical (run (alter canonical) row txs) tx = run (alter canonical) row txs := by
  induction txs using List.reverseRecOn with
  | nil => exact fun tx inside => absurd inside not_mem_nil
  | append_singleton txs last ih =>
    obtain ⟨before,_,pairs⟩ := pairwise_append.mp settled
    intro tx inside
    rw [run_append,run_cons,run_nil]
    rcases mem_append.mp inside with earlier | own
    · exact alter_settled (pairs tx earlier last mem_cons_self) (ih before tx earlier)
    · rw [mem_singleton.mp own]
      exact alter_twice _ last

theorem run_again (settled : txs.Pairwise Settles) (row : Option Row) :
    run (change canonical) (run (change canonical) row txs) txs = run (change canonical) row txs := by
  by_cases published : ∃ tx ∈ txs, Publishes canonical tx
  · obtain ⟨tx,inside,publishes⟩ := published
    exact run_publishes inside publishes _ _
  · have unpublished : ∀ tx ∈ txs, ¬ Publishes canonical tx := fun tx inside publishes => published ⟨tx,inside,publishes⟩
    rw [run_unpublished unpublished,run_unpublished unpublished,Option.map_map]
    congr 1
    funext row
    refine kept_run (fun other => other = run (alter canonical) row txs) txs ?_ _ rfl
    rintro _ tx inside rfl
    exact alter_run_settled settled row tx inside

end

theorem applyTransactions_again {txs : List Transaction} (settled : txs.Pairwise Settles) (packages : Packages)
    (canonical : String) :
    (applyTransactions (applyTransactions packages txs) txs).lookup canonical = (applyTransactions packages txs).lookup
      canonical := by
  rw [lookup_applyTransactions,lookup_applyTransactions]
  exact run_again settled _

end Mirror
end ChainRegistry
