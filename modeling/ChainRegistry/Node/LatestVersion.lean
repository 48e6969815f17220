import ChainRegistry.Node.VoteQuorum

/-! The latest version of a package: `get_latest_version` of `crates/node/src/chain_store.rs`.
The crate `semver` is a parser into an ordered type. -/
namespace ChainRegistry.ChainStore
open Lib List

section
variable {ν : Type} [LinearOrder ν] (parse : String → Option ν)

def isNewer (record current : ChainRecord) : Bool :=
  match parse record.id.version,parse current.id.version with
  | some new,some cur => cur < new
  | _,_ => current.id.version < record.id.version

def later (latest : Option ChainRecord) (record : ChainRecord) : Option ChainRecord :=
  match latest with
  | none => some record
  | some current => if isNewer parse record current then some record else latest

def scanned (packages : Table String ChainRecord) (ecosystem name : String) : List ChainRecord :=
  (packages.entries.filter fun item => Text.startsWith item.1 (ecosystem ++ ":" ++ name) ∧
    item.2.status = .verified).map Sigma.snd

def getLatestVersion (packages : Table String ChainRecord) (ecosystem name : String) : Option ChainRecord :=
  (scanned packages ecosystem name).foldl (later parse) none

def Named (packages : Table String ChainRecord) (ecosystem name : String) (record : ChainRecord) : Prop :=
  record ∈ packages.values ∧ record.status = .verified ∧ record.id.ecosystem = ecosystem ∧ record.id.name = name

def IsLatest (packages : Table String ChainRecord) (ecosystem name : String) : Option ChainRecord → Prop
  | none => ∀ record, ¬ Named packages ecosystem name record
  | some record => Named packages ecosystem name record ∧
    ∀ other, Named packages ecosystem name other → isNewer parse other record = false

variable {parse} {packages : Table String ChainRecord} {ecosystem name : String} {records : List ChainRecord}
  {a b : ChainRecord}

theorem isNewer_asymm (newer : isNewer parse a b) : isNewer parse b a = false := by
  unfold isNewer at *
  split at newer
  · next left right =>
    simp only [left,right,decide_eq_true_eq,decide_eq_false_iff_not] at *
    exact newer.asymm
  · next other =>
    split
    · next right left => exact absurd right (other _ _ left)
    · simp only [decide_eq_true_eq,decide_eq_false_iff_not] at *
      exact fun later => String.lt_irrefl _ (String.lt_trans newer later)

theorem isNewer_total (faithful : ∀ a b v, parse a = some v → parse b = some v → a = b)
    (differ : a.id.version ≠ b.id.version) (older : isNewer parse b a = false) : isNewer parse a b := by
  unfold isNewer at *
  cases left : parse a.id.version <;> cases right : parse b.id.version <;>
    simp only [left,right,decide_eq_true_eq,decide_eq_false_iff_not] at older ⊢
  case some.some v w =>
    refine lt_of_le_of_ne (not_lt.mp older) fun same => differ (faithful _ _ v left ?_)
    rw [right,same]
  all_goals exact String.not_le.mp fun le => differ (String.le_antisymm le (String.not_lt.mp older))

theorem foldl_later_mem (parse : String → Option ν) (current : ChainRecord) (records : List ChainRecord) :
    ∃ record ∈ current :: records, records.foldl (later parse) (some current) = some record := by
  induction records generalizing current with
  | nil => exact ⟨current,mem_cons_self,rfl⟩
  | cons next rest ih =>
    rw [foldl_cons,later]
    split_ifs
    · obtain ⟨record,member,same⟩ := ih next
      exact ⟨record,mem_cons_of_mem _ member,same⟩
    · obtain ⟨record,member,same⟩ := ih current
      refine ⟨record,?_,same⟩
      rcases mem_cons.mp member with rfl | member
      · exact mem_cons_self
      · exact mem_cons_of_mem _ (mem_cons_of_mem _ member)

theorem foldl_later_winner {winner : ChainRecord} (latest : Option ChainRecord)
    (beats : ∀ other ∈ records, other ≠ winner → isNewer parse winner other)
    (start : latest = some winner ∨ winner ∈ records ∧ ∀ current ∈ latest, isNewer parse winner current) :
    records.foldl (later parse) latest = some winner := by
  induction records generalizing latest with
  | nil =>
    rcases start with same | ⟨absent,_⟩
    · exact same
    · exact absurd absent not_mem_nil
  | cons next rest ih =>
    rw [foldl_cons]
    refine ih _ (fun other inside => beats other (mem_cons_of_mem _ inside)) ?_
    by_cases same : next = winner
    · left
      rw [← same] at start ⊢
      rcases start with rfl | ⟨_,older⟩
      · rw [later]
        split_ifs <;> rfl
      · cases latest with
        | none => rfl
        | some current => rw [later,if_pos (older current rfl)]
    · have newer := beats next mem_cons_self same
      rcases start with rfl | ⟨inside,older⟩
      · rw [later,isNewer_asymm newer]
        exact .inl rfl
      · refine .inr ⟨mem_of_ne_of_mem (Ne.symm same) inside,?_⟩
        cases latest with
        | none => simpa [later] using newer
        | some current =>
          rw [later]
          split_ifs
          · simpa using newer
          · exact older

theorem scanned_perm {order : Table String ChainRecord} (perm : order.entries.Perm packages.entries) (ecosystem name : String) :
    (scanned order ecosystem name).Perm (scanned packages ecosystem name) :=
  (perm.filter _).map _

theorem exists_order {first second : ChainRecord} (inside : first ∈ scanned packages ecosystem name)
    (also : second ∈ scanned packages ecosystem name) (differ : first ≠ second) :
    ∃ order : Table String ChainRecord, order.entries.Perm packages.entries ∧
      ∃ rest, scanned order ecosystem name = first :: second :: rest := by
  obtain ⟨item,read,rfl⟩ := mem_map.mp inside
  obtain ⟨other,next,rfl⟩ := mem_map.mp also
  obtain ⟨there,reached⟩ := mem_filter.mp read
  obtain ⟨besides,too⟩ := mem_filter.mp next
  have left := (mem_erase_of_ne fun same : other = item => differ (congrArg Sigma.snd same.symm)).mpr besides
  have perm := ((perm_cons_erase left).symm.cons item).trans (perm_cons_erase there).symm
  refine ⟨⟨_,(perm_nodupKeys perm).mpr packages.nodupKeys⟩,perm,?_⟩
  simp only [scanned,filter_cons,reached,too,if_true,map_cons]
  exact ⟨_,rfl⟩

section
variable (keyed : ∀ item ∈ packages.entries, item.1 = item.2.id.canonical)
include keyed

theorem item_eq {item other : (_ : String) × ChainRecord} (inside : item ∈ packages.entries) (also : other ∈ packages.entries)
    (same : item.2.id = other.2.id) : item = other := by
  refine packages.nodupKeys.eq_of_fst_eq inside also ?_
  rw [keyed item inside,keyed other also,same]

theorem scanned_nodup (ecosystem name : String) : (scanned packages ecosystem name).Nodup := by
  refine Nodup.map_on ?_ (packages.nodupKeys.nodup.filter _)
  intro item inside other also same
  exact item_eq keyed (mem_of_mem_filter inside) (mem_of_mem_filter also) (congrArg ChainRecord.id same)

theorem Named.scanned {record : ChainRecord} (named : Named packages ecosystem name record) :
    record ∈ scanned packages ecosystem name := by
  obtain ⟨read,verified,rfl,rfl⟩ := named
  obtain ⟨item,inside,rfl⟩ := mem_map.mp read
  refine mem_map.mpr ⟨item,mem_filter.mpr ⟨inside,decide_eq_true ⟨?_,verified⟩⟩,rfl⟩
  rw [Text.startsWith,Text.toChars_eq,Text.toChars_eq, isPrefixOf_iff_prefix,keyed item inside]
  exact ⟨'@' :: item.2.id.version.toList,by simp [PackageId.canonical]⟩

theorem Named.unique (left : Named packages ecosystem name a) (right : Named packages ecosystem name b)
    (same : a.id.version = b.id.version) : a = b := by
  obtain ⟨read,_,ecosystem,name⟩ := left
  obtain ⟨also,_,_,_⟩ := right
  obtain ⟨item,inside,rfl⟩ := mem_map.mp read
  obtain ⟨other,there,rfl⟩ := mem_map.mp also
  rw [item_eq keyed inside there]
  cases first : item.2.id
  cases second : other.2.id
  simp_all

end

/-- The latest version is found, in any scan order, exactly where one of the name is newer than all scanned. -/
theorem latest_version_iff (faithful : ∀ a b v, parse a = some v → parse b = some v → a = b)
    (keyed : ∀ item ∈ packages.entries, item.1 = item.2.id.canonical) (ecosystem name : String) :
    (∀ order : Table String ChainRecord, order.entries.Perm packages.entries →
      IsLatest parse packages ecosystem name (getLatestVersion parse order ecosystem name)) ↔
    scanned packages ecosystem name = [] ∨ ∃ winner, Named packages ecosystem name winner ∧
      ∀ other ∈ scanned packages ecosystem name, other ≠ winner → isNewer parse winner other := by
  constructor
  · intro found
    have own := found packages (.refl _)
    cases reached : scanned packages ecosystem name with
    | nil => exact .inl rfl
    | cons first rest =>
      obtain ⟨winner,_,won⟩ := foldl_later_mem parse first rest
      rw [getLatestVersion,reached,foldl_cons,later,won] at own
      refine .inr ⟨winner,own.1,fun other inside differ => ?_⟩
      by_contra older
      rw [← reached] at inside
      -- with the other record first the winner is passed over
      obtain ⟨order,perm,rest,shown⟩ := exists_order inside (own.1.scanned keyed) differ
      obtain ⟨taken,among,last⟩ := foldl_later_mem parse other rest
      have wins := found order perm
      rw [getLatestVersion,shown,foldl_cons,later,foldl_cons,later,if_neg older,last] at wins
      have same : taken = winner := by
        refine wins.1.unique keyed own.1 (by_contra fun versions => ?_)
        exact absurd (isNewer_total faithful versions (wins.2 winner own.1)) (Bool.eq_false_iff.mp (own.2 taken wins.1))
      have distinct := (scanned_perm perm ecosystem name).nodup_iff.mpr (scanned_nodup keyed ecosystem name)
      rw [shown] at distinct
      rw [same] at among
      rcases mem_cons.mp among with rfl | repeated
      · exact differ rfl
      · exact (nodup_cons.mp (nodup_cons.mp distinct).2).1 repeated
  · intro decided order perm
    have same := scanned_perm perm ecosystem name
    rw [getLatestVersion]
    rcases decided with empty | ⟨winner,named,beats⟩
    · rw [(same.trans (.of_eq empty)).eq_nil]
      exact fun record named => not_mem_nil (empty ▸ named.scanned keyed)
    · rw [foldl_later_winner none (fun other inside => beats other (same.subset inside))
        (.inr ⟨same.symm.subset (named.scanned keyed),fun _ absent => absurd absent (Option.not_mem_none _)⟩)]
      refine ⟨named,fun other also => ?_⟩
      by_cases same : other = winner
      · subst same
        by_contra newer
        rw [Bool.not_eq_false] at newer
        exact absurd newer (Bool.eq_false_iff.mp (isNewer_asymm newer))
      · exact isNewer_asymm (beats other (also.scanned keyed) same)

end

/-! Two releases, of which the later one is the smaller text. -/
namespace Released
def parse (version : String) : Option Nat :=
  if version = "9.0.0" then some 9 else if version = "10.0.0" then some 10 else none

def release (name version : String) : ChainRecord := {Solo.record "h" [] with id := ⟨"npm",name,version⟩}

def packages (second : ChainRecord) : Table String ChainRecord :=
  ((∅ : Table String ChainRecord).insert second.id.canonical second).insert (release "a" "9.0.0").id.canonical
    (release "a" "9.0.0")

theorem tenth_is_latest : "10.0.0" < "9.0.0" ∧
    ∀ order : Table String ChainRecord, order.entries.Perm (packages (release "a" "10.0.0")).entries →
      IsLatest parse (packages (release "a" "10.0.0")) "npm" "a" (getLatestVersion parse order "npm" "a") := by
  refine ⟨by decide,(latest_version_iff ?_ (by decide +kernel) "npm" "a").mpr (.inr ⟨release "a" "10.0.0",?_,by decide +kernel⟩)⟩
  · intro a b v left right
    unfold parse at left right
    split_ifs at left right <;> simp_all
    all_goals omega
  · exact ⟨by decide +kernel,by decide +kernel,rfl,rfl⟩

theorem other_name_returned : getLatestVersion parse (packages (release "ab" "10.0.0")) "npm" "a" = some (release "ab" "10.0.0") ∧
    ¬ IsLatest parse (packages (release "ab" "10.0.0")) "npm" "a" (some (release "ab" "10.0.0")) := by
  refine ⟨by decide +kernel,?_⟩
  rintro ⟨⟨_,_,_,name⟩,_⟩
  exact absurd name (by decide)

end Released
end ChainRegistry.ChainStore
