import ChainRegistry.Contracts.AppealSolvency

/-! What is paid out for an appeal, against all that was deposited for it. -/
namespace ChainRegistry
open Lib Fallible List Appeal Ledger
open Lib.Runs

namespace AppealCall
variable (appeal : Appeal)

def appealOf : AppealCall → Option Nat
  | .appeal _ _ _ => some appeal.appealCount
  | .vote _ id _ => some id
  | .submitAIVerdict id _ _ => some id
  | .expireAppeal id => some id
  | _ => none

def excess : AppealCall → Nat
  | .vote value _ _ => value - panelistVoteBond
  | _ => 0

def outcome : AppealCall → Option Bool
  | .vote _ id approve =>
    if appeal.panelQuorum ≤ (appeal.record id).approveVotes + (if approve then 1 else 0) then some true
    else if appeal.panelQuorum ≤ (appeal.record id).rejectVotes + (if approve then 0 else 1) then some false
    else none
  | .submitAIVerdict _ approve _ => some approve
  | _ => none

def ballots (id : Nat) : AppealCall → Nat
  | .vote _ _ _ => (appeal.record id).voters.length + 1
  | _ => (appeal.record id).voters.length

def votesFor (side : Bool) : AppealCall → Nat
  | .vote _ _ approve => if approve = side then 1 else 0
  | _ => 0

def correct (id : Nat) (call : AppealCall) : Nat :=
  match call.outcome appeal with
  | some side => (appeal.record id).winners side + call.votesFor side
  | none => 0

end AppealCall

structure AppealBooks where
  state : AppealState
  deposited : Table Nat Nat := ∅
  overpaid : Table Nat Nat := ∅
  paid : Table Nat Nat := ∅

namespace AppealBooks
def add (table : Table Nat Nat) (id amount : Nat) : Table Nat Nat := table.insert id (read 0 table id + amount)

def post (books : AppealBooks) (till : AppealTill) (call : AppealCall) : AppealBooks :=
  match call.appealOf books.state.appeal with
  | some id => ⟨⟨till.state,till.funds⟩,add books.deposited id call.value,add books.overpaid id call.excess,
      add books.paid id till.total⟩
  | none => {books with state := ⟨till.state,till.funds⟩}

def next (evm : Evm) (books : AppealBooks) (event : AppealTx × AppealCall) : AppealBooks :=
  match books.state.call evm event.1 event.2 with
  | .ok till => books.post till event.2
  | .error _ => books

variable (books : AppealBooks) (id : Nat)

def record : AppealRecord := books.state.appeal.record id

def depositedFor : Nat := read 0 books.deposited id

def overpaidFor : Nat := read 0 books.overpaid id

def paidFor : Nat := read 0 books.paid id

end AppealBooks

def AppealRecord.winning (record : AppealRecord) : AppealStatus → Nat
  | .approved => record.winners true
  | .rejected => record.winners false
  | _ => 0

namespace AppealBooks
/-- All that was deposited for the appeal is paid, up to the remainder of a division by the
number of the winners. -/
def Conserved (books : AppealBooks) (id : Nat) : Prop :=
  books.paidFor id ≤ books.depositedFor id ∧
    books.depositedFor id - books.paidFor id < max 1 ((books.record id).winning (books.record id).status)

/-- Nobody has voted, or what the winners do not get of the overpaid bonds and of the division is
less than one for each. An id resolved before it was in use has been paid for already. -/
def Dividable (books : AppealBooks) (id : Nat) (call : AppealCall) : Prop :=
  let correct := call.correct books.state.appeal id
  let pool := (call.ballots books.state.appeal id - correct) * panelistVoteBond
  let extra := books.overpaidFor id + call.excess
  if correct = 0 then pool + extra = books.paidFor id
  else books.paidFor id ≤ extra + pool % correct ∧ extra + pool % correct < books.paidFor id + correct

instance conservedDecidable (books : AppealBooks) (id : Nat) : Decidable (books.Conserved id) :=
    inferInstanceAs (Decidable (_ ∧ _))

instance dividableDecidable (books : AppealBooks) (id : Nat) (call : AppealCall) : Decidable (books.Dividable id call) :=
  inferInstanceAs (Decidable (@ite Prop _ _ _ _))

variable {evm : Evm} {books : AppealBooks} {till : AppealTill} {tx : AppealTx} {call : AppealCall} {id : Nat}
  {counted : AppealRecord} {before after : AppealTill}

theorem read_add (table : Table Nat Nat) (id amount other : Nat) :
    read 0 (add table id amount) other = read 0 table other + if id = other then amount else 0 := by
  rw [add,read_insert]
  by_cases own : other = id
  · rw [own,if_pos rfl,if_pos rfl]
  · rw [if_neg own,if_neg (Ne.symm own),Nat.add_zero]

theorem post_state (books : AppealBooks) (till : AppealTill) (call : AppealCall) :
    (books.post till call).state = ⟨till.state,till.funds⟩ := by
  rw [post]
  cases call.appealOf books.state.appeal with
  | some | none => rfl

theorem post_record (books : AppealBooks) (till : AppealTill) (call : AppealCall) (id : Nat) :
    (books.post till call).record id = till.state.record id := by
  rw [record,post_state]

theorem post_reads (books : AppealBooks) (till : AppealTill) (call : AppealCall) (id : Nat) :
    (books.post till call).depositedFor id =
        books.depositedFor id + (if call.appealOf books.state.appeal = some id then call.value else 0) ∧
      (books.post till call).overpaidFor id =
        books.overpaidFor id + (if call.appealOf books.state.appeal = some id then call.excess else 0) ∧
      (books.post till call).paidFor id =
        books.paidFor id + (if call.appealOf books.state.appeal = some id then till.total else 0) := by
  rw [post]
  cases about : call.appealOf books.state.appeal with
  | some own =>
    simp only [Option.some.injEq]
    exact ⟨read_add ..,read_add ..,read_add ..⟩
  | none => exact ⟨rfl,rfl,rfl⟩

/-! The deposits for an appeal are its bond, and the bonds of its votes with their excess. -/

structure Accounted (books : AppealBooks) : Prop where
  bonds : ∀ id, books.state.appeal.appealCount ≤ id → (books.record id).bond = 0
  deposits : ∀ id, (books.record id).status = .pending ∨ books.state.appeal.appealCount ≤ id →
    books.depositedFor id =
      (books.record id).bond + (books.record id).voters.length * panelistVoteBond + books.overpaidFor id
  voted : ∀ id, ∀ v ∈ (books.record id).voters, (books.record id).hasVoted v

structure Touches (id : Nat) (counted : AppealRecord) (before after : AppealTill) : Prop where
  others : ∀ other, other ≠ id → after.state.record other = before.state.record other
  voters : (after.state.record id).voters = counted.voters
  hasVoted : (after.state.record id).hasVoted = counted.hasVoted
  bond : (after.state.record id).bond = counted.bond ∨
    (after.state.record id).bond = 0 ∧ (after.state.record id).status ≠ .pending
  appealCount : after.state.appealCount = before.state.appealCount

theorem Touches.of_resolves {status : AppealStatus} (resolves : Appeal.Resolves id counted status before after)
    (ended : status ≠ .pending) : Touches id counted before after := by
  have own := (resolves.reads id).trans (if_pos rfl)
  refine ⟨fun other apart => (resolves.reads other).trans (if_neg apart),?_,?_,.inr ?_,resolves.appealCount⟩
  · rw [own]
  · rw [own]
    rfl
  · rw [own]
    exact ⟨rfl,ended⟩

theorem Touches.of_votes {value : Nat} {approve : Bool} (votes : Appeal.Votes tx value id approve counted before after) :
    Touches id counted before after := by
  cases decided : counted.decision before.state.panelQuorum with
  | none =>
    rw [votes.waits decided]
    have own : (before.state.setRecord id counted).record id = counted := (record_setRecord ..).trans (if_pos rfl)
    refine ⟨fun other apart => (record_setRecord ..).trans (if_neg apart),?_,?_,.inl ?_,rfl⟩
    all_goals
      rw [own]
  | some outcome =>
    exact .of_resolves (votes.decides outcome decided) (by cases outcome <;> decide)

theorem Accounted.touched (accounted : books.Accounted) {before : AppealTill} (touches : Touches id counted before till)
    (about : call.appealOf books.state.appeal = some id) (entered : before.state = books.state.appeal)
    (pending : (books.record id).status = .pending) (bond : counted.bond = (books.record id).bond)
    (posted : counted.voters.length * panelistVoteBond + call.excess = (books.record id).voters.length *
      panelistVoteBond + call.value)
    (voted : ∀ v ∈ counted.voters, counted.hasVoted v) : (books.post till call).Accounted := by
  have others : ∀ other, other ≠ id → till.state.record other = books.record other := by
    intro other apart
    rw [touches.others other apart,entered]
    rfl
  have count : (books.post till call).state.appeal.appealCount = books.state.appeal.appealCount := by
    rw [post_state,← entered]
    exact touches.appealCount
  refine ⟨?_,?_,?_⟩
  · intro other free
    rw [count] at free
    rw [post_record]
    by_cases own : other = id
    · subst own
      obtain same | ⟨cleared,_⟩ := touches.bond
      · rw [same,bond]
        exact accounted.bonds other free
      · exact cleared
    · rw [others other own]
      exact accounted.bonds other free
  · intro other waits
    rw [count,post_record] at waits
    rw [post_record,(post_reads ..).1,(post_reads ..).2.1,about]
    by_cases own : other = id
    · subst own
      have before := accounted.deposits other (.inl pending)
      rw [if_pos rfl,if_pos rfl,touches.voters]
      -- the bond is cleared only where it is zero already
      have kept : (till.state.record other).bond = (books.record other).bond := by
        obtain same | ⟨cleared,ended⟩ := touches.bond
        · exact same.trans bond
        · obtain still | free := waits
          · exact absurd still ended
          · rw [cleared,accounted.bonds other free]
      omega
    · have apart : ¬some id = some other := fun same => own (Option.some.inj same).symm
      rw [others other own] at waits ⊢
      rw [if_neg apart,if_neg apart]
      exact accounted.deposits other waits
  · intro other v inside
    rw [post_record] at inside ⊢
    by_cases own : other = id
    · subst own
      rw [touches.voters] at inside
      rw [touches.hasVoted]
      exact voted v inside
    · rw [others other own] at inside ⊢
      exact accounted.voted other v inside

theorem Accounted.opened (accounted : books.Accounted) {value : Nat} {canonical statement : List UInt8} {record : AppealRecord}
    (opens : Appeal.Opens tx value record (books.state.enter tx (.appeal value canonical statement)) till) :
    (books.post till (.appeal value canonical statement)).Accounted := by
  have reads : ∀ other, till.state.record other = if other = books.state.appeal.appealCount then record else books.record other :=
    opens.reads
  have count : (books.post till (.appeal value canonical statement)).state.appeal.appealCount =
    books.state.appeal.appealCount + 1 := by
    rw [post_state]
    exact opens.appealCount
  refine ⟨?_,?_,?_⟩
  · intro other free
    rw [count] at free
    rw [post_record,reads,if_neg (by omega)]
    exact accounted.bonds other (by omega)
  · intro other waits
    rw [count,post_record] at waits
    rw [post_record,(post_reads ..).1,(post_reads ..).2.1,AppealCall.appealOf]
    by_cases own : other = books.state.appeal.appealCount
    · have before := accounted.deposits other (.inr own.ge)
      have voters : record.voters = (books.record other).voters := by
        rw [own]
        exact opens.voters
      rw [accounted.bonds other own.ge] at before
      rw [reads,if_pos own,opens.bond,voters,own,if_pos rfl,if_pos rfl]
      rw [own] at before
      change _ + value = value + _ + (_ + 0)
      omega
    · have apart : ¬some books.state.appeal.appealCount = some other := fun same => own (Option.some.inj same).symm
      rw [reads,if_neg own] at waits ⊢
      rw [if_neg apart,if_neg apart]
      apply accounted.deposits other
      obtain pending | free := waits
      · exact .inl pending
      · exact .inr (Nat.le_of_succ_le free)
  · intro other v inside
    rw [post_record,reads] at inside ⊢
    split_ifs at inside ⊢ with own
    · rw [opens.voters] at inside
      rw [AppealRecord.hasVoted,opens.voted]
      exact accounted.voted _ v inside
    · exact accounted.voted other v inside

theorem Accounted.of_frame (accounted : books.Accounted) (aside : call.appealOf books.state.appeal = none)
    (frame : till.state.appeals = books.state.appeal.appeals ∧ till.state.appealCount = books.state.appeal.appealCount) :
    (books.post till call).Accounted := by
  have reads : ∀ other, till.state.record other = books.record other := by
    intro other
    rw [Appeal.record,frame.1]
    rfl
  have count : (books.post till call).state.appeal.appealCount = books.state.appeal.appealCount := by
    rw [post_state]
    exact frame.2
  refine ⟨?_,?_,?_⟩
  · intro other free
    rw [post_record,reads]
    exact accounted.bonds other (count ▸ free)
  · intro other waits
    rw [count,post_record,reads] at waits
    rw [post_record,reads,(post_reads ..).1,(post_reads ..).2.1,aside]
    exact accounted.deposits other waits
  · intro other v inside
    rw [post_record,reads] at inside ⊢
    exact accounted.voted other v inside

theorem Accounted.absent (accounted : books.Accounted) {voter : Address} (unvoted : (books.record id).hasVoted voter = false) :
    voter ∉ (books.record id).voters := by
  intro inside
  exact absurd (accounted.voted id voter inside) (Bool.eq_false_iff.mp unvoted)

theorem Accounted.of_ok (accounted : books.Accounted) (ok : books.state.call evm tx call = .ok till) :
    (books.post till call).Accounted := by
  cases call with
  | appeal value canonical statement =>
    obtain ⟨record,opens⟩ := submit_ok ok
    exact accounted.opened opens
  | vote value id approve =>
    obtain ⟨counted,votes⟩ := vote_ok ok
    have casts : AppealRecord.Casts tx.sender approve (books.record id) counted := votes.casts
    apply accounted.touched (.of_votes votes) rfl rfl votes.pending casts.bond
    · have enough := votes.enough
      rw [casts.voters,length_append,length_singleton,Nat.add_mul]
      change _ + (value - panelistVoteBond) = _ + value
      omega
    · intro v inside
      rw [casts.hasVoted]
      split_ifs with own
      · rfl
      · rw [casts.voters,mem_append,mem_singleton] at inside
        exact accounted.voted id v (inside.resolve_right own)
  | submitAIVerdict id approve signature =>
    obtain ⟨pending,resolves⟩ := submitAIVerdict_ok ok
    exact accounted.touched (.of_resolves resolves (by cases approve <;> decide)) rfl rfl pending rfl rfl (accounted.voted id)
  | expireAppeal id =>
    obtain ⟨pending,resolves⟩ := expireAppeal_ok ok
    exact accounted.touched (.of_resolves resolves (by decide)) rfl rfl pending rfl rfl (accounted.voted id)
  | set setting =>
    simp only [AppealState.call,AppealCall.run,bind_ok,pure_ok] at ok
    obtain ⟨changed,done,rfl⟩ := ok
    exact accounted.of_frame rfl (set_frame done)
  | forced amount =>
    cases ok
    exact accounted.of_frame rfl ⟨rfl,rfl⟩

theorem Accounted.next {event : AppealTx × AppealCall} (accounted : books.Accounted) : (books.next evm event).Accounted := by
  rw [AppealBooks.next]
  cases done : books.state.call evm event.1 event.2 with
  | ok till => exact accounted.of_ok done
  | error _ => exact accounted

theorem start_accounted (governance : Address) (balance : Nat) : Accounted {state := ⟨deploy governance,balance⟩} := by
  refine ⟨fun _ _ => rfl,?_,fun _ _ inside => absurd inside not_mem_nil⟩
  intro id _
  change 0 = 0 + 0 * panelistVoteBond + 0
  rw [Nat.zero_mul]

end AppealBooks

namespace AppealRecord
theorem Casts.winners {voter : Address} {approve : Bool} {record counted : AppealRecord}
    (casts : Casts voter approve record counted) (absent : voter ∉ record.voters) (side : Bool) :
    counted.winners side = record.winners side + if approve = side then 1 else 0 := by
  have others : (record.voters.countP fun v => counted.side v = side) = record.voters.countP fun v => record.side v = side := by
    apply countP_congr
    intro v inside
    rw [casts.side,if_neg (by rintro rfl; exact absent inside)]
  rw [AppealRecord.winners,casts.voters,countP_append,others,countP_singleton,casts.side,if_pos rfl]
  simp only [decide_eq_true_eq]
  rfl

theorem payout_eq (record : AppealRecord) (status : AppealStatus) :
    record.payout status = record.bond + record.winning status * (panelistVoteBond +
      if 0 < record.winning status then
        (record.voters.length - record.winning status) * panelistVoteBond / record.winning status else 0) := by
  have losers : ∀ outcome, record.voters.length - record.winners outcome = record.losers outcome := by
    intro outcome
    have all := record.winners_add_losers outcome
    omega
  cases status with
  | approved | rejected =>
    rw [winning,losers]
    rfl
  | pending | expired =>
    change record.bond = record.bond + 0 * _
    rw [Nat.zero_mul,Nat.add_zero]

end AppealRecord

namespace AppealBooks
variable {evm : Evm} {books : AppealBooks} {till : AppealTill} {tx : AppealTx} {call : AppealCall} {id : Nat}

structure Decides (books : AppealBooks) (call : AppealCall) (id : Nat) (till : AppealTill) (counted : AppealRecord)
    (status : AppealStatus) : Prop where
  about : call.appealOf books.state.appeal = some id
  total : till.total = counted.payout status
  record : till.state.record id = {counted with status := status, bond := 0}
  bond : counted.bond = (books.record id).bond
  length : counted.voters.length = call.ballots books.state.appeal id
  winning : counted.winning status = call.correct books.state.appeal id
  value : call.value + (books.record id).voters.length * panelistVoteBond =
    counted.voters.length * panelistVoteBond + call.excess

theorem winning_of (record : AppealRecord) (outcome : Bool) : record.winning (.of outcome) = record.winners outcome := by
  cases outcome with
  | true | false => rfl

theorem Accounted.decides (accounted : books.Accounted) (ok : books.state.call evm tx call = .ok till)
    (pending : (books.record id).status = .pending) (ended : (till.state.record id).status ≠ .pending) :
    ∃ counted status, Decides books call id till counted status := by
  cases call with
  | appeal value canonical statement =>
    obtain ⟨record,opens⟩ := submit_ok ok
    rw [opens.reads] at ended
    split_ifs at ended
    · exact absurd opens.status ended
    · exact absurd pending ended
  | vote value own approve =>
    obtain ⟨counted,votes⟩ := vote_ok ok
    have casts : AppealRecord.Casts tx.sender approve (books.record own) counted := votes.casts
    by_cases same : id = own
    · subst same
      have absent := accounted.absent votes.unvoted
      cases decided : counted.decision books.state.appeal.panelQuorum with
      | none =>
        rw [votes.waits decided] at ended
        have waiting : ((books.state.appeal.setRecord id counted).record id).status = .pending := by
          rw [record_setRecord,if_pos rfl,casts.status]
          exact pending
        exact absurd waiting ended
      | some outcome =>
        have resolves := votes.decides outcome decided
        refine ⟨counted,.of outcome,rfl,?_,(resolves.reads id).trans (if_pos rfl),casts.bond,?_,?_,?_⟩
        · exact resolves.total.trans (Nat.zero_add _)
        · rw [casts.voters,length_append]
          rfl
        · rw [AppealRecord.decision,casts.approveVotes,casts.rejectVotes] at decided
          have sides : (AppealCall.vote value id approve).outcome books.state.appeal = some outcome := decided
          rw [winning_of,casts.winners absent,AppealCall.correct,sides]
          rfl
        · have enough := votes.enough
          rw [casts.voters,length_append,length_singleton,Nat.add_mul]
          change value + _ = _ + (value - panelistVoteBond)
          omega
    · rw [(Touches.of_votes votes).others id same] at ended
      exact absurd pending ended
  | submitAIVerdict own approve signature =>
    obtain ⟨_,resolves⟩ := submitAIVerdict_ok ok
    rw [resolves.reads] at ended
    split_ifs at ended with same
    · subst same
      refine ⟨_,_,rfl,?_,(resolves.reads id).trans (if_pos rfl),rfl,rfl,winning_of _ approve,?_⟩
      · exact resolves.total.trans (Nat.zero_add _)
      · change 0 + _ = _ + 0
        rw [Nat.zero_add,Nat.add_zero]
        rfl
    · exact absurd pending ended
  | expireAppeal own =>
    obtain ⟨_,resolves⟩ := expireAppeal_ok ok
    rw [resolves.reads] at ended
    split_ifs at ended with same
    · subst same
      refine ⟨_,_,rfl,?_,(resolves.reads id).trans (if_pos rfl),rfl,rfl,rfl,?_⟩
      · exact resolves.total.trans (Nat.zero_add _)
      · change 0 + _ = _ + 0
        rw [Nat.zero_add,Nat.add_zero]
        rfl
    · exact absurd pending ended
  | set setting =>
    simp only [AppealState.call,AppealCall.run,bind_ok,pure_ok] at ok
    obtain ⟨changed,done,rfl⟩ := ok
    rw [Appeal.record,(set_frame done).1] at ended
    exact absurd pending ended
  | forced amount =>
    cases ok
    exact absurd pending ended

theorem divided_iff (bond winners losers unit extra paid : Nat) :
    (paid + (bond + winners * (unit + if 0 < winners then losers * unit / winners else 0)) ≤
          bond + (winners + losers) * unit + extra ∧
        bond + (winners + losers) * unit + extra -
          (paid + (bond + winners * (unit + if 0 < winners then losers * unit / winners else 0))) < max 1 winners) ↔
      if winners = 0 then losers * unit + extra = paid
      else paid ≤ extra + losers * unit % winners ∧ extra + losers * unit % winners < paid + winners := by
  by_cases none : winners = 0
  · subst none
    rw [if_pos rfl,Nat.zero_mul,Nat.zero_add,Nat.add_zero]
    omega
  · have positive : 0 < winners := Nat.pos_of_ne_zero none
    have division := Nat.div_add_mod (losers * unit) winners
    rw [if_neg none,if_pos positive,Nat.mul_add,Nat.add_mul,Nat.max_eq_right positive]
    omega

theorem Decides.conserved_iff {counted : AppealRecord} {status : AppealStatus} (accounted : books.Accounted)
    (pending : (books.record id).status = .pending) (decides : Decides books call id till counted status) :
    (books.post till call).Conserved id ↔ books.Dividable id call := by
  have deposits := accounted.deposits id (.inl pending)
  have value := decides.value
  have all : counted.winning status ≤ counted.voters.length := by
    cases status with
    | approved | rejected => exact countP_le_length
    | pending | expired => exact Nat.zero_le _
  obtain ⟨deposited,overpaid,paid⟩ := books.post_reads till call id
  rw [if_pos decides.about] at deposited overpaid paid
  have sum : books.depositedFor id + call.value = counted.bond + (counted.winning status +
      (counted.voters.length - counted.winning status)) * panelistVoteBond + (books.overpaidFor id + call.excess) := by
    rw [Nat.add_sub_cancel' all,decides.bond]
    omega
  have winning : (till.state.record id).winning (till.state.record id).status = counted.winning status := by
    rw [decides.record]
    cases status with
    | approved | rejected | pending | expired => rfl
  rw [Conserved,post_record,winning,deposited,paid,decides.total,AppealRecord.payout_eq,sum,divided_iff,decides.length,
    decides.winning]
  rfl

/-- A resolution pays out the deposits, up to a remainder, exactly if the winners can divide them. -/
theorem resolution_conserves_iff (governance : Address) (balance : Nat) (events : List (AppealTx × AppealCall))
    (tx : AppealTx) (call : AppealCall) (id : Nat)
    (pending : ((run (next evm) {state := ⟨deploy governance,balance⟩} events).record id).status = .pending)
    (ended : ((run (next evm) {state := ⟨deploy governance,balance⟩} (events ++ [(tx,call)])).record id).status ≠ .pending) :
    (run (next evm) {state := ⟨deploy governance,balance⟩} (events ++ [(tx,call)])).Conserved id ↔
      (run (next evm) {state := ⟨deploy governance,balance⟩} events).Dividable id call := by
  have keeps : ∀ (books : AppealBooks) (event : AppealTx × AppealCall), books.Accounted → (books.next evm event).Accounted :=
    fun _ _ kept => kept.next
  have accounted := always_run keeps _ events (start_accounted governance balance)
  rw [run_append] at ended ⊢
  generalize run (next evm) {state := ⟨deploy governance,balance⟩} events = books at pending ended accounted ⊢
  rw [run_cons,run_nil,next] at ended ⊢
  cases done : books.state.call evm tx call with
  | error failure =>
    rw [done] at ended
    exact absurd pending ended
  | ok till =>
    rw [done] at ended
    rw [post_record] at ended
    obtain ⟨counted,status,decides⟩ := accounted.decides done pending ended
    exact decides.conserved_iff accounted pending

end AppealBooks

namespace Hearing
def books : AppealBooks := {state := start}

def divided : List (AppealTx × AppealCall) := panel ++
  [sent 700000 20 (.appeal (10 ^ 18) [112] []),sent 700001 10 (.vote (10 ^ 16) 0 true),sent 700002 11 (.vote (10 ^ 16) 0 false)]

theorem divided_conserved : (run (AppealBooks.next evm) books (divided ++ [sent 700003 12 (.vote (10 ^ 16) 0 true)])).paidFor 0 =
      10 ^ 18 + 3 * 10 ^ 16 ∧
    (run (AppealBooks.next evm) books (divided ++ [sent 700003 12 (.vote (10 ^ 16) 0 true)])).Conserved 0 :=
  ⟨by decide +kernel,(AppealBooks.resolution_conserves_iff 4 0 divided ⟨12,700003,[]⟩ (.vote (10 ^ 16) 0 true) 0
    (by decide +kernel)
    (by decide +kernel)).mpr (by decide +kernel)⟩

/-- The bonds of the voters stay in the contract when the appeal expires, and so does what a
vote is paid with above its bond. -/
theorem votes_stranded :
    ((run (AppealBooks.next evm) books (divided ++ [sent 1400000 5 (.expireAppeal 0)])).record 0).status = .expired ∧
      ¬(run (AppealBooks.next evm) books (divided ++ [sent 1400000 5 (.expireAppeal 0)])).Conserved 0 ∧
      ((run (AppealBooks.next evm) books (divided ++ [sent 700003 12 (.vote (2 * 10 ^ 16) 0 true)])).record 0).status =
        .approved ∧
      ¬(run (AppealBooks.next evm) books (divided ++ [sent 700003 12 (.vote (2 * 10 ^ 16) 0 true)])).Conserved 0 := by
  decide +kernel

end Hearing
end ChainRegistry
