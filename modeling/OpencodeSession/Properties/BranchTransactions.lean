import OpencodeSession.Cleanup.Requests
import OpencodeSession.Framework.Traces

/-!
# Prepared deletions are finished

A transaction that `prepare` hands to the removal of worktrees is a running git process which holds
the lock of a branch.  The removal verifies the worktree again, removes it, and then tells the
process to commit or to abort.  It is `Finished` if it is told so exactly once, and told to commit
only after its own worktree was removed.

The exits of the loop all finish their transaction, but an exception that is not handled leaves
through none of them.  `finished_iff_guarded` says that this is the only way to leave one open: the
transactions of a run are finished just when no request that is made while one is held has such an
answer.  Git can be there and cause one, with an output that is no text.
-/

namespace OpencodeSession

namespace BranchTransactions

open Process CleanupLocal RunResources

/-- The exchanges of a cleanup. -/
abbrev CleanupTrace : Type := List (Exchange cleanupInterface)

/-! ## Exchanges of a transaction -/

/-- The exchange is what prepares a transaction, well or not. -/
def prepares (transaction : BranchDeleteTransaction) (x : Exchange cleanupInterface) : Bool :=
  match x.op with
  | .prepareDeletion other => other = transaction
  | _ => false

/-- `prepare` hands the transaction out: both lines that it reads are as they should be. -/
def Hands (transaction : BranchDeleteTransaction) (x : Exchange cleanupInterface) : Prop :=
  ∃ responses : String × String, x = ⟨.prepareDeletion transaction, .ok responses⟩ ∧
    (stripText responses.1, stripText responses.2) = ("start: ok", "prepare: ok")

/-- The exchange finishes a transaction. -/
def finishes (transaction : BranchDeleteTransaction) (x : Exchange cleanupInterface) : Bool :=
  match x.op with
  | .finishDeletion other _ => other = transaction
  | _ => false

/-- The answer is an exception, and neither a check nor the removal of a worktree handles it. -/
def Escapes (x : Exchange cleanupInterface) : Prop :=
  match x with
  | ⟨.isDir _, .error _⟩ | ⟨.resolve _, .error _⟩ | ⟨.git _, .error _⟩ => True
  | ⟨.stat _, .error error⟩ => error.isOSError = false
  | _ => False

/-! ## The property -/

/-- What follows a transaction that was handed out: the second check of its worktree, the removal if
the check found no error, and how the transaction is finished. -/
inductive Settled (force : Bool) (record : WorktreeRecord)
    (transaction : BranchDeleteTransaction) : CleanupTrace → Prop
  /-- The second check fails. -/
  | unverified {check : CleanupTrace} {error : String} {answer : Except PyError CompletedProcess}
      (hcheck : (verifyOwnedWorktree record).Returns check (some error)) :
      Settled force record transaction (check ++ [⟨.finishDeletion transaction .abort, answer⟩])
  /-- The removal fails. -/
  | kept {check : CleanupTrace} {removal : CompletedProcess}
      {answer : Except PyError CompletedProcess}
      (hcheck : (verifyOwnedWorktree record).Returns check none)
      (hremoval : removal.returncode ≠ 0) :
      Settled force record transaction (check ++
        [⟨.git (.removeWorktree record.gitDir force record.path), .ok removal⟩,
          ⟨.finishDeletion transaction .abort, answer⟩])
  /-- The worktree is removed. -/
  | removed {check : CleanupTrace} {removal : CompletedProcess}
      {answer : Except PyError CompletedProcess}
      (hcheck : (verifyOwnedWorktree record).Returns check none)
      (hremoval : removal.returncode = 0) :
      Settled force record transaction (check ++
        [⟨.git (.removeWorktree record.gitDir force record.path), .ok removal⟩,
          ⟨.finishDeletion transaction .commit, answer⟩])

/-- A transaction is finished once before it is prepared again. -/
def FinishedOnce (transaction : BranchDeleteTransaction) (after : CleanupTrace) : Prop :=
  (after.takeWhile fun x => !prepares transaction x).countP (finishes transaction) = 1

/-- Every transaction that is handed out is finished once, and as the check and the removal of its
own worktree say. -/
def Finished (records : List WorktreeRecord) (force : Bool)
    (branches : String → Option DeletableBranch) (trace : CleanupTrace) : Prop :=
  ∀ before x after transaction, trace = before ++ x :: after → Hands transaction x →
    FinishedOnce transaction after ∧
    ∃ record ∈ records, (branches record.path).map DeletableBranch.transaction = some transaction ∧
      ∃ block rest, after = block ++ rest ∧ Settled force record transaction block

/-- No request that is made while a transaction is held is answered with an exception that is not
handled. -/
def Guarded (trace : CleanupTrace) : Prop :=
  ∀ before x after transaction, trace = before ++ x :: after → Hands transaction x →
    ∀ y ∈ after.takeWhile fun y => !finishes transaction y, ¬ Escapes y

variable {records : List WorktreeRecord} {force : Bool} {record : WorktreeRecord}
  {branches : String → Option DeletableBranch} {transaction : BranchDeleteTransaction}
  {trace block check : CleanupTrace} {x : Exchange cleanupInterface}

/-! ## Checks raise what escapes -/

/-- A process raises just when a request of it has an answer that escapes. -/
structure Candid {α : Type} (p : Cleanup α) : Prop where
  returns : ∀ block a, p.Returns block a → ∀ x ∈ block, ¬ Escapes x
  raises : ∀ block e, p.Raises block e → ∃ x ∈ block, Escapes x

lemma candid_pure {α : Type} (a : α) : Candid (pure a : Cleanup α) where
  returns := by
    intro block a' h x hx
    rw [(returns_pure.1 h).1] at hx
    exact absurd hx List.not_mem_nil
  raises := by
    intro block e h
    cases (trace_done.1 h).2

lemma Candid.bind {α β : Type} {p : Cleanup α} {f : α → Cleanup β} (hp : Candid p)
    (hf : ∀ a, Candid (f a)) : Candid (p >>= f) where
  returns := by
    intro block b h
    obtain ⟨front, rest, a, rfl, hfront, hrest⟩ := returns_bind.1 h
    intro x hx
    rcases List.mem_append.1 hx with hx | hx
    · exact hp.returns front a hfront x hx
    · exact (hf a).returns rest b hrest x hx
  raises := by
    intro block e h
    rcases raises_bind.1 h with h | ⟨front, rest, a, rfl, -, hrest⟩
    · exact hp.raises block e h
    · obtain ⟨x, hx, hescapes⟩ := (hf a).raises rest e hrest
      exact ⟨x, List.mem_append_right _ hx, hescapes⟩

/-- A request whose error is raised. -/
lemma candid_asking {α : Type} {op : CleanupOp} {f : op.Answer → Except PyError α}
    (h : ∀ answer : op.Answer, Escapes ⟨op, answer⟩ ↔ ∃ e, f answer = .error e) :
    Candid (.call op fun (answer : op.Answer) => .ofExcept (f answer)) where
  returns := by
    intro block a hreturns x hx
    obtain ⟨answer, rest, rfl, hrest⟩ := returns_call.1 hreturns
    obtain ⟨rfl, hok⟩ := returns_ofExcept.1 hrest
    rw [List.mem_singleton.1 hx, h answer, hok]
    rintro ⟨e, he⟩
    cases he
  raises := by
    intro block e hraises
    obtain ⟨answer, rest, rfl, hrest⟩ := raises_call.1 hraises
    obtain ⟨rfl, herror⟩ := raises_ofExcept.1 hrest
    exact ⟨_, List.mem_singleton_self _, (h answer).2 ⟨e, herror⟩⟩

lemma candid_isDir (path : PurePath) : Candid (Cleanup.isDir path) := by
  refine candid_asking fun answer => ?_
  cases answer with
  | ok found => exact iff_of_false (fun h => h) (by rintro ⟨e, he⟩; cases he)
  | error e => exact iff_of_true trivial ⟨e, rfl⟩

lemma candid_resolve (path : PurePath) : Candid (Cleanup.resolve path) := by
  refine candid_asking fun answer => ?_
  cases answer with
  | ok found => exact iff_of_false (fun h => h) (by rintro ⟨e, he⟩; cases he)
  | error e => exact iff_of_true trivial ⟨e, rfl⟩

lemma candid_git (command : GitCommand) : Candid (Cleanup.git command) := by
  refine candid_asking fun answer => ?_
  cases answer with
  | ok found => exact iff_of_false (fun h => h) (by rintro ⟨e, he⟩; cases he)
  | error e => exact iff_of_true trivial ⟨e, rfl⟩

/-- An `OSError` of `stat` is a failed inspection, and no other error is handled. -/
lemma candid_inspecting_stat (path : PurePath) (failure : PyError → String) :
    Candid (inspecting (Cleanup.stat path) failure) where
  returns := by
    intro block a h
    obtain ⟨front, rest, r, rfl, hfront, hrest⟩ := returns_bind.1 h
    rcases returns_attempt.1 hfront with ⟨details, rfl, hask⟩ | ⟨e, rfl, hask⟩
    · obtain ⟨rfl, -⟩ := returns_pure.1 hrest
      obtain ⟨answer, rest', rfl, hanswer⟩ := returns_call.1 hask
      obtain ⟨rfl, hok⟩ := returns_ofExcept.1 hanswer
      subst hok
      intro x hx
      rw [List.append_nil, List.mem_singleton] at hx
      rw [hx]
      exact fun h => h
    · by_cases hos : e.isOSError = true
      · dsimp only at hrest
        rw [if_pos hos] at hrest
        obtain ⟨rfl, -⟩ := returns_pure.1 hrest
        obtain ⟨answer, rest', rfl, hanswer⟩ := raises_call.1 hask
        obtain ⟨rfl, herror⟩ := raises_ofExcept.1 hanswer
        subst herror
        intro x hx
        rw [List.append_nil, List.mem_singleton] at hx
        rw [hx]
        show ¬ e.isOSError = false
        simp [hos]
      · dsimp only at hrest
        rw [if_neg hos] at hrest
        exact absurd hrest not_returns_throw
  raises := by
    intro block e h
    rcases raises_bind.1 h with h | ⟨front, rest, r, rfl, hfront, hrest⟩
    · obtain ⟨answer, rest, -, hrest⟩ := raises_call.1 h
      cases answer <;> cases (trace_done.1 hrest).2
    · rcases returns_attempt.1 hfront with ⟨details, rfl, hask⟩ | ⟨e', rfl, hask⟩
      · cases (trace_done.1 hrest).2
      · dsimp only at hrest
        split_ifs at hrest with hos
        · cases (trace_done.1 hrest).2
        · obtain ⟨answer, rest', rfl, hanswer⟩ := raises_call.1 hask
          obtain ⟨rfl, herror⟩ := raises_ofExcept.1 hanswer
          subst herror
          refine ⟨_, List.mem_append_left _ (List.mem_singleton_self _), ?_⟩
          show e'.isOSError = false
          simpa using hos

lemma candid_gitOutput (command : GitCommand) : Candid (gitOutput command) :=
  (candid_git command).bind fun _ => candid_pure _

lemma candid_resolvesTo (text : String) (path : PurePath) : Candid (resolvesTo text path) := by
  unfold resolvesTo
  split_ifs
  · exact candid_pure _
  · exact (candid_resolve _).bind fun _ => candid_pure _

lemma candid_directoryIdentity (path : PurePath) (label : String) :
    Candid (directoryIdentity path label) := by
  refine (candid_inspecting_stat path _).bind fun details => ?_
  cases details with
  | error message => exact candid_pure _
  | ok details =>
    dsimp only
    split_ifs <;> exact candid_pure _

lemma candid_verifyOwnedWorktree (record : WorktreeRecord) :
    Candid (verifyOwnedWorktree record) := by
  unfold verifyOwnedWorktree
  split
  · exact candid_pure _
  · refine (candid_isDir _).bind fun isDir => ?_
    split_ifs
    · exact candid_pure _
    refine (candid_gitOutput _).bind fun toplevel => (candid_resolvesTo _ _).bind fun same => ?_
    split_ifs
    · exact candid_pure _
    refine (candid_gitOutput _).bind fun common => (candid_resolvesTo _ _).bind fun same => ?_
    split_ifs
    · exact candid_pure _
    refine (candid_gitOutput _).bind fun linked => (candid_resolvesTo _ _).bind fun same => ?_
    split_ifs
    · exact candid_pure _
    refine (candid_resolve _).bind fun directory =>
      (candid_directoryIdentity _ _).bind fun identity => ?_
    cases identity with
    | error message => exact candid_pure _
    | ok identity =>
      dsimp only
      split_ifs
      · exact candid_pure _
      refine (candid_gitOutput _).bind fun branch => ?_
      split_ifs <;> exact candid_pure _

/-! ## Finished transactions -/

/-- No transaction is finished that was not prepared. -/
def Quiet (trace : CleanupTrace) : Prop :=
  ∀ before y after transaction, trace = before ++ y :: after → finishes transaction y = true →
    ∃ x ∈ before, prepares transaction x = true

lemma quiet_of_forall (h : ∀ y ∈ block, ∀ transaction, finishes transaction y = false) :
    Quiet block := by
  rintro before y after transaction rfl hy
  rw [h y (by simp) transaction] at hy
  cases hy

/-- What is done between two transactions does not finish another one. -/
lemma countP_takeWhile_of_quiet (h : Quiet block) :
    (block.takeWhile fun x => !prepares transaction x).countP (finishes transaction) = 0 := by
  rw [List.countP_eq_zero]
  intro y hy hfinishes
  obtain ⟨before, after, hsplit⟩ := List.append_of_mem hy
  have hblock : block =
      before ++ y :: (after ++ block.dropWhile fun x => !prepares transaction x) := by
    rw [← List.cons_append, ← List.append_assoc, ← hsplit, List.takeWhile_append_dropWhile]
  obtain ⟨x, hx, hprepares⟩ := h before y _ transaction hblock hfinishes
  have hnot := List.mem_takeWhile_imp (hsplit ▸ List.mem_append_left _ hx)
  rw [hprepares] at hnot
  cases hnot

lemma FinishedOnce.append {after : CleanupTrace} (h : FinishedOnce transaction after)
    (hblock : Quiet block) : FinishedOnce transaction (after ++ block) := by
  unfold FinishedOnce at h ⊢
  rw [List.takeWhile_append]
  split_ifs with hall
  · rw [List.countP_append, countP_takeWhile_of_quiet hblock]
    have hwhole : after.takeWhile (fun x => !prepares transaction x) = after :=
      (List.takeWhile_prefix _).eq_of_length hall
    rw [hwhole] at h
    omega
  · exact h

/-- A part of a run after another one, which finishes nothing of the first. -/
lemma Finished.append (h : Finished records force branches trace)
    (hblock : Finished records force branches block) (hquiet : Quiet block) :
    Finished records force branches (trace ++ block) := by
  intro before x after transaction hsplit hx
  rcases List.append_eq_append_iff.1 hsplit with ⟨middle, -, hlater⟩ | ⟨middle, hearlier, hafter⟩
  · exact hblock middle x after transaction hlater hx
  · cases middle with
    | nil => exact hblock [] x after transaction hafter.symm hx
    | cons y middle =>
      obtain ⟨rfl, rfl⟩ := List.cons.inj hafter
      obtain ⟨honce, own, hown, htransaction, settled, rest, hrest, hsettled⟩ :=
        h before x middle transaction hearlier hx
      refine ⟨honce.append hquiet, own, hown, htransaction, settled, rest ++ block, ?_, hsettled⟩
      rw [hrest]
      exact List.append_assoc settled rest block

lemma finished_of_forall (h : ∀ x ∈ block, ∀ transaction, ¬ Hands transaction x) :
    Finished records force branches block := by
  rintro before x after transaction rfl hx
  exact absurd hx (h x (by simp) transaction)

lemma Hands.prepares (h : Hands transaction x) : prepares transaction x = true := by
  obtain ⟨responses, rfl, -⟩ := h
  exact decide_eq_true rfl

lemma of_looks (h : x.op.Looks) (transaction : BranchDeleteTransaction) :
    prepares transaction x = false ∧ finishes transaction x = false := by
  obtain ⟨op, answer⟩ := x
  cases op <;> first | exact ⟨rfl, rfl⟩ | exact absurd h (by simp [CleanupOp.Looks])

lemma looks_of_returns {α : Type} {p : Cleanup α} {a : α}
    (hp : p.Within CleanupOp.Looks fun _ => True) (h : p.Returns block a) :
    ∀ y ∈ block, y.op.Looks :=
  (within_of_trace hp h).2

namespace Settled

/-- Of what follows a transaction the last exchange finishes it, and those before it have answers
that are dealt with. -/
lemma eq_append (h : Settled force record transaction block) :
    ∃ held last, block = held ++ [last] ∧ finishes transaction last = true ∧
      (∀ other, finishes other last = true → other = transaction) ∧
      (∀ other, prepares other last = false) ∧
      ∀ y ∈ held, ¬ Escapes y ∧ ∀ other, prepares other y = false ∧ finishes other y = false := by
  have hcheck : ∀ {check : CleanupTrace} {error : Option String},
      (verifyOwnedWorktree record).Returns check error → ∀ y ∈ check, ¬ Escapes y ∧
        ∀ other, prepares other y = false ∧ finishes other y = false := by
    intro check error hreturns y hy
    exact ⟨(candid_verifyOwnedWorktree record).returns check error hreturns y hy,
      of_looks (looks_of_returns looks_verifyOwnedWorktree hreturns y hy)⟩
  have hheld : ∀ (check : CleanupTrace) (removal : CompletedProcess),
      (verifyOwnedWorktree record).Returns check none →
      ∀ y ∈ check ++ [⟨.git (.removeWorktree record.gitDir force record.path), .ok removal⟩],
        ¬ Escapes y ∧ ∀ other, prepares other y = false ∧ finishes other y = false := by
    intro check removal hreturns y hy
    rcases List.mem_append.1 hy with hy | hy
    · exact hcheck hreturns y hy
    · rw [List.mem_singleton.1 hy]
      exact ⟨fun h => h, fun _ => ⟨rfl, rfl⟩⟩
  cases h with
  | unverified hreturns =>
    exact ⟨_, _, rfl, decide_eq_true rfl, fun other h => (of_decide_eq_true h).symm, fun _ => rfl,
      hcheck hreturns⟩
  | @kept check removal answer hreturns hremoval =>
    refine ⟨check ++ [_], ⟨.finishDeletion transaction .abort, answer⟩, ?_, decide_eq_true rfl,
      fun other h => (of_decide_eq_true h).symm, fun _ => rfl, hheld check removal hreturns⟩
    rw [List.append_assoc]
    rfl
  | @removed check removal answer hreturns hremoval =>
    refine ⟨check ++ [_], ⟨.finishDeletion transaction .commit, answer⟩, ?_, decide_eq_true rfl,
      fun other h => (of_decide_eq_true h).symm, fun _ => rfl, hheld check removal hreturns⟩
    rw [List.append_assoc]
    rfl

lemma finishedOnce (h : Settled force record transaction block) :
    FinishedOnce transaction block := by
  obtain ⟨held, last, rfl, hlast, -, hprepares, hheld⟩ := h.eq_append
  have hwhole : (held ++ [last]).takeWhile (fun x => !prepares transaction x) = held ++ [last] := by
    rw [List.takeWhile_eq_self_iff]
    intro y hy
    rcases List.mem_append.1 hy with hy | hy
    · simp [((hheld y hy).2 transaction).1]
    · simp [List.mem_singleton.1 hy, hprepares transaction]
  have hnone : held.countP (finishes transaction) = 0 := by
    rw [List.countP_eq_zero]
    intro y hy
    simp [((hheld y hy).2 transaction).2]
  rw [FinishedOnce, hwhole, List.countP_append, hnone, List.countP_singleton, if_pos hlast]

/-- While the transaction is held nothing escapes. -/
lemma not_escapes {rest : CleanupTrace} (h : Settled force record transaction block)
    {y : Exchange cleanupInterface}
    (hy : y ∈ (block ++ rest).takeWhile fun y => !finishes transaction y) : ¬ Escapes y := by
  obtain ⟨held, last, rfl, hlast, -, -, hheld⟩ := h.eq_append
  have hheldAll : ∀ y ∈ held, (!finishes transaction y) = true := by
    intro y hy
    simp [((hheld y hy).2 transaction).2]
  rw [List.append_assoc, List.takeWhile_append_of_pos hheldAll, List.singleton_append,
    List.takeWhile_cons_of_neg (by simp [hlast]), List.append_nil] at hy
  exact (hheld y hy).1

end Settled

namespace Settled

lemma not_prepares (h : Settled force record transaction block) :
    ∀ y ∈ block, ∀ other, prepares other y = false := by
  obtain ⟨held, last, rfl, -, -, hprepares, hheld⟩ := h.eq_append
  intro y hy other
  rcases List.mem_append.1 hy with hy | hy
  · exact ((hheld y hy).2 other).1
  · rw [List.mem_singleton.1 hy, hprepares other]

/-- A transaction that is handed out and settled is finished. -/
lemma finished (h : Settled force record transaction block) (hx : Hands transaction x)
    (hrecord : record ∈ records)
    (htransaction : (branches record.path).map DeletableBranch.transaction = some transaction) :
    Finished records force branches (x :: block) := by
  intro before x' after other hsplit hx'
  cases before with
  | nil =>
    obtain ⟨rfl, rfl⟩ := List.cons.inj hsplit
    have hsame : other = transaction := by
      obtain ⟨responses, rfl, -⟩ := hx
      exact (of_decide_eq_true hx'.prepares).symm
    subst hsame
    exact ⟨h.finishedOnce, record, hrecord, htransaction, block, [], (List.append_nil _).symm, h⟩
  | cons y before =>
    obtain ⟨-, hblock⟩ := List.cons.inj hsplit
    have hmem : x' ∈ block := by
      rw [hblock]
      exact List.mem_append_right _ List.mem_cons_self
    have hnot := h.not_prepares x' hmem other
    rw [hx'.prepares] at hnot
    cases hnot

/-- A transaction that is handed out and settled is the only one that is finished. -/
lemma quiet (h : Settled force record transaction block) (hx : Hands transaction x) :
    Quiet (x :: block) := by
  obtain ⟨held, last, rfl, -, hown, -, hheld⟩ := h.eq_append
  intro before y after other hsplit hy
  cases before with
  | nil =>
    obtain ⟨rfl, -⟩ := List.cons.inj hsplit
    obtain ⟨responses, rfl, -⟩ := hx
    cases hy
  | cons x' before =>
    obtain ⟨rfl, hblock⟩ := List.cons.inj hsplit
    have hmem : y ∈ held ++ [last] := by
      rw [hblock]
      exact List.mem_append_right _ List.mem_cons_self
    rcases List.mem_append.1 hmem with hmem | hmem
    · rw [((hheld y hmem).2 other).2] at hy
      cases hy
    · rw [List.mem_singleton.1 hmem] at hy
      rw [hown other hy]
      exact ⟨x, List.mem_cons_self, hx.prepares⟩

end Settled

/-- Where the transactions are finished, nothing escapes while one is held. -/
theorem guarded_of_finished (h : Finished records force branches trace) : Guarded trace := by
  intro before x after transaction hsplit hx y hy
  obtain ⟨-, own, -, -, block, rest, rfl, hsettled⟩ := h before x after transaction hsplit hx
  exact hsettled.not_escapes hy

/-! ## The removal of worktrees -/

lemma not_guarded (hx : Hands transaction x) {y : Exchange cleanupInterface} (hy : y ∈ block)
    (hescapes : Escapes y) (hheld : ∀ y ∈ block, finishes transaction y = false) :
    ¬ Guarded (trace ++ x :: block) := by
  intro h
  refine h trace x block transaction rfl hx y ?_ hescapes
  rw [List.takeWhile_eq_self_iff.2 fun y hy => by simp [hheld y hy]]
  exact hy

/-- Requests that neither prepare nor finish a transaction. -/
def Apart : CleanupOp → Prop
  | .prepareDeletion _ | .finishDeletion _ _ => False
  | _ => True

lemma not_hands_of_apart (h : Apart x.op) (transaction : BranchDeleteTransaction) :
    ¬ Hands transaction x := by
  rintro ⟨responses, rfl, -⟩
  exact h

lemma finishes_of_apart (h : Apart x.op) (transaction : BranchDeleteTransaction) :
    finishes transaction x = false := by
  obtain ⟨op, answer⟩ := x
  cases op <;> first | rfl | exact absurd h (by simp [Apart])

lemma apart_of_looks {op : CleanupOp} (h : op.Looks) : Apart op := by
  cases op <;> trivial

/-- The contract of a process whose exchanges are kept. -/
abbrev recording : Contract cleanupInterface CleanupTrace := Contract.tracing fun _ _ => True

section Safe

variable {α : Type} {result : CleanupRecord} {blocked : List String}

/-- A part that neither prepares nor finishes a transaction. -/
lemma safe_apart {p : Cleanup α} (hp : p.Within Apart fun _ => True)
    (h : Finished records force branches trace) :
    recording.Safe (fun _ trace => Finished records force branches trace)
      (fun _ trace => Finished records force branches trace) p trace := by
  refine (Contract.safe_tracing_of_within hp (fun _ _ _ _ => trivial) (fun trace x hx htrace => ?_)
    h).mono (fun _ _ hdone => hdone.2) fun _ _ hdone => hdone
  refine htrace.append (finished_of_forall fun y hy => ?_) (quiet_of_forall fun y hy => ?_)
  · rw [List.mem_singleton.1 hy]
    exact not_hands_of_apart hx
  · rw [List.mem_singleton.1 hy]
    exact finishes_of_apart hx

lemma apart_verifyOwnedWorktree : (verifyOwnedWorktree record).Within Apart fun _ => True :=
  looks_verifyOwnedWorktree.mono (fun _ h => apart_of_looks h) fun _ h => h

/-- Finishing is one exchange. -/
lemma safe_finish (command : FinishCommand) (fallback : String) :
    recording.Safe (fun _ after => ∃ answer,
        after = trace ++ [⟨.finishDeletion transaction command, answer⟩])
      (fun _ after => ∃ answer, after = trace ++ [⟨.finishDeletion transaction command, answer⟩])
      (transaction.finish command fallback) trace := by
  unfold BranchDeleteTransaction.finish
  refine Contract.safe_bind_iff.2 (Contract.safe_attempt_iff.2
    (Contract.safe_call_tracing.2 ⟨trivial, fun answer => ?_⟩))
  have hdone : ∃ answer' : Except PyError CompletedProcess,
      trace ++ [(⟨.finishDeletion transaction command, answer⟩ : Exchange cleanupInterface)] =
        trace ++ [⟨.finishDeletion transaction command, answer'⟩] := ⟨answer, rfl⟩
  cases answer with
  | error error =>
    rw [ofExcept_error, Contract.safe_raise]
    dsimp only
    split_ifs <;> exact hdone
  | ok completed =>
    rw [ofExcept_ok, Contract.safe_done]
    dsimp only
    split_ifs <;> exact hdone

/-- A command of git is one exchange; an error that it has is raised. -/
lemma safe_runGit (command : GitCommand) :
    recording.Safe (fun error after => ∃ completed : CompletedProcess,
        after = trace ++ [⟨.git command, .ok completed⟩] ∧
          (error = none ↔ completed.returncode = 0))
      (fun _ after => ∃ error : PyError, after = trace ++ [⟨.git command, .error error⟩])
      (runGit command) trace := by
  unfold runGit gitCompleted
  refine Contract.safe_bind_iff.2 (Contract.safe_bind_iff.2 (Contract.safe_attempt_iff.2
    (Contract.safe_call_tracing.2 ⟨trivial, fun answer => ?_⟩)))
  cases answer with
  | error error =>
    rw [ofExcept_error, Contract.safe_raise]
    dsimp only
    split_ifs <;> exact ⟨error, rfl⟩
  | ok completed =>
    rw [ofExcept_ok, Contract.safe_done]
    refine ⟨completed, rfl, ?_⟩
    split_ifs with hcode
    · exact iff_of_true rfl hcode
    · exact iff_of_false (by simp) hcode

/-- Preparing hands the transaction out with its last exchange, or hands out none. -/
lemma safe_prepare (h : Finished records force branches trace) :
    recording.Safe
      (fun answer after => (answer.1 = none ∧ Finished records force branches after) ∨
        (answer = (some transaction, none) ∧ ∃ before x, after = before ++ [x] ∧
          Finished records force branches before ∧ Hands transaction x))
      (fun _ after => Finished records force branches after) transaction.prepare trace := by
  unfold BranchDeleteTransaction.prepare
  have hgit : Apart (.git (.checkRefFormat transaction.branch)) := trivial
  refine (safe_apart (within_asking hgit) h).bind (fun valid before h => ?_) fun _ _ h => h
  split_ifs
  · exact .inl ⟨rfl, h⟩
  refine Contract.safe_bind_iff.2 (Contract.safe_attempt_iff.2
    (Contract.safe_call_tracing.2 ⟨trivial, fun answer => ?_⟩))
  -- what follows an unsuccessful request only aborts, so no transaction is left unfinished by it
  have hprepared : ∀ more : CleanupTrace, (∀ y ∈ more, ∃ answer,
        y = ⟨.finishDeletion transaction .abort, answer⟩) →
      ¬ Hands transaction ⟨.prepareDeletion transaction, answer⟩ →
      Finished records force branches
        (before ++ ⟨.prepareDeletion transaction, answer⟩ :: more) := by
    intro more hmore hnot
    refine h.append (finished_of_forall fun y hy other hhands => ?_) ?_
    · rcases List.mem_cons.1 hy with rfl | hy
      · have hsame : other = transaction := (of_decide_eq_true hhands.prepares).symm
        exact hnot (hsame ▸ hhands)
      · obtain ⟨answer', rfl⟩ := hmore y hy
        cases hhands.prepares
    · intro front y back other hsplit hfinishes
      cases front with
      | nil =>
        obtain ⟨rfl, -⟩ := List.cons.inj hsplit
        cases hfinishes
      | cons x front =>
        obtain ⟨rfl, hrest⟩ := List.cons.inj hsplit
        have hmem : y ∈ more := by
          rw [hrest]
          exact List.mem_append_right _ List.mem_cons_self
        obtain ⟨answer', rfl⟩ := hmore y hmem
        exact ⟨_, List.mem_cons_self, hfinishes⟩
  cases answer with
  | error error =>
    have hnot : ¬ Hands transaction ⟨.prepareDeletion transaction, .error error⟩ := by
      rintro ⟨responses, hsame, -⟩
      cases hsame
    have hdone := hprepared [] (by simp) hnot
    rw [ofExcept_error, Contract.safe_raise]
    dsimp only
    split_ifs
    · exact .inl ⟨rfl, hdone⟩
    · exact hdone
  | ok responses =>
    rw [ofExcept_ok, Contract.safe_done]
    dsimp only
    split_ifs with hresponses
    · have hnot : ¬ Hands transaction ⟨.prepareDeletion transaction, .ok responses⟩ := by
        rintro ⟨responses', hsame, hok⟩
        cases hsame
        exact hresponses hok
      refine (safe_finish .abort _).bind ?_ ?_
      · rintro error _ ⟨answer, rfl⟩
        rw [List.append_assoc]
        exact .inl ⟨rfl, hprepared _ (by simp) hnot⟩
      · rintro error _ ⟨answer, rfl⟩
        rw [List.append_assoc]
        exact hprepared _ (by simp) hnot
    · exact .inr ⟨rfl, before, _, rfl, h, responses, rfl, not_not.1 hresponses⟩

lemma safe_removeVerifiedWorktree_none (h : Finished records force branches trace) :
    recording.Safe (fun _ after => Finished records force branches after)
      (fun _ after => Finished records force branches after)
      (removeVerifiedWorktree force result record none) trace := by
  unfold removeVerifiedWorktree
  have hgit : Apart (.git (.removeWorktree record.gitDir force record.path)) := trivial
  refine (safe_apart ((looks_gitCompleted hgit).seq fun _ => within_pure.2 trivial) h).bind
    (fun error after h => ?_) fun _ _ h => h
  cases error <;> exact h

/-- Removing a worktree whose branch is held settles the transaction, or its answer escapes. -/
lemma safe_removeVerifiedWorktree {branch : DeletableBranch}
    (h : Finished records force branches trace) (hrecord : record ∈ records)
    (hbranch : branches record.path = some branch) (hx : Hands branch.transaction x)
    (hcheck : (verifyOwnedWorktree record).Returns check none) :
    recording.Safe (fun _ after => Finished records force branches after)
      (fun _ after => Guarded after → Finished records force branches after)
      (removeVerifiedWorktree force result record (some (branch, branch.transaction)))
      (trace ++ x :: check) := by
  have htransaction : (branches record.path).map DeletableBranch.transaction =
      some branch.transaction := by
    rw [hbranch]
    rfl
  have hsettle : ∀ {block : CleanupTrace}, Settled force record branch.transaction block →
      Finished records force branches (trace ++ x :: block) := fun hsettled =>
    h.append (hsettled.finished hx hrecord htransaction) (hsettled.quiet hx)
  unfold removeVerifiedWorktree
  -- git either answers, with an error or without one, or its answer escapes
  refine (safe_runGit _).bind ?_ ?_
  · rintro error _ ⟨completed, rfl, hcode⟩
    cases error with
    | some error =>
      have hfailed : completed.returncode ≠ 0 := fun hzero => by cases hcode.2 hzero
      have hkept : ∀ answer, Finished records force branches (trace ++ x :: check ++
          [⟨.git (.removeWorktree record.gitDir force record.path), .ok completed⟩] ++
          [⟨.finishDeletion branch.transaction .abort, answer⟩]) := by
        intro answer
        have hsettled : Settled force record branch.transaction (check ++
            [⟨.git (.removeWorktree record.gitDir force record.path), .ok completed⟩,
              ⟨.finishDeletion branch.transaction .abort, answer⟩]) := .kept hcheck hfailed
        simpa using hsettle hsettled
      refine Contract.safe_bind_iff.2 (Contract.safe_bind_iff.2 ((safe_finish .abort _).mono ?_ ?_))
      · rintro _ _ ⟨answer, rfl⟩
        exact hkept answer
      · rintro _ _ ⟨answer, rfl⟩ _
        exact hkept answer
    | none =>
      have hremoved : ∀ answer, Finished records force branches (trace ++ x :: check ++
          [⟨.git (.removeWorktree record.gitDir force record.path), .ok completed⟩] ++
          [⟨.finishDeletion branch.transaction .commit, answer⟩]) := by
        intro answer
        have hsettled : Settled force record branch.transaction (check ++
            [⟨.git (.removeWorktree record.gitDir force record.path), .ok completed⟩,
              ⟨.finishDeletion branch.transaction .commit, answer⟩]) :=
          .removed hcheck (hcode.1 rfl)
        simpa using hsettle hsettled
      refine Contract.safe_bind_iff.2 ((safe_finish .commit _).mono ?_ ?_)
      · rintro error _ ⟨answer, rfl⟩
        cases error <;> exact hremoved answer
      · rintro _ _ ⟨answer, rfl⟩ _
        exact hremoved answer
  -- an exception that escapes here is what a guarded record does not have
  · rintro _ _ ⟨error, rfl⟩ hguarded
    rw [List.append_assoc, List.cons_append] at hguarded
    refine absurd hguarded (not_guarded hx (List.mem_append_right _ (List.mem_singleton_self _))
      trivial fun y hy => ?_)
    rcases List.mem_append.1 hy with hy | hy
    · exact (of_looks (looks_of_returns looks_verifyOwnedWorktree hcheck y hy) _).2
    · rw [List.mem_singleton.1 hy]
      rfl

/-- The worktree of a branch: the transaction is settled, unless something escapes meanwhile. -/
lemma safe_removeWorktreeWithBranch {branch : DeletableBranch}
    (h : Finished records force branches trace) (hrecord : record ∈ records)
    (hbranch : branches record.path = some branch) :
    recording.Safe (fun _ after => Finished records force branches after)
      (fun _ after => Guarded after → Finished records force branches after)
      (removeWorktreeWithBranch force result record branch) trace := by
  unfold removeWorktreeWithBranch
  refine (safe_prepare h).bind ?_ fun _ _ h _ => h
  rintro ⟨transaction, error⟩ after (⟨hnone, h⟩ | ⟨hsome, before, x, rfl, h, hx⟩)
  -- no transaction is held: the worktree is removed without one
  · obtain rfl : transaction = none := hnone
    cases error with
    | some error => exact h
    | none =>
      refine (safe_apart apart_verifyOwnedWorktree h).bind (fun error after h => ?_)
        fun _ _ h _ => h
      cases error with
      | some error => exact fun _ => h
      | none => exact (safe_removeVerifiedWorktree_none h).mono (fun _ _ h => h) fun _ _ h _ => h
  · cases hsome
    have htransaction : (branches record.path).map DeletableBranch.transaction =
        some branch.transaction := by
      rw [hbranch]
      rfl
    -- while the transaction is held, the worktree is verified once more
    refine Contract.safe_bind_recorded (fun check error hcheck => ?_) fun check error hcheck => ?_
    · rw [List.append_assoc, List.singleton_append]
      cases error with
      | some error =>
        have hdone : ∀ answer, Finished records force branches (before ++ x :: check ++
            [⟨.finishDeletion branch.transaction .abort, answer⟩]) := by
          intro answer
          have hsettled : Settled force record branch.transaction (check ++
              [⟨.finishDeletion branch.transaction .abort, answer⟩]) := .unverified hcheck
          have happended := h.append (hsettled.finished hx hrecord htransaction) (hsettled.quiet hx)
          simpa using happended
        refine Contract.safe_bind_iff.2 ((safe_finish .abort _).mono ?_ ?_)
        · rintro _ _ ⟨answer, rfl⟩
          exact hdone answer
        · rintro _ _ ⟨answer, rfl⟩ _
          exact hdone answer
      | none => exact safe_removeVerifiedWorktree h hrecord hbranch hx hcheck
    · rw [List.append_assoc, List.singleton_append]
      intro hguarded
      obtain ⟨y, hy, hescapes⟩ := (candid_verifyOwnedWorktree record).raises check error hcheck
      have hlooks := (within_of_trace looks_verifyOwnedWorktree hcheck).2
      exact absurd hguarded (not_guarded hx hy hescapes fun y hy => (of_looks (hlooks y hy) _).2)

/-- A worktree whose path is missing. -/
lemma apart_completeMissingWorktree {branch : Option DeletableBranch} :
    (completeMissingWorktree result record branch).Within Apart fun _ => True := by
  unfold completeMissingWorktree
  cases branch with
  | some branch => trivial
  | none =>
    refine Within.seq ((within_handlingStoreErrors looks_worktreeIsRegistered).mono
      (fun _ h => apart_of_looks h) fun _ h => h) fun registered => ?_
    cases registered with
    | error error => trivial
    | ok registered => cases registered <;> trivial

lemma safe_removeWorktree (h : Finished records force branches trace) (hrecord : record ∈ records) :
    recording.Safe (fun _ after => Finished records force branches after)
      (fun _ after => Guarded after → Finished records force branches after)
      (removeWorktree blocked force branches result record) trace := by
  unfold removeWorktree
  split_ifs
  · exact h
  have hexists : Apart (.pathExists (.ofText record.path)) := trivial
  refine (safe_apart (within_asking hexists) h).bind (fun found after h => ?_) fun _ _ h _ => h
  cases found with
  | true =>
    rw [if_pos rfl]
    refine (safe_apart apart_verifyOwnedWorktree h).bind (fun error after h => ?_) fun _ _ h _ => h
    cases error with
    | some error => exact h
    | none =>
      dsimp only
      cases hbranch : branches record.path with
      | none => exact (safe_removeVerifiedWorktree_none h).mono (fun _ _ h => h) fun _ _ h _ => h
      | some branch => exact safe_removeWorktreeWithBranch h hrecord hbranch
  | false =>
    rw [if_neg Bool.false_ne_true]
    exact (safe_apart apart_completeMissingWorktree h).mono (fun _ _ h => h) fun _ _ h _ => h

lemma safe_removeWorktrees :
    recording.Safe (fun _ after => Finished records force branches after)
      (fun _ after => Guarded after → Finished records force branches after)
      (removeWorktrees records blocked force result branches) [] := by
  refine Contract.safe_foldlM (J := fun _ _ trace => Finished records force branches trace)
    (fun front item rest found trace hitems h => ?_) ?_
  · exact safe_removeWorktree h (by rw [hitems]; simp)
  · exact finished_of_forall fun x hx => absurd hx List.not_mem_nil

end Safe

/-- A run of the removal finishes the transactions that are handed out just when no request that is
made while one is held has an answer that escapes. -/
theorem finished_iff_guarded {records branchRecords : List WorktreeRecord} {blocked : List String}
    {blockedBranches : List (String × String)} {expectedTips : List ((String × String) × String)}
    {force : Bool} {result : CleanupRecord} {trace : CleanupTrace}
    (h : (∃ after, (removeWorktrees records blocked force result
          (branchByPath branchRecords blockedBranches expectedTips)).Returns trace after) ∨
      ∃ error, (removeWorktrees records blocked force result
          (branchByPath branchRecords blockedBranches expectedTips)).Raises trace error) :
    Finished records force (branchByPath branchRecords blockedBranches expectedTips) trace ↔
      Guarded trace := by
  refine ⟨guarded_of_finished, fun hguarded => ?_⟩
  rcases h with ⟨after, h⟩ | ⟨error, h⟩
  · exact Contract.safe_of_trace safe_removeWorktrees h
  · exact Contract.safe_of_trace safe_removeWorktrees h hguarded

/-! ## An output that is no text -/

/-- A worktree with its branch. -/
def shared : WorktreeRecord where
  path := "/work/w1"
  gitDir := "/repo/.git"
  linkedGitDir := "/repo/.git/worktrees/w1"
  linkedGitDirDevice := 1
  linkedGitDirInode := 2
  branch := "w1"
  branchReflog := "/repo/.git/logs/refs/heads/w1"
  branchReflogDevice := 1
  branchReflogInode := 3
  registeredBranchTip := "0123456789012345678901234567890123456789"
  workerId := "w1"

/-- The cleanup of the worktree and its branch, before anything is removed. -/
def sharedRecord : CleanupRecord where
  mode := .apply
  run := "demo"
  status := .inProgress
  planned := ⟨"demo", .null, [], [shared], [shared], [], [], false, by decide⟩
  completed := {}
  runStoreDeleted := false
  preflight :=
    ⟨[], [], [], [(shared.branchIdentity, shared.registeredBranchTip)], [], [], []⟩
  projectMetadataPreview := []
  projectMetadataResults := []
  errors := []

/-- Everything is as it was recorded, and the removal of the worktree fails with a message in
another encoding. -/
def undecodable : (op : CleanupOp) → op.Answer
  | .acquireLease | .releaseLease | .deleteRun _ | .unlink _ => .ok ()
  | .loadRun => .ok ⟨[], []⟩
  | .updateRun _ | .audit _ => .rejected (.runStore "" "conflict")
  | .pathExists _ | .isSymlink _ | .isDir _ => .ok true
  | .resolve path => .ok path
  | .realpath path => .ok path.text
  | .readText _ => .ok shared.registeredBranchTip
  | .stat _ | .lstat _ => .ok ⟨.directory, 1, 2⟩
  | .git (.showToplevel _) => .ok ⟨0, "/work/w1\n", ""⟩
  | .git (.gitCommonDir _) => .ok ⟨0, "/repo/.git\n", ""⟩
  | .git (.absoluteGitDir _) => .ok ⟨0, "/repo/.git/worktrees/w1\n", ""⟩
  | .git (.symbolicRef _) => .ok ⟨0, "w1\n", ""⟩
  | .git (.removeWorktree _ _ _) => .error (.valueError
    "'utf-8' codec can't decode byte 0xe9 in position 33: invalid continuation byte")
  | .git _ => .ok ⟨0, "", ""⟩
  | .prepareDeletion _ => .ok ("start: ok\n", "prepare: ok\n")
  | .finishDeletion _ _ => .ok ⟨0, "abort: ok\n", ""⟩
  | .connect _ | .deleteSession _ | .getSession _ => .ok ()
  | .previewProject _ _ _ | .applyProject _ _ _ => .error (.osError "")

/-- The removal of the worktree. -/
def removeShared : Cleanup CleanupRecord :=
  removeWorktrees [shared] [] true sharedRecord
    (branchByPath [shared] [] [(shared.branchIdentity, shared.registeredBranchTip)])

/-- The transaction that it prepares. -/
def heldDeletion : BranchDeleteTransaction := ⟨"/repo/.git", "w1", shared.registeredBranchTip⟩

lemma raises_removeShared :
    ∃ error, removeShared.Raises (transcript undecodable removeShared) error :=
  exists_raises_of_raisesUnder (by decide +kernel)

lemma not_finished_of_undecodable : ¬ Finished [shared] true
    (branchByPath [shared] [] [(shared.branchIdentity, shared.registeredBranchTip)])
    (transcript undecodable removeShared) := by
  intro hfinished
  have hany : (transcript undecodable removeShared).any (prepares heldDeletion) = true := by
    decide +kernel
  have hnone : (transcript undecodable removeShared).countP (finishes heldDeletion) = 0 := by
    decide +kernel
  obtain ⟨x, hx, hprepares⟩ := List.any_eq_true.1 hany
  obtain ⟨before, after, hsplit⟩ := List.append_of_mem hx
  have hhands : Hands heldDeletion x := by
    rw [eq_of_mem_transcript hx] at hprepares ⊢
    generalize x.op = op at hprepares
    cases op with
    | prepareDeletion other =>
      have hsame : other = heldDeletion := of_decide_eq_true hprepares
      exact ⟨_, by rw [hsame]; rfl, by decide⟩
    | _ => cases hprepares
  have honce : FinishedOnce heldDeletion after := (hfinished before x after _ hsplit hhands).1
  have hfew : after.countP (finishes heldDeletion) ≤ 0 := by
    rw [← hnone, hsplit, List.countP_append, List.countP_cons]
    omega
  have hlater : (after.takeWhile fun x => !prepares heldDeletion x).countP
        (finishes heldDeletion) ≤ after.countP (finishes heldDeletion) :=
    (List.takeWhile_sublist _).countP_le
  rw [FinishedOnce] at honce
  omega

/-- The transaction is handed out, git is there and answers, and it is never finished. -/
theorem not_finished_undecodable :
    (∃ error, removeShared.Raises (transcript undecodable removeShared) error) ∧
    (∀ x ∈ transcript undecodable removeShared, ∀ command error,
      x = ⟨.git command, .error error⟩ → error.isOSError = false) ∧
    ¬ Finished [shared] true
      (branchByPath [shared] [] [(shared.branchIdentity, shared.registeredBranchTip)])
      (transcript undecodable removeShared) := by
  refine ⟨raises_removeShared, fun x hx command error herror => ?_, not_finished_of_undecodable⟩
  have hanswer := eq_of_mem_transcript hx
  rw [herror] at hanswer
  cases command <;> cases hanswer
  rfl

/-- Everything is as it was recorded, and git removes the worktree and deletes the branch. -/
def cooperative : (op : CleanupOp) → op.Answer
  | .git (.removeWorktree _ _ _) => .ok ⟨0, "", ""⟩
  | .finishDeletion _ _ => .ok ⟨0, "commit: ok\n", ""⟩
  | op => undecodable op

lemma not_escapes_cooperative (op : CleanupOp) : ¬ Escapes ⟨op, cooperative op⟩ := by
  cases op with
  | git command => cases command <;> exact fun h => h
  | _ => exact fun h => h

/-- Whether the worktree and its branch are completed. -/
def completesShared (result : CleanupRecord) : Bool :=
  result.completed.worktrees = [shared] && result.completed.branches = [shared]

/-- The removal that git lets through commits the transaction that it was handed; the one that gets
an output which is no text is not guarded. -/
theorem finished_iff_guarded_shared :
    ((∃ result, removeShared.Returns (transcript cooperative removeShared) result ∧
        completesShared result = true) ∧
      (transcript cooperative removeShared).any (prepares heldDeletion) = true ∧
      Finished [shared] true
        (branchByPath [shared] [] [(shared.branchIdentity, shared.registeredBranchTip)])
        (transcript cooperative removeShared)) ∧
    ¬ Guarded (transcript undecodable removeShared) := by
  have hreturns : ∃ result, removeShared.Returns (transcript cooperative removeShared) result ∧
      completesShared result = true := exists_returns_of_returnsUnder (by decide +kernel)
  have hends := hreturns.imp fun _ h => h.1
  have hguarded : Guarded (transcript cooperative removeShared) := by
    intro before x after transaction hsplit _ y hy
    have hmem : y ∈ transcript cooperative removeShared := by
      rw [hsplit]
      exact List.mem_append_right _ (List.mem_cons_of_mem _ ((List.takeWhile_sublist _).subset hy))
    rw [eq_of_mem_transcript hmem]
    exact not_escapes_cooperative y.op
  refine ⟨⟨hreturns, by decide +kernel, (finished_iff_guarded (.inl hends)).2 hguarded⟩,
    fun h => ?_⟩
  exact not_finished_of_undecodable ((finished_iff_guarded (.inr raises_removeShared)).2 h)

end BranchTransactions

end OpencodeSession
