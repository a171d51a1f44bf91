import OpencodeSession.Cleanup.SharedRun
import OpencodeSession.Framework.History
import OpencodeSession.Properties.RunIsolation

/-!
# The fence around a cleanup

Any number of cleanups of a run, each of which may be killed anywhere, run with other commands that
load and update it.  Once a cleanup has written the start of its audit, no other command gets an
update through until a cleanup has written the end of one, killed or not (`fenced_of_runs`); until
it comes back to the store itself, the file holds exactly what it wrote (`untouched_of_runs`).  And
the run is deleted only as the run that the deleting cleanup has saved at the end of an audit
without errors (`audited_of_deletes`), so an update in between that changes anything is kept.
-/

namespace OpencodeSession

namespace SharedRun

open Except RunIsolation

variable {py : Interpreter} {store : RunStore} {name : String} {ι : Type}
  {directory : Directory} {mutator : Mutator} {allowCleanupInProgress : Bool} {saved : Saved}

/-! ## Records under their own name -/

/-- Whether the record in the file of the run is the run's own. -/
def Named (py : Interpreter) (store : RunStore) (name : String) (directory : Directory) : Prop :=
  ∀ run, store.loadRun py directory name = .ok run → run.name = .str name

/-- Whether the record in the file of the run shows a cleanup in progress. -/
def Fenced (py : Interpreter) (store : RunStore) (name : String) (directory : Directory) : Prop :=
  ∀ run, store.loadRun py directory name = .ok run → run.cleanupInProgress = true

/-- What an update that keeps the name leaves in the file of the run: the saved fields, whether or
not its workers can be read. -/
lemma updateRun_of_keepsName (hnamed : Named py store name directory)
    (hkeeps : KeepsName mutator)
    (h : store.updateRun py directory name mutator allowCleanupInProgress = .ok saved) :
    saved.path = name ∧ ∃ run left, store.loadRun py directory name = .ok run ∧
      mutator run = .ok left ∧ (allowCleanupInProgress = true ∨ run.cleanupInProgress = false) ∧
      RunRecord.normalizeRun py left (.str name) = .ok saved.run ∧ saved.run.name = .str name ∧
      ∀ reloaded, store.loadRun py (saved.applyTo directory) name = .ok reloaded →
        reloaded.fields = saved.run.fields := by
  obtain ⟨persisted, run, left, final, hpersisted, hrun, hfence, hleft, hfinal, hwrite⟩ :=
    updateRun_eq_ok.1 h
  obtain ⟨hvalid, htruthy⟩ := runPath_of_readRunData hpersisted
  have hload : store.loadRun py directory name = .ok run :=
    loadRun_eq_ok.2 ⟨persisted, hpersisted, hrun⟩
  have hnormalized := RunRecord.normalized_normalizeRun htruthy hrun
  have hfinalNormalized := RunRecord.normalized_normalizeRun htruthy hfinal
  have hname : final.name = .str name := by
    rw [name_eq_of_kept hnormalized (hkeeps run left hleft) hfinal]
    exact hnamed run hload
  obtain ⟨workers, path, hworkers, hpath, rfl⟩ := (writeRun_eq_ok hfinalNormalized).1 hwrite
  have hsame : path = name := by
    rw [hname, hvalid] at hpath
    exact (Except.ok.inj hpath).symm
  refine ⟨hsame, run, left, hload, hleft, hfence, hfinal, hname, fun reloaded hreloaded => ?_⟩
  rw [loadRun_applyTo hsame rfl hvalid, normalizeRun_stored hfinalNormalized] at hreloaded
  obtain ⟨hydrated, -, rfl⟩ := map_eq_ok.1 hreloaded
  rfl

lemma deleteRun_eq_ok {expected : RunData} {directory' : Directory}
    (h : store.deleteRun py directory name (some expected) = .ok directory') :
    RunStore.runPath py (.str name) = .ok name ∧ directory' = Function.update directory name none ∧
      ∃ run, store.loadRun py directory name = .ok run ∧ run.pyEq expected = true := by
  obtain ⟨path, hpath, h⟩ := bind_eq_ok.1 h
  have hsame : name = path := JsonValue.str.inj (RunStore.runPath_eq_ok hpath).1
  subst hsame
  change ((fun current : RunData => current.pyEq expected) <$>
    store.loadRun py directory name >>= _) = _ at h
  obtain ⟨unchanged, hunchanged, h⟩ := bind_eq_ok.1 h
  obtain ⟨run, hload, rfl⟩ := map_eq_ok.1 hunchanged
  dsimp only at h
  split_ifs at h with hrefused
  split at h
  · cases h
  · cases h
    exact ⟨hpath, rfl, run, hload, by simpa using hrefused⟩

lemma not_loadRun_of_deleted {run : RunData} (hpath : RunStore.runPath py (.str name) = .ok name) :
    store.loadRun py (Function.update directory name none) name ≠ .ok run := by
  intro h
  obtain ⟨persisted, hread, -⟩ := loadRun_eq_ok.1 h
  obtain ⟨path, hfound, hread⟩ := bind_eq_ok.1 hread
  rw [hpath] at hfound
  cases hfound
  rw [Function.update_self] at hread
  cases hread

lemma named_applyTo (hnamed : Named py store name directory) (hkeeps : KeepsName mutator)
    (h : store.updateRun py directory name mutator allowCleanupInProgress = .ok saved) :
    Named py store name (saved.applyTo directory) := by
  obtain ⟨-, run, left, -, -, -, -, hname, hfields⟩ := updateRun_of_keepsName hnamed hkeeps h
  intro reloaded hreloaded
  rw [RunData.name, hfields reloaded hreloaded]
  exact hname

lemma not_updateRun_of_fenced (hfenced : Fenced py store name directory) :
    store.updateRun py directory name mutator false ≠ .ok saved := by
  intro h
  obtain ⟨persisted, run, left, final, hpersisted, hrun, hopen, -, -, -⟩ := updateRun_eq_ok.1 h
  have hprogress := hfenced run (loadRun_eq_ok.2 ⟨persisted, hpersisted, hrun⟩)
  rcases hopen with hopen | hopen
  · cases hopen
  · rw [hprogress] at hopen
    cases hopen

/-! ## The records of an audit -/

/-- Whether a record of a cleanup says that it is in progress. -/
def InProgress (record : JsonValue) : Prop :=
  record.isObj = true ∧ (record.get "status").pyEq (.str "in_progress") = true

lemma keepsName_setCleanup (run : RunData) (record : JsonValue) :
    (run.setCleanup record).fields.field "name" = run.name := by
  have hne : "resource_cleanup" ≠ "name" := by decide
  show (Dict.lookup "name" (Dict.insert "resource_cleanup" record run.fields)).getD .null = _
  rw [Dict.lookup_insert_of_ne hne]
  rfl

lemma keepsName_mutator (step : AuditStep) : KeepsName step.mutator := by
  intro run left h
  have hset : ∃ record, left = run.setCleanup record := by
    cases step with
    | amend record =>
      cases h
      exact ⟨record, rfl⟩
    | start expected record =>
      change (if _ then _ else _) = _ at h
      split_ifs at h
      cases h
      exact ⟨record, rfl⟩
    | finish expected record =>
      change (if _ then _ else _) = _ at h
      split_ifs at h
      cases h
      exact ⟨record, rfl⟩
  obtain ⟨record, rfl⟩ := hset
  exact keepsName_setCleanup run record

/-- A record of a cleanup comes through normalising. -/
lemma lookup_cleanup_normalizeFields {fields fields' : Fields} {record fallbackName : JsonValue}
    (hobj : record.isObj = true) (hlookup : Dict.lookup "resource_cleanup" fields = some record)
    (h : RunRecord.normalizeFields py fields fallbackName = .ok fields') :
    Dict.lookup "resource_cleanup" fields' = some record := by
  obtain ⟨validated, hvalidated, rfl⟩ := map_eq_ok.1 h
  have hfound : Dict.lookup "resource_cleanup" validated = some record := by
    rw [(RunRecord.validateResources_eq_ok hvalidated).2 _ (by decide), RunRecord.shortenStatus,
      Dict.lookup_insert_of_ne (by decide), RunRecord.lookup_withDefaults _ (by decide),
      Dict.lookup_remove_of_ne (by decide), hlookup]
  unfold RunRecord.repairCleanup
  rw [hfound]
  show Dict.lookup "resource_cleanup" (if record.isObj = true then validated else _) = _
  rw [if_pos hobj]
  exact hfound

/-- A start of an audit that is written fences the run. -/
lemma fenced_applyTo {expected : RunData} {record : JsonValue}
    (hnamed : Named py store name directory) (hrecord : InProgress record)
    (h : store.updateRun py directory name (AuditStep.start expected record).mutator true =
      .ok saved) : Fenced py store name (saved.applyTo directory) := by
  obtain ⟨-, run, left, -, hleft, -, hfinal, -, hfields⟩ :=
    updateRun_of_keepsName hnamed (keepsName_mutator _) h
  have hset : left = run.setCleanup record := by
    change (if _ then _ else _) = _ at hleft
    split_ifs at hleft
    cases hleft
    rfl
  obtain ⟨_, hnormal, -, -⟩ := RunRecord.normalizeRun_eq_ok.1 hfinal
  have hlookup : Dict.lookup "resource_cleanup" saved.run.fields = some record := by
    refine lookup_cleanup_normalizeFields hrecord.1 ?_ hnormal
    rw [hset]
    exact Dict.lookup_insert_self _ _ _
  intro reloaded hreloaded
  have hfield : reloaded.fields.field "resource_cleanup" = record := by
    rw [hfields reloaded hreloaded, Fields.field, hlookup]
    rfl
  rw [RunData.cleanupInProgress, hfield, hrecord.1, hrecord.2]
  rfl

/-! ## What a step can do -/

section Steps

variable {i j : ι} {s s' : SharedRun ι} [DecidableEq ι]

/-- What a step does to the shared state: nothing, or one of a few things that its request names. -/
inductive Changes (py : Interpreter) (store : RunStore) (name : String) :
    Event cleanupInterface ι → SharedRun ι → SharedRun ι → Prop where
  | quiet {e : Event cleanupInterface ι} {s : SharedRun ι} : Changes py store name e s s
  | acquired {i : ι} {s : SharedRun ι} {answer : Except PyError Unit} : s.lease = none →
      Changes py store name ⟨i, .acquireLease, answer⟩ s { s with lease := some i }
  | released {i : ι} {s : SharedRun ι} {answer : Except PyError Unit} :
      Changes py store name ⟨i, .releaseLease, answer⟩ s
        { s with lease := if s.lease = some i then none else s.lease }
  | updated {i : ι} {s : SharedRun ι} {mutator : Mutator} {saved : Saved} {answer : StoreAnswer} :
      answer.saved? = some saved →
        store.updateRun py s.directory name mutator false = .ok saved →
          Changes py store name ⟨i, .updateRun mutator, answer⟩ s
            { s with directory := saved.applyTo s.directory }
  | audited {i : ι} {s : SharedRun ι} {step : AuditStep} {saved : Saved} {answer : StoreAnswer} :
      answer.saved? = some saved →
        store.updateRun py s.directory name step.mutator true = .ok saved →
          Changes py store name ⟨i, .audit step, answer⟩ s
            { s with directory := saved.applyTo s.directory }
  | deleted {i : ι} {s : SharedRun ι} {run : RunData} {answer : Except PyError Unit}
      {directory : Directory} :
      store.deleteRun py s.directory name (some run) = .ok directory →
        Changes py store name ⟨i, .deleteRun run, answer⟩ s { s with directory := directory }

lemma changes_of_surroundings {op : CleanupOp} {answer : op.Answer}
    (h : surroundings py store name i s op answer s') :
    Changes py store name ⟨i, op, answer⟩ s s' := by
  -- only the lease, the two updates and the deletion reach the store
  cases op with
  | acquireLease =>
    cases answer with
    | ok _ =>
      obtain ⟨hfree, rfl⟩ := h
      exact .acquired hfree
    | error _ =>
      obtain rfl : s' = s := h
      exact .quiet
  | releaseLease =>
    obtain rfl : s' = _ := h
    exact .released
  | loadRun =>
    obtain ⟨rfl, -⟩ := h
    exact .quiet
  | updateRun mutator =>
    change Updates py store name mutator false s answer s' at h
    unfold Updates at h
    cases hsaved : StoreAnswer.saved? answer with
    | none =>
      rw [hsaved] at h
      obtain rfl : s' = s := h
      exact .quiet
    | some saved =>
      rw [hsaved] at h
      obtain ⟨hupdate, rfl⟩ := h
      exact .updated hsaved hupdate
  | audit step =>
    change Updates py store name step.mutator true s answer s' at h
    unfold Updates at h
    cases hsaved : StoreAnswer.saved? answer with
    | none =>
      rw [hsaved] at h
      obtain rfl : s' = s := h
      exact .quiet
    | some saved =>
      rw [hsaved] at h
      obtain ⟨hupdate, rfl⟩ := h
      exact .audited hsaved hupdate
  | deleteRun run =>
    cases answer with
    | ok _ =>
      obtain ⟨directory, hdelete, rfl⟩ := h
      exact .deleted hdelete
    | error _ =>
      -- a deletion that fails may have removed the file
      rcases h with rfl | ⟨directory, hdelete, rfl⟩
      · exact .quiet
      · exact .deleted hdelete
  | _ =>
    obtain rfl : s' = s := h
    exact .quiet

/-- A step of one process leaves the lease of another. -/
lemma Changes.lease_other {e : Event cleanupInterface ι} (h : Changes py store name e s s')
    (hj : j ≠ e.thread) (hlease : s.lease = some j) : s'.lease = some j := by
  cases h with
  | acquired hfree =>
    rw [hfree] at hlease
    cases hlease
  | @released i =>
    have hne : s.lease ≠ some i := by
      rw [hlease]
      exact fun heq => hj (Option.some.inj heq)
    show (if s.lease = some i then none else s.lease) = some j
    rw [if_neg hne, hlease]
  | _ => exact hlease

lemma Changes.lease_own {e : Event cleanupInterface ι} (h : Changes py store name e s s')
    (hop : e.op ≠ .releaseLease) (hlease : s.lease = some e.thread) :
    s'.lease = some e.thread := by
  cases h with
  | acquired _ => rfl
  | released => exact absurd rfl hop
  | _ => exact hlease

lemma Changes.eq_of_offStore {e : Event cleanupInterface ι} (h : Changes py store name e s s')
    (hop : ¬ e.op.OnStore) : s' = s := by
  cases h with
  | quiet => rfl
  | _ => exact absurd trivial hop

end Steps

/-! ## The contract of a process -/

section Contract

open RunCleanup

variable {i : ι}

/-- Whether a process has saved a run at the end of an audit without errors. -/
def Audited (i : ι) (run : RunData) (es : List (Event cleanupInterface ι)) : Prop :=
  ∃ (expected : RunData) (record : CleanupRecord) (saved : Saved), record.errors = [] ∧
    saved.run = run ∧
    (⟨i, .audit (.finish expected record.toJson), StoreAnswer.committed saved⟩ :
      Event cleanupInterface ι) ∈ es

/-- What holds whenever a process asks for something: the record of a run is changed under its name,
by audits under the lease only, and deleted only as it was audited. -/
def Allowed (i : ι) (op : CleanupOp) (s : SharedRun ι × List (Event cleanupInterface ι)) : Prop :=
  match op with
  | .updateRun mutator => KeepsName mutator
  | .audit (.start _ record) => s.1.lease = some i ∧ InProgress record
  | .audit _ => s.1.lease = some i
  | .deleteRun expectedRun => s.1.lease = some i ∧ Audited i expectedRun s.2
  | _ => True

lemma Audited.mono {run : RunData} {es es' : List (Event cleanupInterface ι)} (hsub : es ⊆ es')
    (h : Audited i run es) : Audited i run es' := by
  obtain ⟨expected, record, saved, herrors, hrun, hmem⟩ := h
  exact ⟨expected, record, saved, herrors, hrun, hsub hmem⟩

variable [DecidableEq ι]

variable (py store name) in
/-- The contract of a process: the others leave it its lease, and it leaves them theirs. -/
def contract (i : ι) :
    Contract cleanupInterface (SharedRun ι × List (Event cleanupInterface ι)) where
  responds := (surroundings py store name).recording i
  rely _ s s' := (s.1.lease = some i → s'.1.lease = some i) ∧ s.2 ⊆ s'.2
  rely_refl _ _ := ⟨fun h => h, List.Subset.refl _⟩
  rely_trans _ _ _ _ h h' := ⟨fun hlease => h'.1 (h.1 hlease), List.Subset.trans h.2 h'.2⟩
  waits op s := Allowed i op s
  guarantee s _ _ s' := (∀ j, j ≠ i → s.1.lease = some j → s'.1.lease = some j) ∧ s.2 ⊆ s'.2
  mayCut := True

variable {s s' : SharedRun ι × List (Event cleanupInterface ι)}

lemma guarantee_of_responds {op : CleanupOp} {answer : op.Answer}
    (h : (contract py store name i).responds s op answer s') :
    (contract py store name i).guarantee s op answer s' ∧
      (op ≠ .releaseLease → s.1.lease = some i → s'.1.lease = some i) := by
  obtain ⟨hanswered, hevents⟩ := h
  have hchanges := changes_of_surroundings hanswered
  refine ⟨⟨fun j hj hlease => hchanges.lease_other hj hlease, ?_⟩, hchanges.lease_own⟩
  rw [hevents]
  exact List.subset_append_left _ _

/-- A part of a cleanup that does not touch the store leaves it its lease, if it has one. -/
lemma safe_offStore {α : Type} {p : Cleanup α} {leased : Prop}
    (h : p.Within OffStore fun _ => True) (hs : leased → s.1.lease = some i) :
    (contract py store name i).Safe (fun _ s => leased → s.1.lease = some i)
      (fun _ s => leased → s.1.lease = some i) p s := by
  refine (Contract.safe_of_within (P := OffStore) (J := fun s => leased → s.1.lease = some i)
    (fun op s s₁ hop hs hrely => ?_) trivial h hs).mono (fun _ _ h => h.2) fun _ _ h => h
  refine ⟨?_, fun answer s₂ hresp => ?_⟩
  · cases op <;> first | trivial | exact absurd trivial hop
  · obtain ⟨hguar, hkept⟩ := guarantee_of_responds hresp
    refine ⟨hguar, fun hleased => hkept (fun heq => ?_) (hrely.1 (hs hleased))⟩
    rw [heq] at hop
    exact hop trivial

/-- An audit under the lease keeps it, whatever the store answers. -/
lemma safe_audit {step : AuditStep}
    {post : RunData → SharedRun ι × List (Event cleanupInterface ι) → Prop}
    (hs : s.1.lease = some i)
    (hstart : ∀ expected record, step = .start expected record → InProgress record)
    (hpost : ∀ (saved : Saved) (s₁ s₂ : SharedRun ι × List (Event cleanupInterface ι)),
      s₂.1.lease = some i → s₂.2 = s₁.2 ++ [⟨i, .audit step, StoreAnswer.committed saved⟩] →
        post saved.run s₂) :
    (contract py store name i).Safe post (fun _ s => s.1.lease = some i)
      (Cleanup.audit step) s := by
  intro s₁ hrely
  have hlease := hrely.1 hs
  refine ⟨?_, fun answer s₂ hresp => ?_⟩
  · cases step with
    | start expected record => exact ⟨hlease, hstart expected record rfl⟩
    | _ => exact hlease
  · obtain ⟨hguar, hkept⟩ := guarantee_of_responds hresp
    have hnext := hkept (fun heq => by cases heq) hlease
    refine ⟨hguar, ?_⟩
    cases answer with
    | committed saved => exact hpost saved s₁ s₂ hnext hresp.2
    | _ => exact hnext

lemma inProgress_toJson (record : CleanupRecord) :
    InProgress { record with status := .inProgress }.toJson :=
  ⟨rfl, rfl⟩

lemma safe_beginCleanupAudit {run : RunData} {record : CleanupRecord}
    (hs : s.1.lease = some i) :
    (contract py store name i).Safe (fun _ s => s.1.lease = some i)
      (fun _ s => s.1.lease = some i) (CleanupAudit.beginCleanupAudit run record) s := by
  refine safe_audit hs (fun expected record' heq => ?_) fun _ _ _ h _ => h
  cases heq
  exact inProgress_toJson record

/-- The end of an audit: the saved run is audited, unless there is an error in its record. -/
lemma safe_finishCleanupAudit {run : RunData} {record : CleanupRecord}
    (hs : s.1.lease = some i) :
    (contract py store name i).Safe
      (fun result s => s.1.lease = some i ∧ (result.2.errors = [] → Audited i result.1 s.2))
      (fun _ s => s.1.lease = some i) (CleanupAudit.finishCleanupAudit run record) s := by
  unfold CleanupAudit.finishCleanupAudit
  refine Contract.Safe.bind (M := fun result s => s.1.lease = some i ∧ ∀ saved, result = .ok saved →
    record.errors = [] → Audited i saved s.2) (E := fun _ _ => False)
    (Contract.safe_attempt_iff.2 ?_) ?_ fun _ _ h => h.elim
  · refine (safe_audit hs (fun _ _ heq => by cases heq) fun saved s₁ s₂ hlease hevents => ?_).mono
      (fun _ _ h => h) fun _ _ h => ⟨h, fun _ heq => by cases heq⟩
    refine ⟨hlease, ?_⟩
    rintro _ ⟨⟩ herrors
    refine ⟨run, record, saved, herrors, rfl, ?_⟩
    rw [hevents]
    exact List.mem_append_right _ (List.mem_singleton_self _)
  · rintro result s' ⟨hlease, haudited⟩
    split
    · next saved => exact ⟨hlease, haudited saved rfl⟩
    · refine (safe_audit hlease (fun _ _ heq => by cases heq)
        fun saved s₁ s₂ hlease _ => ?_).bind (fun _ _ h => h) fun _ _ h => h
      refine ⟨hlease, fun herrors => ?_⟩
      simp [CleanupRecord.storeError] at herrors
    · exact hlease

lemma safe_deleteAuditedRun {run : RunData} {record : CleanupRecord} (hs : s.1.lease = some i)
    (haudited : Audited i run s.2) :
    (contract py store name i).Safe (fun _ s => s.1.lease = some i)
      (fun _ s => s.1.lease = some i) (CleanupAudit.deleteAuditedRun run record) s := by
  intro s₁ hrely
  have hlease := hrely.1 hs
  refine ⟨⟨hlease, haudited.mono hrely.2⟩, fun answer s₂ hresp => ?_⟩
  obtain ⟨hguar, hkept⟩ := guarantee_of_responds hresp
  have hnext := hkept (fun heq => by cases heq) hlease
  refine ⟨hguar, ?_⟩
  change (contract py store name i).Safe _ _ (CleanupAudit.afterDeletion record answer) s₂
  unfold CleanupAudit.afterDeletion
  split
  · exact hnext
  · dsimp only
    split_ifs
    · exact (safe_audit hnext (fun _ _ heq => by cases heq)
        fun _ _ _ h _ => h).bind (fun _ _ h => h) fun _ _ h => h
    · exact hnext
  · exact hnext

lemma safe_execute {supported : Bool} {run : RunData} {plan : CleanupPlan} {preflight : Preflight}
    {projectPlans : List ProjectPlan} {request : RunCleanupRequest} (hs : s.1.lease = some i) :
    (contract py store name i).Safe (fun _ s => s.1.lease = some i)
      (fun _ s => s.1.lease = some i)
      (execute supported run plan preflight projectPlans request) s := by
  refine (safe_beginCleanupAudit hs).bind (fun baseline s hs => ?_) fun _ _ h => h
  refine (safe_offStore offStore_removeResources fun _ : True => hs).bind
    (fun record s hs => ?_) fun _ _ h => h trivial
  replace hs := hs trivial
  refine (safe_finishCleanupAudit hs).bind ?_ fun _ _ h => h
  rintro ⟨auditedRun, record⟩ s ⟨hs, haudited⟩
  refine Contract.Safe.bind (M := fun _ s => s.1.lease = some i)
    (E := fun _ s => s.1.lease = some i) ?_ (fun _ _ h => h) fun _ _ h => h
  unfold deleteRunStore
  split_ifs with hdelete
  · rw [Bool.and_eq_true, List.isEmpty_iff] at hdelete
    exact safe_deleteAuditedRun hs (haudited hdelete.2)
  · exact hs

/-- A cleanup from the plan on: what it writes it writes under the lease. -/
lemma safe_applyPlan {supported : Bool} {run : RunData} {plan : CleanupPlan}
    {request : RunCleanupRequest} (hs : request.apply = true → s.1.lease = some i) :
    (contract py store name i).Safe (fun _ s => request.apply = true → s.1.lease = some i)
      (fun _ s => request.apply = true → s.1.lease = some i)
      (applyPlan py supported run plan request) s := by
  refine (safe_offStore (offStore_of_looks CleanupPreflight.looks_preflightCleanup) hs).bind
    (fun preflight s hs => ?_) fun _ _ h => h
  refine (safe_offStore offStore_previewProjectMetadata hs).bind ?_ fun _ _ h => h
  rintro ⟨projectPlans, projectPreflightFailed, previewRecord⟩ s hs
  dsimp only
  by_cases happly : request.apply = true
  · rw [happly, if_neg (by decide)]
    split_ifs
    · exact fun _ => hs happly
    · exact (safe_execute (hs happly)).mono (fun _ _ h _ => h) fun _ _ h _ => h
  · have hfalse : (!request.apply) = true := by simpa using happly
    rw [if_pos hfalse]
    exact hs

lemma safe_cleanupUnleased {supported : Bool} {request : RunCleanupRequest}
    (hs : request.apply = true → s.1.lease = some i) :
    (contract py store name i).Safe (fun _ s => request.apply = true → s.1.lease = some i)
      (fun _ s => request.apply = true → s.1.lease = some i)
      (cleanupUnleased py supported request) s := by
  intro s₁ hrely
  refine ⟨trivial, fun answer s₂ hresp => ?_⟩
  obtain ⟨hguar, hkept⟩ := guarantee_of_responds hresp
  have hnext : request.apply = true → s₂.1.lease = some i := fun happly =>
    hkept (fun heq => by cases heq) (hrely.1 (hs happly))
  refine ⟨hguar, Contract.safe_ofExcept_bind (fun run _ => ?_) fun _ _ => hnext⟩
  split_ifs
  · exact hnext
  · exact Contract.safe_ofExcept_bind (fun plan _ => safe_applyPlan hnext) fun _ _ => hnext

theorem safe_cleanup (supported : Bool) (request : RunCleanupRequest) :
    (contract py store name i).Safe (fun _ _ => True) (fun _ _ => True)
      (cleanup py supported request) s := by
  unfold cleanup
  split_ifs with happly
  · intro s₁ hrely
    refine ⟨trivial, fun answer s₂ hresp => ?_⟩
    obtain ⟨hguar, -⟩ := guarantee_of_responds hresp
    refine ⟨hguar, Contract.safe_ofExcept_bind (fun acquired hacquired => ?_) fun _ _ => trivial⟩
    have hlease : s₂.1.lease = some i := by
      rw [hacquired] at hresp
      rw [hresp.1.2]
    refine Contract.Safe.bind (M := fun _ _ => True) (E := fun _ _ => True)
      (Contract.safe_attempt_iff.2 ?_) (fun result s _ => ?_) fun _ _ h => h
    · exact (safe_cleanupUnleased fun _ => hlease).mono (fun _ _ _ => trivial) fun _ _ _ => trivial
    · intro s₁ _
      refine ⟨trivial, fun answer s₂ hresp => ⟨(guarantee_of_responds hresp).1, ?_⟩⟩
      refine Contract.safe_ofExcept_bind (fun _ _ => ?_) fun _ _ => trivial
      rw [Contract.safe_ofExcept]
      split <;> trivial
  · exact (safe_cleanupUnleased fun h => absurd h happly).mono (fun _ _ _ => trivial)
      fun _ _ _ => trivial

theorem safe_of_isProcess {p : Cleanup Unit} (h : IsCleanup py p ∨ IsCommand p) :
    (contract py store name i).Safe (fun _ _ => True) (fun _ _ => True) p s := by
  rcases h with ⟨supported, request, steps, rfl⟩ | h
  · refine (Contract.safe_upTo (J := fun _ => True) (fun _ _ _ _ _ => trivial)
      (fun _ _ _ _ _ _ => trivial) (safe_cleanup supported request) trivial steps).bind
        (fun _ s _ => ?_) fun _ _ h => h
    intro s₁ _
    exact ⟨trivial, fun answer s₂ hresp => ⟨(guarantee_of_responds hresp).1, trivial⟩⟩
  · have hwithin : p.Within CommandOp fun _ => True := h
    refine (Contract.safe_of_within (P := CommandOp) (J := fun _ => True)
      (fun op s s₁ hop _ _ => ⟨?_, fun answer s₂ hresp =>
        ⟨(guarantee_of_responds hresp).1, trivial⟩⟩) trivial hwithin trivial).mono
        (fun _ _ _ => trivial) fun _ _ _ => trivial
    cases op <;> first | exact hop | trivial

/-! ## Runs -/

variable {start c c' : Config cleanupInterface PyError Unit ι (SharedRun ι)}
  {es : List (Event cleanupInterface ι)} {e : Event cleanupInterface ι}

theorem allowed_of_runs (hprograms : ∀ i, IsCleanup py (start.program i) ∨
      IsCommand (start.program i))
    (hrun : Runs (Config.Fires (surroundings py store name)) start es c)
    (hfires : Config.Fires (surroundings py store name) c e c') :
    Allowed e.thread e.op (c.state, es) := by
  have hcompat : Contract.Compatible (ε := PyError) (α := Unit)
      (surroundings py store name).recording (contract (ι := ι) py store name)
        fun _ _ _ => True := by
    refine ⟨fun c e c' hfires _ => hfires.answered, ?_⟩
    rintro c e c' hfires ⟨hlease, hevents⟩ - j hj op -
    exact ⟨hlease j hj, hevents⟩
  have hrecorded := Config.runs_recording (hrun.mono fun _ _ _ h =>
    (⟨h, trivial⟩ : Config.Fires (surroundings py store name) _ _ _ ∧ True))
  exact Contract.waits_of_runs hcompat (fun i => safe_of_isProcess (hprograms i)) hrecorded
    hfires.pending

lemma runs_allowed (hprograms : ∀ i, IsCleanup py (start.program i) ∨
      IsCommand (start.program i))
    (hrun : Runs (Config.Fires (surroundings py store name)) start es c) :
    Runs (fun c e c' => Config.Fires (surroundings py store name) c e c' ∧
      ∃ es, Allowed e.thread e.op (c.state, es)) start es c := by
  induction hrun with
  | nil => exact .nil
  | snoc hprev hfires ih => exact ih.snoc ⟨hfires, _, allowed_of_runs hprograms hprev hfires⟩

lemma named_of_fires (hfires : Config.Fires (surroundings py store name) c e c')
    (hallowed : Allowed e.thread e.op (c.state, es))
    (hnamed : Named py store name c.state.directory) : Named py store name c'.state.directory := by
  obtain ⟨i, op, answer⟩ := e
  have hchanges := changes_of_surroundings hfires.answered
  generalize c.state = s, c'.state = s' at hchanges hallowed hnamed ⊢
  cases hchanges with
  | updated hsaved hupdate => exact named_applyTo hnamed hallowed hupdate
  | audited hsaved hupdate => exact named_applyTo hnamed (keepsName_mutator _) hupdate
  | deleted hdelete =>
    obtain ⟨hpath, rfl, -⟩ := deleteRun_eq_ok hdelete
    exact fun run hload => absurd hload (not_loadRun_of_deleted hpath)
  | _ => exact hnamed

/-- The start of an audit is written. -/
def Opens (e : Event cleanupInterface ι) (saved : Saved) : Prop :=
  ∃ i expected record answer, e = ⟨i, .audit (.start expected record), answer⟩ ∧
    StoreAnswer.saved? answer = some saved

/-- The end of an audit, or an error of the store, is written. -/
def Closes (e : Event cleanupInterface ι) : Prop :=
  ∃ i step answer saved, e = ⟨i, .audit step, answer⟩ ∧ StoreAnswer.saved? answer = some saved ∧
    ∀ expected record, step ≠ .start expected record

lemma fenced_of_opens (hfires : Config.Fires (surroundings py store name) c e c')
    (hallowed : Allowed e.thread e.op (c.state, es))
    (hnamed : Named py store name c.state.directory) (hopens : Opens e saved) :
    c'.state.directory name = some saved.content ∧ c'.state.lease = some e.thread ∧
      Fenced py store name c'.state.directory := by
  obtain ⟨i, expected, record, answer, rfl, hsaved⟩ := hopens
  have hupdates : Updates py store name (AuditStep.start expected record).mutator true c.state
      answer c'.state := hfires.answered
  unfold Updates at hupdates
  rw [hsaved] at hupdates
  obtain ⟨hupdate, hstate⟩ := hupdates
  obtain ⟨hpath, -⟩ := updateRun_of_keepsName hnamed (keepsName_mutator _) hupdate
  rw [hstate]
  refine ⟨?_, hallowed.1, fenced_applyTo hnamed hallowed.2 hupdate⟩
  show saved.applyTo c.state.directory name = some saved.content
  rw [Saved.applyTo, hpath, Function.update_self]

/-- A fenced run stays fenced until an audit is closed. -/
lemma fenced_of_fires (hfires : Config.Fires (surroundings py store name) c e c')
    (hallowed : Allowed e.thread e.op (c.state, es))
    (hnamed : Named py store name c.state.directory)
    (hfenced : Fenced py store name c.state.directory) (hopen : ¬ Closes e) :
    Fenced py store name c'.state.directory := by
  obtain ⟨i, op, answer⟩ := e
  have hchanges := changes_of_surroundings hfires.answered
  generalize c.state = s, c'.state = s' at hchanges hallowed hnamed hfenced ⊢
  cases hchanges with
  | updated hsaved hupdate => exact absurd hupdate (not_updateRun_of_fenced hfenced)
  | @audited _ _ step saved answer hsaved hupdate =>
    cases step with
    | start expected record => exact fenced_applyTo hnamed hallowed.2 hupdate
    | _ => exact absurd ⟨_, _, _, _, rfl, hsaved, fun _ _ heq => by cases heq⟩ hopen
  | deleted hdelete =>
    obtain ⟨hpath, rfl, -⟩ := deleteRun_eq_ok hdelete
    exact fun run hload => absurd hload (not_loadRun_of_deleted hpath)
  | _ => exact hfenced

variable {front middle : List (Event cleanupInterface ι)}

/-- After a run that begins under its own name, and the start of an audit. -/
lemma runs_of_opens (hnamed : Named py store name start.state.directory)
    (hprograms : ∀ i, IsCleanup py (start.program i) ∨ IsCommand (start.program i))
    (hrun : Runs (Config.Fires (surroundings py store name)) start (front ++ e :: middle) c)
    (hopens : Opens e saved) :
    ∃ opened, opened.state.directory name = some saved.content ∧
      opened.state.lease = some e.thread ∧ Named py store name opened.state.directory ∧
      Fenced py store name opened.state.directory ∧
      Runs (fun c e c' => Config.Fires (surroundings py store name) c e c' ∧
        ∃ es, Allowed e.thread e.op (c.state, es)) opened middle c := by
  obtain ⟨before, hfront, hback⟩ := (runs_allowed hprograms hrun).split
  have hbefore : Named py store name before.state.directory :=
    hfront.invariant hnamed fun c e c' hstep hnamed =>
      named_of_fires hstep.1 hstep.2.choose_spec hnamed
  obtain ⟨opened, ⟨hfires, _, hallowed⟩, hmiddle⟩ := hback.first
  obtain ⟨hcontent, hlease, hfenced⟩ := fenced_of_opens hfires hallowed hbefore hopens
  exact ⟨opened, hcontent, hlease, named_of_fires hfires hallowed hbefore, hfenced, hmiddle⟩

/-- From the start of an audit on, until the end of one is written, no update of another command
gets through; also if the cleanup is killed. -/
theorem fenced_of_runs (front middle : List (Event cleanupInterface ι))
    (hnamed : Named py store name start.state.directory)
    (hprograms : ∀ i, IsCleanup py (start.program i) ∨ IsCommand (start.program i))
    {i : ι} {answer : StoreAnswer}
    (hrun : Runs (Config.Fires (surroundings py store name)) start
      (front ++ e :: (middle ++ [⟨i, .updateRun mutator, answer⟩])) c)
    (hopens : Opens e saved) (hopen : ∀ g ∈ middle, ¬ Closes g) : answer.saved? = none := by
  obtain ⟨opened, -, -, hopenedNamed, hfenced, hback⟩ := runs_of_opens hnamed hprograms hrun hopens
  obtain ⟨last, hmiddle, hlast, -⟩ := hback.last
  have hinvariant := hmiddle.invariant_of_mem
    (J := fun c => Named py store name c.state.directory ∧ Fenced py store name c.state.directory)
    ⟨hopenedNamed, hfenced⟩ fun c g c' hg hstep hJ =>
      ⟨named_of_fires hstep.1 hstep.2.choose_spec hJ.1,
        fenced_of_fires hstep.1 hstep.2.choose_spec hJ.1 hJ.2 (hopen g hg)⟩
  have hupdates : Updates py store name mutator false last.state answer c.state := hlast.answered
  unfold Updates at hupdates
  cases hsaved : answer.saved? with
  | none => rfl
  | some saved =>
    rw [hsaved] at hupdates
    exact absurd hupdates.1 (not_updateRun_of_fenced hinvariant.2)

/-- While one process has the lease and a cleanup is in progress, a step of another changes
neither. -/
lemma eq_of_fires_other {s : SharedRun ι} {i : ι}
    (hfires : Config.Fires (surroundings py store name) c e c')
    (hallowed : Allowed e.thread e.op (c.state, es)) (hlease : c.state.lease = some i)
    (hfenced : Fenced py store name c.state.directory) (hne : e.thread ≠ i)
    (hs : c.state = s) : c'.state = s := by
  obtain ⟨j, op, answer⟩ := e
  have hchanges := changes_of_surroundings hfires.answered
  have hother : some i ≠ some j := fun heq => hne (Option.some.inj heq).symm
  generalize c.state = s₀, c'.state = s' at hchanges hallowed hlease hfenced hs ⊢
  subst hs
  cases hchanges with
  | quiet => rfl
  | acquired hfree =>
    rw [hlease] at hfree
    cases hfree
  | released =>
    rw [hlease, if_neg hother, ← hlease]
  | updated hsaved hupdate => exact absurd hupdate (not_updateRun_of_fenced hfenced)
  | @audited _ _ step _ _ hsaved hupdate =>
    have hown : s₀.lease = some j := by
      cases step with
      | start expected record => exact hallowed.1
      | _ => exact hallowed
    rw [hlease] at hown
    exact absurd hown hother
  | deleted hdelete =>
    have hown : s₀.lease = some j := hallowed.1
    rw [hlease] at hown
    exact absurd hown hother

/-- From the start of an audit on, until the cleanup comes back to the store or gives its lease
back, the file of the run holds what the cleanup has written, and no other cleanup gets the
lease. -/
theorem untouched_of_runs (front middle : List (Event cleanupInterface ι))
    (hnamed : Named py store name start.state.directory)
    (hprograms : ∀ i, IsCleanup py (start.program i) ∨ IsCommand (start.program i))
    (hrun : Runs (Config.Fires (surroundings py store name)) start (front ++ e :: middle) c)
    (hopens : Opens e saved)
    (hown : ∀ g ∈ middle, g.thread = e.thread → ¬ CleanupOp.OnStore g.op) :
    c.state.directory name = some saved.content ∧ c.state.lease = some e.thread := by
  obtain ⟨opened, hcontent, hlease, -, hfenced, hmiddle⟩ :=
    runs_of_opens hnamed hprograms hrun hopens
  have hsame := hmiddle.invariant_of_mem (J := fun c => c.state = opened.state) rfl
    fun c g c' hg hstep hstate => by
      obtain ⟨hfires, _, hallowed⟩ := hstep
      by_cases hthread : g.thread = e.thread
      · have hquiet := (changes_of_surroundings hfires.answered).eq_of_offStore
          (hown g hg hthread)
        exact hquiet.trans hstate
      · exact eq_of_fires_other hfires hallowed (hstate ▸ hlease) (hstate ▸ hfenced) hthread hstate
  rw [hsame]
  exact ⟨hcontent, hlease⟩

/-- The run is deleted only while it is the run that the deleting cleanup has saved at the end of an
audit without errors. -/
theorem audited_of_deletes {i : ι} {expected : RunData} {answer : Except PyError Unit}
    (hprograms : ∀ i, IsCleanup py (start.program i) ∨ IsCommand (start.program i))
    (hrun : Runs (Config.Fires (surroundings py store name)) start es c)
    (hfires : Config.Fires (surroundings py store name) c ⟨i, .deleteRun expected, answer⟩ c')
    (hdeleted : c'.state.directory ≠ c.state.directory) :
    Audited i expected es ∧ c.state.lease = some i ∧
      (∃ run, store.loadRun py c.state.directory name = .ok run ∧ run.pyEq expected = true) ∧
      c'.state.directory = Function.update c.state.directory name none := by
  obtain ⟨hlease, haudited⟩ := allowed_of_runs hprograms hrun hfires
  have hchanges := changes_of_surroundings hfires.answered
  generalize c.state = s, c'.state = s' at hchanges hdeleted hlease ⊢
  cases hchanges with
  | quiet => exact absurd rfl hdeleted
  | deleted hdelete =>
    obtain ⟨-, hdirectory, hcurrent⟩ := deleteRun_eq_ok hdelete
    exact ⟨haudited, hlease, hcurrent, hdirectory⟩

/-! ## A cleanup and another command -/

variable (py store name) in
/-- What a store without failures answers to an update. -/
def replyToUpdate (s : SharedRun ι) (mutator : Mutator) (allowCleanupInProgress : Bool) :
    StoreAnswer × SharedRun ι :=
  match store.updateRun py s.directory name mutator allowCleanupInProgress with
  | .ok saved => (.committed saved, { s with directory := saved.applyTo s.directory })
  | .error e => (.rejected e, s)

variable (py store name) in
/-- What a store without failures answers to a request. -/
def reply (i : ι) (s : SharedRun ι) (op : CleanupOp) : Option (op.Answer × SharedRun ι) :=
  match op with
  | .acquireLease =>
    if s.lease = none then some (.ok (), { s with lease := some i }) else none
  | .loadRun => some (store.loadRun py s.directory name, s)
  | .updateRun mutator => some (replyToUpdate py store name s mutator false)
  | .audit step => some (replyToUpdate py store name s step.mutator true)
  | .deleteRun run =>
    match store.deleteRun py s.directory name (some run) with
    | .ok directory => some (.ok (), { s with directory := directory })
    | .error e => some (.error e, s)
  | _ => none

omit [DecidableEq ι] in
lemma updates_of_replyToUpdate {s s' : SharedRun ι} {answer : StoreAnswer}
    (h : replyToUpdate py store name s mutator allowCleanupInProgress = (answer, s')) :
    Updates py store name mutator allowCleanupInProgress s answer s' := by
  unfold replyToUpdate at h
  split at h
  · next saved hsaved =>
    cases h
    exact ⟨hsaved, rfl⟩
  · cases h
    rfl

lemma surroundings_of_reply {s s' : SharedRun ι} {i : ι} {op : CleanupOp} {answer : op.Answer}
    (h : reply py store name i s op = some (answer, s')) :
    surroundings py store name i s op answer s' := by
  cases op with
  | acquireLease =>
    change (if s.lease = none then _ else _) = _ at h
    split_ifs at h with hfree
    cases h
    exact ⟨hfree, rfl⟩
  | loadRun =>
    cases h
    exact ⟨rfl, fun _ heq => heq⟩
  | updateRun mutator => exact updates_of_replyToUpdate (Option.some.inj h)
  | audit step => exact updates_of_replyToUpdate (Option.some.inj h)
  | deleteRun run =>
    unfold reply at h
    dsimp only at h
    split at h
    · next directory hdelete =>
      cases h
      exact ⟨directory, hdelete, rfl⟩
    · cases h
      exact .inl rfl
  | _ => cases h

/-- A cleanup that deletes the record of the run, and a command that saves the run as it is. -/
def cleanupAndCommand : Config cleanupInterface PyError Unit Bool (SharedRun Bool) where
  state := { directory := oneFile "a" "a", lease := none }
  program i :=
    if i then killed (RunCleanup.cleanup plainInterpreter true
      { name := "a", runStore := true, apply := true }) 8
    else .call (.updateRun untouched) fun _ => .done ()

/-- A turn of one of the processes. -/
def turn (i : Bool) : Config.Turn cleanupInterface Bool (SharedRun Bool) :=
  ⟨i, reply plainInterpreter ⟨"/store"⟩ "a" i⟩

lemma named_cleanupAndCommand :
    Named plainInterpreter ⟨"/store"⟩ "a" cleanupAndCommand.state.directory := by
  intro run hload
  cases hload
  rfl

lemma isProcess_cleanupAndCommand (i : Bool) :
    IsCleanup plainInterpreter (cleanupAndCommand.program i) ∨
      IsCommand (cleanupAndCommand.program i) := by
  cases i with
  | true => exact .inl ⟨_, _, _, rfl⟩
  | false => exact .inr ⟨fun run _ h => by cases h; rfl, fun _ => trivial⟩

lemma runs_of_turns {turns : List Bool} {es : List (Event cleanupInterface Bool)}
    {c : Config cleanupInterface PyError Unit Bool (SharedRun Bool)}
    (h : cleanupAndCommand.play (turns.map turn) = some (es, c)) :
    Runs (Config.Fires (surroundings plainInterpreter ⟨"/store"⟩ "a")) cleanupAndCommand es c := by
  refine Config.runs_of_play (fun t ht s op answer s' hreply => ?_) h
  obtain ⟨i, -, rfl⟩ := List.mem_map.1 ht
  exact surroundings_of_reply hreply

theorem fenced_cleanupAndCommand : ∃ first second expected record saved e c,
    Runs (Config.Fires (surroundings plainInterpreter ⟨"/store"⟩ "a")) cleanupAndCommand
      ([first, second] ++ ⟨true, .audit (.start expected record), StoreAnswer.committed saved⟩ ::
        ([] ++ [⟨false, .updateRun untouched, StoreAnswer.rejected e⟩])) c ∧
      (StoreAnswer.rejected e).saved? = none := by
  have hplayed : ∃ first second expected record saved e c,
      cleanupAndCommand.play ([true, true, true, false].map turn) =
        some ([first, second, ⟨true, .audit (.start expected record), StoreAnswer.committed saved⟩,
          ⟨false, .updateRun untouched, StoreAnswer.rejected e⟩], c) :=
    ⟨_, _, _, _, _, _, _, rfl⟩
  obtain ⟨first, second, expected, record, saved, e, c, hplayed⟩ := hplayed
  have hrun := runs_of_turns hplayed
  have hopens : Opens (⟨true, .audit (.start expected record), StoreAnswer.committed saved⟩ :
      Event cleanupInterface Bool) saved := ⟨_, _, _, .committed saved, rfl, rfl⟩
  exact ⟨first, second, expected, record, saved, e, c, hrun,
    fenced_of_runs [first, second] [] named_cleanupAndCommand isProcess_cleanupAndCommand hrun hopens
      fun _ h => absurd h List.not_mem_nil⟩

theorem untouched_cleanupAndCommand : ∃ first second expected record saved e c,
    Runs (Config.Fires (surroundings plainInterpreter ⟨"/store"⟩ "a")) cleanupAndCommand
      ([first, second] ++ ⟨true, .audit (.start expected record), StoreAnswer.committed saved⟩ ::
        [⟨false, .updateRun untouched, StoreAnswer.rejected e⟩]) c ∧
      c.state.directory "a" = some saved.content ∧ c.state.lease = some true := by
  have hplayed : ∃ first second expected record saved e c,
      cleanupAndCommand.play ([true, true, true, false].map turn) =
        some ([first, second, ⟨true, .audit (.start expected record), StoreAnswer.committed saved⟩,
          ⟨false, .updateRun untouched, StoreAnswer.rejected e⟩], c) :=
    ⟨_, _, _, _, _, _, _, rfl⟩
  obtain ⟨first, second, expected, record, saved, e, c, hplayed⟩ := hplayed
  have hrun := runs_of_turns hplayed
  have hopens : Opens (⟨true, .audit (.start expected record), StoreAnswer.committed saved⟩ :
      Event cleanupInterface Bool) saved := ⟨_, _, _, .committed saved, rfl, rfl⟩
  refine ⟨first, second, expected, record, saved, e, c, hrun,
    untouched_of_runs [first, second] _ named_cleanupAndCommand isProcess_cleanupAndCommand hrun
      hopens fun g hg hthread => ?_⟩
  obtain rfl := List.mem_singleton.1 hg
  cases hthread

theorem audited_cleanupAndCommand : ∃ es expected c c',
    Runs (Config.Fires (surroundings plainInterpreter ⟨"/store"⟩ "a")) cleanupAndCommand es c ∧
      Config.Fires (surroundings plainInterpreter ⟨"/store"⟩ "a") c
        ⟨true, .deleteRun expected, (.ok () : Except PyError Unit)⟩ c' ∧
      Audited true expected es ∧ c'.state.directory "a" = none := by
  have hplayed : ∃ first second third fourth expected c,
      cleanupAndCommand.play ([true, true, true, true, true].map turn) =
        some ([first, second, third, fourth,
          ⟨true, .deleteRun expected, (.ok () : Except PyError Unit)⟩], c) ∧
        c.state.directory "a" = none := ⟨_, _, _, _, _, _, rfl, rfl⟩
  obtain ⟨first, second, third, fourth, expected, c', hplayed, hgone⟩ := hplayed
  have hrun : Runs _ _ ([first, second, third, fourth] ++ [_]) c' := runs_of_turns hplayed
  obtain ⟨c, hbefore, hfires⟩ := hrun.last
  have hchanged : c'.state.directory ≠ c.state.directory := by
    intro heq
    obtain ⟨directory, hdelete, -⟩ := hfires.answered
    obtain ⟨hpath, -, run, hload, -⟩ := deleteRun_eq_ok hdelete
    have hsame : Function.update c.state.directory "a" none = c.state.directory := by
      rw [← hgone, heq, Function.update_eq_self]
    exact not_loadRun_of_deleted hpath (hsame ▸ hload)
  exact ⟨_, expected, c, c', hbefore, hfires,
    (audited_of_deletes isProcess_cleanupAndCommand hbefore hfires hchanged).1, hgone⟩

end Contract

end SharedRun

end OpencodeSession
