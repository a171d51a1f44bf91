import Mathlib.Data.List.Dedup
import OpencodeSession.Cleanup.ProjectCopies
import OpencodeSession.Framework.Exceptions
import OpencodeSession.Framework.RelyGuarantee

/-!
# The scope of a refresh

A refresh drops the metadata of every missing directory of a project, also of those that no plan is
about.  What a run has planned is frozen before it is applied; the server and the file system go on.
Whatever they are like when a plan is applied, a refresh is asked for only when each missing
directory of the project is planned by one of the plans, and a workspace is deleted only when it is
still the one that was planned and its directory is missing (`permitted_of_runs`).  A preview asks
for neither (`looks_previewCleanup`).

A world is what a plan finds when it is applied.  What reads leaves it as it is.  Anything may have
changed before a plan, and anything may change with a refresh; the deletion of a workspace leaves
the other workspaces listed.
-/

namespace OpencodeSession

namespace ProjectCopies

open Process

variable (str : JsonValue → String)

/-! ## The surroundings -/

/-- The server and the file system. -/
structure ProjectWorld where
  /-- What the server answers to `GET /project`. -/
  projects : JsonValue
  /-- What the server lists for a project. -/
  directories : String → JsonValue
  /-- What the server answers to `GET /experimental/workspace`. -/
  workspaces : JsonValue
  /-- The path that a directory resolves to. -/
  normalize : JsonValue → String
  /-- Whether there is something at a path. -/
  present : String → Bool
  /-- The workspaces that the present client has asked to delete. -/
  asked : List String

namespace ProjectWorld

/-- The server lists a directory for a project. -/
def ListsDirectory (w : ProjectWorld) (projectId : String) (directory : JsonValue) : Prop :=
  ∃ records, directoryRecords (w.directories projectId) = .ok records ∧
    directory ∈ directoriesOf records

/-- The server lists a workspace. -/
def ListsWorkspace (w : ProjectWorld) (record : JsonValue) : Prop :=
  ∃ workspaces, records w.workspaces "workspaces" false = .ok workspaces ∧ record ∈ workspaces

/-- A directory that is not there. -/
def Missing (w : ProjectWorld) (directory : JsonValue) : Prop :=
  w.present (w.normalize directory) = false

end ProjectWorld

/-- The answers that the server and the file system can give, and what they leave. -/
def answered (w : ProjectWorld) (op : ProjectOp) (answer : op.Answer) (w' : ProjectWorld) : Prop :=
  match op, answer with
  | .connect _, _ => w'.asked = []
  | .listProjects, answer => w' = w ∧ ∀ data, answer = .ok data → data = w.projects
  | .listProjectDirectories projectId, answer =>
    w' = w ∧ ∀ data, answer = .ok data → data = w.directories projectId
  | .listWorkspaces, answer => w' = w ∧ ∀ data, answer = .ok data → data = w.workspaces
  | .refreshProjectCopies _, _ => w'.asked = w.asked
  | .deleteWorkspace workspaceId, _ => w'.asked = workspaceId :: w.asked ∧
    ∀ record, w.ListsWorkspace record → textOf str (record.get "id") ≠ workspaceId →
      w'.ListsWorkspace record
  | .normalizedDirectory directory, answer =>
    w' = w ∧ ∀ path, answer = .ok path → path = w.normalize directory
  | .pathExists path, answer => w' = w ∧ ∀ found, answer = .ok found → found = w.present path

/-! ## The property -/

/-- A directory is planned for a project by one of the plans. -/
def Planned (projectPlans : List ProjectPlan) (projectId path : String) : Prop :=
  ∃ projectPlan ∈ projectPlans, projectPlan.outcome.projectId = projectId ∧
    path ∈ projectPlan.outcome.plannedProjectDirectories

/-- A refresh may drop what is missing. -/
def RefreshAllowed (projectPlans : List ProjectPlan) (projectId : String) (w : ProjectWorld) :
    Prop :=
  ∀ directory, w.ListsDirectory projectId directory → w.Missing directory →
    Planned projectPlans projectId (w.normalize directory)

/-- The server still lists a workspace as it was planned. -/
def StillPlanned (projectId : String) (workspace : PlannedWorkspace) (w : ProjectWorld) : Prop :=
  ∃ record, w.ListsWorkspace record ∧ textOf str (record.get "id") = workspace.id ∧
    workspaceProjectId str record = some projectId ∧ (record.get "directory").isNull = false ∧
    w.normalize (record.get "directory") = workspace.directory

/-- A workspace may be deleted: it was planned, it still is what was planned unless it was asked for
before, and its directory is missing. -/
def DeletionAllowed (projectPlans : List ProjectPlan) (workspaceId : String) (w : ProjectWorld) :
    Prop :=
  ∃ projectPlan ∈ projectPlans, ∃ workspace ∈ projectPlan.outcome.plannedWorkspaces,
    workspace.id = workspaceId ∧
    (workspaceId ∉ w.asked → StillPlanned str projectPlan.outcome.projectId workspace w) ∧
    w.present workspace.directory = false

/-- What the plans permit to ask for. -/
def Permitted (projectPlans : List ProjectPlan) (op : ProjectOp) (w : ProjectWorld) : Prop :=
  match op with
  | .refreshProjectCopies projectId => RefreshAllowed projectPlans projectId w
  | .deleteWorkspace workspaceId => DeletionAllowed str projectPlans workspaceId w
  | _ => True

variable {str} {projectPlans : List ProjectPlan} {supported : List String} {w : ProjectWorld}
  {α : Type}

/-! ## What a request promises -/

/-- Nobody else moves while a plan is applied, and what is asked for is permitted. -/
def scope (str : JsonValue → String) (projectPlans : List ProjectPlan) :
    Contract projectInterface ProjectWorld where
  responds := answered str
  rely _ w w' := w' = w
  rely_refl _ _ := rfl
  rely_trans _ _ _ _ h h' := h'.trans h
  waits := Permitted str projectPlans
  guarantee _ _ _ _ := True
  mayCut := True

/-- What is safe whatever it raises. -/
abbrev Scoped (str : JsonValue → String) (projectPlans : List ProjectPlan)
    (post : α → ProjectWorld → Prop) (p : ProjectCleanup α) (w : ProjectWorld) : Prop :=
  (scope str projectPlans).Safe post (fun _ _ => True) p w

variable {post : α → ProjectWorld → Prop}

lemma scoped_call {op : ProjectOp} {k : op.Answer → ProjectCleanup α}
    (hwaits : Permitted str projectPlans op w)
    (h : ∀ answer w', answered str w op answer w' → Scoped str projectPlans post (k answer) w') :
    Scoped str projectPlans post (.call op k) w := by
  intro w₁ hrely
  have hsame : w₁ = w := hrely
  rw [hsame]
  exact ⟨hwaits, fun answer w' hanswer => ⟨trivial, h answer w' hanswer⟩⟩

lemma Scoped.bind {β : Type} {p : ProjectCleanup α} {f : α → ProjectCleanup β}
    {post' : β → ProjectWorld → Prop} (h : Scoped str projectPlans post p w)
    (hf : ∀ a w', post a w' → Scoped str projectPlans post' (f a) w') :
    Scoped str projectPlans post' (p >>= f) w :=
  Contract.Safe.bind h hf fun _ _ _ => trivial

lemma scoped_ofExcept {r : Except PyError α} (h : ∀ a, r = .ok a → post a w) :
    Scoped str projectPlans post (Process.ofExcept r) w := by
  cases r with
  | ok a => exact h a rfl
  | error e => trivial

/-! ## Reading -/

/-- A request that neither refreshes nor deletes. -/
def Looks : ProjectOp → Prop
  | .refreshProjectCopies _ | .deleteWorkspace _ => False
  | _ => True

lemma permitted_of_looks {op : ProjectOp} (h : Looks op) : Permitted str projectPlans op w := by
  cases op with
  | refreshProjectCopies projectId => exact h.elim
  | deleteWorkspace workspaceId => exact h.elim
  | _ => trivial

lemma scoped_of_looks {p : ProjectCleanup α} (h : p.Within Looks fun _ => True) :
    Scoped str projectPlans (fun _ _ => True) p w :=
  (Contract.safe_of_within (J := fun _ => True)
    (fun _ _ _ hop _ _ => ⟨permitted_of_looks hop, fun _ _ _ => ⟨trivial, trivial⟩⟩)
    trivial h trivial).mono (fun _ _ _ => trivial) fun _ _ _ => trivial

lemma scoped_normalizedDirectory {directory : JsonValue} :
    Scoped str projectPlans (fun path w' => w' = w ∧ directory.isNull = false ∧
      path = w.normalize directory) (normalizedDirectory directory) w := by
  unfold normalizedDirectory
  by_cases hnull : directory.isNull = true
  · rw [if_pos hnull]
    trivial
  · rw [if_neg hnull]
    refine scoped_call trivial fun answer w' hanswer => ?_
    obtain ⟨rfl, hpath⟩ := hanswer
    exact scoped_ofExcept fun path h => ⟨rfl, Bool.eq_false_iff.2 hnull, hpath path h⟩

lemma scoped_pathExists {path : String} :
    Scoped str projectPlans (fun found w' => w' = w ∧ found = w.present path)
      (pathExists path) w := by
  refine scoped_call trivial fun answer w' hanswer => ?_
  obtain ⟨rfl, hfound⟩ := hanswer
  exact scoped_ofExcept fun found h => ⟨rfl, hfound found h⟩

/-- Every path that is missing is found. -/
lemma scoped_missingPaths {paths : List JsonValue} :
    Scoped str projectPlans (fun missing w' => w' = w ∧
      ∀ path ∈ paths, w.Missing path → w.normalize path ∈ missing) (missingPaths paths) w := by
  unfold missingPaths
  refine Contract.safe_foldlM (J := fun front missing w' => w' = w ∧
    ∀ path ∈ front, w.Missing path → w.normalize path ∈ missing) ?_ ⟨rfl, by simp⟩
  rintro front path rest missing w' - ⟨rfl, hfound⟩
  refine scoped_normalizedDirectory.bind ?_
  rintro normalized w' ⟨rfl, -, rfl⟩
  refine scoped_pathExists.bind ?_
  rintro present w' ⟨rfl, rfl⟩
  by_cases hpresent : w'.present (w'.normalize path) = true
  · rw [if_pos hpresent]
    refine ⟨rfl, fun other hother hmissing => ?_⟩
    rcases List.mem_append.1 hother with hother | hother
    · exact hfound other hother hmissing
    · rw [List.mem_singleton.1 hother, ProjectWorld.Missing, hpresent] at hmissing
      cases hmissing
  · rw [if_neg hpresent]
    refine scoped_normalizedDirectory.bind ?_
    rintro again w' ⟨rfl, -, rfl⟩
    refine ⟨rfl, fun other hother hmissing => List.mem_append.2 ?_⟩
    rcases List.mem_append.1 hother with hother | hother
    · exact .inl (hfound other hother hmissing)
    · rw [List.mem_singleton.1 hother]
      exact .inr (List.mem_singleton_self _)

lemma scoped_requireRoute {routeName route : String} :
    Scoped str projectPlans (fun _ w' => w' = w)
      (Process.ofExcept (requireRoute supported routeName route)) w :=
  scoped_ofExcept fun _ _ => rfl

lemma scoped_listProjectDirectories {projectId : String} :
    Scoped str projectPlans (fun records w' => w' = w ∧
      directoryRecords (w.directories projectId) = .ok records)
      (listProjectDirectories supported projectId) w := by
  refine scoped_requireRoute.bind ?_
  rintro - w' rfl
  refine scoped_call trivial fun answer w'' hanswer => ?_
  obtain ⟨rfl, hdata⟩ := hanswer
  refine scoped_ofExcept fun records hrecords => ⟨rfl, ?_⟩
  cases answer with
  | error e => cases hrecords
  | ok data => exact hdata data rfl ▸ hrecords

lemma scoped_listWorkspaces {projectId : String} :
    Scoped str projectPlans (fun workspaces w' => w' = w ∧
      ∀ record ∈ workspaces, w.ListsWorkspace record ∧
        workspaceProjectId str record = some projectId)
      (listWorkspaces str supported projectId) w := by
  refine scoped_requireRoute.bind ?_
  rintro - w' rfl
  refine scoped_call trivial fun answer w'' hanswer => ?_
  obtain ⟨rfl, hdata⟩ := hanswer
  refine scoped_ofExcept fun listed hlisted => ⟨rfl, fun record hrecord => ?_⟩
  cases answer with
  | error e => cases hlisted
  | ok data =>
    obtain rfl := hdata data rfl
    obtain ⟨listed', hanswer, hlisted⟩ := Except.bind_eq_ok.1 hlisted
    cases hanswer
    obtain ⟨workspaces, hall, hsome⟩ := Except.bind_eq_ok.1 hlisted
    cases hsome
    obtain ⟨hmem, hproject⟩ := List.mem_filter.1 hrecord
    exact ⟨⟨workspaces, hall, hmem⟩, of_decide_eq_true hproject⟩

/-! ## Refreshing -/

lemma mem_sorted {names : List String} {name : String} :
    name ∈ Manifest.sorted names ↔ name ∈ names :=
  List.mem_insertionSort _

lemma planned_of_mem_allowedDirectories {projectId path : String}
    (h : path ∈ CleanupProjects.allowedDirectories projectPlans projectId) :
    Planned projectPlans projectId path := by
  rw [CleanupProjects.allowedDirectories, mem_sorted, List.mem_dedup, List.mem_flatMap] at h
  obtain ⟨projectPlan, hmem, hpath⟩ := h
  obtain ⟨hmem, hproject⟩ := List.mem_filter.1 hmem
  exact ⟨projectPlan, hmem, of_decide_eq_true hproject, hpath⟩

/-- What a frozen plan allows is planned. -/
lemma planned_of_mem_allowedRefresh {projectPlan : ProjectPlan} (hplan : projectPlan ∈ projectPlans)
    {outcome : ProjectOutcome} {path : String}
    (hallowed : outcome.allowedRefreshDirectories =
      some (CleanupProjects.allowedDirectories projectPlans projectPlan.outcome.projectId))
    (hplanned : outcome.plannedProjectDirectories = projectPlan.outcome.plannedProjectDirectories)
    (h : path ∈ allowedRefresh outcome) :
    Planned projectPlans projectPlan.outcome.projectId path := by
  unfold allowedRefresh at h
  split at h
  · next directory rest hsome =>
    rw [hallowed] at hsome
    exact planned_of_mem_allowedDirectories (Option.some.inj hsome ▸ h)
  · exact ⟨projectPlan, hplan, rfl, hplanned ▸ h⟩

/-- A step of the application of a plan leaves what is planned. -/
def KeepsPlan (outcome outcome' : ProjectOutcome) : Prop :=
  outcome'.projectId = outcome.projectId ∧
    outcome'.plannedWorkspaces = outcome.plannedWorkspaces

lemma KeepsPlan.trans {o o' o'' : ProjectOutcome} (h : KeepsPlan o o') (h' : KeepsPlan o' o'') :
    KeepsPlan o o'' :=
  ⟨h'.1.trans h.1, h'.2.trans h.2⟩

lemma keepsPlan_setField {outcome : ProjectOutcome} {name : String} {value : JsonValue}
    (h : name ≠ "planned_workspaces") : KeepsPlan outcome (outcome.setField name value) := by
  refine ⟨rfl, ?_⟩
  simp only [ProjectOutcome.plannedWorkspaces, ProjectOutcome.items, ProjectOutcome.field,
    ProjectOutcome.setField, Dict.lookup_insert_of_ne h]

lemma keepsPlan_appendItem {outcome : ProjectOutcome} {name : String} {item : JsonValue}
    (h : name ≠ "planned_workspaces") : KeepsPlan outcome (outcome.appendItem name item) :=
  keepsPlan_setField h

lemma keepsPlan_workspaceError {outcome : ProjectOutcome} {workspaceId error : String} :
    KeepsPlan outcome (outcome.workspaceError workspaceId error) :=
  keepsPlan_appendItem (by decide)

lemma scoped_requestRefresh {outcome : ProjectOutcome}
    (hallowed : RefreshAllowed projectPlans outcome.projectId w) :
    Scoped str projectPlans (fun outcome' _ => KeepsPlan outcome outcome')
      (requestRefresh outcome) w := by
  refine scoped_call hallowed fun answer w' _ => ?_
  rcases answer with error | _
  · by_cases herror : error.isOpenCodeApiError = true
    · simp only [if_pos herror]
      exact keepsPlan_appendItem (by decide)
    · simp only [if_neg herror]
      trivial
  · exact keepsPlan_setField (by decide)

lemma scoped_refreshUnlessUnrelated {outcome : ProjectOutcome} {unrelated : List String}
    (hallowed : unrelated = [] → RefreshAllowed projectPlans outcome.projectId w) :
    Scoped str projectPlans (fun outcome' _ => KeepsPlan outcome outcome')
      (refreshUnlessUnrelated supported outcome unrelated) w := by
  cases unrelated with
  | cons path rest => exact ⟨rfl, rfl⟩
  | nil =>
    by_cases hsupported : "project_copy_refresh" ∉ supported
    · simp only [refreshUnlessUnrelated, if_pos hsupported]
      exact ⟨rfl, rfl⟩
    · simp only [refreshUnlessUnrelated, if_neg hsupported]
      have hrequest : RefreshAllowed projectPlans
          { outcome with unrelatedStaleDirectories := [] }.projectId w := hallowed rfl
      exact scoped_requestRefresh hrequest

/-- A plan that allows nothing but planned directories asks for a refresh only if nothing else is
missing. -/
lemma scoped_refreshProjectCopies {outcome : ProjectOutcome}
    (hallowed : ∀ path ∈ allowedRefresh outcome, Planned projectPlans outcome.projectId path) :
    Scoped str projectPlans (fun outcome' _ => KeepsPlan outcome outcome')
      (refreshProjectCopies supported outcome) w := by
  unfold refreshProjectCopies
  refine scoped_listProjectDirectories.bind ?_
  rintro listed w ⟨rfl, hlisted⟩
  refine scoped_missingPaths.bind ?_
  rintro missing w ⟨rfl, hmissing⟩
  split_ifs
  · exact ⟨rfl, rfl⟩
  · refine scoped_refreshUnlessUnrelated fun hunrelated => ?_
    rintro directory ⟨records, hrecords, hdirectory⟩ habsent
    rw [hlisted] at hrecords
    cases hrecords
    refine hallowed _ (by_contra fun hnot => ?_)
    have hmem : w.normalize directory ∈ Manifest.sorted
        (missing.filter fun path => path ∉ allowedRefresh outcome).dedup :=
      mem_sorted.2 (List.mem_dedup.2 (List.mem_filter.2
        ⟨hmissing directory hdirectory habsent, decide_eq_true hnot⟩))
    rw [hunrelated] at hmem
    exact List.not_mem_nil hmem

/-! ## Deleting -/

/-- What is known of workspaces since they were listed for a project: those that were not asked for
are still listed. -/
def StillListed (str : JsonValue → String) (current : List JsonValue) (w : ProjectWorld) : Prop :=
  ∀ record ∈ current, textOf str (record.get "id") ∉ w.asked → w.ListsWorkspace record

lemma StillListed.of_deleteWorkspace {current : List JsonValue} {workspaceId : String}
    {answer : Except PyError Unit} {w' : ProjectWorld} (h : StillListed str current w)
    (hanswer : answered str w (.deleteWorkspace workspaceId) answer w') :
    StillListed str current w' := by
  obtain ⟨hasked, hothers⟩ := hanswer
  intro record hrecord hnot
  rw [hasked, List.mem_cons, not_or] at hnot
  exact hothers record (h record hrecord hnot.2) hnot.1

lemma currentWorkspace_eq_some {current : List JsonValue} {workspaceId : String}
    {record : JsonValue} (h : currentWorkspace str current workspaceId = some record) :
    record ∈ current ∧ textOf str (record.get "id") = workspaceId := by
  obtain ⟨hmem, hid⟩ := List.mem_filter.1 (List.mem_of_getLast? h)
  rw [Bool.and_eq_true, decide_eq_true_iff] at hid
  exact ⟨hmem, hid.2⟩

lemma scoped_currentDirectory {record : JsonValue} :
    Scoped str projectPlans (fun directory w' => w' = w ∧ ∀ path, directory = some path →
      (record.get "directory").isNull = false ∧ path = w.normalize (record.get "directory"))
      (currentDirectory record) w := by
  unfold currentDirectory
  split_ifs
  · exact ⟨rfl, fun _ h => nomatch h⟩
  · refine scoped_normalizedDirectory.bind ?_
    rintro path w' ⟨rfl, hnull, rfl⟩
    refine ⟨rfl, fun path' h => ⟨hnull, ?_⟩⟩
    cases h
    rfl

lemma scoped_requestDeletion {outcome : ProjectOutcome} {current : List JsonValue}
    {workspaceId : String} (hallowed : DeletionAllowed str projectPlans workspaceId w)
    (hlisted : StillListed str current w) :
    Scoped str projectPlans (fun outcome' w' => KeepsPlan outcome outcome' ∧
      StillListed str current w') (requestDeletion outcome workspaceId) w := by
  refine scoped_call hallowed fun answer w' hanswer => ?_
  have hlisted' := hlisted.of_deleteWorkspace hanswer
  rcases answer with error | _
  · by_cases herror : error.isOpenCodeApiError = true
    · simp only [if_pos herror]
      exact ⟨keepsPlan_workspaceError, hlisted'⟩
    · simp only [if_neg herror]
      trivial
  · exact ⟨keepsPlan_appendItem (by decide), hlisted'⟩

/-- One workspace of a plan is deleted only if it still is what was planned. -/
lemma scoped_removeWorkspace {projectPlan : ProjectPlan} (hplan : projectPlan ∈ projectPlans)
    {current : List JsonValue} {outcome : ProjectOutcome} {workspace : PlannedWorkspace}
    (hproject : outcome.projectId = projectPlan.outcome.projectId)
    (hworkspace : workspace ∈ projectPlan.outcome.plannedWorkspaces)
    (hlisted : StillListed str current w) :
    Scoped str projectPlans (fun outcome' w' => KeepsPlan outcome outcome' ∧
      StillListed str current w') (removeWorkspace str current outcome workspace) w := by
  unfold removeWorkspace
  cases hcurrent : currentWorkspace str current workspace.id with
  | none => exact ⟨⟨rfl, rfl⟩, hlisted⟩
  | some record =>
    obtain ⟨hmem, hid⟩ := currentWorkspace_eq_some hcurrent
    refine scoped_currentDirectory.bind ?_
    rintro directory w ⟨rfl, hdirectory⟩
    split_ifs with hchanged
    · exact ⟨keepsPlan_workspaceError, hlisted⟩
    · rw [not_or, not_not, not_not] at hchanged
      obtain ⟨hsame, hpath⟩ := hchanged
      obtain ⟨hnull, hnormal⟩ := hdirectory _ hpath
      refine scoped_pathExists.bind ?_
      rintro present w ⟨rfl, rfl⟩
      split_ifs with hpresent
      · exact ⟨keepsPlan_workspaceError, hlisted⟩
      · refine scoped_requestDeletion ?_ hlisted
        refine ⟨projectPlan, hplan, workspace, hworkspace, rfl, fun hnot => ?_,
          Bool.eq_false_iff.2 hpresent⟩
        exact ⟨record, hlisted record hmem (hid ▸ hnot), hid, hproject ▸ hsame, hnull,
          hnormal.symm⟩

/-- The workspaces of a plan. -/
lemma scoped_removeWorkspaces {projectPlan : ProjectPlan} (hplan : projectPlan ∈ projectPlans)
    {outcome : ProjectOutcome} (hkeeps : KeepsPlan projectPlan.outcome outcome) :
    Scoped str projectPlans (fun _ _ => True) (removeWorkspaces str supported outcome) w := by
  unfold removeWorkspaces
  split_ifs
  · trivial
  · refine scoped_listWorkspaces.bind ?_
    rintro current w ⟨rfl, hcurrent⟩
    have hloop : Scoped str projectPlans (fun outcome' w' => KeepsPlan outcome outcome' ∧
        StillListed str current w')
        (outcome.plannedWorkspaces.foldlM (removeWorkspace str current) outcome) w := by
      refine Contract.safe_foldlM (J := fun _ outcome' w' => KeepsPlan outcome outcome' ∧
        StillListed str current w') ?_
        ⟨⟨rfl, rfl⟩, fun record hrecord _ => (hcurrent record hrecord).1⟩
      rintro front workspace rest outcome' w' hitems ⟨hkeeps', hlisted⟩
      have hworkspace : workspace ∈ projectPlan.outcome.plannedWorkspaces := by
        rw [← hkeeps.2, hitems]
        exact List.mem_append_right _ (List.mem_cons_self ..)
      refine (scoped_removeWorkspace hplan (hkeeps'.1.trans hkeeps.1) hworkspace hlisted).mono ?_
        fun _ _ h => h
      exact fun outcome'' w'' h => ⟨hkeeps'.trans h.1, h.2⟩
    exact hloop.mono (fun _ _ _ => trivial) fun _ _ h => h
  · trivial

/-! ## Verifying and planning only look -/

lemma looks_ofExcept {r : Except PyError α} :
    (Process.ofExcept r : ProjectCleanup α).Within Looks fun _ => True :=
  within_ofExcept.2 fun _ _ => trivial

lemma looks_normalizedDirectory {directory : JsonValue} :
    (normalizedDirectory directory).Within Looks fun _ => True := by
  unfold normalizedDirectory
  split_ifs
  · trivial
  · exact ⟨trivial, fun _ => looks_ofExcept⟩

lemma looks_pathExists {path : String} : (pathExists path).Within Looks fun _ => True :=
  ⟨trivial, fun _ => looks_ofExcept⟩

lemma looks_connect {serverUrl : JsonValue} : (connect serverUrl).Within Looks fun _ => True :=
  ⟨trivial, fun _ => looks_ofExcept⟩

lemma looks_isStale {path : JsonValue} {directoryPrefix : String} {assumedMissing : List String} :
    (isStale path directoryPrefix assumedMissing).Within Looks fun _ => True := by
  refine looks_normalizedDirectory.seq fun normalized => ?_
  split_ifs
  · trivial
  · trivial
  · exact looks_pathExists.seq fun _ => trivial

lemma looks_inspectProject {projectId : String} :
    (inspectProject str supported projectId).Within Looks fun _ => True := by
  refine looks_ofExcept.seq fun _ => ⟨trivial, fun answer => looks_ofExcept.seq fun projects => ?_⟩
  split <;> trivial

lemma looks_listProjectDirectories {projectId : String} :
    (listProjectDirectories supported projectId).Within Looks fun _ => True :=
  looks_ofExcept.seq fun _ => within_asking trivial

lemma looks_listWorkspaces {projectId : String} :
    (listWorkspaces str supported projectId).Within Looks fun _ => True :=
  looks_ofExcept.seq fun _ => within_asking trivial

lemma looks_normalizedOrNull {directory : JsonValue} :
    (normalizedOrNull directory).Within Looks fun _ => True := by
  unfold normalizedOrNull
  split_ifs
  · trivial
  · exact looks_normalizedDirectory.seq fun _ => trivial

lemma looks_remainingDirectories {planned : List String} {directoryPrefix : String}
    {current : List (Option String)} :
    (remainingDirectories planned directoryPrefix current).Within Looks fun _ => True := by
  refine Within.foldlM fun remaining path => ?_
  cases path with
  | none => trivial
  | some path =>
    refine looks_isStale.seq fun stale => ?_
    split_ifs <;> trivial

lemma looks_verifyWorkspace {directoryPrefix : String} {remaining : RemainingWorkspaces}
    {record : JsonValue} :
    (verifyWorkspace directoryPrefix remaining record).Within Looks fun _ => True := by
  unfold verifyWorkspace
  split_ifs
  · trivial
  · refine looks_isStale.seq fun stale => ?_
    split_ifs <;> trivial
  · refine looks_isStale.seq fun stale => ?_
    split_ifs
    · trivial
    · exact looks_normalizedDirectory.seq fun _ => trivial

lemma looks_remainingWorkspaces {projectId directoryPrefix : String} :
    (remainingWorkspaces str supported projectId directoryPrefix).Within Looks fun _ => True := by
  unfold remainingWorkspaces
  split_ifs
  · exact looks_listWorkspaces.seq fun _ => Within.foldlM fun _ _ => looks_verifyWorkspace
  · trivial

lemma looks_verify {outcome : ProjectOutcome} :
    (verify str supported outcome).Within Looks fun _ => True :=
  looks_inspectProject.seq fun _ => looks_ofExcept.seq fun _ =>
    (Within.mapM fun _ => looks_normalizedOrNull).seq fun _ =>
    looks_listProjectDirectories.seq fun _ =>
    (Within.mapM fun _ => looks_normalizedOrNull).seq fun _ =>
    looks_remainingWorkspaces.seq fun _ => looks_remainingDirectories.seq fun _ =>
    looks_remainingDirectories.seq fun _ => trivial

lemma looks_verified {outcome : ProjectOutcome} :
    (verified str supported outcome).Within Looks fun _ => True := by
  refine looks_verify.tryCatch fun error => ?_
  split_ifs <;> trivial

lemma looks_missingPaths {paths : List JsonValue} :
    (missingPaths paths).Within Looks fun _ => True := by
  refine Within.foldlM fun missing path => ?_
  refine looks_normalizedDirectory.seq fun normalized => looks_pathExists.seq fun present => ?_
  split_ifs
  · trivial
  · exact looks_normalizedDirectory.seq fun _ => trivial

lemma looks_stalePaths {paths : List JsonValue} {directoryPrefix : String}
    {assumedMissing : List String} :
    (stalePaths paths directoryPrefix assumedMissing).Within Looks fun _ => True := by
  refine Within.foldlM fun stale path => looks_isStale.seq fun isStale => ?_
  split_ifs
  · exact looks_normalizedDirectory.seq fun _ => trivial
  · trivial

lemma looks_planWorkspace {directoryPrefix : String} {assumedMissing : List String}
    {plans : WorkspacePlans} {record : JsonValue} :
    (planWorkspace directoryPrefix assumedMissing plans record).Within Looks fun _ => True := by
  unfold planWorkspace
  by_cases hdirectory : (record.get "directory").truthy = true
  · simp only [hdirectory, Bool.not_true, Bool.false_eq_true, if_false]
    refine looks_isStale.seq fun stale => ?_
    split_ifs
    · trivial
    · exact looks_normalizedDirectory.seq fun _ => trivial
    · exact looks_normalizedDirectory.seq fun _ => trivial
  · simp only [hdirectory, Bool.not_false, if_true]
    trivial

lemma looks_plannableWorkspaces {projectId : String} :
    (plannableWorkspaces str supported projectId).Within Looks fun _ => True := by
  unfold plannableWorkspaces
  split_ifs
  · exact looks_listWorkspaces.seq fun _ => trivial
  · trivial

lemma looks_plan {projectId : String} {directoryPrefix : JsonValue}
    {assumedMissingPaths : List String} :
    (plan str supported projectId directoryPrefix assumedMissingPaths).Within Looks
      fun _ => True := by
  refine looks_inspectProject.seq fun _ => looks_listProjectDirectories.seq fun _ =>
    looks_plannableWorkspaces.seq fun _ => looks_normalizedDirectory.seq fun directoryPrefix => ?_
  split_ifs
  · trivial
  · exact (Within.mapM fun _ => looks_normalizedDirectory).seq fun _ =>
      looks_ofExcept.seq fun _ => looks_stalePaths.seq fun _ => looks_stalePaths.seq fun _ =>
      looks_missingPaths.seq fun _ => (Within.foldlM fun _ _ => looks_planWorkspace).seq fun _ =>
      trivial

/-- A preview asks for no refresh and for no deletion, whatever it is answered. -/
theorem looks_previewCleanup {entry : ProjectCopyRecord} {serverUrl : JsonValue}
    {assumedMissingPaths : List String} :
    (previewCleanup str entry serverUrl assumedMissingPaths).Within Looks fun _ => True :=
  looks_connect.seq fun _ => looks_plan.seq fun _ => trivial

/-! ## Applying frozen plans -/

/-- The application of a frozen plan. -/
lemma scoped_applyPlan {projectPlan : ProjectPlan} (hplan : projectPlan ∈ projectPlans)
    {outcome : ProjectOutcome}
    (hfrozen : outcome = CleanupProjects.freezeOutcome
      (CleanupProjects.allowedDirectories projectPlans projectPlan.outcome.projectId)
      projectPlan.outcome) :
    Scoped str projectPlans (fun _ _ => True) (applyPlan str supported outcome) w := by
  unfold applyPlan
  have hallowed : ∀ path ∈ allowedRefresh { outcome with mode := "apply" },
      Planned projectPlans projectPlan.outcome.projectId path := fun path hpath =>
    planned_of_mem_allowedRefresh hplan (by rw [hfrozen]; rfl) (by rw [hfrozen]; rfl) hpath
  have hproject : { outcome with mode := "apply" }.projectId = projectPlan.outcome.projectId := by
    rw [hfrozen]
    rfl
  refine (scoped_refreshProjectCopies (hproject ▸ hallowed)).bind fun refreshed w' hrefreshed => ?_
  have hkeeps : KeepsPlan projectPlan.outcome refreshed := by
    refine KeepsPlan.trans ⟨hproject, ?_⟩ hrefreshed
    rw [hfrozen]
    rfl
  refine (scoped_removeWorkspaces hplan hkeeps).bind fun removed w'' _ => ?_
  exact (scoped_of_looks looks_verified).bind fun _ _ _ => trivial

/-- The application of all frozen plans. -/
lemma scoped_applyProjectPlans {serverUrl : JsonValue} :
    Scoped str projectPlans (fun _ _ => True)
      (applyProjectPlans str serverUrl
        (CleanupProjects.freezeProjectRefreshScope projectPlans)) w := by
  refine Contract.safe_foldlM (J := fun _ _ _ => True) ?_ trivial
  rintro front frozen rest outcomes w' hitems -
  have hmem : frozen ∈ CleanupProjects.freezeProjectRefreshScope projectPlans :=
    hitems ▸ List.mem_append_right _ (List.mem_cons_self ..)
  obtain ⟨projectPlan, hplan, hfrozen⟩ := List.mem_map.1 hmem
  have hcleanup : Scoped str projectPlans (fun _ _ => True)
      (applyCleanup str serverUrl frozen) w' := by
    refine (scoped_of_looks looks_connect).bind fun supported w'' _ => ?_
    exact scoped_applyPlan hplan (by rw [← hfrozen])
  have hattempt : Scoped str projectPlans (fun _ _ => True)
      (applyCleanup str serverUrl frozen).attempt w' := Contract.safe_attempt_iff.2 hcleanup
  exact hattempt.bind fun _ _ _ => trivial

/-! ## The result -/

/-- Whatever the server and the file system are like when the frozen plans of a run are applied,
what is asked for is permitted. -/
theorem permitted_of_runs {projectPlans : List ProjectPlan} {serverUrl : JsonValue}
    {start : ProjectWorld}
    {c : Config projectInterface PyError (List (Except PyError ProjectOutcome)) Unit ProjectWorld}
    {es : List (Event projectInterface Unit)}
    (hrun : Runs (Config.Fires fun _ => answered str)
      ⟨start, fun _ => applyProjectPlans str serverUrl
        (CleanupProjects.freezeProjectRefreshScope projectPlans)⟩ es c)
    {op : ProjectOp} (hpending : c.pending () = some op) : Permitted str projectPlans op c.state := by
  have hcompat : Contract.Compatible (fun _ : Unit => answered str)
      (fun _ : Unit => scope str projectPlans)
      (fun (_ : Config projectInterface PyError (List (Except PyError ProjectOutcome)) Unit
        ProjectWorld) _ _ => True) :=
    { answers := fun c e c' hfires _ => hfires.answered
      rely := fun c e c' _ _ _ j hj => absurd rfl hj }
  exact Contract.waits_of_runs hcompat (fun _ => scoped_applyProjectPlans)
    (hrun.mono fun _ _ _ h => ⟨h, trivial⟩) hpending

/-! ## A run -/

/-- A world in which the directory of a project and of its workspace is gone. -/
def goneWorld : ProjectWorld where
  projects := .arr [.obj [("id", .str "prj")]]
  directories _ := .arr [.str "/repo/gone"]
  workspaces := .arr [.obj [("id", .str "wrk"), ("projectID", .str "prj"),
    ("directory", .str "/repo/gone")]]
  normalize directory := textOf (fun _ => "") directory
  present path := path ≠ "/repo/gone"
  asked := []

/-- The plan of its cleanup. -/
def gonePlan : ProjectPlan where
  entry :=
    { projectId := "prj", directoryPrefix := "/repo/g", workerId := "a"
      resolvedDirectoryPrefix := "/repo/g", directoryPrefixParentRealpath := "/repo"
      directoryPrefixParentDevice := 1, directoryPrefixParentInode := 2 }
  outcome :=
    { projectId := "prj", mode := "dry-run", status := "planned"
      plannedProjectDirectories := ["/repo/gone"], unrelatedStaleDirectories := []
      unsupported := [], allowedRefreshDirectories := none
      others := [("planned_workspaces",
        .arr [(⟨"wrk", "/repo/gone"⟩ : PlannedWorkspace).toJson])] }

/-- A server on which every request succeeds and nothing changes. -/
def steadyReply (w : ProjectWorld) (op : ProjectOp) : Option (op.Answer × ProjectWorld) :=
  match op with
  | .connect _ => some (.ok ["project_directories", "project_copy_refresh", "workspace_item",
      "workspace_collection"], { w with asked := [] })
  | .listProjects => some (.ok w.projects, w)
  | .listProjectDirectories projectId => some (.ok (w.directories projectId), w)
  | .listWorkspaces => some (.ok w.workspaces, w)
  | .refreshProjectCopies _ => some (.ok (), w)
  | .deleteWorkspace workspaceId => some (.ok (), { w with asked := workspaceId :: w.asked })
  | .normalizedDirectory directory => some (.ok (w.normalize directory), w)
  | .pathExists path => some (.ok (w.present path), w)

lemma answered_of_steadyReply {w' : ProjectWorld} {op : ProjectOp} {answer : op.Answer}
    (h : steadyReply w op = some (answer, w')) : answered str w op answer w' := by
  cases op <;> cases h
  case connect => rfl
  case refreshProjectCopies => rfl
  case deleteWorkspace => exact ⟨rfl, fun _ hlisted _ => hlisted⟩
  all_goals exact ⟨rfl, fun _ h => (Except.ok.inj h).symm⟩

/-- The cleanup of the plan, before its first request. -/
def goneStart : Config projectInterface PyError (List (Except PyError ProjectOutcome)) Unit
    ProjectWorld :=
  ⟨goneWorld, fun _ => applyProjectPlans (fun _ => "") .null
    (CleanupProjects.freezeProjectRefreshScope [gonePlan])⟩

/-- In a run the deletion of the workspace is asked for, and it is permitted. -/
theorem permitted_deleteWorkspace : ∃ c es,
    Runs (Config.Fires fun _ => answered fun _ => "") goneStart es c ∧
    c.pending () = some (.deleteWorkspace "wrk") ∧
    Permitted (fun _ => "") [gonePlan] (.deleteWorkspace "wrk") c.state := by
  have hplay : (goneStart.play (List.replicate 9 ⟨(), steadyReply⟩)).map
      (fun played => played.2.pending ()) = some (some (.deleteWorkspace "wrk")) := by
    rfl
  obtain ⟨⟨es, c⟩, hplayed, hpending⟩ := Option.map_eq_some_iff.1 hplay
  have hrun : Runs (Config.Fires fun _ => answered fun _ => "") goneStart es c := by
    refine Config.runs_of_play (fun turn hturn w op answer w' h => ?_) hplayed
    rw [List.eq_of_mem_replicate hturn] at h
    exact answered_of_steadyReply h
  exact ⟨c, es, hrun, hpending, permitted_of_runs hrun hpending⟩

end ProjectCopies

end OpencodeSession
