import OpencodeSession.Store.Calls

/-!
# Calls of the store are single steps

Any number of threads call the store about one run, and take their requests to the file system in
any order; any of them can stop anywhere, and any request can fail.  `linear_of_calls`: what the
file of the run holds goes through a log of changes, each of which is one whole call applied to the
very record that it replaces, so no change is lost and no part of a record is ever seen.  A call
that has returned has returned what it does, as a single step, at one point of this log; loading,
which takes no lock, included.
-/

namespace OpencodeSession

namespace StoreCall

open AtomicFile Except

variable (py : Interpreter) (json : JsonFiles) (store : RunStore) (name : String)

/-- The change that a call may make of what is in the file. -/
def Makes (call : StoreCall) (before after : Option (List UInt8)) : Prop :=
  ∃ result, atomic py json store name before call = .ok (result, after)

variable {py json store name} {ι : Type} {start before : Option (List UInt8)} {i : ι}
  {allowed : ι → Option (List UInt8) → Option (List UInt8) → Prop} {s : FileSystem ι UInt8}

/-! ## Reading -/

/-- What was read in the file is the record of the directory that holds it. -/
lemma readRunData_directoryOf {value : Option JsonValue} {path : String}
    (hpath : RunStore.runPath py (.str name) = .ok path) :
    store.readRunData py (directoryOf name value) name = match value with
      | none => .error (missing store name)
      | some value => asRecord store name value := by
  have hname := (RunStore.runPath_eq_ok hpath).1
  obtain rfl : name = path := JsonValue.str.inj hname
  unfold RunStore.readRunData
  rw [hpath]
  simp only [bind, Except.bind, directoryOf, if_true]
  cases value with
  | none => rfl
  | some value => cases value <;> rfl

variable (py json store name) in
/-- The record that is read of what the file holds. -/
def Reads (content : Option (List UInt8)) (persisted : Fields) : Prop :=
  ∃ value, valueOf json store name content = .ok value ∧
    store.readRunData py (directoryOf name value) name = .ok persisted

lemma reads_of_text {text : List UInt8} {path : String} {persisted : Fields}
    (hpath : RunStore.runPath py (.str name) = .ok path)
    (h : (do asRecord store name (← parse json store name text)) = .ok persisted) :
    Reads py json store name (some text) persisted := by
  obtain ⟨value, hvalue, hrecord⟩ := bind_eq_ok.1 h
  refine ⟨some value, ?_, ?_⟩
  · rw [valueOf, hvalue]
    rfl
  · rw [readRunData_directoryOf hpath]
    exact hrecord

lemma loadRun_of_reads {persisted : Fields} {run : RunData}
    (h : Reads py json store name before persisted)
    (hrun : RunStore.normalizeForStore py (.ofFields persisted) name = .ok run) :
    ∃ value, valueOf json store name before = .ok value ∧
      store.loadRun py (directoryOf name value) name = .ok run := by
  obtain ⟨value, hvalue, hread⟩ := h
  exact ⟨value, hvalue, bind_eq_ok.2 ⟨persisted, hread, hrun⟩⟩

lemma run_of_writeRun {run : RunData} {persisted : Fields} {saved : Saved}
    (h : RunStore.writeRun py run persisted = .ok saved) : saved.run = run := by
  obtain ⟨stored, -, hstored⟩ := bind_eq_ok.1 h
  obtain ⟨path, -, hsaved⟩ := bind_eq_ok.1 hstored
  cases hsaved
  rfl

-- What these functions do is not looked into when a process is taken apart.
attribute [local irreducible] RunStore.normalizeForStore RunStore.writeRun

variable [DecidableEq ι]

/-- The record is read under the lock. -/
lemma safe_readRunData (hs : Holding start i before s) :
    (contract start allowed i).Safe
      (fun persisted s' => Reads py json store name before persisted ∧ Holding start i before s')
      (fun _ s' => Holding start i before s') (readRunData py json store name) s := by
  unfold readRunData
  refine Contract.safe_ofExcept_bind (fun path hpath => ?_) fun _ _ => hs
  refine Contract.Safe.bind (safe_readFile_holding hs) ?_ fun _ _ h => h
  rintro text s' ⟨rfl, hs'⟩
  cases text with
  | none => exact hs'
  | some text =>
    refine Contract.safe_ofExcept.2 ?_
    cases hrecord : (do asRecord store name (← parse json store name text)) with
    | error error => exact hs'
    | ok persisted => exact ⟨reads_of_text hpath hrecord, hs'⟩

/-- The run is read under the lock. -/
lemma safe_readRun (hs : Holding start i before s) :
    (contract start allowed i).Safe
      (fun run s' => (∃ value, valueOf json store name before = .ok value ∧
        store.loadRun py (directoryOf name value) name = .ok run) ∧ Holding start i before s')
      (fun _ s' => Holding start i before s') (readRun py json store name) s := by
  unfold readRun
  refine Contract.Safe.bind (safe_readRunData hs) ?_ fun _ _ h => h
  rintro persisted s' ⟨hreads, hs'⟩
  refine Contract.safe_ofExcept.2 ?_
  cases hrun : RunStore.normalizeForStore py (.ofFields persisted) name with
  | error error => exact hs'
  | ok run => exact ⟨loadRun_of_reads hreads hrun, hs'⟩

/-- A run that is loaded without the lock is one that the file held. -/
lemma safe_loadRun (hs : Consistent start s) :
    (contract start allowed i).Safe
      (fun run s' => ∃ before, atomic py json store name before .loadRun = .ok (some run, before) ∧
        Applied start i before before s')
      (fun _ s' => Consistent start s') (readRun py json store name) s := by
  unfold readRun
  refine Contract.Safe.bind
    (M := fun persisted s' => Consistent start s' ∧ ∃ before,
      Reads py json store name before persisted ∧ Applied start i before before s')
    (E := fun _ s' => Consistent start s') ?_ ?_ fun _ _ h => h
  · unfold readRunData
    refine Contract.safe_ofExcept_bind (fun path hpath => ?_) fun _ _ => hs
    refine Contract.Safe.bind (safe_readFile hs) ?_ fun _ _ h => h
    rintro text s' ⟨hs', seen, -, hseen, hruns⟩
    cases text with
    | none => exact hs'
    | some text =>
      refine Contract.safe_ofExcept.2 ?_
      cases hrecord : (do asRecord store name (← parse json store name text)) with
      | error error => exact hs'
      | ok persisted =>
        exact ⟨hs', some text, reads_of_text hpath hrecord, seen, hruns, .inr ⟨rfl, hseen⟩⟩
  · rintro persisted s' ⟨hs', before, hreads, happlied⟩
    refine Contract.safe_ofExcept.2 ?_
    cases hrun : RunStore.normalizeForStore py (.ofFields persisted) name with
    | error error => exact hs'
    | ok run =>
      obtain ⟨value, hvalue, hload⟩ := loadRun_of_reads hreads hrun
      have hatomic : atomic py json store name before .loadRun = .ok (some run, before) :=
        bind_eq_ok.2 ⟨value, hvalue, bind_eq_ok.2 ⟨run, hload, rfl⟩⟩
      exact ⟨before, hatomic, happlied⟩

/-! ## Writing -/

/-- The thread has made what the file holds `after`, or this is what it held before. -/
def Leaves (start : Option (List UInt8)) (i : ι) (before after : Option (List UInt8))
    (s : FileSystem ι UInt8) : Prop :=
  Changed start i before after s ∨ (after = before ∧ Holding start i before s)

omit [DecidableEq ι] in
lemma Leaves.held {after : Option (List UInt8)} (h : Leaves start i before after s) :
    s.holder = some i ∧ Consistent start s := by
  rcases h with h | ⟨-, h⟩
  · exact ⟨h.held, h.consistent⟩
  · exact ⟨h.held, h.consistent⟩

omit [DecidableEq ι] in
lemma Leaves.applied {after : Option (List UInt8)} (h : Leaves start i before after s) :
    Applied start i before after s := by
  rcases h with h | ⟨rfl, h⟩
  · exact h.applied
  · exact h.applied

lemma safe_writeRun {run : RunData} {persisted : Fields} (hs : Holding start i before s)
    (hallowed : ∀ saved, RunStore.writeRun py run persisted = .ok saved → saved.run = run →
      allowed i before (contentAfter json name saved before)) :
    (contract start allowed i).Safe
      (fun run' s' => run' = run ∧ ∃ saved, RunStore.writeRun py run persisted = .ok saved ∧
        saved.run = run ∧ Leaves start i before (contentAfter json name saved before) s')
      (fun _ s' => s'.holder = some i ∧ Consistent start s')
      (writeRun py json name run persisted) s := by
  unfold writeRun
  refine Contract.safe_ofExcept_bind (fun saved hwrite => ?_)
    fun _ _ => ⟨hs.held, hs.consistent⟩
  have hrun := run_of_writeRun hwrite
  have hmade := hallowed saved hwrite hrun
  by_cases hpath : saved.path = name
  · have hafter : contentAfter json name saved before =
        some (json.chunks saved.content).flatten := if_pos hpath
    rw [hafter] at hmade
    dsimp only
    rw [if_pos hpath]
    refine Contract.Safe.bind (safe_replaceFile hs hmade) (fun _ s' hs' => ?_) fun _ _ h => h
    exact ⟨rfl, saved, hwrite, hrun, .inl (hafter ▸ hs')⟩
  · dsimp only
    rw [if_neg hpath]
    exact ⟨rfl, saved, hwrite, hrun, .inr ⟨if_neg hpath, hs⟩⟩

/-! ## Sections under the lock -/

/-- What a section under the lock does in one step, if its thread gets as far as its end. -/
def Section (py : Interpreter) (json : JsonFiles) (store : RunStore) (name : String)
    (start : Option (List UInt8)) (i : ι) (call : StoreCall) (result : Option RunData)
    (s : FileSystem ι UInt8) : Prop :=
  ∃ before after, atomic py json store name before call = .ok (result, after) ∧
    Leaves start i before after s

lemma safe_updateUnlocked {mutator : Mutator} {allowCleanupInProgress : Bool}
    (hs : Holding start i before s)
    (hallowed : ∀ after, Makes py json store name (.updateRun mutator allowCleanupInProgress)
      before after → allowed i before after) :
    (contract start allowed i).Safe
      (fun run s' => Section py json store name start i
        (.updateRun mutator allowCleanupInProgress) (some run) s')
      (fun _ s' => s'.holder = some i ∧ Consistent start s')
      (updateUnlocked py json store name mutator allowCleanupInProgress) s := by
  have herror : ∀ (e : PyError) (s : FileSystem ι UInt8), Holding start i before s →
      s.holder = some i ∧ Consistent start s := fun _ _ h => ⟨h.held, h.consistent⟩
  unfold updateUnlocked
  refine Contract.Safe.bind (safe_readRunData hs) ?_ herror
  rintro persisted s' ⟨⟨value, hvalue, hread⟩, hs'⟩
  refine Contract.safe_ofExcept_bind (fun run hrun => ?_) fun e _ => herror e s' hs'
  by_cases hfenced : (!allowCleanupInProgress && run.cleanupInProgress) = true
  · rw [if_pos hfenced]
    exact ⟨hs'.held, hs'.consistent⟩
  rw [if_neg hfenced]
  refine Contract.safe_ofExcept_bind (fun left hleft => ?_) fun e _ => herror e s' hs'
  refine Contract.safe_ofExcept_bind (fun final hfinal => ?_) fun e _ => herror e s' hs'
  have hupdate : ∀ saved, RunStore.writeRun py final persisted = .ok saved →
      store.updateRun py (directoryOf name value) name mutator allowCleanupInProgress =
        .ok saved := by
    intro saved hsaved
    refine bind_eq_ok.2 ⟨persisted, hread, bind_eq_ok.2 ⟨run, hrun, ?_⟩⟩
    rw [if_neg hfenced]
    exact bind_eq_ok.2 ⟨left, hleft, bind_eq_ok.2 ⟨final, hfinal, hsaved⟩⟩
  have hatomic : ∀ saved, RunStore.writeRun py final persisted = .ok saved →
      atomic py json store name before (.updateRun mutator allowCleanupInProgress) =
        .ok (some saved.run, contentAfter json name saved before) := by
    intro saved hsaved
    exact bind_eq_ok.2 ⟨value, hvalue, bind_eq_ok.2 ⟨saved, hupdate saved hsaved, rfl⟩⟩
  refine Contract.Safe.mono (safe_writeRun hs' fun saved hsaved _ =>
    hallowed _ ⟨_, hatomic saved hsaved⟩) ?_ fun _ _ h => h
  rintro run' s'' ⟨rfl, saved, hsaved, hrun', hleaves⟩
  exact ⟨before, _, hrun' ▸ hatomic saved hsaved, hleaves⟩

lemma safe_createUnlocked {directory serverUrl now : String} {run : RunData}
    (hrun : RunStore.normalizeForStore py (newRunRecord name directory serverUrl now) name =
      .ok run)
    (hs : Holding start i before s)
    (hallowed : ∀ after, Makes py json store name (.createRun directory serverUrl now)
      before after → allowed i before after) :
    (contract start allowed i).Safe
      (fun run s' => Section py json store name start i
        (.createRun directory serverUrl now) (some run) s')
      (fun _ s' => s'.holder = some i ∧ Consistent start s')
      (createUnlocked py json store name run) s := by
  unfold createUnlocked
  refine Contract.Safe.bind (safe_pathExists hs) ?_ fun _ _ h => ⟨h.held, h.consistent⟩
  rintro found s' ⟨rfl, hs'⟩
  cases hcontent : before with
  | some text => exact ⟨hs'.held, hs'.consistent⟩
  | none =>
    subst hcontent
    have hatomic : ∀ saved, RunStore.writeRun py run [] = .ok saved → saved.run = run →
        atomic py json store name none (.createRun directory serverUrl now) =
          .ok (some run, contentAfter json name saved none) := by
      intro saved hsaved _
      exact bind_eq_ok.2 ⟨run, hrun, bind_eq_ok.2 ⟨saved, hsaved, rfl⟩⟩
    refine Contract.Safe.mono (safe_writeRun hs' fun saved hsaved hsame =>
      hallowed _ ⟨_, hatomic saved hsaved hsame⟩) ?_ fun _ _ h => h
    rintro run' s'' ⟨rfl, saved, hsaved, hsame, hleaves⟩
    exact ⟨none, _, hatomic saved hsaved hsame, hleaves⟩

variable (py json store name) in
/-- That a run can be deleted, and what it is when it is. -/
def Deletable (expectedRun : Option RunData) (content : Option (List UInt8)) : Prop :=
  ∀ expected, expectedRun = some expected → ∃ value run,
    valueOf json store name content = .ok value ∧
      store.loadRun py (directoryOf name value) name = .ok run ∧ run.pyEq expected = true

omit [DecidableEq ι] in
lemma atomic_deleteRun {expectedRun : Option RunData} {path : String}
    (hpath : RunStore.runPath py (.str name) = .ok path)
    (h : Deletable py json store name expectedRun before) (hfile : before.isSome = true) :
    atomic py json store name before (.deleteRun expectedRun) = .ok (none, none) := by
  have hname := (RunStore.runPath_eq_ok hpath).1
  obtain rfl : name = path := JsonValue.str.inj hname
  obtain ⟨text, rfl⟩ := Option.isSome_iff_exists.1 hfile
  cases expectedRun with
  | none =>
    let directory := directoryOf name (some .null)
    refine bind_eq_ok.2 ⟨some .null, rfl,
      bind_eq_ok.2 ⟨Function.update directory name none, ?_, rfl⟩⟩
    refine bind_eq_ok.2 ⟨name, hpath, bind_eq_ok.2 ⟨true, rfl, ?_⟩⟩
    simp only [directoryOf, if_true, Bool.not_true, Bool.false_eq_true, if_false]
    rfl
  | some expected =>
    obtain ⟨value, run, hvalue, hload, hsame⟩ := h expected rfl
    have hvalue' := hvalue
    obtain ⟨json', -, rfl⟩ := map_eq_ok.1 hvalue'
    let directory := directoryOf name (some json')
    refine bind_eq_ok.2 ⟨some json', hvalue,
      bind_eq_ok.2 ⟨Function.update directory name none, ?_, rfl⟩⟩
    refine bind_eq_ok.2 ⟨name, hpath, bind_eq_ok.2 ⟨true, map_eq_ok.2 ⟨run, hload, hsame⟩, ?_⟩⟩
    simp only [directoryOf, if_true, Bool.not_true, Bool.false_eq_true, if_false]
    rfl

lemma safe_stillExpected {expectedRun : Option RunData} (hs : Holding start i before s) :
    (contract start allowed i).Safe
      (fun same s' => (same = true → Deletable py json store name expectedRun before) ∧
        Holding start i before s')
      (fun _ s' => Holding start i before s') (stillExpected py json store name expectedRun) s := by
  cases expectedRun with
  | none => exact ⟨fun _ expected hexpected => (by cases hexpected), hs⟩
  | some expected =>
    rw [stillExpected, map_eq_pure_bind]
    refine Contract.Safe.bind (safe_readRun hs) ?_ fun _ _ h => h
    rintro run s' ⟨⟨value, hvalue, hload⟩, hs'⟩
    refine ⟨fun hsame other hother => ?_, hs'⟩
    cases hother
    exact ⟨value, run, hvalue, hload, hsame⟩

lemma safe_deleteUnlocked {expectedRun : Option RunData} {path : String}
    (hpath : RunStore.runPath py (.str name) = .ok path) (hs : Holding start i before s)
    (hallowed : ∀ after, Makes py json store name (.deleteRun expectedRun) before after →
      allowed i before after) :
    (contract start allowed i).Safe
      (fun _ s' => Section py json store name start i (.deleteRun expectedRun) none s')
      (fun _ s' => s'.holder = some i ∧ Consistent start s')
      (deleteUnlocked py json store name expectedRun) s := by
  unfold deleteUnlocked
  refine Contract.Safe.bind (safe_stillExpected hs) ?_ fun _ _ h => ⟨h.held, h.consistent⟩
  rintro same s' ⟨hsame, hs'⟩
  cases same with
  | false => exact ⟨hs'.held, hs'.consistent⟩
  | true =>
    have hatomic := fun hfile : before.isSome = true => atomic_deleteRun hpath (hsame rfl) hfile
    have hunlink := safe_unlink (ε := PyError) hs' fun hfile =>
      hallowed none ⟨none, hatomic hfile⟩
    refine Contract.Safe.bind (Contract.safe_handle_iff.2 (hunlink.mono (fun _ _ h => h) ?_)) ?_
      fun _ _ h => h
    · exact fun error s'' h => h
    rintro removed s'' (⟨rfl, hfile, hchanged⟩ | ⟨rfl, -, hs''⟩)
    · exact ⟨before, none, hatomic hfile, .inl hchanged⟩
    · exact ⟨hs''.held, hs''.consistent⟩

/-- A section under the lock, in whatever state its thread begins. -/
lemma safe_lockedRun {α : Type} {block : StoreProcess α} {call : StoreCall}
    {result : α → Option RunData} (hs : Consistent start s)
    (hfirst : ∀ earlier ∈ s.log, earlier.thread ≠ i)
    (hblock : ∀ path before s, RunStore.runPath py (.str name) = .ok path →
      Holding start i before s → (contract start allowed i).Safe
        (fun a s' => Section py json store name start i call (result a) s')
        (fun _ s' => s'.holder = some i ∧ Consistent start s') block s) :
    (contract start allowed i).Safe
      (fun a s' => ∃ before after, atomic py json store name before call = .ok (result a, after) ∧
        Applied start i before after s')
      (fun _ s' => Consistent start s') (lockedRun py name block) s := by
  unfold lockedRun
  refine Contract.safe_ofExcept_bind (fun path hpath => ?_) fun _ _ => hs
  refine safe_locked hs hfirst (fun before s => hblock path before s hpath) ?_ ?_
  · rintro a s' ⟨before, after, -, hleaves⟩
    exact hleaves.held
  · rintro a s' ⟨before, after, hatomic, hleaves⟩
    refine ⟨before, after, hatomic, hleaves.applied.mono ?_⟩
    rw [log_release]

/-- A call is safe: it changes the file at most once, and as a single step would. -/
lemma safe_steps {call : StoreCall} (hs : Consistent start s)
    (hfirst : ∀ earlier ∈ s.log, earlier.thread ≠ i)
    (hallowed : ∀ before after, Makes py json store name call before after →
      allowed i before after) :
    (contract start allowed i).Safe
      (fun result s' => ∃ before after, atomic py json store name before call =
        .ok (result, after) ∧ Applied start i before after s')
      (fun _ s' => Consistent start s') (call.steps py json store name) s := by
  cases call with
  | createRun directory serverUrl now =>
    unfold steps
    refine Contract.safe_ofExcept_bind (fun run hrun => ?_) fun _ _ => hs
    rw [map_eq_pure_bind]
    have hlocked := safe_lockedRun hs hfirst fun path before s _ hholding =>
      safe_createUnlocked hrun hholding (hallowed before)
    exact Contract.Safe.bind hlocked (fun _ _ h => h) fun _ _ h => h
  | loadRun =>
    rw [steps, map_eq_pure_bind]
    refine Contract.Safe.bind (safe_loadRun hs) ?_ fun _ _ h => h
    rintro run s' ⟨before, hatomic, happlied⟩
    exact ⟨before, before, hatomic, happlied⟩
  | updateRun mutator allowCleanupInProgress =>
    rw [steps, map_eq_pure_bind]
    have hlocked := safe_lockedRun hs hfirst fun path before s _ hholding =>
      safe_updateUnlocked hholding (hallowed before)
    exact Contract.Safe.bind hlocked (fun _ _ h => h) fun _ _ h => h
  | deleteRun expectedRun =>
    unfold steps
    have hlocked := safe_lockedRun hs hfirst fun path before s hpath hholding =>
      safe_deleteUnlocked hpath hholding (hallowed before)
    exact Contract.Safe.bind hlocked (fun _ _ h => h) fun _ _ h => h

/-- Whatever calls are made, in whatever order their requests are answered and wherever they stop,
the changes of the file are whole calls, each applied to what it has replaced and made at most once,
and what a call has returned is what it does as a single step at one point of their log. -/
theorem linear_of_calls (py : Interpreter) (json : JsonFiles) (store : RunStore) (name : String)
    (calls : ι → StoreCall) (stops : ι → Option Nat) {s₀ : FileSystem ι UInt8}
    (hs₀ : Consistent s₀.content s₀) (hlog : s₀.log = [])
    {c : Config (AtomicFile.interface PyError UInt8) PyError (Option (Option RunData)) ι
      (FileSystem ι UInt8)} {es : List (Event (AtomicFile.interface PyError UInt8) ι)}
    (hrun : Runs (Config.Fires surroundings)
      ⟨s₀, fun i => stoppable ((calls i).steps py json store name) (stops i)⟩ es c) :
    Linear s₀.content (fun i => Makes py json store name (calls i)) c.state ∧
      ∀ i result, c.program i = .done (some result) → ∃ before after,
        atomic py json store name before (calls i) = .ok (result, after) ∧
          Applied s₀.content i before after c.state := by
  let returned : ι → Option (Option RunData) → FileSystem ι UInt8 → Prop := fun i result s =>
    ∀ a, result = some a → ∃ before after,
      atomic py json store name before (calls i) = .ok (a, after) ∧
        Applied s₀.content i before after s
  have hsafe : ∀ i, (contract s₀.content (fun i => Makes py json store name (calls i)) i).Safe
      (returned i) (fun _ s' => Consistent s₀.content s')
      (stoppable ((calls i).steps py json store name) (stops i)) s₀ := fun i =>
    safe_stoppable hs₀ (safe_steps hs₀ (by simp [hlog]) fun _ _ h => h) (stops i)
  have hkept : ∀ i a s s', s.log <+: s'.log → returned i a s → returned i a s' := by
    intro i a s s' hprefix hpost result hresult
    obtain ⟨before, after, hatomic, happlied⟩ := hpost result hresult
    exact ⟨before, after, hatomic, happlied.mono hprefix⟩
  obtain ⟨hlinear, hends⟩ := linear_of_runs hs₀ hlog hsafe hkept hrun
  exact ⟨hlinear, fun i result hdone => hends i _ hdone result rfl⟩

/-- JSON files of which only the empty object is ever read. -/
def emptyObjects : JsonFiles where
  dump _ := [[123, 125]]
  load text := if text = [123, 125] then .ok (.obj []) else .error (.decode "Expecting value")

/-- A file with the empty object. -/
def oneRecord : FileSystem Bool UInt8 where
  holder := none
  published := some 0
  staged := none
  texts _ := [123, 125]
  fresh := 1
  log := []

/-- One thread loads the run, the other one deletes it. -/
def loadAndDelete : Bool → StoreCall
  | false => .loadRun
  | true => .deleteRun none

/-- The run is deleted between two requests of a thread that loads it. -/
theorem linear_of_calls_loadAndDelete :
    ∃ c : Config (AtomicFile.interface PyError UInt8) PyError (Option (Option RunData)) Bool
      (FileSystem Bool UInt8),
      c.state.content = none ∧ c.program true = .done (some none) ∧
        Linear (some [123, 125]) (fun i => Makes plainInterpreter emptyObjects ⟨"/store"⟩ "a"
          (loadAndDelete i)) c.state := by
  let start : Config (AtomicFile.interface PyError UInt8) PyError (Option (Option RunData)) Bool
      (FileSystem Bool UInt8) :=
    ⟨oneRecord, fun i => stoppable ((loadAndDelete i).steps plainInterpreter emptyObjects
      ⟨"/store"⟩ "a") none⟩
  let turns : List (Config.Turn (AtomicFile.interface PyError UInt8) Bool
      (FileSystem Bool UInt8)) :=
    [false, true, true, true, false].map fun i => ⟨i, fun s op => succeed i s op⟩
  have hplay : ∃ es c, start.play turns = some (es, c) ∧ c.state.content = none ∧
      c.program true = .done (some none) := ⟨_, _, rfl, rfl, rfl⟩
  obtain ⟨es, c, hplay, hcontent, hdone⟩ := hplay
  have hrun : Runs (Config.Fires surroundings) start es c := by
    refine Config.runs_of_play ?_ hplay
    intro turn hturn s op answer s' hreply
    obtain ⟨i, -, rfl⟩ := List.mem_map.1 hturn
    exact surroundings_of_succeed hreply
  have hs₀ : Consistent oneRecord.content oneRecord :=
    { published_lt := by
        rintro _ ⟨⟩
        decide
      staged_lt := by
        rintro _ ⟨⟩
      apart := by
        rintro _ _ ⟨⟩
      logged := .nil }
  exact ⟨c, hcontent, hdone, (linear_of_calls plainInterpreter emptyObjects ⟨"/store"⟩ "a"
    loadAndDelete (fun _ => none) hs₀ rfl hrun).1⟩

end StoreCall

end OpencodeSession
