import Mathlib.Data.List.Infix
import OpencodeSession.Framework.RelyGuarantee

/-!
# A file that is replaced under a lock

Several threads read, replace and remove one file.  A thread that changes it holds a lock, writes
the new text under a temporary name and renames that; a thread that only reads takes no lock.  Names
and inodes are apart, so that a reader goes on with the inode that it has opened.  Every request can
fail, a write can be half done when it does, and a thread can stop anywhere, after which the system
releases its lock.

The log of the file is the list of the changes of its contents.  `linear_of_runs`: whatever the
order of the steps, each change in the log starts from the contents that the one before it has left,
is one that its thread may make of these contents, and is the only one of its thread.
-/

namespace AtomicFile

/-! ## The file system -/

/-- A change of the contents of the file. -/
structure Commit (ι β : Type) where
  thread : ι
  before : Option (List β)
  after : Option (List β)

/-- The file system, as far as one file goes. -/
structure FileSystem (ι β : Type) where
  /-- Who holds the lock. -/
  holder : Option ι
  /-- The inode of the file. -/
  published : Option Nat
  /-- The inode of the temporary name. -/
  staged : Option Nat
  /-- What is written in an inode. -/
  texts : Nat → List β
  /-- The first inode that was never used. -/
  fresh : Nat
  /-- The changes of the contents so far.  No answer depends on it. -/
  log : List (Commit ι β)

namespace FileSystem

variable {ι β : Type}

/-- What is in the file, if there is one. -/
def content (s : FileSystem ι β) : Option (List β) := s.published.map s.texts

/-- Another text in an inode. -/
def write (s : FileSystem ι β) (inode : Nat) (text : List β) : FileSystem ι β :=
  { s with texts := Function.update s.texts inode text }

/-- The temporary name is opened for writing: its inode is emptied, or is a new one. -/
def openStaged (s : FileSystem ι β) : Nat × FileSystem ι β :=
  match s.staged with
  | some inode => (inode, s.write inode [])
  | none => (s.fresh, { s.write s.fresh [] with staged := some s.fresh, fresh := s.fresh + 1 })

/-- The temporary name is renamed to that of the file. -/
def publish (s : FileSystem ι β) (i : ι) (inode : Nat) : FileSystem ι β :=
  { s with
    published := some inode
    staged := none
    log := s.log ++ [⟨i, s.content, some (s.texts inode)⟩] }

/-- The name of the file is removed. -/
def remove (s : FileSystem ι β) (i : ι) : FileSystem ι β :=
  { s with published := none, log := s.log ++ [⟨i, s.content, none⟩] }

/-- The lock of a thread is released. -/
def release [DecidableEq ι] (s : FileSystem ι β) (i : ι) : FileSystem ι β :=
  if s.holder = some i then { s with holder := none } else s

end FileSystem

/-! ## Requests -/

/-- The requests on the file. -/
inductive Op (β : Type) where
  | lock
  | unlock
  | pathExists
  /-- Open the file for reading. -/
  | openRead
  /-- Read everything through an open inode. -/
  | read (inode : Nat)
  /-- Open the temporary name for writing. -/
  | openWrite
  | append (inode : Nat) (chunk : List β)
  /-- Rename the temporary name to that of the file. -/
  | replace
  | unlink

/-- The answers: everything may be an error. -/
@[reducible] def Op.Answer (ε : Type) {β : Type} : Op β → Type
  | lock | unlock | append _ _ | replace => Except ε Unit
  | pathExists | unlink => Except ε Bool
  | openRead => Except ε (Option Nat)
  | openWrite => Except ε Nat
  | read _ => Except ε (List β)

/-- The interface of the file. -/
abbrev interface (ε β : Type) : Interface := ⟨Op β, Op.Answer ε⟩

variable {ε ι α β : Type}

/-- What the system answers.  A request that fails has done nothing, all or, if it is a write, a
part of what it was to do. -/
def surroundings [DecidableEq ι] : Surroundings (interface ε β) ι (FileSystem ι β)
  | i, s, .lock, (answer : Except ε Unit), s' =>
    match answer with
    | .ok _ => s.holder = none ∧ s' = { s with holder := some i }
    | .error _ => s' = s
  | i, s, .unlock, _, s' => s' = s.release i
  | _, s, .pathExists, (answer : Except ε Bool), s' =>
    (∀ found, answer = .ok found → found = s.published.isSome) ∧ s' = s
  | _, s, .openRead, (answer : Except ε (Option Nat)), s' =>
    (∀ inode, answer = .ok inode → inode = s.published) ∧ s' = s
  | _, s, .read inode, (answer : Except ε (List β)), s' =>
    (∀ text, answer = .ok text → text = s.texts inode) ∧ s' = s
  | _, s, .openWrite, (answer : Except ε Nat), s' =>
    match answer with
    | .ok inode => (inode, s') = s.openStaged
    | .error _ => s' = s ∨ s' = s.openStaged.2
  | _, s, .append inode chunk, (answer : Except ε Unit), s' =>
    match answer with
    | .ok _ => s' = s.write inode (s.texts inode ++ chunk)
    | .error _ => ∃ part, part <+: chunk ∧ s' = s.write inode (s.texts inode ++ part)
  | i, s, .replace, (answer : Except ε Unit), s' =>
    match answer with
    | .ok _ => ∃ inode, s.staged = some inode ∧ s' = s.publish i inode
    | .error _ => s' = s ∨ ∃ inode, s.staged = some inode ∧ s' = s.publish i inode
  | i, s, .unlink, (answer : Except ε Bool), s' =>
    match answer with
    | .ok true => s.published.isSome = true ∧ s' = s.remove i
    | .ok false => s.published = none ∧ s' = s
    | .error _ => s' = s ∨ (s.published.isSome = true ∧ s' = s.remove i)

/-- One request whose answer is the result. -/
def ask {γ : Type} (op : Op β) (result : Op.Answer ε op → Except ε γ) :
    Process (interface ε β) ε γ :=
  .call op fun answer => .ofExcept (result answer)

/-- Read the file, if there is one. -/
def readFile : Process (interface ε β) ε (Option (List β)) := do
  match ← ask .openRead id with
  | none => return none
  | some inode => some <$> ask (.read inode) id

/-- Write the chunks of a text under the temporary name, and rename it. -/
def replaceFile (chunks : List (List β)) : Process (interface ε β) ε Unit := do
  let inode ← ask .openWrite id
  chunks.foldlM (fun _ chunk => ask (.append inode chunk) id) ()
  ask .replace id

/-- Run a process with the lock, which is released however it ends. -/
def locked (p : Process (interface ε β) ε α) : Process (interface ε β) ε α := do
  ask .lock id
  let result : Except ε α ← p.attempt
  ask .unlock id
  Process.ofExcept result

/-- A process that is stopped after a number of requests, if one is given.  The system then releases
its lock. -/
def stoppable (p : Process (interface ε β) ε α) (stop : Option Nat) :
    Process (interface ε β) ε (Option α) :=
  match stop with
  | none => some <$> p
  | some steps => do
    (p.upTo steps : Process (interface ε β) ε Unit)
    .call .unlock fun _ => return none

/-! ## The contract of a thread -/

/-- A change that starts from some contents and leaves others. -/
def Follows (before : Option (List β)) (commit : Commit ι β) (after : Option (List β)) : Prop :=
  commit.before = before ∧ commit.after = after

/-- The log of a file system leads from the contents at the start to those of the file, and the file
and the temporary name have no inode in common. -/
structure Consistent (start : Option (List β)) (s : FileSystem ι β) : Prop where
  published_lt : ∀ inode, s.published = some inode → inode < s.fresh
  staged_lt : ∀ inode, s.staged = some inode → inode < s.fresh
  apart : ∀ inode, s.published = some inode → s.staged ≠ some inode
  logged : Runs Follows start s.log s.content

variable (start : Option (List β)) (allowed : ι → Option (List β) → Option (List β) → Prop)

/-- What the others may do while a thread waits.  They leave everything alone as long as it holds
the lock, and what is in an inode other than the temporary one stays there. -/
structure Rely (i : ι) (s s' : FileSystem ι β) : Prop where
  held : s.holder = some i → s' = s
  frozen : ∀ inode, inode < s.fresh → s.staged ≠ some inode →
    inode < s'.fresh ∧ s'.staged ≠ some inode ∧ s'.texts inode = s.texts inode
  consistent : Consistent start s → Consistent start s'
  log : s.log <+: s'.log
  own : ∀ commit ∈ s'.log, commit.thread = i → commit ∈ s.log

/-- What a thread promises of a step. -/
structure Guarantee (i : ι) (s s' : FileSystem ι β) : Prop where
  others : ∀ j, j ≠ i → Rely start j s s'
  consistent : Consistent start s → Consistent start s'
  commits : s'.log = s.log ∨ ∃ commit, s'.log = s.log ++ [commit] ∧ commit.thread = i ∧
    allowed i commit.before commit.after ∧ ∀ earlier ∈ s.log, earlier.thread ≠ i

variable {start allowed} {i : ι} {s s' s'' : FileSystem ι β}

lemma Rely.refl : Rely start i s s where
  held _ := rfl
  frozen _ hlt hstaged := ⟨hlt, hstaged, rfl⟩
  consistent h := h
  log := List.prefix_refl _
  own _ h _ := h

lemma Rely.trans (h : Rely start i s s') (h' : Rely start i s' s'') : Rely start i s s'' where
  held hheld := by
    have hsame := h.held hheld
    subst hsame
    exact h'.held hheld
  frozen inode hlt hstaged := by
    obtain ⟨hlt', hstaged', htext⟩ := h.frozen inode hlt hstaged
    obtain ⟨hlt'', hstaged'', htext'⟩ := h'.frozen inode hlt' hstaged'
    exact ⟨hlt'', hstaged'', htext'.trans htext⟩
  consistent hs := h'.consistent (h.consistent hs)
  log := h.log.trans h'.log
  own commit hcommit hthread := h.own commit (h'.own commit hcommit hthread) hthread

lemma Guarantee.refl : Guarantee start allowed i s s where
  others _ _ := .refl
  consistent h := h
  commits := .inl rfl

/-! ## Steps -/

/-- Taking the lock. -/
lemma guarantee_lock (hfree : s.holder = none) :
    Guarantee start allowed i s { s with holder := some i } where
  others j _ :=
    { held := fun hheld => by simp [hfree] at hheld
      frozen := fun _ hlt hstaged => ⟨hlt, hstaged, rfl⟩
      consistent := fun h => ⟨h.published_lt, h.staged_lt, h.apart, h.logged⟩
      log := List.prefix_refl _
      own := fun _ h _ => h }
  consistent h := ⟨h.published_lt, h.staged_lt, h.apart, h.logged⟩
  commits := .inl rfl

/-- A step of the thread that holds the lock: nobody else waits with it. -/
lemma guarantee_of_holder (hheld : s.holder = some i)
    (hfrozen : ∀ inode, inode < s.fresh → s.staged ≠ some inode →
      inode < s'.fresh ∧ s'.staged ≠ some inode ∧ s'.texts inode = s.texts inode)
    (hconsistent : Consistent start s → Consistent start s')
    (hlog : s'.log = s.log ∨ ∃ commit, s'.log = s.log ++ [commit] ∧ commit.thread = i ∧
      allowed i commit.before commit.after ∧ ∀ earlier ∈ s.log, earlier.thread ≠ i) :
    Guarantee start allowed i s s' where
  others j hj :=
    { held := fun h => absurd (Option.some.inj (hheld.symm.trans h)) hj.symm
      frozen := hfrozen
      consistent := hconsistent
      log := by
        rcases hlog with hsame | ⟨commit, happend, -⟩
        · rw [hsame]
        · rw [happend]
          exact List.prefix_append _ _
      own := fun commit hcommit hthread => by
        rcases hlog with hsame | ⟨last, happend, hlast, -⟩
        · rwa [hsame] at hcommit
        · rw [happend, List.mem_append, List.mem_singleton] at hcommit
          rcases hcommit with hcommit | rfl
          · exact hcommit
          · exact absurd (hthread.symm.trans hlast) hj }
  consistent := hconsistent
  commits := hlog

/-- Writing the temporary inode leaves the contents alone. -/
lemma content_write {inode : Nat} {text : List β} (h : Consistent start s)
    (hstaged : s.staged = some inode) : (s.write inode text).content = s.content := by
  unfold FileSystem.content FileSystem.write
  cases hpublished : s.published with
  | none => rfl
  | some published =>
    have hne : published ≠ inode := fun heq => h.apart _ hpublished (heq ▸ hstaged)
    simp [Function.update_of_ne hne]

lemma Consistent.write {inode : Nat} {text : List β} (h : Consistent start s)
    (hstaged : s.staged = some inode) : Consistent start (s.write inode text) :=
  ⟨h.published_lt, h.staged_lt, h.apart, content_write h hstaged ▸ h.logged⟩

lemma guarantee_write {inode : Nat} {text : List β} (hheld : s.holder = some i)
    (hstaged : s.staged = some inode) : Guarantee start allowed i s (s.write inode text) := by
  refine guarantee_of_holder hheld (fun other hlt hother => ⟨hlt, hother, ?_⟩)
    (fun h => h.write hstaged) (.inl rfl)
  have hne : other ≠ inode := fun heq => hother (heq ▸ hstaged)
  exact Function.update_of_ne hne _ _

lemma openStaged_spec : (s.openStaged.2).staged = some s.openStaged.1 ∧
    (s.openStaged.2).texts s.openStaged.1 = [] ∧ (s.openStaged.2).holder = s.holder ∧
    (s.openStaged.2).log = s.log := by
  unfold FileSystem.openStaged
  split
  · next inode hstaged => exact ⟨hstaged, Function.update_self _ _ _, rfl, rfl⟩
  · exact ⟨rfl, Function.update_self _ _ _, rfl, rfl⟩

lemma content_openStaged (h : Consistent start s) : s.openStaged.2.content = s.content := by
  unfold FileSystem.content FileSystem.openStaged
  cases hpublished : s.published with
  | none => split <;> simp [FileSystem.write, hpublished]
  | some published =>
    split
    · next inode hstaged =>
      have hne : published ≠ inode := fun heq => h.apart _ hpublished (heq ▸ hstaged)
      simp [FileSystem.write, hpublished, Function.update_of_ne hne]
    · have hlt := h.published_lt _ hpublished
      have hne : published ≠ s.fresh := by omega
      simp [FileSystem.write, hpublished, Function.update_of_ne hne]

lemma Consistent.openStaged (h : Consistent start s) : Consistent start s.openStaged.2 := by
  have hcontent := content_openStaged h
  unfold FileSystem.openStaged at hcontent ⊢
  cases hstaged : s.staged with
  | some inode =>
    rw [hstaged] at hcontent
    exact h.write hstaged
  | none =>
    rw [hstaged] at hcontent
    refine ⟨fun inode hinode => ?_, fun inode hinode => ?_, fun inode hinode heq => ?_, ?_⟩
    · have hlt := h.published_lt inode hinode
      show inode < s.fresh + 1
      omega
    · have heq : s.fresh = inode := Option.some.inj hinode
      show inode < s.fresh + 1
      omega
    · have hlt := h.published_lt inode hinode
      have hfresh : s.fresh = inode := Option.some.inj heq
      omega
    · exact hcontent ▸ h.logged

lemma guarantee_openStaged (hheld : s.holder = some i) :
    Guarantee start allowed i s s.openStaged.2 := by
  refine guarantee_of_holder hheld (fun inode hlt hstaged => ?_) Consistent.openStaged
    (.inl openStaged_spec.2.2.2)
  unfold FileSystem.openStaged
  cases hs : s.staged with
  | some other =>
    have hne : inode ≠ other := fun heq => hstaged (heq ▸ hs)
    exact ⟨hlt, fun h => hstaged h, Function.update_of_ne hne _ _⟩
  | none =>
    have hne : inode ≠ s.fresh := by omega
    refine ⟨?_, fun h => hne (Option.some.inj h).symm, Function.update_of_ne hne _ _⟩
    show inode < s.fresh + 1
    omega

lemma Consistent.publish {inode : Nat} (h : Consistent start s) (hstaged : s.staged = some inode) :
    Consistent start (s.publish i inode) where
  published_lt other hother := h.staged_lt other (hstaged.trans hother)
  staged_lt _ hother := by cases hother
  apart _ _ hother := by cases hother
  logged := h.logged.snoc ⟨rfl, rfl⟩

lemma Consistent.remove (h : Consistent start s) : Consistent start (s.remove i) where
  published_lt _ hother := by cases hother
  staged_lt := h.staged_lt
  apart _ hother := by cases hother
  logged := h.logged.snoc ⟨rfl, rfl⟩

lemma guarantee_publish {inode : Nat} (hheld : s.holder = some i) (hstaged : s.staged = some inode)
    (hallowed : allowed i s.content (some (s.texts inode)))
    (hfirst : ∀ earlier ∈ s.log, earlier.thread ≠ i) :
    Guarantee start allowed i s (s.publish i inode) :=
  guarantee_of_holder hheld (fun _ hlt _ => ⟨hlt, (by simp [FileSystem.publish]), rfl⟩)
    (fun h => h.publish hstaged) (.inr ⟨_, rfl, rfl, hallowed, hfirst⟩)

lemma guarantee_remove (hheld : s.holder = some i) (hallowed : allowed i s.content none)
    (hfirst : ∀ earlier ∈ s.log, earlier.thread ≠ i) :
    Guarantee start allowed i s (s.remove i) :=
  guarantee_of_holder hheld (fun _ hlt hstaged => ⟨hlt, hstaged, rfl⟩) Consistent.remove
    (.inr ⟨_, rfl, rfl, hallowed, hfirst⟩)

variable [DecidableEq ι]

lemma log_release : (s.release i).log = s.log := by
  unfold FileSystem.release
  split_ifs <;> rfl

lemma Consistent.release (h : Consistent start s) : Consistent start (s.release i) := by
  unfold FileSystem.release
  split_ifs
  · exact ⟨h.published_lt, h.staged_lt, h.apart, h.logged⟩
  · exact h

/-- Releasing the lock, whether or not the thread holds it. -/
lemma guarantee_release : Guarantee start allowed i s (s.release i) where
  others j hj :=
    { held := fun hheld => by
        have hne : s.holder ≠ some i := by
          rw [hheld]
          exact fun h => hj (Option.some.inj h)
        rw [FileSystem.release, if_neg hne]
      frozen := fun inode hlt hstaged => by
        unfold FileSystem.release
        split_ifs <;> exact ⟨hlt, hstaged, rfl⟩
      consistent := Consistent.release
      log := by rw [log_release]
      own := fun commit hcommit _ => by rwa [log_release] at hcommit }
  consistent := Consistent.release
  commits := .inl log_release

/-! ## Processes -/

variable (start allowed) in
/-- The contract of a thread that changes the file at most once, by a change it may make. -/
def contract (i : ι) : Contract (interface ε β) (FileSystem ι β) where
  responds := surroundings i
  rely _ := Rely start i
  rely_refl _ _ := .refl
  rely_trans _ _ _ _ h h' := h.trans h'
  guarantee s _ _ s' := Guarantee start allowed i s s'
  mayCut := True

/-- A request of the thread that holds the lock: nothing has changed since its last step. -/
lemma safe_ask_holding {γ : Type} {op : Op β} {result : Op.Answer ε op → Except ε γ}
    {post : γ → FileSystem ι β → Prop} {err : ε → FileSystem ι β → Prop}
    (hheld : s.holder = some i)
    (h : ∀ answer s', surroundings i s op answer s' → Guarantee start allowed i s s' ∧
      match result answer with
      | .ok a => post a s'
      | .error e => err e s') :
    (contract start allowed i).Safe post err (ask op result) s := by
  intro s₁ hrely
  have hsame : s₁ = s := hrely.held hheld
  subst hsame
  exact ⟨trivial, fun answer s₂ hanswer =>
    ⟨(h answer s₂ hanswer).1, Contract.safe_ofExcept.2 (h answer s₂ hanswer).2⟩⟩

variable (start i) in
/-- The thread holds the lock and has changed nothing so far. -/
structure Holding (before : Option (List β)) (s : FileSystem ι β) : Prop where
  held : s.holder = some i
  consistent : Consistent start s
  first : ∀ earlier ∈ s.log, earlier.thread ≠ i
  content_eq : s.content = before

variable (start i) in
/-- The thread holds the lock, and the last change is its own. -/
structure Changed (before after : Option (List β)) (s : FileSystem ι β) : Prop where
  held : s.holder = some i
  consistent : Consistent start s
  last : ∃ seen, s.log = seen ++ [⟨i, before, after⟩]

variable {before : Option (List β)}

lemma safe_pathExists (hs : Holding start i before s) :
    (contract start allowed i).Safe
      (fun found s' => found = before.isSome ∧ Holding start i before s')
      (fun (_ : ε) s' => Holding start i before s') (ask .pathExists id) s := by
  refine safe_ask_holding hs.held ?_
  rintro (error | found) s' ⟨hfound, rfl⟩
  · exact ⟨.refl, hs⟩
  · refine ⟨.refl, ?_, hs⟩
    rw [hfound found rfl, ← hs.content_eq, FileSystem.content, Option.isSome_map]

/-- With the lock, a thread reads what the file holds. -/
lemma safe_readFile_holding (hs : Holding start i before s) :
    (contract start allowed i).Safe
      (fun text s' => text = before ∧ Holding start i before s')
      (fun (_ : ε) s' => Holding start i before s') readFile s := by
  refine Contract.Safe.bind (M := fun inode s' => inode = s.published ∧ s' = s)
    (E := fun _ s' => s' = s) (safe_ask_holding hs.held ?_) ?_ ?_
  · rintro (error | inode) s' ⟨hinode, rfl⟩
    · exact ⟨.refl, rfl⟩
    · exact ⟨.refl, hinode inode rfl, rfl⟩
  · rintro inode s' ⟨hinode, rfl⟩
    have hcontent := hs.content_eq
    rw [FileSystem.content, ← hinode] at hcontent
    cases inode with
    | none => exact ⟨hcontent, hs⟩
    | some inode =>
      refine Contract.Safe.bind (M := fun text s'' => text = s'.texts inode ∧ s'' = s')
        (E := fun _ s'' => s'' = s') (safe_ask_holding hs.held ?_) ?_ ?_
      · rintro (error | text) s'' ⟨htext, rfl⟩
        · exact ⟨.refl, rfl⟩
        · exact ⟨.refl, htext text rfl, rfl⟩
      · rintro text s'' ⟨rfl, rfl⟩
        exact ⟨hcontent, hs⟩
      · rintro error s'' rfl
        exact hs
  · rintro error s' rfl
    exact hs

/-- Without the lock, a thread reads what the file held at one point while it was reading. -/
lemma safe_readFile (hs : Consistent start s) :
    (contract start allowed i).Safe
      (fun text s' => Consistent start s' ∧ ∃ seen, s.log <+: seen ∧ seen <+: s'.log ∧
        Runs Follows start seen text)
      (fun (_ : ε) s' => Consistent start s') readFile s := by
  intro s₁ hrely
  refine ⟨trivial, ?_⟩
  rintro (error | inode) s₂ ⟨hinode, rfl⟩
  · exact ⟨.refl, hrely.consistent hs⟩
  have hs₂ := hrely.consistent hs
  have hpublished := hinode inode rfl
  refine ⟨.refl, ?_⟩
  cases inode with
  | none =>
    refine ⟨hs₂, s₂.log, hrely.log, List.prefix_refl _, ?_⟩
    have hlogged := hs₂.logged
    rwa [FileSystem.content, ← hpublished] at hlogged
  | some inode =>
    intro s₃ hrely'
    refine ⟨trivial, ?_⟩
    rintro (error | text) s₄ ⟨htext, rfl⟩
    · exact ⟨.refl, hrely'.consistent hs₂⟩
    refine ⟨.refl, hrely'.consistent hs₂, s₂.log, hrely.log, hrely'.log, ?_⟩
    obtain ⟨-, -, hfrozen⟩ := hrely'.frozen inode (hs₂.published_lt _ hpublished.symm)
      (hs₂.apart _ hpublished.symm)
    have hlogged := hs₂.logged
    rw [FileSystem.content, ← hpublished] at hlogged
    rw [htext text rfl, hfrozen]
    exact hlogged

/-- The thread holds the lock and writes the temporary inode. -/
structure Writing (start : Option (List β)) (i : ι) (before : Option (List β)) (inode : Nat)
    (written : List β) (s : FileSystem ι β) : Prop extends Holding start i before s where
  staged : s.staged = some inode
  text : s.texts inode = written

omit [DecidableEq ι] in
lemma Writing.write {inode : Nat} {written text : List β}
    (h : Writing start i before inode written s) :
    Writing start i before inode text (s.write inode text) where
  held := h.held
  consistent := h.consistent.write h.staged
  first := h.first
  content_eq := by rw [content_write h.consistent h.staged, h.content_eq]
  staged := h.staged
  text := Function.update_self _ _ _

/-- What is written under the temporary name replaces the file at once, or not at all. -/
lemma safe_replaceFile {chunks : List (List β)} (hs : Holding start i before s)
    (hallowed : allowed i before (some chunks.flatten)) :
    (contract start allowed i).Safe
      (fun _ s' => Changed start i before (some chunks.flatten) s')
      (fun (_ : ε) s' => s'.holder = some i ∧ Consistent start s') (replaceFile chunks) s := by
  refine Contract.Safe.bind (M := fun inode s' => Writing start i before inode [] s')
    (E := fun _ s' => s'.holder = some i ∧ Consistent start s')
    (safe_ask_holding hs.held ?_) ?_ fun _ _ h => h
  · rintro (error | inode) s' hanswer
    · rcases hanswer with rfl | rfl
      · exact ⟨.refl, hs.held, hs.consistent⟩
      · exact ⟨guarantee_openStaged hs.held, openStaged_spec.2.2.1.trans hs.held,
          hs.consistent.openStaged⟩
    · obtain ⟨rfl, rfl⟩ : inode = s.openStaged.1 ∧ s' = s.openStaged.2 := Prod.mk.inj hanswer
      obtain ⟨hstaged, htext, hholder, hlog⟩ := openStaged_spec (s := s)
      refine ⟨guarantee_openStaged hs.held, ?_⟩
      exact
        { held := hholder.trans hs.held
          consistent := hs.consistent.openStaged
          first := by
            rw [hlog]
            exact hs.first
          content_eq := (content_openStaged hs.consistent).trans hs.content_eq
          staged := hstaged
          text := htext }
  -- the chunks are written one after the other: the text is what has been written so far
  intro inode s' hwriting
  refine Contract.Safe.bind (M := fun _ s' => Writing start i before inode chunks.flatten s')
    (E := fun _ s' => s'.holder = some i ∧ Consistent start s') ?_ ?_ fun _ _ h => h
  · refine Contract.safe_foldlM
      (J := fun front _ s' => Writing start i before inode front.flatten s') ?_ hwriting
    intro front chunk rest _ s hitems hwriting
    refine safe_ask_holding hwriting.held ?_
    rintro (error | _) s' hanswer
    · obtain ⟨part, -, rfl⟩ := hanswer
      exact ⟨guarantee_write hwriting.held hwriting.staged, hwriting.held,
        hwriting.consistent.write hwriting.staged⟩
    · obtain rfl : s' = s.write inode (s.texts inode ++ chunk) := hanswer
      refine ⟨guarantee_write hwriting.held hwriting.staged, ?_⟩
      have htext : (front ++ [chunk]).flatten = s.texts inode ++ chunk := by
        rw [hwriting.text, List.flatten_append, List.flatten_singleton]
      rw [htext]
      exact hwriting.write
  · intro _ s' hwriting
    -- publishing replaces the contents at once; a failed one has done so or has done nothing
    have hpublish : ∀ s'', (∃ inode, s'.staged = some inode ∧ s'' = s'.publish i inode) →
        Guarantee start allowed i s' s'' ∧ Changed start i before (some chunks.flatten) s'' := by
      rintro s'' ⟨other, hstaged, rfl⟩
      obtain rfl : inode = other := Option.some.inj (hwriting.staged.symm.trans hstaged)
      have hafter : some (s'.texts inode) = some chunks.flatten := congrArg some hwriting.text
      refine ⟨guarantee_publish hwriting.held hstaged ?_ hwriting.first, hwriting.held,
        hwriting.consistent.publish hstaged, s'.log, ?_⟩
      · rw [hafter, hwriting.content_eq]
        exact hallowed
      · rw [← hafter, ← hwriting.content_eq]
        rfl
    refine safe_ask_holding hwriting.held ?_
    rintro (error | _) s'' hanswer
    · rcases hanswer with rfl | hanswer
      · exact ⟨.refl, hwriting.held, hwriting.consistent⟩
      · obtain ⟨hguar, hchanged⟩ := hpublish s'' hanswer
        exact ⟨hguar, hchanged.held, hchanged.consistent⟩
    · exact hpublish s'' hanswer

/-- Removing the file. -/
lemma safe_unlink (hs : Holding start i before s)
    (hallowed : before.isSome = true → allowed i before none) :
    (contract start allowed i).Safe
      (fun removed s' => (removed = true ∧ before.isSome = true ∧ Changed start i before none s') ∨
        (removed = false ∧ before = none ∧ Holding start i before s'))
      (fun (_ : ε) s' => s'.holder = some i ∧ Consistent start s') (ask .unlink id) s := by
  have hexists : s.published.isSome = before.isSome := by
    rw [← hs.content_eq, FileSystem.content, Option.isSome_map]
  have hremove : s.published.isSome = true →
      Guarantee start allowed i s (s.remove i) ∧ Changed start i before none (s.remove i) := by
    intro hpublished
    rw [hexists] at hpublished
    refine ⟨guarantee_remove hs.held ?_ hs.first, hs.held, hs.consistent.remove, s.log, ?_⟩
    · rw [hs.content_eq]
      exact hallowed hpublished
    · rw [← hs.content_eq]
      rfl
  refine safe_ask_holding hs.held ?_
  rintro (error | removed) s' hanswer
  · rcases hanswer with rfl | ⟨hpublished, rfl⟩
    · exact ⟨.refl, hs.held, hs.consistent⟩
    · obtain ⟨hguar, hchanged⟩ := hremove hpublished
      exact ⟨hguar, hchanged.held, hchanged.consistent⟩
  · cases removed with
    | false =>
      obtain ⟨hpublished, rfl⟩ := hanswer
      refine ⟨.refl, .inr ⟨rfl, ?_, hs⟩⟩
      rw [← hs.content_eq, FileSystem.content, hpublished]
      rfl
    | true =>
      obtain ⟨hpublished, rfl⟩ := hanswer
      obtain ⟨hguar, hchanged⟩ := hremove hpublished
      exact ⟨hguar, .inl ⟨rfl, hexists ▸ hpublished, hchanged⟩⟩

/-- A section under the lock. -/
lemma safe_locked {p : Process (interface ε β) ε α} {P P' : α → FileSystem ι β → Prop}
    (hs : Consistent start s) (hfirst : ∀ earlier ∈ s.log, earlier.thread ≠ i)
    (hp : ∀ before s, Holding start i before s → (contract start allowed i).Safe P
      (fun _ s' => s'.holder = some i ∧ Consistent start s') p s)
    (hheld : ∀ a s, P a s → s.holder = some i ∧ Consistent start s)
    (hreleased : ∀ a s, P a s → P' a (s.release i)) :
    (contract start allowed i).Safe P' (fun _ s' => Consistent start s') (locked p) s := by
  -- others move until the lock is taken, and then nobody else writes
  intro s₁ hrely
  have hs₁ := hrely.consistent hs
  refine ⟨trivial, ?_⟩
  rintro (error | _) s₂ hanswer
  · obtain rfl : s₂ = s₁ := hanswer
    exact ⟨.refl, hs₁⟩
  · obtain ⟨hfree, rfl⟩ := hanswer
    refine ⟨guarantee_lock hfree, ?_⟩
    have hholding : Holding start i s₁.content { s₁ with holder := some i } :=
      { held := rfl
        consistent := ⟨hs₁.published_lt, hs₁.staged_lt, hs₁.apart, hs₁.logged⟩
        first := fun earlier hearlier hthread =>
          hfirst earlier (hrely.own earlier hearlier hthread) hthread
        content_eq := rfl }
    show (contract start allowed i).Safe P' _ ((p.attempt : Process _ ε (Except ε α)) >>=
      fun result => ask .unlock id >>= fun _ => Process.ofExcept result) _
    -- whatever the section ends with, the lock is given back before it is raised or returned
    refine Contract.Safe.bind
      (M := fun result s' => (s'.holder = some i ∧ Consistent start s') ∧
        ∀ a, result = .ok a → P' a (s'.release i))
      (E := fun _ s' => Consistent start s')
      (Contract.safe_attempt_iff.2 ((hp _ _ hholding).mono ?_ ?_)) ?_ fun _ _ h => h
    · intro a s' ha
      exact ⟨hheld a s' ha, fun b hb => Except.ok.inj hb ▸ hreleased a s' ha⟩
    · intro error s' herror
      exact ⟨herror, fun b hb => by cases hb⟩
    · rintro result s' ⟨⟨hholder, hs'⟩, hresult⟩
      refine Contract.Safe.bind
        (M := fun _ s'' => Consistent start s'' ∧ ∀ a, result = .ok a → P' a s'')
        (E := fun _ s'' => Consistent start s'') (safe_ask_holding hholder ?_) ?_ fun _ _ h => h
      · intro answer s'' hanswer
        obtain rfl : s'' = s'.release i := hanswer
        refine ⟨guarantee_release, ?_⟩
        cases answer with
        | ok _ => exact ⟨hs'.release, hresult⟩
        | error error => exact hs'.release
      · rintro _ s'' ⟨hs'', hends⟩
        cases result with
        | ok a => exact hends a rfl
        | error error => exact hs''

/-- A thread that may stop anywhere. -/
lemma safe_stoppable {p : Process (interface ε β) ε α} {post : α → FileSystem ι β → Prop}
    (hs : Consistent start s)
    (h : (contract start allowed i).Safe post (fun _ s' => Consistent start s') p s)
    (stop : Option Nat) :
    (contract start allowed i).Safe (fun result s' => ∀ a, result = some a → post a s')
      (fun _ s' => Consistent start s') (stoppable p stop) s := by
  cases stop with
  | none =>
    rw [stoppable, map_eq_pure_bind]
    refine h.bind (fun a s' ha => ?_) fun _ _ h => h
    exact fun b hb => Option.some.inj hb ▸ ha
  | some steps =>
    have hrely : ∀ op s s₁, Consistent start s → (contract (ε := ε) start allowed i).rely op s s₁ →
        Consistent start s₁ := fun _ _ _ hs hrely => Rely.consistent hrely hs
    have hguar : ∀ s₁ op answer s₂, Consistent start s₁ →
        (contract (ε := ε) start allowed i).guarantee s₁ op answer s₂ → Consistent start s₂ :=
      fun _ _ _ _ hs hguar => Guarantee.consistent hguar hs
    refine Contract.Safe.bind (M := fun _ s' => Consistent start s')
      (E := fun _ s' => Consistent start s')
      (Contract.safe_upTo hrely hguar h hs steps) ?_ fun _ _ h => h
    intro _ s' hs' s₁ hrely
    refine ⟨trivial, fun answer s₂ hanswer => ?_⟩
    obtain rfl : s₂ = s₁.release i := hanswer
    exact ⟨guarantee_release, fun a ha => by cases ha⟩

/-! ## A system without failures -/

/-- The answer of a system that never fails, if it has one: a lock that is held gives none. -/
def succeed (i : ι) (s : FileSystem ι β) :
    (op : Op β) → Option (Op.Answer ε op × FileSystem ι β)
  | .lock => if s.holder.isNone then some (.ok (), { s with holder := some i }) else none
  | .unlock => some (.ok (), s.release i)
  | .pathExists => some (.ok s.published.isSome, s)
  | .openRead => some (.ok s.published, s)
  | .read inode => some (.ok (s.texts inode), s)
  | .openWrite => some (.ok s.openStaged.1, s.openStaged.2)
  | .append inode chunk => some (.ok (), s.write inode (s.texts inode ++ chunk))
  | .replace => s.staged.map fun inode => (.ok (), s.publish i inode)
  | .unlink => if s.published.isSome then some (.ok true, s.remove i) else some (.ok false, s)

lemma surroundings_of_succeed {op : Op β} {answer : Op.Answer ε op}
    (h : succeed i s op = some (answer, s')) : surroundings i s op answer s' := by
  cases op with
  | lock =>
    simp only [succeed, Option.isNone_iff_eq_none] at h
    split_ifs at h with hfree
    cases h
    exact ⟨hfree, rfl⟩
  | unlock =>
    cases h
    rfl
  | pathExists | openRead | read inode =>
    cases h
    refine ⟨?_, rfl⟩
    rintro _ ⟨⟩
    rfl
  | openWrite | append inode chunk =>
    cases h
    rfl
  | replace =>
    obtain ⟨inode, hstaged, hanswer⟩ := Option.map_eq_some_iff.1 h
    cases hanswer
    exact ⟨inode, hstaged, rfl⟩
  | unlink =>
    simp only [succeed] at h
    split_ifs at h with hpublished
    · cases h
      exact ⟨hpublished, rfl⟩
    · cases h
      exact ⟨Option.not_isSome_iff_eq_none.1 hpublished, rfl⟩

/-! ## Runs -/

/-- At one point of the log the file held `before`, and there the thread made it `after`, or has
left it as it was. -/
def Applied (start : Option (List β)) (i : ι) (before after : Option (List β))
    (s : FileSystem ι β) : Prop :=
  ∃ seen, Runs Follows start seen before ∧
    (seen ++ [⟨i, before, after⟩] <+: s.log ∨ (after = before ∧ seen <+: s.log))

omit [DecidableEq ι] in
lemma Applied.mono {after : Option (List β)} (h : Applied start i before after s)
    (hlog : s.log <+: s'.log) : Applied start i before after s' := by
  obtain ⟨seen, hseen, h⟩ := h
  exact ⟨seen, hseen, h.imp (fun h => h.trans hlog) fun h => ⟨h.1, h.2.trans hlog⟩⟩

omit [DecidableEq ι] in
lemma Holding.applied (h : Holding start i before s) : Applied start i before before s :=
  ⟨s.log, h.content_eq ▸ h.consistent.logged, .inr ⟨rfl, List.prefix_refl _⟩⟩

omit [DecidableEq ι] in
lemma Changed.applied {after : Option (List β)} (h : Changed start i before after s) :
    Applied start i before after s := by
  obtain ⟨seen, hseen⟩ := h.last
  have hlogged := h.consistent.logged
  rw [hseen] at hlogged
  obtain ⟨content, hbefore, hlast⟩ := hlogged.last
  obtain rfl : before = content := hlast.1
  exact ⟨seen, hbefore, .inl (by rw [hseen])⟩

/-- The contents of the file went through the changes of the log, each of which its thread may make
of what it has replaced, and no two of which are of one thread. -/
structure Linear (start : Option (List β))
    (allowed : ι → Option (List β) → Option (List β) → Prop) (s : FileSystem ι β) : Prop where
  logged : Runs Follows start s.log s.content
  made : ∀ commit ∈ s.log, allowed commit.thread commit.before commit.after
  once : (s.log.map Commit.thread).Nodup

omit [DecidableEq ι] in
lemma Linear.of_guarantee (h : Linear start allowed s) (hs' : Consistent start s')
    (hguar : Guarantee start allowed i s s') : Linear start allowed s' := by
  rcases hguar.commits with hsame | ⟨commit, happend, hthread, hallowed, hfirst⟩
  · exact ⟨hs'.logged, by rw [hsame]; exact h.made, by rw [hsame]; exact h.once⟩
  · refine ⟨hs'.logged, ?_, ?_⟩
    · intro other hother
      rw [happend, List.mem_append, List.mem_singleton] at hother
      rcases hother with hother | rfl
      · exact h.made other hother
      · rw [hthread]
        exact hallowed
    · rw [happend, List.map_append, List.map_singleton, List.nodup_append]
      refine ⟨h.once, (by simp), ?_⟩
      rintro other hother last hlast rfl
      obtain ⟨earlier, hearlier, rfl⟩ := List.mem_map.1 hother
      exact hfirst earlier hearlier ((List.mem_singleton.1 hlast).trans hthread)

/-- Whatever the order of the steps, the log of the file is linear, and what a thread has returned
is as it should be. -/
theorem linear_of_runs {program : ι → Process (interface ε β) ε α}
    {post : ι → α → FileSystem ι β → Prop} {s₀ : FileSystem ι β}
    (hs₀ : Consistent s₀.content s₀) (hlog : s₀.log = [])
    (hsafe : ∀ i, (contract s₀.content allowed i).Safe (post i)
      (fun _ s' => Consistent s₀.content s') (program i) s₀)
    (hpost : ∀ i a s s', s.log <+: s'.log → post i a s → post i a s')
    {c : Config (interface ε β) ε α ι (FileSystem ι β)} {es : List (Event (interface ε β) ι)}
    (hrun : Runs (Config.Fires surroundings) ⟨s₀, program⟩ es c) :
    Linear s₀.content allowed c.state ∧ ∀ i a, c.program i = .done a → post i a c.state := by
  have hcompat : Contract.Compatible (ε := ε) (α := α) (surroundings (ε := ε) (ι := ι) (β := β))
      (contract s₀.content allowed) (fun _ _ _ => True) :=
    { answers := fun _ _ _ hfires _ => hfires.answered
      rely := fun _ _ _ _ hguar _ j hj _ _ => hguar.others j hj }
  have hrun' : Runs (fun c e c' => Config.Fires surroundings c e c' ∧ True) ⟨s₀, program⟩ es c :=
    hrun.mono fun _ _ _ h => ⟨h, trivial⟩
  constructor
  · have hboth : Consistent s₀.content c.state ∧ Linear s₀.content allowed c.state := by
      clear hrun
      induction hrun' with
      | nil =>
        refine ⟨hs₀, hs₀.logged, ?_, ?_⟩
        · simp [hlog]
        · simp [hlog]
      | snoc hprev hlast ih =>
        have hguar := Contract.guarantee_of_runs hcompat hsafe hprev hlast.1 hlast.2
        exact ⟨hguar.consistent ih.1, ih.2.of_guarantee (hguar.consistent ih.1) hguar⟩
    exact hboth.2
  · intro i a hdone
    have hends := Contract.safe_of_runs hcompat
      (fun c e c' _ hguar _ j hj => ⟨fun a ha => hpost j a _ _ (hguar.others j hj).log ha,
        fun _ h => hguar.consistent h⟩) hsafe hrun' i
    rw [hdone] at hends
    exact hends

end AtomicFile
