import Mathlib.Logic.Function.Basic
import OpencodeSession.Framework.Process
import OpencodeSession.Framework.Runs

/-!
# Processes sharing a state

Several processes, one for each thread name, work on one shared state.  A step answers the request
one thread is waiting for: the surroundings, given as a relation, say which answers are possible
in the current state and which state each leaves behind.  A step is atomic, and any waiting thread
may take the next one, so the runs of the system are all its interleavings, cut at any point: a
thread that takes no further step has crashed.

`play` runs a system along a given schedule against surroundings that answer by a function.  It is
how a particular interleaving is exhibited: what it computes is a run (`runs_of_play`).
-/

/-- One step of a system: which thread made which request and what it was answered. -/
structure Event (I : Interface) (ι : Type) where
  /-- The thread that took the step. -/
  thread : ι
  /-- The request it was waiting with. -/
  op : I.Op
  /-- The answer it got. -/
  answer : I.Answer op

/-- The shared state and what is left of every thread's process. -/
structure Config (I : Interface) (ε α ι σ : Type) where
  /-- The state the threads share. -/
  state : σ
  /-- What each thread has still to do. -/
  program : ι → Process I ε α

/-- The surroundings of a system: for each thread, which answers a request may get in a state and
which state the answer leaves. -/
abbrev Surroundings (I : Interface) (ι σ : Type) : Type :=
  ι → σ → (op : I.Op) → I.Answer op → σ → Prop

namespace Config

variable {I : Interface} {ε α ι σ : Type}

/-- The request a thread is waiting with, if it is waiting. -/
def pending (c : Config I ε α ι σ) (i : ι) : Option I.Op :=
  match c.program i with
  | .call op _ => some op
  | _ => none

lemma pending_of_call {c : Config I ε α ι σ} {i : ι} {op : I.Op}
    {k : I.Answer op → Process I ε α} (h : c.program i = .call op k) :
    c.pending i = some op := by
  simp [pending, h]

lemma call_of_pending {c : Config I ε α ι σ} {i : ι} {op : I.Op} (h : c.pending i = some op) :
    ∃ k, c.program i = .call op k := by
  unfold pending at h
  split at h
  · next op' k hprog =>
    cases h
    exact ⟨k, hprog⟩
  · cases h

variable [DecidableEq ι]

/-- One step: the request of one thread is answered. -/
structure Fires (responds : Surroundings I ι σ) (c : Config I ε α ι σ) (e : Event I ι)
    (c' : Config I ε α ι σ) : Prop where
  /-- The thread was waiting with this request and continues with the answer. -/
  resumed : ∃ k, c.program e.thread = .call e.op k ∧
    c'.program = Function.update c.program e.thread (k e.answer)
  /-- The surroundings can answer so. -/
  answered : responds e.thread c.state e.op e.answer c'.state

lemma Fires.pending {responds : Surroundings I ι σ} {c c' : Config I ε α ι σ} {e : Event I ι}
    (h : Fires responds c e c') : c.pending e.thread = some e.op := by
  obtain ⟨k, hprog, -⟩ := h.resumed
  exact pending_of_call hprog

theorem within_of_runs {responds : Surroundings I ι σ} {P : ι → I.Op → Prop}
    {start c : Config I ε α ι σ} {es : List (Event I ι)}
    (hstart : ∀ i, (start.program i).Within (P i) fun _ => True)
    (hrun : Runs (Fires responds) start es c) :
    ∀ i, (c.program i).Within (P i) fun _ => True := by
  refine hrun.invariant (J := fun c => ∀ i, (c.program i).Within (P i) fun _ => True) hstart ?_
  rintro c e c' ⟨⟨k, hprog, hresume⟩, -⟩ hwithin i
  rw [hresume]
  by_cases hi : i = e.thread
  · subst hi
    have hcall := hwithin e.thread
    rw [hprog] at hcall
    rw [Function.update_self]
    exact hcall.2 e.answer
  · rw [Function.update_of_ne hi]
    exact hwithin i

lemma Fires.within {responds : Surroundings I ι σ} {P : ι → I.Op → Prop}
    {c c' : Config I ε α ι σ} {e : Event I ι} (h : Fires responds c e c')
    (hwithin : ∀ i, (c.program i).Within (P i) fun _ => True) : P e.thread e.op := by
  obtain ⟨k, hprog, -⟩ := h.resumed
  have hcall := hwithin e.thread
  rw [hprog] at hcall
  exact hcall.1

/-! ## Playing a schedule -/

/-- Surroundings that answer by a function, as one step of a schedule: the thread to move and the
answer it gets. -/
structure Turn (I : Interface) (ι σ : Type) where
  /-- The thread that moves. -/
  thread : ι
  /-- Its answer and the state left behind, as a function of the request and the state. -/
  reply : σ → (op : I.Op) → Option (I.Answer op × σ)

/-- Take one turn, if the thread is waiting and the turn has an answer for it. -/
def take (turn : Turn I ι σ) (c : Config I ε α ι σ) : Option (Event I ι × Config I ε α ι σ) :=
  match c.program turn.thread with
  | .call op k =>
    match turn.reply c.state op with
    | some (answer, s) =>
      some (⟨turn.thread, op, answer⟩,
        ⟨s, Function.update c.program turn.thread (k answer)⟩)
    | none => none
  | _ => none

/-- Take the turns of a schedule, first to last. -/
def play : List (Turn I ι σ) → Config I ε α ι σ → Option (List (Event I ι) × Config I ε α ι σ)
  | [], c => some ([], c)
  | turn :: turns, c =>
    match c.take turn with
    | some (e, c') =>
      match c'.play turns with
      | some (es, c'') => some (e :: es, c'')
      | none => none
    | none => none

end Config

namespace Config

variable {I : Interface} {ε α ι σ : Type} [DecidableEq ι] {responds : Surroundings I ι σ}

/-- A turn whose answer the surroundings allow is a step. -/
lemma fires_of_take {turn : Turn I ι σ} {c c' : Config I ε α ι σ} {e : Event I ι}
    (hreply : ∀ s op answer s', turn.reply s op = some (answer, s') →
      responds turn.thread s op answer s')
    (h : c.take turn = some (e, c')) : Fires responds c e c' := by
  unfold take at h
  split at h
  · next op k hprog =>
    split at h
    · next answer s hs =>
      cases h
      exact ⟨⟨k, hprog, rfl⟩, hreply _ _ _ _ hs⟩
    · cases h
  · cases h

/-- A schedule whose answers the surroundings allow is a run. -/
theorem runs_of_play {turns : List (Turn I ι σ)} {c c' : Config I ε α ι σ}
    {es : List (Event I ι)}
    (hreply : ∀ turn ∈ turns, ∀ s op answer s', turn.reply s op = some (answer, s') →
      responds turn.thread s op answer s')
    (h : c.play turns = some (es, c')) : Runs (Fires responds) c es c' := by
  induction turns generalizing c es with
  | nil =>
    cases h
    exact .nil
  | cons turn turns ih =>
    unfold play at h
    split at h
    · next e here htake =>
      split at h
      · next es' there hplay =>
        cases h
        exact .cons (fires_of_take (hreply turn (by simp)) htake)
          (ih (fun t ht => hreply t (by simp [ht])) hplay)
      · cases h
    · cases h

end Config
