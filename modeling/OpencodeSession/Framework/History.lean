import OpencodeSession.Framework.RelyGuarantee

/-!
# Runs that remember

What a thread owes can depend on what happened before: that a request is made at most once, or
only after another one.  `Surroundings.recording` adds the events so far to the shared state, where
a contract can speak about them.  Recording changes nothing else: the runs of a system are the runs
of the recording system with the record left out (`runs_recording`).
-/

namespace Surroundings

variable {I : Interface} {ι σ : Type}

/-- The same answers, with every event appended to the state. -/
def recording (responds : Surroundings I ι σ) : Surroundings I ι (σ × List (Event I ι)) :=
  fun i s op answer s' => responds i s.1 op answer s'.1 ∧ s'.2 = s.2 ++ [⟨i, op, answer⟩]

end Surroundings

namespace Config

variable {I : Interface} {ε α ι σ : Type}

/-- A configuration with the events that led to it. -/
def record (c : Config I ε α ι σ) (es : List (Event I ι)) :
    Config I ε α ι (σ × List (Event I ι)) :=
  ⟨(c.state, es), c.program⟩

/-- A recorded configuration without its record. -/
def forget (c : Config I ε α ι (σ × List (Event I ι))) : Config I ε α ι σ :=
  ⟨c.state.1, c.program⟩

@[simp] lemma forget_record (c : Config I ε α ι σ) (es : List (Event I ι)) :
    (c.record es).forget = c := rfl

@[simp] lemma record_program (c : Config I ε α ι σ) (es : List (Event I ι)) :
    (c.record es).program = c.program := rfl

@[simp] lemma record_state (c : Config I ε α ι σ) (es : List (Event I ι)) :
    (c.record es).state = (c.state, es) := rfl

@[simp] lemma forget_pending (c : Config I ε α ι (σ × List (Event I ι))) (i : ι) :
    c.forget.pending i = c.pending i := rfl

@[simp] lemma forget_state (c : Config I ε α ι (σ × List (Event I ι))) :
    c.forget.state = c.state.1 := rfl

variable [DecidableEq ι] {responds : Surroundings I ι σ}

lemma Fires.record {c c' : Config I ε α ι σ} {e : Event I ι} (h : Fires responds c e c')
    (es : List (Event I ι)) :
    Fires responds.recording (c.record es) e (c'.record (es ++ [e])) :=
  ⟨h.resumed, h.answered, rfl⟩

lemma Fires.forget {c c' : Config I ε α ι (σ × List (Event I ι))} {e : Event I ι}
    (h : Fires responds.recording c e c') : Fires responds c.forget e c'.forget :=
  ⟨h.resumed, h.answered.1⟩

theorem runs_recording {cond : Config I ε α ι σ → Event I ι → Config I ε α ι σ → Prop}
    {start c : Config I ε α ι σ} {es : List (Event I ι)}
    (hrun : Runs (fun c e c' => Fires responds c e c' ∧ cond c e c') start es c) :
    Runs (fun c e c' => Fires responds.recording c e c' ∧ cond c.forget e c'.forget)
      (start.record []) es (c.record es) := by
  induction hrun with
  | nil => exact .nil
  | snoc _ hstep ih => exact .snoc ih ⟨hstep.1.record _, hstep.2⟩

/-- A recorded run without its record is a run, under a condition that does not look at it. -/
theorem runs_forget (cond : σ → I.Op → Prop) {start c : Config I ε α ι (σ × List (Event I ι))}
    {es : List (Event I ι)}
    (hrun : Runs (fun c e c' => Fires responds.recording c e c' ∧ cond c.state.1 e.op) start es c) :
    Runs (fun c e c' => Fires responds c e c' ∧ cond c.state e.op) start.forget es c.forget := by
  induction hrun with
  | nil => exact .nil
  | snoc _ hstep ih => exact .snoc ih ⟨hstep.1.forget, hstep.2⟩

end Config

namespace Contract

variable {I : Interface} {ε α ι σ : Type} [DecidableEq ι]
  {contract : ι → Contract I (σ × List (Event I ι))}
  {post : ι → α → σ × List (Event I ι) → Prop} {err : ι → ε → σ × List (Event I ι) → Prop}
  {responds : Surroundings I ι σ}
  {cond : Config I ε α ι σ → Event I ι → Config I ε α ι σ → Prop}

theorem guarantee_of_recorded_runs
    (hcompat : Compatible responds.recording contract fun c e c' => cond c.forget e c'.forget)
    {start c c' : Config I ε α ι σ} {es : List (Event I ι)} {e : Event I ι}
    (hstart : ∀ i, (contract i).Safe (post i) (err i) (start.program i) (start.state, []))
    (hrun : Runs (fun c e c' => Config.Fires responds c e c' ∧ cond c e c') start es c)
    (hfires : Config.Fires responds c e c') (hcond : cond c e c') :
    (contract e.thread).guarantee (c.state, es) e.op e.answer (c'.state, es ++ [e]) :=
  guarantee_of_runs hcompat hstart (Config.runs_recording hrun) (hfires.record es) hcond

theorem waits_of_recorded_runs
    (hcompat : Compatible responds.recording contract fun c e c' => cond c.forget e c'.forget)
    {start c : Config I ε α ι σ} {es : List (Event I ι)}
    (hstart : ∀ i, (contract i).Safe (post i) (err i) (start.program i) (start.state, []))
    (hrun : Runs (fun c e c' => Config.Fires responds c e c' ∧ cond c e c') start es c) {i : ι}
    {op : I.Op} (hpending : c.pending i = some op) : (contract i).waits op (c.state, es) :=
  waits_of_runs hcompat hstart (Config.runs_recording hrun) hpending

end Contract
