import OpencodeSession.Framework.History

/-!
# One process alone

A process that runs by itself with a record of its events, under a condition on its steps: the
contract in which nobody else moves.  What is to hold after every step is the guarantee, so a
predicate on states and records is shown of every run by `holds_of_alone`, from the safety of the
process, which the rules below establish request by request or, for a part of which only the kinds
of its requests matter, at once.
-/

namespace Contract

variable {I : Interface} {ε α σ : Type}

section

variable (responds : Surroundings I Unit σ) (cond : σ × List (Event I Unit) → I.Op → Prop)
  (holds : σ × List (Event I Unit) → Prop)

/-- The contract of a process that is alone, whose steps meet a condition on the state before them
and leave a state in which a predicate holds. -/
def alone : Contract I (σ × List (Event I Unit)) where
  responds s op answer s' := responds.recording () s op answer s' ∧ cond s op
  rely _ s s' := s' = s
  rely_refl _ _ := rfl
  rely_trans _ _ _ _ h h' := h'.trans h
  guarantee _ _ _ s' := holds s'
  mayCut := True

end

variable {responds : Surroundings I Unit σ} {cond : σ × List (Event I Unit) → I.Op → Prop}
  {holds : σ × List (Event I Unit) → Prop} {post : α → σ × List (Event I Unit) → Prop}
  {err : ε → σ × List (Event I Unit) → Prop} {s : σ × List (Event I Unit)}

lemma safe_call_alone {op : I.Op} {k : I.Answer op → Process I ε α}
    (h : ∀ answer s', responds () s.1 op answer s' → cond s op →
      holds (s', s.2 ++ [⟨(), op, answer⟩]) ∧
        (alone responds cond holds).Safe post err (k answer) (s', s.2 ++ [⟨(), op, answer⟩])) :
    (alone responds cond holds).Safe post err (.call op k) s := by
  rintro s₁ rfl
  refine ⟨trivial, ?_⟩
  rintro answer ⟨s', events⟩ ⟨⟨hanswer, hevents⟩, hcond⟩
  have hrecord : events = s₁.2 ++ [⟨(), op, answer⟩] := hevents
  subst hrecord
  exact h answer s' hanswer hcond

/-- The obligation of a part of which the kinds of requests and an assertion that they keep say
enough. -/
lemma safe_alone_of_within {P : I.Op → Prop} {Q : α → Prop}
    {J : σ × List (Event I Unit) → Prop} {p : Process I ε α} (h : p.Within P Q)
    (hstep : ∀ op s answer s', P op → J s → responds () s.1 op answer s' → cond s op →
      holds (s', s.2 ++ [⟨(), op, answer⟩]) ∧ J (s', s.2 ++ [⟨(), op, answer⟩]))
    (hs : J s) :
    (alone responds cond holds).Safe (fun a s => Q a ∧ J s) (fun _ s => J s) p s := by
  refine safe_of_within (fun op s s₁ hop hJ hrely => ⟨trivial, ?_⟩) trivial h hs
  have hsame : s₁ = s := hrely
  subst hsame
  rintro answer ⟨s', events⟩ ⟨⟨hanswer, hevents⟩, hcond⟩
  have hrecord : events = s₁.2 ++ [⟨(), op, answer⟩] := hevents
  subst hrecord
  exact hstep op s₁ answer s' hop hJ hanswer hcond

/-- The obligation of a part that keeps to its requests until something has happened: until `K`
holds the answers satisfy `R` and the assertion `J` is kept, and from then on `K` is. -/
lemma safe_alone_unless {N P : I.Op → Prop} {R : ∀ op, I.Answer op → Prop} {Q : α → Prop}
    {J K : σ × List (Event I Unit) → Prop} {p : Process I ε α} (hN : p.Within N fun _ => True)
    (h : p.WithinWhen R P Q)
    (hK : ∀ op s answer s', N op → K s → responds () s.1 op answer s' → cond s op →
      holds (s', s.2 ++ [⟨(), op, answer⟩]) ∧ K (s', s.2 ++ [⟨(), op, answer⟩]))
    (hJ : ∀ op s answer s', N op → P op → J s → responds () s.1 op answer s' → cond s op →
      holds (s', s.2 ++ [⟨(), op, answer⟩]) ∧ (K (s', s.2 ++ [⟨(), op, answer⟩]) ∨
        (J (s', s.2 ++ [⟨(), op, answer⟩]) ∧ R op answer)))
    (hs : K s ∨ J s) :
    (alone responds cond holds).Safe (fun a s => K s ∨ (Q a ∧ J s)) (fun _ s => K s ∨ J s) p s := by
  have hafter : ∀ (p : Process I ε α) (s : σ × List (Event I Unit)), p.Within N (fun _ => True) →
      K s → (alone responds cond holds).Safe (fun a s => K s ∨ (Q a ∧ J s))
        (fun _ s => K s ∨ J s) p s :=
    fun p s hp hs => (safe_alone_of_within hp hK hs).mono (fun _ _ h => .inl h.2) fun _ _ h => .inl h
  induction p generalizing s with
  | done a => exact hs.imp_right fun hs => ⟨h, hs⟩
  | raise e => exact hs
  | cut => trivial
  | call op k ih =>
    rcases hs with hs | hs
    · exact hafter _ s hN hs
    · refine safe_call_alone fun answer s' hanswer hcond => ?_
      obtain ⟨hholds, hnext⟩ := hJ op s answer s' hN.1 h.1 hs hanswer hcond
      refine ⟨hholds, ?_⟩
      rcases hnext with hnext | ⟨hnext, hR⟩
      · exact hafter _ _ (hN.2 answer) hnext
      · exact ih answer (hN.2 answer) (h.2 answer hR) (.inr hnext)

/-- What a process ends with by two proofs holds together, whatever else the second one promises. -/
lemma Safe.and_alone {holds' : σ × List (Event I Unit) → Prop}
    {post' : α → σ × List (Event I Unit) → Prop} {err' : ε → σ × List (Event I Unit) → Prop}
    {p : Process I ε α} (h : (alone responds cond holds).Safe post err p s)
    (h' : (alone responds cond holds').Safe post' err' p s) :
    (alone responds cond holds).Safe (fun a s => post a s ∧ post' a s)
      (fun e s => err e s ∧ err' e s) p s := by
  induction p generalizing s with
  | done a => exact ⟨h, h'⟩
  | raise e => exact ⟨h, h'⟩
  | cut => trivial
  | call op k ih =>
    refine safe_call_alone fun answer s' hanswer hcond => ?_
    obtain ⟨hholds, hnext⟩ := (h s rfl).2 answer (s', s.2 ++ [⟨(), op, answer⟩])
      ⟨⟨hanswer, rfl⟩, hcond⟩
    obtain ⟨-, hnext'⟩ := (h' s rfl).2 answer (s', s.2 ++ [⟨(), op, answer⟩])
      ⟨⟨hanswer, rfl⟩, hcond⟩
    exact ⟨hholds, ih answer hnext hnext'⟩

/-- A process that may be stopped after any number of requests leaves what its steps promise. -/
lemma safe_alone_upTo {p : Process I ε α} (h : (alone responds cond holds).Safe post err p s)
    (hs : holds s) (steps : Nat) :
    (alone responds cond holds).Safe (fun _ s => holds s) (fun _ _ => True)
      (p.upTo steps : Process I ε Unit) s := by
  induction p generalizing s steps with
  | done a => exact hs
  | raise e => exact hs
  | cut => exact hs
  | call op k ih =>
    cases steps with
    | zero => exact hs
    | succ steps =>
      refine safe_call_alone fun answer s' hanswer hcond => ?_
      obtain ⟨hholds, hnext⟩ := (h s rfl).2 answer (s', s.2 ++ [⟨(), op, answer⟩])
        ⟨⟨hanswer, rfl⟩, hcond⟩
      exact ⟨hholds, ih answer hnext hholds steps⟩

/-- Soundness: what each step of a safe process guarantees holds after every run whose steps meet
the condition. -/
theorem holds_of_alone {program : Process I ε α} {start : σ}
    (hsafe : (alone responds cond holds).Safe post err program (start, []))
    (hstart : holds (start, [])) {c : Config I ε α Unit (σ × List (Event I Unit))}
    {es : List (Event I Unit)}
    (hrun : Runs (fun c e c' => Config.Fires responds.recording c e c' ∧ cond c.state e.op)
      ⟨(start, []), fun _ => program⟩ es c) : holds c.state := by
  have hcompat : Compatible responds.recording
      (fun _ : Unit => alone responds cond holds)
      (fun (c : Config I ε α Unit (σ × List (Event I Unit))) e _ => cond c.state e.op) :=
    { answers := fun c e c' hfires hcond => ⟨hfires.answered, hcond⟩
      rely := fun c e c' _ _ _ j hj => absurd rfl hj }
  cases hrun with
  | nil => exact hstart
  | snoc hprev hlast =>
    exact guarantee_of_runs hcompat (fun _ => hsafe) hprev hlast.1 hlast.2

/-- Soundness: a safe process stays safe along every run whose steps meet the condition, and so ends
as it should. -/
theorem safe_of_alone {program : Process I ε α} {start : σ}
    (hsafe : (alone responds cond holds).Safe post err program (start, []))
    {c : Config I ε α Unit (σ × List (Event I Unit))} {es : List (Event I Unit)}
    (hrun : Runs (fun c e c' => Config.Fires responds.recording c e c' ∧ cond c.state e.op)
      ⟨(start, []), fun _ => program⟩ es c) :
    (alone responds cond holds).Safe post err (c.program ()) c.state := by
  refine hrun.invariant
    (J := fun c => (alone responds cond holds).Safe post err (c.program ()) c.state) hsafe ?_
  rintro c e c' ⟨hfires, hcond⟩ hc
  obtain ⟨k, hprog, hprog'⟩ := hfires.resumed
  rw [hprog] at hc
  rw [hprog', Function.update_self]
  exact ((hc c.state rfl).2 e.answer c'.state ⟨hfires.answered, hcond⟩).2

theorem post_of_alone {program : Process I ε α} {start : σ}
    (hsafe : (alone responds (fun _ _ => True) holds).Safe post err program (start, []))
    {c : Config I ε α Unit σ} {es : List (Event I Unit)}
    (hrun : Runs (Config.Fires responds) ⟨start, fun _ => program⟩ es c) {a : α}
    (hdone : c.program () = .done a) : post a (c.state, es) := by
  have hrun' : Runs (fun c e c' => Config.Fires responds c e c' ∧ True) ⟨start, fun _ => program⟩
      es c := hrun.mono fun _ _ _ hfires => ⟨hfires, trivial⟩
  have hends := safe_of_alone hsafe (Config.runs_recording hrun')
  rw [Config.record_program, hdone] at hends
  exact hends

/-- Soundness for a run without conditions: what each step of a safe process guarantees holds of the
state with the events of the run as its record. -/
theorem holds_of_alone_run {program : Process I ε α} {start : σ}
    (hsafe : (alone responds (fun _ _ => True) holds).Safe post err program (start, []))
    (hstart : holds (start, [])) {c : Config I ε α Unit σ} {es : List (Event I Unit)}
    (hrun : Runs (Config.Fires responds) ⟨start, fun _ => program⟩ es c) : holds (c.state, es) := by
  have hrun' : Runs (fun c e c' => Config.Fires responds c e c' ∧ True) ⟨start, fun _ => program⟩
      es c := hrun.mono fun _ _ _ hfires => ⟨hfires, trivial⟩
  have hholds := holds_of_alone hsafe hstart (Config.runs_recording hrun')
  rwa [Config.record_state] at hholds

lemma record_of_runs {program : Unit → Process I ε α} {start : σ}
    {c : Config I ε α Unit (σ × List (Event I Unit))} {es : List (Event I Unit)}
    (hrun : Runs (fun c e c' => Config.Fires responds.recording c e c' ∧ cond c.state e.op)
      ⟨(start, []), program⟩ es c) : c.state.2 = es := by
  refine hrun.invariant_with_labels (J := fun es c => c.state.2 = es) rfl ?_
  rintro es c e c' ⟨hfires, -⟩ hes
  rw [hfires.answered.2, hes]

end Contract
