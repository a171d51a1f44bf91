import OpencodeSession.Framework.Interleaving

/-!
# Rely and guarantee

A contract says what one thread may expect and what it promises.  The *rely* relation bounds how
the others change the state while the thread waits; it may depend on the request the thread is
waiting with, so that a thread can ask for quiet exactly in the window in which it needs it.  The
*guarantee* is what every step of the thread satisfies.

`Contract.Safe` is the obligation of a process under a contract, by recursion on the process.  Its
rules follow the ways processes are built: `safe_bind_iff`, `safe_handle_iff`, `safe_attempt_iff`.
`Contract.safe_of_runs` is soundness: if every step of a run respects what the waiting threads rely
on, every step of the run satisfies the guarantee of its thread.
-/

/-- What a thread expects of its surroundings and of the other threads, and what it promises. -/
structure Contract (I : Interface) (σ : Type) where
  /-- The answers the thread can get. -/
  responds : σ → (op : I.Op) → I.Answer op → σ → Prop
  /-- How the others may change the state while the thread waits with a request. -/
  rely : I.Op → σ → σ → Prop
  /-- The others may do nothing. -/
  rely_refl : ∀ op s, rely op s s
  /-- What the others may do they may do again. -/
  rely_trans : ∀ op s s' s'', rely op s s' → rely op s' s'' → rely op s s''
  /-- What holds all the while the thread waits with a request. -/
  waits : I.Op → σ → Prop := fun _ _ => True
  /-- What each step of the thread promises. -/
  guarantee : σ → (op : I.Op) → I.Answer op → σ → Prop
  /-- Whether the bound of a loop may be reached. -/
  mayCut : Prop

namespace Contract

variable {I : Interface} {ε ε' α β σ : Type} (C : Contract I σ)

/-- The process meets the contract from this state on: whatever the others do within the rely and
whatever the answers are, its steps keep the guarantee and it ends in `post` or raises in `err`. -/
def Safe (post : α → σ → Prop) (err : ε → σ → Prop) : Process I ε α → σ → Prop
  | .done a, s => post a s
  | .raise e, s => err e s
  | .cut, _ => C.mayCut
  | .call op k, s => ∀ s₁, C.rely op s s₁ → C.waits op s₁ ∧
      ∀ answer s₂, C.responds s₁ op answer s₂ →
        C.guarantee s₁ op answer s₂ ∧ Safe post err (k answer) s₂

variable {C} {post post' : α → σ → Prop} {err err' : ε → σ → Prop} {s s' : σ}

@[simp] lemma safe_done {a : α} :
    C.Safe post err (.done a : Process I ε α) s ↔ post a s := Iff.rfl

@[simp] lemma safe_pure {a : α} :
    C.Safe post err (pure a : Process I ε α) s ↔ post a s := Iff.rfl

@[simp] lemma safe_raise {e : ε} :
    C.Safe post err (.raise e : Process I ε α) s ↔ err e s := Iff.rfl

@[simp] lemma safe_throw {e : ε} :
    C.Safe post err (throw e : Process I ε α) s ↔ err e s := Iff.rfl

@[simp] lemma safe_cut : C.Safe post err (.cut : Process I ε α) s ↔ C.mayCut := Iff.rfl

lemma safe_call {op : I.Op} {k : I.Answer op → Process I ε α} :
    C.Safe post err (.call op k) s ↔ ∀ s₁, C.rely op s s₁ → C.waits op s₁ ∧
      ∀ answer s₂, C.responds s₁ op answer s₂ →
        C.guarantee s₁ op answer s₂ ∧ C.Safe post err (k answer) s₂ := Iff.rfl

lemma safe_ofExcept {r : Except ε α} :
    C.Safe post err (Process.ofExcept r) s ↔
      match r with
      | .ok a => post a s
      | .error e => err e s := by
  cases r <;> rfl

/-- Sequencing: the first process ends where the second is safe. -/
lemma safe_bind_iff {p : Process I ε α} {f : α → Process I ε β} {post : β → σ → Prop} :
    C.Safe post err (p >>= f) s ↔ C.Safe (fun a s => C.Safe post err (f a) s) err p s := by
  induction p generalizing s with
  | done a => rfl
  | raise e => rfl
  | cut => rfl
  | call op k ih =>
    rw [Process.call_bind, safe_call, safe_call]
    refine forall_congr' fun s₁ => forall_congr' fun _ => and_congr_right fun _ =>
      forall_congr' fun answer => forall_congr' fun s₂ => forall_congr' fun _ => ?_
    rw [ih]

/-- Handling: the process ends in the postcondition, or raises where the handler is safe. -/
lemma safe_handle_iff {p : Process I ε α} {h : ε → Process I ε' α} {err : ε' → σ → Prop} :
    C.Safe post err (p.handle h) s ↔ C.Safe post (fun e s => C.Safe post err (h e) s) p s := by
  induction p generalizing s with
  | done a => rfl
  | raise e => rfl
  | cut => rfl
  | call op k ih =>
    rw [Process.handle, safe_call, safe_call]
    refine forall_congr' fun s₁ => forall_congr' fun _ => and_congr_right fun _ =>
      forall_congr' fun answer => forall_congr' fun s₂ => forall_congr' fun _ => ?_
    rw [ih]

lemma safe_tryCatch_iff {p : Process I ε α} {h : ε → Process I ε α} :
    C.Safe post err (tryCatch p h) s ↔
      C.Safe post (fun e s => C.Safe post err (h e) s) p s :=
  safe_handle_iff

/-- An attempt turns both ends of the process into values. -/
lemma safe_attempt_iff {p : Process I ε α} {post : Except ε α → σ → Prop}
    {err : ε' → σ → Prop} :
    C.Safe post err (p.attempt : Process I ε' (Except ε α)) s ↔
      C.Safe (fun a s => post (.ok a) s) (fun e s => post (.error e) s) p s := by
  induction p generalizing s with
  | done a => rfl
  | raise e => rfl
  | cut => rfl
  | call op k ih =>
    rw [Process.attempt, safe_call, safe_call]
    refine forall_congr' fun s₁ => forall_congr' fun _ => and_congr_right fun _ =>
      forall_congr' fun answer => forall_congr' fun s₂ => forall_congr' fun _ => ?_
    rw [ih]

lemma safe_ofExcept_bind {r : Except ε α} {f : α → Process I ε β} {post : β → σ → Prop}
    (hok : ∀ a, r = .ok a → C.Safe post err (f a) s) (herr : ∀ e, r = .error e → err e s) :
    C.Safe post err (Process.ofExcept r >>= f) s := by
  cases r with
  | ok a => exact hok a rfl
  | error e => exact herr e rfl

/-- Weaker ends are easier to meet. -/
lemma Safe.mono {p : Process I ε α} (h : C.Safe post err p s)
    (hpost : ∀ a s, post a s → post' a s) (herr : ∀ e s, err e s → err' e s) :
    C.Safe post' err' p s := by
  induction p generalizing s with
  | done a => exact hpost a s h
  | raise e => exact herr e s h
  | cut => exact h
  | call op k ih =>
    intro s₁ hrely
    obtain ⟨hwaits, hsteps⟩ := h s₁ hrely
    refine ⟨hwaits, fun answer s₂ hresp => ?_⟩
    obtain ⟨hguar, hrest⟩ := hsteps answer s₂ hresp
    exact ⟨hguar, ih answer hrest⟩

/-- Sequencing with an intermediate assertion. -/
lemma Safe.bind {p : Process I ε α} {f : α → Process I ε β} {post : β → σ → Prop}
    {M : α → σ → Prop} {E : ε → σ → Prop} (h : C.Safe M E p s)
    (hmid : ∀ a s, M a s → C.Safe post err (f a) s) (herr : ∀ e s, E e s → err e s) :
    C.Safe post err (p >>= f) s :=
  safe_bind_iff.2 (h.mono hmid herr)

lemma Safe.of_rely {op : I.Op} {k : I.Answer op → Process I ε α}
    (h : C.Safe post err (.call op k) s) (hrely : C.rely op s s') :
    C.Safe post err (.call op k) s' :=
  fun s₁ h₁ => h s₁ (C.rely_trans op s s' s₁ hrely h₁)

/-- A process is safe if each request it can make is, in every state that satisfies an assertion
which the steps keep. -/
lemma safe_of_within {P : I.Op → Prop} {Q : α → Prop} {J : σ → Prop} {p : Process I ε α}
    (hstep : ∀ op s s₁, P op → J s → C.rely op s s₁ → C.waits op s₁ ∧
      ∀ answer s₂, C.responds s₁ op answer s₂ → C.guarantee s₁ op answer s₂ ∧ J s₂)
    (hcut : C.mayCut) (h : p.Within P Q) (hs : J s) :
    C.Safe (fun a s => Q a ∧ J s) (fun _ s => J s) p s := by
  induction p generalizing s with
  | done a => exact ⟨h, hs⟩
  | raise e => exact hs
  | cut => exact hcut
  | call op k ih =>
    intro s₁ hrely
    obtain ⟨hwaits, hanswers⟩ := hstep op s s₁ h.1 hs hrely
    refine ⟨hwaits, fun answer s₂ hresp => ?_⟩
    obtain ⟨hguar, hJ⟩ := hanswers answer s₂ hresp
    exact ⟨hguar, ih answer (h.2 answer) hJ⟩

/-- A process that may be stopped after any number of requests ends in an assertion that what the
others do and its own steps keep. -/
lemma safe_upTo {J : σ → Prop} {ends : ε' → σ → Prop} (hrely : ∀ op s s₁, J s → C.rely op s s₁ → J s₁)
    (hguar : ∀ s₁ op answer s₂, J s₁ → C.guarantee s₁ op answer s₂ → J s₂) {p : Process I ε α}
    (h : C.Safe post err p s) (hs : J s) (steps : Nat) :
    C.Safe (fun _ s => J s) ends (p.upTo steps : Process I ε' Unit) s := by
  induction p generalizing s steps with
  | done a => exact hs
  | raise e => exact hs
  | cut => exact hs
  | call op k ih =>
    cases steps with
    | zero => exact hs
    | succ steps =>
      intro s₁ hs₁
      obtain ⟨hwaits, hanswers⟩ := h s₁ hs₁
      refine ⟨hwaits, fun answer s₂ hresp => ?_⟩
      obtain ⟨hguarantee, hnext⟩ := hanswers answer s₂ hresp
      have hJ : J s₂ := hguar s₁ op answer s₂ (hrely op s s₁ hs hs₁) hguarantee
      exact ⟨hguarantee, ih answer hnext hJ steps⟩

/-- A loop keeps an assertion on the items it is done with. -/
lemma safe_foldlM {step : β → α → Process I ε β} {items : List α} {J : List α → β → σ → Prop}
    (hstep : ∀ front item rest b s, items = front ++ item :: rest → J front b s →
      C.Safe (J (front ++ [item])) err (step b item) s)
    {b : β} (hs : J [] b s) : C.Safe (J items) err (items.foldlM step b) s := by
  have hloop : ∀ rest front b s, items = front ++ rest → J front b s →
      C.Safe (J items) err (rest.foldlM step b) s := by
    intro rest
    induction rest with
    | nil =>
      rintro front b s hitems hJ
      rw [List.append_nil] at hitems
      exact hitems ▸ hJ
    | cons item rest ih =>
      intro front b s hitems hJ
      rw [List.foldlM_cons]
      refine (hstep front item rest b s hitems hJ).bind (fun b' s' hJ' => ?_) fun _ _ h => h
      exact ih (front ++ [item]) b' s' (by rw [hitems, List.append_assoc, List.singleton_append]) hJ'
  exact hloop items [] b s rfl hs

/-! ## Soundness -/

/-- A thread that is still waiting is safe.  A thread that has ended owes nothing more. -/
def Waiting (C : Contract I σ) (post : α → σ → Prop) (err : ε → σ → Prop)
    (p : Process I ε α) (s : σ) : Prop :=
  match p with
  | .call op k => C.Safe post err (.call op k) s
  | .cut => C.mayCut
  | _ => True

lemma Safe.waiting {p : Process I ε α} (h : C.Safe post err p s) :
    C.Waiting post err p s := by
  cases p with
  | done a => trivial
  | raise e => trivial
  | cut => exact h
  | call op k => exact h

section Soundness

variable {ι : Type} [DecidableEq ι] {contract : ι → Contract I σ}
  {post : ι → α → σ → Prop} {err : ι → ε → σ → Prop}

/-- The system obligations on the steps that meet a condition: each is among the answers the
thread's contract allows, and each respects what every other waiting thread relies on. -/
structure Compatible (responds : Surroundings I ι σ) (contract : ι → Contract I σ)
    (cond : Config I ε α ι σ → Event I ι → Config I ε α ι σ → Prop) : Prop where
  /-- A step that meets the condition is answered as the contract of its thread says. -/
  answers : ∀ c e c', Config.Fires responds c e c' → cond c e c' →
    (contract e.thread).responds c.state e.op e.answer c'.state
  /-- A step that keeps its own guarantee and meets the condition is within every other rely. -/
  rely : ∀ c e c', Config.Fires responds c e c' →
    (contract e.thread).guarantee c.state e.op e.answer c'.state → cond c e c' →
      ∀ j, j ≠ e.thread → ∀ op, c.pending j = some op →
        (contract j).rely op c.state c'.state

variable {responds : Surroundings I ι σ}
  {cond : Config I ε α ι σ → Event I ι → Config I ε α ι σ → Prop}

/-- In a configuration whose threads are all safe, a step that meets the condition keeps the
guarantee of its thread. -/
lemma guarantee_of_fires (hcompat : Compatible responds contract cond)
    {c c' : Config I ε α ι σ} {e : Event I ι}
    (hsafe : ∀ i, (contract i).Waiting (post i) (err i) (c.program i) c.state)
    (hfires : Config.Fires responds c e c') (hcond : cond c e c') :
    (contract e.thread).guarantee c.state e.op e.answer c'.state := by
  obtain ⟨k, hprog, -⟩ := hfires.resumed
  have hthread := hsafe e.thread
  rw [hprog] at hthread
  exact ((hthread c.state ((contract _).rely_refl _ _)).2 e.answer c'.state
    (hcompat.answers _ _ _ hfires hcond)).1

/-- In a configuration whose threads are all safe, they still are after a step that meets the
condition. -/
lemma waiting_of_fires (hcompat : Compatible responds contract cond)
    {c c' : Config I ε α ι σ} {e : Event I ι}
    (hsafe : ∀ i, (contract i).Waiting (post i) (err i) (c.program i) c.state)
    (hfires : Config.Fires responds c e c') (hcond : cond c e c') :
    ∀ i, (contract i).Waiting (post i) (err i) (c'.program i) c'.state := by
  intro i
  have hguar := guarantee_of_fires hcompat hsafe hfires hcond
  obtain ⟨k, hprog, hprog'⟩ := hfires.resumed
  by_cases hi : i = e.thread
  · subst hi
    rw [hprog', Function.update_self]
    have hthread := hsafe e.thread
    rw [hprog] at hthread
    exact ((hthread c.state ((contract _).rely_refl _ _)).2 e.answer c'.state
      (hcompat.answers _ _ _ hfires hcond)).2.waiting
  · have hother := hsafe i
    rw [hprog', Function.update_of_ne hi]
    cases hp : c.program i with
    | done a => trivial
    | raise e => trivial
    | cut =>
      rw [hp] at hother
      exact hother
    | call op' k' =>
      rw [hp] at hother
      exact Safe.of_rely hother
        (hcompat.rely c e c' hfires hguar hcond i hi op' (Config.pending_of_call hp))

/-- Soundness: along a run whose steps meet the condition the threads stay safe. -/
theorem waiting_of_runs (hcompat : Compatible responds contract cond)
    {start c : Config I ε α ι σ} {es : List (Event I ι)}
    (hstart : ∀ i, (contract i).Safe (post i) (err i) (start.program i) start.state)
    (hrun : Runs (fun c e c' => Config.Fires responds c e c' ∧ cond c e c') start es c) :
    ∀ i, (contract i).Waiting (post i) (err i) (c.program i) c.state := by
  refine hrun.invariant
    (J := fun c => ∀ i, (contract i).Waiting (post i) (err i) (c.program i) c.state)
    (fun i => (hstart i).waiting) ?_
  rintro c e c' ⟨hfires, hcond⟩ hsafe
  exact waiting_of_fires hcompat hsafe hfires hcond

/-- Soundness: every step of a run whose steps meet the condition keeps its guarantee. -/
theorem guarantee_of_runs (hcompat : Compatible responds contract cond)
    {start c c' : Config I ε α ι σ} {es : List (Event I ι)} {e : Event I ι}
    (hstart : ∀ i, (contract i).Safe (post i) (err i) (start.program i) start.state)
    (hrun : Runs (fun c e c' => Config.Fires responds c e c' ∧ cond c e c') start es c)
    (hfires : Config.Fires responds c e c') (hcond : cond c e c') :
    (contract e.thread).guarantee c.state e.op e.answer c'.state :=
  guarantee_of_fires hcompat (waiting_of_runs hcompat hstart hrun) hfires hcond

/-- Soundness: after a run whose steps meet the condition, what is promised of a waiting thread
holds. -/
theorem waits_of_runs (hcompat : Compatible responds contract cond)
    {start c : Config I ε α ι σ} {es : List (Event I ι)}
    (hstart : ∀ i, (contract i).Safe (post i) (err i) (start.program i) start.state)
    (hrun : Runs (fun c e c' => Config.Fires responds c e c' ∧ cond c e c') start es c) {i : ι}
    {op : I.Op} (hpending : c.pending i = some op) : (contract i).waits op c.state := by
  obtain ⟨k, hprog⟩ := Config.call_of_pending hpending
  have hthread := waiting_of_runs hcompat hstart hrun i
  rw [hprog] at hthread
  exact (hthread c.state ((contract i).rely_refl _ _)).1

/-- Soundness with ends: where what the other threads do keeps what a thread has ended with, the
threads of a run stay safe, so one that has returned has ended as it should. -/
theorem safe_of_runs (hcompat : Compatible responds contract cond)
    (hends : ∀ c e c', Config.Fires responds c e c' →
      (contract e.thread).guarantee c.state e.op e.answer c'.state → cond c e c' →
        ∀ j, j ≠ e.thread → (∀ a, post j a c.state → post j a c'.state) ∧
          ∀ error, err j error c.state → err j error c'.state)
    {start c : Config I ε α ι σ} {es : List (Event I ι)}
    (hstart : ∀ i, (contract i).Safe (post i) (err i) (start.program i) start.state)
    (hrun : Runs (fun c e c' => Config.Fires responds c e c' ∧ cond c e c') start es c) :
    ∀ i, (contract i).Safe (post i) (err i) (c.program i) c.state := by
  refine hrun.invariant
    (J := fun c => ∀ i, (contract i).Safe (post i) (err i) (c.program i) c.state) hstart ?_
  rintro c e c' ⟨hfires, hcond⟩ hsafe i
  have hguar := guarantee_of_fires hcompat (fun j => (hsafe j).waiting) hfires hcond
  obtain ⟨k, hprog, hprog'⟩ := hfires.resumed
  by_cases hi : i = e.thread
  · subst hi
    rw [hprog', Function.update_self]
    have hthread := hsafe e.thread
    rw [hprog] at hthread
    exact ((hthread c.state ((contract _).rely_refl _ _)).2 e.answer c'.state
      (hcompat.answers _ _ _ hfires hcond)).2
  · have hother := hsafe i
    rw [hprog', Function.update_of_ne hi]
    cases hp : c.program i with
    | done a =>
      rw [hp] at hother
      exact (hends c e c' hfires hguar hcond i hi).1 a hother
    | raise error =>
      rw [hp] at hother
      exact (hends c e c' hfires hguar hcond i hi).2 error hother
    | cut =>
      rw [hp] at hother
      exact hother
    | call op' k' =>
      rw [hp] at hother
      exact Safe.of_rely hother
        (hcompat.rely c e c' hfires hguar hcond i hi op' (Config.pending_of_call hp))

end Soundness

end Contract
