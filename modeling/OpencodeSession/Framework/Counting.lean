import OpencodeSession.Framework.Alone

/-!
# Counting requests

How often a process makes requests of a kind: at most so often whatever it is answered (`AtMost`),
or at least so often before it returns (`AtLeast`).  Both follow the text of the process, and the
contract of a process that is alone turns them into bounds on its record.

A loop whose bound on its rounds suffices is not cut.  `Contract.uncut` is a contract under which no
bound may be reached, so that it is met by induction on the bound with a measure of the state; what
else a part of the loop promises is taken over from the contract without that demand
(`Safe.uncut`).
-/

namespace Process

variable {I : Interface} {ε ε' α β : Type} {kind : I.Op → Bool} {n m : Nat}

/-- Whatever the answers, the process makes at most `n` requests of the kind. -/
def AtMost (kind : I.Op → Bool) : Process I ε α → Nat → Prop
  | done _, _ | raise _, _ | cut, _ => True
  | call op k, n => (kind op).toNat ≤ n ∧ ∀ answer, (k answer).AtMost kind (n - (kind op).toNat)

/-- Whatever the answers, the process makes at least `n` requests of the kind before it returns. -/
def AtLeast (kind : I.Op → Bool) : Process I ε α → Nat → Prop
  | done _, n => n = 0
  | raise _, _ | cut, _ => True
  | call op k, n => ∀ answer, (k answer).AtLeast kind (n - (kind op).toNat)

/-- No bound of a loop is reached. -/
def Uncut : Process I ε α → Prop
  | done _ | raise _ => True
  | cut => False
  | call _ k => ∀ answer, (k answer).Uncut

lemma AtMost.mono {p : Process I ε α} (h : p.AtMost kind n) (hle : n ≤ m) : p.AtMost kind m := by
  induction p generalizing n m with
  | done a => trivial
  | raise e => trivial
  | cut => trivial
  | call op k ih => exact ⟨Nat.le_trans h.1 hle, fun answer => ih answer (h.2 answer) (by omega)⟩

lemma AtMost.of_within {Q : α → Prop} {p : Process I ε α}
    (h : p.Within (fun op => kind op = false) Q) : p.AtMost kind n := by
  induction p generalizing n with
  | done a => trivial
  | raise e => trivial
  | cut => trivial
  | call op k ih => exact ⟨by simp [h.1], fun answer => ih answer (h.2 answer)⟩

lemma AtMost.bind {p : Process I ε α} {f : α → Process I ε β} (h : p.AtMost kind n)
    (hf : ∀ a, (f a).AtMost kind m) : (p >>= f).AtMost kind (n + m) := by
  induction p generalizing n with
  | done a => exact (hf a).mono (by omega)
  | raise e => trivial
  | cut => trivial
  | call op k ih =>
    refine ⟨Nat.le_trans h.1 (by omega), fun answer => ?_⟩
    have hbound := h.1
    rw [show n + m - (kind op).toNat = n - (kind op).toNat + m by omega]
    exact ih answer (h.2 answer)

lemma AtMost.handle {p : Process I ε α} {f : ε → Process I ε' α} (h : p.AtMost kind n)
    (hf : ∀ e, (f e).AtMost kind m) : (p.handle f).AtMost kind (n + m) := by
  induction p generalizing n with
  | done a => trivial
  | raise e => exact (hf e).mono (by omega)
  | cut => trivial
  | call op k ih =>
    refine ⟨Nat.le_trans h.1 (by omega), fun answer => ?_⟩
    have hbound := h.1
    rw [show n + m - (kind op).toNat = n - (kind op).toNat + m by omega]
    exact ih answer (h.2 answer)

lemma AtLeast.mono {p : Process I ε α} (h : p.AtLeast kind n) (hle : m ≤ n) : p.AtLeast kind m := by
  induction p generalizing n m with
  | done a =>
    have hnone : n = 0 := h
    exact show m = 0 by omega
  | raise e => trivial
  | cut => trivial
  | call op k ih => exact fun answer => ih answer (h answer) (by omega)

lemma atLeast_zero (p : Process I ε α) : p.AtLeast kind 0 := by
  induction p with
  | done a => rfl
  | raise e => trivial
  | cut => trivial
  | call op k ih => exact fun answer => (ih answer).mono (Nat.sub_le _ _)

lemma AtLeast.bind {f : α → Process I ε β} (p : Process I ε α) (hf : ∀ a, (f a).AtLeast kind n) :
    (p >>= f).AtLeast kind n := by
  induction p generalizing n with
  | done a => exact hf a
  | raise e => trivial
  | cut => trivial
  | call op k ih => exact fun answer => ih answer fun a => (hf a).mono (Nat.sub_le _ _)

lemma AtLeast.seq {p : Process I ε α} (h : p.AtLeast kind n) (f : α → Process I ε β) :
    (p >>= f).AtLeast kind n := by
  induction p generalizing n with
  | done a =>
    obtain rfl : n = 0 := h
    exact atLeast_zero _
  | raise e => trivial
  | cut => trivial
  | call op k ih => exact fun answer => ih answer (h answer)

@[simp] lemma uncut_pure {a : α} : (pure a : Process I ε α).Uncut := trivial

@[simp] lemma uncut_throw {e : ε} : (throw e : Process I ε α).Uncut := trivial

lemma uncut_ofExcept (r : Except ε α) : (ofExcept r : Process I ε α).Uncut := by
  cases r <;> trivial

lemma Uncut.bind {p : Process I ε α} {f : α → Process I ε β} (h : p.Uncut)
    (hf : ∀ a, (f a).Uncut) : (p >>= f).Uncut := by
  induction p with
  | done a => exact hf a
  | raise e => trivial
  | cut => exact h
  | call op k ih => exact fun answer => ih answer (h answer)

lemma Uncut.handle {p : Process I ε α} {f : ε → Process I ε' α} (h : p.Uncut)
    (hf : ∀ e, (f e).Uncut) : (p.handle f).Uncut := by
  induction p with
  | done a => trivial
  | raise e => exact hf e
  | cut => exact h
  | call op k ih => exact fun answer => ih answer (h answer)

lemma Uncut.tryCatch {p : Process I ε α} {f : ε → Process I ε α} (h : p.Uncut)
    (hf : ∀ e, (f e).Uncut) : (tryCatch p f).Uncut :=
  h.handle hf

lemma Uncut.attempt {p : Process I ε α} (h : p.Uncut) :
    (p.attempt : Process I ε' (Except ε α)).Uncut := by
  induction p with
  | done a => trivial
  | raise e => trivial
  | cut => exact h
  | call op k ih => exact fun answer => ih answer (h answer)

end Process

namespace Config

variable {I : Interface} {ε α ι σ : Type} [DecidableEq ι] {responds : Surroundings I ι σ}

/-- The record at every step of a run is the beginning of the events of the run. -/
theorem runs_recording_prefix {start c : Config I ε α ι σ} {es : List (Event I ι)}
    (hrun : Runs (Fires responds) start es c) :
    Runs (fun c e c' => Fires responds.recording c e c' ∧ c.state.2 ++ [e] <+: es)
      (start.record []) es (c.record es) := by
  induction hrun with
  | nil => exact .nil
  | @snoc front c last c' _ hstep ih =>
    have hlast : front ++ [last] <+: front ++ [last] := List.prefix_rfl
    exact .snoc (ih.mono fun _ _ _ h => ⟨h.1, h.2.trans (List.prefix_append _ _)⟩)
      ⟨hstep.record _, hlast⟩

end Config

namespace Contract

variable {I : Interface} {ε α σ : Type}

/-- A contract under which no bound of a loop may be reached. -/
def uncut (C : Contract I σ) : Contract I σ := { C with mayCut := False }

/-- What a process without such a bound promises it promises also so. -/
lemma Safe.uncut {C : Contract I σ} {post : α → σ → Prop} {err : ε → σ → Prop}
    {p : Process I ε α} {s : σ} (h : C.Safe post err p s) (hp : p.Uncut) :
    C.uncut.Safe post err p s := by
  induction p generalizing s with
  | done a => exact h
  | raise e => exact h
  | cut => exact hp.elim
  | call op k ih =>
    intro s₁ hrely
    obtain ⟨hwaits, hanswers⟩ := h s₁ hrely
    refine ⟨hwaits, fun answer s₂ hresp => ?_⟩
    obtain ⟨hguar, hnext⟩ := hanswers answer s₂ hresp
    exact ⟨hguar, ih answer hnext (hp answer)⟩

variable {responds : Surroundings I Unit σ} {cond : σ × List (Event I Unit) → I.Op → Prop}
  {holds holds' all : σ × List (Event I Unit) → Prop}
  {post post' : α → σ × List (Event I Unit) → Prop}
  {err err' : ε → σ × List (Event I Unit) → Prop} {s : σ × List (Event I Unit)}
  {kind : I.Op → Bool} {n bound : Nat} {p : Process I ε α}

/-- What a process promises by two proofs it promises together. -/
lemma Safe.both (h : (alone responds cond holds).Safe post err p s)
    (h' : (alone responds cond holds').Safe post' err' p s)
    (hall : ∀ s, holds s → holds' s → all s) :
    (alone responds cond all).Safe (fun a s => post a s ∧ post' a s)
      (fun e s => err e s ∧ err' e s) p s := by
  induction p generalizing s with
  | done a => exact ⟨h, h'⟩
  | raise e => exact ⟨h, h'⟩
  | cut => trivial
  | call op k ih =>
    refine safe_call_alone fun answer s' hanswer hcond => ?_
    obtain ⟨hholds, hnext⟩ := (h s rfl).2 answer (s', s.2 ++ [⟨(), op, answer⟩])
      ⟨⟨hanswer, rfl⟩, hcond⟩
    obtain ⟨hholds', hnext'⟩ := (h' s rfl).2 answer (s', s.2 ++ [⟨(), op, answer⟩])
      ⟨⟨hanswer, rfl⟩, hcond⟩
    exact ⟨hall _ hholds hholds', ih answer hnext hnext'⟩

/-- What a process promises for each of many it promises for all of them. -/
lemma safe_forall {κ : Type} {holds : κ → σ × List (Event I Unit) → Prop}
    {post : κ → α → σ × List (Event I Unit) → Prop} {err : κ → ε → σ × List (Event I Unit) → Prop}
    (h : ∀ i, (alone responds cond (holds i)).Safe (post i) (err i) p s) :
    (alone responds cond fun s => ∀ i, holds i s).Safe (fun a s => ∀ i, post i a s)
      (fun e s => ∀ i, err i e s) p s := by
  induction p generalizing s with
  | done a => exact h
  | raise e => exact h
  | cut => trivial
  | call op k ih =>
    refine safe_call_alone fun answer s' hanswer hcond => ⟨fun i => ?_, ih answer fun i => ?_⟩
    · exact ((h i s rfl).2 answer (s', s.2 ++ [⟨(), op, answer⟩]) ⟨⟨hanswer, rfl⟩, hcond⟩).1
    · exact ((h i s rfl).2 answer (s', s.2 ++ [⟨(), op, answer⟩]) ⟨⟨hanswer, rfl⟩, hcond⟩).2

/-- A process that makes at most `n` requests of a kind adds at most as many to its record. -/
lemma safe_atMost (h : p.AtMost kind n) (hs : (s.2.countP fun e => kind e.op) + n ≤ bound) :
    (alone responds cond fun s => (s.2.countP fun e => kind e.op) ≤ bound).Safe
      (fun _ s => (s.2.countP fun e => kind e.op) ≤ bound)
      (fun _ s => (s.2.countP fun e => kind e.op) ≤ bound) p s := by
  induction p generalizing s n with
  | done a => exact show _ ≤ _ by omega
  | raise e => exact show _ ≤ _ by omega
  | cut => trivial
  | call op k ih =>
    refine safe_call_alone fun answer s' _ _ => ?_
    have hcount : ((s.2 ++ [(⟨(), op, answer⟩ : Event I Unit)]).countP fun e => kind e.op) =
        (s.2.countP fun e => kind e.op) + (kind op).toNat := by
      rw [List.countP_append, List.countP_singleton]
      cases kind op <;> rfl
    have hle := h.1
    refine ⟨?_, ih answer (h.2 answer) ?_⟩
    · dsimp only
      omega
    · dsimp only
      omega

/-- A process that makes at least `n` requests of a kind before it returns adds as many to its
record. -/
lemma safe_atLeast (h : p.AtLeast kind n) (hs : bound ≤ (s.2.countP fun e => kind e.op) + n) :
    (alone responds cond fun _ => True).Safe (fun _ s => bound ≤ s.2.countP fun e => kind e.op)
      (fun _ _ => True) p s := by
  induction p generalizing s n with
  | done a =>
    have hnone : n = 0 := h
    exact show _ ≤ _ by omega
  | raise e => trivial
  | cut => trivial
  | call op k ih =>
    refine safe_call_alone fun answer s' _ _ => ⟨trivial, ih answer (h answer) ?_⟩
    have hcount : ((s.2 ++ [(⟨(), op, answer⟩ : Event I Unit)]).countP fun e => kind e.op) =
        (s.2.countP fun e => kind e.op) + (kind op).toNat := by
      rw [List.countP_append, List.countP_singleton]
      cases kind op <;> rfl
    dsimp only
    omega

/-- A process that is safe where no bound may be reached is never cut. -/
theorem ne_cut_of_alone {program : Process I ε α} {start : σ}
    (hsafe : (alone responds cond holds).uncut.Safe post err program (start, []))
    {c : Config I ε α Unit (σ × List (Event I Unit))} {es : List (Event I Unit)}
    (hrun : Runs (fun c e c' => Config.Fires responds.recording c e c' ∧ cond c.state e.op)
      ⟨(start, []), fun _ => program⟩ es c) : c.program () ≠ .cut := by
  have hends : (alone responds cond holds).uncut.Safe post err (c.program ()) c.state := by
    refine hrun.invariant (J := fun c =>
      (alone responds cond holds).uncut.Safe post err (c.program ()) c.state) hsafe ?_
    rintro c e c' ⟨hfires, hcond⟩ hc
    obtain ⟨k, hprog, hprog'⟩ := hfires.resumed
    rw [hprog] at hc
    rw [hprog', Function.update_self]
    exact ((hc c.state rfl).2 e.answer c'.state ⟨hfires.answered, hcond⟩).2
  intro hcut
  rw [hcut] at hends
  exact hends

end Contract
