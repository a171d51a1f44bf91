import Mathlib.Tactic.Lemma
import Mathlib.Tactic.TypeStar

/-!
# Processes over an interface

A program that talks to its surroundings is a tree: it is finished, it has raised an error, or it
waits for the answer to one request and continues with whatever the answer is.  Nothing in the
tree says which answers are possible; that belongs to the surroundings, which a later module
describes as a relation.  One process can therefore be run alone, run against other processes, or
stopped in the middle, without being written twice.

A loop of unknown length is written with a bound on its number of rounds.  The constructor `cut`
is what is left of a process whose bound was too small.  It takes no step and returns nothing, so
a statement about every bound speaks about every prefix of the unbounded loop, and a termination
result says that `cut` is not reached.

`Within` bounds what a process can ask for and return whatever it is answered, and `WithinWhen` as
long as the answers satisfy a predicate.  They compose along the ways processes are built, so most
of what a program never does is read off its text.
-/

/-- The requests a process can make, and the type of the answer to each. -/
structure Interface where
  /-- The requests. -/
  Op : Type
  /-- The answers a request can get. -/
  Answer : Op → Type

/-- A process that makes requests of `I`, raises errors in `ε` and returns values in `α`. -/
inductive Process (I : Interface) (ε α : Type) : Type where
  /-- The process has returned. -/
  | done (value : α)
  /-- The process has raised an error. -/
  | raise (error : ε)
  /-- The process was stopped by the bound on one of its loops. -/
  | cut
  /-- The process waits for the answer to a request. -/
  | call (op : I.Op) (resume : I.Answer op → Process I ε α)

namespace Process

variable {I : Interface} {ε ε' α β γ : Type}

/-! ## Sequencing -/

/-- Run one process and continue with its value. -/
def bind : Process I ε α → (α → Process I ε β) → Process I ε β
  | done a, f => f a
  | raise e, _ => raise e
  | cut, _ => cut
  | call op k, f => call op fun answer => (k answer).bind f

instance : Monad (Process I ε) where
  pure := done
  bind := bind

@[simp] lemma done_bind (a : α) (f : α → Process I ε β) : (done a >>= f) = f a := rfl

@[simp] lemma raise_bind (e : ε) (f : α → Process I ε β) :
    ((raise e : Process I ε α) >>= f) = raise e := rfl

@[simp] lemma cut_bind (f : α → Process I ε β) : ((cut : Process I ε α) >>= f) = cut := rfl

@[simp] lemma call_bind (op : I.Op) (k : I.Answer op → Process I ε α) (f : α → Process I ε β) :
    (call op k >>= f) = call op fun answer => k answer >>= f := rfl

lemma bind_done (p : Process I ε α) : (p >>= done) = p := by
  induction p with
  | done a => rfl
  | raise e => rfl
  | cut => rfl
  | call op k ih =>
    rw [call_bind]
    exact congrArg (call op) (funext ih)

lemma bind_assoc (p : Process I ε α) (f : α → Process I ε β) (g : β → Process I ε γ) :
    (p >>= f >>= g) = p >>= fun a => f a >>= g := by
  induction p with
  | done a => rfl
  | raise e => rfl
  | cut => rfl
  | call op k ih =>
    simp only [call_bind]
    exact congrArg (call op) (funext ih)

instance : LawfulMonad (Process I ε) :=
  LawfulMonad.mk' (Process I ε) bind_done (fun _ _ => rfl) bind_assoc

/-! ## Errors -/

/-- Run a process and continue with the handler if it raises. -/
def handle : Process I ε α → (ε → Process I ε' α) → Process I ε' α
  | done a, _ => done a
  | raise e, h => h e
  | cut, _ => cut
  | call op k, h => call op fun answer => (k answer).handle h

instance : MonadExcept ε (Process I ε) where
  throw := raise
  tryCatch := handle

/-- Run a process and return its error as a value. -/
def attempt : Process I ε α → Process I ε' (Except ε α)
  | done a => done (.ok a)
  | raise e => done (.error e)
  | cut => cut
  | call op k => call op fun answer => (k answer).attempt

/-- A computed result as a process that makes no request. -/
def ofExcept : Except ε α → Process I ε α
  | .ok a => done a
  | .error e => raise e

/-- Make one request and return its answer. -/
def request (op : I.Op) : Process I ε (I.Answer op) := call op done

@[simp] lemma ofExcept_ok (a : α) : (ofExcept (.ok a) : Process I ε α) = done a := rfl

@[simp] lemma ofExcept_error (e : ε) : (ofExcept (.error e) : Process I ε α) = raise e := rfl

/-- Run a process for at most a number of requests, whatever it ends with. -/
def upTo : Process I ε α → Nat → Process I ε' Unit
  | done _, _ | raise _, _ | cut, _ => done ()
  | call _ _, 0 => done ()
  | call op k, steps + 1 => call op fun answer => (k answer).upTo steps

/-! ## What a process can ask for -/

/-- As long as the answers satisfy `R`, the process makes only requests that satisfy `P`, and
returns only values that satisfy `Q`. -/
def WithinWhen (R : ∀ op, I.Answer op → Prop) (P : I.Op → Prop) (Q : α → Prop) :
    Process I ε α → Prop
  | done a => Q a
  | raise _ => True
  | cut => True
  | call op k => P op ∧ ∀ answer, R op answer → WithinWhen R P Q (k answer)

/-- Whatever the answers, the process makes only requests that satisfy `P`, and returns only values
that satisfy `Q`. -/
def Within (P : I.Op → Prop) (Q : α → Prop) : Process I ε α → Prop
  | done a => Q a
  | raise _ => True
  | cut => True
  | call op k => P op ∧ ∀ answer, Within P Q (k answer)

section Within

variable {R R' : ∀ op, I.Answer op → Prop} {P P' : I.Op → Prop} {Q Q' : α → Prop} {M : β → Prop}

@[simp] lemma withinWhen_done {a : α} : WithinWhen R P Q (done a : Process I ε α) ↔ Q a := Iff.rfl

@[simp] lemma withinWhen_pure {a : α} : WithinWhen R P Q (pure a : Process I ε α) ↔ Q a := Iff.rfl

lemma withinWhen_ofExcept {r : Except ε α} :
    WithinWhen R P Q (ofExcept r : Process I ε α) ↔ ∀ a, r = .ok a → Q a := by
  cases r with
  | ok a => exact ⟨fun h b hb => Except.ok.inj hb ▸ h, fun h => h a rfl⟩
  | error e => exact ⟨fun _ b hb => (nomatch hb), fun _ => trivial⟩

lemma WithinWhen.mono {p : Process I ε α} (h : WithinWhen R P Q p)
    (hR : ∀ op answer, R' op answer → R op answer) (hP : ∀ op, P op → P' op)
    (hQ : ∀ a, Q a → Q' a) : WithinWhen R' P' Q' p := by
  induction p with
  | done a => exact hQ a h
  | raise e => trivial
  | cut => trivial
  | call op k ih => exact ⟨hP op h.1, fun answer hanswer => ih answer (h.2 answer (hR _ _ hanswer))⟩

/-- Sequencing: each process makes its own requests. -/
lemma WithinWhen.bind {p : Process I ε β} {f : β → Process I ε α} (h : WithinWhen R P M p)
    (hf : ∀ b, M b → WithinWhen R P Q (f b)) : WithinWhen R P Q (p >>= f) := by
  induction p with
  | done b => exact hf b h
  | raise e => trivial
  | cut => trivial
  | call op k ih => exact ⟨h.1, fun answer hanswer => ih answer (h.2 answer hanswer)⟩

lemma WithinWhen.handle {p : Process I ε α} {f : ε → Process I ε' α} (h : WithinWhen R P Q p)
    (hf : ∀ e, WithinWhen R P Q (f e)) : WithinWhen R P Q (p.handle f) := by
  induction p with
  | done a => exact h
  | raise e => exact hf e
  | cut => trivial
  | call op k ih => exact ⟨h.1, fun answer hanswer => ih answer (h.2 answer hanswer)⟩

lemma WithinWhen.tryCatch {p : Process I ε α} {f : ε → Process I ε α} (h : WithinWhen R P Q p)
    (hf : ∀ e, WithinWhen R P Q (f e)) : WithinWhen R P Q (tryCatch p f) :=
  h.handle hf

/-- An attempt makes the requests of the process. -/
lemma WithinWhen.attempt {p : Process I ε α} (h : WithinWhen R P Q p) :
    WithinWhen R P (fun r => ∀ a, r = .ok a → Q a)
      (p.attempt : Process I ε' (Except ε α)) := by
  induction p with
  | done a =>
    intro b hb
    exact Except.ok.inj hb ▸ h
  | raise e => exact fun b hb => nomatch hb
  | cut => trivial
  | call op k ih => exact ⟨h.1, fun answer hanswer => ih answer (h.2 answer hanswer)⟩

/-- Nothing is assumed of the answers. -/
lemma within_iff_withinWhen {p : Process I ε α} :
    Within P Q p ↔ WithinWhen (fun _ _ => True) P Q p := by
  induction p with
  | done a => rfl
  | raise e => rfl
  | cut => rfl
  | call op k ih =>
    refine and_congr_right fun _ => forall_congr' fun answer => ?_
    rw [ih answer]
    exact (true_imp_iff).symm

lemma Within.when {p : Process I ε α} (h : Within P Q p) : WithinWhen R P Q p :=
  (within_iff_withinWhen.1 h).mono (fun _ _ _ => trivial) (fun _ h => h) fun _ h => h

lemma WithinWhen.within {p : Process I ε α} (h : WithinWhen R P Q p)
    (hR : ∀ op answer, R op answer) : Within P Q p :=
  within_iff_withinWhen.2 (h.mono (fun op answer _ => hR op answer) (fun _ h => h) fun _ h => h)

@[simp] lemma within_done {a : α} : Within P Q (done a : Process I ε α) ↔ Q a := Iff.rfl

@[simp] lemma within_pure {a : α} : Within P Q (pure a : Process I ε α) ↔ Q a := Iff.rfl

@[simp] lemma within_raise {e : ε} : Within P Q (raise e : Process I ε α) := trivial

@[simp] lemma within_throw {e : ε} : Within P Q (throw e : Process I ε α) := trivial

lemma within_of_forall (p : Process I ε α) (hP : ∀ op, P op) (hQ : ∀ a, Q a) : Within P Q p := by
  induction p with
  | done a => exact hQ a
  | raise e => trivial
  | cut => trivial
  | call op k ih => exact ⟨hP op, ih⟩

lemma within_ofExcept {r : Except ε α} :
    Within P Q (ofExcept r : Process I ε α) ↔ ∀ a, r = .ok a → Q a := by
  rw [within_iff_withinWhen, withinWhen_ofExcept]

lemma Within.mono {p : Process I ε α} (h : Within P Q p) (hP : ∀ op, P op → P' op)
    (hQ : ∀ a, Q a → Q' a) : Within P' Q' p :=
  within_iff_withinWhen.2 ((within_iff_withinWhen.1 h).mono (fun _ _ h => h) hP hQ)

lemma Within.bind {p : Process I ε β} {f : β → Process I ε α} (h : Within P M p)
    (hf : ∀ b, M b → Within P Q (f b)) : Within P Q (p >>= f) :=
  within_iff_withinWhen.2 ((within_iff_withinWhen.1 h).bind fun b hb =>
    within_iff_withinWhen.1 (hf b hb))

lemma Within.and {p : Process I ε α} (h : Within P Q p) (h' : Within P' Q' p) :
    Within (fun op => P op ∧ P' op) (fun a => Q a ∧ Q' a) p := by
  induction p with
  | done a => exact ⟨h, h'⟩
  | raise e => trivial
  | cut => trivial
  | call op k ih => exact ⟨⟨h.1, h'.1⟩, fun answer => ih answer (h.2 answer) (h'.2 answer)⟩

lemma Within.seq {p : Process I ε β} {f : β → Process I ε α} (h : Within P (fun _ => True) p)
    (hf : ∀ b, Within P Q (f b)) : Within P Q (p >>= f) :=
  h.bind fun b _ => hf b

lemma Within.foldlM {step : β → γ → Process I ε β} {items : List γ} {start : β}
    (h : ∀ b item, Within P (fun _ => True) (step b item)) :
    Within P (fun _ => True) (items.foldlM step start) := by
  induction items generalizing start with
  | nil => trivial
  | cons item rest ih =>
    rw [List.foldlM_cons]
    exact (h start item).seq fun _ => ih

lemma Within.mapM {f : γ → Process I ε β} {items : List γ}
    (h : ∀ item, Within P (fun _ => True) (f item)) :
    Within P (fun _ => True) (items.mapM f) := by
  induction items with
  | nil => trivial
  | cons item rest ih =>
    rw [List.mapM_cons]
    exact (h item).seq fun _ => ih.seq fun _ => trivial

lemma Within.tryCatch {p : Process I ε α} {f : ε → Process I ε α} (h : Within P Q p)
    (hf : ∀ e, Within P Q (f e)) : Within P Q (tryCatch p f) :=
  within_iff_withinWhen.2 ((within_iff_withinWhen.1 h).tryCatch fun e =>
    within_iff_withinWhen.1 (hf e))

lemma Within.attempt {p : Process I ε α} (h : Within P Q p) :
    Within P (fun r => ∀ a, r = .ok a → Q a) (p.attempt : Process I ε' (Except ε α)) :=
  within_iff_withinWhen.2 (within_iff_withinWhen.1 h).attempt

lemma Within.attempted {p : Process I ε α} (h : Within P (fun _ => True) p) :
    Within P (fun _ => True) (p.attempt : Process I ε' (Except ε α)) :=
  h.attempt.mono (fun _ h => h) fun _ _ => trivial

lemma within_asking {op : I.Op} {f : I.Answer op → Except ε α} (h : P op) :
    Within P (fun _ => True) (call op fun answer => ofExcept (f answer)) :=
  ⟨h, fun _ => within_ofExcept.2 fun _ _ => trivial⟩

end Within

end Process
