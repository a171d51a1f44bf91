import OpencodeSession.Framework.RelyGuarantee

/-!
# The traces of a process

What a process does when nothing at all is known of its surroundings: each request may get any
answer of its type.  `Process.Trace` says which exchanges bring a process to what is left of it, so
a statement about all traces is a statement about every behaviour of the surroundings, and, since a
trace may stop anywhere, about a process that is killed.

`Contract.tracing` is the contract whose state is the trace itself: before every request a predicate
on the exchanges so far is to hold.  `safe_of_trace` is its soundness, and `safe_recorded` keeps the
exchanges of a part, so that what comes later can refer to a check that was made before.

Surroundings that always answer the same make a process a function: `Process.evaluate`.
-/

/-- A request with its answer. -/
structure Exchange (I : Interface) where
  /-- The request. -/
  op : I.Op
  /-- The answer it got. -/
  answer : I.Answer op

namespace Process

variable {I : Interface} {ε ε' α β : Type}

/-- A process gets an answer. -/
def Answered (p : Process I ε α) (x : Exchange I) (q : Process I ε α) : Prop :=
  ∃ k, p = .call x.op k ∧ q = k x.answer

/-- The exchanges bring the process to what is left of it. -/
abbrev Trace (p : Process I ε α) (trace : List (Exchange I)) (q : Process I ε α) : Prop :=
  Runs Answered p trace q

/-- The exchanges bring the process to its end, with a value. -/
abbrev Returns (p : Process I ε α) (trace : List (Exchange I)) (a : α) : Prop :=
  p.Trace trace (.done a)

/-- The exchanges bring the process to its end, with an error. -/
abbrev Raises (p : Process I ε α) (trace : List (Exchange I)) (e : ε) : Prop :=
  p.Trace trace (.raise e)

section Trace

variable {p q : Process I ε α} {trace trace' : List (Exchange I)} {a : α} {b : β} {e : ε}

lemma answered_call (op : I.Op) (k : I.Answer op → Process I ε α) (answer : I.Answer op) :
    Answered (.call op k) ⟨op, answer⟩ (k answer) := ⟨k, rfl, rfl⟩

/-- A process that waits for no answer is left as it is. -/
lemma trace_of_ended (h : ∀ x r, ¬ Answered p x r) :
    p.Trace trace q ↔ trace = [] ∧ q = p := by
  constructor
  · intro htrace
    induction htrace with
    | nil => exact ⟨rfl, rfl⟩
    | snoc _ hstep ih =>
      obtain ⟨-, rfl⟩ := ih
      exact absurd hstep (h _ _)
  · rintro ⟨rfl, rfl⟩
    exact .nil

lemma trace_done : (done a : Process I ε α).Trace trace q ↔ trace = [] ∧ q = done a :=
  trace_of_ended fun _ _ ⟨_, h, _⟩ => by cases h

lemma trace_raise : (raise e : Process I ε α).Trace trace q ↔ trace = [] ∧ q = raise e :=
  trace_of_ended fun _ _ ⟨_, h, _⟩ => by cases h

lemma trace_cut : (cut : Process I ε α).Trace trace q ↔ trace = [] ∧ q = cut :=
  trace_of_ended fun _ _ ⟨_, h, _⟩ => by cases h

/-- A process that waits is left waiting, or goes on with an answer. -/
lemma trace_call {op : I.Op} {k : I.Answer op → Process I ε α} :
    (call op k).Trace trace q ↔ (trace = [] ∧ q = call op k) ∨
      ∃ answer rest, trace = ⟨op, answer⟩ :: rest ∧ (k answer).Trace rest q := by
  constructor
  · intro htrace
    cases trace with
    | nil =>
      generalize hnil : ([] : List (Exchange I)) = none at htrace
      cases htrace with
      | nil => exact .inl ⟨rfl, rfl⟩
      | snoc => simp at hnil
    | cons x rest =>
      have hcons : Runs Answered (call op k) ([x] ++ rest) q := htrace
      obtain ⟨r, hfirst, hrest⟩ := hcons.split
      have hsnoc : Runs Answered (call op k) ([] ++ [x]) r := hfirst
      obtain ⟨r', hstart, k', hcall, rfl⟩ := hsnoc.last
      generalize hnil : ([] : List (Exchange I)) = none at hstart
      cases hstart with
      | nil =>
        cases hcall
        exact .inr ⟨x.answer, rest, rfl, hrest⟩
      | snoc => simp at hnil
  · rintro (⟨rfl, rfl⟩ | ⟨answer, rest, rfl, hrest⟩)
    · exact .nil
    · exact .cons (answered_call op k answer) hrest

/-- A sequence is still in its first part, or in its second. -/
lemma trace_bind {f : α → Process I ε β} {r : Process I ε β} :
    (p >>= f).Trace trace r ↔ (∃ q, p.Trace trace q ∧ r = q >>= f) ∨
      ∃ front rest a, trace = front ++ rest ∧ p.Returns front a ∧ (f a).Trace rest r := by
  induction p generalizing trace with
  | done a =>
    constructor
    · exact fun h => .inr ⟨[], trace, a, rfl, .nil, h⟩
    · rintro (⟨q, hq, rfl⟩ | ⟨front, rest, a', rfl, ha, h⟩)
      · obtain ⟨rfl, rfl⟩ := trace_done.1 hq
        exact .nil
      · obtain ⟨rfl, hsame⟩ := trace_done.1 ha
        cases hsame
        exact h
  | raise e =>
    constructor
    · intro h
      obtain ⟨rfl, rfl⟩ := trace_raise.1 h
      exact .inl ⟨raise e, .nil, rfl⟩
    · rintro (⟨q, hq, rfl⟩ | ⟨front, rest, a', rfl, ha, -⟩)
      · obtain ⟨rfl, rfl⟩ := trace_raise.1 hq
        exact .nil
      · cases (trace_raise.1 ha).2
  | cut =>
    constructor
    · intro h
      obtain ⟨rfl, rfl⟩ := trace_cut.1 h
      exact .inl ⟨cut, .nil, rfl⟩
    · rintro (⟨q, hq, rfl⟩ | ⟨front, rest, a', rfl, ha, -⟩)
      · obtain ⟨rfl, rfl⟩ := trace_cut.1 hq
        exact .nil
      · cases (trace_cut.1 ha).2
  | call op k ih =>
    rw [call_bind, trace_call]
    constructor
    · rintro (⟨rfl, rfl⟩ | ⟨answer, rest, rfl, h⟩)
      · exact .inl ⟨call op k, .nil, rfl⟩
      · rcases (ih answer).1 h with ⟨q, hq, rfl⟩ | ⟨front, rest', a, rfl, ha, h⟩
        · exact .inl ⟨q, trace_call.2 (.inr ⟨answer, rest, rfl, hq⟩), rfl⟩
        · exact .inr ⟨⟨op, answer⟩ :: front, rest', a, rfl,
            trace_call.2 (.inr ⟨answer, front, rfl, ha⟩), h⟩
    · rintro (⟨q, hq, rfl⟩ | ⟨front, rest, a, rfl, ha, h⟩)
      · rcases trace_call.1 hq with ⟨rfl, rfl⟩ | ⟨answer, rest, rfl, hnext⟩
        · exact .inl ⟨rfl, rfl⟩
        · exact .inr ⟨answer, rest, rfl, (ih answer).2 (.inl ⟨q, hnext, rfl⟩)⟩
      · rcases trace_call.1 ha with ⟨-, hdone⟩ | ⟨answer, rest', rfl, hnext⟩
        · cases hdone
        · exact .inr ⟨answer, rest' ++ rest, rfl,
            (ih answer).2 (.inr ⟨rest', rest, a, rfl, hnext, h⟩)⟩

lemma returns_done {a' : α} : (done a : Process I ε α).Returns trace a' ↔ trace = [] ∧ a' = a := by
  rw [Returns, trace_done]
  exact and_congr_right fun _ => by rw [done.injEq]

lemma returns_pure {a' : α} : (pure a : Process I ε α).Returns trace a' ↔ trace = [] ∧ a' = a :=
  returns_done

lemma not_returns_throw : ¬ (throw e : Process I ε α).Returns trace a := by
  intro h
  cases (trace_raise.1 h).2

lemma returns_ofExcept {r : Except ε α} :
    (ofExcept r : Process I ε α).Returns trace a ↔ trace = [] ∧ r = .ok a := by
  cases r with
  | ok a' =>
    rw [ofExcept_ok, returns_done, Except.ok.injEq]
    exact and_congr_right fun _ => eq_comm
  | error e =>
    constructor
    · exact fun h => absurd h not_returns_throw
    · rintro ⟨-, h⟩
      cases h

lemma returns_call {op : I.Op} {k : I.Answer op → Process I ε α} :
    (call op k).Returns trace a ↔
      ∃ answer rest, trace = ⟨op, answer⟩ :: rest ∧ (k answer).Returns rest a := by
  rw [Returns, trace_call]
  constructor
  · rintro (⟨-, h⟩ | h)
    · cases h
    · exact h
  · exact .inr

lemma returns_bind {f : α → Process I ε β} : (p >>= f).Returns trace b ↔
    ∃ front rest a, trace = front ++ rest ∧ p.Returns front a ∧ (f a).Returns rest b := by
  rw [Returns, trace_bind]
  constructor
  · rintro (⟨q, hq, h⟩ | h)
    · cases q with
      | done a =>
        rw [done_bind] at h
        exact ⟨trace, [], a, (List.append_nil _).symm, hq, h ▸ Runs.nil⟩
      | raise e => cases h
      | cut => cases h
      | call op k => cases h
    · exact h
  · exact .inr

lemma raises_ofExcept {r : Except ε α} :
    (ofExcept r : Process I ε α).Raises trace e ↔ trace = [] ∧ r = .error e := by
  cases r with
  | ok a =>
    constructor
    · intro h
      cases (trace_done.1 h).2
    · rintro ⟨-, h⟩
      cases h
  | error e' =>
    rw [ofExcept_error, Raises, trace_raise, Except.error.injEq]
    refine and_congr_right fun _ => ?_
    rw [raise.injEq, eq_comm]

lemma raises_call {op : I.Op} {k : I.Answer op → Process I ε α} :
    (call op k).Raises trace e ↔
      ∃ answer rest, trace = ⟨op, answer⟩ :: rest ∧ (k answer).Raises rest e := by
  rw [Raises, trace_call]
  constructor
  · rintro (⟨-, h⟩ | h)
    · cases h
    · exact h
  · exact .inr

lemma raises_bind {f : α → Process I ε β} : (p >>= f).Raises trace e ↔ p.Raises trace e ∨
    ∃ front rest a, trace = front ++ rest ∧ p.Returns front a ∧ (f a).Raises rest e := by
  rw [Raises, trace_bind]
  constructor
  · rintro (⟨q, hq, h⟩ | h)
    · cases q with
      | done a =>
        rw [done_bind] at h
        exact .inr ⟨trace, [], a, (List.append_nil _).symm, hq, h ▸ Runs.nil⟩
      | raise e' =>
        cases h
        exact .inl hq
      | cut => cases h
      | call op k => cases h
    · exact .inr h
  · rintro (h | h)
    · exact .inl ⟨.raise e, h, rfl⟩
    · exact .inr h

/-- An attempt returns what the process ends with. -/
lemma returns_attempt {r : Except ε α} :
    (p.attempt : Process I ε' (Except ε α)).Returns trace r ↔
      (∃ a, r = .ok a ∧ p.Returns trace a) ∨ ∃ e, r = .error e ∧ p.Raises trace e := by
  -- what is raised is returned, so each case has both answers
  induction p generalizing trace with
  | done a =>
    rw [attempt, returns_done]
    constructor
    · rintro ⟨rfl, rfl⟩
      exact .inl ⟨a, rfl, .nil⟩
    · rintro (⟨a', rfl, ha⟩ | ⟨e, rfl, he⟩)
      · obtain ⟨rfl, rfl⟩ := returns_done.1 ha
        exact ⟨rfl, rfl⟩
      · cases (trace_done.1 he).2
  | raise e =>
    rw [attempt, returns_done]
    constructor
    · rintro ⟨rfl, rfl⟩
      exact .inr ⟨e, rfl, .nil⟩
    · rintro (⟨a', rfl, ha⟩ | ⟨e', rfl, he⟩)
      · cases (trace_raise.1 ha).2
      · obtain ⟨rfl, hsame⟩ := trace_raise.1 he
        cases hsame
        exact ⟨rfl, rfl⟩
  | cut =>
    constructor
    · intro h
      cases (trace_cut.1 h).2
    · rintro (⟨a', rfl, ha⟩ | ⟨e, rfl, he⟩)
      · cases (trace_cut.1 ha).2
      · cases (trace_cut.1 he).2
  | call op k ih =>
    rw [attempt, returns_call]
    constructor
    · rintro ⟨answer, rest, rfl, h⟩
      rcases (ih answer).1 h with ⟨a, rfl, ha⟩ | ⟨e, rfl, he⟩
      · exact .inl ⟨a, rfl, returns_call.2 ⟨answer, rest, rfl, ha⟩⟩
      · exact .inr ⟨e, rfl, trace_call.2 (.inr ⟨answer, rest, rfl, he⟩)⟩
    · rintro (⟨a, rfl, ha⟩ | ⟨e, rfl, he⟩)
      · obtain ⟨answer, rest, rfl, hnext⟩ := returns_call.1 ha
        exact ⟨answer, rest, rfl, (ih answer).2 (.inl ⟨a, rfl, hnext⟩)⟩
      · rcases trace_call.1 he with ⟨-, h⟩ | ⟨answer, rest, rfl, hnext⟩
        · cases h
        · exact ⟨answer, rest, rfl, (ih answer).2 (.inr ⟨e, rfl, hnext⟩)⟩

/-- A loop that returns keeps an assertion on the items it is done with and its exchanges. -/
lemma returns_foldlM {step : β → α → Process I ε β} {items : List α} {start : β}
    {J : List α → β → List (Exchange I) → Prop} (hstart : J [] start [])
    (hstep : ∀ front item rest b b' trace block, items = front ++ item :: rest →
      J front b trace → (step b item).Returns block b' → J (front ++ [item]) b' (trace ++ block))
    (h : (items.foldlM step start).Returns trace b) : J items b trace := by
  have hloop : ∀ rest front c before block, items = front ++ rest → J front c before →
      (rest.foldlM step c).Returns block b → J items b (before ++ block) := by
    intro rest
    induction rest with
    | nil =>
      intro front c before block hitems hJ hreturns
      obtain ⟨rfl, rfl⟩ := returns_pure.1 hreturns
      rw [List.append_nil] at hitems ⊢
      exact hitems ▸ hJ
    | cons item rest ih =>
      intro front c before block hitems hJ hreturns
      rw [List.foldlM_cons] at hreturns
      obtain ⟨first, others, c', rfl, hfirst, hothers⟩ := returns_bind.1 hreturns
      rw [← List.append_assoc]
      exact ih (front ++ [item]) c' _ _ (by rw [hitems, List.append_assoc, List.singleton_append])
        (hstep front item rest c c' before first hitems hJ hfirst) hothers
  exact hloop items [] start [] trace rfl hstart h

/-- The exchanges of a trace, and what is left of the process, keep within the same bounds. -/
lemma within_of_trace {P : I.Op → Prop} {Q : α → Prop} (h : p.Within P Q)
    (htrace : p.Trace trace q) : q.Within P Q ∧ ∀ x ∈ trace, P x.op := by
  induction htrace with
  | nil => exact ⟨h, fun _ hmem => absurd hmem List.not_mem_nil⟩
  | snoc _ hstep ih =>
    obtain ⟨k, rfl, rfl⟩ := hstep
    refine ⟨ih.1.2 _, fun x hmem => ?_⟩
    rcases List.mem_append.1 hmem with hmem | hmem
    · exact ih.2 x hmem
    · rw [List.mem_singleton.1 hmem]
      exact ih.1.1

lemma of_trace_call {P : I.Op → Prop} {Q : α → Prop} (h : p.Within P Q) {op : I.Op}
    {k : I.Answer op → Process I ε α} (htrace : p.Trace trace (.call op k)) : P op :=
  (within_of_trace h htrace).1.1

/-- A sequence waits in its first part, or in its second. -/
lemma trace_bind_call {f : α → Process I ε β} {op : I.Op} {k : I.Answer op → Process I ε β} :
    (p >>= f).Trace trace (call op k) ↔
      (∃ k', p.Trace trace (call op k') ∧ k = fun answer => k' answer >>= f) ∨
      ∃ front rest a, trace = front ++ rest ∧ p.Returns front a ∧
        (f a).Trace rest (call op k) := by
  rw [trace_bind]
  constructor
  · rintro (⟨q, hq, h⟩ | h)
    · cases q with
      | done a =>
        rw [done_bind] at h
        exact .inr ⟨trace, [], a, (List.append_nil _).symm, hq, h ▸ Runs.nil⟩
      | raise e => cases h
      | cut => cases h
      | call op' k' =>
        rw [call_bind] at h
        cases h
        exact .inl ⟨k', hq, rfl⟩
    · exact .inr h
  · rintro (⟨k', hk, rfl⟩ | h)
    · exact .inl ⟨call op k', hk, rfl⟩
    · exact .inr h

end Trace

/-! ## What a trace shows -/

/-- The process has run in the trace, and returned a value. -/
def Observed (p : Process I ε α) (a : α) (trace : List (Exchange I)) : Prop :=
  ∃ before block after, trace = before ++ block ++ after ∧ p.Returns block a

section Observed

variable {p : Process I ε α} {a : α} {trace : List (Exchange I)}

lemma Returns.observed (h : p.Returns trace a) : p.Observed a trace :=
  ⟨[], trace, [], by simp, h⟩

lemma Observed.append_right (h : p.Observed a trace) (more : List (Exchange I)) :
    p.Observed a (trace ++ more) := by
  obtain ⟨before, block, after, rfl, hblock⟩ := h
  exact ⟨before, block, after ++ more, by simp, hblock⟩

lemma Observed.append_left (h : p.Observed a trace) (earlier : List (Exchange I)) :
    p.Observed a (earlier ++ trace) := by
  obtain ⟨before, block, after, rfl, hblock⟩ := h
  exact ⟨earlier ++ before, block, after, by simp, hblock⟩

end Observed

/-! ## Fixed answers -/

/-- What a process ends with when each request is always answered the same; no error if one of its
bounds is reached. -/
def evaluate (answers : (op : I.Op) → I.Answer op) : Process I ε α → Except (Option ε) α
  | done a => .ok a
  | raise e => .error (some e)
  | cut => .error none
  | call op k => (k (answers op)).evaluate answers

/-- Whether a process raises when each request is always answered the same. -/
def raisesUnder (answers : (op : I.Op) → I.Answer op) (p : Process I ε α) : Bool :=
  match p.evaluate answers with
  | .error (some _) => true
  | _ => false

/-- Whether a process returns a value with a property when each request is always answered the
same. -/
def returnsUnder (answers : (op : I.Op) → I.Answer op) (holds : α → Bool) (p : Process I ε α) :
    Bool :=
  match p.evaluate answers with
  | .ok a => holds a
  | .error _ => false

/-- The exchanges of a process when each request is always answered the same. -/
def transcript (answers : (op : I.Op) → I.Answer op) : Process I ε α → List (Exchange I)
  | call op k => ⟨op, answers op⟩ :: (k (answers op)).transcript answers
  | _ => []

section Evaluate

variable {answers : (op : I.Op) → I.Answer op}

lemma eq_of_mem_transcript {p : Process I ε α} {x : Exchange I}
    (hx : x ∈ transcript answers p) : x = ⟨x.op, answers x.op⟩ := by
  induction p with
  | done a => cases hx
  | raise e => cases hx
  | cut => cases hx
  | call op k ih =>
    rcases List.mem_cons.1 hx with rfl | hx
    · rfl
    · exact ih _ hx

lemma returns_transcript {p : Process I ε α} {a : α} (h : evaluate answers p = .ok a) :
    p.Returns (transcript answers p) a := by
  induction p with
  | done a' =>
    cases h
    exact .nil
  | raise e => cases h
  | cut => cases h
  | call op k ih => exact returns_call.2 ⟨answers op, _, rfl, ih _ h⟩

lemma raises_transcript {p : Process I ε α} {e : ε}
    (h : evaluate answers p = .error (some e)) : p.Raises (transcript answers p) e := by
  induction p with
  | done a => cases h
  | raise e' =>
    cases h
    exact .nil
  | cut => cases h
  | call op k ih => exact raises_call.2 ⟨answers op, _, rfl, ih _ h⟩

lemma exists_returns_of_returnsUnder {p : Process I ε α} {holds : α → Bool}
    (h : returnsUnder answers holds p = true) :
    ∃ a, p.Returns (transcript answers p) a ∧ holds a = true := by
  unfold returnsUnder at h
  cases hends : evaluate answers p with
  | ok a =>
    rw [hends] at h
    exact ⟨a, returns_transcript hends, h⟩
  | error e =>
    rw [hends] at h
    cases h

lemma exists_raises_of_raisesUnder {p : Process I ε α} (h : raisesUnder answers p = true) :
    ∃ e, p.Raises (transcript answers p) e := by
  unfold raisesUnder at h
  cases hends : evaluate answers p with
  | ok a =>
    rw [hends] at h
    cases h
  | error e =>
    cases e with
    | none =>
      rw [hends] at h
      cases h
    | some e => exact ⟨e, raises_transcript hends⟩

@[simp] lemma evaluate_done (a : α) : evaluate answers (done a : Process I ε α) = .ok a := rfl

@[simp] lemma evaluate_pure (a : α) : evaluate answers (pure a : Process I ε α) = .ok a := rfl

@[simp] lemma evaluate_raise (e : ε) :
    evaluate answers (raise e : Process I ε α) = .error (some e) := rfl

@[simp] lemma evaluate_throw (e : ε) :
    evaluate answers (throw e : Process I ε α) = .error (some e) := rfl

@[simp] lemma evaluate_call (op : I.Op) (k : I.Answer op → Process I ε α) :
    evaluate answers (call op k) = evaluate answers (k (answers op)) := rfl

@[simp] lemma evaluate_bind (p : Process I ε α) (f : α → Process I ε β) :
    evaluate answers (p >>= f) = evaluate answers p >>= fun a => evaluate answers (f a) := by
  induction p with
  | done a => rfl
  | raise e => rfl
  | cut => rfl
  | call op k ih => exact ih (answers op)

@[simp] lemma evaluate_attempt (p : Process I ε α) :
    evaluate answers (p.attempt : Process I ε' (Except ε α)) =
      match evaluate answers p with
      | .ok a => .ok (.ok a)
      | .error (some e) => .ok (.error e)
      | .error none => .error none := by
  induction p with
  | done a => rfl
  | raise e => rfl
  | cut => rfl
  | call op k ih => exact ih (answers op)

lemma evaluate_ofExcept (r : Except ε α) :
    evaluate answers (ofExcept r : Process I ε α) = r.mapError some := by
  cases r <;> rfl

@[simp] lemma evaluate_foldlM (step : β → α → Process I ε β) (items : List α) (b : β) :
    evaluate answers (items.foldlM step b) =
      items.foldlM (fun b item => evaluate answers (step b item)) b := by
  induction items generalizing b with
  | nil => rfl
  | cons item rest ih => simp [List.foldlM_cons, ih]

end Evaluate

end Process

namespace Contract

open Process

variable {I : Interface} {ε α : Type}

/-- The contract of a process of whose surroundings nothing is known: before each request a
predicate holds of the exchanges so far. -/
def tracing (before : List (Exchange I) → I.Op → Prop) : Contract I (List (Exchange I)) where
  responds trace op answer trace' := trace' = trace ++ [⟨op, answer⟩]
  rely _ trace trace' := trace' = trace
  rely_refl _ _ := rfl
  rely_trans _ _ _ _ h h' := h'.trans h
  waits op trace := before trace op
  guarantee _ _ _ _ := True
  mayCut := True

variable {before : List (Exchange I) → I.Op → Prop} {post : α → List (Exchange I) → Prop}
  {err : ε → List (Exchange I) → Prop} {trace trace' : List (Exchange I)}

/-- The obligation of one request. -/
lemma safe_call_tracing {op : I.Op} {k : I.Answer op → Process I ε α} :
    (tracing before).Safe post err (.call op k) trace ↔ before trace op ∧
      ∀ answer, (tracing before).Safe post err (k answer) (trace ++ [⟨op, answer⟩]) := by
  constructor
  · intro h
    obtain ⟨hbefore, hanswers⟩ := h trace rfl
    exact ⟨hbefore, fun answer => (hanswers answer _ rfl).2⟩
  · rintro ⟨hbefore, hanswers⟩ _ rfl
    refine ⟨hbefore, ?_⟩
    rintro answer _ rfl
    exact ⟨trivial, hanswers answer⟩

/-- Soundness: what a trace leaves of a safe process is safe. -/
theorem safe_of_trace {p q : Process I ε α} (h : (tracing before).Safe post err p trace)
    (htrace : p.Trace trace' q) : (tracing before).Safe post err q (trace ++ trace') := by
  induction htrace with
  | nil => rwa [List.append_nil]
  | @snoc labels here x there _ hstep ih =>
    obtain ⟨k, rfl, rfl⟩ := hstep
    rw [← List.append_assoc]
    exact (safe_call_tracing.1 ih).2 x.answer

/-- A part of which the kinds of requests and an assertion that they keep say enough. -/
lemma safe_tracing_of_within {P : I.Op → Prop} {Q : α → Prop} {J : List (Exchange I) → Prop}
    {p : Process I ε α} (h : p.Within P Q) (hbefore : ∀ trace op, P op → J trace → before trace op)
    (hstep : ∀ trace x, P x.op → J trace → J (trace ++ [x])) (htrace : J trace) :
    (tracing before).Safe (fun a trace => Q a ∧ J trace) (fun _ trace => J trace) p trace := by
  refine safe_of_within (fun op s s₁ hop hJ hrely => ?_) trivial h htrace
  have hsame : s₁ = s := hrely
  subst hsame
  refine ⟨hbefore _ _ hop hJ, ?_⟩
  rintro answer _ rfl
  exact ⟨trivial, hstep _ ⟨op, answer⟩ hop hJ⟩

/-- A part with its own exchanges, to which what comes later can refer. -/
lemma safe_recorded {P : I.Op → Prop} {Q : α → Prop} {p : Process I ε α} (h : p.Within P Q)
    (hbefore : ∀ block op, P op → before (trace ++ block) op) :
    (tracing before).Safe
      (fun a trace' => Q a ∧ ∃ block, trace' = trace ++ block ∧ p.Trace block (.done a))
      (fun e trace' => ∃ block, trace' = trace ++ block ∧ p.Trace block (.raise e)) p trace := by
  induction p generalizing trace with
  | done a => exact ⟨h, [], (List.append_nil _).symm, .nil⟩
  | raise e => exact ⟨[], (List.append_nil _).symm, .nil⟩
  | cut => trivial
  | call op k ih =>
    refine safe_call_tracing.2 ⟨?_, fun answer => ?_⟩
    · have hnow := hbefore [] op h.1
      rwa [List.append_nil] at hnow
    · have hrest : ∀ block op', P op' → before (trace ++ [⟨op, answer⟩] ++ block) op' := by
        intro block op' hop'
        rw [List.append_assoc]
        exact hbefore _ op' hop'
      refine (ih answer (h.2 answer) hrest).mono ?_ ?_
      · rintro a _ ⟨hQ, block, rfl, hblock⟩
        exact ⟨hQ, ⟨op, answer⟩ :: block, by simp, .cons (answered_call op k answer) hblock⟩
      · rintro e _ ⟨block, rfl, hblock⟩
        exact ⟨⟨op, answer⟩ :: block, by simp, .cons (answered_call op k answer) hblock⟩

/-- A sequence whose first part ends with its own exchanges, whatever they are. -/
lemma safe_bind_recorded {β : Type} {p : Process I ε β} {f : β → Process I ε α}
    (hreturns : ∀ block b, p.Returns block b →
      (tracing fun _ _ => True).Safe post err (f b) (trace ++ block))
    (hraises : ∀ block e, p.Raises block e → err e (trace ++ block)) :
    (tracing fun _ _ => True).Safe post err (p >>= f) trace := by
  refine (safe_recorded (within_of_forall p (fun _ => trivial) fun _ => trivial)
    fun _ _ _ => trivial).bind ?_ ?_
  · rintro b _ ⟨-, block, rfl, hblock⟩
    exact hreturns block b hblock
  · rintro e _ ⟨block, rfl, hblock⟩
    exact hraises block e hblock

end Contract
