import OpencodeSession.Run.Record

/-!
# The store of a run

`update_run` holds a lock while it reads the record, applies a mutator and replaces the file, so an
update is one atomic step.  It can fail before the file is replaced, and nothing is written then;
and the lock can fail to be released after the file was replaced, when the update is there although
the caller gets an error.

The modelled processes work on one run.  The state is its record as `load_run` would return it, if
there is one.
-/

namespace OpencodeSession

/-- The answer of the store to an update. -/
inductive UpdateAnswer where
  /-- The update is written: the clock as the mutator read it, the record the mutator was given and
  the record that was saved. -/
  | committed (now : String) (seen saved : Run)
  /-- Nothing is written. -/
  | rejected (error : PyError)
  /-- The update is written, and the caller gets an error. -/
  | lost (error : PyError)

namespace UpdateAnswer

/-- What the caller of the update gets. -/
def toExcept : UpdateAnswer → Except PyError (String × Run × Run)
  | committed now seen saved => .ok (now, seen, saved)
  | rejected error | lost error => .error error

/-- Whether the update is written. -/
def written : UpdateAnswer → Bool
  | committed _ _ _ | lost _ => true
  | rejected _ => false

end UpdateAnswer

/-- The answers that an update can get, with the record before and after it. -/
inductive Updates (mutator : String → Run → Except PyError Run) :
    Option Run → UpdateAnswer → Option Run → Prop where
  | committed {now : String} {seen left : Run} (hfence : seen.cleanupInProgress = false)
      (hmutator : mutator now seen = .ok left) :
      Updates mutator (some seen) (.committed now seen left.normalize) (some left.normalize)
  | raised {now : String} {seen : Run} {error : PyError}
      (hfence : seen.cleanupInProgress = false) (hmutator : mutator now seen = .error error) :
      Updates mutator (some seen) (.rejected error) (some seen)
  /-- The record cannot be read, is fenced off, or cannot be written. -/
  | failed {stored : Option Run} {error : PyError} (herror : error.isPersistenceError = true) :
      Updates mutator stored (.rejected error) stored
  | lost {now : String} {seen left : Run} {error : PyError}
      (hfence : seen.cleanupInProgress = false) (hmutator : mutator now seen = .ok left)
      (herror : error.isPersistenceError = true) :
      Updates mutator (some seen) (.lost error) (some left.normalize)

namespace Updates

variable {mutator : String → Run → Except PyError Run} {stored stored' : Option Run}
  {answer : UpdateAnswer}

lemma stored_of_rejected {error : PyError} (h : Updates mutator stored (.rejected error) stored') :
    stored' = stored := by
  cases h <;> rfl

lemma of_committed {now : String} {seen saved : Run}
    (h : Updates mutator stored (.committed now seen saved) stored') :
    stored = some seen ∧ stored' = some saved ∧
      ∃ left, mutator now seen = .ok left ∧ saved = left.normalize := by
  cases h with
  | committed _ hmutator => exact ⟨rfl, rfl, _, hmutator, rfl⟩

lemma of_written (h : Updates mutator stored answer stored') (hwritten : answer.written = true) :
    ∃ now seen left, stored = some seen ∧ mutator now seen = .ok left ∧
      stored' = some left.normalize := by
  cases h with
  | committed _ hmutator => exact ⟨_, _, _, rfl, hmutator, rfl⟩
  | raised | failed => cases hwritten
  | lost _ hmutator _ => exact ⟨_, _, _, rfl, hmutator, rfl⟩

/-- What holds of every record that the mutator makes of one for which it holds already is kept by
the update, whatever the answer. -/
lemma keeps {P : Run → Prop} (h : Updates mutator stored answer stored')
    (hmutator : ∀ now run left, P run → mutator now run = .ok left → P left.normalize)
    (hstored : ∀ run, stored = some run → P run) (run : Run) (hrun : stored' = some run) :
    P run := by
  cases h with
  | @committed now seen left _ hleft =>
    cases hrun
    exact hmutator _ _ _ (hstored _ rfl) hleft
  | raised | failed => exact hstored run hrun
  | @lost now seen left _ _ hleft _ =>
    cases hrun
    exact hmutator _ _ _ (hstored _ rfl) hleft

end Updates

end OpencodeSession
