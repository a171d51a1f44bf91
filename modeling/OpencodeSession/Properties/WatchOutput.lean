import Mathlib.Data.List.SplitBy
import OpencodeSession.Properties.WatchLine

/-!
# The compact form of a watch loses nothing

`compacted` says what the compact form of some events is, without a word about how it is printed:
the events are cut into runs that are as long as possible, a run being pieces of one text, and the
pieces of a run are joined.  A watch prints exactly the compact form of the events it received,
however it ends (`stdout_watchSession`), and the texts of the compact form are the texts of the
events, one after the other (`texts_compacted`).  Each line shows its event, so the texts can be
read back from what is printed.

The invariant of the loop is `Shows`: what is printed is the compact form of all runs but the last,
and the last one, if it is of text, is held back as one event.
-/

namespace OpencodeSession

namespace WatchEvent

/-- Whether two events are pieces of one text: both are of text, of one session and message. -/
def continues (left right : WatchEvent) : Bool :=
  left.kind = .text && right.kind = .text && left.sessionId = right.sessionId &&
    left.messageId = right.messageId

/-- The texts of some events, one after the other. -/
def texts (events : List WatchEvent) : String := String.join (events.map fun e => e.text.getD "")

/-- A run of events as one event: the first, with the texts of all when there is more than one. -/
def joined (event : WatchEvent) (rest : List WatchEvent) : WatchEvent :=
  if rest = [] then event else { event with text := some (texts (event :: rest)) }

/-- The compact form of some events: each run as one event. -/
def compacted (events : List WatchEvent) : List WatchEvent :=
  (events.splitBy continues).filterMap fun
    | [] => none
    | event :: rest => some (joined event rest)

/-- The events up to the first terminal one, which is the last. -/
def upToTerminal (events : List WatchEvent) : List WatchEvent :=
  events.takeWhile (fun e => !e.isTerminal) ++
    (events.dropWhile fun e => !e.isTerminal).head?.toList

end WatchEvent

/-- The events that a watch receives. -/
def WatchedServer.received (server : WatchedServer) : List WatchEvent :=
  match server.capabilities with
  | .ok true => WatchEvent.upToTerminal server.events
  | _ => []

/-- Whether a watch ends in one of the ways that it knows: at a terminal event, at the end of the
stream, by an error of the server or at its time-out. -/
def WatchedServer.EndsWell (server : WatchedServer) : Prop :=
  (∀ error, server.capabilities ≠ .error (.other error)) ∧
    ((∃ e ∈ server.events, e.isTerminal = true) ∨ ∀ error, server.ending ≠ some (.other error))

namespace WatchEvent

/-! ## Runs -/

@[simp] lemma compacted_nil : compacted [] = [] := rfl

lemma texts_append (events others : List WatchEvent) :
    texts (events ++ others) = texts events ++ texts others := by
  rw [texts, List.map_append, String.join_append]
  rfl

lemma compacted_append_run {events : List WatchEvent} {event : WatchEvent}
    {rest : List WatchEvent} (hrun : (event :: rest).IsChain fun l r => l.continues r = true)
    (h : ∀ last ∈ events.getLast?, last.continues event = false) :
    compacted (events ++ event :: rest) = compacted events ++ [joined event rest] := by
  rw [compacted, List.splitBy_append_cons rest h,
    List.splitBy_of_isChain (List.cons_ne_nil event rest) hrun, List.filterMap_append]
  rfl

lemma eq_of_mem_run {event : WatchEvent} {rest : List WatchEvent}
    (hrun : (event :: rest).IsChain fun l r => l.continues r = true) :
    ∀ e ∈ rest, e.kind = .text ∧ e.sessionId = event.sessionId ∧ e.messageId = event.messageId := by
  induction rest generalizing event with
  | nil => simp
  | cons next rest ih =>
    rw [List.isChain_cons_cons] at hrun
    obtain ⟨hnext, hrest⟩ := hrun
    simp only [continues, Bool.and_eq_true, decide_eq_true_eq] at hnext
    obtain ⟨⟨⟨-, hkind⟩, hsession⟩, hmessage⟩ := hnext
    intro e he
    rcases List.mem_cons.1 he with rfl | he
    · exact ⟨hkind, hsession.symm, hmessage.symm⟩
    · obtain ⟨h1, h2, h3⟩ := ih hrest e he
      exact ⟨h1, h2.trans hsession.symm, h3.trans hmessage.symm⟩

/-- Whether an event continues a run depends on the first piece only. -/
lemma continues_of_mem_run {first event last : WatchEvent} {rest : List WatchEvent}
    (hrun : (first :: rest).IsChain fun l r => l.continues r = true) (hfirst : first.kind = .text)
    (hlast : last ∈ first :: rest) (hevent : event.kind = .text) :
    last.continues event = first.sameWatchTextGroup event := by
  rcases List.mem_cons.1 hlast with rfl | hlast
  · simp [continues, sameWatchTextGroup, hfirst, hevent]
  · obtain ⟨hkind, hsession, hmessage⟩ := eq_of_mem_run hrun last hlast
    simp [continues, sameWatchTextGroup, hkind, hevent, hsession, hmessage]

lemma joined_concat (event : WatchEvent) (rest : List WatchEvent) (next : WatchEvent) :
    joined event (rest ++ [next]) = (joined event rest).withText next := by
  have hne : rest ++ [next] ≠ [] := by simp
  have htexts : ∀ events : List WatchEvent, texts (events ++ [next]) =
      texts events ++ next.text.getD "" := by
    intro events
    rw [texts_append]
    simp [texts, String.join]
  rw [joined, if_neg hne, ← List.cons_append, htexts]
  by_cases hrest : rest = []
  · simp [hrest, joined, withText, texts, String.join]
  · simp [hrest, joined, withText]

lemma text_joined (event : WatchEvent) (rest : List WatchEvent) :
    (joined event rest).text.getD "" = texts (event :: rest) := by
  unfold joined
  split_ifs with h
  · simp [h, texts, String.join]
  · rfl

theorem texts_compacted (events : List WatchEvent) : texts (compacted events) = texts events := by
  have hruns : ∀ runs : List (List WatchEvent), [] ∉ runs →
      texts (runs.filterMap fun
        | [] => none
        | event :: rest => some (joined event rest)) = texts runs.flatten := by
    intro runs hruns
    induction runs with
    | nil => rfl
    | cons run runs ih =>
      obtain ⟨hrun, hrest⟩ : run ≠ [] ∧ [] ∉ runs := by
        simpa [eq_comm] using hruns
      obtain ⟨event, rest, rfl⟩ := List.exists_cons_of_ne_nil hrun
      have hcons : ∀ e es, texts (e :: es) = e.text.getD "" ++ texts es := fun e es => by
        rw [← List.singleton_append, texts_append]
        simp [texts, String.join]
      rw [List.filterMap_cons, hcons, List.flatten_cons, texts_append, text_joined, ih hrest]
  rw [compacted, hruns _ (List.nil_notMem_splitBy _ _), List.flatten_splitBy]

end WatchEvent

/-! ## The loop -/

namespace WatchState

open WatchEvent

/-- What the compact form of the events received so far is printed as, and what is held back. -/
inductive Shows : WatchState → List WatchEvent → Prop
  | flushed {events : List WatchEvent} (hlast : ∀ last ∈ events.getLast?, last.kind ≠ .text) :
    Shows ⟨(compacted events).map formatWatchEvent, none⟩ events
  | holding {events : List WatchEvent} {event : WatchEvent} {rest : List WatchEvent}
    (hkind : event.kind = .text)
    (hrun : (event :: rest).IsChain fun l r => l.continues r = true)
    (hlast : ∀ last ∈ events.getLast?, last.continues event = false) :
    Shows ⟨(compacted events).map formatWatchEvent, some (joined event rest)⟩
      (events ++ event :: rest)

lemma Shows.flush {state : WatchState} {events : List WatchEvent} (h : Shows state events) :
    state.flushPendingText = ⟨(compacted events).map formatWatchEvent, none⟩ := by
  cases h with
  | flushed hlast => rfl
  | holding hkind hrun hlast =>
    rw [compacted_append_run hrun hlast, List.map_append]
    rfl

lemma Shows.start {state : WatchState} {events : List WatchEvent} {event : WatchEvent}
    (h : Shows state events) (hkind : event.kind = .text)
    (hlast : ∀ last ∈ events.getLast?, last.continues event = false) :
    Shows { state.flushPendingText with pendingText := some event } (events ++ [event]) := by
  rw [h.flush]
  have hshows := @Shows.holding events event [] hkind (List.isChain_singleton event) hlast
  exact hshows

/-- Emitting an event keeps the invariant. -/
lemma Shows.emitEvent {state : WatchState} {events : List WatchEvent} (h : Shows state events)
    (event : WatchEvent) : Shows (state.emitEvent none event) (events ++ [event]) := by
  -- a text is held back, and anything else is printed with what was held
  by_cases hkind : event.kind = .text
  · cases h with
    | flushed hlast =>
      simp only [WatchState.emitEvent, if_pos hkind]
      refine Shows.start (.flushed hlast) hkind fun last hmem => ?_
      simp [continues, hlast last hmem]
    | @holding events first rest hfirst hrun hlast =>
      have hends : ∀ last ∈ (events ++ first :: rest).getLast?,
          last.continues event = first.sameWatchTextGroup event := by
        intro last hmem
        rw [List.getLast?_append_cons] at hmem
        exact continues_of_mem_run hrun hfirst (List.mem_of_mem_getLast? hmem) hkind
      have hsame : (joined first rest).sameWatchTextGroup event =
          first.sameWatchTextGroup event := by
        unfold joined
        split_ifs <;> rfl
      simp only [WatchState.emitEvent, if_pos hkind, hsame]
      split_ifs with hgroup
      -- it continues the run of texts that is held
      · rw [← joined_concat, List.append_assoc, List.cons_append]
        refine .holding hfirst ?_ hlast
        rw [← List.cons_append, List.isChain_append]
        refine ⟨hrun, List.isChain_singleton event, fun last hmem next hnext => ?_⟩
        obtain rfl : event = next := by simpa using hnext
        rw [continues_of_mem_run hrun hfirst (List.mem_of_mem_getLast? hmem) hkind]
        exact hgroup
      · refine Shows.start (.holding hfirst hrun hlast) hkind fun last hmem => ?_
        rw [hends last hmem]
        simpa using hgroup
  · have hnot : ∀ last ∈ events.getLast?, last.continues event = false := by
      intro last _
      simp [continues, hkind]
    simp only [WatchState.emitEvent, if_neg hkind]
    have hcompacted : compacted (events ++ [event]) = compacted events ++ [event] :=
      compacted_append_run (List.isChain_singleton event) hnot
    rw [h.flush, show (compacted events).map formatWatchEvent ++ [event.formatWatchEvent] =
      (compacted (events ++ [event])).map formatWatchEvent by rw [hcompacted, List.map_append]; rfl]
    exact .flushed fun last hmem => by simpa using (by simpa using hmem) ▸ hkind

end WatchState

section Run

open WatchEvent WatchState

variable {exits : WatchExits} {timeout : String}

/-- From a state of the loop, what is printed in the end is the compact form of all events. -/
lemma stdout_watchEvents {ending : Option WatchError} {state : WatchState}
    {seen events : List WatchEvent} (h : Shows state seen)
    (hends : (∃ e ∈ events, e.isTerminal = true) ∨ ∀ error, ending ≠ some (.other error)) :
    (watchEvents exits timeout none ending state events).stdout =
      (compacted (seen ++ upToTerminal events)).map formatWatchEvent := by
  induction events generalizing state seen with
  | nil =>
    have hending : ∀ error, ending ≠ some (.other error) := by simpa using hends
    rw [watchEvents]
    cases ending with
    | none => simp [watchEnded, upToTerminal, h.flush]
    | some error =>
      cases error with
      | api message invalidStream => simp [watchEnded, upToTerminal, h.flush]
      | timeoutExpired => simp [watchEnded, upToTerminal, h.flush]
      | other error => exact absurd rfl (hending error)
  | cons event rest ih =>
    have hstep := h.emitEvent event
    by_cases hterminal : event.isTerminal = true
    · simp [watchEvents, upToTerminal, hterminal, hstep.flush]
    · have hrest : (∃ e ∈ rest, e.isTerminal = true) ∨ ∀ error, ending ≠ some (.other error) := by
        simpa [hterminal] using hends
      rw [watchEvents, if_neg hterminal, ih hstep hrest]
      simp [upToTerminal, hterminal]

/-- A watch in the compact form prints the compact form of the events it received, and no text is
lost by it: the events of the compact form have the texts received, and each line shows its
event. -/
theorem stdout_watchSession {server : WatchedServer} (h : server.EndsWell) :
    (watchSession exits timeout none server).stdout =
        (compacted server.received).map formatWatchEvent ∧
      texts (compacted server.received) = texts server.received ∧
      List.Forall₂ ShownBy (compacted server.received)
        (watchSession exits timeout none server).stdout := by
  obtain ⟨hcapabilities, hends⟩ := h
  have hstart : Shows {} [] := by
    have hflushed : Shows ⟨(compacted []).map formatWatchEvent, none⟩ [] := .flushed (by simp)
    simpa using hflushed
  have hprinted : (watchSession exits timeout none server).stdout =
      (compacted server.received).map formatWatchEvent := by
    cases hroute : server.capabilities with
    | ok available =>
      by_cases havailable : available = true
      · subst havailable
        simpa [watchSession, WatchedServer.received, hroute] using
          stdout_watchEvents hstart hends
      · simp [watchSession, WatchedServer.received, hroute, havailable]
    | error error =>
      cases error with
      | api message invalidStream => simp [watchSession, WatchedServer.received, hroute]
      | timeoutExpired => simp [watchSession, WatchedServer.received, hroute]
      | other error => exact absurd hroute (hcapabilities error)
  refine ⟨hprinted, texts_compacted _, ?_⟩
  rw [hprinted, List.forall₂_map_right_iff, List.forall₂_same]
  intro event _
  exact event.shownBy_formatWatchEvent

/-- A server whose stream has one text in two pieces, a call of a tool, and a text in one more
piece, of another message, after which it fails. -/
def splitTextServer : WatchedServer where
  capabilities := .ok true
  events := [{ kind := .text, messageId := some "msg_1", text := some "hel" },
    { kind := .text, messageId := some "msg_1", text := some "lo you" },
    { kind := .tool, tool := some "bash", status := some "running" },
    { kind := .text, messageId := some "msg_1", text := some "a" },
    { kind := .text, messageId := some "msg_2", text := some "b" }]
  ending := some (.api "connection closed" false)

theorem stdout_watchSession_splitText :
    (watchSession ⟨69, 69, 65, 124, 1⟩ "5" none splitTextServer).stdout =
      ["text message=msg_1 chars=9 text=\"hello you\"", "tool tool=bash status=running",
        "text message=msg_1 chars=1 text=a", "text message=msg_2 chars=1 text=b"] := by
  have hends : splitTextServer.EndsWell :=
    ⟨by simp [splitTextServer], .inr (by simp [splitTextServer])⟩
  have hcompacted : compacted splitTextServer.received =
      [{ kind := .text, messageId := some "msg_1", text := some "hello you" },
        { kind := .tool, tool := some "bash", status := some "running" },
        { kind := .text, messageId := some "msg_1", text := some "a" },
        { kind := .text, messageId := some "msg_2", text := some "b" }] := by decide
  rw [(stdout_watchSession hends).1, hcompacted]
  decide

end Run

end OpencodeSession
