import Mathlib.Data.List.Basic
import Mathlib.Data.List.Nodup
import Mathlib.Logic.Relation
import Mathlib.Tactic.ByCases

/-!
# Depth-first search that records a cycle for each back edge

A recursive depth-first search over a graph given by the ordered successors of each node.  A node
that is finished is not entered again, a successor on the current path closes a cycle, and a node
is put on the order when all its successors are done.

What such a search reports depends on the order of roots and successors, and the point of this
library is to say what it reports without running it.  The path by which a node is first reached is
the first one in the order of choices: at every node of it, no earlier choice leads to the target
without going back through the path so far (`SearchPath`).  Each node reachable from the roots has
exactly one such path (`SearchPath.unique`), and the cycles recorded are exactly those closed by
an edge from a node back to its own search path (`mem_cycles_search_iff`).  A node comes after each
of its successors that does not lead back to it (`before_ordered_search`).
-/

namespace DepthFirstSearch

variable {V : Type*} [DecidableEq V]

/-! ## The search -/

/-- What the search has recorded: the finished nodes in the order they were finished, and a cycle
for each back edge. -/
structure State (V : Type*) where
  ordered : List V := []
  cycles : List (List V) := []

/-- The part of a path from a node on, closed by that node. -/
def closing (path : List V) (v : V) : List V := path.drop (path.idxOf v) ++ [v]

/-- Visit a node with the given path above it. -/
def visit (graph : V → Option (List V)) : Nat → List V → State V → V → State V
  | 0, path, st, v =>
    if v ∈ st.ordered then st
    else if v ∈ path then { st with cycles := st.cycles ++ [closing path v] }
    else st
  | fuel + 1, path, st, v =>
    if v ∈ st.ordered then st
    else if v ∈ path then { st with cycles := st.cycles ++ [closing path v] }
    else match graph v with
      | none => st
      | some next =>
        let st := next.foldl (visit graph fuel (path ++ [v])) st
        { st with ordered := st.ordered ++ [v] }

/-- Visit the roots one after the other. -/
def search (graph : V → Option (List V)) (fuel : Nat) (roots : List V) : State V :=
  roots.foldl (visit graph fuel []) {}

/-! ## Search paths -/

section Paths

variable (graph : V → Option (List V)) (roots : List V)

/-- The node has the given successor. -/
def Edge (a b : V) : Prop := b ∈ (graph a).getD []

/-- The node has an entry in the graph. -/
def IsNode (a : V) : Prop := (graph a).isSome

/-- The choices at the end of a path: the roots, or the successors of its last node. -/
def choices (path : List V) : List V :=
  match path.getLast? with
  | none => roots
  | some a => (graph a).getD []

/-- A choice that is listed before another one. -/
def Before (b c : V) (l : List V) : Prop := ∃ l₁ l₂, l = l₁ ++ c :: l₂ ∧ c ∉ l₁ ∧ b ∈ l₁

/-- A node is reached from another along edges that avoid a list of nodes. -/
def ReachAvoiding (avoid : List V) (a b : V) : Prop :=
  a ∉ avoid ∧ Relation.ReflTransGen (fun x y => Edge graph x y ∧ y ∉ avoid) a b

/-- The path by which the search first reaches a node: it runs along choices, and at no point of it
does an earlier choice reach the node without going back through the path so far. -/
structure SearchPath (path : List V) (u : V) : Prop where
  last : path.getLast? = some u
  nodup : path.Nodup
  nodes : ∀ y ∈ path, IsNode graph y
  chosen : ∀ pre c suf, path = pre ++ c :: suf → c ∈ choices graph roots pre
  first : ∀ pre c suf, path = pre ++ c :: suf → ∀ b, Before b c (choices graph roots pre) →
    ¬ ReachAvoiding graph pre b u

variable {graph roots}

omit [DecidableEq V] in
lemma choices_append_singleton (pre : List V) (a : V) :
    choices graph roots (pre ++ [a]) = (graph a).getD [] := by
  simp [choices]

omit [DecidableEq V] in
lemma before_or_before {b c : V} {l : List V} (hb : b ∈ l) (hc : c ∈ l) (hne : b ≠ c) :
    Before b c l ∨ Before c b l := by
  obtain ⟨l₁, l₂, rfl, hfirst⟩ := List.eq_append_cons_of_mem hc
  by_cases hb₁ : b ∈ l₁
  · exact .inl ⟨l₁, l₂, rfl, hfirst, hb₁⟩
  · have hb₂ : b ∈ l₂ := by simpa [hb₁, hne] using hb
    obtain ⟨m₁, m₂, rfl, hm⟩ := List.eq_append_cons_of_mem hb₂
    exact .inr ⟨l₁ ++ c :: m₁, m₂, by simp, by simp [hb₁, hne, hm], by simp⟩

omit [DecidableEq V] in
/-- A choice listed before another is in every part of the list that precedes an occurrence of
the other. -/
lemma mem_of_before_append {b c : V} {l₁ l₂ : List V} (h : Before b c (l₁ ++ c :: l₂)) :
    b ∈ l₁ := by
  obtain ⟨m₁, m₂, heq, hfirst, hb⟩ := h
  rcases List.append_eq_append_iff.1 heq with ⟨as, hm, hl⟩ | ⟨as, hl, hm⟩
  · cases as with
    | nil => simpa [hm] using hb
    | cons a as =>
      have hac : a = c := by simpa using (List.cons.inj hl).1.symm
      exact absurd (by simp [hm, hac] : c ∈ m₁) hfirst
  · simp [hl, hb]

omit [DecidableEq V] in
lemma ReachAvoiding.refl {avoid : List V} {a : V} (h : a ∉ avoid) :
    ReachAvoiding graph avoid a a :=
  ⟨h, .refl⟩

omit [DecidableEq V] in
/-- The rest of a path that never comes back is a way to its end that avoids what came before. -/
lemma SearchPath.reachAvoiding {path pre suf : List V} {c u : V}
    (h : SearchPath graph roots path u) (hpath : path = pre ++ c :: suf) :
    ReachAvoiding graph pre c u := by
  induction suf generalizing pre c with
  | nil =>
    have hlast := h.last
    subst hpath
    have hcu : c = u := by simpa using hlast
    subst hcu
    have hdisj := (List.nodup_append.1 h.nodup).2.2
    exact .refl fun hc => hdisj c hc c (by simp) rfl
  | cons d suf ih =>
    have hnext := ih (show path = (pre ++ [c]) ++ d :: suf by simp [hpath])
    have hedge : Edge graph c d := by
      have hchosen := h.chosen (pre ++ [c]) d suf (by simp [hpath])
      rwa [choices_append_singleton] at hchosen
    have hdisj := h.nodup
    rw [hpath] at hdisj
    have hd : d ∉ pre := fun hd =>
      (List.nodup_append.1 hdisj).2.2 d hd d (by simp) rfl
    refine ⟨fun hc => (List.nodup_append.1 hdisj).2.2 c hc c (by simp) rfl, ?_⟩
    refine .head ⟨hedge, hd⟩ (Relation.ReflTransGen.mono ?_ _ _ hnext.2)
    rintro x y ⟨hxy, hy⟩
    exact ⟨hxy, fun hmem => hy (by simp [hmem])⟩

omit [DecidableEq V] in
lemma SearchPath.reflTransGen {path : List V} {x u : V} (h : SearchPath graph roots path u)
    (hx : x ∈ path) : Relation.ReflTransGen (Edge graph) x u := by
  obtain ⟨pre, suf, hpath⟩ := List.append_of_mem hx
  refine Relation.ReflTransGen.mono ?_ _ _ (h.reachAvoiding hpath).2
  rintro a b ⟨hedge, -⟩
  exact hedge

omit [DecidableEq V] in
/-- A node has only one search path: where two differ, one of them took a later choice although
the earlier one leads on. -/
theorem SearchPath.unique {path path' : List V} {u : V} (h : SearchPath graph roots path u)
    (h' : SearchPath graph roots path' u) : path = path' := by
  suffices hsplit : ∀ (suf suf' pre : List V), path = pre ++ suf → path' = pre ++ suf' →
      suf = suf' by
    exact hsplit path path' [] rfl rfl
  intro suf
  induction suf with
  | nil =>
    rintro (_ | ⟨c', suf'⟩) pre hpath hpath'
    · rfl
    · -- the first path ends in `u`, which the second one has passed
      have hu : u ∈ pre := by
        rw [List.append_nil] at hpath
        exact List.mem_of_getLast? (hpath ▸ h.last)
      have hlast' : (c' :: suf').getLast? = some u := by
        have := h'.last
        rwa [hpath', List.getLast?_append_of_ne_nil _ (by simp)] at this
      have hnodup := h'.nodup
      rw [hpath', List.nodup_append] at hnodup
      exact absurd rfl (hnodup.2.2 u hu u (List.mem_of_getLast? hlast'))
  | cons c suf ih =>
    rintro (_ | ⟨c', suf'⟩) pre hpath hpath'
    · have hu : u ∈ pre := by
        rw [List.append_nil] at hpath'
        exact List.mem_of_getLast? (hpath' ▸ h'.last)
      have hlast : (c :: suf).getLast? = some u := by
        have := h.last
        rwa [hpath, List.getLast?_append_of_ne_nil _ (by simp)] at this
      have hnodup := h.nodup
      rw [hpath, List.nodup_append] at hnodup
      exact absurd rfl (hnodup.2.2 u hu u (List.mem_of_getLast? hlast))
    · have hcc : c = c' := by
        by_contra hne
        have hc := h.chosen pre c suf hpath
        have hc' := h'.chosen pre c' suf' hpath'
        rcases before_or_before hc hc' hne with hbefore | hbefore
        · exact h'.first pre c' suf' hpath' c hbefore (h.reachAvoiding hpath)
        · exact h.first pre c suf hpath c' hbefore (h'.reachAvoiding hpath')
      subst hcc
      rw [ih suf' (pre ++ [c]) (by simp [hpath]) (by simp [hpath'])]

end Paths

/-! ## What a visit does -/

section Correctness

variable {graph : V → Option (List V)} {roots : List V}

/-- What holds whenever the search stands at the end of `path`: the path is a search path, earlier
choices along it are explored, and the finished nodes are closed up to the path and have their
back edges recorded. -/
structure Inv (graph : V → Option (List V)) (roots path : List V) (st : State V) : Prop where
  onPath : path = [] ∨ ∃ u, SearchPath graph roots path u
  explored : ∀ pre c suf, path = pre ++ c :: suf → ∀ b, Before b c (choices graph roots pre) →
    ∀ y, IsNode graph y → ReachAvoiding graph pre b y → y ∈ st.ordered
  disjoint : ∀ y ∈ path, y ∉ st.ordered
  closed : ∀ a ∈ st.ordered, ∀ b, Edge graph a b → IsNode graph b → b ∈ st.ordered ∨ b ∈ path
  nodes : ∀ a ∈ st.ordered, IsNode graph a
  sound : ∀ c ∈ st.cycles, ∃ p u x, SearchPath graph roots p u ∧ Edge graph u x ∧ x ∈ p ∧
    c = closing p x
  complete : ∀ u ∈ st.ordered, ∀ p, SearchPath graph roots p u → ∀ x, Edge graph u x → x ∈ p →
    closing p x ∈ st.cycles
  postorder : ∀ l₁ a l₂, st.ordered = l₁ ++ a :: l₂ → ∀ b, Edge graph a b → IsNode graph b →
    b ∈ l₁ ∨ ∃ p, SearchPath graph roots p a ∧ b ∈ p
  nodup : st.ordered.Nodup

/-- What one visit leaves: the invariant, more finished nodes and cycles, and its node entered. -/
structure Visited (graph : V → Option (List V)) (roots path : List V) (st : State V)
    (nodes : List V) (st' : State V) : Prop where
  inv : Inv graph roots path st'
  grows : ∀ a ∈ st.ordered, a ∈ st'.ordered
  cycles : ∀ c ∈ st.cycles, c ∈ st'.cycles
  entered : ∀ v ∈ nodes, IsNode graph v → v ∈ st'.ordered ∨ v ∈ path
  recorded : ∀ v ∈ nodes, v ∈ path → closing path v ∈ st'.cycles

omit [DecidableEq V] in
lemma isNode_of_edge {a b : V} (h : Edge graph a b) : IsNode graph a := by
  unfold Edge at h
  unfold IsNode
  cases hg : graph a with
  | none => simp [hg] at h
  | some next => rfl

lemma Inv.mem_of_reachAvoiding {path : List V} {st : State V} (h : Inv graph roots path st)
    {a y : V} (ha : a ∈ st.ordered) (hreach : ReachAvoiding graph path a y)
    (hy : IsNode graph y) : y ∈ st.ordered := by
  obtain ⟨-, hchain⟩ := hreach
  induction hchain with
  | refl => exact ha
  | tail _ hstep ih =>
    have hx := ih (isNode_of_edge hstep.1)
    exact (h.closed _ hx _ hstep.1 hy).resolve_right hstep.2

/-- A choice that has been entered leads only to finished nodes. -/
lemma Inv.explored_of_entered {path : List V} {st : State V} (h : Inv graph roots path st) {b : V}
    (hb : IsNode graph b → b ∈ st.ordered ∨ b ∈ path) {y : V} (hy : IsNode graph y)
    (hreach : ReachAvoiding graph path b y) : y ∈ st.ordered := by
  by_cases hnode : IsNode graph b
  · rcases hb hnode with hb | hb
    · exact h.mem_of_reachAvoiding hb hreach hy
    · exact absurd hb hreach.1
  · rcases hreach.2.cases_head with rfl | ⟨x, hstep, -⟩
    · exact absurd hy hnode
    · exact absurd (isNode_of_edge hstep.1) hnode

/-- A fresh choice extends the path to its search path. -/
lemma Inv.searchPath {path : List V} {st : State V} (h : Inv graph roots path st) {v : V}
    (hchoice : v ∈ choices graph roots path) (hordered : v ∉ st.ordered) (hpath : v ∉ path)
    (hnode : IsNode graph v)
    (hbefore : ∀ b, Before b v (choices graph roots path) →
      IsNode graph b → b ∈ st.ordered ∨ b ∈ path) :
    SearchPath graph roots (path ++ [v]) v := by
  have hnodup : path.Nodup := by
    rcases h.onPath with rfl | ⟨u, hu⟩
    · exact List.nodup_nil
    · exact hu.nodup
  have hnodes : ∀ y ∈ path, IsNode graph y := by
    rcases h.onPath with rfl | ⟨u, hu⟩
    · simp
    · exact hu.nodes
  have hchosen : ∀ pre c suf, path = pre ++ c :: suf → c ∈ choices graph roots pre := by
    rcases h.onPath with rfl | ⟨u, hu⟩
    · simp
    · exact hu.chosen
  -- a split of the longer path is at its end or inside the path
  have hsplit : ∀ {pre : List V} {c : V} {suf : List V}, path ++ [v] = pre ++ c :: suf →
      (pre = path ∧ c = v) ∨ ∃ suf', path = pre ++ c :: suf' := by
    intro pre c suf heq
    rcases List.eq_nil_or_concat suf with rfl | ⟨suf', w, rfl⟩
    · obtain ⟨hpre, hc⟩ := List.append_inj' heq rfl
      exact .inl ⟨hpre.symm, by simpa using hc.symm⟩
    · rw [List.concat_eq_append, ← List.cons_append, ← List.append_assoc] at heq
      exact .inr ⟨suf', (List.append_inj' heq rfl).1⟩
  refine ⟨by simp, ?_, ?_, ?_, ?_⟩
  · rw [List.nodup_append]
    refine ⟨hnodup, by simp, ?_⟩
    rintro a ha b hb rfl
    exact hpath (List.mem_singleton.1 hb ▸ ha)
  · intro y hy
    rcases List.mem_append.1 hy with hy | hy
    · exact hnodes y hy
    · rwa [List.mem_singleton.1 hy]
  · intro pre c suf heq
    rcases hsplit heq with ⟨rfl, rfl⟩ | ⟨suf', hpre⟩
    · exact hchoice
    · exact hchosen pre c suf' hpre
  · intro pre c suf heq b hb hreach
    rcases hsplit heq with ⟨rfl, rfl⟩ | ⟨suf', hpre⟩
    · exact hordered (h.explored_of_entered (hbefore b hb) hnode hreach)
    · exact hordered (h.explored pre c suf' hpre b hb v hnode hreach)

/-- Visiting choices one after the other, given what visiting one of them does. -/
lemma foldl_visited {path : List V} {f : State V → V → State V}
    (hf : ∀ st v, Inv graph roots path st → v ∈ choices graph roots path →
      (∀ b, Before b v (choices graph roots path) →
        IsNode graph b → b ∈ st.ordered ∨ b ∈ path) →
      Visited graph roots path st [v] (f st v)) :
    ∀ (rest seen : List V) (st : State V), choices graph roots path = seen ++ rest →
      Inv graph roots path st →
      (∀ b ∈ seen, IsNode graph b → b ∈ st.ordered ∨ b ∈ path) →
      Visited graph roots path st rest (rest.foldl f st) := by
  intro rest
  induction rest with
  | nil =>
    intro seen st _ hinv _
    exact ⟨hinv, fun _ h => h, fun _ h => h, by simp, by simp⟩
  | cons v rest ih =>
    intro seen st hchoices hinv hseen
    have hv : Visited graph roots path st [v] (f st v) := by
      refine hf st v hinv (by simp [hchoices]) fun b hb => hseen b ?_
      rw [hchoices] at hb
      exact mem_of_before_append hb
    have hlift : ∀ {b : V}, b ∈ st.ordered ∨ b ∈ path → b ∈ (f st v).ordered ∨ b ∈ path :=
      fun hb => hb.imp_left (hv.grows _)
    have hrest := ih (seen ++ [v]) (f st v) (by simp [hchoices]) hv.inv (by
      intro b hb hnode
      rcases List.mem_append.1 hb with hb | hb
      · exact hlift (hseen b hb hnode)
      · exact hv.entered b hb hnode)
    refine ⟨hrest.inv, fun a ha => hrest.grows a (hv.grows a ha),
      fun c hc => hrest.cycles c (hv.cycles c hc), ?_, ?_⟩
    · intro b hb hnode
      rcases List.mem_cons.1 hb with rfl | hb
      · exact (hv.entered b (by simp) hnode).imp_left (hrest.grows _)
      · exact hrest.entered b hb hnode
    · intro b hb hpath
      rcases List.mem_cons.1 hb with rfl | hb
      · exact hrest.cycles _ (hv.recorded b (by simp) hpath)
      · exact hrest.recorded b hb hpath

lemma Inv.visited_of_entered {path : List V} {st : State V} (h : Inv graph roots path st) {v : V}
    (hentered : IsNode graph v → v ∈ st.ordered ∨ v ∈ path) (hpath : v ∉ path) :
    Visited graph roots path st [v] st := by
  refine ⟨h, fun _ ha => ha, fun _ hc => hc, ?_, ?_⟩
  · intro w hw
    rwa [List.mem_singleton.1 hw]
  · intro w hw
    rw [List.mem_singleton.1 hw]
    exact fun hv => absurd hv hpath

/-- A visit of a node on the path records the cycle it closes. -/
lemma Inv.visited_of_mem_path {path : List V} {st : State V} (h : Inv graph roots path st) {v : V}
    (hchoice : v ∈ choices graph roots path) (hpath : v ∈ path) :
    Visited graph roots path st [v] { st with cycles := st.cycles ++ [closing path v] } := by
  rcases h.onPath with rfl | ⟨u, hu⟩
  · cases hpath
  · have hedge : Edge graph u v := by
      rw [choices, hu.last] at hchoice
      exact hchoice
    refine ⟨⟨.inr ⟨u, hu⟩, h.explored, h.disjoint, h.closed, h.nodes, ?_, ?_, h.postorder,
      h.nodup⟩,
      fun _ ha => ha, fun _ hc => by simp [hc], ?_, ?_⟩
    · intro c hc
      rcases List.mem_append.1 hc with hc | hc
      · exact h.sound c hc
      · exact ⟨path, u, v, hu, hedge, hpath, List.mem_singleton.1 hc⟩
    · intro w hw p hp x hx hxp
      exact List.mem_append_left _ (h.complete w hw p hp x hx hxp)
    · intro w hw _
      exact .inr (List.mem_singleton.1 hw ▸ hpath)
    · intro w hw _
      simp [List.mem_singleton.1 hw]

/-- A node is finished once its successors are: what the visit of a fresh node leaves. -/
lemma visited_finished {path next : List V} {st st₁ : State V} {v : V}
    (hinv : Inv graph roots path st) (hlong : SearchPath graph roots (path ++ [v]) v)
    (hgraph : graph v = some next) (hpath : v ∉ path)
    (hnext : Visited graph roots (path ++ [v]) st next st₁) :
    Visited graph roots path st [v] { st₁ with ordered := st₁.ordered ++ [v] } := by
  have hnode : IsNode graph v := by simp [IsNode, hgraph]
  have hedge : ∀ {b : V}, Edge graph v b → b ∈ next := by
    intro b hb
    rwa [Edge, hgraph] at hb
  -- each field for the node that was just finished, and from the visit of its successors for the
  -- others
  refine ⟨⟨hinv.onPath, ?_, ?_, ?_, ?_, hnext.inv.sound, ?_, ?_, ?_⟩, ?_, hnext.cycles, ?_, ?_⟩
  · intro pre c suf heq b hb y hy hreach
    exact List.mem_append_left _ (hnext.inv.explored pre c (suf ++ [v]) (by simp [heq]) b hb y hy
      hreach)
  · intro y hy hmem
    rcases List.mem_append.1 hmem with hmem | hmem
    · exact hnext.inv.disjoint y (List.mem_append_left _ hy) hmem
    · exact hpath (List.mem_singleton.1 hmem ▸ hy)
  · intro a ha b hab hb
    have hentered : b ∈ st₁.ordered ∨ b ∈ path ++ [v] := by
      rcases List.mem_append.1 ha with ha | ha
      · exact hnext.inv.closed a ha b hab hb
      · rw [List.mem_singleton.1 ha] at hab
        exact hnext.entered b (hedge hab) hb
    rcases hentered with hb | hb
    · exact .inl (List.mem_append_left _ hb)
    · rcases List.mem_append.1 hb with hb | hb
      · exact .inr hb
      · exact .inl (List.mem_append_right _ hb)
  · intro a ha
    rcases List.mem_append.1 ha with ha | ha
    · exact hnext.inv.nodes a ha
    · rwa [List.mem_singleton.1 ha]
  · intro u hu p hp x hx hxp
    rcases List.mem_append.1 hu with hu | hu
    · exact hnext.inv.complete u hu p hp x hx hxp
    · rw [List.mem_singleton.1 hu] at hp hx
      rw [hp.unique hlong] at hxp ⊢
      exact hnext.recorded x (hedge hx) hxp
  · intro l₁ a l₂ heq b hab hb
    rcases List.eq_nil_or_concat l₂ with rfl | ⟨l₂', w, rfl⟩
    · -- the node just finished: its successors are finished before it or on its search path
      obtain ⟨hl, ha⟩ := List.append_inj' heq rfl
      obtain rfl : v = a := by simpa using ha
      subst hl
      rcases hnext.entered b (hedge hab) hb with hb | hb
      · exact .inl hb
      · exact .inr ⟨path ++ [v], hlong, hb⟩
    · rw [List.concat_eq_append, ← List.cons_append, ← List.append_assoc] at heq
      exact hnext.inv.postorder l₁ a l₂' (List.append_inj' heq rfl).1 b hab hb
  · rw [List.nodup_append]
    refine ⟨hnext.inv.nodup, by simp, fun a ha b hb => ?_⟩
    rw [List.mem_singleton.1 hb]
    rintro rfl
    exact hnext.inv.disjoint a (by simp) ha
  · intro a ha
    exact List.mem_append_left _ (hnext.grows a ha)
  · intro w hw _
    exact .inl (List.mem_append_right _ hw)
  · intro w hw hmem
    exact absurd (List.mem_singleton.1 hw ▸ hmem) hpath

/-- A visit with enough fuel does what a visit should. -/
theorem visited_visit (fuel : Nat) : ∀ (path : List V) (st : State V) (v : V),
    (∀ l : List V, l.Nodup → (∀ y ∈ l, IsNode graph y) → l.length ≤ path.length + fuel) →
    Inv graph roots path st → v ∈ choices graph roots path →
    (∀ b, Before b v (choices graph roots path) → IsNode graph b → b ∈ st.ordered ∨ b ∈ path) →
    Visited graph roots path st [v] (visit graph fuel path st v) := by
  induction fuel with
  | zero =>
    intro path st v hfuel hinv hchoice hbefore
    unfold visit
    by_cases hordered : v ∈ st.ordered
    · rw [if_pos hordered]
      exact hinv.visited_of_entered (fun _ => .inl hordered) fun hpath =>
        hinv.disjoint v hpath hordered
    · rw [if_neg hordered]
      by_cases hpath : v ∈ path
      · rw [if_pos hpath]
        exact hinv.visited_of_mem_path hchoice hpath
      · rw [if_neg hpath]
        refine hinv.visited_of_entered (fun hnode => ?_) hpath
        -- a fresh node would make the path longer than any path can be
        have hlong := hinv.searchPath hchoice hordered hpath hnode hbefore
        have hlength := hfuel _ hlong.nodup hlong.nodes
        rw [List.length_append, List.length_singleton] at hlength
        omega
  | succ fuel ih =>
    intro path st v hfuel hinv hchoice hbefore
    unfold visit
    by_cases hordered : v ∈ st.ordered
    · rw [if_pos hordered]
      exact hinv.visited_of_entered (fun _ => .inl hordered) fun hpath =>
        hinv.disjoint v hpath hordered
    · rw [if_neg hordered]
      by_cases hpath : v ∈ path
      · rw [if_pos hpath]
        exact hinv.visited_of_mem_path hchoice hpath
      · rw [if_neg hpath]
        cases hgraph : graph v with
        | none =>
          refine hinv.visited_of_entered (fun hnode => ?_) hpath
          simp [IsNode, hgraph] at hnode
        | some next =>
          have hnode : IsNode graph v := by simp [IsNode, hgraph]
          have hlong := hinv.searchPath hchoice hordered hpath hnode hbefore
          have hchoices : choices graph roots (path ++ [v]) = next := by
            rw [choices_append_singleton, hgraph]
            rfl
          have hentry : Inv graph roots (path ++ [v]) st := by
            refine ⟨.inr ⟨v, hlong⟩, ?_, ?_, ?_, hinv.nodes, hinv.sound, hinv.complete,
              hinv.postorder, hinv.nodup⟩
            · intro pre c suf heq b hb y hy hreach
              rcases List.eq_nil_or_concat suf with rfl | ⟨suf', w, rfl⟩
              · obtain ⟨hpre, hc⟩ := List.append_inj' heq rfl
                have hcv : c = v := by simpa using hc.symm
                subst hpre
                subst hcv
                exact hinv.explored_of_entered (hbefore b hb) hy hreach
              · rw [List.concat_eq_append, ← List.cons_append, ← List.append_assoc] at heq
                exact hinv.explored pre c suf' (List.append_inj' heq rfl).1 b hb y hy hreach
            · intro y hy
              rcases List.mem_append.1 hy with hy | hy
              · exact hinv.disjoint y hy
              · rwa [List.mem_singleton.1 hy]
            · intro a ha b hab hb
              exact (hinv.closed a ha b hab hb).imp_right (List.mem_append_left _)
          have hnext := foldl_visited (f := visit graph fuel (path ++ [v]))
            (fun st' w => ih (path ++ [v]) st' w (by
              intro l hl hlnodes
              have hlength := hfuel l hl hlnodes
              simp only [List.length_append, List.length_singleton]
              omega))
            next [] st (by simp [hchoices]) hentry (by simp)
          exact visited_finished hinv hlong hgraph hpath hnext

/-! ## What the search reports -/

lemma visited_search {fuel : Nat}
    (hfuel : ∀ l : List V, l.Nodup → (∀ y ∈ l, IsNode graph y) → l.length ≤ fuel) :
    Visited graph roots [] {} roots (search graph fuel roots) := by
  have hinit : Inv graph roots [] {} := by
    refine ⟨.inl rfl, ?_, ?_, ?_, ?_, ?_, ?_, ?_, ?_⟩ <;> simp
  refine foldl_visited (f := visit graph fuel []) (fun st v => ?_) roots [] {} rfl hinit (by simp)
  exact visited_visit fuel [] st v (by simpa using hfuel)

variable (hroots : ∀ v, IsNode graph v → v ∈ roots)
include hroots

theorem mem_ordered_search_iff {fuel : Nat}
    (hfuel : ∀ l : List V, l.Nodup → (∀ y ∈ l, IsNode graph y) → l.length ≤ fuel) {v : V} :
    v ∈ (search graph fuel roots).ordered ↔ IsNode graph v := by
  have hvisited : Visited graph roots [] {} roots (search graph fuel roots) :=
    visited_search hfuel
  refine ⟨hvisited.inv.nodes v, fun hv => ?_⟩
  exact (hvisited.entered v (hroots v hv) hv).resolve_right (by simp)

omit hroots in
theorem nodup_ordered_search {fuel : Nat}
    (hfuel : ∀ l : List V, l.Nodup → (∀ y ∈ l, IsNode graph y) → l.length ≤ fuel) :
    (search graph fuel roots).ordered.Nodup := by
  have hvisited : Visited graph roots [] {} roots (search graph fuel roots) :=
    visited_search hfuel
  exact hvisited.inv.nodup

/-- In a search from all nodes, a node comes after each of its successors that does not lead back
to it: a successor that is not finished first is on the path to the node. -/
theorem before_ordered_search {fuel : Nat}
    (hfuel : ∀ l : List V, l.Nodup → (∀ y ∈ l, IsNode graph y) → l.length ≤ fuel) {u v : V}
    (hedge : Edge graph v u) (hu : IsNode graph u) (hback : ¬ Relation.TransGen (Edge graph) u v) :
    Before u v (search graph fuel roots).ordered := by
  have hvisited : Visited graph roots [] {} roots (search graph fuel roots) :=
    visited_search hfuel
  have hv : v ∈ (search graph fuel roots).ordered :=
    (mem_ordered_search_iff hroots hfuel).2 (isNode_of_edge hedge)
  obtain ⟨l₁, l₂, hsplit, hfirst⟩ := List.eq_append_cons_of_mem hv
  rcases hvisited.inv.postorder l₁ v l₂ hsplit u hedge hu with hbefore | ⟨p, hp, hup⟩
  · exact ⟨l₁, l₂, hsplit, hfirst, hbefore⟩
  · refine absurd ?_ hback
    rcases Relation.reflTransGen_iff_eq_or_transGen.1 (hp.reflTransGen hup) with rfl | hchain
    · exact .single hedge
    · exact hchain

/-- A search from all nodes records exactly the cycles that an edge closes on the search path of
its source. -/
theorem mem_cycles_search_iff {fuel : Nat}
    (hfuel : ∀ l : List V, l.Nodup → (∀ y ∈ l, IsNode graph y) → l.length ≤ fuel) {c : List V} :
    c ∈ (search graph fuel roots).cycles ↔
      ∃ p u x, SearchPath graph roots p u ∧ Edge graph u x ∧ x ∈ p ∧ c = closing p x := by
  have hvisited : Visited graph roots [] {} roots (search graph fuel roots) :=
    visited_search hfuel
  refine ⟨hvisited.inv.sound c, ?_⟩
  rintro ⟨p, u, x, hp, hedge, hx, rfl⟩
  have hu : u ∈ (search graph fuel roots).ordered :=
    (mem_ordered_search_iff hroots hfuel).2 (isNode_of_edge hedge)
  exact hvisited.inv.complete u hu p hp x hedge hx

/-- In a search from all nodes, a set of nodes that is never left along some edge of each of its
nodes holds a node at which a recorded cycle closes: the successor of the first of its nodes to be
finished is not finished before it, so it is on the path. -/
theorem exists_closing_of_forall_edge {fuel : Nat}
    (hfuel : ∀ l : List V, l.Nodup → (∀ y ∈ l, IsNode graph y) → l.length ≤ fuel)
    {S : V → Prop} (hnext : ∀ a, S a → ∃ b, Edge graph a b ∧ S b) {a : V} (ha : S a) :
    ∃ p u x, SearchPath graph roots p u ∧ Edge graph u x ∧ x ∈ p ∧ S x := by
  classical
  have hvisited : Visited graph roots [] {} roots (search graph fuel roots) :=
    visited_search hfuel
  have hnode : ∀ b, S b → IsNode graph b := by
    intro b hb
    obtain ⟨c, hedge, -⟩ := hnext b hb
    exact isNode_of_edge hedge
  have hordered : a ∈ (search graph fuel roots).ordered :=
    (mem_ordered_search_iff hroots hfuel).2 (hnode a ha)
  -- the first node of the set to be finished
  obtain ⟨u, hu⟩ : ∃ u, (search graph fuel roots).ordered.find? (fun b => decide (S b)) = some u :=
    Option.isSome_iff_exists.1 (List.find?_isSome.2 ⟨a, hordered, decide_eq_true ha⟩)
  obtain ⟨hSu, l₁, l₂, hsplit, hfirst⟩ := List.find?_eq_some_iff_append.1 hu
  obtain ⟨x, hedge, hSx⟩ := hnext u (of_decide_eq_true hSu)
  rcases hvisited.inv.postorder l₁ u l₂ hsplit x hedge (hnode x hSx) with hbefore | ⟨p, hp, hx⟩
  · have hnot := hfirst x hbefore
    simp [hSx] at hnot
  · exact ⟨p, u, x, hp, hedge, hx, hSx⟩

end Correctness

end DepthFirstSearch
