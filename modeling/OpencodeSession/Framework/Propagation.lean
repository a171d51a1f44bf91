import Mathlib.Algebra.GroupWithZero.Nat
import Mathlib.Data.List.Forall2
import Mathlib.Logic.Relation
import Mathlib.Order.Bounds.Defs
import OpencodeSession.Framework.Dict

/-!
# Propagation in rounds

Labelled sets that grow until nothing changes: a round gives every eligible node that is not in a
set yet, but has a source in it, an entry that lists those sources, and the rounds go on while any
of the sets grows.  Within a round a set is read as it was when the round began.

With enough rounds the nodes of each set are exactly those that lead to one of its seeds through
eligible nodes (`keys_propagate`), which is the least set closed under the rule (`isLeast_keys`),
and what a node got on the way names sources of it in the set (`labelled_propagate`); `rounds` is a
number of rounds after which nothing changes any more (`ends_propagate`).
-/

namespace Propagation

variable {V B : Type*} [DecidableEq V]

/-- What propagates: which nodes may get an entry, from which sources, and how a source is named in
the entry. -/
structure Rule (V B : Type*) where
  nodes : List V
  eligible : V → Bool
  sources : V → List V
  label : V → B

namespace Rule

variable (rule : Rule V B)

/-- The entry a node gets from a set, if it gets one. -/
def entry (set : Dict V (List B)) (v : V) : Option (V × List B) :=
  if v ∈ set.keys then none
  else if rule.eligible v then
    let blocked := (rule.sources v).filter (· ∈ set.keys)
    if blocked.isEmpty then none else some (v, blocked.map rule.label)
  else none

/-- The entries of a round. -/
def newEntries (set : Dict V (List B)) : List (V × List B) :=
  rule.nodes.filterMap (rule.entry set)

/-- A set with the entries of a round. -/
def extend (set : Dict V (List B)) (entries : List (V × List B)) : Dict V (List B) :=
  entries.foldl (fun set entry => set.set entry.1 entry.2) set

/-- Run rounds on several sets until none of them grows. -/
def propagate : Nat → List (Dict V (List B)) → List (Dict V (List B))
  | 0, sets => sets
  | fuel + 1, sets =>
    if sets.all fun set => (rule.newEntries set).isEmpty then sets
    else propagate fuel (sets.map fun set => extend set (rule.newEntries set))

/-- A number of rounds that is enough for every number of sets and every choice of seeds. -/
def rounds (sets : List (Dict V (List B))) : Nat := sets.length * rule.nodes.length + 1

/-- The rounds from several sets end with others, none of which grows any more. -/
inductive Ends : List (Dict V (List B)) → List (Dict V (List B)) → Prop
  | stop {sets : List (Dict V (List B))} (h : ∀ set ∈ sets, rule.newEntries set = []) :
      Ends sets sets
  | round {sets result : List (Dict V (List B))} (h : ∃ set ∈ sets, rule.newEntries set ≠ [])
      (rest : Ends (sets.map fun set => extend set (rule.newEntries set)) result) :
      Ends sets result

/-- A node that may get an entry depends on each of its sources. -/
def Depends (a b : V) : Prop := a ∈ rule.nodes ∧ rule.eligible a = true ∧ b ∈ rule.sources a

variable {rule}

lemma mem_keys_extend {set : Dict V (List B)} {entries : List (V × List B)} {v : V} :
    v ∈ (extend set entries).keys ↔ v ∈ set.keys ∨ v ∈ entries.map Prod.fst := by
  induction entries generalizing set with
  | nil => simp [extend]
  | cons entry entries ih =>
    have hih : v ∈ (extend (set.set entry.1 entry.2) entries).keys ↔
        v ∈ (set.set entry.1 entry.2).keys ∨ v ∈ entries.map Prod.fst := ih
    rw [extend, List.foldl_cons]
    rw [extend] at hih
    rw [hih, Dict.mem_keys_set, List.map_cons, List.mem_cons]
    tauto

/-- A node gets an entry exactly if it is eligible, has a source in the set and is not in it. -/
lemma mem_newEntries_iff {set : Dict V (List B)} {v : V} :
    v ∈ (rule.newEntries set).map Prod.fst ↔
      v ∉ set.keys ∧ ∃ b ∈ set.keys, rule.Depends v b := by
  constructor
  · intro hv
    obtain ⟨⟨v', labels⟩, hmem, rfl⟩ := List.mem_map.1 hv
    obtain ⟨w, hw, hentry⟩ := List.mem_filterMap.1 hmem
    unfold entry at hentry
    split at hentry
    · cases hentry
    · next hkeys =>
      split at hentry
      · next helig =>
        dsimp only at hentry
        split at hentry
        · cases hentry
        · next hblocked =>
          cases hentry
          obtain ⟨b, hb⟩ := List.exists_mem_of_ne_nil _
            fun hnil => hblocked (List.isEmpty_iff.2 hnil)
          obtain ⟨hsource, hbkeys⟩ := List.mem_filter.1 hb
          exact ⟨hkeys, b, of_decide_eq_true hbkeys, hw, helig, hsource⟩
      · cases hentry
  · rintro ⟨hkeys, b, hb, hnode, helig, hsource⟩
    have hblocked : b ∈ (rule.sources v).filter (· ∈ set.keys) := by
      simp [hsource, hb]
    refine List.mem_map.2 ⟨(v, ((rule.sources v).filter (· ∈ set.keys)).map rule.label),
      List.mem_filterMap.2 ⟨v, hnode, ?_⟩, rfl⟩
    have hne : ((rule.sources v).filter (· ∈ set.keys)).isEmpty = false :=
      List.isEmpty_eq_false_iff.2 (List.ne_nil_of_mem hblocked)
    simp [entry, hkeys, helig, hne]

/-- The labels of a new entry are of sources in the set. -/
lemma labels_of_mem_newEntries {set : Dict V (List B)} {v : V} {labels : List B}
    (h : (v, labels) ∈ rule.newEntries set) {l : B} (hl : l ∈ labels) :
    ∃ b ∈ rule.sources v, b ∈ set.keys ∧ l = rule.label b := by
  obtain ⟨w, -, hentry⟩ := List.mem_filterMap.1 h
  unfold entry at hentry
  split at hentry
  · cases hentry
  · split at hentry
    · dsimp only at hentry
      split at hentry
      · cases hentry
      · cases hentry
        obtain ⟨b, hb, rfl⟩ := List.mem_map.1 hl
        obtain ⟨hsource, hkeys⟩ := List.mem_filter.1 hb
        exact ⟨b, hsource, of_decide_eq_true hkeys, rfl⟩
    · cases hentry

/-- An entry of an extended set was there or is new. -/
lemma get?_extend {set : Dict V (List B)} {entries : List (V × List B)} {v : V}
    {labels : List B} (h : (extend set entries).get? v = some labels) :
    set.get? v = some labels ∨ (v, labels) ∈ entries := by
  induction entries generalizing set with
  | nil => exact .inl h
  | cons entry entries ih =>
    rcases ih h with h | h
    · rw [Dict.get?_set] at h
      split_ifs at h with hentry
      · refine .inr (List.mem_cons.2 (.inl ?_))
        rw [← hentry, ← Option.some.inj h]
      · exact .inl h
    · exact .inr (List.mem_cons_of_mem _ h)

/-- A set without new entries is closed under the rule. -/
lemma mem_keys_of_depends {set : Dict V (List B)} (h : (rule.newEntries set).isEmpty = true)
    {v b : V} (hdep : rule.Depends v b) (hb : b ∈ set.keys) : v ∈ set.keys := by
  by_contra hv
  have hmem : v ∈ (rule.newEntries set).map Prod.fst := mem_newEntries_iff.2 ⟨hv, b, hb, hdep⟩
  rw [List.isEmpty_iff.1 h] at hmem
  cases hmem

/-! ## Enough rounds -/

/-- The nodes that are not in a set yet. -/
def missing (rule : Rule V B) (set : Dict V (List B)) : Nat :=
  (rule.nodes.filter (· ∉ set.keys)).length

lemma missing_extend_le (set : Dict V (List B)) :
    rule.missing (extend set (rule.newEntries set)) ≤ rule.missing set := by
  refine List.Sublist.length_le (List.monotone_filter_right _ ?_)
  intro v hv
  simp only [mem_keys_extend, decide_eq_true_eq, not_or] at hv ⊢
  exact hv.1

lemma missing_extend_lt {set : Dict V (List B)} (h : (rule.newEntries set).isEmpty = false) :
    rule.missing (extend set (rule.newEntries set)) < rule.missing set := by
  obtain ⟨entry, hentry⟩ := List.exists_mem_of_ne_nil _ (List.isEmpty_eq_false_iff.1 h)
  have hnew : entry.1 ∈ (rule.newEntries set).map Prod.fst := List.mem_map_of_mem hentry
  obtain ⟨hkeys, b, -, hnode, -, -⟩ := mem_newEntries_iff.1 hnew
  have hsub : (rule.nodes.filter (· ∉ (extend set (rule.newEntries set)).keys)).Sublist
      (rule.nodes.filter (· ∉ set.keys)) := by
    refine List.monotone_filter_right _ fun v hv => ?_
    simp only [mem_keys_extend, decide_eq_true_eq, not_or] at hv ⊢
    exact hv.1
  refine Nat.lt_of_le_of_ne hsub.length_le fun heq => ?_
  have hmem : entry.1 ∈ rule.nodes.filter (· ∉ set.keys) := by
    simp [hnode, hkeys]
  rw [← hsub.eq_of_length heq, List.mem_filter, decide_eq_true_eq, mem_keys_extend] at hmem
  exact hmem.2 (.inr hnew)

/-- The nodes missing from any of several sets. -/
def missingSum (rule : Rule V B) (sets : List (Dict V (List B))) : Nat :=
  (sets.map rule.missing).sum

lemma missingSum_round_lt {sets : List (Dict V (List B))}
    (h : (sets.all fun set => (rule.newEntries set).isEmpty) = false) :
    rule.missingSum (sets.map fun set => extend set (rule.newEntries set)) <
      rule.missingSum sets := by
  have hle : ∀ sets : List (Dict V (List B)),
      rule.missingSum (sets.map fun set => extend set (rule.newEntries set)) ≤
        rule.missingSum sets := by
    intro sets
    induction sets with
    | nil => exact Nat.le_refl _
    | cons set sets ih =>
      have hset : rule.missing (extend set (rule.newEntries set)) ≤ rule.missing set :=
        missing_extend_le set
      simp only [missingSum, List.map_cons, List.sum_cons] at ih ⊢
      omega
  induction sets with
  | nil => simp at h
  | cons set sets ih =>
    simp only [List.all_cons, Bool.and_eq_false_iff] at h
    have hset : rule.missing (extend set (rule.newEntries set)) ≤ rule.missing set :=
      missing_extend_le set
    have hsets := hle sets
    simp only [missingSum, List.map_cons, List.sum_cons] at ih hsets ⊢
    rcases h with h | h
    · have := missing_extend_lt h
      omega
    · have := ih h
      omega

lemma missingSum_lt_rounds (sets : List (Dict V (List B))) :
    rule.missingSum sets < rule.rounds sets := by
  unfold rounds
  induction sets with
  | nil => simp [missingSum]
  | cons set sets ih =>
    have hset : rule.missing set ≤ rule.nodes.length := List.length_filter_le _ _
    have hmul : (sets.length + 1) * rule.nodes.length =
        sets.length * rule.nodes.length + rule.nodes.length := Nat.succ_mul _ _
    simp only [missingSum, List.map_cons, List.sum_cons, List.length_cons] at ih ⊢
    omega

/-! ## The result -/

/-- What relates a set to what propagation makes of it: it has grown, along dependencies, and by
labels of sources that are in it. -/
structure Grown (rule : Rule V B) (seed set : Dict V (List B)) : Prop where
  seeds : ∀ v ∈ seed.keys, v ∈ set.keys
  reached : ∀ v ∈ set.keys, ∃ z ∈ seed.keys, Relation.ReflTransGen rule.Depends v z
  labelled : ∀ v labels, set.get? v = some labels → seed.get? v = some labels ∨
    (v ∉ seed.keys ∧ ∀ l ∈ labels, ∃ b ∈ rule.sources v, b ∈ set.keys ∧ l = rule.label b)

lemma Grown.refl (set : Dict V (List B)) : Grown rule set set :=
  ⟨fun _ h => h, fun v h => ⟨v, h, .refl⟩, fun _ _ h => .inl h⟩

lemma Grown.extend {seed set : Dict V (List B)} (h : Grown rule seed set) :
    Grown rule seed (extend set (rule.newEntries set)) := by
  refine ⟨fun v hv => mem_keys_extend.2 (.inl (h.seeds v hv)), fun v hv => ?_,
    fun v labels hget => ?_⟩
  · rcases mem_keys_extend.1 hv with hv | hv
    · exact h.reached v hv
    · obtain ⟨-, b, hb, hdep⟩ := mem_newEntries_iff.1 hv
      obtain ⟨z, hz, hchain⟩ := h.reached b hb
      exact ⟨z, hz, hchain.head hdep⟩
  · rcases get?_extend hget with hget | hnew
    · refine (h.labelled v labels hget).imp_right ?_
      rintro ⟨hseed, hlabels⟩
      refine ⟨hseed, fun l hl => ?_⟩
      obtain ⟨b, hsource, hb, hlabel⟩ := hlabels l hl
      exact ⟨b, hsource, mem_keys_extend.2 (.inl hb), hlabel⟩
    · have hfresh : v ∉ set.keys := (mem_newEntries_iff.1 (List.mem_map_of_mem hnew)).1
      refine .inr ⟨fun hseed => hfresh (h.seeds v hseed), fun l hl => ?_⟩
      obtain ⟨b, hsource, hb, hlabel⟩ := labels_of_mem_newEntries hnew hl
      exact ⟨b, hsource, mem_keys_extend.2 (.inl hb), hlabel⟩

lemma forall₂_grown_propagate (fuel : Nat) :
    ∀ {seeds sets : List (Dict V (List B))}, List.Forall₂ (Grown rule) seeds sets →
      List.Forall₂ (Grown rule) seeds (rule.propagate fuel sets) := by
  induction fuel with
  | zero => exact fun h => h
  | succ fuel ih =>
    intro seeds sets h
    unfold propagate
    split
    · exact h
    · refine ih (List.forall₂_map_right_iff.2 ?_)
      exact h.imp fun _ _ hgrown => hgrown.extend

lemma newEntries_propagate (fuel : Nat) :
    ∀ sets : List (Dict V (List B)), rule.missingSum sets < fuel →
      ∀ set ∈ rule.propagate fuel sets, (rule.newEntries set).isEmpty = true := by
  induction fuel with
  | zero => exact fun _ h => absurd h (Nat.not_lt_zero _)
  | succ fuel ih =>
    intro sets hfuel
    unfold propagate
    cases hall : sets.all fun set => (rule.newEntries set).isEmpty with
    | true =>
      rw [if_pos rfl]
      exact List.all_eq_true.1 hall
    | false =>
      rw [if_neg (by simp)]
      refine ih _ ?_
      have := missingSum_round_lt hall
      omega

/-- With enough rounds each set holds exactly the nodes that lead to one of its seeds. -/
theorem keys_propagate (seeds : List (Dict V (List B))) :
    List.Forall₂ (fun seed set => ∀ v, v ∈ set.keys ↔
        ∃ z ∈ seed.keys, Relation.ReflTransGen rule.Depends v z)
      seeds (rule.propagate (rule.rounds seeds) seeds) := by
  have hgrown := forall₂_grown_propagate (rule.rounds seeds)
    (List.forall₂_same.2 fun set _ => Grown.refl set : List.Forall₂ (Grown rule) seeds seeds)
  have hclosed := newEntries_propagate (rule.rounds seeds) seeds (missingSum_lt_rounds seeds)
  revert hgrown hclosed
  generalize rule.propagate (rule.rounds seeds) seeds = sets
  intro hgrown
  induction hgrown with
  | nil => exact fun _ => .nil
  | cons hset _ ih =>
    intro hclosed
    refine .cons (fun v => ⟨hset.reached v, ?_⟩) (ih fun set h => hclosed set (by simp [h]))
    rintro ⟨z, hz, hchain⟩
    induction hchain using Relation.ReflTransGen.head_induction_on with
    | refl => exact hset.seeds z hz
    | head hdep _ ihchain => exact mem_keys_of_depends (hclosed _ (by simp)) hdep ihchain

theorem ends_propagate (seeds : List (Dict V (List B))) :
    rule.Ends seeds (rule.propagate (rule.rounds seeds) seeds) := by
  have hends : ∀ (fuel : Nat) (sets : List (Dict V (List B))), rule.missingSum sets < fuel →
      rule.Ends sets (rule.propagate fuel sets) := by
    intro fuel
    induction fuel with
    | zero => exact fun _ h => absurd h (Nat.not_lt_zero _)
    | succ fuel ih =>
      intro sets hfuel
      unfold propagate
      cases hall : sets.all fun set => (rule.newEntries set).isEmpty with
      | true =>
        rw [if_pos rfl]
        exact .stop fun set hset => List.isEmpty_iff.1 (List.all_eq_true.1 hall set hset)
      | false =>
        rw [if_neg (by simp)]
        refine .round (by simpa using hall) (ih _ ?_)
        have := missingSum_round_lt hall
        omega
  exact hends _ _ (missingSum_lt_rounds seeds)

omit [DecidableEq V] in
/-- The nodes that lead to a seed are the least set with the seeds that is closed under the rule. -/
theorem isLeast_keys {seed set : Dict V (List B)}
    (h : ∀ v, v ∈ set.keys ↔ ∃ z ∈ seed.keys, Relation.ReflTransGen rule.Depends v z) :
    IsLeast {S : Set V | (∀ v ∈ seed.keys, v ∈ S) ∧ ∀ v b, rule.Depends v b → b ∈ S → v ∈ S}
      {v | v ∈ set.keys} := by
  refine ⟨⟨fun v hv => (h v).2 ⟨v, hv, .refl⟩, fun v b hdep hb => ?_⟩, ?_⟩
  · obtain ⟨z, hz, hchain⟩ := (h b).1 hb
    exact (h v).2 ⟨z, hz, hchain.head hdep⟩
  · rintro S ⟨hseeds, hclosed⟩ v hv
    obtain ⟨z, hz, hchain⟩ := (h v).1 hv
    induction hchain using Relation.ReflTransGen.head_induction_on with
    | refl => exact hseeds z hz
    | head hdep hrest ih => exact hclosed _ _ hdep (ih ((h _).2 ⟨z, hz, hrest⟩))

/-- What a node got from the rounds names sources of it that are in the set. -/
theorem labelled_propagate (fuel : Nat) (seeds : List (Dict V (List B))) :
    List.Forall₂ (fun seed set => ∀ v labels, set.get? v = some labels →
        seed.get? v = some labels ∨ (v ∉ seed.keys ∧
          ∀ l ∈ labels, ∃ b ∈ rule.sources v, b ∈ set.keys ∧ l = rule.label b))
      seeds (rule.propagate fuel seeds) := by
  have hgrown := forall₂_grown_propagate fuel
    (List.forall₂_same.2 fun set _ => Grown.refl set : List.Forall₂ (Grown rule) seeds seeds)
  exact hgrown.imp fun _ _ h => h.labelled

end Rule

end Propagation
