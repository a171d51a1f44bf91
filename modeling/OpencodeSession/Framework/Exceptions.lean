import Mathlib.Data.List.Forall2
import Mathlib.Tactic.Lemma

/-!
# Computations that may raise

When a computation of `Except` gives a value: for a sequence of two, and for a function that is
mapped over a list or folded along it.  A cascade of partial functions is taken apart by these from
its last step to its first.
-/

namespace Except

variable {ε α β γ : Type}

/-- A sequence gives what its second part gives on the value of the first. -/
lemma bind_eq_ok {r : Except ε α} {f : α → Except ε β} {b : β} :
    r >>= f = .ok b ↔ ∃ a, r = .ok a ∧ f a = .ok b := by
  cases r with
  | error e =>
    constructor
    · intro h
      cases h
    · rintro ⟨a, h, -⟩
      cases h
  | ok a =>
    constructor
    · exact fun h => ⟨a, rfl, h⟩
    · rintro ⟨_, ⟨⟩, h⟩
      exact h

lemma map_eq_ok {r : Except ε α} {f : α → β} {b : β} :
    f <$> r = .ok b ↔ ∃ a, r = .ok a ∧ f a = b := by
  cases r with
  | error e =>
    constructor
    · intro h
      cases h
    · rintro ⟨a, h, -⟩
      cases h
  | ok a =>
    constructor
    · intro h
      cases h
      exact ⟨a, rfl, rfl⟩
    · rintro ⟨_, ⟨⟩, rfl⟩
      rfl

/-- A computation gives a value. -/
def Succeeds (r : Except ε α) : Prop := ∃ a, r = .ok a

lemma succeeds_ok (a : α) : Succeeds (.ok a : Except ε α) := ⟨a, rfl⟩

lemma not_succeeds_error (e : ε) : ¬ Succeeds (.error e : Except ε α) := by
  rintro ⟨a, h⟩
  cases h

lemma succeeds_bind {r : Except ε α} {f : α → Except ε β} :
    Succeeds (r >>= f) ↔ ∃ a, r = .ok a ∧ Succeeds (f a) := by
  constructor
  · rintro ⟨b, hb⟩
    obtain ⟨a, ha, hb⟩ := bind_eq_ok.1 hb
    exact ⟨a, ha, b, hb⟩
  · rintro ⟨a, ha, b, hb⟩
    exact ⟨b, bind_eq_ok.2 ⟨a, ha, hb⟩⟩

lemma succeeds_map {r : Except ε α} {f : α → β} : Succeeds (f <$> r) ↔ Succeeds r := by
  constructor
  · rintro ⟨b, hb⟩
    obtain ⟨a, ha, -⟩ := map_eq_ok.1 hb
    exact ⟨a, ha⟩
  · rintro ⟨a, ha⟩
    exact ⟨f a, map_eq_ok.2 ⟨a, ha, rfl⟩⟩

lemma succeeds_mapError {r : Except ε α} {f : ε → γ} : Succeeds (r.mapError f) ↔ Succeeds r := by
  cases r with
  | error e => exact iff_of_false (not_succeeds_error _) (not_succeeds_error _)
  | ok a => exact iff_of_true (succeeds_ok _) (succeeds_ok _)

/-- Mapping over a list gives a list when every item gives a value. -/
lemma succeeds_mapM {f : α → Except ε β} {items : List α} :
    Succeeds (items.mapM f) ↔ ∀ item ∈ items, Succeeds (f item) := by
  induction items with
  | nil => exact ⟨fun _ _ hitem => absurd hitem List.not_mem_nil, fun _ => ⟨[], rfl⟩⟩
  | cons item rest ih =>
    rw [List.mapM_cons, succeeds_bind, List.forall_mem_cons, ← ih]
    constructor
    · rintro ⟨b, hb, h⟩
      obtain ⟨bs, hbs, -⟩ := succeeds_bind.1 h
      exact ⟨⟨b, hb⟩, bs, hbs⟩
    · rintro ⟨⟨b, hb⟩, bs, hbs⟩
      exact ⟨b, hb, succeeds_bind.2 ⟨bs, hbs, succeeds_ok _⟩⟩

/-- The values of a mapped list are those of its items, in their order. -/
lemma mapM_eq_ok {f : α → Except ε β} {items : List α} {values : List β} :
    items.mapM f = .ok values ↔ List.Forall₂ (fun item value => f item = .ok value) items values := by
  induction items generalizing values with
  | nil =>
    rw [List.mapM_nil, List.forall₂_nil_left_iff]
    constructor
    · intro h
      cases h
      rfl
    · rintro rfl
      rfl
  | cons item rest ih =>
    rw [List.mapM_cons, bind_eq_ok, List.forall₂_cons_left_iff]
    constructor
    · rintro ⟨b, hb, h⟩
      obtain ⟨bs, hbs, h⟩ := bind_eq_ok.1 h
      cases h
      exact ⟨b, bs, hb, ih.1 hbs, rfl⟩
    · rintro ⟨b, bs, hb, hbs, rfl⟩
      exact ⟨b, hb, bind_eq_ok.2 ⟨bs, ih.2 hbs, rfl⟩⟩

/-- Every value of a mapped list is that of an item. -/
lemma exists_item_of_mem_mapM {f : α → Except ε β} {items : List α} {values : List β}
    (h : items.mapM f = .ok values) {value : β} (hvalue : value ∈ values) :
    ∃ item ∈ items, f item = .ok value := by
  rw [mapM_eq_ok] at h
  induction h with
  | nil => exact absurd hvalue List.not_mem_nil
  | cons hitem _ ih =>
    rcases List.mem_cons.1 hvalue with rfl | hmem
    · exact ⟨_, List.mem_cons_self, hitem⟩
    · obtain ⟨item, hmem, hitem⟩ := ih hmem
      exact ⟨item, List.mem_cons_of_mem _ hmem, hitem⟩

/-- Every item of a mapped list has its value in it. -/
lemma exists_value_of_mem_mapM {f : α → Except ε β} {items : List α} {values : List β}
    (h : items.mapM f = .ok values) {item : α} (hitem : item ∈ items) :
    ∃ value ∈ values, f item = .ok value := by
  rw [mapM_eq_ok] at h
  induction h with
  | nil => exact absurd hitem List.not_mem_nil
  | cons hvalue _ ih =>
    rcases List.mem_cons.1 hitem with rfl | hmem
    · exact ⟨_, List.mem_cons_self, hvalue⟩
    · obtain ⟨value, hmem, hvalue⟩ := ih hmem
      exact ⟨value, List.mem_cons_of_mem _ hmem, hvalue⟩

lemma map_eq_of_mapM {f : α → Except ε β} {g : α → γ} {g' : β → γ}
    (hf : ∀ a b, f a = .ok b → g' b = g a) {items : List α} {values : List β}
    (h : items.mapM f = .ok values) : values.map g' = items.map g := by
  rw [mapM_eq_ok] at h
  induction h with
  | nil => rfl
  | cons hvalue _ ih => rw [List.map_cons, List.map_cons, hf _ _ hvalue, ih]

lemma exists_error_of_not_succeeds {r : Except ε α} (h : ¬ r.Succeeds) : ∃ e, r = .error e := by
  cases r with
  | error e => exact ⟨e, rfl⟩
  | ok a => exact absurd ⟨a, rfl⟩ h

end Except
