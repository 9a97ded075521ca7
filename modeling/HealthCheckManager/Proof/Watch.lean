import Mathlib.Order.Basic
import HealthCheckManager.Impl.Predicates

/-!
# Runs of a watch

The informer hands the events of one object to its predicate: a Create, then
an Update for each change. A run is the sequence of the object's states: `c 0`
is created, and Update `j + 1` takes `c j` to `c (j + 1)`; every finite run is
a prefix of one. `Funcs.verdict` is the predicate's verdict on each event of
the run, and `Funcs.Quiet p c i k` says that no event after `i`, up to `k`,
passes.

What an Update predicate must do for no relevant change to go unnoticed is a
`Relevance`: a preorder `covers` ("a reconciliation that saw `a` is still up to
date at `b`") that holds across every update it drops. From it, once for all
predicates:

* `Relevance.covers_of_quiet`: a quiet segment is covered, from its first state
  to its last;
* `Funcs.exists_last_trigger`: when some event up to `k` passed, a last one did;
* `Relevance.triggered_of_pending`: a state that needs a reconciliation, which
  a dropped Create rules out and `covers` keeps ruled out, was signalled, and
  the last event that passed is covered up to it (`Relevance.last_trigger_covers`);
* `Relevance.update_false_of_quiet`: when the predicate drops exactly what
  `covers` relates (`Relevance.Exact`), the one update that merges a quiet
  segment, from its first state to its last, is dropped too.
-/

namespace HCM

variable {α : Type}

namespace Funcs

/-- The verdict of `p` on event `j` of the run `c`: the Create of `c 0`, then the
Update from `c j` to `c (j + 1)`. -/
def verdict (p : Funcs α) (c : ℕ → α) : ℕ → Bool
  | 0 => p.createFunc ⟨c 0⟩
  | j + 1 => p.updateFunc ⟨some (c j), c (j + 1)⟩

/-- No event of the run `c` after `i`, up to `k`, passes `p`. -/
def Quiet (p : Funcs α) (c : ℕ → α) (i k : ℕ) : Prop :=
  ∀ j, i < j → j ≤ k → p.verdict c j = false

instance (p : Funcs α) (c : ℕ → α) (i k : ℕ) : Decidable (p.Quiet c i k) :=
  decidable_of_iff (∀ j, i + 1 ≤ j → j < k + 1 → p.verdict c j = false) <| by
    simp only [Quiet, Nat.succ_le_iff, Nat.lt_succ_iff]

variable {p : Funcs α} {c : ℕ → α} {i j k : ℕ}

@[simp] theorem verdict_zero : p.verdict c 0 = p.createFunc ⟨c 0⟩ := rfl

@[simp] theorem verdict_succ : p.verdict c (j + 1) = p.updateFunc ⟨some (c j), c (j + 1)⟩ := rfl

theorem quiet_self : p.Quiet c k k := fun _ h₁ h₂ => absurd h₂ (by omega)

theorem Quiet.mono (h : p.Quiet c i k) {i' k' : ℕ} (hi : i ≤ i') (hk : k' ≤ k) : p.Quiet c i' k' :=
  fun j h₁ h₂ => h j (by omega) (by omega)

theorem Quiet.succ (h : p.Quiet c i k) (hv : p.verdict c (k + 1) = false) :
    p.Quiet c i (k + 1) :=
  fun j h₁ h₂ => (Nat.le_succ_iff.mp h₂).elim (h j h₁) (· ▸ hv)

/-- When some event up to `k` passed, there is a last one: it passed and the
segment after it is quiet. -/
theorem exists_last_trigger (h : ∃ j ≤ k, p.verdict c j = true) :
    ∃ j ≤ k, p.verdict c j = true ∧ p.Quiet c j k := by
  induction k with
  | zero =>
    obtain ⟨j, hj, hv⟩ := h
    obtain rfl : j = 0 := Nat.le_zero.mp hj
    exact ⟨0, le_rfl, hv, quiet_self⟩
  | succ k ih =>
    cases hk : p.verdict c (k + 1)
    · obtain ⟨j, hj, hv⟩ := h
      have hne : j ≠ k + 1 := by rintro rfl; rw [hk] at hv; cases hv
      obtain ⟨j', hj', hv', hq⟩ := ih ⟨j, by omega, hv⟩
      exact ⟨j', by omega, hv', hq.succ hk⟩
    · exact ⟨k + 1, le_rfl, hk, quiet_self⟩

end Funcs

/-- What the run theorems need of an Update predicate: a preorder `covers` that
holds across every update the predicate drops. -/
structure Relevance (update : UpdateEvent α → Bool) where
  covers : α → α → Prop
  refl (a : α) : covers a a
  trans {a b d : α} : covers a b → covers b d → covers a d
  update_false {a b : α} : update ⟨some a, b⟩ = false → covers a b

namespace Relevance

/-- The predicate drops every update that `covers` relates, so that, with
`update_false`, `covers` is exactly what it drops. -/
def Exact {update : UpdateEvent α → Bool} (R : Relevance update) : Prop :=
  ∀ {a b : α}, R.covers a b → update ⟨some a, b⟩ = false

variable {p : Funcs α} (R : Relevance p.updateFunc) {c : ℕ → α} {i k : ℕ}

/-- A quiet segment of a run is covered. -/
theorem covers_of_quiet (hik : i ≤ k) (hq : p.Quiet c i k) : R.covers (c i) (c k) := by
  induction k, hik using Nat.le_induction with
  | base => exact R.refl _
  | succ k hik ih =>
    exact R.trans (ih (hq.mono le_rfl k.le_succ)) (R.update_false (hq (k + 1) (by omega) le_rfl))

/-- A state that needs a reconciliation was signalled, when a dropped Create
means the created state did not need one and `covers` keeps it so. -/
theorem triggered_of_pending (pending : α → Prop)
    (hcreate : ∀ a, p.createFunc ⟨a⟩ = false → ¬pending a)
    (hkeep : ∀ {a b}, R.covers a b → ¬pending a → ¬pending b) (hk : pending (c k)) :
    ∃ j ≤ k, p.verdict c j = true := by
  by_contra hnone
  simp only [not_exists, not_and, Bool.not_eq_true] at hnone
  exact hkeep (R.covers_of_quiet (Nat.zero_le k) fun j _ hj => hnone j hj)
    (hcreate _ (hnone 0 (Nat.zero_le k))) hk

/-- Under the same conditions, the last event that passed is covered up to the
state that needs a reconciliation. -/
theorem last_trigger_covers (pending : α → Prop)
    (hcreate : ∀ a, p.createFunc ⟨a⟩ = false → ¬pending a)
    (hkeep : ∀ {a b}, R.covers a b → ¬pending a → ¬pending b) (hk : pending (c k)) :
    ∃ j ≤ k, p.verdict c j = true ∧ p.Quiet c j k ∧ R.covers (c j) (c k) := by
  obtain ⟨j, hj, hv, hq⟩ :=
    Funcs.exists_last_trigger (R.triggered_of_pending pending hcreate hkeep hk)
  exact ⟨j, hj, hv, hq, R.covers_of_quiet hj hq⟩

/-- The update that merges a quiet segment, from its first state to its last,
is dropped when the predicate drops exactly what `covers` relates. -/
theorem update_false_of_quiet (hR : R.Exact) (hik : i ≤ k) (hq : p.Quiet c i k) :
    p.updateFunc ⟨some (c i), c k⟩ = false :=
  hR (R.covers_of_quiet hik hq)

end Relevance

end HCM
