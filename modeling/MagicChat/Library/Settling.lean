import Mathlib.Algebra.BigOperators.Group.Finset.Basic
import Mathlib.Order.WellFounded
import MagicChat.Library.Lists
import MagicChat.Library.Machine

/-!
# Settling

Some actions of a machine are not those of its users: they answer what has been
asked for, and run what has been left for later. A machine *settles* under a
kind of actions if it cannot take them for ever (`Settles`). Then they lead from
every state to one in which none of them is enabled (`Settled`).

The argument is a list of ranks, natural numbers that drop lexicographically
(`Drops`): each action lowers one of them, and leaves alone those before it.
-/

/-- From `s` to `t`, the first of the ranks that changes goes down. -/
def Drops {σ : Type*} : List (σ → ℕ) → σ → σ → Prop
  | [], _, _ => False
  | rank :: ranks, s, t => rank t < rank s ∨ (rank t = rank s ∧ Drops ranks s t)

namespace Drops

variable {σ : Type*} {ranks : List (σ → ℕ)} {rank : σ → ℕ} {s t : σ}

theorem head (h : rank t < rank s) : Drops (rank :: ranks) s t := .inl h

theorem tail (he : rank t = rank s) (h : Drops ranks s t) : Drops (rank :: ranks) s t :=
  .inr ⟨he, h⟩

/-- It is enough that a rank does not go up. -/
theorem of_le (hle : rank t ≤ rank s) (h : Drops ranks s t) : Drops (rank :: ranks) s t :=
  hle.lt_or_eq.imp id fun he => ⟨he, h⟩

/-- Ranks that stay where they are do not matter. -/
theorem of_forall_eq {others : List (σ → ℕ)} (he : ∀ rank ∈ ranks, rank t = rank s)
    (h : Drops others s t) : Drops (ranks ++ others) s t := by
  induction ranks with
  | nil => exact h
  | cons rank ranks ih =>
    rw [List.forall_mem_cons] at he
    exact .tail he.1 (ih he.2)

/-- Nor does one in between. -/
theorem insert {others : List (σ → ℕ)} (h : Drops (ranks ++ others) s t)
    (he : rank t = rank s) : Drops (ranks ++ rank :: others) s t := by
  induction ranks with
  | nil => exact .tail he h
  | cons _ ranks ih => exact h.imp id fun ⟨he, h⟩ => ⟨he, ih h⟩

/-- Ranks after the one that goes down do not matter. -/
theorem append (h : Drops ranks s t) (others : List (σ → ℕ)) : Drops (ranks ++ others) s t := by
  induction ranks with
  | nil => exact absurd h id
  | cons rank ranks ih => exact h.imp id fun ⟨he, h⟩ => ⟨he, ih h⟩

/-- Ranks read off a part of the state drop with those of the part. -/
theorem map {τ : Type*} {ranks : List (τ → ℕ)} {f : σ → τ} (h : Drops ranks (f s) (f t)) :
    Drops (ranks.map fun rank => rank ∘ f) s t := by
  induction ranks with
  | nil => exact h
  | cons rank ranks ih => exact h.imp id fun ⟨he, h⟩ => ⟨he, ih h⟩

/-- Ranks summed over a list drop with those of one of its elements. -/
theorem sum_set {l : List σ} {i : ℕ} (h : Drops ranks s t) (hs : l[i]? = some s) :
    Drops (ranks.map fun rank l => (l.map rank).sum) l (l.set i t) := by
  induction ranks with
  | nil => exact h
  | cons rank ranks ih =>
    have hsum : ((l.set i t).map rank).sum + rank s = (l.map rank).sum + rank t :=
      Lists.sum_map_set hs
    refine h.imp (fun hlt => ?_) fun ⟨he, h⟩ => ⟨?_, ih h⟩
    · change ((l.set i t).map rank).sum < (l.map rank).sum
      omega
    · change ((l.set i t).map rank).sum = (l.map rank).sum
      omega

/-- Ranks summed over a finite part of a family drop with those of one of its members. -/
theorem sum_finset {ι : Type*} [DecidableEq ι] {f g : ι → σ} {i : ι} (h : Drops ranks (f i) (g i))
    (hothers : ∀ j, j ≠ i → g j = f j) {I : Finset ι} (hi : i ∈ I) :
    Drops (ranks.map fun rank f => I.sum fun j => rank (f j)) f g := by
  induction ranks with
  | nil => exact h
  | cons rank ranks ih =>
    have hrest : (I.erase i).sum (fun j => rank (g j)) = (I.erase i).sum fun j => rank (f j) :=
      Finset.sum_congr rfl fun j hj => by rw [hothers j (Finset.ne_of_mem_erase hj)]
    have hf := Finset.add_sum_erase I (fun j => rank (f j)) hi
    have hg := Finset.add_sum_erase I (fun j => rank (g j)) hi
    refine h.imp (fun hlt => ?_) fun ⟨he, h⟩ => ⟨?_, ih h⟩
    · change I.sum (fun j => rank (g j)) < I.sum fun j => rank (f j)
      omega
    · change I.sum (fun j => rank (g j)) = I.sum fun j => rank (f j)
      omega

/-- Ranks do not drop for ever. -/
theorem wellFounded (ranks : List (σ → ℕ)) : WellFounded fun t s => Drops ranks s t := by
  induction ranks with
  | nil => exact ⟨fun s => ⟨s, fun _ h => absurd h id⟩⟩
  | cons rank ranks ih =>
    refine Subrelation.wf (r := InvImage (Prod.Lex (· < ·) fun t s => Drops ranks s t)
      fun s => (rank s, s)) ?_ (InvImage.wf _ (wellFounded_lt.prod_lex ih))
    intro t s h
    exact Prod.lex_def.2 h

end Drops

namespace Machine

variable {σ α : Type*} (M : Machine σ α) (P : α → Prop)

/-- No action of the kind `P` is enabled. -/
def Settled (s : σ) : Prop := ∀ a, P a → M.step s a = none

/-- The machine cannot take actions of the kind `P` for ever. -/
def Settles : Prop := WellFounded fun t s => ∃ a, P a ∧ M.step s a = some t

variable {M P}

/-- A machine settles under actions that make ranks drop. -/
theorem settles_of_drops (ranks : List (σ → ℕ))
    (h : ∀ s a t, P a → M.step s a = some t → Drops ranks s t) : M.Settles P :=
  Subrelation.wf (fun {t s} ⟨a, ha, ht⟩ => h s a t ha ht) (Drops.wellFounded ranks)

/-- In an infinite sequence of states, one is not followed by such an action. -/
theorem Settles.exists_not_step (h : M.Settles P) (f : ℕ → σ) :
    ∃ n, ∀ a, P a → M.step (f n) a ≠ some (f (n + 1)) := by
  by_contra hall
  simp only [not_exists, not_forall, not_not] at hall
  suffices hnone : ∀ s n, f n ≠ s from hnone (f 0) 0 rfl
  intro s
  induction s using h.induction with
  | _ s ih =>
    rintro n rfl
    obtain ⟨a, ha, ht⟩ := hall n
    exact ih (f (n + 1)) ⟨a, ha, ht⟩ (n + 1) rfl

/-- From every state, such actions lead to one in which none is enabled. -/
theorem Settles.exists_settled (h : M.Settles P) (s : σ) :
    ∃ as t, (∀ a ∈ as, P a) ∧ M.execFrom s as = some t ∧ M.Settled P t := by
  induction s using h.induction with
  | _ s ih =>
    by_cases hs : M.Settled P s
    · exact ⟨[], s, by simp, rfl, hs⟩
    · simp only [Settled, not_forall] at hs
      obtain ⟨a, ha, hstep⟩ := hs
      obtain ⟨r, hr⟩ := Option.ne_none_iff_exists'.1 hstep
      obtain ⟨as, t, has, ht, hsettled⟩ := ih r ⟨a, ha, hr⟩
      refine ⟨a :: as, t, List.forall_mem_cons.2 ⟨ha, has⟩, ?_, hsettled⟩
      rw [execFrom_cons, hr, Option.bind_some, ht]

end Machine
