import Mathlib.Data.List.Induction

/-!
# Histories

A course of acts takes a state to another one, each act in the state that the former has left.
Whatever holds of the first state and of nothing done, and is kept by one act more, holds of every
history and of the state in which it ends (`history_induction`). Of an endless course in which an act
comes up again and again, the next time it does can be waited for (`Recurs.exists_turn`).
-/

namespace PluginRegistry.Actor

structure Instant (S A : Type) where
  state : S
  act : A

variable {S A : Type} (next : S → A → S)

def after (s : S) (xs : List A) : S := xs.foldl next s

def history (s : S) : List A → List (Instant S A)
  | [] => []
  | x :: xs => ⟨s, x⟩ :: history (next s x) xs

theorem after_append (s : S) (xs ys : List A) :
    after next s (xs ++ ys) = after next (after next s xs) ys :=
  List.foldl_append

theorem history_append (s : S) (xs ys : List A) :
    history next s (xs ++ ys) = history next s xs ++ history next (after next s xs) ys := by
  induction xs generalizing s with
  | nil => rfl
  | cons x xs ih => exact congrArg (_ :: ·) (ih (next s x))

theorem history_induction {P : List (Instant S A) → S → Prop} {s : S} (start : P [] s)
    (step : ∀ t u x, P t u → P (t ++ [⟨u, x⟩]) (next u x)) (xs : List A) :
    P (history next s xs) (after next s xs) := by
  induction xs using List.reverseRecOn with
  | nil => exact start
  | append_singleton xs x ih =>
    rw [history_append, after_append]
    exact step _ _ x ih

def firstActs (f : Nat → A) (n : Nat) : List A := (List.range n).map f

def stateAt (s : S) (f : Nat → A) (n : Nat) : S := after next s (firstActs f n)

/-- The act comes up again and again. -/
def Recurs (f : Nat → A) (x : A) : Prop := ∀ n, ∃ m, n ≤ m ∧ f m = x

section

variable {next} {s : S} {f : Nat → A} {I : S → Prop} {n m : Nat}

theorem stateAt_succ (n : Nat) : stateAt next s f (n + 1) = next (stateAt next s f n) (f n) := by
  rw [stateAt, firstActs, List.range_succ, List.map_append, after_append]
  rfl

theorem stateAt_keeps (keep : ∀ u x, I u → I (next u x)) (hn : n ≤ m)
    (h : I (stateAt next s f n)) : I (stateAt next s f m) := by
  induction hn with
  | refl => exact h
  | step _ ih =>
    rw [stateAt_succ]
    exact keep _ _ ih

/-- What the other acts keep holds still when the act comes up again. -/
theorem Recurs.exists_turn {x : A} (hf : Recurs f x)
    (keep : ∀ u y, y ≠ x → I u → I (next u y)) (h : I (stateAt next s f n)) :
    ∃ m, n ≤ m ∧ f m = x ∧ I (stateAt next s f m) := by
  obtain ⟨m, hn, hm⟩ := hf n
  obtain ⟨d, rfl⟩ := Nat.exists_eq_add_of_le hn
  induction d generalizing n with
  | zero => exact ⟨n, Nat.le_refl n, hm, h⟩
  | succ d ih =>
    by_cases hx : f n = x
    · exact ⟨n, Nat.le_refl n, hx, h⟩
    · have h' : I (stateAt next s f (n + 1)) := by
        rw [stateAt_succ]
        exact keep _ _ hx h
      have shift : n + 1 + d = n + (d + 1) := by omega
      obtain ⟨m, hle, hmx, hi⟩ := ih h' (by omega) (shift ▸ hm)
      exact ⟨m, by omega, hmx, hi⟩

end

end PluginRegistry.Actor
