import Mathlib.Data.List.Basic
import Mathlib.Data.List.Induction
import Mathlib.Algebra.Order.BigOperators.Group.List
import Mathlib.Tactic.Common
import Mathlib.Algebra.Order.Ring.Nat

/-! Streams cut into segments by a terminator, and rounds in which items arrive and at most one is
served. Independent of any program. -/
namespace AssetTracker.Lib

theorem length_part_le {α : Type*} {z : α} {w s r : List α} (h : w <+: s ++ z :: r) (hw : z ∉ w) :
    w.length ≤ s.length := by
  by_contra hlt
  have hs : s ++ [z] <+: s ++ z :: r := by simp
  have hsw := List.prefix_of_prefix_length_le hs h (by simp; omega)
  exact hw (hsw.subset (by simp))

section Segments
variable {α : Type*} [DecidableEq α]

/-- The terminated segments of a stream, without their terminators; what follows the last terminator
belongs to none. -/
def segments (z : α) : List α → List (List α)
  | [] => []
  | x :: xs =>
    if x = z then [] :: segments z xs
    else
      match segments z xs with
      | [] => []
      | s :: ss => (x :: s) :: ss

/-- Segments put back on the line, each with its terminator. -/
def terminated (z : α) (ss : List (List α)) : List α := ss.flatMap fun s => s ++ [z]

theorem segments_cons {z : α} {s : List α} (h : z ∉ s) (l : List α) :
    segments z (s ++ z :: l) = s :: segments z l := by
  induction s with
  | nil => simp [segments]
  | cons x s ih =>
    simp only [List.mem_cons, not_or] at h
    simp [segments, Ne.symm h.1, ih h.2]

theorem segment_cases (z : α) (l : List α) : z ∉ l ∨ ∃ s r, l = s ++ z :: r ∧ z ∉ s := by
  by_cases h : z ∈ l
  · right
    exact List.eq_append_cons_of_mem h
  · exact Or.inl h

theorem segments_terminated_append {z : α} {ss : List (List α)} (h : ∀ s ∈ ss, z ∉ s)
    (l : List α) : segments z (terminated z ss ++ l) = ss ++ segments z l := by
  induction ss with
  | nil => rfl
  | cons s ss ih =>
    have hs := h s (by simp)
    have hss := ih fun s' hs' => h s' (by simp [hs'])
    calc
      segments z (terminated z (s :: ss) ++ l)
          = segments z (s ++ z :: (terminated z ss ++ l)) := by simp [terminated]
      _ = s :: (ss ++ segments z l) := by rw [segments_cons hs, hss]

theorem segment_unique {z : α} {s s' r r' : List α} (h : z ∉ s) (h' : z ∉ s')
    (he : s ++ z :: r = s' ++ z :: r') : s = s' ∧ r = r' := by
  have hseg := congrArg (segments z) he
  rw [segments_cons h, segments_cons h'] at hseg
  obtain ⟨rfl, -⟩ := List.cons.inj hseg
  have hr := List.append_cancel_left he
  exact ⟨rfl, (List.cons.inj hr).2⟩

theorem count_terminated {z : α} {ss : List (List α)} (h : ∀ s ∈ ss, z ∉ s) :
    (terminated z ss).count z = ss.length := by
  induction ss with
  | nil => rfl
  | cons s ss ih =>
    have hs := List.count_eq_zero.mpr (h s (by simp))
    have hss := ih fun s' hs' => h s' (by simp [hs'])
    simp only [terminated, List.flatMap_cons, List.count_append, List.length_cons] at hss ⊢
    simp [hs, hss, Nat.add_comm]

end Segments

section Rounds

/-- Arrived and served so far, before and after a round with `a` arrivals. -/
def serveRound (st : Nat × Nat) (a : Nat) : Nat × Nat := (st.1 + a, min (st.2 + 1) (st.1 + a))

/-- How many items have been served after rounds with these arrivals. -/
def served (arrivals : List Nat) : Nat := (arrivals.foldl serveRound (0, 0)).2

theorem arrived_eq (arrivals : List Nat) :
    (arrivals.foldl serveRound (0, 0)).1 = arrivals.sum := by
  induction arrivals using List.reverseRecOn with
  | nil => rfl
  | append_singleton as a ih => simp [serveRound, ih]

theorem served_snoc (as : List Nat) (a : Nat) :
    served (as ++ [a]) = min (served as + 1) (as.sum + a) := by
  simp [served, serveRound, arrived_eq]

theorem served_le (as : List Nat) : served as ≤ as.sum := by
  induction as using List.reverseRecOn with
  | nil => exact Nat.le_refl 0
  | append_singleton as a ih =>
    rw [served_snoc, List.sum_append, List.sum_singleton]
    exact Nat.min_le_right _ _

theorem served_append (as bs : List Nat) : served as ≤ served (as ++ bs) := by
  induction bs using List.reverseRecOn with
  | nil => simp
  | append_singleton bs b ih =>
    have hle := served_le (as ++ bs)
    rw [← List.append_assoc, served_snoc]
    omega

/-- `j` items have been served exactly when, wherever the rounds are cut, the items that arrived
before and the rounds that remain add up to `j`. -/
theorem le_served_iff (as : List Nat) (j : Nat) :
    j ≤ served as ↔ ∀ k ≤ as.length, j ≤ (as.take k).sum + (as.length - k) := by
  induction as using List.reverseRecOn generalizing j with
  | nil => simp [served]
  | append_singleton as a ih =>
    have hlen : (as ++ [a]).length = as.length + 1 := by simp
    have hall : (as ++ [a]).take (as.length + 1) = as ++ [a] := List.take_of_length_le (by simp)
    rw [served_snoc, Nat.le_min]
    constructor
    · intro h k hk
      by_cases hlast : k = as.length + 1
      · rw [hlast, hall, List.sum_append, List.sum_singleton]
        omega
      · have hle : k ≤ as.length := by omega
        have hj := (ih (j - 1)).mp (by omega) k hle
        rw [List.take_append_of_le_length hle]
        omega
    · intro h
      constructor
      · have hj : j - 1 ≤ served as := by
          rw [ih]
          intro k hk
          have hj := h k (by omega)
          rw [List.take_append_of_le_length hk] at hj
          omega
        omega
      · have hj := h (as.length + 1) (by omega)
        rw [hall, List.sum_append, List.sum_singleton] at hj
        omega

end Rounds
end AssetTracker.Lib
