import Mathlib.Data.List.Basic
import Mathlib.Data.Finset.Card
import Mathlib.Data.Finset.Dedup
import Mathlib.Algebra.Order.Group.Multiset

/-!
# Counting the entries of a list

A table of processes is a list whose index is the process; its invariants count the entries of one
kind. `countP_set_add` says what replacing one entry does to a count, as an additive identity, and
`countP_le_length_of_mem` bounds a count by the length of any list that holds all the indices
counted.
-/

namespace SynGateway.Counting

variable {α : Type*} {p : α → Bool}

/-- Replacing `old` by `new` moves one unit of the count from `p old` to `p new`. -/
theorem countP_set_add {l : List α} {i : ℕ} {old : α} (h : l[i]? = some old) (new : α) :
    (l.set i new).countP p + (if p old then 1 else 0) = l.countP p + (if p new then 1 else 0) := by
  induction l generalizing i with
  | nil => simp at h
  | cons a l ih =>
      cases i with
      | zero =>
          obtain rfl : a = old := by simpa using h
          simp only [List.set_cons_zero, List.countP_cons]
          omega
      | succ i =>
          have hrec := ih (by simpa using h)
          simp only [List.set_cons_succ, List.countP_cons]
          omega

/-- A replacement that `p` does not notice. -/
theorem countP_set_of_eq {l : List α} {i : ℕ} {old new : α} (h : l[i]? = some old)
    (heq : p old = p new) : (l.set i new).countP p = l.countP p := by
  have hadd := countP_set_add (p := p) h new
  rw [heq] at hadd
  omega

/-- A replacement that adds an entry to the count. -/
theorem countP_set_of_gain {l : List α} {i : ℕ} {old new : α} (h : l[i]? = some old)
    (hold : p old = false) (hnew : p new = true) :
    (l.set i new).countP p = l.countP p + 1 := by
  simpa [hold, hnew] using countP_set_add (p := p) h new

/-- A replacement that takes an entry out of the count. -/
theorem countP_set_of_loss {l : List α} {i : ℕ} {old new : α} (h : l[i]? = some old)
    (hold : p old = true) (hnew : p new = false) :
    (l.set i new).countP p + 1 = l.countP p := by
  simpa [hold, hnew] using countP_set_add (p := p) h new

/-- A replacement that satisfies `p` only if the old entry did adds nothing. -/
theorem countP_set_le {l : List α} {i : ℕ} {old new : α} (h : l[i]? = some old)
    (hle : p new = true → p old = true) : (l.set i new).countP p ≤ l.countP p := by
  have hadd := countP_set_add (p := p) h new
  by_cases hnew : p new = true
  · rw [if_pos hnew, if_pos (hle hnew)] at hadd
    omega
  · rw [if_neg hnew] at hadd
    omega

/-- A replacement adds at most one. -/
theorem countP_set_le_succ {l : List α} {i : ℕ} {old : α} (h : l[i]? = some old) (new : α) :
    (l.set i new).countP p ≤ l.countP p + 1 := by
  have hadd := countP_set_add (p := p) h new
  split at hadd <;> split at hadd <;> omega

/-- Entries that satisfy one of two predicates are at most as many as those of each together. -/
theorem countP_le_add {p₁ p₂ : α → Bool} {l : List α}
    (h : ∀ a ∈ l, p a = true → p₁ a = true ∨ p₂ a = true) :
    l.countP p ≤ l.countP p₁ + l.countP p₂ := by
  induction l with
  | nil => simp
  | cons a l ih =>
      obtain ⟨ha, hl⟩ := List.forall_mem_cons.mp h
      have hrec := ih hl
      simp only [List.countP_cons]
      by_cases hp : p a = true
      · rcases ha hp with h₁ | h₂
        · rw [if_pos hp, if_pos h₁]
          omega
        · rw [if_pos hp, if_pos h₂]
          omega
      · rw [if_neg hp]
        omega

/-- If the list `q` holds every index whose entry satisfies `p`, it is at least as long as their
number. -/
theorem countP_le_length_of_mem {l : List α} {q : List ℕ}
    (h : ∀ i a, l[i]? = some a → p a = true → i ∈ q) : l.countP p ≤ q.length := by
  induction l generalizing q with
  | nil => simp
  | cons a l ih =>
      -- the indices of the tail, shifted back by one, are found in the tail of `q`
      have htail : ∀ i b, l[i]? = some b → p b = true →
          i ∈ ((q.erase 0).filter (0 < ·)).map (· - 1) := by
        intro i b hi hb
        have hmem : i + 1 ∈ q := h (i + 1) b (by simpa using hi) hb
        refine List.mem_map.mpr ⟨i + 1, List.mem_filter.mpr ⟨?_, by simp⟩, by simp⟩
        exact (List.mem_erase_of_ne (by omega)).mpr hmem
      have hle := ih htail
      have hfilter := List.length_filter_le (fun i => decide (0 < i)) (q.erase 0)
      rw [List.length_map] at hle
      rw [List.countP_cons]
      split
      · next ha =>
          have hzero : 0 ∈ q := h 0 a (by simp) ha
          have hlen := List.length_erase_of_mem hzero
          have hpos := List.length_pos_of_mem hzero
          omega
      · have hlen := (List.erase_sublist (a := 0) (l := q)).length_le
        omega

/-- A predicate that one entry satisfies, in a list without duplicates. -/
theorem filter_eq_singleton {l : List α} {a : α} (hnodup : l.Nodup) (hmem : a ∈ l) (ha : p a = true)
    (honly : ∀ b ∈ l, p b = true → b = a) : l.filter p = [a] := by
  have hall : ∀ b ∈ l.filter p, b = a := fun b hb =>
    honly b (List.mem_of_mem_filter hb) (List.mem_filter.mp hb).2
  have heq : l.filter p = List.replicate (l.filter p).length a := List.eq_replicate_of_mem hall
  have hle : (l.filter p).length ≤ 1 := by
    have hfilter := hnodup.filter p
    rw [heq] at hfilter
    exact List.nodup_replicate.mp hfilter
  have hpos : 0 < (l.filter p).length := List.length_pos_of_mem (List.mem_filter.mpr ⟨hmem, ha⟩)
  rw [heq, show (l.filter p).length = 1 by omega]
  rfl

/-! ## Collecting a part of every entry -/

/-- What replacing one entry does to the parts that `f` collects, as a multiset identity. -/
theorem filterMap_set_add {β : Type*} {f : α → Option β} {l : List α} {i : ℕ} {old : α}
    (h : l[i]? = some old) (new : α) :
    ((f old).toList : Multiset β) + ((l.set i new).filterMap f : Multiset β) =
      ((f new).toList : Multiset β) + (l.filterMap f : Multiset β) := by
  have hcons : ∀ (a : α) (l : List α), ((a :: l).filterMap f : Multiset β) =
      ((f a).toList : Multiset β) + (l.filterMap f : Multiset β) := by
    intro a l
    rw [List.filterMap_cons]
    cases f a <;> rfl
  induction l generalizing i with
  | nil => simp at h
  | cons a l ih =>
      cases i with
      | zero =>
          obtain rfl : a = old := by simpa using h
          rw [List.set_cons_zero, hcons, hcons, add_left_comm]
      | succ i =>
          rw [List.set_cons_succ, hcons, hcons, add_left_comm, ih (by simpa using h), add_left_comm]

/-- A replacement that `f` does not notice. -/
theorem filterMap_set_of_eq {β : Type*} {f : α → Option β} {l : List α} {i : ℕ} {old new : α}
    (h : l[i]? = some old) (heq : f new = f old) :
    ((l.set i new).filterMap f : Multiset β) = (l.filterMap f : Multiset β) := by
  have hadd := filterMap_set_add (f := f) h new
  rw [heq] at hadd
  exact add_left_cancel hadd

end SynGateway.Counting
