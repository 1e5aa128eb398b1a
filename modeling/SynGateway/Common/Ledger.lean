import Mathlib.Algebra.GroupWithZero.Nat
import Mathlib.Algebra.BigOperators.Group.Multiset.Basic
import Mathlib.Algebra.Order.BigOperators.Group.Multiset
import SynGateway.Common.Counting
import SynGateway.Common.Transition

/-!
# Reservations against a limit

A `Ledger` holds the costs of finished and of unfinished work. Work of any cost is admitted while
all costs in the ledger, settled or pending, are below the limit; it is settled at the cost it was
admitted with, or cancelled. Whatever the order, the ledger exceeds the limit by one admission at
most (`settled_le`): the last one was admitted below the limit, and everything else was counted
then.

A table of processes is read as a ledger by two functions, what a process holds and what it has
spent; `ofList` says which moves of a process are which entries.
-/

namespace SynGateway

open Transition Counting

/-- The costs of settled and of pending work. -/
structure Ledger where
  settled : Multiset ℕ := 0
  pending : Multiset ℕ := 0
deriving DecidableEq

namespace Ledger

/-- What can happen to a piece of work of cost `c`. -/
inductive Entry
  | enter (c : ℕ)
  | settle (c : ℕ)
  | cancel (c : ℕ)
deriving DecidableEq, Repr

/-- All costs in the ledger. -/
def total (L : Ledger) : ℕ := L.settled.sum + L.pending.sum

/-- Work is admitted only below the limit. -/
def step (limit : ℕ) (L : Ledger) : Entry → Option Ledger
  | .enter c => if L.total < limit then some { L with pending := c ::ₘ L.pending } else none
  | .settle c =>
    if c ∈ L.pending then
      some {
        settled := c ::ₘ L.settled,
        pending := L.pending.erase c }
    else none
  | .cancel c => if c ∈ L.pending then some { L with pending := L.pending.erase c } else none

variable {limit : ℕ} {L L' : Ledger} {entry : Entry}

/-- The ledger is within the limit up to one of its costs. -/
def Within (limit : ℕ) (L : Ledger) : Prop :=
  ∃ c, (c = 0 ∨ c ∈ L.settled + L.pending) ∧ L.total ≤ limit - 1 + c

/-- The sum splits into one entry and the others. -/
theorem sum_erase {s : Multiset ℕ} {c : ℕ} (h : c ∈ s) : c + (s.erase c).sum = s.sum := by
  rw [← Multiset.sum_cons, Multiset.cons_erase h]

/-- What an entry does. -/
theorem step_cases (h : L.step limit entry = some L') :
    (∃ c, entry = .enter c ∧ L.total < limit ∧ L' = { L with pending := c ::ₘ L.pending }) ∨
    (∃ c, entry = .settle c ∧ c ∈ L.pending ∧
      L' = { settled := c ::ₘ L.settled, pending := L.pending.erase c }) ∨
    ∃ c, entry = .cancel c ∧ c ∈ L.pending ∧ L' = { L with pending := L.pending.erase c } := by
  cases entry with
  | enter c =>
      simp only [step, Option.ite_none_right_eq_some, Option.some.injEq] at h
      exact .inl ⟨c, rfl, h.1, h.2.symm⟩
  | settle c =>
      simp only [step, Option.ite_none_right_eq_some, Option.some.injEq] at h
      exact .inr (.inl ⟨c, rfl, h.1, h.2.symm⟩)
  | cancel c =>
      simp only [step, Option.ite_none_right_eq_some, Option.some.injEq] at h
      exact .inr (.inr ⟨c, rfl, h.1, h.2.symm⟩)

/-- Every entry keeps the ledger within the limit up to one cost. -/
theorem Within.step (h : Within limit L) (hstep : L.step limit entry = some L') :
    Within limit L' := by
  obtain ⟨c, hmem, hle⟩ := h
  unfold total at hle
  obtain ⟨d, -, hlt, rfl⟩ | ⟨d, -, hpending, rfl⟩ | ⟨d, -, hpending, rfl⟩ := step_cases hstep
  · -- the new cost is the one the ledger may exceed the limit by
    refine ⟨d, .inr (Multiset.mem_add.mpr (.inr (Multiset.mem_cons_self d _))), ?_⟩
    unfold total at hlt ⊢
    dsimp only
    rw [Multiset.sum_cons]
    omega
  · have hsum := sum_erase hpending
    refine ⟨c, ?_, ?_⟩
    · rwa [Multiset.cons_add, ← Multiset.add_cons, Multiset.cons_erase hpending]
    · unfold total
      dsimp only
      rw [Multiset.sum_cons]
      omega
  · have hsum := sum_erase hpending
    by_cases hcd : c = d
    · -- nothing is left of the cost that exceeded the limit
      refine ⟨0, .inl rfl, ?_⟩
      unfold total
      dsimp only
      omega
    · refine ⟨c, hmem.imp_right fun hc => ?_, ?_⟩
      · rw [Multiset.mem_add] at hc ⊢
        exact hc.imp_right (Multiset.mem_erase_of_ne hcd).mpr
      · unfold total
        dsimp only
        omega

/-- Every reachable ledger is within the limit up to one cost. -/
theorem within_of_reach (h : Reach (step limit) free {} L) : Within limit L :=
  h.invariant ⟨0, .inl rfl, Nat.zero_le _⟩ fun _ _ _ hwithin _ hstep => hwithin.step hstep

/-- **What is settled exceeds the limit by one settled cost at most.** -/
theorem settled_le (h : Reach (step limit) free {} L) :
    ∃ c, (c = 0 ∨ c ∈ L.settled) ∧ L.settled.sum ≤ limit - 1 + c := by
  obtain ⟨c, hmem, hle⟩ := within_of_reach h
  unfold total at hle
  rcases hmem with rfl | hmem
  · exact ⟨0, .inl rfl, by omega⟩
  · rcases Multiset.mem_add.mp hmem with hsettled | hpending
    · exact ⟨c, .inr hsettled, by omega⟩
    · have hsum := sum_erase hpending
      exact ⟨0, .inl rfl, by omega⟩

/-- **With unit costs the limit is never exceeded.** -/
theorem total_le_of_unit (hpos : 0 < limit) (h : Reach (step limit) free {} L)
    (hunit : ∀ c ∈ L.settled + L.pending, c ≤ 1) : L.total ≤ limit := by
  obtain ⟨c, hmem, hle⟩ := within_of_reach h
  have hc : c ≤ 1 := by
    rcases hmem with rfl | hmem
    · exact Nat.zero_le 1
    · exact hunit c hmem
  omega

/-! ## A table of processes as a ledger -/

section Table

variable {α : Type*} {held spent : α → Option ℕ} {l : List α} {i : ℕ} {old new : α} {c : ℕ}

/-- The ledger of a table whose processes hold and have spent what the two functions say. -/
def ofList (held spent : α → Option ℕ) (l : List α) : Ledger where
  settled := (l.filterMap spent : Multiset ℕ)
  pending := (l.filterMap held : Multiset ℕ)

/-- A move that changes neither what is held nor what is spent. -/
theorem ofList_set_of_eq (h : l[i]? = some old) (hheld : held new = held old)
    (hspent : spent new = spent old) :
    ofList held spent (l.set i new) = ofList held spent l := by
  unfold ofList
  rw [filterMap_set_of_eq h hheld, filterMap_set_of_eq h hspent]

/-- A process that begins to hold a cost is admitted. -/
theorem step_enter (h : l[i]? = some old) (hheld : held old = none) (hnew : held new = some c)
    (hspent : spent new = spent old) (hlt : (ofList held spent l).total < limit) :
    (ofList held spent l).step limit (.enter c) = some (ofList held spent (l.set i new)) := by
  have hadd := filterMap_set_add (f := held) h new
  rw [hheld, hnew] at hadd
  have hcons : ((l.set i new).filterMap held : Multiset ℕ) =
      c ::ₘ (l.filterMap held : Multiset ℕ) := by
    simpa using hadd
  unfold step
  dsimp only
  rw [if_pos hlt]
  unfold ofList
  rw [filterMap_set_of_eq h hspent, hcons]

/-- A process that gives up its cost for nothing is cancelled. -/
theorem step_cancel (h : l[i]? = some old) (hheld : held old = some c) (hnew : held new = none)
    (hspent : spent new = spent old) :
    (ofList held spent l).step limit (.cancel c) = some (ofList held spent (l.set i new)) := by
  have hadd := filterMap_set_add (f := held) h new
  rw [hheld, hnew] at hadd
  have hcons : c ::ₘ ((l.set i new).filterMap held : Multiset ℕ) =
      (l.filterMap held : Multiset ℕ) := by
    simpa using hadd
  unfold step ofList
  rw [filterMap_set_of_eq h hspent, ← hcons]
  simp

/-- A process that gives up its cost and has spent it is settled. -/
theorem step_settle (h : l[i]? = some old) (hheld : held old = some c) (hnew : held new = none)
    (hspent : spent old = none) (hspentNew : spent new = some c) :
    (ofList held spent l).step limit (.settle c) = some (ofList held spent (l.set i new)) := by
  have hadd := filterMap_set_add (f := held) h new
  rw [hheld, hnew] at hadd
  have hcons : c ::ₘ ((l.set i new).filterMap held : Multiset ℕ) =
      (l.filterMap held : Multiset ℕ) := by
    simpa using hadd
  have haddSpent := filterMap_set_add (f := spent) h new
  rw [hspent, hspentNew] at haddSpent
  have hconsSpent : ((l.set i new).filterMap spent : Multiset ℕ) =
      c ::ₘ (l.filterMap spent : Multiset ℕ) := by
    simpa using haddSpent
  unfold step ofList
  rw [hconsSpent, ← hcons]
  simp

/-- **Which tables refine a ledger**: a process begins to hold a cost below the limit only, and what
it spends is the cost that it gives up. -/
theorem ofList_set_step (h : l[i]? = some old)
    (hspend : spent new ≠ spent old → spent old = none ∧ spent new = held old ∧ held new = none)
    (hhold : held new ≠ held old →
      held new = none ∨ (held old = none ∧ (ofList held spent l).total < limit)) :
    ofList held spent (l.set i new) = ofList held spent l ∨
      ∃ entry, free (ofList held spent l) entry ∧
        (ofList held spent l).step limit entry = some (ofList held spent (l.set i new)) := by
  by_cases hspent : spent new = spent old
  · by_cases hheld : held new = held old
    · exact .inl (ofList_set_of_eq h hheld hspent)
    · right
      rcases hhold hheld with hnew | ⟨hold, hlt⟩
      · obtain ⟨c, hc⟩ := Option.ne_none_iff_exists'.mp fun hnone => hheld (hnew.trans hnone.symm)
        exact ⟨.cancel c, trivial, step_cancel h hc hnew hspent⟩
      · obtain ⟨c, hc⟩ := Option.ne_none_iff_exists'.mp fun hnone => hheld (hnone.trans hold.symm)
        exact ⟨.enter c, trivial, step_enter h hold hc hspent hlt⟩
  · obtain ⟨hold, hcost, hnew⟩ := hspend hspent
    obtain ⟨c, hc⟩ := Option.ne_none_iff_exists'.mp fun hnone => hspent (hnone.trans hold.symm)
    exact .inr ⟨.settle c, trivial, step_settle h (hcost.symm.trans hc) hnew hold hc⟩

/-- A new process that holds and has spent nothing. -/
theorem ofList_append (hheld : held new = none) (hspent : spent new = none) :
    ofList held spent (l ++ [new]) = ofList held spent l := by
  unfold ofList
  rw [List.filterMap_append, List.filterMap_append]
  simp [hheld, hspent]

/-- The processes that satisfy `p` have unit cost, the others none. -/
def unitCost (p : α → Bool) (a : α) : Option ℕ := if p a then some 1 else none

/-- Unit costs add up to the number of elements. -/
theorem sum_unitCost (p : α → Bool) (l : List α) : (l.filterMap (unitCost p)).sum = l.countP p := by
  induction l with
  | nil => rfl
  | cons a l ih =>
      unfold unitCost at ih ⊢
      by_cases hp : p a = true
      · rw [List.filterMap_cons_some (by rw [if_pos hp]), List.sum_cons, ih,
          List.countP_cons_of_pos hp]
        omega
      · rw [List.filterMap_cons_none (by rw [if_neg hp]), ih, List.countP_cons_of_neg hp]

/-- With unit costs the ledger counts processes. -/
theorem total_unitCost (p q : α → Bool) (l : List α) :
    (ofList (unitCost p) (unitCost q) l).total = l.countP q + l.countP p := by
  unfold total ofList
  rw [Multiset.sum_coe, Multiset.sum_coe, sum_unitCost, sum_unitCost]

/-- Unit costs are at most one. -/
theorem le_one_of_unitCost {p q : α → Bool} {c : ℕ}
    (h : c ∈ (ofList (unitCost p) (unitCost q) l).settled +
      (ofList (unitCost p) (unitCost q) l).pending) :
    c ≤ 1 := by
  have hone : ∀ (r : α → Bool), c ∈ (l.filterMap (unitCost r) : Multiset ℕ) → c ≤ 1 := by
    intro r hc
    obtain ⟨a, -, ha⟩ := List.mem_filterMap.mp (Multiset.mem_coe.mp hc)
    unfold unitCost at ha
    split at ha
    · exact (Option.some.inj ha).ge
    · cases ha
  exact (Multiset.mem_add.mp h).elim (hone q) (hone p)

end Table

end Ledger

end SynGateway
