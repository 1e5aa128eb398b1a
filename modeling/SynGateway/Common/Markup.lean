import Mathlib.Algebra.BigOperators.Group.List.Basic
import Mathlib.Data.List.Forall2

/-!
# Markup

The tags of a text, which an opening bracket begins and a closing bracket ends, and what inserted
strings do to them. A text is made of `Segment`s, each a fixed part and the string that is inserted
behind it. Strings without brackets, behind parts that end with a closing bracket, leave the tags
and the brackets alone (`Same.tags_eq`, `Same.brackets_eq`), and no other strings leave the brackets
alone (`plain_of_brackets_eq`).
-/

namespace SynGateway.Markup

variable {α : Type*} [DecidableEq α] (lt gt : α)

/-! ## Brackets and tags -/

def isBracket (a : α) : Bool := a = lt || a = gt

/-- The brackets of a text, in order. -/
def brackets (s : List α) : List α := s.filter (isBracket lt gt)

/-- Read a text behind an opening bracket, where `some tag` has been read since, or outside of a
tag. The result is the same for its end, and the tags that were closed. -/
def scan : Option (List α) → List α → Option (List α) × List (List α)
  | tag, [] => (tag, [])
  | none, a :: s => if a = lt then scan (some []) s else scan none s
  | some tag, a :: s =>
    if a = gt then ((scan none s).1, tag :: (scan none s).2) else scan (some (tag ++ [a])) s

/-- The tags of a text. -/
def tags (s : List α) : List (List α) := (scan lt gt none s).2

/-- A text without brackets. -/
def Plain (s : List α) : Prop := ∀ a ∈ s, isBracket lt gt a = false

/-- A text that ends with a closing bracket. -/
def Closed (s : List α) : Prop := ∃ t, s = t ++ [gt]

variable {lt gt} {s t : List α}

/-- The brackets of a text are those of its parts. -/
theorem brackets_append (s t : List α) :
    brackets lt gt (s ++ t) = brackets lt gt s ++ brackets lt gt t :=
  List.filter_append ..

/-- A text without brackets is plain. -/
theorem brackets_eq_nil : brackets lt gt s = [] ↔ Plain lt gt s := by
  unfold brackets Plain
  simp only [List.filter_eq_nil_iff, Bool.not_eq_true]

/-- The scan of a text goes on where that of its first part ended. -/
theorem scan_append (tag : Option (List α)) (s t : List α) :
    scan lt gt tag (s ++ t) =
      ((scan lt gt (scan lt gt tag s).1 t).1,
        (scan lt gt tag s).2 ++ (scan lt gt (scan lt gt tag s).1 t).2) := by
  induction s generalizing tag with
  | nil => cases tag <;> rfl
  | cons a s ih =>
      cases tag with
      | none =>
          rw [List.cons_append, scan, scan]
          split_ifs
          · exact ih _
          · exact ih _
      | some tag =>
          rw [List.cons_append, scan, scan]
          split_ifs
          · rw [ih]
            rfl
          · exact ih _

/-- A text without brackets opens no tag. -/
theorem scan_plain (h : Plain lt gt s) : scan lt gt none s = (none, []) := by
  induction s with
  | nil => rfl
  | cons a s ih =>
      obtain ⟨ha, hs⟩ := List.forall_mem_cons.mp h
      have hne : a ≠ lt := by
        rintro rfl
        simp [isBracket] at ha
      rw [scan, if_neg hne]
      exact ih hs

/-- Behind a closing bracket there is no open tag. -/
theorem scan_closed (h : Closed gt s) (tag : Option (List α)) (hne : lt ≠ gt) :
    (scan lt gt tag s).1 = none := by
  obtain ⟨t, rfl⟩ := h
  rw [scan_append]
  cases (scan lt gt tag t).1 with
  | none =>
      rw [scan, if_neg hne.symm]
      rfl
  | some open' =>
      rw [scan, if_pos rfl]
      rfl

omit [DecidableEq α] in

/-- A text that ends in a closed one is closed. -/
theorem Closed.append (h : Closed gt t) (s : List α) : Closed gt (s ++ t) := by
  obtain ⟨u, rfl⟩ := h
  exact ⟨s ++ u, (List.append_assoc ..).symm⟩

/-! ## Inserted strings -/

/-- A fixed part, and the string that is inserted behind it. -/
structure Segment (α : Type*) where
  fixed : List α
  slot : List α := []

/-- The text of some segments. -/
def text (segments : List (Segment α)) : List α := segments.flatMap fun s => s.fixed ++ s.slot

/-- The same fixed parts, with strings without brackets in the slots. -/
def Same (lt gt : α) (segments segments' : List (Segment α)) : Prop :=
  List.Forall₂ (fun s s' => s.fixed = s'.fixed ∧ Plain lt gt s'.slot) segments segments'

variable {segments segments' : List (Segment α)}

omit [DecidableEq α] in

/-- The text begins with its first segment. -/
theorem text_cons (s : Segment α) (segments : List (Segment α)) :
    text (s :: segments) = s.fixed ++ (s.slot ++ text segments) := by
  rw [text, List.flatMap_cons, List.append_assoc]
  rfl

/-- Strings without brackets add none. -/
theorem Same.brackets_eq (h : Same lt gt segments segments')
    (hplain : ∀ s ∈ segments, Plain lt gt s.slot) :
    brackets lt gt (text segments) = brackets lt gt (text segments') := by
  induction h with
  | nil => rfl
  | cons hs _ ih =>
      obtain ⟨hslot, hplain⟩ := List.forall_mem_cons.mp hplain
      rw [text_cons, text_cons, brackets_append, brackets_append, brackets_append,
        brackets_append, hs.1, brackets_eq_nil.mpr hslot, brackets_eq_nil.mpr hs.2, ih hplain]

/-- Strings without brackets, each behind a closing bracket, change no tag. -/
theorem Same.tags_eq (h : Same lt gt segments segments') (hne : lt ≠ gt)
    (hclosed : ∀ s ∈ segments, Closed gt s.fixed) (hplain : ∀ s ∈ segments, Plain lt gt s.slot) :
    tags lt gt (text segments) = tags lt gt (text segments') := by
  induction h with
  | nil => rfl
  | cons hs _ ih =>
      obtain ⟨hfixed, hclosed⟩ := List.forall_mem_cons.mp hclosed
      obtain ⟨hslot, hplain⟩ := List.forall_mem_cons.mp hplain
      unfold tags at ih ⊢
      rw [text_cons, text_cons, ← hs.1, scan_append, scan_append, scan_append, scan_append,
        scan_closed hfixed none hne, scan_plain hslot, scan_plain hs.2, ih hclosed hplain]

/-- Only strings without brackets add none. -/
theorem plain_of_brackets_eq (h : Same lt gt segments segments')
    (heq : brackets lt gt (text segments) = brackets lt gt (text segments')) :
    ∀ s ∈ segments, Plain lt gt s.slot := by
  -- the brackets of the slots are what the text has more than the other one
  have hlength : (brackets lt gt (text segments)).length =
      (brackets lt gt (text segments')).length + (segments.map fun s =>
          (brackets lt gt s.slot).length).sum := by
    clear heq
    induction h with
    | nil => rfl
    | cons hs _ ih =>
        rw [text_cons, text_cons, brackets_append, brackets_append, brackets_append,
          brackets_append, hs.1, brackets_eq_nil.mpr hs.2, List.length_append, List.length_append,
          ih, List.length_append, List.length_append, List.map_cons, List.sum_cons, List.length_nil]
        omega
  have hnone : (segments.map fun s => (brackets lt gt s.slot).length).sum = 0 := by
    rw [heq] at hlength
    omega
  intro s hs
  apply brackets_eq_nil.mp
  apply List.length_eq_zero_iff.mp
  exact List.sum_eq_zero_iff_forall_eq_nat.mp hnone _ (List.mem_map_of_mem hs)

end SynGateway.Markup
