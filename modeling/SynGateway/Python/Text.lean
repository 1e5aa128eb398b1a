import Mathlib.Data.List.DropRight

/-!
# Python's `str`

The methods of `str` that the gateway uses, on lists of characters.
-/

namespace SynGateway.Python

/-- A `str` whose code points are all Unicode scalar values. -/
abbrev Text := List Char

/-- `c.isspace()`. -/
def isSpace (c : Char) : Bool :=
  let n := c.toNat
  0x09 ≤ n && n ≤ 0x0D || 0x1C ≤ n && n ≤ 0x20 || n = 0x85 || n = 0xA0 || n = 0x1680 ||
    0x2000 ≤ n && n ≤ 0x200A || n = 0x2028 || n = 0x2029 || n = 0x202F || n = 0x205F || n = 0x3000

/-- `s.strip()`. -/
def strip (s : Text) : Text := (s.dropWhile isSpace).rdropWhile isSpace

/-- `s.rstrip(c)` for a single character. -/
def rstrip (c : Char) (s : Text) : Text := s.rdropWhile (· = c)

/-- `s.partition(c)` for a single character, without the separator. -/
def partition (c : Char) (s : Text) :
    Text × Text := (s.takeWhile (· ≠ c), (s.dropWhile (· ≠ c)).tail)

/-- `s.rsplit(c, 1)[-1]` for a single character. -/
def rsplitLast (c : Char) (s : Text) : Text := s.rtakeWhile (· ≠ c)

/-- `s.split(c)` for a single character. -/
def split (c : Char) (s : Text) : List Text := s.splitOnP (· = c)

/-- `s.split(sep, 1)` for a non-empty `sep` that occurs in `s`; `none` when it does not occur. -/
def splitOnce (sep : Text) : Text → Option (Text × Text)
  | [] => none
  | c :: s =>
    if sep.isPrefixOf (c :: s) then some ([], (c :: s).drop sep.length)
    else (splitOnce sep s).map fun p => (c :: p.1, p.2)

/-- `s.split(c, n)` for a single character. -/
def splitMax (c : Char) : ℕ → Text → List Text
  | 0, s => [s]
  | n + 1, s =>
    if c ∈ s then s.takeWhile (· ≠ c) :: splitMax c n (s.dropWhile (· ≠ c)).tail else [s]

/-- `s.split(None, 1)`. -/
def splitSpaceOnce (s : Text) : List Text :=
  let s := s.dropWhile isSpace
  let rest := (s.dropWhile (!isSpace ·)).dropWhile isSpace
  if s = [] then [] else if rest = [] then [s.takeWhile (!isSpace ·)]
  else [s.takeWhile (!isSpace ·), rest]

/-- `sep.join(parts)`. -/
def join (sep : Text) (parts : List Text) : Text := sep.intercalate parts

variable {sep s t u v : Text} {c : Char}

/-- A join is as long as its parts and the separators between them. -/
theorem length_join (parts : List Text) :
    (join sep parts).length = parts.flatten.length + sep.length * (parts.length - 1) := by
  induction parts with
  | nil => simp [join]
  | cons part parts ih =>
      cases parts with
      | nil => simp [join]
      | cons part' parts =>
          rw [join] at ih ⊢
          rw [List.intercalate_cons_cons, List.length_append, List.length_append, ih]
          simp only [List.flatten_cons, List.length_append, List.length_cons, Nat.add_sub_cancel,
            Nat.mul_add]
          omega

theorem strip_eq_nil : strip s = [] ↔ ∀ c ∈ s, isSpace c = true := by
  rw [strip, List.rdropWhile_eq_nil_iff]
  constructor
  · intro h
    rw [← List.dropWhile_eq_nil_iff]
    by_contra hne
    have hhead := List.head_dropWhile_not isSpace hne
    simp [h _ (List.head_mem hne)] at hhead
  · intro h c hc
    exact h c ((List.dropWhile_sublist _).subset hc)

/-- A text without white space is its own strip. -/
theorem strip_of_not_space (h : ∀ c ∈ s, isSpace c = false) : strip s = s := by
  have hdrop : s.dropWhile isSpace = s := by
    cases s with
    | nil => rfl
    | cons c s => exact List.dropWhile_cons_of_neg (by simp [h c List.mem_cons_self])
  unfold strip
  rw [hdrop, List.rdropWhile_eq_self_iff]
  intro hne
  simp [h _ (List.getLast_mem hne)]

/-- Stripping at the end keeps a first letter that is not stripped. -/
theorem rdropWhile_cons_of_neg {p : Char → Bool} (h : p c = false) (s : Text) :
    ∃ t, (c :: s).rdropWhile p = c :: t := by
  obtain ⟨suffix, hsuffix⟩ := List.rdropWhile_prefix p (c :: s)
  cases hdrop : (c :: s).rdropWhile p with
  | nil =>
      have hall := List.rdropWhile_eq_nil_iff.mp hdrop c List.mem_cons_self
      rw [h] at hall
      cases hall
  | cons d t =>
      rw [hdrop, List.cons_append] at hsuffix
      obtain ⟨rfl, -⟩ := List.cons.inj hsuffix
      exact ⟨t, rfl⟩

/-- What stands behind white space begins the strip. -/
theorem strip_append (hs : ∀ c ∈ s, isSpace c = true) (hc : isSpace c = false) (t : Text) :
    ∃ u, strip (s ++ c :: t) = c :: u := by
  unfold strip
  rw [List.dropWhile_append_of_pos hs, List.dropWhile_cons_of_neg (by simp [hc])]
  exact rdropWhile_cons_of_neg hc t

/-- A separator is looked for behind a text without it. -/
theorem partition_append (h : c ∉ s) (t : Text) :
    partition c (s ++ t) = (s ++ (partition c t).1, (partition c t).2) := by
  have hne : ∀ d ∈ s, decide (d ≠ c) = true := fun d hd => by
    simp only [ne_eq, decide_eq_true_eq]
    rintro rfl
    exact h hd
  unfold partition
  rw [List.takeWhile_append_of_pos hne, List.dropWhile_append_of_pos hne]

theorem partition_cons (c : Char) (s : Text) : partition c (c :: s) = ([], s) := by
  simp [partition]

/-- Neither piece of a partition is longer than the text. -/
theorem length_partition_le (c : Char) (s : Text) :
    (partition c s).1.length + (partition c s).2.length ≤ s.length := by
  have hlen := congrArg List.length (List.takeWhile_append_dropWhile (p := (· ≠ c)) (l := s))
  rw [List.length_append] at hlen
  have htail : (s.dropWhile (· ≠ c)).tail.length ≤ (s.dropWhile (· ≠ c)).length := by
    rw [List.length_tail]
    exact Nat.sub_le _ _
  unfold partition
  dsimp only
  omega

theorem rsplitLast_of_not_mem (h : c ∉ s) : rsplitLast c s = s := by
  rw [rsplitLast, List.rtakeWhile_eq_self_iff]
  intro d hd
  simp only [ne_eq, decide_eq_true_eq]
  rintro rfl
  exact h hd

/-- What stands in front of a separator is no part of the last piece. -/
theorem rsplitLast_append_cons (c : Char) (s t : Text) :
    rsplitLast c (s ++ c :: t) = rsplitLast c t := by
  unfold rsplitLast List.rtakeWhile
  rw [List.reverse_append, List.reverse_cons, List.append_assoc, List.takeWhile_append]
  split
  · next hall =>
      rw [(List.takeWhile_prefix _).eq_of_length hall]
      simp
  · rfl

theorem length_rsplitLast_le (c : Char) (s : Text) : (rsplitLast c s).length ≤ s.length :=
  (List.rtakeWhile_suffix _ _).length_le

/-- The first piece of a split ends at the separator. -/
theorem splitMax_append (h : c ∉ s) (n : ℕ) (t : Text) :
    splitMax c (n + 1) (s ++ c :: t) = s :: splitMax c n t := by
  have hne : ∀ d ∈ s, decide (d ≠ c) = true := fun d hd => by
    simp only [ne_eq, decide_eq_true_eq]
    rintro rfl
    exact h hd
  rw [splitMax, if_pos (by simp), List.takeWhile_append_of_pos hne,
    List.dropWhile_append_of_pos hne]
  simp

section

variable {p : Char → Bool}

theorem dropWhile_of_head (hs : ∀ c ∈ s.head?, p c = false) : s.dropWhile p = s := by
  cases s with
  | nil => rfl
  | cons c s => exact List.dropWhile_cons_of_neg (by simp [hs c rfl])

theorem takeWhile_ne_nil (hne : s ≠ []) (hs : ∀ c ∈ s.head?, p c = true) : s.takeWhile p ≠ [] := by
  obtain ⟨c, s, rfl⟩ := List.exists_cons_of_ne_nil hne
  rw [List.takeWhile_cons_of_pos (hs c rfl)]
  exact List.cons_ne_nil _ _

theorem takeWhile_of_head (hs : ∀ c ∈ s.head?, p c = false) : s.takeWhile p = [] := by
  cases s with
  | nil => rfl
  | cons c s => exact List.takeWhile_cons_of_neg (by simp [hs c rfl])

theorem head?_dropWhile (p : Char → Bool) (s : Text) :
    ∀ c ∈ (s.dropWhile p).head?, p c = false := by
  intro c hc
  have hnot := List.head?_dropWhile_not p s
  rw [Option.mem_def.mp hc] at hnot
  simpa using hnot

end

/-- A text splits in two at the white space behind its first word. -/
theorem splitSpaceOnce_eq_pair :
    splitSpaceOnce s = [u, v] ↔ ∃ lead gap, s = lead ++ (u ++ (gap ++ v)) ∧
      (∀ c ∈ lead, isSpace c = true) ∧ (u ≠ [] ∧ ∀ c ∈ u, isSpace c = false) ∧
      (gap ≠ [] ∧ ∀ c ∈ gap, isSpace c = true) ∧ v ≠ [] ∧ ∀ c ∈ v.head?, isSpace c = false := by
  have hnot : ∀ c, (!isSpace c) = true ↔ isSpace c = false := fun c => by simp
  have hnot' : ∀ c, (!isSpace c) = false ↔ isSpace c = true := fun c => by simp
  constructor
  · intro h
    unfold splitSpaceOnce at h
    dsimp only at h
    split_ifs at h with hstart hrest
    · cases (List.cons.inj h).2
    obtain ⟨rfl, hv⟩ := List.cons.inj h
    obtain ⟨rfl, -⟩ := List.cons.inj hv
    -- what is left behind the first word and the blanks after it is the second part
    have hgap := head?_dropWhile (!isSpace ·) (s.dropWhile isSpace)
    refine ⟨s.takeWhile isSpace,
      ((s.dropWhile isSpace).dropWhile (!isSpace ·)).takeWhile isSpace, ?_, fun c hc =>
      List.mem_takeWhile_imp hc, ⟨takeWhile_ne_nil hstart fun c hc =>
      (hnot c).mpr (head?_dropWhile _ s c hc),
        fun c hc => (hnot c).mp (List.mem_takeWhile_imp (p := (!isSpace ·)) hc)⟩,
      ⟨takeWhile_ne_nil (fun hnil => hrest (by rw [hnil]; rfl)) fun c hc =>
        (hnot' c).mp (hgap c hc), fun c hc => List.mem_takeWhile_imp hc⟩, hrest,
        head?_dropWhile _ _⟩
    rw [List.takeWhile_append_dropWhile, List.takeWhile_append_dropWhile,
      List.takeWhile_append_dropWhile]
  · rintro ⟨lead, gap, rfl, hlead, ⟨hu, huWord⟩, ⟨hgap, hgapSpace⟩, hv, hvHead⟩
    have huNot : ∀ c ∈ u, (!isSpace c) = true := fun c hc => (hnot c).mpr (huWord c hc)
    have hstart : (lead ++ (u ++ (gap ++ v))).dropWhile isSpace = u ++ (gap ++ v) := by
      rw [List.dropWhile_append_of_pos hlead, dropWhile_of_head]
      intro c hc
      rw [List.head?_append_of_ne_nil _ hu] at hc
      exact huWord c (List.mem_of_mem_head? hc)
    have hgapHead : ∀ c ∈ (gap ++ v).head?, (!isSpace c) = false := by
      intro c hc
      rw [List.head?_append_of_ne_nil _ hgap] at hc
      exact (hnot' c).mpr (hgapSpace c (List.mem_of_mem_head? hc))
    -- neither the word nor the blanks go on into the second part
    have hrest : ((u ++ (gap ++ v)).dropWhile (!isSpace ·)).dropWhile isSpace = v := by
      rw [List.dropWhile_append_of_pos huNot, dropWhile_of_head hgapHead,
        List.dropWhile_append_of_pos hgapSpace, dropWhile_of_head hvHead]
    have hword : (u ++ (gap ++ v)).takeWhile (!isSpace ·) = u := by
      rw [List.takeWhile_append_of_pos huNot, takeWhile_of_head hgapHead, List.append_nil]
    unfold splitSpaceOnce
    dsimp only
    rw [hstart, hrest, hword, if_neg (List.append_ne_nil_of_left_ne_nil hu _), if_neg hv]

/-- Two words split at the white space between them. -/
theorem splitSpaceOnce_append (hs : s ≠ []) (ht : t ≠ []) (hsWord : ∀ c ∈ s, isSpace c = false)
    (htWord : ∀ c ∈ t, isSpace c = false) (hc : isSpace c = true) :
    splitSpaceOnce (s ++ c :: t) = [s, t] :=
  splitSpaceOnce_eq_pair.mpr ⟨[], [c], rfl, List.forall_mem_nil _, ⟨hs, hsWord⟩,
    ⟨List.cons_ne_nil _ _, by simpa using hc⟩, ht, fun d hd => htWord d (List.mem_of_mem_head? hd)⟩

/-- A text that begins and ends with something else than white space. -/
structure Trimmed (s : Text) : Prop where
  ne_nil : s ≠ []
  head : isSpace (s.head ne_nil) = false
  last : isSpace (s.getLast ne_nil) = false

/-- What strips to `t` is `t` with white space behind it, if there is none in front. -/
theorem strip_eq_iff (hs : s ≠ []) (hhead : ∀ c ∈ s.head?, isSpace c = false) :
    strip s = t ↔ ∃ trail, s = t ++ trail ∧ Trimmed t ∧ ∀ c ∈ trail, isSpace c = true := by
  have hstrip : strip s = s.rdropWhile isSpace := by
    unfold strip
    rw [dropWhile_of_head hhead]
  rw [hstrip]
  constructor
  · rintro rfl
    -- the first character is no blank, so something is left
    obtain ⟨c, s', rfl⟩ := List.exists_cons_of_ne_nil hs
    obtain ⟨t', ht'⟩ := rdropWhile_cons_of_neg (hhead c rfl) s'
    refine ⟨(c :: s').rtakeWhile isSpace, List.rdropWhile_append_rtakeWhile.symm, ⟨?_, ?_, ?_⟩,
      fun d hd => List.mem_rtakeWhile_imp hd⟩
    · rw [ht']
      exact List.cons_ne_nil _ _
    · simp only [ht', List.head_cons]
      exact hhead c rfl
    · simpa using List.rdropWhile_last_not isSpace (c :: s')
        (by rw [ht']; exact List.cons_ne_nil _ _)
  · rintro ⟨trail, rfl, ht, htrail⟩
    have hdrop : (t ++ trail).rdropWhile isSpace = t.rdropWhile isSpace := by
      rw [List.rdropWhile, List.reverse_append,
        List.dropWhile_append_of_pos fun c hc => htrail c (List.mem_reverse.mp hc), List.rdropWhile]
    rw [hdrop, List.rdropWhile_eq_self_iff]
    exact fun _ => by simp [ht.last]

/-- The pieces around the first occurrence of `sep`. -/
theorem eq_append_of_splitOnce (h : splitOnce sep s = some (u, v)) : s = u ++ sep ++ v := by
  induction s generalizing u with
  | nil => simp [splitOnce] at h
  | cons c s ih =>
      rw [splitOnce] at h
      split at h
      · next hpre =>
          obtain ⟨rfl, rfl⟩ := Prod.mk.inj (Option.some.inj h)
          obtain ⟨t, ht⟩ := List.isPrefixOf_iff_prefix.mp hpre
          rw [← ht, List.drop_left, List.nil_append]
      · obtain ⟨⟨u', v'⟩, hrec, hp⟩ := Option.map_eq_some_iff.mp h
        obtain ⟨rfl, rfl⟩ := Prod.mk.inj hp
        rw [ih hrec]
        rfl

theorem splitOnce_eq_none_cons (h : splitOnce sep (c :: s) = none) :
    sep.isPrefixOf (c :: s) = false ∧ splitOnce sep s = none := by
  rw [splitOnce] at h
  split at h
  · cases h
  · next hpre => exact ⟨Bool.eq_false_iff.mpr hpre, Option.map_eq_none_iff.mp h⟩

/-- What follows the first occurrence of a non-empty separator is shorter than the whole. -/
theorem length_of_splitOnce (h : splitOnce sep s = some (u, v)) (hsep : sep ≠ []) :
    v.length < s.length := by
  have hlen := congrArg List.length (eq_append_of_splitOnce h)
  have hpos := List.length_pos_iff.mpr hsep
  simp only [List.length_append] at hlen
  omega

/-- Text behind the first occurrence of the separator does not change where it is. -/
theorem splitOnce_append (h : splitOnce sep s = some (u, v)) (t : Text) :
    splitOnce sep (s ++ t) = some (u, v ++ t) := by
  induction s generalizing u with
  | nil => simp [splitOnce] at h
  | cons c s ih =>
      rw [splitOnce] at h
      rw [List.cons_append, splitOnce, ← List.cons_append]
      split at h
      · next hpre =>
          obtain ⟨rfl, rfl⟩ := Prod.mk.inj (Option.some.inj h)
          obtain ⟨w, hw⟩ := List.isPrefixOf_iff_prefix.mp hpre
          have hpre' : sep.isPrefixOf (c :: s ++ t) = true :=
            List.isPrefixOf_iff_prefix.mpr ⟨w ++ t, by rw [← hw, List.append_assoc]⟩
          rw [if_pos hpre', ← hw, List.append_assoc, List.drop_left, List.drop_left]
      · next hpre =>
          obtain ⟨⟨u', v'⟩, hrec, hp⟩ := Option.map_eq_some_iff.mp h
          obtain ⟨rfl, rfl⟩ := Prod.mk.inj hp
          -- the separator fits into `s`, so it is no prefix with the text behind either
          have hfit : sep.length ≤ (c :: s).length := by
            rw [eq_append_of_splitOnce hrec]
            simp only [List.length_cons, List.length_append]
            omega
          have hpre' : ¬ sep.isPrefixOf (c :: s ++ t) = true := by
            intro hlong
            have hprefix := List.isPrefixOf_iff_prefix.mp hlong
            exact hpre (List.isPrefixOf_iff_prefix.mpr
              (List.prefix_of_prefix_length_le hprefix (List.prefix_append _ _) hfit))
          rw [if_neg hpre', ih hrec]
          rfl

end SynGateway.Python
