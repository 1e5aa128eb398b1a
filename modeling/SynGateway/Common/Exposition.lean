import Mathlib.Data.List.Infix

/-!
# The text format of metrics

Lines of text that are blank, comments, or samples `name{label="value",...} number`. A line `# TYPE
name kind` declares a family of metrics, whose samples are the lines up to the next blank line or
comment.

`render` writes families, with a blank line between them. What it writes is well formed exactly if
every family has samples, all under its own name (`wellFormed_render_iff`).
-/

namespace SynGateway.Exposition

/-! ## Samples -/

/-- A text that begins with a character of `start` and goes on with these and digits. -/
def isWord (start : Char → Bool) : List Char → Bool
  | [] => false
  | c :: s => start c && s.all fun d => start d || d.isDigit

/-- `[a-zA-Z_:][a-zA-Z0-9_:]*`. -/
def isName : List Char → Bool := isWord fun c => c.isAlpha || c = '_' || c = ':'

/-- `[a-zA-Z_][a-zA-Z0-9_]*`. -/
def isLabelName : List Char → Bool := isWord fun c => c.isAlpha || c = '_'

/-- A value between quotes, with `\\`, `\"` and `\n` for what may not stand there. -/
def isEscaped : List Char → Bool
  | [] => true
  | '\\' :: c :: s => (c = '\\' || c = '"' || c = 'n') && isEscaped s
  | c :: s => (c ≠ '\\' && c ≠ '"' && c ≠ '\n') && isEscaped s

/-- A label with a name and a value. -/
structure Label where
  name : List Char
  value : List Char
  name_ok : isLabelName name = true
  value_ok : isEscaped value = true

/-- `name="value"`. -/
def Label.text (label : Label) : List Char := label.name ++ '=' :: '"' :: (label.value ++ ['"'])

/-- No label set, or labels between two braces. -/
inductive IsLabelSet : List Char → Prop
  | none : IsLabelSet []
  | braces (labels : List Label) :
  IsLabelSet ('\x7b' :: ([','].intercalate (labels.map Label.text) ++ ['\x7d']))

/-- One digit or more. -/
def IsDigits (s : List Char) : Prop := s ≠ [] ∧ ∀ c ∈ s, c.isDigit = true

def IsSign (s : List Char) : Prop := s = [] ∨ s = ['+'] ∨ s = ['-']

/-- Digits, possibly with a point and an exponent. -/
structure IsDecimal (s : List Char) : Prop where
  parts : ∃ integer fraction exponent, s = integer ++ (fraction ++ exponent) ∧ IsDigits integer ∧
    (fraction = [] ∨ ∃ digits, fraction = '.' :: digits ∧ ∀ c ∈ digits, c.isDigit = true) ∧
    (exponent = [] ∨ ∃ sign digits, exponent = 'e' :: (sign ++ digits) ∧ IsSign sign ∧
      IsDigits digits)

/-- A decimal number, possibly with a sign. -/
structure IsNumber (s : List Char) : Prop where
  parts : ∃ sign decimal, s = sign ++ decimal ∧ IsSign sign ∧ IsDecimal decimal

/-- `name labels number`, where the label set follows the name at once. -/
structure IsSample (name line : List Char) : Prop where
  name_ok : isName name = true
  parts : ∃ labels number, line = name ++ labels ++ ' ' :: number ∧ IsLabelSet labels ∧
    IsNumber number

/-! ## Texts -/

/-- The family that a `# TYPE` line declares. -/
def declares (line : List Char) : Option (List Char) :=
  if "# TYPE ".toList.isPrefixOf line then some ((line.drop 7).takeWhile (· ≠ ' ')) else none

/-- Neither blank nor a comment. -/
def isSampleLine (line : List Char) : Bool := line ≠ [] && line.head? ≠ some '#'

/-- The lines are samples of the family, and there are some. -/
def Owns (name : List Char) (block : List (List Char)) :
    Prop := block ≠ [] ∧ ∀ line ∈ block, IsSample name line

/-- What follows each `# TYPE` line are samples of the family that it declares. -/
def OwnSamples (lines : List (List Char)) : Prop :=
  ∀ line after, line :: after <:+ lines →
    ∀ name ∈ declares line, Owns name (after.takeWhile isSampleLine)

/-- Every line is blank, a comment or a sample, and every family that is declared has samples of its
own. -/
structure WellFormed (text : List Char) : Prop where
  lines : ∀ line ∈ text.splitOn '\n', line = [] ∨ line.head? = some '#' ∨ ∃ name, IsSample name line
  samples : OwnSamples (text.splitOn '\n')

/-- A family with what its `# HELP` and `# TYPE` lines say, and its sample lines. -/
structure Family where
  name : List Char
  help : List Char
  kind : List Char
  samples : List (List Char)

namespace Family

def helpLine (family : Family) : List Char := "# HELP ".toList ++ family.name ++ ' ' :: family.help

def typeLine (family : Family) :
    List Char := "# TYPE ".toList ++ (family.name ++ ' ' :: family.kind)

def lines (family : Family) :
    List (List Char) := family.helpLine :: family.typeLine :: family.samples

/-- Every part stays on its line, the name is one word, and no sample reads as a blank line or a
comment. -/
structure Printable (family : Family) : Prop where
  name : ∀ c ∈ family.name, c ≠ '\n' ∧ c ≠ ' '
  help : '\n' ∉ family.help
  kind : '\n' ∉ family.kind
  samples : ∀ line ∈ family.samples, '\n' ∉ line ∧ isSampleLine line = true

end Family

/-- The families with a blank line between them. -/
def render (families : List Family) : List Char :=
  ['\n'].intercalate ([[]].intercalate (families.map Family.lines)) ++ ['\n']

variable {c : Char} {s name line block : List Char} {lines rest : List (List Char)}
  {families : List Family} {family : Family}

/-! ## Joining -/

section Intercalate

variable {α : Type*} (sep : List α) (ls : List (List α))

/-- The last line is not followed by a separator. -/
theorem intercalate_concat (l : List α) :
    sep.intercalate (ls ++ [l]) = ls.flatMap (· ++ sep) ++ l := by
  induction ls with
  | nil => rw [List.nil_append, List.intercalate_singleton, List.flatMap_nil, List.nil_append]
  | cons l' ls ih =>
      rw [List.cons_append, List.intercalate_cons_of_ne_nil (by simp), ih, List.flatMap_cons]
      simp only [List.append_assoc]

/-- The text begins with its first line. -/
theorem intercalate_cons (l : List α) : ∃ t, sep.intercalate (l :: ls) = l ++ t := by
  cases ls with
  | nil => exact ⟨[], by rw [List.intercalate_singleton, List.append_nil]⟩
  | cons l' ls => exact ⟨_, by rw [List.intercalate_cons_cons, List.append_assoc]⟩

/-- With a separator behind the last part too, each part has one behind it. -/
theorem intercalate_append_sep (h : ls ≠ []) :
    sep.intercalate ls ++ sep = ls.flatMap (· ++ sep) := by
  obtain ⟨front, last, rfl⟩ := (List.eq_nil_or_concat ls).resolve_left h
  rw [List.concat_eq_append, intercalate_concat, List.flatMap_append, List.flatMap_singleton,
    List.append_assoc]

end Intercalate

/-! ## Numbers and samples stay on a line -/

/-- A digit is no line break. -/
theorem ne_newline_of_isDigit (h : c.isDigit = true) : c ≠ '\n' := by
  rintro rfl
  cases h

/-- No line break in a sign. -/
theorem IsSign.newline_notMem (h : IsSign s) : '\n' ∉ s := by
  rcases h with rfl | rfl | rfl <;> decide

/-- No line break in a run of digits. -/
theorem IsDigits.newline_notMem (h : IsDigits s) : '\n' ∉ s := fun hmem =>
  ne_newline_of_isDigit (h.2 _ hmem) rfl

/-- No line break in a decimal. -/
theorem IsDecimal.newline_notMem (h : IsDecimal s) : '\n' ∉ s := by
  obtain ⟨integer, fraction, exponent, rfl, hinteger, hfraction, hexponent⟩ := h.parts
  refine List.not_mem_append hinteger.newline_notMem (List.not_mem_append ?_ ?_)
  · rcases hfraction with rfl | ⟨digits, rfl, hdigits⟩
    · exact List.not_mem_nil
    · exact List.not_mem_cons_of_ne_of_not_mem (by decide)
        fun hmem => ne_newline_of_isDigit (hdigits _ hmem) rfl
  · rcases hexponent with rfl | ⟨sign, digits, rfl, hsign, hdigits⟩
    · exact List.not_mem_nil
    · exact List.not_mem_cons_of_ne_of_not_mem (by decide)
        (List.not_mem_append hsign.newline_notMem hdigits.newline_notMem)

/-- No line break in a number. -/
theorem IsNumber.newline_notMem (h : IsNumber s) : '\n' ∉ s := by
  obtain ⟨sign, decimal, rfl, hsign, hdecimal⟩ := h.parts
  exact List.not_mem_append hsign.newline_notMem hdecimal.newline_notMem

/-- An integer. -/
theorem IsDigits.isDecimal (h : IsDigits s) : IsDecimal s :=
  ⟨s, [], [], by simp, h, .inl rfl, .inl rfl⟩

/-- An integer and a fraction. -/
theorem IsDigits.isDecimal_point {digits : List Char} (h : IsDigits s)
    (hdigits : ∀ c ∈ digits, c.isDigit = true) : IsDecimal (s ++ '.' :: digits) :=
  ⟨s, '.' :: digits, [], by simp, h, .inr ⟨digits, rfl, hdigits⟩, .inl rfl⟩

/-- The first character of a word and the others. -/
theorem isWord_cons {start : Char → Bool} (h : isWord start s = true) :
    ∃ c rest, s = c :: rest ∧ start c = true ∧ ∀ d ∈ s, start d = true ∨ d.isDigit = true := by
  cases s with
  | nil => cases h
  | cons c rest =>
      rw [isWord, Bool.and_eq_true, List.all_eq_true] at h
      refine ⟨c, rest, rfl, h.1, fun d hd => ?_⟩
      rcases List.mem_cons.mp hd with rfl | hd
      · exact .inl h.1
      · exact Bool.or_eq_true _ _ ▸ h.2 d hd

/-- No line break in a word. -/
theorem newline_notMem_of_isWord {start : Char → Bool} (hstart : start '\n' = false)
    (h : isWord start s = true) : '\n' ∉ s := by
  obtain ⟨_, _, -, -, hall⟩ := isWord_cons h
  intro hmem
  rcases hall _ hmem with hc | hc
  · rw [hstart] at hc
    cases hc
  · exact ne_newline_of_isDigit hc rfl

/-- No line break in a text that is escaped. -/
theorem newline_notMem_of_isEscaped (h : isEscaped s = true) : '\n' ∉ s := by
  induction s using isEscaped.induct with
  | case1 => exact List.not_mem_nil
  | case2 c s ih =>
      simp only [isEscaped, Bool.and_eq_true, Bool.or_eq_true, decide_eq_true_eq] at h
      refine List.not_mem_cons_of_ne_of_not_mem (by decide)
        (List.not_mem_cons_of_ne_of_not_mem ?_ (ih h.2))
      rcases h.1 with (rfl | rfl) | rfl <;> decide
  | case3 c s hne ih =>
      rw [isEscaped] at h
      · simp only [Bool.and_eq_true, decide_eq_true_eq] at h
        exact List.not_mem_cons_of_ne_of_not_mem (Ne.symm h.1.2) (ih h.2)
      · exact hne

/-- No line break in a label. -/
theorem Label.newline_notMem (label : Label) : '\n' ∉ label.text :=
  List.not_mem_append (newline_notMem_of_isWord (by decide) label.name_ok)
    (List.not_mem_cons_of_ne_of_not_mem (by decide) (List.not_mem_cons_of_ne_of_not_mem (by decide)
      (List.not_mem_append (newline_notMem_of_isEscaped label.value_ok) (by decide))))

/-- No line break in a set of labels. -/
theorem IsLabelSet.newline_notMem (h : IsLabelSet s) : '\n' ∉ s := by
  cases h with
  | none => exact List.not_mem_nil
  | braces labels =>
      refine List.not_mem_cons_of_ne_of_not_mem (by decide) (List.not_mem_append ?_ (by decide))
      induction labels with
      | nil => exact List.not_mem_nil
      | cons label labels ih =>
          cases labels with
          | nil =>
              rw [List.map_singleton, List.intercalate_singleton]
              exact label.newline_notMem
          | cons label' labels =>
              rw [List.map_cons, List.intercalate_cons_of_ne_nil (by simp)]
              exact List.not_mem_append (List.not_mem_append label.newline_notMem (by decide)) ih

/-- A sample is a line that is neither blank nor a comment. -/
theorem IsSample.isSampleLine (h : IsSample name line) :
    '\n' ∉ line ∧ isSampleLine line = true := by
  obtain ⟨labels, number, rfl, hlabels, hnumber⟩ := h.parts
  refine ⟨List.not_mem_append (List.not_mem_append
    (newline_notMem_of_isWord (by decide) h.name_ok) hlabels.newline_notMem)
    (List.not_mem_cons_of_ne_of_not_mem (by decide) hnumber.newline_notMem), ?_⟩
  obtain ⟨c, rest, rfl, hc, -⟩ := isWord_cons h.name_ok
  have hne : c ≠ '#' := by
    rintro rfl
    exact absurd hc (by decide)
  simp [Exposition.isSampleLine, hne]

/-- A sample with one label. -/
theorem isSample_label (hname : isName name = true) (label : Label) {number : List Char}
    (hnumber : IsNumber number) :
    IsSample name (name ++ '\x7b' :: (label.text ++ ['\x7d']) ++ ' ' :: number) := by
  have hlabels := IsLabelSet.braces [label]
  rw [List.map_singleton, List.intercalate_singleton] at hlabels
  exact ⟨hname, _, number, rfl, hlabels, hnumber⟩

/-- A sample without labels. -/
theorem isSample_bare (hname : isName name = true) {number : List Char}
    (hnumber : IsNumber number) :
    IsSample name (name ++ ' ' :: number) :=
  ⟨hname, [], number, by rw [List.append_nil], .none, hnumber⟩

/-- A second brace is no label. -/
theorem not_isSample_doubled (name rest : List Char) :
    ¬ IsSample name (name ++ '\x7b' :: '\x7b' :: rest) := by
  intro h
  obtain ⟨labels, number, heq, hlabels, -⟩ := h.parts
  rw [List.append_assoc] at heq
  have htail := List.append_cancel_left heq
  cases hlabels with
  | none => cases htail
  | braces labels =>
      have hinner := (List.cons.inj htail).2
      cases labels with
      | nil => cases hinner
      | cons label labels =>
          -- a second brace is no letter that a label name may begin with
          obtain ⟨c, after, hname, hc, -⟩ := isWord_cons label.name_ok
          obtain ⟨t, ht⟩ := intercalate_cons [','] (labels.map Label.text) label.text
          rw [List.map_cons, ht, Label.text, hname] at hinner
          obtain ⟨rfl, -⟩ := List.cons.inj hinner
          exact absurd hc (by decide)

/-! ## The lines of what is rendered -/

/-- The lines of a family and a blank line. -/
def Family.paragraph (family : Family) : List (List Char) := family.lines ++ [[]]

/-- The lines of a printable family are lines. -/
theorem Family.Printable.newline_notMem (h : family.Printable) :
    ∀ line ∈ family.paragraph, '\n' ∉ line := by
  have hname : '\n' ∉ family.name := fun hmem => (h.name _ hmem).1 rfl
  intro line hline
  simp only [paragraph, lines, List.cons_append, List.mem_cons, List.mem_append, List.not_mem_nil,
    or_false] at hline
  rcases hline with rfl | rfl | hsample | rfl
  · exact List.not_mem_append (List.not_mem_append (by decide) hname)
      (List.not_mem_cons_of_ne_of_not_mem (by decide) h.help)
  · exact List.not_mem_append (by decide) (List.not_mem_append hname
      (List.not_mem_cons_of_ne_of_not_mem (by decide) h.kind))
  · exact (h.samples line hsample).1
  · exact List.not_mem_nil

/-- The text consists of the paragraphs of the families. -/
theorem splitOn_render (hne : families ≠ []) (h : ∀ family ∈ families, family.Printable) :
    (render families).splitOn '\n' = families.flatMap Family.paragraph := by
  let lines := [[]].intercalate (families.map Family.lines)
  have hlines : lines ++ [[]] = families.flatMap Family.paragraph := by
    rw [intercalate_append_sep _ _ (by simpa using hne), List.flatMap_map]
    rfl
  have hnonempty : lines ≠ [] := by
    obtain ⟨family, families, rfl⟩ := List.exists_cons_of_ne_nil hne
    intro hnil
    have hlength := congrArg List.length hlines
    rw [hnil, List.flatMap_cons, List.length_append] at hlength
    simp only [Family.paragraph, Family.lines, List.length_cons, List.length_append,
      List.length_nil] at hlength
    omega
  -- the newline at the end is the separator before an empty last line
  have hrender : render families = ['\n'].intercalate (lines ++ [[]]) := by
    rw [intercalate_concat, List.append_nil, ← intercalate_append_sep _ _ hnonempty]
    rfl
  rw [hrender, hlines]
  refine List.splitOn_intercalate '\n' (fun line hline => ?_) (hlines ▸ by simp)
  obtain ⟨family, hfamily, hmem⟩ := List.mem_flatMap.mp hline
  exact (h family hfamily).newline_notMem line hmem

/-! ## Families and their samples -/

/-- An empty page declares nothing. -/
theorem ownSamples_nil : OwnSamples [] := fun line after h => by
  cases List.suffix_nil.mp h

/-- A page owns its samples line by line. -/
theorem ownSamples_cons : OwnSamples (line :: rest) ↔
    (∀ name ∈ declares line, Owns name (rest.takeWhile isSampleLine)) ∧ OwnSamples rest := by
  constructor
  · intro h
    exact ⟨h line rest (List.suffix_refl _), fun line' after hsuffix =>
      h line' after (hsuffix.trans (List.suffix_cons _ _))⟩
  · rintro ⟨hline, hrest⟩ line' after hsuffix
    rcases List.suffix_cons_iff.mp hsuffix with heq | hsuffix
    · obtain ⟨rfl, rfl⟩ := List.cons.inj heq
      exact hline
    · exact hrest line' after hsuffix

/-- Lines that declare nothing have no samples to look for. -/
theorem ownSamples_append (h : ∀ line ∈ lines, declares line = none) :
    OwnSamples (lines ++ rest) ↔ OwnSamples rest := by
  induction lines with
  | nil => rfl
  | cons line lines ih =>
      rw [List.cons_append, ownSamples_cons, ih fun line' hmem =>
        h line' (List.mem_cons_of_mem _ hmem)]
      rw [h line List.mem_cons_self]
      exact and_iff_right (fun name hname => nomatch hname)

/-- A line that is no comment declares nothing. -/
theorem declares_of_isSampleLine (h : isSampleLine line = true) : declares line = none := by
  cases line with
  | nil => cases h
  | cons c line =>
      simp only [isSampleLine, List.head?_cons, Bool.and_eq_true, decide_eq_true_eq, ne_eq,
        Option.some.injEq] at h
      refine if_neg fun hpre => h.2 ?_
      obtain ⟨after, hafter⟩ := List.isPrefixOf_iff_prefix.mp hpre
      exact (List.cons.inj hafter).1.symm

namespace Family

/-- The type line declares the family. -/
theorem declares_typeLine (h : family.Printable) : declares family.typeLine = some family.name := by
  have hname : ∀ c ∈ family.name, decide (c ≠ ' ') = true :=
    fun c hc => decide_eq_true (h.name c hc).2
  have hdrop : family.typeLine.drop 7 = family.name ++ ' ' :: family.kind := rfl
  rw [declares, hdrop, List.takeWhile_append_of_pos hname, List.takeWhile_cons_of_neg (by decide),
    List.append_nil]
  rfl

/-- The help line declares nothing. -/
theorem declares_helpLine (family : Family) : declares family.helpLine = none := rfl

/-- A family's samples are those of its paragraph. -/
theorem takeWhile_samples (h : family.Printable) (rest : List (List Char)) :
    (family.samples ++ [] :: rest).takeWhile isSampleLine = family.samples := by
  rw [List.takeWhile_append_of_pos fun line hline => (h.samples line hline).2,
    List.takeWhile_cons_of_neg (by decide), List.append_nil]

/-- A family owns the samples behind its header, and the rest of the page its own. -/
theorem ownSamples_paragraph (h : family.Printable) :
    OwnSamples (family.paragraph ++ rest) ↔ Owns family.name family.samples ∧ OwnSamples rest := by
  have htext : family.paragraph ++ rest =
      family.helpLine :: family.typeLine :: (family.samples ++ [] :: rest) := by
    simp [paragraph, Family.lines]
  rw [htext, ownSamples_cons, ownSamples_cons, declares_helpLine, declares_typeLine h,
    takeWhile_samples h rest,
    ownSamples_append fun line hline => declares_of_isSampleLine (h.samples line hline).2,
      ownSamples_cons]
  constructor
  · rintro ⟨-, howns, -, hrest⟩
    exact ⟨howns _ rfl, hrest⟩
  · rintro ⟨howns, hrest⟩
    refine ⟨(fun _ hname => nomatch hname),
      fun name hname => ?_, (fun _ hname => nomatch hname), hrest⟩
    obtain rfl := Option.some.inj hname
    exact howns

end Family

/-- **What is rendered is well formed** exactly if every family has samples, all under its own name.
-/
theorem wellFormed_render_iff (hne : families ≠ []) (h : ∀ family ∈ families, family.Printable) :
    WellFormed (render families) ↔ ∀ family ∈ families, Owns family.name family.samples := by
  have hown : OwnSamples (families.flatMap Family.paragraph) ↔
      ∀ family ∈ families, Owns family.name family.samples := by
    clear hne
    induction families with
    | nil => simp [ownSamples_nil]
    | cons family families ih =>
        rw [List.flatMap_cons, Family.ownSamples_paragraph (h family List.mem_cons_self),
          ih fun family' hmem => h family' (List.mem_cons_of_mem _ hmem), List.forall_mem_cons]
  constructor
  · intro hwell
    exact hown.mp (splitOn_render hne h ▸ hwell.samples)
  · intro howns
    refine ⟨fun line hline => ?_, splitOn_render hne h ▸ hown.mpr howns⟩
    rw [splitOn_render hne h] at hline
    obtain ⟨family, hfamily, hmem⟩ := List.mem_flatMap.mp hline
    simp only [Family.paragraph, Family.lines, List.cons_append, List.mem_cons, List.mem_append,
      List.not_mem_nil, or_false] at hmem
    -- a comment line, a sample of the family, or the empty line behind it
    rcases hmem with rfl | rfl | hsample | rfl
    · exact .inr (.inl rfl)
    · exact .inr (.inl rfl)
    · exact .inr (.inr ⟨family.name, (howns family hfamily).2 line hsample⟩)
    · exact .inl rfl

end SynGateway.Exposition
