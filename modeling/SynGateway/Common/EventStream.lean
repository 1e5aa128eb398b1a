import Mathlib.Data.List.DropRight
import Mathlib.Data.List.Flatten

/-!
# The event-stream format

The line-based reading of `text/event-stream`: a line sets a field of the event under construction,
an empty line (and the end of the stream) ends the event. It is stated over an arbitrary alphabet
with a view of its letters as characters, because the format itself looks only at ASCII characters.

`events_flatMap` is what this gives: replacing each letter by other letters, a letter that is no
ASCII character by one or more that are none either, replaces the letters in the events and changes
nothing else.
-/

namespace SynGateway.EventStream

variable {α β : Type*}

/-- The values the lines have given to the fields `data`, `event` and `id`. -/
structure Fields (α : Type*) where
  data : List (List α) := []
  event : Option (List α) := none
  id : Option (List α) := none
deriving DecidableEq, Repr

/-- The line without the carriage returns at its end. -/
def stripCr (view : α → Char) (line : List α) : List α := line.rdropWhile fun a => view a = '\r'

/-- What stands before the first colon. -/
def fieldName (view : α → Char) (line : List α) : List α := line.takeWhile fun a => view a ≠ ':'

/-- The value without a single leading space. -/
def stripSpace (view : α → Char) : List α → List α
  | [] => []
  | a :: value => if view a = ' ' then value else a :: value

/-- What follows the first colon. -/
def fieldValue (view : α → Char) (line : List α) : List α :=
  stripSpace view (line.dropWhile fun a => view a ≠ ':').tail

/-- The effect of one line. Comments, other fields and lines without a field name change nothing. -/
def Fields.line (view : α → Char) (f : Fields α) (line : List α) : Fields α :=
  let line := stripCr view line
  let name := (fieldName view line).map view
  let value := fieldValue view line
  if name = ['d', 'a', 't', 'a'] then { f with data := f.data ++ [value] }
  else if name = ['e', 'v', 'e', 'n', 't'] then { f with event := some value }
  else if name = ['i', 'd'] then { f with id := some value }
  else f

/-- The fields make an event. -/
def Fields.live (f : Fields α) : Bool := !f.data.isEmpty || f.event.isSome

/-- The lines between two empty lines, read into their fields. -/
def blocks (view : α → Char) : Fields α → List (List α) → List (Fields α)
  | f, [] => [f]
  | f, [] :: lines => f :: blocks view {} lines
  | f, (a :: line) :: lines => blocks view (f.line view (a :: line)) lines

/-- The lines of a text. -/
def linesOf (view : α → Char) (text : List α) :
    List (List α) := text.splitOnP fun a => view a = '\n'

/-- The events of a text. -/
def events (view : α → Char) (text : List α) : List (Fields α) :=
  (blocks view {} (linesOf view text)).filter Fields.live

/-- The events that an empty line has ended. The last line of a text is not yet a whole one. -/
def completeEvents (view : α → Char) (text : List α) : List (Fields α) :=
  (blocks view {} (linesOf view text).dropLast).dropLast.filter Fields.live

/-! ## Substitution -/

/-- Replace each letter of the values. -/
def Fields.subst (σ : α → List β) (f : Fields α) : Fields β where
  data := f.data.map (List.flatMap σ)
  event := f.event.map (List.flatMap σ)
  id := f.id.map (List.flatMap σ)

/-- The format looks at ASCII characters only. -/
def IsAscii (c : Char) : Prop := c.toNat < 0x80

instance IsAscii.decidable (c : Char) : Decidable (IsAscii c) := inferInstanceAs (Decidable (_ < _))

/-- A letter is replaced in a way the format does not notice. -/
structure Renders (view : α → Char) (view' : β → Char) (σ : α → List β) (a : α) : Prop where
  ascii : IsAscii (view a) → ∃ b, σ a = [b] ∧ view' b = view a
  other : ¬ IsAscii (view a) → σ a ≠ [] ∧ ∀ b ∈ σ a, ¬ IsAscii (view' b)

variable {view : α → Char} {view' : β → Char} {σ : α → List β} {l line : List α} {c : Char}

namespace Renders

/-- For each ASCII character, a letter is replaced by that character alone or by letters that differ
from it. -/
theorem cases_of_ascii {a : α} (h : Renders view view' σ a) (hc : IsAscii c) :
    (view a = c ∧ ∃ b, σ a = [b] ∧ view' b = c) ∨ (view a ≠ c ∧ ∀ b ∈ σ a, view' b ≠ c) := by
  by_cases hascii : IsAscii (view a)
  · obtain ⟨b, hb, hview⟩ := h.ascii hascii
    by_cases heq : view a = c
    · exact .inl ⟨heq, b, hb, hview.trans heq⟩
    · refine .inr ⟨heq, ?_⟩
      rw [hb]
      rintro b' hb'
      rw [List.mem_singleton.mp hb', hview]
      exact heq
  · refine .inr ⟨?_, fun b hb heq => (h.other hascii).2 b hb (heq ▸ hc)⟩
    rintro rfl
    exact hascii hc

/-- A letter is written as at least one character. -/
theorem ne_nil {a : α} (h : Renders view view' σ a) : σ a ≠ [] := by
  by_cases hascii : IsAscii (view a)
  · obtain ⟨b, hb, -⟩ := h.ascii hascii
    rw [hb]
    simp
  · exact (h.other hascii).1

end Renders

/-- Only the empty text is written as nothing. -/
theorem flatMap_eq_nil (h : ∀ a ∈ l, Renders view view' σ a) : l.flatMap σ = [] ↔ l = [] := by
  cases l with
  | nil => simp
  | cons a l => simp [(h a (by simp)).ne_nil]

/-- Letters without a separator join the first part of what follows. -/
theorem splitOnP_append {p : α → Bool} {l rest : List α} (h : ∀ a ∈ l, p a = false) :
    (l ++ rest).splitOnP p = (rest.splitOnP p).modifyHead (l ++ ·) := by
  induction l with
  | nil =>
      simp only [List.nil_append]
      cases rest.splitOnP p <;> rfl
  | cons a l ih =>
      obtain ⟨ha, hl⟩ := List.forall_mem_cons.mp h
      rw [List.cons_append, List.splitOnP_cons_eq_if_modifyHead, ih hl]
      simp only [ha, Bool.false_eq_true, if_false]
      cases rest.splitOnP p <;> rfl

/-- Splitting at an ASCII character. -/
theorem splitOnP_flatMap (hc : IsAscii c) (h : ∀ a ∈ l, Renders view view' σ a) :
    (l.flatMap σ).splitOnP (fun b => view' b = c)
      = (l.splitOnP fun a => view a = c).map (List.flatMap σ) := by
  induction l with
  | nil => rfl
  | cons a l ih =>
      have hrec := ih fun b hb => h b (List.mem_cons_of_mem _ hb)
      rw [List.flatMap_cons, List.splitOnP_cons_eq_if_modifyHead]
      rcases (h a (by simp)).cases_of_ascii hc with ⟨ha, b, hb, hview⟩ | ⟨ha, hne⟩
      · simp [hb, ha, hview, List.splitOnP_cons_eq_if_modifyHead, hrec]
      · rw [splitOnP_append (by simpa using hne), hrec]
        simp only [ha, decide_false, Bool.false_eq_true, if_false]
        cases l.splitOnP (fun a => view a = c) <;> rfl

/-- Cutting before an ASCII character. -/
theorem takeWhile_flatMap (hc : IsAscii c) (h : ∀ a ∈ l, Renders view view' σ a) :
    (l.flatMap σ).takeWhile (fun b => view' b ≠ c)
      = (l.takeWhile fun a => view a ≠ c).flatMap σ ∧
    (l.flatMap σ).dropWhile (fun b => view' b ≠ c)
      = (l.dropWhile fun a => view a ≠ c).flatMap σ := by
  induction l with
  | nil => exact ⟨rfl, rfl⟩
  | cons a l ih =>
      obtain ⟨ihtake, ihdrop⟩ := ih fun b hb => h b (List.mem_cons_of_mem _ hb)
      rcases (h a (by simp)).cases_of_ascii hc with ⟨ha, b, hb, hview⟩ | ⟨ha, hne⟩
      · simp [hb, ha, hview]
      · have hall : ∀ b ∈ σ a, (fun b => decide (view' b ≠ c)) b = true := by simpa using hne
        rw [List.flatMap_cons, List.takeWhile_append_of_pos hall, List.dropWhile_append_of_pos hall,
          ihtake, ihdrop, List.takeWhile_cons_of_pos (by simpa using ha),
          List.dropWhile_cons_of_pos (by simpa using ha)]
        exact ⟨rfl, rfl⟩

/-- Trailing returns are stripped before the letters are written, or after. -/
theorem stripCr_flatMap (h : ∀ a ∈ l, Renders view view' σ a) :
    stripCr view' (l.flatMap σ) = (stripCr view l).flatMap σ := by
  induction l using List.reverseRecOn with
  | nil => rfl
  | append_singleton l a ih =>
      have hrec := ih fun b hb => h b (List.mem_append_left _ hb)
      rw [List.flatMap_append, List.flatMap_singleton]
      rcases (h a (by simp)).cases_of_ascii (c := '\r') (by decide) with ⟨ha, b, hb,
        hview⟩ | ⟨ha, hne⟩
      · -- the last letter is a return, and is written as one
        rw [hb, stripCr, List.rdropWhile_concat_pos _ _ _ (by simpa using hview), stripCr,
          List.rdropWhile_concat_pos _ _ _ (by simpa using ha)]
        exact hrec
      · -- it is not, so its text does not end in one
        obtain ⟨bs, b, hbs⟩ : ∃ bs b, σ a = bs ++ [b] :=
          ⟨_, _, (List.dropLast_append_getLast (h a (by simp)).ne_nil).symm⟩
        have hb : view' b ≠ '\r' := hne b (by simp [hbs])
        rw [hbs, ← List.append_assoc, stripCr, List.rdropWhile_concat_neg _ _ _ (by simpa using hb),
          stripCr, List.rdropWhile_concat_neg _ _ _ (by simpa using ha), List.flatMap_append,
          List.flatMap_singleton, hbs, List.append_assoc]

/-- A text of ASCII characters is replaced by itself, and other texts by other texts. -/
theorem map_flatMap_eq_iff {name : List Char} (hname : ∀ c ∈ name, IsAscii c)
    (h : ∀ a ∈ l, Renders view view' σ a) : (l.flatMap σ).map view' = name ↔ l.map view = name := by
  induction l generalizing name with
  | nil => rfl
  | cons a l ih =>
      have hl : ∀ b ∈ l, Renders view view' σ b := fun b hb => h b (List.mem_cons_of_mem _ hb)
      rw [List.flatMap_cons, List.map_append, List.map_cons]
      by_cases hascii : IsAscii (view a)
      · -- an ASCII letter is written as itself, any other as no ASCII letter
        obtain ⟨b, hb, hview⟩ := (h a (by simp)).ascii hascii
        rw [hb, List.map_singleton, List.singleton_append, hview]
        cases name with
        | nil => simp
        | cons c name =>
            have hrec := ih (fun c hc => hname c (List.mem_cons_of_mem _ hc)) hl
            simp only [List.cons.injEq, hrec]
      · obtain ⟨hne, hother⟩ := (h a (by simp)).other hascii
        obtain ⟨b, bs, hbs⟩ := List.exists_cons_of_ne_nil hne
        constructor
        · rintro rfl
          exact absurd (hname (view' b) (by simp [hbs])) (hother b (by simp [hbs]))
        · rintro rfl
          exact absurd (hname (view a) (by simp)) hascii

/-- The value of a field is read before its letters are written, or after. -/
theorem fieldValue_flatMap (h : ∀ a ∈ l, Renders view view' σ a) :
    fieldValue view' (l.flatMap σ) = (fieldValue view l).flatMap σ := by
  have htail : ((l.flatMap σ).dropWhile fun b => view' b ≠ ':').tail
      = ((l.dropWhile fun a => view a ≠ ':').tail).flatMap σ := by
    rw [(takeWhile_flatMap (by decide) h).2]
    cases hdrop : l.dropWhile (fun a => view a ≠ ':') with
    | nil => rfl
    | cons a rest =>
        -- what is left begins with the colon, which is replaced by itself
        have hmem : a ∈ l := (List.dropWhile_sublist _).subset (hdrop ▸ List.mem_cons_self)
        have hcolon : view a = ':' := by
          have hne : l.dropWhile (fun a => decide (view a ≠ ':')) ≠ [] := by
            rw [hdrop]
            exact List.cons_ne_nil _ _
          have hnot := List.head_dropWhile_not _ hne
          simpa only [hdrop, List.head_cons, decide_eq_false_iff_not, not_not] using hnot
        obtain ⟨b, hb, -⟩ := (h a hmem).ascii (hcolon ▸ by decide)
        rw [List.flatMap_cons, hb]
        rfl
  have hsub : ∀ a ∈ (l.dropWhile fun a => view a ≠ ':').tail, Renders view view' σ a := fun a ha =>
    h a ((List.dropWhile_sublist _).subset (List.mem_of_mem_tail ha))
  rw [fieldValue, fieldValue, htail]
  cases hvalue : (l.dropWhile fun a => view a ≠ ':').tail with
  | nil => rfl
  | cons a value =>
      have ha : Renders view view' σ a := hsub a (hvalue ▸ List.mem_cons_self)
      rcases ha.cases_of_ascii (c := ' ') (by decide) with ⟨hspace, b, hb, hview⟩ | ⟨hspace, hne⟩
      · simp [stripSpace, hb, hspace, hview]
      · obtain ⟨b, bs, hbs⟩ := List.exists_cons_of_ne_nil ha.ne_nil
        have hb : view' b ≠ ' ' := hne b (by simp [hbs])
        simp [stripSpace, hbs, hspace, hb]

/-- One line. -/
theorem Fields.line_subst (f : Fields α) (h : ∀ a ∈ line, Renders view view' σ a) :
    (f.subst σ).line view' (line.flatMap σ) = (f.line view line).subst σ := by
  have hstrip : ∀ a ∈ stripCr view line, Renders view view' σ a := fun a ha =>
    h a ((List.rdropWhile_prefix _ _).subset ha)
  have hname : ∀ name : List Char, (∀ c ∈ name, IsAscii c) →
      ((fieldName view' ((stripCr view line).flatMap σ)).map view' = name
        ↔ (fieldName view (stripCr view line)).map view = name) := by
    intro name hascii
    rw [fieldName, (takeWhile_flatMap (by decide) hstrip).1]
    exact map_flatMap_eq_iff hascii fun a ha => hstrip a ((List.takeWhile_sublist _).subset ha)
  -- the field names are ASCII, so both readings see the same field
  simp only [Fields.line, stripCr_flatMap h, fieldValue_flatMap hstrip,
    hname ['d', 'a', 't', 'a'] (by simp [IsAscii]),
    hname ['e', 'v', 'e', 'n', 't'] (by simp [IsAscii]), hname ['i', 'd'] (by simp [IsAscii])]
  split
  · simp [Fields.subst]
  · split
    · simp [Fields.subst]
    · split <;> simp [Fields.subst]

/-- All lines. -/
theorem blocks_subst (f : Fields α) (lines : List (List α))
    (h : ∀ line ∈ lines, ∀ a ∈ line, Renders view view' σ a) :
    blocks view' (f.subst σ) (lines.map (List.flatMap σ)) = (blocks view f lines).map
    (Fields.subst σ) := by
  induction lines generalizing f with
  | nil => rfl
  | cons line lines ih =>
      obtain ⟨hline, hlines⟩ := List.forall_mem_cons.mp h
      cases line with
      | nil =>
          simp only [List.map_cons, List.flatMap_nil, blocks]
          exact congrArg _ (ih {} hlines)
      | cons a line =>
          obtain ⟨b, bs, hbs⟩ :=
            List.exists_cons_of_ne_nil ((flatMap_eq_nil hline).not.mpr (by simp))
          rw [List.map_cons, hbs, blocks, ← hbs, f.line_subst hline, ih _ hlines, blocks]

/-- Letters of a line are letters of the text. -/
theorem mem_of_mem_linesOf {text : List α} (hline : line ∈ linesOf view text) {a : α}
    (ha : a ∈ line) :
    a ∈ text := by
  induction text generalizing line with
  | nil =>
      rw [linesOf, List.splitOnP_nil, List.mem_singleton] at hline
      simp [hline] at ha
  | cons b text ih =>
      rw [linesOf, List.splitOnP_cons_eq_if_modifyHead] at hline
      split at hline
      · rcases List.mem_cons.mp hline with rfl | hline
        · simp at ha
        · exact List.mem_cons_of_mem _ (ih hline ha)
      · -- the letter goes to the front of the first line
        rw [linesOf] at ih
        cases hsplit : text.splitOnP (fun a => view a = '\n') with
        | nil => exact absurd hsplit (List.splitOnP_ne_nil _ _)
        | cons first rest =>
            rw [hsplit] at hline ih
            rcases List.mem_cons.mp hline with rfl | hline
            · rcases List.mem_cons.mp ha with rfl | ha
              · simp
              · exact List.mem_cons_of_mem _ (ih List.mem_cons_self ha)
            · exact List.mem_cons_of_mem _ (ih (List.mem_cons_of_mem _ hline) ha)

/-- The events of a text whose letters are replaced are the events of the text, with their letters
replaced. -/
theorem events_flatMap {text : List α} (h : ∀ a ∈ text, Renders view view' σ a) :
    events view' (text.flatMap σ) = (events view text).map (Fields.subst σ) := by
  have hlines : linesOf view' (text.flatMap σ) = (linesOf view text).map (List.flatMap σ) :=
    splitOnP_flatMap (by decide) h
  have hblocks := blocks_subst (σ := σ) {} (linesOf view text) fun line hline a ha =>
    h a (mem_of_mem_linesOf hline ha)
  have hlive : ∀ f : Fields α, (f.subst σ).live = f.live := by
    intro f
    simp [Fields.live, Fields.subst]
  rw [events, hlines]
  refine (congrArg _ hblocks).trans ?_
  rw [List.filter_map, events]
  congr 1
  exact List.filter_congr fun f _ => hlive f

/-! ## The letters of the values -/

/-- The letters of all values. -/
def Fields.letters (f : Fields α) : List α := f.data.flatten ++ (f.event.getD [] ++ f.id.getD [])

/-- A field value consists of letters of its line. -/
theorem mem_of_mem_fieldValue {a : α} (h : a ∈ fieldValue view line) : a ∈ line := by
  have hsub : fieldValue view line <:+ (line.dropWhile fun a => view a ≠ ':').tail := by
    rw [fieldValue]
    cases (line.dropWhile fun a => view a ≠ ':').tail with
    | nil => exact List.suffix_refl _
    | cons b value =>
        rw [stripSpace]
        split
        · exact List.suffix_cons _ _
        · exact List.suffix_refl _
  exact (List.dropWhile_sublist _).subset (List.mem_of_mem_tail (hsub.subset h))

/-- A line adds only letters of its own. -/
theorem Fields.mem_letters_line {f : Fields α} {a : α} (h : a ∈ (f.line view line).letters) :
    a ∈ f.letters ∨ a ∈ line := by
  have hvalue : a ∈ fieldValue view (stripCr view line) → a ∈ line := fun hmem =>
    (List.rdropWhile_prefix _ _).subset (mem_of_mem_fieldValue hmem)
  simp only [Fields.line] at h
  split at h
  · simp only [Fields.letters, List.flatten_append, List.flatten_singleton, List.mem_append] at h ⊢
    tauto
  · split at h
    · simp only [Fields.letters, Option.getD_some, List.mem_append] at h ⊢
      tauto
    · split at h
      · simp only [Fields.letters, Option.getD_some, List.mem_append] at h ⊢
        tauto
      · exact .inl h

/-- The letters of a block come from its lines, or from the block before them. -/
theorem mem_of_mem_blocks {lines : List (List α)} {f g : Fields α} {a : α}
    (hg : g ∈ blocks view f lines) (ha : a ∈ g.letters) :
    a ∈ f.letters ∨ ∃ line ∈ lines, a ∈ line := by
  induction lines generalizing f with
  | nil =>
      rw [blocks, List.mem_singleton] at hg
      exact .inl (hg ▸ ha)
  | cons line lines ih =>
      cases line with
      | nil =>
          -- an empty line closes the block that was open
          rw [blocks] at hg
          rcases List.mem_cons.mp hg with rfl | hg
          · exact .inl ha
          · rcases ih hg with hnil | ⟨line, hline, hmem⟩
            · simp [Fields.letters] at hnil
            · exact .inr ⟨line, List.mem_cons_of_mem _ hline, hmem⟩
      | cons b line =>
          rw [blocks] at hg
          -- any other line adds to the open block
          rcases ih hg with hmem | ⟨line', hline, hmem⟩
          · rcases Fields.mem_letters_line hmem with hmem | hmem
            · exact .inl hmem
            · exact .inr ⟨_, List.mem_cons_self, hmem⟩
          · exact .inr ⟨line', List.mem_cons_of_mem _ hline, hmem⟩

/-- The letters of the events are letters of the text. -/
theorem mem_of_mem_events {text : List α} {f : Fields α} {a : α} (hf : f ∈ events view text)
    (ha : a ∈ f.letters) : a ∈ text := by
  rcases mem_of_mem_blocks (List.mem_of_mem_filter hf) ha with hnil | ⟨line, hline, hmem⟩
  · simp [Fields.letters] at hnil
  · exact mem_of_mem_linesOf hline hmem

/-- Two replacements of the same letters. -/
theorem Fields.subst_congr {f : Fields α} {τ : α → List β} (h : ∀ a ∈ f.letters, σ a = τ a) :
    f.subst σ = f.subst τ := by
  have hvalue : ∀ value : List α, (∀ a ∈ value, a ∈ f.letters) →
      value.flatMap σ = value.flatMap τ :=
    fun value hsub => List.flatMap_congr fun a ha => h a (hsub a ha)
  rw [Fields.subst, Fields.subst]
  congr 1
  · refine List.map_congr_left fun value hvalue' => hvalue value fun a ha => ?_
    exact List.mem_append_left _ (List.mem_flatten_of_mem hvalue' ha)
  · cases hevent : f.event with
    | none => rfl
    | some value =>
        exact congrArg some (hvalue value fun a ha => by simp [Fields.letters, hevent, ha])
  · cases hid : f.id with
    | none => rfl
    | some value => exact congrArg some (hvalue value fun a ha => by simp [Fields.letters, hid, ha])

/-! ## Blocks put together -/

/-- The fields that the lines of one block and then those of another set. -/
def Fields.merge (f g : Fields α) : Fields α where
  data := f.data ++ g.data
  event := g.event <|> f.event
  id := g.id <|> f.id

/-- Nothing is added by an empty block. -/
@[simp] theorem Fields.merge_empty (f : Fields α) : f.merge {} = f := by
  simp [Fields.merge]

/-- Blocks are joined in any order of brackets. -/
theorem Fields.merge_assoc (f g h : Fields α) : (f.merge g).merge h = f.merge (g.merge h) := by
  simp only [Fields.merge, List.append_assoc, Fields.mk.injEq, true_and]
  constructor
  · cases h.event <;> rfl
  · cases h.id <;> rfl

/-- An empty line sets nothing. -/
theorem Fields.line_nil (f : Fields α) : f.line view [] = f := by
  simp [Fields.line, stripCr, fieldName]

/-- The effect of a line does not depend on the fields before it. -/
theorem Fields.line_eq_merge (f : Fields α) (line : List α) :
    f.line view line = f.merge (Fields.line view {} line) := by
  simp only [Fields.line]
  split
  · rfl
  · split
    · simp [Fields.merge]
    · split <;> simp [Fields.merge]

/-- Lines that continue a block are read as a block of their own, and joined. -/
theorem foldl_line_eq_merge (f : Fields α) (lines : List (List α)) :
    lines.foldl (Fields.line view) f = f.merge (lines.foldl (Fields.line view) {}) := by
  induction lines generalizing f with
  | nil => exact f.merge_empty.symm
  | cons line lines ih =>
      rw [List.foldl_cons, List.foldl_cons, ih, f.line_eq_merge, Fields.merge_assoc, ← ih]

/-- Reading all lines as one block puts the blocks together. -/
theorem foldl_line_eq_blocks (f : Fields α) (lines : List (List α)) :
    lines.foldl (Fields.line view) f = (blocks view f lines).foldr Fields.merge {} := by
  induction lines generalizing f with
  | nil => exact f.merge_empty.symm
  | cons line lines ih =>
      cases line with
      | nil =>
          rw [List.foldl_cons, Fields.line_nil, blocks, List.foldr_cons, ← ih, foldl_line_eq_merge]
      | cons a line => rw [List.foldl_cons, blocks, ih]

/-- A block that is not dispatched has neither data nor an event. -/
theorem Fields.of_not_live {f : Fields α} (h : f.live = false) : f.data = [] ∧ f.event = none := by
  simpa [Fields.live] using h

/-- Blocks without an event put together make no event. -/
theorem not_live_of_filter {bs : List (Fields α)} (h : bs.filter Fields.live = []) :
    (bs.foldr Fields.merge {}).live = false := by
  induction bs with
  | nil => rfl
  | cons b bs ih =>
      rw [List.filter_cons] at h
      split at h
      · simp at h
      · next hb =>
          obtain ⟨hdata, hevent⟩ := Fields.of_not_live (ih h)
          obtain ⟨hdata', hevent'⟩ := Fields.of_not_live (by simpa using hb)
          simp [Fields.merge, Fields.live, hdata, hevent, hdata', hevent']

/-- Blocks with one event put together make an event with its data and its name. -/
theorem merge_of_filter {bs : List (Fields α)} {f : Fields α} (h : bs.filter Fields.live = [f]) :
    (bs.foldr Fields.merge {}).data = f.data ∧ (bs.foldr Fields.merge {}).event = f.event := by
  induction bs with
  | nil => simp at h
  | cons b bs ih =>
      rw [List.filter_cons] at h
      split at h
      · obtain ⟨rfl, hrest⟩ := List.cons.inj h
        obtain ⟨hdata, hevent⟩ := Fields.of_not_live (not_live_of_filter hrest)
        simp [Fields.merge, hdata, hevent]
      · next hb =>
          obtain ⟨hdata, hevent⟩ := ih h
          obtain ⟨hdata', hevent'⟩ := Fields.of_not_live (by simpa using hb)
          simp [Fields.merge, hdata, hevent, hdata', hevent']

/-! ## Complete events -/

/-- There is always a last block, dispatched or not. -/
theorem blocks_ne_nil (f : Fields α) (lines : List (List α)) : blocks view f lines ≠ [] := by
  induction lines generalizing f with
  | nil => exact List.cons_ne_nil _ _
  | cons line lines ih =>
      cases line with
      | nil => exact List.cons_ne_nil _ _
      | cons a line => exact ih _

/-- Further lines leave the blocks that have ended alone. -/
theorem dropLast_blocks_prefix_append (f : Fields α) (lines lines' : List (List α)) :
    (blocks view f lines).dropLast <+: blocks view f (lines ++ lines') := by
  induction lines generalizing f with
  | nil => exact List.nil_prefix
  | cons line lines ih =>
      cases line with
      | nil =>
          rw [List.cons_append, blocks, blocks, List.dropLast_cons_of_ne_nil (blocks_ne_nil _ _)]
          exact List.prefix_cons_inj _ |>.mpr (ih {})
      | cons a line => exact ih _

/-- The complete events are the first of all events. -/
theorem completeEvents_prefix_events (text : List α) :
    completeEvents view text <+: events view text := by
  have hlines : linesOf view text ≠ [] := List.splitOnP_ne_nil _ _
  have hprefix : (blocks view {} (linesOf view text).dropLast).dropLast <+:
      blocks view {} ((linesOf view text).dropLast ++ [(linesOf view text).getLast hlines]) :=
    dropLast_blocks_prefix_append _ _ _
  rw [List.dropLast_append_getLast] at hprefix
  exact hprefix.filter _

end SynGateway.EventStream
