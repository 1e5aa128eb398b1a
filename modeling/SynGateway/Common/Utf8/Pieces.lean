import Mathlib.Algebra.Group.Nat.Defs
import SynGateway.Common.Utf8.Decode
import Mathlib.Data.List.Flatten

/-!
# Decoding UTF-8 piece by piece

A byte string that arrives in pieces can be decoded piece by piece, which goes wrong where a piece
ends inside a character. `units` cuts the whole byte string into the groups that `decode` turns into
one character each, and a group is `cut` when a piece begins inside it. Decoding piece by piece is
then a substitution on the groups (`flatMap_decode`): one that is not cut gives its one character,
and a cut one, which is never an ASCII byte, gives two or more replacements (`UnitOk`).
-/

namespace SynGateway.Utf8

/-- A byte, and whether it is the first one of a piece. -/
abbrev Marked := UInt8 × Bool

/-- The byte inside a piece. -/
def unmark (x : Marked) : Marked := (x.1, false)

/-- The bytes of a piece. -/
def markPiece : List UInt8 → List Marked
  | [] => []
  | b :: bs => (b, true) :: bs.map (·, false)

/-- The bytes of all pieces. -/
def mark (pieces : List (List UInt8)) : List Marked := pieces.flatMap markPiece

/-- Read a byte; at the first byte of a piece the decoder starts afresh. -/
def feedMarked (p : Option Pending) (x : Marked) : List Char × Option Pending :=
  if x.2 then (flush p ++ (begin x.1).1, (begin x.1).2) else feed p x.1

def runMarked : Option Pending → List Marked → List Char × Option Pending
  | p, [] => ([], p)
  | p, x :: l =>
    ((feedMarked p x).1 ++ (runMarked (feedMarked p x).2 l).1, (runMarked (feedMarked p x).2 l).2)

/-- The characters of marked bytes, each piece decoded on its own. -/
def decodeMarked (l : List Marked) : List Char := (runMarked none l).1 ++ flush (runMarked none l).2

/-- The groups of bytes that are decoded to one character each, after those that `acc` has collected
for the character that has begun. -/
def unitsFrom : Option (Pending × List Marked) → List Marked → List (List Marked)
  | none, [] => []
  | some (_, acc), [] => [acc]
  | none, x :: l =>
    match lead x.1 with
    | .more p => unitsFrom (some (p, [x])) l
    | _ => [x] :: unitsFrom none l
  | some (p, acc), x :: l =>
    match p.next x.1 with
    | .more q => unitsFrom (some (q, acc ++ [x])) l
    | .done _ => (acc ++ [x]) :: unitsFrom none l
    | .reject =>
      acc :: match lead x.1 with
        | .more q => unitsFrom (some (q, [x])) l
        | _ => [x] :: unitsFrom none l

/-- The groups of bytes that are decoded to one character each. The marks play no part. -/
def units (l : List Marked) : List (List Marked) := unitsFrom none l

/-- A piece begins inside the group. -/
def cut (u : List Marked) : Bool := u.tail.any Prod.snd

/-- The character of a group that is decoded as a whole. -/
def charOf (u : List Marked) : Char := (decodeMarked (u.map unmark)).headD replacement

variable {p q : Pending} {l l' u acc : List Marked} {x : Marked} {c : Char}

/-! ## Pieces and marks -/

/-- The decoder goes on where the first part left it. -/
theorem runMarked_append (p : Option Pending) (l l' : List Marked) :
    runMarked p (l ++ l') = ((runMarked p l).1 ++ (runMarked (runMarked p l).2 l').1,
      (runMarked (runMarked p l).2 l').2) := by
  induction l generalizing p with
  | nil => rfl
  | cons x l ih =>
      simp only [List.cons_append, runMarked]
      rw [ih]
      simp only [List.append_assoc]

/-- Inside a piece the marked decoder is the plain one. -/
theorem runMarked_unmarked (p : Option Pending) (bs : List UInt8) :
    (runMarked p (bs.map (·, false))).1 ++ flush (runMarked p (bs.map (·, false))).2
      = decodeFrom p bs := by
  induction bs generalizing p with
  | nil => rfl
  | cons b bs ih =>
      simp only [List.map_cons, runMarked, decodeFrom, List.append_assoc]
      rw [ih]
      rfl

/-- What is owed at the start of a piece is replaced. -/
theorem runMarked_of_head (p : Option Pending) (h : ∀ x ∈ l.head?, x.2 = true) :
    (runMarked p l).1 ++ flush (runMarked p l).2 = flush p ++ decodeMarked l := by
  cases l with
  | nil => simp [runMarked, decodeMarked, flush]
  | cons x l =>
      have hx : x.2 = true := h x (by simp)
      simp [runMarked, decodeMarked, feedMarked, hx, flush]

/-- A piece begins at a cut. -/
theorem head_mark (pieces : List (List UInt8)) : ∀ x ∈ (mark pieces).head?, x.2 = true := by
  induction pieces with
  | nil => simp [mark]
  | cons piece pieces ih =>
      cases piece with
      | nil => simpa [mark, markPiece] using ih
      | cons b bs => simp [mark, markPiece]

/-- Decoding the pieces one by one is decoding the marked bytes. -/
theorem flatMap_decode_eq (pieces : List (List UInt8)) :
    pieces.flatMap decode = decodeMarked (mark pieces) := by
  induction pieces with
  | nil => rfl
  | cons piece pieces ih =>
      have hpiece : decode piece
          = (runMarked none (markPiece piece)).1 ++ flush (runMarked none (markPiece piece)).2 := by
        cases piece with
        | nil => rfl
        | cons b bs => exact (runMarked_unmarked none (b :: bs)).symm
      have hrest := runMarked_of_head (runMarked none (markPiece piece)).2 (head_mark pieces)
      rw [List.flatMap_cons, ih, hpiece, List.append_assoc, ← hrest]
      simp only [decodeMarked, mark, List.flatMap_cons, runMarked_append, List.append_assoc]

/-- Decoding the whole is decoding the bytes without the marks. -/
theorem decode_flatten_eq (pieces : List (List UInt8)) :
    decode pieces.flatten = decodeMarked ((mark pieces).map unmark) := by
  have hbytes : (mark pieces).map unmark = pieces.flatten.map (·, false) := by
    induction pieces with
    | nil => rfl
    | cons piece pieces ih =>
        simp only [mark, List.flatMap_cons, List.map_append, List.flatten_cons] at ih ⊢
        rw [ih]
        cases piece <;> simp [markPiece, unmark]
  rw [hbytes]
  exact (runMarked_unmarked none _).symm

/-! ## Characters that have begun -/

/-- The bounds of what a pending character can become: no ASCII character and a scalar value. -/
structure Pending.Ok (p : Pending) : Prop where
  after_le : p.after ≤ 2
  lo_le : 0x80 ≤ p.lo
  le_hi : p.hi ≤ 0xBF
  least : 0x80 ≤ (p.bits * 64 + (p.lo - 0x80)) * 64 ^ p.after
  scalar : (p.bits * 64 + (p.hi - 0x80) + 1) * 64 ^ p.after ≤ 0xD800 ∨
    0xE000 ≤ (p.bits * 64 + (p.lo - 0x80)) * 64 ^ p.after ∧
      (p.bits * 64 + (p.hi - 0x80) + 1) * 64 ^ p.after ≤ 0x110000

/-- A byte that begins a character. -/
theorem Pending.Ok.of_lead {b : UInt8} (h : lead b = .more p) : p.Ok := by
  simp only [lead] at h
  split at h
  · simp at h
  · split at h
    · simp at h
    · split at h
      · -- two bytes
        obtain rfl := Lead.more.inj h
        exact ⟨by simp, by simp, by simp, by simp only; omega, .inl (by simp only; omega)⟩
      · split at h
        · -- three bytes, whose second is bounded against short forms and surrogates
          obtain rfl := Lead.more.inj h
          refine ⟨by simp, by simp only; split <;> omega, by simp only; split <;> omega, ?_, ?_⟩
          · simp only; split <;> omega
          · simp only; split <;> split <;> omega
        · split at h
          · -- four bytes, whose second is bounded against short forms and what is no code point
            obtain rfl := Lead.more.inj h
            refine ⟨by simp, by simp only; split <;> omega, by simp only; split <;> omega, ?_, ?_⟩
            · simp only; split <;> omega
            · simp only; split <;> split <;> omega
          · simp at h

/-- A byte that continues a character. -/
theorem Pending.Ok.of_next {b : UInt8} (h : p.Ok) (hnext : p.next b = .more q) : q.Ok := by
  obtain ⟨hafter, hlo, hhi, hleast, hscalar⟩ := h
  simp only [Pending.next] at hnext
  split at hnext
  · next hbounds =>
      split at hnext
      · simp at hnext
      · next k hk =>
          obtain rfl := Next.more.inj hnext
          rw [Nat.succ_eq_add_one] at hk
          rw [hk] at hafter hleast hscalar
          generalize hv : p.bits * 64 + (b.toNat - 0x80) = v
          -- what the character can become only narrows
          have hleast' : (p.bits * 64 + (p.lo - 0x80)) * 64 ^ (k + 1) ≤ v * 64 ^ (k + 1) :=
            Nat.mul_le_mul_right _ (by omega)
          have hmost' : (v + 1) * 64 ^ (k + 1) ≤ (p.bits * 64 + (p.hi - 0x80) + 1) * 64 ^ (k + 1) :=
            Nat.mul_le_mul_right _ (by omega)
          have hlow : (v * 64 + (0x80 - 0x80)) * 64 ^ k = v * 64 ^ (k + 1) := by
            rw [Nat.pow_succ', ← Nat.mul_assoc]
            rfl
          have hhigh : (v * 64 + (0xBF - 0x80) + 1) * 64 ^ k = (v + 1) * 64 ^ (k + 1) := by
            rw [Nat.pow_succ', ← Nat.mul_assoc,
              show v * 64 + (0xBF - 0x80) + 1 = (v + 1) * 64 by omega]
          refine ⟨by simp only; omega, Nat.le_refl _, Nat.le_refl _, ?_, ?_⟩
          · simp only [hlow]
            omega
          · simp only [hlow, hhigh]
            omega
  · simp at hnext

/-- The character that a last byte completes is no ASCII character. -/
theorem Pending.Ok.of_done {b : UInt8} (h : p.Ok) (hnext : p.next b = .done c) :
    0x80 ≤ c.toNat := by
  obtain ⟨-, hlo, hhi, hleast, hscalar⟩ := h
  simp only [Pending.next] at hnext
  split at hnext
  · next hbounds =>
      split at hnext
      · next hzero =>
          rw [hzero] at hleast hscalar
          obtain rfl := Next.done.inj hnext
          -- the bounds of the sequence leave out the surrogates
          have hvalid : Nat.isValidChar (p.bits * 64 + (b.toNat - 0x80)) := by
            rcases hscalar with hlow | ⟨hmid, hhigh⟩
            · exact .inl (by omega)
            · exact .inr ⟨by omega, by omega⟩
          rw [Char.ofNat, dif_pos hvalid, Char.toNat]
          show 0x80 ≤ p.bits * 64 + (b.toNat - 0x80)
          omega
      · simp at hnext
  · simp at hnext

/-- A byte that continues a character begins none. -/
theorem lead_of_next {b : UInt8} (h : p.Ok) (hnext : p.next b ≠ .reject) : lead b = .bad := by
  simp only [Pending.next] at hnext
  split at hnext
  · next hbounds =>
      have hlo := h.lo_le
      have hhi := h.le_hi
      rw [lead, if_neg (by omega), if_pos (by omega)]
  · simp at hnext

/-! ## One group -/

/-- The decoder, piece by piece, inside a character that has begun: with no cut it owes the
character, and after a cut it has given two or more replacements and owes nothing. -/
structure OpenUnit (p : Pending) (acc : List Marked) : Prop where
  ne_nil : acc ≠ []
  ok : p.Ok
  plain : runMarked none (acc.map unmark) = ([], some p)
  uncut : cut acc = false → runMarked none acc = ([], some p)
  cut : cut acc = true → ∃ n, runMarked none acc = (List.replicate (n + 2) replacement, none)

/-- What the decoder, piece by piece, makes of a group that is decoded to one character. -/
structure UnitOk (u : List Marked) : Prop where
  plain : decodeMarked (u.map unmark) = [charOf u]
  uncut : cut u = false → decodeMarked u = [charOf u]
  cut : cut u = true → 0x80 ≤ (charOf u).toNat ∧
    ∃ n, decodeMarked u = List.replicate (n + 2) replacement

/-- One byte more is cut if it, or one before it, is. -/
theorem cut_append (h : acc ≠ []) : cut (acc ++ [x]) = (cut acc || x.2) := by
  cases acc with
  | nil => exact absurd rfl h
  | cons y acc => simp [cut]

/-- Without its mark a byte is fed as it is. -/
theorem feedMarked_unmark (p : Option Pending) (x : Marked) :
    feedMarked p (unmark x) = feed p x.1 := rfl

/-- A lead byte begins a sequence. -/
theorem begin_of_lead {b : UInt8} (h : lead b = .more p) : begin b = ([], some p) := by
  rw [begin, h]

/-- A byte that continues a sequence begins none. -/
theorem begin_of_next {b : UInt8} (h : p.Ok) (hnext : p.next b ≠ .reject) :
    begin b = ([replacement], none) := by
  rw [begin, lead_of_next h hnext]

/-- The first byte of a character. -/
theorem OpenUnit.of_lead (h : lead x.1 = .more p) : OpenUnit p [x] where
  ne_nil := by simp
  ok := .of_lead h
  plain := by simp [runMarked, feedMarked_unmark, feed, begin_of_lead h]
  uncut _ := by simp [runMarked, feedMarked, feed, flush, begin_of_lead h]
  cut h := by simp [Utf8.cut] at h

/-- After a cut a byte of the same character is one more replacement. -/
theorem OpenUnit.run_cut (h : OpenUnit p acc) (hnext : p.next x.1 ≠ .reject)
    (hcut : Utf8.cut (acc ++ [x]) = true) :
    ∃ n, runMarked none (acc ++ [x]) = (List.replicate (n + 2) replacement, none) := by
  have hbegin := begin_of_next h.ok hnext
  rw [cut_append h.ne_nil] at hcut
  cases hacc : Utf8.cut acc with
  | true =>
      obtain ⟨n, hrun⟩ := h.cut hacc
      refine ⟨n + 1, ?_⟩
      simp [runMarked_append, hrun, runMarked, feedMarked, feed, flush, hbegin,
        List.replicate_succ']
  | false =>
      have hx : x.2 = true := by simpa [hacc] using hcut
      refine ⟨0, ?_⟩
      simp [runMarked_append, h.uncut hacc, runMarked, feedMarked, hx, flush, hbegin]

/-- A further byte that does not complete the character. -/
theorem OpenUnit.more (h : OpenUnit p acc) (hnext : p.next x.1 = .more q) :
    OpenUnit q (acc ++ [x]) where
  ne_nil := by simp
  ok := h.ok.of_next hnext
  plain := by
    simp [runMarked_append, h.plain, runMarked, feedMarked_unmark, feed, hnext]
  uncut hcut := by
    rw [cut_append h.ne_nil, Bool.or_eq_false_iff] at hcut
    simp [runMarked_append, h.uncut hcut.1, runMarked, feedMarked, hcut.2, feed, hnext]
  cut hcut := h.run_cut (by simp [hnext]) hcut

/-- The byte that completes the character. -/
theorem OpenUnit.done (h : OpenUnit p acc) (hnext : p.next x.1 = .done c) :
    UnitOk (acc ++ [x]) ∧ (runMarked none (acc ++ [x])).2 = none := by
  have hplain : runMarked none ((acc ++ [x]).map unmark) = ([c], none) := by
    simp [runMarked_append, h.plain, runMarked, feedMarked_unmark, feed, hnext]
  have hchar : charOf (acc ++ [x]) = c := by
    rw [charOf, decodeMarked, hplain]
    rfl
  cases hcut : Utf8.cut (acc ++ [x]) with
  | true =>
      -- a cut inside the unit: each part decodes to replacement characters
      obtain ⟨n, hrun⟩ := h.run_cut (by simp [hnext]) hcut
      refine ⟨⟨?_, fun hfalse => by simp [hcut] at hfalse, fun _ => ⟨?_, n, ?_⟩⟩, by rw [hrun]⟩
      · rw [hchar, decodeMarked, hplain]
        rfl
      · rw [hchar]
        exact h.ok.of_done hnext
      · rw [decodeMarked, hrun]
        exact List.append_nil _
  | false =>
      -- no cut, so the unit decodes as without pieces
      have hparts := hcut
      rw [cut_append h.ne_nil, Bool.or_eq_false_iff] at hparts
      have hrun : runMarked none (acc ++ [x]) = ([c], none) := by
        simp [runMarked_append, h.uncut hparts.1, runMarked, feedMarked, hparts.2, feed, hnext]
      refine ⟨⟨?_, fun _ => ?_, fun htrue => by simp [hcut] at htrue⟩, by rw [hrun]⟩
      · rw [hchar, decodeMarked, hplain]
        rfl
      · rw [hchar, decodeMarked, hrun]
        rfl

/-- A character that stays incomplete. -/
theorem OpenUnit.truncated (h : OpenUnit p acc) : UnitOk acc := by
  have hchar : charOf acc = replacement := by
    rw [charOf, decodeMarked, h.plain]
    rfl
  refine ⟨?_, fun hcut => ?_, fun hcut => ⟨?_, ?_⟩⟩
  · rw [hchar, decodeMarked, h.plain]
    rfl
  · rw [hchar, decodeMarked, h.uncut hcut]
    rfl
  · rw [hchar]
    decide
  · obtain ⟨n, hrun⟩ := h.cut hcut
    exact ⟨n, by rw [decodeMarked, hrun]; exact List.append_nil _⟩

/-- A byte that begins no longer character. -/
theorem UnitOk.single (h : ∀ p, lead x.1 ≠ .more p) :
    UnitOk [x] ∧ (runMarked none [x]).2 = none := by
  -- a byte that leads nothing is decided at once
  have hbegin : ∃ c, begin x.1 = ([c], none) := by
    rw [begin]
    cases hlead : lead x.1 with
    | char c => exact ⟨c, rfl⟩
    | more p => exact absurd hlead (h p)
    | bad => exact ⟨replacement, rfl⟩
  obtain ⟨c, hbegin⟩ := hbegin
  have hplain : runMarked none ([x].map unmark) = ([c], none) := by
    simp [runMarked, feedMarked_unmark, feed, hbegin]
  have hrun : runMarked none [x] = ([c], none) := by
    simp [runMarked, feedMarked, feed, flush, hbegin]
  have hchar : charOf [x] = c := by
    rw [charOf, decodeMarked, hplain]
    rfl
  refine ⟨⟨?_, fun _ => ?_, fun hcut => by simp [Utf8.cut] at hcut⟩, by rw [hrun]⟩
  · rw [hchar, decodeMarked, hplain]
    rfl
  · rw [hchar, decodeMarked, hrun]
    rfl

/-! ## All groups -/

/-- After a group that owes nothing the decoder starts afresh. -/
theorem decodeMarked_append (h : (runMarked none u).2 = none) :
    decodeMarked (u ++ l) = decodeMarked u ++ decodeMarked l := by
  simp [decodeMarked, runMarked_append, h, flush]

/-- After an incomplete group a byte that it rejects is read from the start. -/
theorem OpenUnit.decodeMarked_append (h : OpenUnit p acc) (hnext : p.next x.1 = .reject) :
    decodeMarked (acc ++ x :: l) = decodeMarked acc ++ decodeMarked (x :: l) := by
  cases hcut : Utf8.cut acc with
  | true =>
      obtain ⟨n, hrun⟩ := h.cut hcut
      exact Utf8.decodeMarked_append (by rw [hrun])
  | false =>
      have hrun := h.uncut hcut
      have hfeed : feedMarked (some p) x
          = (replacement :: (feedMarked none x).1, (feedMarked none x).2) := by
        cases hx : x.2 <;> simp [feedMarked, hx, feed, hnext, flush]
      simp [decodeMarked, runMarked_append, hrun, runMarked, hfeed, flush]

/-- The groups of the bytes that are left, with the one that has begun, account for all of them. -/
private theorem units_spec (l : List Marked) :
    (decodeMarked l = (unitsFrom none l).flatMap decodeMarked ∧ ∀ u ∈ unitsFrom none l, UnitOk u) ∧
      ∀ p acc, OpenUnit p acc →
        decodeMarked (acc ++ l) = (unitsFrom (some (p, acc)) l).flatMap decodeMarked ∧
          ∀ u ∈ unitsFrom (some (p, acc)) l, UnitOk u := by
  induction l with
  | nil =>
      refine ⟨⟨rfl, by simp [unitsFrom]⟩, fun p acc hopen => ⟨by simp [unitsFrom], ?_⟩⟩
      simpa [unitsFrom] using hopen.truncated
  | cons x l ih =>
      obtain ⟨⟨ihnone, ihnoneok⟩, ihsome⟩ := ih
      have hnone : decodeMarked (x :: l) = (unitsFrom none (x :: l)).flatMap decodeMarked ∧
          ∀ u ∈ unitsFrom none (x :: l), UnitOk u := by
        rw [unitsFrom]
        split
        · next p hlead => exact ihsome p [x] (.of_lead hlead)
        · next hlead =>
            -- the unit is complete, and the decoder is back at its start
            obtain ⟨hok, hrun⟩ := UnitOk.single hlead
            refine ⟨?_, List.forall_mem_cons.mpr ⟨hok, ihnoneok⟩⟩
            rw [List.flatMap_cons, ← ihnone]
            exact Utf8.decodeMarked_append hrun
      refine ⟨hnone, fun p acc hopen => ?_⟩
      cases hnext : p.next x.1 with
      | more q =>
          have hrec := ihsome q (acc ++ [x]) (hopen.more hnext)
          rw [List.append_assoc, List.singleton_append] at hrec
          simpa [unitsFrom, hnext] using hrec
      | done c =>
          obtain ⟨hok, hrun⟩ := hopen.done hnext
          have happend := Utf8.decodeMarked_append (l := l) hrun
          rw [List.append_assoc, List.singleton_append, ihnone] at happend
          simp only [unitsFrom, hnext]
          exact ⟨happend, List.forall_mem_cons.mpr ⟨hok, ihnoneok⟩⟩
      | reject =>
          -- the byte does not continue the unit: the unit ends before it and another begins
          have hunits : unitsFrom (some (p, acc)) (x :: l) = acc :: unitsFrom none (x :: l) := by
            simp [unitsFrom, hnext]
          rw [hunits, List.flatMap_cons, ← hnone.1]
          exact ⟨hopen.decodeMarked_append hnext,
            List.forall_mem_cons.mpr ⟨hopen.truncated, hnone.2⟩⟩

/-- Every unit of a marked text is one. -/
theorem UnitOk.of_mem (h : u ∈ units l) : UnitOk u := (units_spec l).1.2 u h

/-- Decoding marked bytes is decoding their groups. -/
theorem decodeMarked_eq_flatMap (l : List Marked) :
    decodeMarked l = (units l).flatMap decodeMarked :=
  (units_spec l).1.1

/-- The groups do not depend on the marks. -/
private theorem unitsFrom_unmark (st : Option (Pending × List Marked)) (l : List Marked) :
    unitsFrom (st.map fun s => (s.1, s.2.map unmark)) (l.map unmark)
      = (unitsFrom st l).map (List.map unmark) := by
  induction l generalizing st with
  | nil => cases st <;> rfl
  | cons x l ih =>
      have hnone := ih none
      have hsome : ∀ p acc, unitsFrom (some (p, acc.map unmark)) (l.map unmark)
          = (unitsFrom (some (p, acc)) l).map (List.map unmark) := fun p acc => ih (some (p, acc))
      cases st with
      | none =>
          simp only [Option.map_none, List.map_cons, unitsFrom, unmark]
          -- marks do not decide where a unit ends
          split
          · next p hlead => exact hsome p [x]
          · rw [List.map_cons]
            exact congrArg _ hnone
      | some s =>
          obtain ⟨p, acc⟩ := s
          simp only [Option.map_some, List.map_cons, unitsFrom, unmark]
          split
          · next q hnext =>
              have hrec := hsome q (acc ++ [x])
              rw [List.map_append] at hrec
              exact hrec
          · rw [List.map_cons, List.map_append]
            exact congrArg _ hnone
          · rw [List.map_cons]
            congr 1
            split
            · next q hlead => exact hsome q [x]
            · rw [List.map_cons]
              exact congrArg _ hnone

/-- Decoding piece by piece substitutes for each group what the pieces make of it. -/
theorem flatMap_decode (pieces : List (List UInt8)) :
    pieces.flatMap decode = (units (mark pieces)).flatMap decodeMarked := by
  rw [flatMap_decode_eq, decodeMarked_eq_flatMap]

/-- Decoding the whole gives one character for each group. -/
theorem decode_flatten (pieces : List (List UInt8)) :
    decode pieces.flatten = (units (mark pieces)).map charOf := by
  have hunits : units ((mark pieces).map unmark) = (units (mark pieces)).map (List.map unmark) :=
    unitsFrom_unmark none (mark pieces)
  rw [decode_flatten_eq, decodeMarked_eq_flatMap, hunits, List.flatMap_map, List.map_eq_flatMap]
  exact List.flatMap_congr fun u hu => (UnitOk.of_mem hu).plain

end SynGateway.Utf8
