import Mathlib.Data.Nat.Notation
import SynGateway.Python.Triples

/-!
# Sessions on a database that may fail

A session queues changes, sends them with its next operation, and commits them. Every operation is
counted, and the `n`-th one raises what `faults n` says. A commit applies everything that was sent,
or raises and applies nothing; what is not committed is gone when the session is closed.

The rules say how each operation moves a session, in the form of triples. `Clear faults m n` keeps
track of the operations that did not fail. `Simulates` compares a call, when nothing fails, with
what it is to do on the committed rows.
-/

namespace SynGateway.UnitOfWork

open SynGateway.Python

variable {δ ε α : Type}

/-- What the operations of a session raise, by their number. -/
abbrev Faults (ε : Type) := ℕ → Option ε

/-- No operation from `m` to below `n` fails. -/
def Clear (faults : Faults ε) (m n : ℕ) : Prop := ∀ k, m ≤ k → k < n → faults k = none

/-- A change of the rows, which a constraint may refuse. -/
structure Write (δ ε : Type) where
  refuse : δ → Option ε
  apply : δ → δ

namespace Write

/-- The rows after the change. -/
def send (write : Write δ ε) (rows : δ) : Except ε δ :=
  match write.refuse rows with
  | some exc => .error exc
  | none => .ok (write.apply rows)

/-- The rows after some changes, in order. -/
def sendAll (writes : List (Write δ ε)) (rows : δ) :
    Except ε δ := writes.foldlM (fun rows write => write.send rows) rows

variable {write : Write δ ε} {rows : δ} {exc : ε}

/-- Nothing to send. -/
theorem sendAll_nil : sendAll [] rows = (.ok rows : Except ε δ) := rfl

/-- A write that is allowed is sent before the others. -/
theorem sendAll_cons_allowed (h : write.refuse rows = none) (writes : List (Write δ ε)) :
    sendAll (write :: writes) rows = sendAll writes (write.apply rows) := by
  change (write.send rows >>= fun rows => sendAll writes rows) = _
  unfold send
  rw [h]
  rfl

/-- A write that is refused stops the others. -/
theorem sendAll_cons_refused (h : write.refuse rows = some exc) (writes : List (Write δ ε)) :
    sendAll (write :: writes) rows = .error exc := by
  change (write.send rows >>= fun rows => sendAll writes rows) = _
  unfold send
  rw [h]
  rfl

end Write

/-- A session: the committed rows, the rows as its transaction sees them, what is queued, and how
many operations it has tried. -/
structure Connection (δ ε : Type) where
  committed : δ
  working : δ
  pending : List (Write δ ε) := []
  operations : ℕ := 0

/-- A session with nothing to commit. -/
def Connection.clean (rows : δ) (n : ℕ) : Connection δ ε where
  committed := rows
  working := rows
  operations := n

/-- A function that works on a session. -/
abbrev Transaction (δ ε α : Type) := Exec ε (Connection δ ε) α

variable (faults : Faults ε)

/-- One operation on the database. -/
def operation : Transaction δ ε Unit := do
  let c ← Exec.get
  Exec.modify fun c => { c with operations := c.operations + 1 }
  match faults c.operations with
  | some exc => Exec.raise exc
  | none => pure ()

/-- `session.add(...)`, or an assignment to an attribute of a row: it is queued. -/
def add (write : Write δ ε) : Transaction δ ε Unit :=
  Exec.modify fun c => { c with pending := c.pending ++ [write] }

/-- `session.flush()`: what is queued is sent. -/
def flush : Transaction δ ε Unit := do
  operation faults
  let c ← Exec.get
  match Write.sendAll c.pending c.working with
  | .error exc => Exec.raise exc
  | .ok rows => Exec.modify fun c => { c with working := rows, pending := [] }

/-- A query, which sends what is queued before it reads. -/
def query (read : δ → α) : Transaction δ ε α := do
  flush faults
  let c ← Exec.get
  return read c.working

/-- A statement that changes rows at once. -/
def execute (change : δ → δ) : Transaction δ ε Unit := do
  flush faults
  Exec.modify fun c => { c with working := change c.working }

/-- `session.commit()`. -/
def commit : Transaction δ ε Unit := do
  flush faults
  Exec.modify fun c => { c with committed := c.working }

/-- `session.refresh(row)`, which reads a row that the session has. -/
def refresh : Transaction δ ε Unit := query faults fun _ => ()

/-! ## Clear runs -/

section Clear

variable {faults : Faults ε} {l m n : ℕ}

/-- No operation, so none that fails. -/
theorem clear_self : Clear faults n n :=
  fun _ hle hlt => absurd (Nat.lt_of_le_of_lt hle hlt) (Nat.lt_irrefl n)

/-- One more operation that does not fail. -/
theorem Clear.succ (h : Clear faults m n) (hn : faults n = none) : Clear faults m (n + 1) := by
  intro k hle hlt
  rcases Nat.lt_succ_iff_lt_or_eq.mp hlt with hlt | rfl
  · exact h k hle hlt
  · exact hn

/-- Fewer operations. -/
theorem Clear.mono (h : Clear faults l n) (hlm : l ≤ m) {n' : ℕ} (hn : n' ≤ n) :
    Clear faults m n' := by
  intro k hle hlt
  apply h k <;> omega

/-- An operation that fails. -/
theorem not_clear_of_fault (hmn : m ≤ n) (hn : faults n ≠ none) {n' : ℕ} (hlt : n < n') :
    ¬ Clear faults m n' :=
  fun h => hn (h n hmn hlt)

end Clear

/-! ## Triples -/

section Triples

variable {faults : Faults ε} {rows sent : δ} {pending : List (Write δ ε)}
    {committed working : δ} {m n : ℕ}

/-- The session is this one, and its operations from number `m` on have not failed. -/
def Reached (faults : Faults ε) (m : ℕ) (c c' : Connection δ ε) :
    Prop := c' = c ∧ Clear faults m c.operations

/-- The session has committed these rows, and its operation number `n` has failed. -/
def FailedAt (faults : Faults ε) (committed : δ) (n : ℕ) (c : Connection δ ε) : Prop :=
  c.committed = committed ∧ faults n ≠ none

/-- `flush` sends what is pending, or raises. -/
theorem run_flush (faults : Faults ε) (c : Connection δ ε) :
    (flush faults).run c =
      match faults c.operations, Write.sendAll c.pending c.working with
      | some exc, _ => (.error exc, { c with operations := c.operations + 1 })
      | none, .error exc => (.error exc, { c with operations := c.operations + 1 })
      | none, .ok rows =>
        (.ok (), { c with working := rows, pending := [], operations := c.operations + 1 }) := by
  have hrun : (flush faults).run c =
      match faults c.operations with
      | some exc => (.error exc, { c with operations := c.operations + 1 })
      | none =>
        (match Write.sendAll c.pending c.working with
          | .error exc => Exec.raise exc
          | .ok rows => Exec.modify fun c => { c with working := rows, pending := [] } :
              Transaction δ ε Unit).run
          { c with operations := c.operations + 1 } := by
    unfold flush operation
    rw [LawfulMonad.bind_assoc, Exec.run_get_bind, LawfulMonad.bind_assoc, Exec.run_modify_bind]
    -- the operation itself fails, before anything is sent
    cases faults c.operations <;> rfl
  rw [hrun]
  cases faults c.operations with
  | some exc => rfl
  | none => cases Write.sendAll c.pending c.working <;> rfl

/-- `add` keeps the write for the next operation. -/
theorem ensures_add (write : Write δ ε) (E : ε → Connection δ ε → Prop) :
    Exec.Ensures (Reached faults m ⟨committed, working, pending, n⟩) (add write)
      (fun _ => Reached faults m ⟨committed, working, pending ++ [write], n⟩) E := by
  apply Exec.Ensures.modify
  rintro _ ⟨rfl, hclear⟩
  exact ⟨rfl, hclear⟩

/-- What is queued is sent, unless the operation fails. -/
theorem ensures_flush (hsend : Write.sendAll pending working = .ok sent) :
    Exec.Ensures (Reached faults m ⟨committed, working, pending, n⟩) (flush faults)
      (fun _ => Reached faults m ⟨committed, sent, [], n + 1⟩) fun _ =>
      FailedAt faults committed n := by
  rintro _ ⟨rfl, hclear⟩
  rw [run_flush, hsend]
  cases hfault : faults n with
  | some exc => exact ⟨rfl, by rw [hfault]; exact Option.some_ne_none exc⟩
  | none => exact ⟨rfl, hclear.succ hfault⟩

/-- What a constraint refuses is not sent. -/
theorem ensures_flush_refused {exc : ε} (hsend : Write.sendAll pending working = .error exc) :
    Exec.Ensures (Reached faults m ⟨committed, working, pending, n⟩) (flush faults)
      (fun _ _ => False) fun _ c => c.committed = committed := by
  rintro _ ⟨rfl, -⟩
  rw [run_flush, hsend]
  cases faults n with
  | some exc => exact rfl
  | none => exact rfl

/-- A query sends what is pending and reads, or fails. -/
theorem ensures_query (read : δ → α) (hsend : Write.sendAll pending working = .ok sent) :
    Exec.Ensures (Reached faults m ⟨committed, working, pending, n⟩) (query faults read)
      (fun a c => Reached faults m ⟨committed, sent, [], n + 1⟩ c ∧ a = read sent)
      fun _ => FailedAt faults committed n := by
  refine (ensures_flush hsend).bind fun _ => ?_
  rintro _ ⟨rfl, hclear⟩
  exact ⟨⟨rfl, hclear⟩, rfl⟩

/-- What follows a query gets what was read. -/
theorem ensures_query_bind {β : Type} {read : δ → β} {f : β → Transaction δ ε α}
    {Q : α → Connection δ ε → Prop} {E : ε → Connection δ ε → Prop}
    (hsend : Write.sendAll pending working = .ok sent)
    (hE : ∀ exc c, FailedAt faults committed n c → E exc c)
    (hf : Exec.Ensures (Reached faults m ⟨committed, sent, [], n + 1⟩) (f (read sent)) Q E) :
    Exec.Ensures (Reached faults m ⟨committed, working, pending, n⟩)
    (query faults read >>= f) Q E := by
  refine (ensures_query read hsend).bind_mono hE fun a => ?_
  rintro c ⟨hreached, rfl⟩
  exact hf c hreached

/-- A statement sends what is pending and changes the rows, or fails. -/
theorem ensures_execute (change : δ → δ) (hsend : Write.sendAll pending working = .ok sent) :
    Exec.Ensures (Reached faults m ⟨committed, working, pending, n⟩) (execute faults change)
      (fun _ => Reached faults m ⟨committed, change sent, [], n + 1⟩) fun _ =>
      FailedAt faults committed n := by
  refine (ensures_flush hsend).bind fun _ => ?_
  rintro _ ⟨rfl, hclear⟩
  exact ⟨rfl, hclear⟩

/-- A commit makes everything that was sent permanent. -/
theorem ensures_commit (hsend : Write.sendAll pending working = .ok sent) :
    Exec.Ensures (Reached faults m ⟨committed, working, pending, n⟩) (commit faults)
      (fun _ => Reached faults m ⟨sent, sent, [], n + 1⟩) fun _ => FailedAt faults committed n := by
  refine (ensures_flush hsend).bind fun _ => ?_
  rintro _ ⟨rfl, hclear⟩
  exact ⟨rfl, hclear⟩

/-- A `commit` whose writes are refused raises and commits nothing. -/
theorem ensures_commit_refused {exc : ε} (hsend : Write.sendAll pending working = .error exc) :
    Exec.Ensures (Reached faults m ⟨committed, working, pending, n⟩) (commit faults)
      (fun _ _ => False) fun _ c => c.committed = committed :=
  (ensures_flush_refused hsend).bind fun _ _ h => h.elim

end Triples

/-! ## Atomic calls -/

section Atomic

variable {faults : Faults ε} {rows rows' working sent : δ} {pending : List (Write δ ε)}
    {m n first stop : ℕ}

/-- A call has raised whose first commit is operation `first`, and which is over before operation
`stop`. Either an operation up to the first commit failed, and nothing is committed, or a later one
did. -/
def Raised (faults : Faults ε) (m first stop : ℕ) (rows : δ) (changed : δ → Prop)
    (c : Connection δ ε) : Prop :=
  (c.committed = rows ∧ ¬ Clear faults m (first + 1)) ∨
    (changed c.committed ∧ Clear faults m (first + 1) ∧ ¬ Clear faults m stop)

/-- A failure before the first commit has committed nothing. -/
theorem FailedAt.raised {changed : δ → Prop} {c : Connection δ ε} (h : FailedAt faults rows n c)
    (hm : m ≤ n) (hn : n ≤ first) : Raised faults m first stop rows changed c :=
  .inl ⟨h.1, not_clear_of_fault hm h.2 (Nat.lt_succ_of_le hn)⟩

/-- A call that raises, with weaker bounds. -/
theorem Raised.mono {changed changed' : δ → Prop} {c : Connection δ ε} {stop' : ℕ}
    (h : Raised faults m first stop rows changed c)
    (hchanged : ∀ rows', changed rows' → changed' rows') (hstop : stop ≤ stop') :
    Raised faults m first stop' rows changed' c := by
  rcases h with ⟨hsame, hfirst⟩ | ⟨hrows, hfirst, hlate⟩
  · exact .inl ⟨hsame, hfirst⟩
  · exact .inr ⟨hchanged _ hrows, hfirst, fun hclear => hlate (hclear.mono (Nat.le_refl m) hstop)⟩

/-- `session.commit(); session.refresh(row); return row`: a failure of the second operation comes
too late. -/
theorem ensures_commit_refresh (result : α) (hm : m ≤ n)
    (hsend : Write.sendAll pending working = .ok sent) :
    Exec.Ensures (Reached faults m ⟨rows, working, pending, n⟩)
      (do commit faults; refresh faults; return result)
      (fun a c => Reached faults m (.clean sent (n + 2)) c ∧ a = result)
      fun _ => Raised faults m n (n + 2) rows (· = sent) := by
  refine (ensures_commit hsend).bind_mono (fun _ _ h => h.raised hm (Nat.le_refl n)) fun _ => ?_
  -- the change is committed, whatever becomes of the refresh
  intro c hreached
  have hclear : Clear faults m (n + 1) := hreached.2
  have hrest :
      Exec.Ensures (Reached faults m (.clean sent (n + 1))) (do refresh faults; return result)
      (fun a c => Reached faults m (.clean sent (n + 2)) c ∧ a = result)
      fun _ => Raised faults m n (n + 2) rows (· = sent) := by
    refine ensures_query_bind Write.sendAll_nil ?_ (Exec.Ensures.pure fun _ h => ⟨h, rfl⟩)
    intro exc c hfailed
    exact .inr ⟨hfailed.1, hclear, not_clear_of_fault (by omega) hfailed.2 (by omega)⟩
  exact hrest c hreached

/-- If the call raises, the committed rows are as they were. -/
def Atomic (x : Transaction δ ε α) (c : Connection δ ε) : Prop :=
  ∀ exc, (x.run c).1 = .error exc → (x.run c).2.committed = c.committed

/-- A call that may write is atomic exactly when no operation fails behind its first commit. -/
theorem atomic_iff {x : Transaction δ ε α}
    (h : Exec.Ensures (Reached faults m (.clean rows m)) x (fun _ _ => Clear faults m stop)
      fun _ => Raised faults m first stop rows (· ≠ rows)) :
    Atomic x (.clean rows m) ↔ (Clear faults m (first + 1) → Clear faults m stop) := by
  unfold Atomic
  rcases h.cases ⟨rfl, clear_self⟩ with ⟨a, c, hrun, hclear⟩ | ⟨exc, c, hrun, hraised⟩
  · rw [hrun]
    exact iff_of_true (fun _ h => nomatch h) fun _ => hclear
  · rw [hrun]
    rcases hraised with ⟨hsame, hfirst⟩ | ⟨hchanged, hfirst, hstop⟩
    · exact iff_of_true (fun _ _ => hsame) fun hclear => absurd hclear hfirst
    · exact iff_of_false (fun hatomic => hchanged (hatomic exc rfl)) fun hclear =>
        hstop (hclear hfirst)

/-- A call that commits nothing is atomic. -/
theorem atomic_of_ensures {x : Transaction δ ε α} {Q : α → Connection δ ε → Prop}
    (h : Exec.Ensures (Reached faults m (.clean rows m)) x Q fun _ c => c.committed = rows) :
    Atomic x (.clean rows m) := fun _ hexc => h.error ⟨rfl, clear_self⟩ (Prod.ext hexc rfl)

end Atomic

/-! ## Sessions on which nothing fails -/

section Simulation

/-- No operation fails. -/
def noFaults : Faults ε := fun _ => none

/-- From this session, and if nothing fails, the call ends as `spec` does on the committed rows:
with the same exception, or with the same result and nothing left to commit. -/
def Simulates (c : Connection δ ε) (x : Transaction δ ε α) (spec : Exec ε δ α) : Prop :=
  Exec.Ensures (· = c) x (fun a c' => ∃ rows n,
    c' = .clean rows n ∧ spec.run c.committed = (.ok a, rows))
    fun exc c' => spec.run c.committed = (.error exc, c'.committed)

namespace Simulates

variable {β : Type} {c : Connection δ ε} {rows sent : δ} {exc : ε} {result : α} {n : ℕ}

/-- A call that returns without an operation. -/
theorem pure {spec : Exec ε δ α} (hspec : spec.run rows = (.ok result, rows)) :
    Simulates (.clean rows n) (Pure.pure result) spec := by
  rintro _ rfl
  exact ⟨rows, n, rfl, hspec⟩

/-- A call that raises without an operation. -/
theorem raise {spec : Exec ε δ α} (hspec : spec.run c.committed = (.error exc, c.committed)) :
    Simulates c (Exec.raise exc) spec := by
  rintro _ rfl
  exact hspec

/-- One call after another. -/
theorem bind {x : Transaction δ ε α} {f : α → Transaction δ ε β} {spec : Exec ε δ α}
    {next : α → Exec ε δ β} (hx : Simulates c x spec)
    (hf : ∀ a rows n, spec.run c.committed = (.ok a, rows) →
      Simulates (.clean rows n) (f a) (next a)) :
    Simulates c (x >>= f) (spec >>= next) := by
  refine Exec.Ensures.bind (hx.mono (fun _ h => h) (fun _ _ h => h) ?_) fun a => ?_
  · intro exc c' hspec
    exact Exec.run_bind_error hspec
  · rintro _ ⟨rows, n, rfl, hspec⟩
    have hbind : (spec >>= next).run c.committed = (next a).run rows := Exec.run_bind_ok hspec
    refine (hf a rows n hspec).mono (fun _ h => h) ?_ (fun _ _ hrun => hbind.trans hrun) _ rfl
    rintro b _ ⟨rows', n', rfl, hrun⟩
    exact ⟨rows', n', rfl, hbind.trans hrun⟩

variable {f : Unit → Transaction δ ε α} {spec : Exec ε δ α}

/-- `add` is not seen until it is sent. -/
theorem add {write : Write δ ε}
    (h : Simulates { c with pending := c.pending ++ [write] } (f ()) spec) :
    Simulates c (UnitOfWork.add write >>= f) spec := by
  rintro _ rfl
  exact h _ rfl

/-- Rows that are queued one by one. -/
theorem addAll (write : β → Write δ ε) (l : List β)
    (h : Simulates { c with pending := c.pending ++ l.map write } (f ()) spec) :
    Simulates c ((l.forM fun b => UnitOfWork.add (write b)) >>= f) spec := by
  induction l generalizing c with
  | nil =>
      rw [List.map_nil, List.append_nil] at h
      exact h
  | cons b l ih =>
      change Simulates c
        ((UnitOfWork.add (write b) >>= fun _ => l.forM fun b =>
        UnitOfWork.add (write b)) >>= f) spec
      rw [bind_assoc]
      apply Simulates.add
      apply ih
      rwa [List.append_assoc, List.singleton_append]

/-- An operation that sends what is queued. -/
theorem flush (hsend : Write.sendAll c.pending c.working = .ok sent)
    (h : Simulates { c with working := sent, pending := [], operations := c.operations + 1 }
      (f ()) spec) :
    Simulates c (UnitOfWork.flush noFaults >>= f) spec := by
  intro s hs
  have hrun := run_flush noFaults c
  rw [hsend] at hrun
  rw [hs, Exec.run_bind_ok hrun]
  exact h _ rfl

/-- An operation that sends something that is refused. -/
theorem flush_refused (hsend : Write.sendAll c.pending c.working = .error exc)
    (hspec : spec.run c.committed = (.error exc, c.committed)) :
    Simulates c (UnitOfWork.flush noFaults >>= f) spec := by
  intro s hs
  have hrun := run_flush noFaults c
  rw [hsend] at hrun
  rw [hs, Exec.run_bind_error hrun]
  exact hspec

/-- A query without faults reads the rows. -/
theorem query {read : δ → β} {f : β → Transaction δ ε α}
    (h : Simulates (.clean rows (n + 1)) (f (read rows)) spec) :
    Simulates (.clean rows n) (UnitOfWork.query noFaults read >>= f) spec := by
  unfold UnitOfWork.query
  rw [bind_assoc]
  refine flush Write.sendAll_nil ?_
  rintro _ rfl
  exact h _ rfl

/-- A statement without faults changes the rows. -/
theorem execute {change : δ → δ} (hsend : Write.sendAll c.pending c.working = .ok sent)
    (h : Simulates { c with working := change sent, pending := [], operations := c.operations + 1 }
      (f ()) spec) :
    Simulates c (UnitOfWork.execute noFaults change >>= f) spec := by
  unfold UnitOfWork.execute
  rw [bind_assoc]
  refine flush hsend ?_
  rintro _ rfl
  exact h _ rfl

/-- The end of a call that writes. -/
theorem commit (hsend : Write.sendAll c.pending c.working = .ok sent)
    (hspec : spec.run c.committed = (.ok result, sent)) :
    Simulates c (do UnitOfWork.commit noFaults; refresh noFaults; return result) spec := by
  unfold UnitOfWork.commit refresh UnitOfWork.query
  rw [bind_assoc]
  refine flush hsend ?_
  rintro _ rfl
  exact ⟨sent, c.operations + 2, rfl, hspec⟩

/-- A refused `commit` raises what the specification raises. -/
theorem commit_refused (hsend : Write.sendAll c.pending c.working = .error exc)
    (hspec : spec.run c.committed = (.error exc, c.committed)) :
    Simulates c (UnitOfWork.commit noFaults >>= f) spec := by
  unfold UnitOfWork.commit
  rw [bind_assoc]
  exact flush_refused hsend hspec

end Simulates

end Simulation

end SynGateway.UnitOfWork
