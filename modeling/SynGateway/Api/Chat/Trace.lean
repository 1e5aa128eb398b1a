import SynGateway.Api.Chat.Accounting

/-!
# What a completion does, in order

The events of both completion functions. Each of them calls `acquire()` at most once, and calls the
backend inside it only: `traced_streamEvents` and `traced_completionEvents`. Whatever way the body
ends, the slot is given back before the usage is recorded.
-/

namespace SynGateway.Api.Chat

open SynGateway.Core SynGateway.Python SynGateway.Services

variable {V α β : Type} {env : Env} {P : Event → Prop} {Q : List Event → Prop}

/-! ## The events that a body adds -/

/-- The events that were added between the two states, as a whole, satisfy `Q`. -/
def Adds (Q : List Event → Prop) (s t : Frame V) : Prop := ∃ es, t.events = s.events ++ es ∧ Q es

/-- Every event satisfies `P`. -/
def Only (P : Event → Prop) (es : List Event) : Prop := ∀ e ∈ es, P e

/-- No event, so none that is wrong. -/
theorem only_nil : Only P [] := fun _ h => nomatch h

/-- One event. -/
theorem only_singleton {e : Event} (h : P e) : Only P [e] := List.forall_mem_singleton.mpr h

/-- Events after events. -/
theorem Only.append {es fs : List Event} (hes : Only P es) (hfs : Only P fs) : Only P (es ++ fs) :=
  List.forall_mem_append.mpr ⟨hes, hfs⟩

/-- A step without events. -/
theorem adds_nothing (h : Q []) {s t : Frame V} (heq : t.events = s.events) : Adds Q s t :=
  ⟨[], by rw [heq, List.append_nil], h⟩

instance : Std.Refl (Adds (V := V) (Only P)) := ⟨fun _ => adds_nothing only_nil rfl⟩

instance : IsTrans (Frame V) (Adds (Only P)) := by
  constructor
  rintro s t u ⟨es, ht, hes⟩ ⟨fs, hu, hfs⟩
  exact ⟨es ++ fs, by rw [hu, ht, List.append_assoc], hes.append hfs⟩

/-- The log adds its event. -/
theorem adds_log {event : Event} (h : Q [event]) : Exec.Moves (Adds Q) (log event : Body V Unit) :=
  Exec.Moves.modify fun _ => ⟨[event], rfl, h⟩

/-- An assignment adds no event. -/
theorem adds_assign (h : Q []) (f : V → V) : Exec.Moves (Adds Q) (assign f) :=
  Exec.Moves.modify fun _ => adds_nothing h rfl

/-- A suspension adds no event, also where the client leaves. -/
theorem adds_suspend (h : Q []) (exc : Exc) :
    Exec.Moves (Adds Q) (suspend env exc : Body V Unit) := by
  intro s
  unfold suspend
  rw [Exec.run_get_bind]
  split_ifs
  · exact adds_nothing h rfl
  · exact adds_nothing h rfl

/-! ## The use of a slot -/

/-- What may happen while the slot is held: the call of the backend, and what is sent. -/
def Event.Inside (env : Env) (stream : Bool) : Event → Prop
  | called backend model stream' =>
    backend = env.call.backend ∧ model = env.call.model ∧ stream' = stream
  | sent _ => True
  | _ => False

/-- What happens without a slot. -/
def Event.Outside : Event → Prop
  | sent _ => True
  | recorded _ => True
  | _ => False

/-- The events of `async with admission.acquire()`: it gets no slot, or holds one for what it does.
-/
inductive Use (env : Env) (stream : Bool) : List Event → Prop
  | refused : Use env stream [.acquiring]
  | held (inner : List Event) (h : Only (Event.Inside env stream) inner) :
    Use env stream (.acquiring :: .acquired :: (inner ++ [.released]))

/-- A body that behaves while the slot is held uses it once. -/
theorem use_withAcquire {stream : Bool} {body : Body V α}
    (h : Exec.Moves (Adds (Only (Event.Inside env stream))) body) :
    Exec.Moves (Adds (Use env stream)) (withAcquire env body) := by
  intro s
  unfold withAcquire log
  rw [Exec.run_modify_bind]
  let s₁ : Frame V := { s with events := s.events ++ [.acquiring] }
  have hquiet : Exec.Moves (Adds (· = [])) (suspend env .cancelledError : Body V Unit) :=
    adds_suspend (Q := (· = [])) rfl _
  obtain ⟨es, hes, hnil⟩ := hquiet s₁
  rw [hnil, List.append_nil] at hes
  rcases hrun : (suspend env .cancelledError : Body V Unit).run s₁ with ⟨exc | _, s₂⟩
  · rw [Exec.run_bind_error hrun]
    rw [hrun] at hes
    -- the client leaves while it waits for the slot
    exact ⟨_, hes, .refused⟩
  · rw [Exec.run_bind_ok hrun]
    rw [hrun] at hes
    split
    · exact ⟨_, hes, .refused⟩
    · rw [Exec.run_modify_bind]
      -- the slot is held from here, and released whatever the body does
      obtain ⟨inner, hinner, honly⟩ := h { s₂ with events := s₂.events ++ [.acquired] }
      refine ⟨_, ?_, .held inner honly⟩
      rw [Exec.run_tryFinally_state]
      change ((body.run _).2.events ++ [.released]) = _
      rw [hinner, hes]
      simp only [s₁, List.append_assoc, List.cons_append, List.nil_append]

/-- The slot is used at most once, and after that nothing needs it. -/
def Used (env : Env) (stream : Bool) (es : List Event) : Prop :=
  ∃ use rest, es = use ++ rest ∧ Use env stream use ∧ Only Event.Outside rest

section Rules

variable {stream : Bool} {s t u : Frame V}

/-- A use of the slot after which nothing happens. -/
theorem Use.used {es : List Event} (h : Use env stream es) : Used env stream es :=
  ⟨es, [], (List.append_nil es).symm, h, only_nil⟩

/-- What follows the use of the slot may be anything that needs no slot. -/
theorem Adds.used (hst : Adds (Used env stream) s t) (htu : Adds (Only Event.Outside) t u) :
    Adds (Used env stream) s u := by
  obtain ⟨_, ht, use, rest, rfl, huse, hrest⟩ := hst
  obtain ⟨fs, hu, hfs⟩ := htu
  exact ⟨_, by rw [hu, ht, List.append_assoc], use, rest ++ fs, List.append_assoc .., huse,
    hrest.append hfs⟩

/-- A body that uses the slot, and one that needs none. -/
theorem used_bind {x : Body V α} {f : α → Body V β} (hx : Exec.Moves (Adds (Used env stream)) x)
    (hf : ∀ a, Exec.Moves (Adds (Only Event.Outside)) (f a)) :
    Exec.Moves (Adds (Used env stream)) (x >>= f) := by
  intro s
  have hs := hx s
  rcases h : x.run s with ⟨exc | a, t⟩
  · rw [Exec.run_bind_error h]
    rwa [h] at hs
  · rw [Exec.run_bind_ok h]
    rw [h] at hs
    exact hs.used (hf a t)

/-- The `except` clauses run after the slot is released. -/
theorem used_tryExcept {x : Body V α} {handler : Exc → Option (Body V α)}
    (hx : Exec.Moves (Adds (Used env stream)) x)
    (hhandler : ∀ exc, ∀ clause ∈ handler exc, Exec.Moves (Adds (Only Event.Outside)) clause) :
    Exec.Moves (Adds (Used env stream)) (Exec.tryExcept x handler) := by
  intro s
  have hs := hx s
  rcases h : x.run s with ⟨exc | a, t⟩
  · rw [h] at hs
    cases hcatch : handler exc with
    | none => rwa [Exec.run_tryExcept_uncaught h hcatch]
    | some clause =>
        rw [Exec.run_tryExcept_caught h hcatch]
        exact hs.used (hhandler exc clause hcatch t)
  · rw [Exec.run_tryExcept_ok h]
    rwa [h] at hs

/-- The `finally` block runs after the slot is released. -/
theorem used_tryFinally {x : Body V α} {cleanup : Body V Unit}
    (hx : Exec.Moves (Adds (Used env stream)) x)
    (hclean : Exec.Moves (Adds (Only Event.Outside)) cleanup) :
    Exec.Moves (Adds (Used env stream)) (Exec.tryFinally x cleanup) := by
  intro s
  rw [Exec.run_tryFinally_state]
  exact (hx s).used (hclean _)

end Rules

/-! ## The clauses -/

/-- The recording part of the `finally` clauses. -/
theorem only_recordUsage {row : UsageRecord} (h : P (.recorded row)) (app : App) :
    Exec.Moves (Adds (Only P)) (recordUsage app row : Body V Unit) := by
  intro s
  rw [run_recordUsage]
  refine ⟨_, rfl, ?_⟩
  split_ifs
  · exact only_singleton h
  · exact only_nil

/-- The exception handlers of the application. -/
theorem outside_handleException {exc : Exc} {answer : Body V Unit}
    (h : answer ∈ handleException env exc) :
    Exec.Moves (Adds (Only Event.Outside)) answer := by
  cases exc with
  | syn error =>
      obtain rfl := Option.some.inj h
      exact adds_log (only_singleton trivial)
  | exception message =>
      obtain rfl := Option.some.inj h
      exact adds_log (only_singleton trivial)
  | cancelledError => cases h
  | generatorExit => cases h

/-- The clauses around the admission queue of `_non_streaming_completion`. -/
theorem only_completionExceptQueue {exc : Exc} {clause : Body CompletionVars Unit}
    (h : clause ∈ completionExceptQueue exc) : Exec.Moves (Adds (Only P)) clause := by
  have hrefused :
      ∀ outcome default, Exec.Moves (Adds (Only P)) (completionRefused outcome default exc) :=
    fun outcome default => (adds_assign only_nil _).bind fun _ => Exec.Moves.raise exc
  unfold completionExceptQueue at h
  split_ifs at h
  · obtain rfl := Option.some.inj h
    exact hrefused _ _
  · obtain rfl := Option.some.inj h
    exact hrefused _ _
  · cases h

/-- The clauses around the call of the backend send nothing and call nothing. -/
theorem only_completionExceptBackend {clock : Clock} {exc : Exc} {clause : Body CompletionVars Unit}
    (h : clause ∈ completionExceptBackend clock exc) : Exec.Moves (Adds (Only P)) clause := by
  cases hcls : exc.backendClass with
  | some cls =>
      obtain ⟨what, hclause⟩ := completionExceptBackend_backend clock hcls
      rw [hclause] at h
      obtain rfl := Option.some.inj h
      exact (adds_assign only_nil _).bind fun _ => Exec.Moves.raise _
  | none =>
      rw [completionExceptBackend_other clock hcls] at h
      cases h

/-- The clauses of `stream_generator`. -/
theorem only_streamExcept {clock : Clock} {exc : Exc} {clause : Body StreamVars Unit}
    (h : clause ∈ streamExcept clock exc) : Exec.Moves (Adds (Only P)) clause :=
  moves_streamExcept (fun _ => adds_assign only_nil _) (fun _ => adds_assign only_nil _) h

/-! ## The completion functions -/

/-- The relay loop sends chunks. -/
theorem inside_closed {stream : Bool} : RelayClosed (Adds (Only (Event.Inside env stream))) where
  suspended _ := adds_nothing only_nil rfl
  sent _ _ := ⟨_, rfl, only_singleton trivial⟩
  chunkSeen _ _ := adds_nothing only_nil rfl

/-- A stream does all its work while it holds the slot. -/
theorem use_streamBody (env : Env) : Exec.Moves (Adds (Use env true)) (streamBody env) := by
  apply use_withAcquire
  refine (adds_assign only_nil _).bind fun _ => ?_
  refine (adds_log (only_singleton ⟨rfl, rfl, rfl⟩)).bind fun _ => ?_
  refine (moves_relay inside_closed _).bind fun _ => ?_
  exact (moves_yieldBytes inside_closed _).bind fun _ => adds_assign only_nil _

/-- A completion does all its work while it holds the slot. -/
theorem use_completionBody (env : Env) (reply : Except Exc ChatCompletionResponse) :
    Exec.Moves (Adds (Use env false)) (completionBody env reply) := by
  apply use_withAcquire
  refine (adds_assign only_nil _).bind fun _ => ?_
  apply Exec.Moves.tryExcept
  · refine (adds_log (only_singleton ⟨rfl, rfl, rfl⟩)).bind fun _ => ?_
    refine (adds_suspend only_nil _).bind fun _ => ?_
    cases reply with
    | error exc => exact Exec.Moves.raise exc
    | ok resp => exact adds_assign only_nil _
  · exact fun exc clause h => only_completionExceptBackend h

/-- A body that uses the slot once uses it at most once. -/
theorem moves_used {stream : Bool} {x : Body V α} (h : Exec.Moves (Adds (Use env stream)) x) :
    Exec.Moves (Adds (Used env stream)) x := by
  intro s
  obtain ⟨es, hes, huse⟩ := h s
  exact ⟨es, hes, huse.used⟩

/-- The generator uses the slot once, and its `finally` block needs none. -/
theorem used_streamGenerator (env : Env) :
    Exec.Moves (Adds (Used env true)) (streamGenerator env) := by
  apply used_tryFinally
  · exact used_tryExcept (moves_used (use_streamBody env)) fun _ _ h => only_streamExcept h
  · refine (adds_assign only_nil _).bind fun _ => Exec.Moves.get.bind fun s => ?_
    exact only_recordUsage trivial _

/-- The events of a request whose completion function was called. -/
def Traced (env : Env) (stream : Bool) (events : List Event) : Prop :=
  Only Event.Outside events ∨
    ∃ front es, events = front ++ es ∧ Only Event.Outside front ∧ Used env stream es

/-- A streaming request. -/
theorem traced_streamEvents (env : Env) : Traced env true (streamEvents env) := by
  by_cases hadmission : env.app.admission = true
  · right
    unfold streamEvents
    rw [run_serveStream env hadmission]
    obtain ⟨es, hes, hused⟩ := used_bind (used_streamGenerator env)
      (fun _ => adds_log (only_singleton (e := .sent .done) trivial)) (started env)
    exact ⟨(started env).events, es, hes, only_singleton trivial, hused⟩
  · left
    rw [streamEvents_not_wired env hadmission]
    exact only_singleton trivial

/-- What follows the `finally` clause of `_non_streaming_completion`. -/
theorem traced_completionEvents (env : Env) (reply : Except Exc ChatCompletionResponse) :
    Traced env false (completionEvents env reply) := by
  by_cases hadmission : env.app.admission = true
  · right
    have hbody : Exec.Moves (Adds (Used env false)) (nonStreamingCompletion env reply) := by
      unfold nonStreamingCompletion getAdmission
      rw [if_pos hadmission]
      refine used_bind (x := Exec.tryFinally _ _) ?_ fun _ => ?_
      · apply used_tryFinally
        · exact used_tryExcept (moves_used (use_completionBody env reply))
            fun _ _ h => only_completionExceptQueue h
        · exact Exec.Moves.get.bind fun s => only_recordUsage trivial _
      · -- the `finally` clause has run; what is left builds the response
        refine Exec.Moves.get.bind fun s => ?_
        split
        · exact Exec.Moves.raise _
        · dsimp only
          split
          · exact Exec.Moves.raise _
          · exact Exec.Moves.pure _
    have hserve : Exec.Moves (Adds (Used env false)) (serveCompletion env reply) := by
      apply used_tryExcept
      · exact used_bind hbody fun _ => adds_log (only_singleton trivial)
      · exact fun _ _ h => outside_handleException h
    obtain ⟨es, hes, hused⟩ := hserve { vars := {} }
    exact ⟨[], es, hes, only_nil, hused⟩
  · left
    unfold completionEvents serveCompletion nonStreamingCompletion getAdmission
    rw [if_neg hadmission]
    exact only_singleton trivial

/-! ## The call of the backend -/

/-- Where an element stands that occurs in the middle part only. -/
theorem split_middle {γ : Type} {xs ys zs before after : List γ} {a : γ}
    (h : xs ++ (ys ++ zs) = before ++ a :: after) (hxs : a ∉ xs) (hzs : a ∉ zs) :
    ∃ ys₁ ys₂, ys = ys₁ ++ a :: ys₂ ∧ before = xs ++ ys₁ := by
  have hinner : ∀ {mid : List γ}, ys ++ zs = mid ++ a :: after → ∃ ys₂, ys = mid ++ a :: ys₂ := by
    intro mid hmid
    rcases List.append_eq_append_iff.mp hmid with ⟨last, -, rfl⟩ | ⟨last, rfl, hlast⟩
    · exact absurd (List.mem_append_right last List.mem_cons_self) hzs
    · rcases List.cons_eq_append_iff.mp hlast with ⟨-, rfl⟩ | ⟨ys₂, rfl, -⟩
      · exact absurd List.mem_cons_self hzs
      · exact ⟨ys₂, rfl⟩
  rcases List.append_eq_append_iff.mp h with ⟨mid, rfl, hmid⟩ | ⟨mid, rfl, hmid⟩
  · obtain ⟨ys₂, hys⟩ := hinner hmid
    exact ⟨mid, ys₂, hys, rfl⟩
  · rcases List.cons_eq_append_iff.mp hmid with ⟨rfl, hys⟩ | ⟨mid, rfl, -⟩
    · obtain ⟨ys₂, hys⟩ := @hinner [] hys
      exact ⟨[], ys₂, hys, by rw [List.append_nil, List.append_nil]⟩
    · exact absurd (List.mem_append_right before List.mem_cons_self) hxs

/-- **The backend is called while the slot is held**: it was taken before the call and not given
back. It is the routed backend that is called, for the model of the internal request. -/
theorem Traced.called {stream stream' : Bool} {events before after : List Event}
    {backend : Backends.InferenceBackend} {model : Str} (h : Traced env stream events)
    (hsplit : events = before ++ .called backend model stream' :: after) :
    (.acquired ∈ before ∧ .released ∉ before) ∧
      backend = env.call.backend ∧ model = env.call.model ∧ stream' = stream := by
  have hcalled : ∀ {es : List Event}, Only Event.Outside es → .called backend model stream' ∉ es :=
    fun hes hmem => hes _ hmem
  rcases h with honly | ⟨front, _, rfl, hfront, use, rest, rfl, huse, hrest⟩
  · exact absurd (hsplit ▸ List.mem_append_right before List.mem_cons_self) (hcalled honly)
  · cases huse with
    | refused =>
        -- refused, so the backend is called nowhere
        obtain ⟨ys₁, ys₂, hys, -⟩ := split_middle hsplit (hcalled hfront) (hcalled hrest)
        have hmem : Event.called backend model stream' ∈ [Event.acquiring] :=
          hys ▸ List.mem_append_right ys₁ List.mem_cons_self
        cases List.mem_singleton.mp hmem
    | held inner hinner =>
        -- the call stands between the acquisition and the release
        have hsplit' : (front ++ [.acquiring, .acquired]) ++ (inner ++ (.released :: rest))
            = before ++ .called backend model stream' :: after := by
          rw [← hsplit]
          simp only [List.append_assoc, List.cons_append, List.nil_append]
        obtain ⟨ys₁, ys₂, rfl, rfl⟩ := split_middle hsplit'
          (by simpa using hcalled hfront) (by simpa using hcalled hrest)
        refine ⟨⟨by simp, ?_⟩, hinner _ (List.mem_append_right ys₁ List.mem_cons_self)⟩
        intro hmem
        simp only [List.mem_append, List.mem_cons, List.not_mem_nil, reduceCtorEq, or_false] at hmem
        rcases hmem with hmem | hmem
        · exact hfront _ hmem
        · exact hinner _ (List.mem_append_left _ hmem)

end SynGateway.Api.Chat
