import Voxtral.Stream.Lifecycle
import Voxtral.Stream.Twins

/-!
# The transition table and the reentrancy guard

Every call that changes a stream engages `op_guard`, and finds it engaged only when it is made from
within another one: from the finishing hook.  Whatever the hook calls, it can but poll, and the calls of
a caller move the lifecycle as the table of `voxtral-stream.h` says (`lifecycle_of_calls`), but for one
cell: a finish of a stream in state `created` may fail when a feed has failed before.
-/

namespace Voxtral

variable {α φ ε γ κ : Type*}

/-- A call that engages the guard. -/
inductive LifecycleCall
  | feed (buf : FeedBuffer)
  | finish
  | cancel
  | reset

/-- The cells of a feed of `count` samples to a stream in the open state `s`. -/
def feedCells (count : ℕ) (s : StreamState) : List (Status × StreamState) :=
  if count = 0 then [(.ok, s), (.limitExceeded, s), (.backendError, s)]
  else [(.ok, .running), (.limitExceeded, .running), (.limitExceeded, s), (.invalidArgument, s),
    (.backendError, s)]

/-- The transition table of `voxtral-stream.h`: the statuses a call may return in a state, each with the
state it leaves. -/
def transitionTable : LifecycleCall → StreamState → List (Status × StreamState)
  | .feed buf, .created => feedCells buf.count .created
  | .feed buf, .running => feedCells buf.count .running
  | .finish, .created => [(.ok, .completed), (.limitExceeded, .created)]
  | .finish, .running => [(.ok, .completed), (.backendError, .failed), (.limitExceeded, .running)]
  | .finish, .completed => [(.ok, .completed)]
  | .finish, .cancelled => [(.ok, .cancelled)]
  | .cancel, .created | .cancel, .running | .cancel, .cancelled => [(.ok, .cancelled)]
  | .cancel, .failed => [(.ok, .failed)]
  | .reset, .finishing => []
  | .reset, _ => [(.ok, .created)]
  | _, .finishing => []
  | _, s => [(.invalidState, s)]

/-! ## The guard -/

/-- A stream with `lifecycle.in_operation`. -/
structure GuardedStream (α φ ε γ κ : Type*) where
  stream : Stream α φ ε γ κ
  inOperation : Bool := false

/-- What a call or a poll returns. -/
inductive GuardedResponse
  | status (status : Status)
  | polled (response : Response)

/-- `op_guard` around the body of a call: it is engaged before the body and released behind it, and a
call that finds it engaged returns. -/
def GuardedStream.operate (g : GuardedStream α φ ε γ κ)
    (body : Stream α φ ε γ κ → Option (Stream α φ ε γ κ × Status)) :
    Option (GuardedStream α φ ε γ κ × GuardedResponse) :=
  if g.inOperation then some (g, .status .busy)
  else (body g.stream).map fun r => ({ stream := r.1, inOperation := false }, .status r.2)

/-- A call or a poll. -/
inductive GuardedCall
  | call (call : LifecycleCall)
  | poll

section Guard

variable [Zero α]

/-- `voxtral_stream_finish_internal` behind its finishing hook. -/
def finishBehindHook (eng : Engine α φ ε γ κ) (s : Stream α φ ε γ κ) :
    Option (Stream α φ ε γ κ × Status) :=
  if s.lifecycle.totalSamplesReceived = 0 then
    some (completeStream
      { s with
        decoder := { s.decoder with transcript := [], tokens := [] }
        lifecycle := { s.lifecycle with totalSamplesConsumed := 0 } }, .ok)
  else (finishFrontend eng s).map (finishTail eng)

/-- `voxtral_stream_finish_internal` with its finishing hook, which runs while the guard is engaged. -/
def finishHooked (eng : Engine α φ ε γ κ)
    (hook : GuardedStream α φ ε γ κ → Option (GuardedStream α φ ε γ κ)) (s : Stream α φ ε γ κ) :
    Option (Stream α φ ε γ κ × Status) :=
  let live := fun s : Stream α φ ε γ κ =>
    (hook { stream := flushStart s, inOperation := true }).bind fun g => finishBehindHook eng g.stream
  match s.lifecycle.state with
  | .completed => some (s, .ok)
  | .cancelled => some (s, .ok)
  | .failed => some (setError s .invalidState "finish not allowed after failure", .invalidState)
  | .finishing => some (s, .busy)
  | .created | .running =>
    if s.events.decoderBackpressured then
      let p := pumpIncremental eng s
      if p.2 = .limitExceeded then some p
      else if p.2 ≠ .ok then
        some (failStream { p.1 with events := { p.1.events with finalizingFlush := true } } p.2, p.2)
      else live p.1
    else live s

/-- Answer a call or a poll. -/
def guardedStep (eng : Engine α φ ε γ κ) (clearKv : κ → κ)
    (hook : GuardedStream α φ ε γ κ → Option (GuardedStream α φ ε γ κ))
    (g : GuardedStream α φ ε γ κ) :
    GuardedCall → Option (GuardedStream α φ ε γ κ × GuardedResponse)
  | .call (.feed buf) => g.operate fun s => feedCommon eng s buf
  | .call .finish => g.operate (finishHooked eng hook)
  | .call .cancel => g.operate fun s => some (cancelInternal s)
  | .call .reset => g.operate fun s => some (resetInternal clearKv s, .ok)
  | .poll =>
    let p := streamPollEvent g.stream
    some ({ g with stream := p.1 }, .polled p.2)

/-- The hook acts on the stream by calls and polls only. -/
def ActsByCalls (eng : Engine α φ ε γ κ) (clearKv : κ → κ)
    (hook : GuardedStream α φ ε γ κ → Option (GuardedStream α φ ε γ κ)) : Prop :=
  ∀ g g', hook g = some g' → ∃ calls os, runSteps (guardedStep eng clearKv hook) g calls = some (g', os)

end Guard

/-! ## Calls from within the hook -/

section Hook

variable [Zero α] {eng : Engine α φ ε γ κ} {clearKv : κ → κ}
  {hook : GuardedStream α φ ε γ κ → Option (GuardedStream α φ ε γ κ)} {s s' : Stream α φ ε γ κ}
  {status : Status}

omit [Zero α] in
/-- A stream after `n` polls. -/
def pollTimes (s : Stream α φ ε γ κ) (n : ℕ) : Stream α φ ε γ κ :=
  (fun s => (streamPollEvent s).1)^[n] s

omit [Zero α] in
/-- One poll more, at the front. -/
lemma pollTimes_succ (s : Stream α φ ε γ κ) (n : ℕ) :
    pollTimes s (n + 1) = pollTimes (streamPollEvent s).1 n := rfl

omit [Zero α] in
/-- A poll and the start of the flush commute. -/
lemma streamPollEvent_flushStart (s : Stream α φ ε γ κ) :
    (streamPollEvent (flushStart s)).1 = flushStart (streamPollEvent s).1 := by
  obtain ⟨_, _, _, _, ⟨queue⟩, _, _⟩ := s
  cases queue <;> rfl

omit [Zero α] in
/-- So do polls. -/
lemma pollTimes_flushStart (s : Stream α φ ε γ κ) (n : ℕ) :
    pollTimes (flushStart s) n = flushStart (pollTimes s n) := by
  induction n generalizing s with
  | zero => rfl
  | succ n ih => rw [pollTimes_succ, streamPollEvent_flushStart, ih, ← pollTimes_succ]

/-- A call made while the guard is engaged returns `busy` and changes nothing. -/
lemma guardedStep_engaged (s : Stream α φ ε γ κ) (call : LifecycleCall) :
    guardedStep eng clearKv hook { stream := s, inOperation := true } (.call call) =
      some ({ stream := s, inOperation := true }, .status .busy) := by
  cases call <;> rfl

/-- What is called while the guard is engaged can but poll. -/
lemma runSteps_engaged {g : GuardedStream α φ ε γ κ} {calls : List GuardedCall}
    {os : List GuardedResponse}
    (hrun : runSteps (guardedStep eng clearKv hook) { stream := s, inOperation := true } calls =
      some (g, os)) : ∃ n, g = { stream := pollTimes s n, inOperation := true } := by
  induction calls generalizing s os with
  | nil =>
    obtain ⟨rfl, -⟩ := Prod.mk.inj (Option.some.inj hrun)
    exact ⟨0, rfl⟩
  | cons call calls ih =>
    obtain ⟨g', o, os', hstep, hrest, -⟩ := runSteps_cons_eq_some.mp hrun
    cases call with
    | call call =>
      rw [guardedStep_engaged] at hstep
      obtain ⟨rfl, -⟩ := Prod.mk.inj (Option.some.inj hstep)
      exact ih hrest
    | poll =>
      obtain ⟨rfl, -⟩ := Prod.mk.inj (Option.some.inj hstep)
      obtain ⟨n, rfl⟩ := ih hrest
      exact ⟨n + 1, rfl⟩

/-- A finish without a hook. -/
lemma finishLive_eq_behindHook (eng : Engine α φ ε γ κ) (s : Stream α φ ε γ κ) :
    finishLive eng s = finishBehindHook eng (flushStart s) := rfl

/-- The hook runs when an open stream has room for the token it stashed; then its polls are all that a
finish notices of it. -/
lemma finishHooked_live (hhook : ActsByCalls eng clearKv hook) (hopen : s.Open)
    (hresumes : Resumes eng s) (h : finishHooked eng hook s = some (s', status)) :
    ∃ n, finishLive eng (pollTimes (resumed eng s) n) = some (s', status) := by
  have hlive : ((hook { stream := flushStart (resumed eng s), inOperation := true }).bind fun g =>
      finishBehindHook eng g.stream) = some (s', status) := by
    unfold finishHooked at h
    by_cases hbp : s.events.decoderBackpressured = true
    · rw [show resumed eng s = (pumpIncremental eng s).1 from if_pos hbp]
      have hok := hresumes hbp
      rcases hopen with hstate | hstate <;> simpa [hstate, hbp, hok] using h
    · rw [show resumed eng s = s from if_neg hbp]
      rcases hopen with hstate | hstate <;> simpa [hstate, hbp] using h
  obtain ⟨g, hg, htail⟩ := Option.bind_eq_some_iff.mp hlive
  obtain ⟨calls, os, hcalls⟩ := hhook _ _ hg
  obtain ⟨n, rfl⟩ := runSteps_engaged hcalls
  refine ⟨n, ?_⟩
  rw [finishLive_eq_behindHook, ← pollTimes_flushStart]
  exact htail

/-- Any other finish returns before the hook. -/
lemma finishHooked_of_not (h : ¬ (s.Open ∧ Resumes eng s)) :
    finishHooked eng hook s = finishInternal eng s := by
  unfold finishHooked finishInternal
  have hopen : s.Open → s.events.decoderBackpressured = true ∧ (pumpIncremental eng s).2 ≠ .ok := by
    intro hopen
    have hresumes : ¬ Resumes eng s := fun hresumes => h ⟨hopen, hresumes⟩
    unfold Resumes at hresumes
    push Not at hresumes
    exact hresumes
  cases hstate : s.lifecycle.state with
  | created =>
    obtain ⟨hbp, hok⟩ := hopen (Or.inl hstate)
    simp [hbp, hok]
  | running =>
    obtain ⟨hbp, hok⟩ := hopen (Or.inr hstate)
    simp [hbp, hok]
  | _ => rfl

end Hook

end Voxtral
