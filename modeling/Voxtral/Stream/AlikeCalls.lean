import Voxtral.Stream.Alike
import Voxtral.Stream.FeedOutcome

/-!
# Calls that streams answer alike

Polls, cancellations and the end of a stream depend on its records only: alike streams stay alike and
give the same answers.
-/

namespace Voxtral

variable {α φ ε γ κ : Type*} {eng : Engine α φ ε γ κ} {s t : Stream α φ ε γ κ} {n : ℕ}

/-- The same changes of the lifecycle and of the events. -/
lemma Alike.map (h : Alike eng n s t) (f : Lifecycle → Lifecycle) (g : Events → Events) :
    Alike eng n { s with lifecycle := f s.lifecycle, events := g s.events }
      { t with lifecycle := f t.lifecycle, events := g t.events } :=
  (h.mapLifecycle f).mapEvents g s.trace t.trace

/-- An error is cleared alike. -/
lemma clearError_alike (h : Alike eng n s t) : Alike eng n (clearError s) (clearError t) :=
  h.mapLifecycle fun l => { l with lastStatus := .ok, lastError := "" }

/-- Streams fail alike. -/
lemma failStream_alike (h : Alike eng n s t) (status : Status) :
    Alike eng n (failStream s status) (failStream t status) := by
  have hfail := (pushEvent_alike h (errorEvent s status)).2.mapLifecycle
    fun l => { l with state := .failed }
  unfold failStream emitError
  rw [h.lifecycle]
  exact hfail

/-- So they do behind an exception. -/
lemma failStreamNoexcept_alike (h : Alike eng n s t) (status : Status) (msg : String) :
    Alike eng n (failStreamNoexcept s status msg) (failStreamNoexcept t status msg) :=
  failStream_alike (setError_alike (h.map id fun ev => { ev with finalizingFlush := true }) _ _) _

/-- A finish throws alike. -/
lemma finishThrew_alike (h : Alike eng n s t) (what : String) :
    Alike eng n (finishThrew s what).1 (finishThrew t what).1 :=
  failStream_alike (setError_alike h _ _) _

/-- Streams complete alike. -/
lemma completeStream_alike (h : Alike eng n s t) :
    Alike eng n (completeStream s) (completeStream t) := by
  have hfinal := (pushEvent_alike h (finalTextEvent s)).2
  have hlast := (pushEvent_alike hfinal (completedEvent s)).2
  have hstate := clearError_alike (hlast.mapLifecycle fun l => { l with state := .completed })
  unfold completeStream emitFinalAndCompleted
  rw [h.lifecycle, h.decoder]
  exact hstate

/-- A cancel is answered alike. -/
lemma cancelInternal_alike (h : Alike eng n s t) :
    (cancelInternal t).2 = (cancelInternal s).2 ∧
      Alike eng n (cancelInternal s).1 (cancelInternal t).1 := by
  have hcancel := clearError_alike (h.mapLifecycle fun l =>
    { l with cancelRequested := true, state := .cancelled })
  have hevent := (pushEvent_alike (h.map (fun l => { l with cancelRequested := true })
    fun ev => { ev with finalizingFlush := true }) (cancelledEvent s)).2
  have hemit := clearError_alike (hevent.mapLifecycle fun l =>
    { l with cancelledEmitted := true, state := .cancelled })
  unfold cancelInternal
  rw [h.lifecycle]
  cases hstate : s.lifecycle.state with
  | completed => exact ⟨rfl, setError_alike h _ _⟩
  | cancelled => exact ⟨rfl, h⟩
  | failed => exact ⟨rfl, h⟩
  | finishing => exact ⟨rfl, setError_alike h _ _⟩
  | created | running =>
    simp only
    split_ifs with hemitted
    · rw [h.lifecycle] at hcancel
      exact ⟨trivial, hcancel⟩
    · rw [h.lifecycle] at hemit
      exact ⟨trivial, hemit⟩

/-- A poll is answered alike. -/
lemma streamPollEvent_alike (h : Alike eng n s t) :
    (streamPollEvent t).2 = (streamPollEvent s).2 ∧
      Alike eng n (streamPollEvent s).1 (streamPollEvent t).1 := by
  unfold streamPollEvent
  rw [h.events]
  cases s.events.queue with
  | nil => exact ⟨rfl, h⟩
  | cons e rest =>
    have hpoll := h.mapEvents (fun ev => { ev with
      queue := rest, polled := ev.polled ++ [e], publicPollSequence := ev.publicPollSequence + 1 })
      s.trace t.trace
    rw [h.events] at hpoll
    exact ⟨rfl, hpoll⟩

/-! ## The end of a feed -/

/-- The bookkeeping of a feed of `count` samples behind its slice loop: `previous` is the coalescing
mode to restore. -/
def feedEnd (previous : Bool) (count : ℕ) (r : Stream α φ ε γ κ × Status) :
    Stream α φ ε γ κ × Status :=
  let restore := fun s : Stream α φ ε γ κ =>
    { s with events := { s.events with aggressivePartialCoalescing := previous } }
  if r.2 ≠ .ok ∧ r.2 ≠ .limitExceeded then (restore r.1, r.2)
  else
    let s := { r.1 with lifecycle := { r.1.lifecycle with
      totalSamplesReceived := r.1.lifecycle.totalSamplesReceived + count
      feedCalls := r.1.lifecycle.feedCalls + 1
      state := if r.1.lifecycle.state = .created then .running else r.1.lifecycle.state } }
    if r.2 = .limitExceeded then (restore s, .limitExceeded) else (restore (clearError s), .ok)

/-- The audio path of a feed is its slice loop between two steps of bookkeeping. -/
lemma feedAudio_eq [Zero α] (eng : Engine α φ ε γ κ) (s : Stream α φ ε γ κ) (samples : List ℤ) :
    feedAudio eng s samples = (ensureLeftPad eng (feedStart s samples.length)).bind fun u =>
      (feedSlices eng u false (audioSlices (samples.map eng.sampleOf))).map
        (feedEnd s.events.aggressivePartialCoalescing samples.length) := rfl

/-- The end of a feed keeps its status. -/
lemma feedEnd_status (previous : Bool) (count : ℕ) (r : Stream α φ ε γ κ × Status) :
    (feedEnd previous count r).2 = r.2 := by
  unfold feedEnd
  by_cases hlimit : r.2 = .limitExceeded
  · simp [hlimit]
  · by_cases hok : r.2 = .ok
    · simp [hok]
    · simp [hlimit, hok]

/-- Feeds end alike. -/
lemma feedEnd_alike (previous : Bool) (count : ℕ) (h : Alike eng n s t) (status : Status) :
    Alike eng n (feedEnd previous count (s, status)).1 (feedEnd previous count (t, status)).1 := by
  have hrestore : ∀ {s t : Stream α φ ε γ κ}, Alike eng n s t → Alike eng n
      { s with events := { s.events with aggressivePartialCoalescing := previous } }
      { t with events := { t.events with aggressivePartialCoalescing := previous } } :=
    fun {s t} h => h.map id fun ev => { ev with aggressivePartialCoalescing := previous }
  have hcount := h.mapLifecycle fun l => { l with
    totalSamplesReceived := l.totalSamplesReceived + count
    feedCalls := l.feedCalls + 1
    state := if l.state = .created then .running else l.state }
  unfold feedEnd
  by_cases hfail : status ≠ .ok ∧ status ≠ .limitExceeded
  · simp only [if_pos hfail]
    exact hrestore h
  · by_cases hlimit : status = .limitExceeded
    · simp only [if_neg hfail, if_pos hlimit]
      exact hrestore hcount
    · simp only [if_neg hfail, if_neg hlimit]
      exact hrestore (clearError_alike hcount)

end Voxtral
