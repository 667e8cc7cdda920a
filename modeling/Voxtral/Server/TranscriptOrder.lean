import Voxtral.Server.Messages

/-!
# The sequence values of a realtime transcript

The worker polls stream events with increasing sequence numbers and enqueues token and partial messages
for them, and the final and completed messages at the end.  A partial takes the place of the one queued
last; when a token was queued behind that one, the newer partial is written before the older token.  As
long as no partial is replaced from in front of a message with a sequence value, the messages are written
in increasing order.
-/

namespace Voxtral

/-- The session's worker and its outbound queue: the events not yet polled, the messages being enqueued,
and whether the terminal messages are due or the worker gave up. -/
structure Transcript where
  config : RealtimeConfiguration
  text : Bytes
  events : List PublicEvent
  terminal : TerminalEvents := {}
  pending : List (OutboundMessage ServerMessage) := []
  finished : Bool := false
  out : Outbound ServerMessage := {}

/-- A step of the worker or any other critical section. -/
inductive TranscriptCall
  /-- The worker polls the next event. -/
  | poll
  /-- The worker has no more events and turns to the terminal messages. -/
  | finish
  /-- One round of the enqueue the worker is in. -/
  | enqueue
  /-- Another critical section of the worker or the IO thread, with a message of another type. -/
  | other (call : OutboundCall ServerMessage)

/-- The messages other than the transcript are mandatory ones without a sequence value. -/
def isOther : OutboundCall ServerMessage → Bool
  | .enqueueFromWorker m => m.kind = .mandatory ∧ m.payload.sequence = none
  | .enqueueFromIo m => m.kind = .mandatory ∧ m.payload.sequence = none
  | _ => true

namespace Transcript

/-- One step, with the message handed to the socket. -/
def step (size : ServerMessage → ℕ) (s : Transcript) :
    TranscriptCall → Option (Transcript × OutboundEvent ServerMessage)
  | .poll =>
    match s.pending, s.events with
    | [], event :: rest =>
      if event.type = .error ∨ event.type = .cancelled then
        -- the worker fails or returns
        some ({ s with events := [], finished := true }, .quiet)
      else
        some ({ s with
            events := rest
            terminal := s.terminal.observe event
            pending := (eventMessage s.config event).toList }, .quiet)
    | _, _ => none
  | .finish =>
    match s.pending, s.events, s.finished with
    | [], [], false => some ({ s with pending := s.terminal.messages s.text, finished := true }, .quiet)
    | _, _, _ => none
  | .enqueue =>
    match s.pending with
    | [] => none
    | message :: rest =>
      match s.out.enqueueFromWorker size message with
      | (out, .refused) =>
        -- `false`: the worker returns
        some ({ s with out, pending := [], events := [], finished := true }, .refused)
      | (out, .waits) => some ({ s with out }, .waits)
      | (out, event) => some ({ s with out, pending := rest }, event)
  | .other call =>
    if isOther call then
      (Outbound.outboundStep size s.out call).map fun r => ({ s with out := r.1 }, r.2)
    else none

/-- The session before the first event is polled. -/
def start (config : RealtimeConfiguration) (text : Bytes) (events : List PublicEvent) : Transcript where
  config := config
  text := text
  events := events

/-- Whether the enqueue the worker is in would put a partial in front of a message with a sequence
value. -/
def overtakes (size : ServerMessage → ℕ) (s : Transcript) : Bool :=
  match s.pending with
  | [] => false
  | message :: _ =>
    match (s.out.enqueueFromWorker size message).2, s.out.coalescePartial size message,
      Outbound.splitAtPartial s.out.outbound with
    | .accepted _, some _, some (_, _, behind) => behind.any fun m => m.payload.sequence.isSome
    | _, _, _ => false

/-- The sequence values of messages. -/
def sequences (messages : List (OutboundMessage ServerMessage)) : List ℕ :=
  messages.filterMap fun m => m.payload.sequence

/-- The sequence values handed to the socket. -/
def writtenSequences (done : List (OutboundEvent ServerMessage)) : List ℕ :=
  done.filterMap fun
    | .written m => m.payload.sequence
    | _ => none

/-- The sequence values the worker has still to enqueue after the messages it is enqueueing. -/
def upcoming (s : Transcript) : List ℕ :=
  sequences (s.events.flatMap fun event => (eventMessage s.config event).toList) ++
    if s.finished then [] else sequences ((s.events.foldl TerminalEvents.observe s.terminal).messages s.text)

/-- All sequence values after those already written, in the order in which they are to be written. -/
def waiting (s : Transcript) : List ℕ :=
  sequences s.out.outbound ++ (sequences s.pending ++ s.upcoming)

variable {size : ServerMessage → ℕ} {s s' : Transcript} {event : OutboundEvent ServerMessage}

/-- No messages have no sequence values. -/
@[simp] lemma sequences_nil : sequences [] = [] := rfl

/-- The sequence values of messages behind messages. -/
@[simp] lemma sequences_append (q q' : List (OutboundMessage ServerMessage)) :
    sequences (q ++ q') = sequences q ++ sequences q' := List.filterMap_append

/-- Fewer messages have fewer sequence values. -/
lemma sequences_sublist {q q' : List (OutboundMessage ServerMessage)} (h : q.Sublist q') :
    (sequences q).Sublist (sequences q') := h.filterMap _

/-- A message other than a partial replaces none. -/
lemma coalescePartial_of_mandatory {out : Outbound ServerMessage} {m : OutboundMessage ServerMessage}
    (hm : m.kind = .mandatory) : out.coalescePartial size m = none := by
  simp [Outbound.coalescePartial, hm]

/-- Making room only drops messages. -/
lemma makeRoom_sublist (size : ServerMessage → ℕ) (bytes rounds : ℕ) (out : Outbound ServerMessage) :
    (out.makeRoom size bytes rounds).outbound.Sublist out.outbound := by
  induction rounds generalizing out with
  | zero => exact List.Sublist.refl _
  | succ rounds ih =>
    rw [Outbound.makeRoom]
    split
    · exact List.Sublist.refl _
    · cases hr : out.removeOptionalPartial size with
      | none => exact List.Sublist.refl _
      | some out' =>
        have hdropped : out'.outbound.Sublist out.outbound := by
          unfold Outbound.removeOptionalPartial at hr
          split at hr
          · cases hr
          · next before existing behind hsplit =>
            cases hr
            rw [(Outbound.splitAtPartial_spec hsplit).1]
            exact (List.Sublist.refl before).append (List.sublist_cons_self existing behind)
        exact (ih out').trans hdropped

/-- A message without a sequence value adds none. -/
lemma sequences_push {out : Outbound ServerMessage} {m : OutboundMessage ServerMessage}
    (hm : m.payload.sequence = none) :
    sequences (out.push size m).outbound = sequences out.outbound := by
  simp [Outbound.push, sequences, hm]

/-- A critical section about other messages writes from the front of the queue and adds no sequence value
to it. -/
lemma other_sublist {out out' : Outbound ServerMessage} {call : OutboundCall ServerMessage}
    (hother : isOther call = true) (hstep : Outbound.outboundStep size out call = some (out', event)) :
    (writtenSequences [event] ++ sequences out'.outbound).Sublist (sequences out.outbound) := by
  cases call with
  | enqueueFromWorker m =>
    simp only [isOther, Bool.decide_and, Bool.and_eq_true, decide_eq_true_eq] at hother
    have hstep : out.enqueueFromWorker size m = (out', event) := Option.some.inj hstep
    rcases out.enqueueFromWorker_cases m with hc | hc | ⟨out'', hcoalesced, -⟩ | hc
    · rw [hc] at hstep
      obtain ⟨rfl, rfl⟩ := Prod.mk.inj hstep
      exact List.Sublist.refl _
    · rw [hc] at hstep
      obtain ⟨rfl, rfl⟩ := Prod.mk.inj hstep
      exact List.Sublist.refl _
    · rw [coalescePartial_of_mandatory hother.1] at hcoalesced
      cases hcoalesced
    · rw [hc] at hstep
      obtain ⟨rfl, rfl⟩ := Prod.mk.inj hstep
      rw [sequences_push hother.2]
      exact List.Sublist.refl _
  | enqueueFromIo m =>
    simp only [isOther, Bool.decide_and, Bool.and_eq_true, decide_eq_true_eq] at hother
    have hstep : out.enqueueFromIo size m = (out', event) := Option.some.inj hstep
    unfold Outbound.enqueueFromIo at hstep
    rw [coalescePartial_of_mandatory hother.1] at hstep
    dsimp only at hstep
    split at hstep
    · obtain ⟨rfl, rfl⟩ := Prod.mk.inj hstep
      exact List.Sublist.refl _
    · have hroom := sequences_sublist (makeRoom_sublist size (size m.payload) out.outbound.length out)
      split at hstep
      · obtain ⟨rfl, rfl⟩ := Prod.mk.inj hstep
        rw [sequences_push hother.2]
        exact hroom
      · obtain ⟨rfl, rfl⟩ := Prod.mk.inj hstep
        exact hroom
  | maybeWrite =>
    have hstep : out.maybeWrite = (out', event) := Option.some.inj hstep
    unfold Outbound.maybeWrite at hstep
    split at hstep
    · obtain ⟨rfl, rfl⟩ := Prod.mk.inj hstep
      exact List.Sublist.refl _
    · split at hstep
      · obtain ⟨rfl, rfl⟩ := Prod.mk.inj hstep
        exact List.Sublist.refl _
      · next front rest hqueue =>
        obtain ⟨rfl, rfl⟩ := Prod.mk.inj hstep
        rw [hqueue]
        cases hfront : front.payload.sequence with
        | none => simp [writtenSequences, sequences, hfront]
        | some n => simp [writtenSequences, sequences, hfront]
  | onWrite =>
    simp only [Outbound.outboundStep] at hstep
    split at hstep <;> cases hstep
    exact List.Sublist.refl _
  | requestCloseAfterDrain =>
    cases hstep
    exact List.Sublist.refl _
  | closeTransport readInProgress =>
    cases hstep
    unfold Outbound.closeTransport Outbound.finishSession
    split
    · exact List.Sublist.refl _
    · split
      · split
        · exact List.Sublist.refl _
        · exact List.nil_sublist _
      · exact List.Sublist.refl _
  | finishSession =>
    cases hstep
    unfold Outbound.finishSession
    split
    · exact List.Sublist.refl _
    · exact List.nil_sublist _
  | cancellation token =>
    cases hstep
    exact List.Sublist.refl _

/-- A partial that overtakes no message with a sequence value is queued in order. -/
lemma coalesced_sublist {out out' : Outbound ServerMessage} {m : OutboundMessage ServerMessage}
    (hc : out.coalescePartial size m = some out')
    (hbehind : ∀ before existing behind, Outbound.splitAtPartial out.outbound = some (before, existing, behind) →
      ∀ b ∈ behind, b.payload.sequence = none) :
    (sequences out'.outbound).Sublist (sequences out.outbound ++ sequences [m]) := by
  unfold Outbound.coalescePartial at hc
  split at hc
  · cases hc
  · split at hc
    · cases hc
    · next before existing behind hsplit =>
      dsimp only at hc
      split at hc
      · cases hc
        have hnone : sequences behind = [] :=
          List.filterMap_eq_nil_iff.mpr (hbehind before existing behind hsplit)
        have hqueue := (Outbound.splitAtPartial_spec hsplit).1
        have hnew : sequences (before ++ m :: behind) = sequences before ++ sequences [m] := by
          rw [List.append_cons, sequences_append, sequences_append, hnone, List.append_nil]
        change (sequences (before ++ m :: behind)).Sublist _
        rw [hnew, hqueue, sequences_append]
        exact (List.sublist_append_left _ _).append (List.Sublist.refl _)
      · cases hc

/-- Every step that lets no partial overtake keeps the order of what is still to be written. -/
lemma step_sublist {call : TranscriptCall} (hstep : s.step size call = some (s', event))
    (horder : call = .enqueue → overtakes size s = false) :
    (writtenSequences [event] ++ s'.waiting).Sublist s.waiting := by
  cases call with
  | poll =>
    simp only [step] at hstep
    split at hstep
    · next next rest hpending hevents =>
      split at hstep
      · cases hstep
        simp [writtenSequences, waiting, upcoming, sequences, hpending]
      · cases hstep
        simp [writtenSequences, waiting, upcoming, hpending, hevents, List.append_assoc]
    · cases hstep
  | finish =>
    simp only [step] at hstep
    split at hstep
    · next hpending hevents hfinished =>
      cases hstep
      simp [writtenSequences, waiting, upcoming, hpending, hevents, hfinished]
    · cases hstep
  | enqueue =>
    simp only [step] at hstep
    split at hstep
    · cases hstep
    · next message rest hpending =>
      have hmore : sequences s.pending = sequences [message] ++ sequences rest := by
        rw [hpending, ← sequences_append]
        rfl
      rcases s.out.enqueueFromWorker_cases message with hc | hc | ⟨out', hcoalesced, hc⟩ | hc
      · rw [hc] at hstep
        cases hstep
        simp [writtenSequences, waiting, upcoming, sequences]
      · rw [hc] at hstep
        cases hstep
        exact List.Sublist.refl _
      · rw [hc] at hstep
        cases hstep
        have hbehind : ∀ before existing behind,
            Outbound.splitAtPartial s.out.outbound = some (before, existing, behind) →
            ∀ b ∈ behind, b.payload.sequence = none := by
          intro before existing behind hsplit b hb
          have hfree := horder rfl
          simp only [overtakes, hpending, hc, hcoalesced, hsplit] at hfree
          simpa using List.any_eq_false.mp hfree b hb
        have hqueue := coalesced_sublist hcoalesced hbehind
        simp only [waiting, hmore, List.append_assoc] at hqueue ⊢
        rw [← List.append_assoc (sequences s.out.outbound)]
        exact hqueue.append (List.Sublist.refl _)
      · rw [hc] at hstep
        cases hstep
        simp only [waiting, hmore, Outbound.push, sequences_append, List.append_assoc]
        exact List.Sublist.refl _
  | other call =>
    simp only [step] at hstep
    split at hstep
    · next hother =>
      obtain ⟨⟨out', event'⟩, hout, hmade⟩ := Option.map_eq_some_iff.mp hstep
      cases hmade
      have hqueue := other_sublist hother hout
      simp only [waiting, upcoming] at hqueue ⊢
      rw [← List.append_assoc]
      exact hqueue.append (List.Sublist.refl _)
    · cases hstep

/-! ## Whole runs -/

/-- FINAL_TEXT and COMPLETED end the events of a stream, in this order. -/
def TerminalLast (events : List PublicEvent) : Prop :=
  ∃ body ending, events = body ++ ending ∧
    (∀ event ∈ body, event.type ≠ .finalText ∧ event.type ≠ .completed) ∧
    (ending = [] ∨ (∃ final, ending = [final] ∧ final.type = .finalText) ∨
      ∃ final completed, ending = [final, completed] ∧ final.type = .finalText ∧
        completed.type = .completed)

/-- The message of an event has its sequence value. -/
lemma sequences_eventMessage (config : RealtimeConfiguration) (events : List PublicEvent) :
    (sequences (events.flatMap fun event => (eventMessage config event).toList)).Sublist
      (events.map PublicEvent.sequence) := by
  induction events with
  | nil => exact List.Sublist.refl _
  | cons event rest ih =>
    rw [List.flatMap_cons, sequences_append, List.map_cons]
    have hhead : (sequences (eventMessage config event).toList).Sublist [event.sequence] := by
      unfold eventMessage
      split
      · split
        · exact List.Sublist.refl _
        · exact List.nil_sublist _
      · split
        · exact List.Sublist.refl _
        · exact List.nil_sublist _
      · exact List.nil_sublist _
    exact hhead.append ih

/-- Events before the terminal ones leave both unseen. -/
lemma observe_body {body : List PublicEvent} (terminal : TerminalEvents)
    (hbody : ∀ event ∈ body, event.type ≠ .finalText ∧ event.type ≠ .completed) :
    (body.foldl TerminalEvents.observe terminal).finalSeen = terminal.finalSeen ∧
      (body.foldl TerminalEvents.observe terminal).completedSeen = terminal.completedSeen := by
  induction body generalizing terminal with
  | nil => exact ⟨rfl, rfl⟩
  | cons event rest ih =>
    obtain ⟨hf, hc⟩ := hbody event List.mem_cons_self
    obtain ⟨ihf, ihc⟩ := ih (terminal.observe event)
      fun e he => hbody e (List.mem_cons_of_mem event he)
    have hobserve : (terminal.observe event).finalSeen = terminal.finalSeen ∧
        (terminal.observe event).completedSeen = terminal.completedSeen := by
      unfold TerminalEvents.observe
      split
      · exact ⟨rfl, rfl⟩
      · next htype => exact absurd htype hf
      · next htype => exact absurd htype hc
      · exact ⟨rfl, rfl⟩
    exact ⟨ihf.trans hobserve.1, ihc.trans hobserve.2⟩

/-- At the start all sequence values of the session are in the order of the events. -/
lemma start_waiting (config : RealtimeConfiguration) (text : Bytes) {events : List PublicEvent}
    (hlast : TerminalLast events) :
    (start config text events).waiting.Sublist (events.map PublicEvent.sequence) := by
  obtain ⟨body, ending, rfl, hbody, hending⟩ := hlast
  have hunseen := observe_body {} hbody
  have hmessages := sequences_eventMessage config body
  change (sequences ((body ++ ending).flatMap fun event => (eventMessage config event).toList) ++
    sequences (((body ++ ending).foldl TerminalEvents.observe {}).messages text)).Sublist _
  rw [List.flatMap_append, sequences_append, List.foldl_append, List.map_append, List.append_assoc]
  refine hmessages.append ?_
  rcases hending with rfl | ⟨final, rfl, hfinal⟩ | ⟨final, completed, rfl, hfinal, hcompleted⟩
  · simp [TerminalEvents.messages, hunseen]
  · simp [TerminalEvents.messages, TerminalEvents.observe, eventMessage, hfinal, hunseen]
  · simp [TerminalEvents.messages, TerminalEvents.observe, eventMessage, hfinal, hcompleted, sequences,
      ServerMessage.sequence]

/-- **Transcript messages are written in order.**  For every configuration, all events with increasing
sequence numbers that end with FINAL_TEXT and COMPLETED, and every interleaving of the worker, the IO
thread and the socket in which no partial overtakes a message with a sequence value, the sequence values
handed to the socket increase strictly. -/
theorem transcript_sequences_increase (size : ServerMessage → ℕ) (config : RealtimeConfiguration)
    (text : Bytes) {events : List PublicEvent}
    (hsorted : events.Pairwise fun e e' => e.sequence < e'.sequence) (hlast : TerminalLast events)
    {calls : List TranscriptCall} {s : Transcript} {done : List (OutboundEvent ServerMessage)}
    (horder : RunMeets (step size) (fun s call => call = .enqueue → overtakes size s = false)
      (start config text events) calls)
    (hrun : runSteps (step size) (start config text events) calls = some (s, done)) :
    (writtenSequences done).Pairwise (· < ·) := by
  have hall : (writtenSequences done ++ s.waiting).Pairwise (· < ·) := by
    refine runSteps_induction_of_meets (P := fun s _ done =>
      (writtenSequences done ++ s.waiting).Pairwise (· < ·)) ?_ ?_ horder hrun
    · intro s calls done call s' event hsofar hmeets hstep
      have hrest := step_sublist hstep hmeets
      have hwritten : writtenSequences (done ++ [event]) =
          writtenSequences done ++ writtenSequences [event] := List.filterMap_append
      rw [hwritten, List.append_assoc]
      exact hsofar.sublist ((List.Sublist.refl _).append hrest)
    · exact (List.pairwise_map.mpr hsorted).sublist (start_waiting config text hlast)
  exact hall.sublist (List.sublist_append_left _ _)

/-- An event of the example runs. -/
def plainEvent (type : EventType) (sequence : ℕ) : PublicEvent where
  type := type
  sequence := sequence
  tokenId := -1
  status := .ok
  specialToken := false
  textStable := false
  textTruncated := false
  audioStartMs := 0
  audioEndMs := 0
  text := []

/-- Three partials and the terminal events. -/
def partialsOnly : List PublicEvent :=
  [plainEvent .partialText 1, plainEvent .partialText 2, plainEvent .partialText 3,
    plainEvent .finalText 4, plainEvent .completed 5]

/-- The third partial replaces the second while the first is being written. -/
def coalescingCalls : List TranscriptCall :=
  [.poll, .enqueue, .other .maybeWrite, .poll, .enqueue, .poll, .enqueue, .poll, .poll, .finish,
    .enqueue, .enqueue, .other .onWrite, .other .maybeWrite, .other .onWrite, .other .maybeWrite,
    .other .onWrite, .other .maybeWrite]

/-- Without token events the partials and the terminal messages come in order. -/
theorem transcript_sequences_increase_coalesced : ∃ s done,
    runSteps (step fun _ => 100) (start ⟨true, false⟩ [] partialsOnly) coalescingCalls =
      some (s, done) ∧
    writtenSequences done = [1, 3, 4, 5] ∧ (writtenSequences done).Pairwise (· < ·) := by
  obtain ⟨s, done, hrun, hwritten⟩ : ∃ s done,
      runSteps (step fun _ => 100) (start ⟨true, false⟩ [] partialsOnly) coalescingCalls =
        some (s, done) ∧ writtenSequences done = [1, 3, 4, 5] := ⟨_, _, rfl, rfl⟩
  refine ⟨s, done, hrun, hwritten, transcript_sequences_increase (fun _ => 100) ⟨true, false⟩ []
    (by decide) ⟨[plainEvent .partialText 1, plainEvent .partialText 2, plainEvent .partialText 3],
      [plainEvent .finalText 4, plainEvent .completed 5], rfl, by decide,
      .inr (.inr ⟨_, _, rfl, rfl, rfl⟩)⟩ ?_ hrun⟩
  refine RunMeets.mono ?_ (runMeets_of_checkRun (c := fun s call => match call with
    | .enqueue => !overtakes (fun _ => 100) s
    | _ => true) (by decide))
  rintro s call hcheck rfl
  simpa using hcheck

/-- Two tokens, each followed by its partial. -/
def tokensAndPartials : List PublicEvent :=
  [plainEvent .token 1, plainEvent .partialText 2, plainEvent .token 3, plainEvent .partialText 4]

/-- The worker enqueues all of them while the socket is busy. -/
def overtakingCalls : List TranscriptCall :=
  [.other (.enqueueFromIo ⟨.sessionCreated "st_1" "voxtral", .mandatory⟩), .other .maybeWrite,
    .poll, .enqueue, .poll, .enqueue, .poll, .enqueue, .poll, .enqueue, .other .onWrite,
    .other .maybeWrite, .other .onWrite, .other .maybeWrite, .other .onWrite, .other .maybeWrite]

/-- Partial 4 takes the place of partial 2 and is written before token 3. -/
theorem partial_overtakes_token :
    (tokensAndPartials.Pairwise fun e e' => e.sequence < e'.sequence) ∧ ∃ s done,
      runSteps (step fun _ => 100) (start ⟨true, true⟩ [] tokensAndPartials) overtakingCalls =
        some (s, done) ∧
      writtenSequences done = [1, 4, 3] ∧ ¬ (writtenSequences done).Pairwise (· < ·) := by
  refine ⟨by decide, _, _, rfl, rfl, ?_⟩
  decide

end Transcript

end Voxtral
