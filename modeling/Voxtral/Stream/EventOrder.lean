import Voxtral.Stream.PacedModel

/-!
# The order of tokens and snapshots

A snapshot that is appended, or moved behind the current token, follows the tokens its text is made
of.  One that takes the place of an older snapshot in a full queue precedes the token that caused it.
As long as no snapshot takes that route, the order of the polled events is the documented one.
-/

namespace Voxtral

variable {α φ ε γ κ : Type*}

/-- A TOKEN event that is part of the text. -/
def StreamEvent.isText (e : StreamEvent) : Bool := e.isToken && e.token ≠ tokenEos

/-- The text of the TOKEN events of a list. -/
def tokenText (es : List StreamEvent) : Bytes :=
  (es.filter StreamEvent.isText).flatMap StreamEvent.text

/-- The number of TOKEN events of a list that are part of the text. -/
def textCount (es : List StreamEvent) : ℕ := (es.filter StreamEvent.isText).length

/-- Each snapshot of `es` has the text and the number of the TOKEN events before it, those before
the list contributing `text` and `count`. -/
def OrderedFrom : Bytes → ℕ → List StreamEvent → Prop
  | _, _, [] => True
  | text, count, e :: es =>
    (e.isPartial = true → e.text = text ∧ e.revision = count) ∧
      OrderedFrom (text ++ tokenText [e]) (count + textCount [e]) es

/-- The situations in which a snapshot does not take the place of an older one: the queue has room,
or coalescing is aggressive, or there is no older one. -/
def TraceEntry.InOrder : TraceEntry ε γ → Prop
  | .partialPush queue bound aggressive =>
    queue.length < bound ∨ aggressive = true ∨ ∀ e ∈ queue, e.isPartial = false
  | _ => True

section Lists

/-- The text of the tokens of two lists. -/
lemma tokenText_append (es es' : List StreamEvent) :
    tokenText (es ++ es') = tokenText es ++ tokenText es' := by
  rw [tokenText, List.filter_append, List.flatMap_append]
  rfl

/-- The counts of two lists add up. -/
lemma textCount_append (es es' : List StreamEvent) :
    textCount (es ++ es') = textCount es + textCount es' := by
  rw [textCount, List.filter_append, List.length_append]
  rfl

/-- The TOKEN event of a token that is not the end is part of the text. -/
lemma tokenEvent_isText (eng : Engine α φ ε γ κ) {p : PendingToken} (heos : p.token ≠ tokenEos)
    (n : ℕ) : (tokenEvent eng p n).isText = true := by
  have hkept : decide (p.token ≠ tokenEos) = true := decide_eq_true heos
  rw [StreamEvent.isText, show (tokenEvent eng p n).isToken = true from rfl, Bool.true_and]
  exact hkept

/-- A snapshot is no TOKEN event. -/
lemma isText_of_partial {e : StreamEvent} (he : e.isPartial = true) : e.isText = false := by
  have htype : e.type = .partialText := by simpa [StreamEvent.isPartial] using he
  simp [StreamEvent.isText, StreamEvent.isToken, htype]

/-- Events that are no tokens of the text contribute nothing. -/
lemma tokenText_of_not_text {es : List StreamEvent} (h : ∀ e ∈ es, e.isText = false) :
    tokenText es = [] ∧ textCount es = 0 := by
  have hnone : es.filter StreamEvent.isText = [] :=
    List.filter_eq_nil_iff.mpr fun e he => by simp [h e he]
  rw [tokenText, textCount, hnone]
  exact ⟨rfl, rfl⟩

/-- A snapshot contributes nothing. -/
lemma tokenText_partial {e : StreamEvent} (he : e.isPartial = true) :
    tokenText [e] = [] ∧ textCount [e] = 0 :=
  tokenText_of_not_text fun x hx => by rw [List.mem_singleton.mp hx, isText_of_partial he]

/-- A list is in order if its two parts are, the second from where the first ends. -/
lemma orderedFrom_append (text : Bytes) (count : ℕ) (es es' : List StreamEvent) :
    OrderedFrom text count (es ++ es') ↔
      OrderedFrom text count es ∧
        OrderedFrom (text ++ tokenText es) (count + textCount es) es' := by
  induction es generalizing text count with
  | nil => simp [OrderedFrom, tokenText, textCount]
  | cons e es ih =>
    have htext : text ++ tokenText [e] ++ tokenText es = text ++ tokenText (e :: es) := by
      rw [List.append_assoc, ← tokenText_append]
      rfl
    have hcount : count + textCount [e] + textCount es = count + textCount (e :: es) := by
      rw [Nat.add_assoc, ← textCount_append]
      rfl
    rw [List.cons_append, OrderedFrom, OrderedFrom, ih, htext, hcount, and_assoc]

/-- A snapshot of an ordered list has the text of the tokens before it. -/
lemma OrderedFrom.at {text : Bytes} {count : ℕ} {pre post : List StreamEvent} {e : StreamEvent}
    (h : OrderedFrom text count (pre ++ e :: post)) (he : e.isPartial = true) :
    e.text = text ++ tokenText pre ∧ e.revision = count + textCount pre :=
  ((orderedFrom_append _ _ _ _).mp h).2.1 he

/-- Without one of its snapshots a list is still ordered. -/
lemma OrderedFrom.remove {text : Bytes} {count : ℕ} {pre post : List StreamEvent} {e : StreamEvent}
    (h : OrderedFrom text count (pre ++ e :: post)) (he : e.isPartial = true) :
    OrderedFrom text count (pre ++ post) := by
  obtain ⟨hpre, -, hpost⟩ := (orderedFrom_append _ _ _ _).mp h
  obtain ⟨htext, hcount⟩ := tokenText_partial he
  rw [htext, hcount, List.append_nil, Nat.add_zero] at hpost
  exact (orderedFrom_append _ _ _ _).mpr ⟨hpre, hpost⟩

/-- Events that are no snapshots keep a list ordered. -/
lemma OrderedFrom.append_of_not_partial {text : Bytes} {count : ℕ} {es es' : List StreamEvent}
    (h : OrderedFrom text count es) (hes' : ∀ e ∈ es', e.isPartial = false) :
    OrderedFrom text count (es ++ es') := by
  refine (orderedFrom_append _ _ _ _).mpr ⟨h, ?_⟩
  clear h
  generalize text ++ tokenText es = text'
  generalize count + textCount es = count'
  induction es' generalizing text' count' with
  | nil => trivial
  | cons e es' ih =>
    refine ⟨fun he => ?_, ih (fun x hx => hes' x (List.mem_cons_of_mem e hx)) _ _⟩
    rw [hes' e List.mem_cons_self] at he
    exact absurd he (by decide)

end Lists

/-- The events of a stream are ordered, and their tokens make up its text. -/
structure EventOrder (s : Stream α φ ε γ κ) : Prop where
  ordered : OrderedFrom [] 0 (eventHistory s)
  text : tokenText (eventHistory s) = s.decoder.partialText
  count : textCount (eventHistory s) = s.decoder.partialRevision

section Steps

variable {eng : Engine α φ ε γ κ} {late : Prop} {s s' : Stream α φ ε γ κ}

/-- Changes that neither the events nor the text see. -/
lemma EventOrder.of_same (h : EventOrder s) (hevents : eventHistory s' = eventHistory s)
    (htext : s'.decoder.partialText = s.decoder.partialText)
    (hcount : s'.decoder.partialRevision = s.decoder.partialRevision) : EventOrder s' :=
  ⟨by rw [hevents]; exact h.ordered, by rw [hevents, htext, h.text], by
    rw [hevents, hcount, h.count]⟩

/-- The events that end a stream are neither snapshots nor tokens. -/
lemma EventOrder.appends {es : List StreamEvent} (h : EventOrder s) (happ : Appends s s' es)
    (hes : ∀ e ∈ es, e.isPartial = false ∧ e.isText = false) : EventOrder s' := by
  have hhistory : eventHistory s' = eventHistory s ++ es := by
    rw [eventHistory, eventHistory, happ.polled, happ.queue, List.append_assoc]
  obtain ⟨htext, hcount⟩ := tokenText_of_not_text fun e he => (hes e he).2
  refine ⟨?_, ?_, ?_⟩
  · rw [hhistory]
    exact h.ordered.append_of_not_partial fun e he => (hes e he).1
  · rw [hhistory, tokenText_append, htext, List.append_nil, happ.decoder, h.text]
  · rw [hhistory, textCount_append, hcount, happ.decoder, Nat.add_zero, h.count]

/-- The end of the stream is a TOKEN event without text. -/
lemma EventOrder.deliver_eos (h : EventOrder s) {p : PendingToken} (heos : p.token = tokenEos) :
    EventOrder (deliverPending eng s p) := by
  have hdec := deliverPending_decoder eng s p
  rw [decoderAfter, if_pos heos] at hdec
  obtain ⟨hqueue, -⟩ := deliverPending_eos_events eng s heos
  set tok := tokenEvent eng p (s.decoder.tokenSequence + 1) with htok
  have hhistory : eventHistory (deliverPending eng s p) = eventHistory s ++ [tok] := by
    rw [eventHistory, hqueue, eventHistory, List.append_assoc, deliverPending_eos heos]
    rfl
  have hnottext : ∀ e ∈ [tok], e.isText = false := by
    intro e he
    rw [List.mem_singleton.mp he, htok]
    simp [StreamEvent.isText, tokenEvent, heos]
  obtain ⟨htext, hcount⟩ := tokenText_of_not_text hnottext
  refine ⟨?_, ?_, ?_⟩
  · rw [hhistory]
    refine h.ordered.append_of_not_partial fun e he => ?_
    rw [List.mem_singleton.mp he, htok, tokenEvent_isPartial]
  · rw [hhistory, tokenText_append, htext, List.append_nil, hdec, h.text]
  · rw [hhistory, textCount_append, hcount, Nat.add_zero, hdec, h.count]

/-- A delivery whose snapshot does not take the place of an older one keeps the order. -/
lemma EventOrder.deliver_text (h : EventOrder s) {p : PendingToken} (heos : p.token ≠ tokenEos)
    (hpush : (TraceEntry.partialPush
      (s.events.queue ++ [tokenEvent eng p (s.decoder.tokenSequence + 1)]) s.events.bound
      s.events.aggressivePartialCoalescing : TraceEntry ε γ).InOrder) :
    EventOrder (deliverPending eng s p) := by
  obtain ⟨hroute, -⟩ := deliverPending_text_events eng s heos
  have hdec := deliverPending_decoder eng s p
  rw [decoderAfter, if_neg heos] at hdec
  have hpolled : (deliverPending eng s p).events.polled = s.events.polled := by
    rw [deliverPending_text heos]
    exact (afterSnapshot_frame eng s p).polled
  set tok := tokenEvent eng p (s.decoder.tokenSequence + 1) with htok
  set snap := snapshotOf eng s p with hsnap
  have hsnapshot : snap.isPartial = true := rfl
  -- the history with the TOKEN event of `p`
  have hordered : OrderedFrom [] 0 (eventHistory s ++ [tok]) := by
    refine h.ordered.append_of_not_partial fun e he => ?_
    rw [List.mem_singleton.mp he, htok, tokenEvent_isPartial]
  have htext : [tok].filter StreamEvent.isText = [tok] :=
    List.filter_eq_self.mpr fun e he => by
      rw [List.mem_singleton.mp he, htok, tokenEvent_isText eng heos]
  have hwithtok : tokenText (eventHistory s ++ [tok]) =
      s.decoder.partialText ++ tokenPiece eng.tokenizer p.token := by
    rw [tokenText_append, h.text, tokenText, htext, List.flatMap_singleton]
    rfl
  have hcount : textCount (eventHistory s ++ [tok]) = s.decoder.partialRevision + 1 := by
    rw [textCount_append, h.count, textCount, htext]
    rfl
  -- behind it, the snapshot of `p` is in order
  have hfits : OrderedFrom [] 0 (eventHistory s ++ [tok] ++ [snap]) := by
    refine (orderedFrom_append _ _ _ _).mpr ⟨hordered, fun _ => ⟨?_, ?_⟩, trivial⟩
    · rw [hwithtok]
      rfl
    · rw [hcount, Nat.zero_add]
      rfl
  obtain ⟨hsnaptext, hsnapcount⟩ := tokenText_partial hsnapshot
  -- what a new history needs
  suffices hsuff : OrderedFrom [] 0 (eventHistory (deliverPending eng s p)) ∧
      tokenText (eventHistory (deliverPending eng s p)) = tokenText (eventHistory s ++ [tok]) ∧
      textCount (eventHistory (deliverPending eng s p)) =
        textCount (eventHistory s ++ [tok]) by
    obtain ⟨h1, h2, h3⟩ := hsuff
    refine ⟨h1, ?_, ?_⟩
    · rw [h2, hwithtok, hdec]
      rfl
    · rw [h3, hcount, hdec]
  have hqueue : eventHistory s ++ [tok] = s.events.polled ++ (s.events.queue ++ [tok]) := by
    rw [eventHistory, List.append_assoc]
  rw [eventHistory, hpolled]
  rw [hqueue] at hordered hfits ⊢
  generalize s.events.queue ++ [tok] = queue at hroute hpush hordered hfits ⊢
  generalize (deliverPending eng s p).events.queue = queue' at hroute ⊢
  cases hroute with
  | append hroom =>
    rw [← List.append_assoc]
    refine ⟨hfits, ?_, ?_⟩
    · rw [tokenText_append, hsnaptext, List.append_nil]
    · rw [textCount_append, hsnapcount, Nat.add_zero]
  | moveBack pre x post haggressive hx hpre =>
    obtain ⟨hxtext, hxcount⟩ := tokenText_partial hx
    have hregroup : s.events.polled ++ (pre ++ x :: post) ++ [snap] =
        s.events.polled ++ pre ++ x :: (post ++ [snap]) := by simp
    rw [hregroup] at hfits
    have hremoved := hfits.remove hx
    refine ⟨by simpa using hremoved, ?_, ?_⟩
    · simp only [tokenText_append, hsnaptext, List.append_nil,
        show x :: post = [x] ++ post from rfl, hxtext, List.nil_append]
    · simp only [textCount_append, hsnapcount, show x :: post = [x] ++ post from rfl, hxcount]
      omega
  | replace pre x post hfull haggressive hx hpost =>
    rcases hpush with hroom | htrue | hnone
    · exact absurd hfull (not_le.mpr hroom)
    · rw [haggressive] at htrue
      exact absurd htrue (by decide)
    · rw [hnone x (by simp)] at hx
      exact absurd hx (by decide)
  | drop => exact ⟨hordered, rfl, rfl⟩

/-- Every transition that pushes its snapshots in order keeps the order. -/
lemma Transition.eventOrder (hstep : Transition eng late s s')
    (hpush : ∀ e ∈ s'.trace, TraceEntry.InOrder e) (h : EventOrder s) : EventOrder s' := by
  cases hstep with
  | pump _ _ _ _ hstep =>
    cases hstep with
    | deliver p =>
      by_cases heos : p.token = tokenEos
      · exact h.deliver_eos heos
      · obtain ⟨-, extra, htrace, -⟩ := deliverPending_text_events eng s heos
        refine h.deliver_text heos (hpush _ ?_)
        rw [htrace]
        simp
    | _ => exact h.of_same rfl rfl rfl
  | absorb _ hchange _ =>
    refine h.of_same (by rw [eventHistory, eventHistory, hchange.events]) ?_ ?_
    all_goals rw [hchange.decoder]
  | account hchange =>
    refine h.of_same (by rw [eventHistory, eventHistory, hchange.polled, hchange.queue]) ?_ ?_
    all_goals rw [hchange.decoder]
  | complete _ transcript tokens =>
    obtain ⟨es, happ, hsub⟩ := completeStream_appends
      { s with decoder := { s.decoder with transcript := transcript, tokens := tokens } }
    have hsame : EventOrder
        { s with decoder := { s.decoder with transcript := transcript, tokens := tokens } } :=
      h.of_same rfl rfl rfl
    refine hsame.appends happ fun e he => ?_
    have hmem := hsub.subset he
    simp only [List.mem_cons, List.not_mem_nil, or_false] at hmem
    rcases hmem with rfl | rfl <;> exact ⟨rfl, rfl⟩
  | fail _ status =>
    obtain ⟨es, happ, hes⟩ := failStream_appends s status
    refine h.appends happ fun e he => ?_
    simp [StreamEvent.isPartial, StreamEvent.isText, StreamEvent.isToken, hes e he, errorEvent]
  | cancel =>
    obtain ⟨es, happ, hes⟩ := cancelInternal_appends s
    refine h.appends happ fun e he => ?_
    simp [StreamEvent.isPartial, StreamEvent.isText, StreamEvent.isToken, hes e he,
      cancelledEvent]

/-- A poll keeps the order. -/
lemma EventOrder.poll (h : EventOrder s) : EventOrder (streamPollEvent s).1 := by
  obtain ⟨ev, heq, hev⟩ := streamPollEvent_eq s
  rw [heq]
  exact h.of_same hev rfl rfl

end Steps

/-- A new stream has no events. -/
lemma eventOrder_create (maxEvents : ℕ) (device : Device ε γ κ) :
    EventOrder (Stream.create maxEvents device : Stream α φ ε γ κ) :=
  ⟨trivial, rfl, rfl⟩

/-- The events are ordered at every moment up to which all snapshots were pushed in order. -/
lemma Moves.eventOrder {eng : Engine α φ ε γ κ} {late : Prop} {s s' : Stream α φ ε γ κ} (h : Moves eng late s s')
    (hs : EventOrder s) (hpush : ∀ e ∈ s'.trace, TraceEntry.InOrder e) : EventOrder s' := by
  induction h with
  | refl => exact hs
  | tail _ hmove ih =>
    cases hmove with
    | call hstep =>
      exact hstep.eventOrder hpush (ih fun e he => hpush e (hstep.trace_prefix.subset he))
    | poll =>
      obtain ⟨_, heq, -⟩ := streamPollEvent_eq _
      refine (ih fun e he => hpush e ?_).poll
      rw [heq]
      exact he

/-! ## Room for the snapshots -/

/-- The queue holds at most two events for every TOKEN event so far, also when a snapshot is pushed. -/
structure TwoPerToken (s : Stream α φ ε γ κ) : Prop where
  queue : s.Live → s.events.queue.length ≤ 2 * s.decoder.tokenSequence
  pushes : ∀ queue bound aggressive, .partialPush queue bound aggressive ∈ s.trace →
    queue.length < 2 * s.decoder.tokenSequence ∧ s.events.maxEvents ≤ bound

section Room

variable {eng : Engine α φ ε γ κ} {late : Prop} {s s' : Stream α φ ε γ κ}

/-- Changes without a delivery. -/
lemma TwoPerToken.of_same (h : TwoPerToken s)
    (hqueue : s'.Live → s.Live ∧ s'.events.queue.length ≤ s.events.queue.length)
    (hsequence : s'.decoder.tokenSequence = s.decoder.tokenSequence)
    (hmax : s'.events.maxEvents = s.events.maxEvents) {more : List (TraceEntry ε γ)}
    (htrace : s'.trace = s.trace ++ more)
    (hmore : ∀ queue bound aggressive, .partialPush queue bound aggressive ∉ more) :
    TwoPerToken s' := by
  refine ⟨fun hlive => ?_, fun queue bound aggressive hpush => ?_⟩
  · rw [hsequence]
    exact (hqueue hlive).2.trans (h.queue (hqueue hlive).1)
  · rw [htrace] at hpush
    rw [hsequence, hmax]
    exact h.pushes _ _ _ ((List.mem_append.mp hpush).resolve_right (hmore _ _ _))

/-- Appending the last events of a stream. -/
lemma TwoPerToken.appends {t : Stream α φ ε γ κ} (h : TwoPerToken t) {es : List StreamEvent}
    (happ : Appends t s' es) (hdead : ¬ s'.Live) : TwoPerToken s' :=
  h.of_same (fun hlive => absurd hlive hdead) (by rw [happ.decoder]) happ.maxEvents happ.trace
    (by simp)

/-- A delivery makes room for two events more. -/
lemma TwoPerToken.deliver (h : TwoPerToken s) (hlive : s.Live) (p : PendingToken) :
    TwoPerToken (deliverPending eng s p) := by
  have hsequence : (deliverPending eng s p).decoder.tokenSequence = s.decoder.tokenSequence + 1 := by
    rw [deliverPending_decoder, decoderAfter]
    split_ifs <;> rfl
  have hqueue := (deliverPending_events eng s p).1
  have hmax : (deliverPending eng s p).events.maxEvents = s.events.maxEvents := by
    by_cases heos : p.token = tokenEos
    · rw [deliverPending_eos heos]
      rfl
    · rw [deliverPending_text heos]
      exact (afterSnapshot_frame eng s p).maxEvents
  have hroom := h.queue hlive
  have hbound : s.events.maxEvents ≤ s.events.bound := Nat.le_add_right _ _
  refine ⟨fun _ => by omega, fun queue bound aggressive hpush => ?_⟩
  rw [hsequence, hmax]
  have hold : .partialPush queue bound aggressive ∈ s.trace →
      queue.length < 2 * (s.decoder.tokenSequence + 1) ∧ s.events.maxEvents ≤ bound := fun hold =>
    ⟨(h.pushes _ _ _ hold).1.trans (by omega), (h.pushes _ _ _ hold).2⟩
  by_cases heos : p.token = tokenEos
  · rw [(deliverPending_eos_events eng s heos).2] at hpush
    exact hold (by simpa using hpush)
  · obtain ⟨-, extra, htrace, hextra⟩ := deliverPending_text_events eng s heos
    rw [htrace] at hpush
    have hnone : .partialPush queue bound aggressive ∉ extra := fun hmem => by
      simpa using hextra.subset hmem
    simp only [List.mem_append, List.mem_cons, List.not_mem_nil, or_false, reduceCtorEq, false_or,
      TraceEntry.partialPush.injEq, hnone] at hpush
    rcases hpush with hpush | ⟨rfl, rfl, rfl⟩
    · exact hold hpush
    · rw [List.length_append, List.length_singleton]
      exact ⟨by omega, hbound⟩

/-- Every transition keeps the room. -/
lemma Transition.twoPerToken (hstep : Transition eng late s s') (h : TwoPerToken s) :
    TwoPerToken s' := by
  cases hstep with
  | pump hlive _ _ _ hstep =>
    -- a step that delivers nothing leaves queue and count alone
    have hsame : ∀ {t : Stream α φ ε γ κ} (more : List (TraceEntry ε γ)),
        t.events.queue = s.events.queue → t.decoder.tokenSequence = s.decoder.tokenSequence →
        t.events.maxEvents = s.events.maxEvents → t.trace = s.trace ++ more →
        (∀ queue bound aggressive, .partialPush queue bound aggressive ∉ more) → TwoPerToken t :=
      fun more hqueue hsequence hmax htrace hmore =>
        h.of_same (fun _ => ⟨hlive, by rw [hqueue]⟩) hsequence hmax htrace hmore
    cases hstep with
    | deliver p _ hpending hroom => exact h.deliver hlive p
    | bookkeep => exact hsame [] rfl rfl rfl (List.append_nil _).symm (by simp)
    | advanceAdapter => exact hsame [] rfl rfl rfl (List.append_nil _).symm (by simp)
    | commitGroup group => exact hsame [_] rfl rfl rfl rfl (by simp)
    | prefill => exact hsame [_] rfl rfl rfl rfl (by simp)
    | decoderStep => exact hsame [_] rfl rfl rfl rfl (by simp)
  | absorb hlive hchange _ =>
    obtain ⟨runs, htrace, hruns⟩ := hchange.trace
    exact h.of_same (fun _ => ⟨hlive, by rw [hchange.events]⟩) (by rw [hchange.decoder])
      (by rw [hchange.events]) htrace fun _ _ _ hmem => hruns _ hmem
  | account hchange =>
    refine h.of_same (fun hlive => ⟨?_, by rw [hchange.queue]⟩) (by rw [hchange.decoder])
      hchange.maxEvents (show s'.trace = s.trace ++ [] by rw [hchange.trace, List.append_nil])
      (by simp)
    rcases hchange.state with hstate | hlives
    · unfold Stream.Live at hlive ⊢
      rwa [hstate] at hlive
    · exact hlives.1
  | complete hlive transcript tokens =>
    obtain ⟨es, happ, -⟩ := completeStream_appends
      { s with decoder := { s.decoder with transcript := transcript, tokens := tokens } }
    have hsame : TwoPerToken
        { s with decoder := { s.decoder with transcript := transcript, tokens := tokens } } :=
      ⟨h.queue, h.pushes⟩
    exact hsame.appends happ (by simp [Stream.Live, completeStream, clearError])
  | fail hlive status =>
    obtain ⟨es, happ, -⟩ := failStream_appends s status
    exact h.appends happ (by simp [Stream.Live, failStream])
  | cancel hstate =>
    obtain ⟨es, happ, -⟩ := cancelInternal_appends s
    refine h.appends happ ?_
    unfold cancelInternal
    rcases hstate with hstate | hstate <;> simp [hstate, Stream.Live, clearError]

/-- A poll keeps the room. -/
lemma TwoPerToken.poll (h : TwoPerToken s) : TwoPerToken (streamPollEvent s).1 := by
  unfold streamPollEvent
  cases hqueue : s.events.queue with
  | nil => exact h
  | cons e rest =>
    refine ⟨fun hlive => le_trans ?_ (h.queue hlive), h.pushes⟩
    simp [hqueue]

end Room

/-- A queue with room for two events for every TOKEN event is never full when a snapshot is pushed. -/
lemma room_for_snapshots [Zero α] {eng : Engine α φ ε γ κ} {maxEvents : ℕ} {device : Device ε γ κ}
    {ops : List Op} {s : Stream α φ ε γ κ} {os : List Response}
    (hrun : runSteps (streamStep eng) (Stream.create maxEvents device) ops = some (s, os))
    (hroom : 2 * s.decoder.tokenSequence ≤ s.events.maxEvents) :
    ∀ queue bound aggressive, .partialPush queue bound aggressive ∈ s.trace →
      queue.length < bound := by
  have h : TwoPerToken s := stream_invariant True (fun _ _ hstep _ h => hstep.twoPerToken h)
    (fun _ h => h.poll) ⟨fun _ => Nat.zero_le _, fun _ _ _ hmem => absurd hmem List.not_mem_nil⟩
    (Or.inl trivial) hrun
  intro queue bound aggressive hpush
  obtain ⟨hlength, hbound⟩ := h.pushes _ _ _ hpush
  omega

/-! ## The ordering law -/

/-- Event ordering.  In a run in which no snapshot takes the place of an older one in a full queue,
every polled snapshot comes after the TOKEN event that caused it: its text is made up of the pieces of
exactly the TOKEN events polled before it, the end of the stream left out, and its revision is their
number. -/
theorem snapshots_follow_their_tokens [Zero α] (eng : Engine α φ ε γ κ) (maxEvents : ℕ)
    (device : Device ε γ κ) (ops : List Op) (s : Stream α φ ε γ κ) (os : List Response)
    (hrun : runSteps (streamStep eng) (Stream.create maxEvents device) ops = some (s, os))
    (hpush : ∀ queue bound aggressive, .partialPush queue bound aggressive ∈ s.trace →
      queue.length < bound ∨ aggressive = true ∨ ∀ e ∈ queue, e.isPartial = false)
    (pre post : List (StreamEvent × PublicEvent)) (x : StreamEvent × PublicEvent)
    (hsplit : polledEvents os = pre ++ x :: post) (hx : x.1.isPartial = true) :
    x.1.text = tokenText (pre.map Prod.fst) ∧ x.1.revision = textCount (pre.map Prod.fst) := by
  have hpush' : ∀ e ∈ s.trace, TraceEntry.InOrder e := by
    intro e he
    cases e with
    | partialPush queue bound aggressive => exact hpush queue bound aggressive he
    | _ => trivial
  have h := Moves.eventOrder (runSteps_moves (opReady_create eng True maxEvents device)
    (Or.inl trivial) hrun).1
    (eventOrder_create maxEvents device) hpush'
  have hpolled : s.events.polled = pre.map Prod.fst ++ x.1 :: post.map Prod.fst := by
    rw [← map_fst_publicEvents 0 s.events.polled, ← polledEvents_create hrun, hsplit]
    simp
  have hordered := h.ordered
  rw [eventHistory, hpolled, List.append_assoc, List.cons_append] at hordered
  obtain ⟨htext, hcount⟩ := hordered.at hx
  exact ⟨by simpa using htext, by simpa using hcount⟩

/-- In a queue with room, the first snapshot has the text of the first token. -/
theorem snapshots_follow_their_tokens_first : ∃ s os pre x post,
    runSteps (streamStep (plainEngine defaultSchedule)) (Stream.create 64 plainDevice)
      [feedZeros 16000, .poll, .poll] = some (s, os) ∧
    polledEvents os = pre ++ x :: post ∧ x.1.isPartial = true ∧
      x.1.text = tokenText (pre.map Prod.fst) ∧ x.1.revision = textCount (pre.map Prod.fst) := by
  obtain ⟨s, os, hrun, hresponses, halike⟩ := exists_pacedRun (plainEngine_runs defaultSchedule) 64
    [feedZeros 16000, .poll, .poll] (by simp [TotalFits])
  simp only [List.map_cons, feedZeros_paced, poll_paced, List.map_nil] at hresponses halike
  have hmodel : let m := (pacedRun (plainEngine defaultSchedule) 64 plainDevice
      [.feed false 16000, .poll, .poll])
      2 * m.1.decoder.tokenSequence ≤ m.1.events.maxEvents ∧
        (polledEvents m.2).map (fun x => x.1.isPartial) = [false, true] := by
    decide +kernel
  simp only [hresponses, halike.decoder, halike.events] at hmodel
  obtain ⟨hroom, hkinds⟩ := hmodel
  obtain ⟨a, b, heq⟩ := List.length_eq_two.mp (by simpa using congrArg List.length hkinds)
  have hkind : b.1.isPartial = true := by
    rw [heq] at hkinds
    simp only [List.map_cons, List.map_nil, List.cons.injEq, and_true] at hkinds
    exact hkinds.2
  exact ⟨s, os, [a], b, [], hrun, heq, hkind, snapshots_follow_their_tokens
    (plainEngine defaultSchedule) 64 plainDevice _ s os hrun
    (fun _ _ _ hpush => Or.inl (room_for_snapshots hrun hroom _ _ _ hpush)) [a] [] b heq hkind⟩

/-- A snapshot that takes the place of an older one in a full queue overtakes the token that caused
it: the text of the second event is that of two tokens. -/
theorem snapshot_overtakes_token : ∃ s os,
    runSteps (streamStep (plainEngine defaultSchedule)) (Stream.create 3 plainDevice)
      [feedZeros 16000, .poll, .poll, .poll] = some (s, os) ∧
    ∃ pre x post, polledEvents os = pre ++ x :: post ∧ x.1.isPartial = true ∧
      x.1.text ≠ tokenText (pre.map Prod.fst) := by
  obtain ⟨s, os, hrun, hresponses, -⟩ := exists_pacedRun (plainEngine_runs defaultSchedule) 3
    [feedZeros 16000, .poll, .poll, .poll] (by simp [TotalFits])
  have hpolled : (polledEvents (pacedRun (plainEngine defaultSchedule) 3 plainDevice
      [.feed false 16000, .poll, .poll, .poll]).2).map (fun x => (x.1.isPartial, x.1.text,
        tokenText [x.1])) = [(false, [65], [65]), (true, [65, 65], []), (false, [65], [65])] := by
    decide +kernel
  simp only [List.map_cons, feedZeros_paced, poll_paced, List.map_nil] at hresponses
  rw [hresponses] at hpolled
  obtain ⟨a, b, c, heq⟩ := List.length_eq_three.mp (by simpa using congrArg List.length hpolled)
  refine ⟨s, os, hrun, [a], b, [c], heq, ?_⟩
  rw [heq] at hpolled
  simp only [List.map_cons, List.map_nil, List.cons.injEq, Prod.mk.injEq, and_true] at hpolled
  obtain ⟨⟨-, -, ha⟩, ⟨hkind, htext, -⟩, -⟩ := hpolled
  simp [hkind, htext, ha]
end Voxtral
