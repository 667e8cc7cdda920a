import Voxtral.Server.Messages
import Voxtral.Stream.Delivery
import Voxtral.Stream.StableText

/-!
# The text the server sends

Token and partial messages carry the text of a public event, which `copy_event_text` has validated.  The
final message and the response of a batch request carry the text of `EngineStream::final_text`: it copies
the transcript without validating it, and reads it back as a C string, up to the first zero byte.
-/

namespace Voxtral

/-! ## Validation accepts what is well formed -/

/-- The loop never moves back. -/
lemma le_utf8PrefixLoop (text : Bytes) (stop fuel i : ℕ) : i ≤ utf8PrefixLoop text stop fuel i := by
  induction fuel generalizing i with
  | zero => exact le_rfl
  | succ fuel ih =>
    rw [utf8PrefixLoop]
    split
    · split
      · exact le_rfl
      · next w _ => exact (Nat.le_add_right i w).trans (ih (i + w))
    · exact le_rfl

/-- The validator accepts an encoded character within the available bytes. -/
lemma codePointWidthAt_encode {text rest : Bytes} {stop i : ℕ} (c : Char)
    (htext : text.drop i = String.utf8EncodeChar c ++ rest)
    (hstop : i + (String.utf8EncodeChar c).length ≤ stop) :
    codePointWidthAt text stop i = some (String.utf8EncodeChar c).length := by
  have hbyte : ∀ j, text.getD (i + j) 0 = (String.utf8EncodeChar c ++ rest).getD j 0 := by
    intro j
    rw [← htext, List.getD_eq_getElem?_getD, List.getD_eq_getElem?_getD, List.getElem?_drop]
  have hlead := hbyte 0
  rw [Nat.add_zero] at hlead
  rcases utf8EncodeChar_cases c with ⟨a, hc, ha⟩ | ⟨a, b, hc, ha, hb⟩ |
    ⟨a, b, d, hc, ha, hcont, hlow, hhigh⟩ | ⟨a, b, d, e, hc, ha, hcont, hlow, hhigh⟩ <;>
    rw [hc] at hlead hbyte hstop ⊢ <;> simp only [codePointWidthAt, hlead, hbyte] <;>
    simp only [IsContinuation, List.length_cons, List.length_nil, List.cons_append, List.nil_append,
      List.getD_cons_zero, List.getD_cons_succ] at *
  · rw [if_pos ha]
  · rw [if_neg (by omega), if_pos ha, if_neg (by omega), if_pos hb]
  · rw [if_neg (by omega), if_neg (by omega), if_pos ha, if_neg (by omega), if_neg (by omega),
      if_neg (by omega)]
  · rw [if_neg (by omega), if_neg (by omega), if_neg (by omega), if_pos ha, if_neg (by omega),
      if_neg (by omega), if_neg (by omega)]

/-- The loop passes the characters in front of it. -/
lemma utf8PrefixLoop_chars {text rest : Bytes} {stop fuel i : ℕ} (cs : List Char)
    (htext : text.drop i = cs.flatMap String.utf8EncodeChar ++ rest)
    (hstop : i + (cs.flatMap String.utf8EncodeChar).length ≤ stop)
    (hfuel : (cs.flatMap String.utf8EncodeChar).length ≤ fuel) :
    i + (cs.flatMap String.utf8EncodeChar).length ≤ utf8PrefixLoop text stop fuel i := by
  induction cs generalizing fuel i with
  | nil => exact le_utf8PrefixLoop text stop fuel i
  | cons c cs ih =>
    rw [List.flatMap_cons, List.append_assoc] at htext
    rw [List.flatMap_cons, List.length_append] at hstop hfuel ⊢
    have hpos : 0 < (String.utf8EncodeChar c).length := by
      rw [String.length_utf8EncodeChar]
      exact Char.utf8Size_pos c
    obtain ⟨fuel, rfl⟩ : ∃ k, fuel = k + 1 := ⟨fuel - 1, by omega⟩
    have hwithin : i + (String.utf8EncodeChar c).length ≤ stop := by omega
    have hwidth := codePointWidthAt_encode c htext hwithin
    have hnext : text.drop (i + (String.utf8EncodeChar c).length) =
        cs.flatMap String.utf8EncodeChar ++ rest := by
      rw [← List.drop_drop, htext, List.drop_left]
    rw [utf8PrefixLoop, if_pos (by omega), hwidth, ← Nat.add_assoc]
    exact ih hnext (by omega) (by omega)

/-- A well-formed prefix within the limit is kept. -/
lemma length_le_utf8PrefixAtMost {text start : Bytes} {limit : ℕ} (hwell : WellFormedUtf8 start)
    (hstart : start <+: text) (hlimit : start.length ≤ limit) :
    start.length ≤ utf8PrefixAtMost text limit := by
  obtain ⟨cs, rfl⟩ := hwell
  obtain ⟨rest, rfl⟩ := hstart
  set text := cs.flatMap String.utf8EncodeChar ++ rest with htext
  have hstop : (cs.flatMap String.utf8EncodeChar).length ≤ min text.length limit :=
    le_min (by rw [htext, List.length_append]; exact Nat.le_add_right _ _) hlimit
  have hdrop : text.drop 0 = cs.flatMap String.utf8EncodeChar ++ rest := List.drop_zero
  have hloop := utf8PrefixLoop_chars cs hdrop (hstop.trans_eq' (Nat.zero_add _).symm) hstop
  rwa [Nat.zero_add] at hloop

/-- What is kept is a well-formed part of the text. -/
lemma utf8PrefixAtMost_spec (text : Bytes) (limit : ℕ) :
    utf8PrefixAtMost text limit ≤ min text.length limit ∧
      WellFormedUtf8 (text.take (utf8PrefixAtMost text limit)) :=
  (utf8PrefixLoop_spec (min_le_left text.length limit) (min text.length limit) 0 (Nat.zero_le _)
    (by rw [List.take_zero]; exact wellFormedUtf8_nil)).2

/-- A text is well formed if the validator keeps all of it. -/
lemma wellFormedUtf8_iff (text : Bytes) :
    WellFormedUtf8 text ↔ utf8PrefixAtMost text text.length = text.length := by
  obtain ⟨hle, hkept⟩ := utf8PrefixAtMost_spec text text.length
  refine ⟨fun hwell => ?_, fun hall => ?_⟩
  · exact Nat.le_antisymm (hle.trans (min_le_left _ _)) (length_le_utf8PrefixAtMost hwell List.prefix_rfl le_rfl)
  · rwa [hall, List.take_length] at hkept

instance : DecidablePred WellFormedUtf8 := fun text => decidable_of_iff _ (wellFormedUtf8_iff text).symm

/-- A public event holds at most its capacity. -/
lemma length_copyEventText_le (source : Bytes) (stableBytes : ℕ) :
    (copyEventText source stableBytes).length ≤ eventTextCapacity - 1 := by
  have hle := (utf8PrefixAtMost_spec source
    (min (min stableBytes source.length) (eventTextCapacity - 1))).1
  rw [copyEventText, List.length_take]
  omega

/-! ## The final text -/

variable {α φ ε γ κ : Type*}

/-- What `voxtral_stream_get_final_text` returns. -/
inductive FinalTextStatus
  | ok
  | invalidArgument
  | notReady
  | invalidState
  | internalError
  | bufferTooSmall
  deriving DecidableEq, Repr

/-- The results of `voxtral_stream_get_final_text`: its status, `*required` and the bytes it writes to the
buffer. -/
structure FinalTextAnswer where
  status : FinalTextStatus
  required : ℕ
  written : Bytes

/-- `voxtral_stream_get_final_text` with a buffer of `capacity` bytes, or with none. -/
def getFinalText (s : Stream α φ ε γ κ) (buffer : Bool) (capacity : ℕ) : FinalTextAnswer :=
  if buffer = false ∧ capacity ≠ 0 then ⟨.invalidArgument, 0, []⟩
  else
    match s.lifecycle.state with
    | .created | .running | .finishing => ⟨.notReady, 0, []⟩
    | .cancelled | .failed => ⟨.invalidState, 0, []⟩
    | .completed =>
      let text := s.decoder.transcript
      if text.length = 2 ^ 64 - 1 then ⟨.internalError, 0, []⟩
      else
        let needed := text.length + 1
        if buffer = false ∧ capacity = 0 then ⟨.ok, needed, []⟩
        else if buffer = false ∨ capacity < needed then
          ⟨.bufferTooSmall, needed, if buffer = true ∧ 0 < capacity then [0] else []⟩
        else ⟨.ok, needed, text ++ [0]⟩

/-- The string a null-terminated buffer holds. -/
def cString (buffer : Bytes) : Bytes := buffer.takeWhile (· ≠ 0)

/-- `EngineStream::final_text`: one call for the size, one for the text. -/
def engineFinalText (s : Stream α φ ε γ κ) : Except FinalTextStatus Bytes :=
  let size := getFinalText s false 0
  if size.status ≠ .ok then .error size.status
  else if size.required = 0 then .error .internalError
  else
    let answer := getFinalText s true size.required
    if answer.status ≠ .ok then .error answer.status else .ok (cString answer.written)

/-- The string in front of a terminating zero byte. -/
@[simp] lemma cString_append_zero (text : Bytes) : cString (text ++ [0]) = cString text := by
  induction text with
  | nil => rfl
  | cons b text ih =>
    unfold cString at ih ⊢
    rw [List.cons_append, List.takeWhile_cons, List.takeWhile_cons, ih]

/-- A final text is the transcript up to its first zero byte. -/
lemma engineFinalText_ok {s : Stream α φ ε γ κ} {text : Bytes} (h : engineFinalText s = .ok text) :
    s.lifecycle.state = .completed ∧ text = cString s.decoder.transcript := by
  unfold engineFinalText at h
  cases hstate : s.lifecycle.state with
  | completed =>
    refine ⟨rfl, ?_⟩
    by_cases hmax : s.decoder.transcript.length = 2 ^ 64 - 1
    · have hsize : getFinalText s false 0 = ⟨.internalError, 0, []⟩ := by
        simp only [getFinalText, hstate, hmax]
        rfl
      rw [hsize] at h
      cases h
    · have hsize : getFinalText s false 0 = ⟨.ok, s.decoder.transcript.length + 1, []⟩ := by
        simp only [getFinalText, hstate, if_neg hmax]
        rfl
      have hcopy : getFinalText s true (s.decoder.transcript.length + 1) =
          ⟨.ok, s.decoder.transcript.length + 1, s.decoder.transcript ++ [0]⟩ := by
        simp only [getFinalText, hstate, if_neg hmax]
        simp
      simp only [hsize, hcopy, cString_append_zero] at h
      cases h
      rfl
  | _ => simp [getFinalText, hstate] at h

/-- The text of a successful batch request (`transcribe_batch`), the body of its response. -/
def transcribeText (s : Stream α φ ε γ κ) : Option Bytes :=
  if s.lifecycle.state = .completed then (engineFinalText s).toOption else none

/-- The messages about a transcript a realtime worker enqueues, from the events it polled. -/
def servedMessages (config : RealtimeConfiguration) (s : Stream α φ ε γ κ)
    (events : List PublicEvent) : Option (List ServerMessage) :=
  let terminal := events.foldl TerminalEvents.observe {}
  if terminal.finalSeen ∧ terminal.completedSeen ∧ s.lifecycle.state = .completed then
    match engineFinalText s with
    | .ok text =>
      some ((events.filterMap (eventMessage config) ++ terminal.messages text).map (·.payload))
    | .error _ => none
  else none

/-- The transcript text of a message. -/
def ServerMessage.text : ServerMessage → Option Bytes
  | .token _ _ text _ => some text
  | .partialText _ text _ => some text
  | .final _ text _ => some text
  | _ => none

/-- All text is well-formed UTF-8, and the final text extends every partial. -/
structure ValidTranscript (messages : List ServerMessage) : Prop where
  wellFormed : ∀ m ∈ messages, ∀ text, m.text = some text → WellFormedUtf8 text
  extended : ∀ n text ms n' text' ms', ServerMessage.partialText n text ms ∈ messages →
    ServerMessage.final n' text' ms' ∈ messages → text <+: text'

/-- The messages are those of the polled events, then the two terminal ones. -/
lemma servedMessages_some {config : RealtimeConfiguration} {s : Stream α φ ε γ κ}
    {events : List PublicEvent} {messages : List ServerMessage}
    (h : servedMessages config s events = some messages) :
    s.lifecycle.state = .completed ∧ ∃ final ms completed,
      messages = (events.filterMap (eventMessage config)).map (·.payload) ++
        [.final final (cString s.decoder.transcript) ms, .completed completed] := by
  unfold servedMessages at h
  dsimp only at h
  split at h
  · next hseen =>
    cases htext : engineFinalText s with
    | error status => simp [htext] at h
    | ok text =>
      obtain ⟨hstate, rfl⟩ := engineFinalText_ok htext
      simp only [htext, TerminalEvents.messages, hseen.1, hseen.2.1, and_self, if_true] at h
      rw [List.map_append] at h
      exact ⟨hstate, _, _, _, (Option.some.inj h).symm⟩
  · cases h

/-- The message of an event carries its text, and it is a partial if the event is. -/
lemma eventMessage_payload {config : RealtimeConfiguration} {event : PublicEvent}
    {m : OutboundMessage ServerMessage} (h : eventMessage config event = some m) :
    (event.type = .token ∧ m.payload = tokenEventJson event) ∨
      (event.type = .partialText ∧ config.partialEvents = true ∧
        m.payload = partialEventJson event) := by
  unfold eventMessage at h
  split at h
  · next htype =>
    split at h
    · cases h
      exact .inl ⟨htype, rfl⟩
    · cases h
  · next htype =>
    split at h
    · next hpartial =>
      cases h
      exact .inr ⟨htype, hpartial, rfl⟩
    · cases h
  · cases h

/-! ## Zero bytes -/

/-- A zero byte ends the stable part of a text at the earliest. -/
lemma utf8StablePrefix_append_zero (text : Bytes) :
    utf8StablePrefix (text ++ [0]) = text.length + 1 := by
  have hbyte : (text ++ [0]).getD text.length 0 = 0 := by
    simp [List.getD_eq_getElem?_getD]
  have hskip : skipContinuations (text ++ [0]) (text.length + 1) = text.length + 1 := by
    rw [skipContinuations, hbyte, if_neg (by decide)]
  have hlength : (text ++ [0]).length = text.length + 1 := by simp
  simp only [utf8StablePrefix, hlength, hskip]
  rw [if_neg (Nat.succ_ne_zero _), Nat.add_sub_cancel, hbyte]
  exact if_pos le_rfl

/-- Behind its first zero byte, a text goes on with it. -/
lemma starts_with_zero {text : Bytes} (h : (cString text).length < text.length) :
    cString text ++ [0] <+: text := by
  induction text with
  | nil => exact absurd h (Nat.lt_irrefl 0)
  | cons b text ih =>
    unfold cString at ih h ⊢
    by_cases hb : b = 0
    · subst hb
      rw [List.takeWhile_cons_of_neg (by simp), List.nil_append]
      exact ⟨text, rfl⟩
    · rw [List.takeWhile_cons_of_pos (by simpa using hb)] at h ⊢
      rw [List.cons_append]
      exact (List.prefix_cons_inj b).mpr (ih (Nat.lt_of_succ_lt_succ h))

/-- A snapshot taken behind a zero byte shows it, if what comes before is well formed and fits an
event. -/
lemma SnapshotOf.shows_zero {n : ℕ} {text : Bytes} {e : StreamEvent} (h : SnapshotOf n text e)
    (hwell : WellFormedUtf8 (cString text)) (hbehind : (cString text).length < e.text.length)
    (hfits : (cString text).length < eventTextCapacity - 1) :
    (cString text).length < (publicText e).length := by
  have hkind : e.type = .partialText := by simpa [StreamEvent.isPartial] using h.isSnapshot
  have hstart : cString text ++ [0] <+: e.text :=
    List.prefix_of_prefix_length_le (starts_with_zero (hbehind.trans_le h.text.length_le)) h.text
      (by rw [List.length_append]; exact hbehind)
  have hzero : WellFormedUtf8 (cString text ++ [0]) := hwell.append_char (Char.ofNat 0)
  have hstable := utf8StablePrefix_mono hstart
  rw [utf8StablePrefix_append_zero] at hstable
  have hlimit : (cString text ++ [0]).length ≤
      min (min e.stablePrefixBytes e.text.length) (eventTextCapacity - 1) := by
    rw [List.length_append, h.stable, List.length_singleton]
    omega
  have hkept := length_le_utf8PrefixAtMost hzero hstart hlimit
  have hle := (utf8PrefixAtMost_spec e.text
    (min (min e.stablePrefixBytes e.text.length) (eventTextCapacity - 1))).1
  rw [List.length_append, List.length_singleton] at hkept
  simp only [publicText, eventSource, hkind, copyEventText, List.length_take]
  omega

/-! ## Every path -/

/-- When partials are sent and the zero byte lies within the capacity of an event, no snapshot taken
behind it was polled. -/
def NoPartialBehindZero (config : RealtimeConfiguration) (pieces : Bytes)
    (polled : List (StreamEvent × PublicEvent)) : Prop :=
  config.partialEvents = true → (cString pieces).length < eventTextCapacity - 1 →
    ∀ x ∈ polled, x.1.type = .partialText → x.1.text.length ≤ (cString pieces).length

/-- The transcript of a completed stream is made of the pieces of its tokens. -/
lemma transcript_eq_pieces [Zero α] {eng : Engine α φ ε γ κ} {s : Stream α φ ε γ κ}
    {tokens : List ℤ} (hd : Delivered eng s tokens) (h : StableText s)
    (hcompleted : s.lifecycle.state = .completed) :
    s.decoder.transcript = decodeTokens eng.tokenizer s.decoder.tokens := by
  rw [h.completed hcompleted, hd.text, hd.kept, flatMap_tokenPiece]

/-- The message of a polled event carries the public text of its event, which is well formed. -/
lemma wellFormed_eventMessage {config : RealtimeConfiguration} {x : StreamEvent × PublicEvent}
    (hpublic : ∃ sequence, x.2 = publicEvent x.1 sequence) {message : OutboundMessage ServerMessage}
    (hmade : eventMessage config x.2 = some message) {text : Bytes} (htext : message.payload.text = some text) :
    WellFormedUtf8 text := by
  obtain ⟨sequence, hp⟩ := hpublic
  have hcopied : text = publicText x.1 := by
    rw [← publicEvent_text x.1 sequence, ← hp]
    rcases eventMessage_payload hmade with ⟨-, hm⟩ | ⟨-, -, hm⟩
    · rw [hm] at htext
      exact (Option.some.inj htext).symm
    · rw [hm] at htext
      exact (Option.some.inj htext).symm
  rw [hcopied]
  exact wellFormedUtf8_copyEventText _ _

/-- The messages of a session with the transcript `pieces`. -/
lemma validTranscript_iff {config : RealtimeConfiguration} {pieces : Bytes} {n : ℕ}
    {polled : List (StreamEvent × PublicEvent)} {messages : List ServerMessage}
    (hpublic : ∀ x ∈ polled, ∃ sequence, x.2 = publicEvent x.1 sequence)
    (hsnapshot : ∀ x ∈ polled, x.1.type = .partialText → SnapshotOf n pieces x.1)
    (hmessages : ∃ final ms completed,
      messages = ((polled.map Prod.snd).filterMap (eventMessage config)).map (·.payload) ++
        [.final final (cString pieces) ms, .completed completed]) :
    ValidTranscript messages ↔
      WellFormedUtf8 (cString pieces) ∧ NoPartialBehindZero config pieces polled := by
  obtain ⟨final, ms, completed, rfl⟩ := hmessages
  set sent := ((polled.map Prod.snd).filterMap (eventMessage config)).map (·.payload) with hsent
  have hlast : ServerMessage.final final (cString pieces) ms ∈
      sent ++ [.final final (cString pieces) ms, .completed completed] := by simp
  have hcut : cString pieces <+: pieces := List.takeWhile_prefix _
  -- every message of an event is a token, or a partial with the public text of a snapshot
  have hsentCases : ∀ m ∈ sent, (∃ x ∈ polled, m = tokenEventJson x.2) ∨
      ∃ x ∈ polled, x.1.type = .partialText ∧ config.partialEvents = true ∧
        m = partialEventJson x.2 := by
    intro m hm
    obtain ⟨out, hout, rfl⟩ := List.mem_map.mp hm
    obtain ⟨event, hevent, hmade⟩ := List.mem_filterMap.mp hout
    obtain ⟨x, hx, rfl⟩ := List.mem_map.mp hevent
    rcases eventMessage_payload hmade with ⟨-, hm⟩ | ⟨htype, hpartial, hm⟩
    · exact .inl ⟨x, hx, hm⟩
    · obtain ⟨sequence, hp⟩ := hpublic x hx
      refine .inr ⟨x, hx, ?_, hpartial, hm⟩
      rw [hp] at htype
      cases hkind : x.1.type <;> simp [publicEvent, hkind] at htype ⊢
  have hpublicText : ∀ x ∈ polled, x.2.text = publicText x.1 := by
    intro x hx
    obtain ⟨sequence, hp⟩ := hpublic x hx
    rw [hp, publicEvent_text]
  constructor
  · intro h
    have hwell := h.wellFormed _ hlast (cString pieces) rfl
    refine ⟨hwell, fun hpartial hfits x hx htype => ?_⟩
    by_contra hbehind
    have hshown := (hsnapshot x hx htype).shows_zero hwell (not_le.mp hbehind) hfits
    obtain ⟨sequence, hp⟩ := hpublic x hx
    have hmem : partialEventJson x.2 ∈ sent := by
      refine List.mem_map.mpr ⟨⟨partialEventJson x.2, .partialText⟩, ?_, rfl⟩
      refine List.mem_filterMap.mpr ⟨x.2, List.mem_map_of_mem hx, ?_⟩
      have hkind : x.2.type = .partialText := by
        rw [hp]
        simp [publicEvent, htype]
      simp [eventMessage, hkind, hpartial]
    have hext := h.extended _ _ _ _ _ _ (List.mem_append_left _ hmem) hlast
    rw [hpublicText x hx] at hext
    exact absurd hext.length_le (not_le.mpr hshown)
  · rintro ⟨hwell, hunseen⟩
    refine ⟨fun m hm text htext => ?_, fun n₁ text ms₁ n₂ text₂ ms₂ hpart hfin => ?_⟩
    · rcases List.mem_append.mp hm with hm | hm
      · obtain ⟨message, hmessage, rfl⟩ := List.mem_map.mp hm
        obtain ⟨event, hevent, hmade⟩ := List.mem_filterMap.mp hmessage
        obtain ⟨x, hx, rfl⟩ := List.mem_map.mp hevent
        exact wellFormed_eventMessage (hpublic x hx) hmade htext
      · simp only [List.mem_cons, List.not_mem_nil, or_false] at hm
        rcases hm with rfl | rfl
        · rw [← Option.some.inj htext]
          exact hwell
        · cases htext
    · -- the only final message is the last but one, and a partial comes from an event
      have htext₂ : text₂ = cString pieces := by
        rcases List.mem_append.mp hfin with hm | hm
        · rcases hsentCases _ hm with ⟨x, -, hx⟩ | ⟨x, -, -, -, hx⟩ <;> cases hx
        · simp only [List.mem_cons, List.not_mem_nil, or_false] at hm
          rcases hm with hm | hm
          · cases hm
            rfl
          · cases hm
      rw [htext₂]
      rcases List.mem_append.mp hpart with hm | hm
      · rcases hsentCases _ hm with ⟨x, -, hx⟩ | ⟨x, hx, htype, hpartial, hmade⟩
        · cases hx
        · cases hmade
          rw [hpublicText x hx]
          have hsnap := hsnapshot x hx htype
          have hshort := hsnap.publicText_prefix
          refine List.prefix_of_prefix_length_le (hshort.trans hsnap.text) hcut ?_
          by_cases hfits : (cString pieces).length < eventTextCapacity - 1
          · exact hshort.length_le.trans (hunseen hpartial hfits x hx htype)
          · exact (length_copyEventText_le _ _).trans (not_lt.mp hfits)
      · simp only [List.mem_cons, List.not_mem_nil, or_false] at hm
        rcases hm with hm | hm <;> cases hm

/-- **Served text is valid on every path exactly without raw bytes.**  In every run of a stream, for every
decoder and vocabulary, the text of a batch response is well-formed UTF-8 exactly if the pieces of the
tokens up to the first zero byte are.  The token and partial messages of a realtime session are well formed
in any case.  All its messages are, and its final text extends every partial, exactly if the pieces are well
formed and no partial shows what lies behind the zero byte. -/
theorem served_text_valid_iff [Zero α] (eng : Engine α φ ε γ κ) (maxEvents : ℕ)
    (device : Device ε γ κ) (config : RealtimeConfiguration) {ops : List Op}
    {s : Stream α φ ε γ κ} {os : List Response}
    (hrun : runSteps (streamStep eng) (Stream.create maxEvents device) ops = some (s, os)) :
    (∀ body, transcribeText s = some body →
      (WellFormedUtf8 body ↔
        WellFormedUtf8 (cString (decodeTokens eng.tokenizer s.decoder.tokens)))) ∧
    (∀ x ∈ polledEvents os, ∀ message, eventMessage config x.2 = some message →
      ∀ text, message.payload.text = some text → WellFormedUtf8 text) ∧
    ∀ messages, servedMessages config s ((polledEvents os).map Prod.snd) = some messages →
      (ValidTranscript messages ↔
        WellFormedUtf8 (cString (decodeTokens eng.tokenizer s.decoder.tokens)) ∧
          NoPartialBehindZero config (decodeTokens eng.tokenizer s.decoder.tokens)
            (polledEvents os)) := by
  have h : StableText s := stream_invariant True
    (fun _ _ hstep _ h => hstep.stableText h) (fun _ h => h.poll)
    (stableText_create maxEvents device) (Or.inl trivial) hrun
  obtain ⟨tokens, hd⟩ := exists_delivered hrun
  have hpublic : ∀ x ∈ polledEvents os, ∃ sequence, x.2 = publicEvent x.1 sequence := by
    intro x hx
    rw [polledEvents_create hrun] at hx
    exact (exists_of_mem_publicEvents hx).2
  refine ⟨?_, fun x hx message hmade text => wellFormed_eventMessage (hpublic x hx) hmade, ?_⟩
  · intro body hbody
    unfold transcribeText at hbody
    split at hbody
    · next hcompleted =>
      cases htext : engineFinalText s with
      | error status =>
        rw [htext] at hbody
        cases hbody
      | ok text =>
        rw [htext] at hbody
        obtain rfl : text = body := Option.some.inj hbody
        rw [(engineFinalText_ok htext).2, transcript_eq_pieces hd h hcompleted]
    · cases hbody
  · intro messages hserved
    obtain ⟨hcompleted, hmessages⟩ := servedMessages_some hserved
    have hpieces := transcript_eq_pieces hd h hcompleted
    rw [hpieces] at hmessages
    have hsnapshot : ∀ x ∈ polledEvents os, x.1.type = .partialText →
        SnapshotOf s.decoder.partialRevision (decodeTokens eng.tokenizer s.decoder.tokens) x.1 := by
      intro x hx htype
      rw [polledEvents_create hrun] at hx
      have hmem := (exists_of_mem_publicEvents hx).1
      rw [← hpieces, h.completed hcompleted]
      refine h.snapshots x.1 (List.mem_filter.mpr ⟨List.mem_append_left _ hmem, ?_⟩)
      simp [StreamEvent.isPartial, htype]
    exact validTranscript_iff hpublic hsnapshot hmessages

/-- The plain engine with a vocabulary of one piece, in base64, and a decoder that returns it once. -/
def onePieceEngine (piece : Bytes) : Engine ℤ Unit Unit Unit Unit :=
  { plainEngine defaultSchedule with
    decoderStep := fun _ prevToken _ _ => (if prevToken = 0 then tokenEos else 0, ())
    tokenizer := ⟨[piece], 0, []⟩ }

/-- No graph of the engine fails. -/
lemma onePieceEngine_runs (piece : Bytes) (n : ℕ) : (onePieceEngine piece).submitFails n = false := rfl

/-- The calls of a worker for ten milliseconds of silence. -/
def shortSession : List Op := [feedZeros 160, .finish, .poll, .poll, .poll, .poll, .poll]

/-- The same records give the same texts. -/
lemma Alike.served {eng : Engine α φ ε γ κ} {n : ℕ} {s t : Stream α φ ε γ κ} (h : Alike eng n s t) :
    transcribeText t = transcribeText s ∧
      ∀ config events, servedMessages config t events = servedMessages config s events := by
  have hfinal : engineFinalText t = engineFinalText s := by
    simp only [engineFinalText, getFinalText, h.lifecycle, h.decoder]
  refine ⟨?_, fun config events => ?_⟩
  · simp only [transcribeText, hfinal, h.lifecycle]
  · simp only [servedMessages, hfinal, h.lifecycle]

/-- The short session of an engine with one piece, on the model. -/
def shortRun (piece : Bytes) : Stream ℤ Unit Unit Unit Unit × List Response :=
  pacedRun (onePieceEngine piece) 64 plainDevice
    [.feed false 160, .finish, .poll, .poll, .poll, .poll, .poll]

/-- The messages of a short session with all events. -/
def shortMessages (piece : Bytes) : Option (List ServerMessage) :=
  servedMessages ⟨true, true⟩ (shortRun piece).1 ((polledEvents (shortRun piece).2).map Prod.snd)

/-- The short session has the tokens, the text and the messages of the model. -/
lemma exists_shortRun (piece : Bytes) : ∃ s,
    runSteps (streamStep (onePieceEngine piece)) (Stream.create 64 plainDevice) shortSession =
      some (s, (shortRun piece).2) ∧
    s.decoder.tokens = (shortRun piece).1.decoder.tokens ∧
    transcribeText s = transcribeText (shortRun piece).1 ∧
    servedMessages ⟨true, true⟩ s ((polledEvents (shortRun piece).2).map Prod.snd) =
      shortMessages piece := by
  obtain ⟨s, os, hrun, hos, halike⟩ := exists_pacedRun (onePieceEngine_runs piece) 64 shortSession
    (by simp [TotalFits, shortSession])
  simp only [shortSession, List.map_cons, feedZeros_paced, finish_paced, poll_paced,
    List.map_nil] at hos halike
  obtain rfl : (shortRun piece).2 = os := hos
  exact ⟨s, hrun, by rw [← halike.decoder]; rfl, halike.served.1.symm,
    (halike.served.2 _ _).symm⟩

/-- A letter is served as it is. -/
theorem served_text_valid_iff_letter : ∃ s os body messages,
    runSteps (streamStep (onePieceEngine [0x51, 0x51, 0x3d, 0x3d])) (Stream.create 64 plainDevice)
      shortSession = some (s, os) ∧
    transcribeText s = some body ∧
    servedMessages ⟨true, true⟩ s ((polledEvents os).map Prod.snd) = some messages ∧
    body = [0x41] ∧ WellFormedUtf8 body ∧ ValidTranscript messages := by
  obtain ⟨s, hrun, htokens, hbody, hserved⟩ := exists_shortRun [0x51, 0x51, 0x3d, 0x3d]
  obtain ⟨hbatch, -, hrealtime⟩ := served_text_valid_iff _ 64 plainDevice ⟨true, true⟩ hrun
  have hpieces : decodeTokens (onePieceEngine [0x51, 0x51, 0x3d, 0x3d]).tokenizer s.decoder.tokens =
      [0x41] := by
    rw [htokens]
    decide +kernel
  rw [hpieces] at hbatch hrealtime
  have hshort : ∀ x ∈ polledEvents (shortRun [0x51, 0x51, 0x3d, 0x3d]).2, x.1.text.length ≤ 1 := by
    decide +kernel
  have htext : transcribeText s = some [0x41] := by
    rw [hbody]
    decide +kernel
  have hmessages : servedMessages ⟨true, true⟩ s
      ((polledEvents (shortRun [0x51, 0x51, 0x3d, 0x3d]).2).map Prod.snd) =
      some [.token 1 0 [0x41] 560, .partialText 2 [0x41] 560, .token 3 2 [] 640,
        .final 4 [0x41] 10, .completed 5] := by
    rw [hserved]
    decide +kernel
  exact ⟨s, _, _, _, hrun, htext, hmessages, rfl, (hbatch _ htext).mpr (by decide),
    (hrealtime _ hmessages).mpr ⟨by decide, fun _ _ x hx _ => hshort x hx⟩⟩

/-- An incomplete character is left out of the partial, but not of the final text. -/
theorem final_text_incomplete_character : ∃ s os body messages,
    runSteps (streamStep (onePieceEngine [0x77, 0x77, 0x3d, 0x3d])) (Stream.create 64 plainDevice)
      shortSession = some (s, os) ∧
    transcribeText s = some body ∧
    servedMessages ⟨true, true⟩ s ((polledEvents os).map Prod.snd) = some messages ∧
    body = [0xc3] ∧ ¬ WellFormedUtf8 body ∧ ¬ ValidTranscript messages := by
  obtain ⟨s, hrun, -, hbody, hserved⟩ := exists_shortRun [0x77, 0x77, 0x3d, 0x3d]
  have htext : transcribeText s = some [0xc3] := by
    rw [hbody]
    decide +kernel
  have hmessages : servedMessages ⟨true, true⟩ s
      ((polledEvents (shortRun [0x77, 0x77, 0x3d, 0x3d]).2).map Prod.snd) =
      some [.token 1 0 [] 560, .partialText 2 [] 560, .token 3 2 [] 640, .final 4 [0xc3] 10,
        .completed 5] := by
    rw [hserved]
    decide +kernel
  refine ⟨s, _, _, _, hrun, htext, hmessages, rfl, by decide, fun h => ?_⟩
  exact absurd (h.wellFormed (.final 4 [0xc3] 10) (by decide) [0xc3] rfl) (by decide)

end Voxtral
