import Mathlib.Order.Bounds.Basic
import Voxtral.Api.VersionedStructs
import Voxtral.Server.TranscriptText

/-!
# Copying text into public structs

`copy_event_text` and `copy_error_message` copy the part of a text that `utf8_prefix_at_most` lets
through into an array inside a public struct, and write a zero byte behind it.
-/

namespace Voxtral

/-! ## The longest prefix -/

/-- The length of every prefix of at most `limit` bytes that the grammar of RFC 3629 derives. -/
def utf8PrefixLengths (text : Bytes) (limit : ℕ) : Set ℕ :=
  {n | n ≤ text.length ∧ n ≤ limit ∧ Utf8Octets (text.take n)}

/-- `utf8_prefix_at_most` finds the greatest of them. -/
lemma utf8PrefixAtMost_isGreatest (text : Bytes) (limit : ℕ) :
    IsGreatest (utf8PrefixLengths text limit) (utf8PrefixAtMost text limit) := by
  obtain ⟨hle, hwell⟩ := utf8PrefixAtMost_spec text limit
  constructor
  · exact ⟨hle.trans (min_le_left _ _), hle.trans (min_le_right _ _),
      (wellFormedUtf8_iff_octets _).mp hwell⟩
  · rintro n ⟨hlength, hlimit, hoctets⟩
    have hn : (text.take n).length = n := List.length_take_of_le hlength
    have hkept := length_le_utf8PrefixAtMost ((wellFormedUtf8_iff_octets _).mpr hoctets)
      (List.take_prefix n text) (hn.trans_le hlimit)
    rwa [hn] at hkept

/-! ## The copies -/

/-- Copy at most `limit` bytes of a text to the front of an array, and a zero byte behind them. -/
def copyUtf8 (destination : List UInt8) (source : Bytes) (limit : ℕ) : List UInt8 :=
  let copyBytes := utf8PrefixAtMost source limit
  source.take copyBytes ++ 0 :: destination.drop (copyBytes + 1)

section CopyUtf8

variable {destination : List UInt8} (source : Bytes) {limit : ℕ}

/-- The cut is within its limit. -/
lemma utf8PrefixAtMost_le (text : Bytes) (limit : ℕ) : utf8PrefixAtMost text limit ≤ limit :=
  (utf8PrefixAtMost_isGreatest text limit).1.2.1

/-- The cut is within the text. -/
lemma length_take_utf8PrefixAtMost (text : Bytes) (limit : ℕ) :
    (text.take (utf8PrefixAtMost text limit)).length = utf8PrefixAtMost text limit :=
  List.length_take_of_le (utf8PrefixAtMost_isGreatest text limit).1.1

/-- The copy stays inside the array. -/
lemma length_copyUtf8 (hlimit : limit < destination.length) :
    (copyUtf8 destination source limit).length = destination.length := by
  have hle := utf8PrefixAtMost_le source limit
  have hlength := length_take_utf8PrefixAtMost source limit
  unfold copyUtf8
  dsimp only
  rw [List.length_append, hlength, List.length_cons, List.length_drop]
  omega

/-- The text in front of the zero byte. -/
lemma take_copyUtf8 : (copyUtf8 destination source limit).take (utf8PrefixAtMost source limit) =
    source.take (utf8PrefixAtMost source limit) := by
  unfold copyUtf8
  exact List.take_left' (length_take_utf8PrefixAtMost source limit)

/-- The zero byte. -/
lemma getElem?_copyUtf8 :
    (copyUtf8 destination source limit)[utf8PrefixAtMost source limit]? = some 0 := by
  have hlength := length_take_utf8PrefixAtMost source limit
  unfold copyUtf8
  dsimp only
  rw [List.getElem?_append_right hlength.le, hlength, Nat.sub_self]
  rfl

end CopyUtf8

/-- The `text` array of a `voxtral_event`, its `text_length` and its `VOXTRAL_EVENT_FLAG_TEXT_TRUNCATED`. -/
structure EventText where
  text : List UInt8
  textLength : ℕ
  truncated : Bool
  size : text.length = eventTextCapacity

/-- The text of a value-initialized event. -/
def EventText.blank : EventText := ⟨List.replicate eventTextCapacity 0, 0, false, List.length_replicate⟩

/-- `copy_event_text`. -/
def EventText.copy (destination : EventText) (source : Bytes) (stableBytes : ℕ) : EventText :=
  let available := min stableBytes source.length
  let limit := min available (eventTextCapacity - 1)
  { text := copyUtf8 destination.text source limit
    textLength := utf8PrefixAtMost source limit
    truncated := destination.truncated || utf8PrefixAtMost source limit < available
    size := by
      have hlimit : limit < destination.text.length := by
        rw [destination.size]
        exact (min_le_right _ _).trans_lt (by decide)
      rw [length_copyUtf8 source hlimit, destination.size] }

/-- The `message` array of a `voxtral_error_info`. -/
abbrev ErrorText := { message : List UInt8 // message.length = 256 }

/-- `copy_error_message`. -/
def ErrorText.copy (destination : ErrorText) (source : Bytes) : ErrorText :=
  ⟨copyUtf8 destination.1 source 255, by
    rw [length_copyUtf8 source (by rw [destination.2]; omega), destination.2]⟩

/-- The event text of the public events is the copy into a blank event. -/
lemma publicEvent_copy (e : StreamEvent) (sequence : ℕ) :
    (publicEvent e sequence).text =
        (EventText.blank.copy (eventSource e).1 (eventSource e).2).text.take
          (EventText.blank.copy (eventSource e).1 (eventSource e).2).textLength ∧
      (publicEvent e sequence).textTruncated =
        (EventText.blank.copy (eventSource e).1 (eventSource e).2).truncated := by
  constructor
  · exact (take_copyUtf8 _).symm
  · change decide ((copyEventText (eventSource e).1 (eventSource e).2).length <
        min (eventSource e).2 (eventSource e).1.length) = _
    rw [copyEventText, length_take_utf8PrefixAtMost]
    exact (Bool.false_or _).symm

/-- The message of the error structs is the copy into a blank one. -/
lemma errorMessageBytes_copy (message : Bytes) :
    errorMessageBytes message =
      (ErrorText.copy ⟨List.replicate 256 0, List.length_replicate⟩ message).1 := by
  have hle := utf8PrefixAtMost_le message 255
  unfold errorMessageBytes ErrorText.copy copyUtf8
  dsimp only
  rw [length_take_utf8PrefixAtMost, List.drop_replicate, ← List.replicate_succ]
  congr 2
  omega

/-- What `copy_event_text` leaves in a blank event. -/
lemma EventText.copy_blank (source : Bytes) (stableBytes : ℕ) :
    let limit := min (min stableBytes source.length) (eventTextCapacity - 1)
    let copied := blank.copy source stableBytes
    copied.textLength = utf8PrefixAtMost source limit ∧ copied.textLength < eventTextCapacity ∧
      copied.text[copied.textLength]? = some 0 ∧
      copied.text.take copied.textLength = source.take copied.textLength ∧
      copied.truncated = decide (copied.textLength < min stableBytes source.length) := by
  intro limit copied
  have hlimit : limit ≤ eventTextCapacity - 1 := min_le_right _ _
  have hle : utf8PrefixAtMost source limit ≤ limit := utf8PrefixAtMost_le source limit
  refine ⟨rfl, (hle.trans hlimit).trans_lt (by decide), ?_, ?_, ?_⟩
  · exact getElem?_copyUtf8 source
  · exact take_copyUtf8 source
  · exact Bool.false_or _

/-- **Copied texts.**  The cut is the longest well-formed prefix within its limit.  An event's text is the cut
of its source at the stable length and the array, a message is the cut at 255 bytes; both stand in front of a
zero byte inside their array, and the text is flagged exactly when it is shorter than the stable source.  The
public events and error structs hold these copies. -/
theorem public_text_copy_exact :
    (∀ (text : Bytes) (limit : ℕ),
      IsGreatest (utf8PrefixLengths text limit) (utf8PrefixAtMost text limit)) ∧
    (∀ (source : Bytes) (stableBytes : ℕ),
      let copied := EventText.blank.copy source stableBytes
      copied.textLength =
          utf8PrefixAtMost source (min (min stableBytes source.length) (eventTextCapacity - 1)) ∧
        copied.textLength < eventTextCapacity ∧ copied.text[copied.textLength]? = some 0 ∧
        Utf8Octets (copied.text.take copied.textLength) ∧
        copied.text.take copied.textLength = source.take copied.textLength ∧
        (copied.truncated = true ↔ copied.textLength < min stableBytes source.length)) ∧
    (∀ (destination : ErrorText) (source : Bytes),
      let copied := destination.copy source
      let n := utf8PrefixAtMost source 255
      n < 256 ∧ copied.1[n]? = some 0 ∧ Utf8Octets (copied.1.take n) ∧
        copied.1.take n = source.take n) ∧
    (∀ (e : StreamEvent) (sequence : ℕ),
      let copied := EventText.blank.copy (eventSource e).1 (eventSource e).2
      (publicEvent e sequence).text = copied.text.take copied.textLength ∧
        (publicEvent e sequence).textTruncated = copied.truncated) ∧
    ∀ message : Bytes, errorMessageBytes message =
      (ErrorText.copy ⟨List.replicate 256 0, List.length_replicate⟩ message).1 := by
  refine ⟨utf8PrefixAtMost_isGreatest, fun source stableBytes => ?_, fun destination source => ?_,
    publicEvent_copy, errorMessageBytes_copy⟩
  · obtain ⟨hlength, hfits, hzero, htext, hflag⟩ := EventText.copy_blank source stableBytes
    intro copied
    have hgreatest := utf8PrefixAtMost_isGreatest source
      (min (min stableBytes source.length) (eventTextCapacity - 1))
    rw [← hlength] at hgreatest
    refine ⟨hlength, hfits, hzero, ?_, htext, ?_⟩
    · rw [htext]
      exact hgreatest.1.2.2
    · rw [hflag]
      exact decide_eq_true_iff
  · have hgreatest := utf8PrefixAtMost_isGreatest source 255
    refine ⟨Nat.lt_succ_of_le hgreatest.1.2.1, getElem?_copyUtf8 source, ?_, take_copyUtf8 source⟩
    dsimp only [ErrorText.copy]
    rw [take_copyUtf8]
    exact hgreatest.1.2.2

/-- A text whose fourth byte starts a character that the limit cuts off. -/
example : utf8PrefixAtMost [0x61, 0xc3, 0xa9, 0xe2, 0x82, 0xac] 5 = 3 := by decide

end Voxtral
