import Voxtral.Server.Config
import Voxtral.Server.GpuLease
import Voxtral.Server.SessionThreads
import Voxtral.Server.DrainLoops
import Voxtral.Wav.Grammar

/-!
# HTTP requests

`http-session.cpp`: what a request asks for and what is answered when it is refused.  The header fields of
a request are parsed by the HTTP library; a field that is absent reads as the empty text.  Of the JSON
bodies the members that depend on the request or on the state of the server are kept.
-/

namespace Voxtral

/-- The methods `HttpSession::route` tells apart. -/
inductive HttpMethod
  | get
  | post
  | other
  deriving DecidableEq

/-- A request that was read; `upgrade` is `websocket::is_upgrade`. -/
structure HttpRequest where
  method : HttpMethod
  target : Bytes
  upgrade : Bool := false
  authorization : Bytes := []
  contentType : Bytes := []
  audioFormat : Bytes := []
  sampleRate : Bytes := []
  audioChannels : Bytes := []
  body : Bytes := []
  deriving DecidableEq

/-- The body of a response. -/
inductive HttpBody
  /-- `error_response_json`. -/
  | error (code message : String)
  /-- The members `ready` and `busy_mode` of `/health`; `busy` says whether the latter is set. -/
  | health (ready : Bool) (busyMode : Option GpuMode)
  | text (text : Bytes)
  /-- The members `text` and `duration_ms` of a transcription. -/
  | transcription (text : Bytes) (durationMs : ℕ)
  deriving DecidableEq

/-- A response. -/
structure HttpResponse where
  status : ℕ
  body : HttpBody
  retryAfter : Bool := false
  wwwAuthenticate : Bool := false
  deriving DecidableEq

/-- `send_json_error`, up to sending. -/
def jsonError (status : ℕ) (code message : String) (retryAfter : Bool := false) : HttpResponse where
  status := status
  body := .error code message
  retryAfter := retryAfter

/-- The response to a request without a valid token. -/
def unauthorizedResponse : HttpResponse where
  status := 401
  body := .error "unauthorized" "A valid Bearer token is required."
  wwwAuthenticate := true

/-- `split_target`: the path and the query. -/
def splitTarget (target : Bytes) : Bytes × Bytes :=
  let path := target.takeWhile (· ≠ 0x3F)
  (path, target.drop (path.length + 1))

/-- `parse_response_format`: whether plain text is asked for. -/
def parseResponseFormat (query : Bytes) : Option Bool :=
  if query = [] ∨ query = literal "response_format=json" then some false
  else if query = literal "response_format=text" then some true
  else none

/-- `tolower` in the C locale. -/
def toLowerByte (c : UInt8) : UInt8 := if 0x41 ≤ c ∧ c ≤ 0x5A then c + 0x20 else c

/-- `normalized_content_type`. -/
def normalizedContentType (contentType : Bytes) : Bytes :=
  (((contentType.takeWhile (· ≠ 0x3B)).rdropWhile isSpace).dropWhile isSpace).map toLowerByte

/-- `parse_raw_pcm16`. -/
def parseRawPcm16 (body format sampleRate channels : Bytes) : Except AudioFailure AudioData :=
  if format ≠ literal "pcm_s16le" ∨ sampleRate ≠ literal "16000" ∨ channels ≠ literal "1" then
    .error ("unsupported_audio_format", "Raw audio requires pcm_s16le, 16000 Hz, and one channel.")
  else makeAudio body

/-- `valid_http_body_size`. -/
def validHttpBodySize (size maximum : ℕ) : Bool := 0 < maximum ∧ size ≤ maximum

/-- The audio of a batch request, or the response to a request whose audio is refused. -/
def requestAudio (request : HttpRequest) : Except HttpResponse AudioData :=
  let contentType := normalizedContentType request.contentType
  let refused := fun failure : AudioFailure =>
    jsonError (if failure.1 = "unsupported_audio_format" then 415 else 400) failure.1 failure.2
  if contentType = literal "audio/wav" ∨ contentType = literal "audio/x-wav" then
    (parsePcm16Wav request.body).mapError refused
  else if contentType = literal "application/octet-stream" then
    (parseRawPcm16 request.body request.audioFormat request.sampleRate request.audioChannels).mapError
      refused
  else
    .error (jsonError 415 "unsupported_media_type"
      "Only PCM16 WAV and declared raw PCM16 are supported.")

/-- `handle_batch` up to the acquisition of the lease: the audio and whether plain text is asked for, or
the response. -/
def checkBatch (config : ServerConfig) (shuttingDown : Bool) (request : HttpRequest) :
    Except HttpResponse (AudioData × Bool) :=
  if ¬ config.authorized request.authorization then .error unauthorizedResponse
  else if shuttingDown then
    .error (jsonError 503 "shutting_down" "The server is shutting down.")
  else if ¬ validHttpBodySize request.body.length config.maxUploadBytes then
    .error (jsonError 413 "request_too_large" "The request body exceeds the configured upload limit.")
  else
    match parseResponseFormat (splitTarget request.target).2 with
    | none => .error (jsonError 400 "invalid_argument" "response_format must be json or text.")
    | some text => (requestAudio request).map fun audio => (audio, text)

/-- What a request leads to before any lease is tried for. -/
inductive RequestRoute
  | respond (response : HttpResponse)
  | health
  | batch (audio : AudioData) (text : Bool)
  | upgrade
  deriving DecidableEq

/-- `HttpSession::route`, with the checks of the handlers. -/
def route (config : ServerConfig) (shuttingDown : Bool) (request : HttpRequest) : RequestRoute :=
  let path := (splitTarget request.target).1
  if path = literal "/health" then
    if request.method = .get then .health
    else .respond (jsonError 405 "method_not_allowed" "This endpoint only accepts GET.")
  else if path = literal "/v1/audio/transcriptions" then
    if request.method = .post then
      match checkBatch config shuttingDown request with
      | .error response => .respond response
      | .ok (audio, text) => .batch audio text
    else .respond (jsonError 405 "method_not_allowed" "This endpoint only accepts POST.")
  else if path = literal "/v1/realtime/transcription" then
    if ¬ request.upgrade then
      .respond (jsonError 400 "invalid_upgrade" "This endpoint requires a WebSocket upgrade.")
    else if ¬ config.authorized request.authorization then .respond unauthorizedResponse
    else .upgrade
  else .respond (jsonError 404 "not_found" "The requested endpoint does not exist.")

/-- `handle_health`. -/
def healthResponse (shuttingDown : Bool) (mode : GpuMode) : HttpResponse where
  status := 200
  body := .health (!shuttingDown) (if mode = .batch ∨ mode = .realtime then some mode else none)

/-- The response to a request that gets no lease, or no worker. -/
def busyResponse (shuttingDown : Bool) : HttpResponse :=
  if shuttingDown then jsonError 503 "shutting_down" "The server is shutting down."
  else jsonError 503 "server_busy" "The transcription engine is currently busy." true

/-- `api_http_status`. -/
def apiHttpStatus : PublicStatus → ℕ
  | .invalidArgument => 400
  | .invalidState => 409
  | .unsupportedAudioFormat => 415
  | _ => 500

/-- The response of `on_batch_result` to a transcription that was not cancelled. -/
def batchResponse (text : Bool) (durationMs : ℕ) (result : BatchTranscriptionResult) : HttpResponse :=
  if ¬ result.ok then
    jsonError (apiHttpStatus result.status) (apiErrorCode result.status) (safeStatusMessage result.status)
  else if text then { status := 200, body := .text result.text }
  else { status := 200, body := .transcription result.text durationMs }

end Voxtral
