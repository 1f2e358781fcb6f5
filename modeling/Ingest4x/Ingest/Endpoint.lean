import Ingest4x.Ingest.Request
import Ingest4x.Repositories.Project

/-! # The ingest endpoint

`ingest` and the functions under it: decoding a request to an event, authenticating it, and handing
a record to the log. The registry of projects, the log and the clock are what the endpoint is run
with (`IngestState`); the metrics are left out. -/

namespace Ingest4x.Ingest

open Bytes Wal

/-! ### Issues -/

/-- **`IngestIssue`.** -/
inductive IngestIssue
  | methodNotAllowed
  | projectNotFound
  | missingRequestBody
  | missingIngestToken
  | invalidIngestToken
  | conflictingIngestToken
  | queryIngestTokenNotSupported
  | ipNotAllowed
  | invalidForm (message : String)
  | payloadTooLarge
  | invalidJson (message : String)
  | walAppendFailed
  deriving DecidableEq, Repr

namespace IngestIssue

/-- `IngestIssue::code`. -/
def code : IngestIssue → String
  | methodNotAllowed => "ingest_method_not_allowed"
  | projectNotFound => "ingest_project_not_found"
  | missingRequestBody => "ingest_missing_request_body"
  | missingIngestToken => "ingest_missing_token"
  | invalidIngestToken => "ingest_invalid_token"
  | conflictingIngestToken => "ingest_conflicting_token"
  | queryIngestTokenNotSupported => "ingest_query_token_not_supported"
  | ipNotAllowed => "ingest_ip_not_allowed"
  | invalidForm _ => "ingest_invalid_form"
  | payloadTooLarge => "ingest_payload_too_large"
  | invalidJson _ => "ingest_invalid_json"
  | walAppendFailed => "ingest_wal_append_failed"

/-- `IngestIssue::into_response`. -/
def intoResponse : IngestIssue → HttpResponse
  | methodNotAllowed => ⟨405, .empty⟩
  | projectNotFound => ⟨404, .text "project not found"⟩
  | missingRequestBody => ⟨400, .text "missing request body"⟩
  | missingIngestToken => ⟨401, .text "missing ingest token"⟩
  | invalidIngestToken => ⟨401, .text "invalid ingest token"⟩
  | conflictingIngestToken => ⟨401, .text "conflicting ingest token"⟩
  | queryIngestTokenNotSupported => ⟨400, .text "query ingest token is not supported"⟩
  | ipNotAllowed => ⟨403, .text "ip not allowed"⟩
  | invalidForm message => ⟨400, .text s!"invalid form payload: {message}"⟩
  | payloadTooLarge => ⟨413, .text "Payload Too Large"⟩
  | invalidJson message => ⟨400, .text s!"invalid json payload: {message}"⟩
  | walAppendFailed =>
    ⟨503, .json (.object [("error", .string "wal_capacity_exceeded"),
      ("message", .string "WAL disk space is insufficient or unavailable")])⟩

/-- No issue is answered with success. -/
theorem intoResponse_status (issue : IngestIssue) : issue.intoResponse.status ≠ 200 := by
  cases issue <;> simp [intoResponse]

end IngestIssue

/-! ### Decoding -/

/-- The name of the token's header, of its field in a body and of its query parameter. -/
def ingestTokenName : String := "x-ingest-token"

/-- `ParsedIngestRequest`. -/
structure ParsedIngestRequest where
  body : Bytes
  bodyToken : Option String

/-- `non_empty_token`. -/
def nonEmptyToken (value : String) : Option String :=
  let token := Text.trim value
  if token = "" then none else some token

/-- `remove_string_field`: the field is removed also where it is not a text. -/
def removeStringField (fields : List (String × Value)) (field : String) :
    Option String × List (String × Value) :=
  let removed := Value.removeField fields field
  ((removed.1.bind Value.asStr).bind nonEmptyToken, removed.2)

/-- `fields_to_json_object`. -/
def fieldsToJsonObject (fields : SortedTable String String) : Value :=
  .object (fields.entries.map fun field => (field.1, .string field.2))

section Decode

variable [JsonCodec]

/-- `parse_json`. -/
def parseJson (body : Bytes) : Except IngestIssue Value :=
  (JsonCodec.fromSlice body).mapError .invalidJson

/-- The last step of each decoder: `serde_json::to_vec` of the event. -/
def encodeEvent (json : Value) (bodyToken : Option String) :
    Except IngestIssue ParsedIngestRequest :=
  match JsonCodec.toVec json with
  | .error message => .error (.invalidJson message)
  | .ok body => .ok ⟨body, bodyToken⟩

/-- `decode_json_payload`. -/
def decodeJsonPayload (body : Bytes) : Except IngestIssue ParsedIngestRequest :=
  match parseJson body with
  | .error issue => .error issue
  | .ok (.object fields) =>
    let removed := removeStringField fields ingestTokenName
    encodeEvent (.object removed.2) removed.1
  | .ok json => encodeEvent json none

/-- The loop of `decode_form_payload`: the token so far and the fields so far. -/
def formFieldsLoop (pairs : List (String × String)) : Option String × SortedTable String String :=
  pairs.foldl (fun parsed pair =>
    if pair.1 = ingestTokenName then (nonEmptyToken pair.2, parsed.2)
    else (parsed.1, parsed.2.insert pair.1 pair.2)) (none, ∅)

/-- `decode_form_payload`. -/
def decodeFormPayload (body : Bytes) : Except IngestIssue ParsedIngestRequest :=
  let parsed := formFieldsLoop (UrlEncoded.parse body)
  encodeEvent (fieldsToJsonObject parsed.2) parsed.1

/-- The loop of `decode_query_payload`. -/
def queryFieldsLoop : List (String × String) → SortedTable String String →
    Except IngestIssue (SortedTable String String)
  | [], fields => .ok fields
  | (key, value) :: params, fields =>
    if key = ingestTokenName then .error .queryIngestTokenNotSupported
    else queryFieldsLoop params (fields.insert key value)

/-- `decode_query_payload`. -/
def decodeQueryPayload (queryParams : SortedTable String String) :
    Except IngestIssue ParsedIngestRequest :=
  match queryFieldsLoop queryParams.entries ∅ with
  | .error issue => .error issue
  | .ok fields => encodeEvent (fieldsToJsonObject fields) none

/-- `is_form_urlencoded`. -/
def isFormUrlencoded (request : HttpRequest) : Bool :=
  ((request.header "content-type").bind headerText).any fun value =>
    let mediaType := Text.trim (String.ofList (value.toList.takeWhile (· ≠ ';')))
    mediaType.map Char.toLower == "application/x-www-form-urlencoded"

/-- `decode_post_payload`. -/
def decodePostPayload (request : HttpRequest) : Except IngestIssue ParsedIngestRequest :=
  if request.body = [] then .error .missingRequestBody
  else if isFormUrlencoded request then decodeFormPayload request.body
  else decodeJsonPayload request.body

/-- **`request_payload`.** -/
def requestPayload (request : HttpRequest) : Except IngestIssue ParsedIngestRequest :=
  match request.method with
  | .get => decodeQueryPayload request.queryParams
  | .post => decodePostPayload request
  | .other _ => .error .methodNotAllowed

end Decode

/-! ### Authentication -/

/-- **What the endpoint is run with**: the registry of projects, the settings where there are any,
the log's answer to each record, the clock and the number of the record. -/
structure IngestState where
  projectByKey : String → Option Project
  maxEventBytes : Option Nat
  appendAsync : WalRecord → Except IoError WalPosition
  nowMs : Nat
  recordSequence : Nat

/-- `ingest_token_from_request`. -/
def ingestTokenFromRequest (request : HttpRequest) : Option String :=
  (((request.header ingestTokenName).bind headerText).map Text.trim).filter (· ≠ "")

/-- `request_ingest_token`. -/
def requestIngestToken (request : HttpRequest) (parsed : ParsedIngestRequest) :
    Except IngestIssue (Option String) :=
  match ingestTokenFromRequest request, parsed.bodyToken with
  | some header, some body =>
    if header ≠ body then .error .conflictingIngestToken else .ok (some header)
  | some header, none => .ok (some header)
  | none, some body => .ok (some body)
  | none, none => .ok none

/-- `authorize_project`. -/
def authorizeProject (request : HttpRequest) (parsed : ParsedIngestRequest) (project : Project) :
    Except IngestIssue Unit :=
  if project.allowedIps ≠ [] ∧ request.getIp.getD "" ∉ project.allowedIps then
    .error .ipNotAllowed
  else
    match project.authMode with
    | .token =>
      match requestIngestToken request parsed with
      | .error issue => .error issue
      | .ok none => .error .missingIngestToken
      | .ok (some token) =>
        if token = project.ingestToken then .ok () else .error .invalidIngestToken
    | .public_ => .ok ()

/-- **`authenticate_project`.** -/
def authenticateProject (state : IngestState) (request : HttpRequest)
    (parsed : ParsedIngestRequest) : Except IngestIssue Project :=
  match request.projectKey with
  | none => .error .projectNotFound
  | some projectKey =>
    match state.projectByKey projectKey with
    | none => .error .projectNotFound
    | some project =>
      match authorizeProject request parsed project with
      | .error issue => .error issue
      | .ok () => .ok project

/-! ### The record -/

/-- `default_max_event_bytes`. -/
def defaultMaxEventBytes : Nat := 256 * 1024

/-- The limit on the payload, in bytes. -/
def IngestState.payloadLimit (state : IngestState) : Nat :=
  state.maxEventBytes.getD defaultMaxEventBytes

/-- `reject_if_payload_too_large`. -/
def rejectIfPayloadTooLarge (state : IngestState) (payloadLen : Nat) : Option IngestIssue :=
  if state.payloadLimit < payloadLen then some .payloadTooLarge else none

/-- `validate_ingest_payload`: the name of the event. -/
def validateIngestPayload [JsonCodec] (body : Bytes) : Except IngestIssue String :=
  match JsonCodec.fromSlice body with
  | .error message => .error (.invalidJson message)
  | .ok json => .ok (((json.get "xwhat").bind Value.asStr).getD "default")

/-- `request_headers`: every header that is a text, less the token. -/
def requestHeaders (request : HttpRequest) : SortedTable String String :=
  SortedTable.ofPairs ((request.headers.filter fun header =>
    header.1.map Char.toLower ≠ ingestTokenName).filterMap fun header =>
      (headerText header.2).map fun value => (header.1, value))

/-- `new_record`. -/
def newRecord (receivedAtMs sequence : Nat) (method path : String) (query remoteAddr : Option String)
    (headers : SortedTable String String) (projectId : Int32) (body : Bytes) : WalRecord where
  recordId := s!"wal-{receivedAtMs}-{sequence}"
  lsn := 0
  nodeId := ""
  envelope :=
    ⟨projectId, UInt64.ofNat receivedAtMs, .http ⟨method, path, query, remoteAddr, headers.entries⟩⟩
  payload := body

/-- The record of a request: the first step of `append_wal_record`. -/
def requestRecord (state : IngestState) (request : HttpRequest) (body : Bytes) (projectId : Int32) :
    WalRecord :=
  newRecord state.nowMs state.recordSequence request.method.asStr request.path request.query
    request.getIp (requestHeaders request) projectId body

/-- **What a request leads to**: the answer, and the record handed to the log, if there is one. -/
structure IngestOutcome where
  response : HttpResponse
  handed : Option WalRecord

/-- `append_wal_record`. -/
def appendWalRecord (state : IngestState) (request : HttpRequest) (body : Bytes)
    (projectId : Int32) : IngestOutcome :=
  let record := requestRecord state request body projectId
  match state.appendAsync record with
  | .ok _ => ⟨⟨200, .text "200"⟩, some record⟩
  | .error _ => ⟨IngestIssue.walAppendFailed.intoResponse, some record⟩

/-- **`ingest`.** -/
def ingest [JsonCodec] (state : IngestState) (request : HttpRequest) : IngestOutcome :=
  match requestPayload request with
  | .error issue => ⟨issue.intoResponse, none⟩
  | .ok parsed =>
    match authenticateProject state request parsed with
    | .error issue => ⟨issue.intoResponse, none⟩
    | .ok project =>
      match rejectIfPayloadTooLarge state parsed.body.length with
      | some issue => ⟨issue.intoResponse, none⟩
      | none =>
        match validateIngestPayload parsed.body with
        | .error issue => ⟨issue.intoResponse, none⟩
        | .ok _ => appendWalRecord state request parsed.body project.id

/-- The record that a request appends to the log. -/
def appended [JsonCodec] (state : IngestState) (request : HttpRequest) : Option WalRecord :=
  (ingest state request).handed.filter fun record => (state.appendAsync record).isOk

end Ingest4x.Ingest
