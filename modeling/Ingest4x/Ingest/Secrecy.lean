import Ingest4x.Ingest.Event
import Ingest4x.Replay.Context

/-! # Tokens stay out of the log

Two accepted requests that differ only in the tokens they present, and in where they present them,
give records that differ at most in their identity and time, except for the query string, which is
stored as it was sent: a query string with the token is rejected on a GET request only.

* **`withoutTokens`** — a request less its tokens; two requests are compared by it.
* **`queryTokens`** — the tokens of the query string, with their places.
* **`stored_eq_iff`** — the records are alike exactly where these agree. -/

namespace Ingest4x.Ingest

open Bytes Wal

/-! ### Requests without tokens -/

/-- A piece of a query string that names the token. -/
def isTokenPiece (piece : Bytes) : Bool := (UrlEncoded.decodePair piece).1 == ingestTokenName

namespace HttpRequest

/-- The pieces of the query string. -/
def queryPieces (request : HttpRequest) : List Bytes :=
  match request.query with
  | none => []
  | some query => UrlEncoded.pieces (utf8Bytes query)

/-- The headers less the token. -/
def otherHeaders (request : HttpRequest) : List (String × Bytes) :=
  request.headers.filter fun header => header.1.map Char.toLower ≠ ingestTokenName

end HttpRequest

/-- A JSON value less its root field with the token. -/
def withoutRootToken : Value → Value
  | .object fields => .object (fields.filter fun field => field.1 ≠ ingestTokenName)
  | json => json

/-- A body less its token: the pairs of a form, the value of a JSON text, or the bytes of a body that
is not read. -/
inductive TokenFreeBody
  | form (pairs : List (String × String))
  | json (json : Except String Value)
  | unread (body : Bytes)
  deriving DecidableEq

/-- **A request less its tokens.** -/
structure TokenFree where
  method : Method
  path : String
  queryPieces : List Bytes
  headers : List (String × Bytes)
  peerAddr : Option String
  projectKey : Option String
  body : TokenFreeBody
  deriving DecidableEq

/-- The body of a request less its token. -/
def bodyWithoutToken [JsonCodec] (request : HttpRequest) : TokenFreeBody :=
  match request.method with
  | .post =>
    if isFormUrlencoded request then
      .form ((UrlEncoded.parse request.body).filter fun pair => pair.1 ≠ ingestTokenName)
    else .json ((JsonCodec.fromSlice request.body).map withoutRootToken)
  | _ => .unread request.body

/-- What a request is apart from the tokens it presents. -/
def withoutTokens [JsonCodec] (request : HttpRequest) : TokenFree where
  method := request.method
  path := request.path
  queryPieces := request.queryPieces.filter (!isTokenPiece ·)
  headers := request.otherHeaders
  peerAddr := request.peerAddr
  projectKey := request.projectKey
  body := bodyWithoutToken request

/-- **The tokens of the query string**, with their places. -/
def queryTokens (request : HttpRequest) : List (Bytes × Nat) :=
  request.queryPieces.zipIdx.filter fun piece => isTokenPiece piece.1

/-! ### Query strings -/

variable {request request' : HttpRequest}

/-- The pieces determine the query string. -/
theorem query_eq_of_pieces (h : request.queryPieces = request'.queryPieces) :
    request.query = request'.query := by
  rw [HttpRequest.queryPieces, HttpRequest.queryPieces] at h
  cases hquery : request.query with
  | none =>
    cases hquery' : request'.query with
    | none => rfl
    | some query' =>
      rw [hquery, hquery'] at h
      exact absurd h.symm (UrlEncoded.pieces_ne_nil _)
  | some query =>
    cases hquery' : request'.query with
    | none =>
      rw [hquery, hquery'] at h
      exact absurd h (UrlEncoded.pieces_ne_nil _)
    | some query' =>
      rw [hquery, hquery'] at h
      have hbytes := UrlEncoded.eq_of_pieces_eq h
      have htext := congrArg utf8OfBytes hbytes
      rw [utf8OfBytes_utf8Bytes, utf8OfBytes_utf8Bytes] at htext
      exact htext

/-- Query strings that agree on their tokens and on everything else are equal. -/
theorem query_eq_iff (h : request.queryPieces.filter (!isTokenPiece ·) =
    request'.queryPieces.filter (!isTokenPiece ·)) :
    request.query = request'.query ↔ queryTokens request = queryTokens request' := by
  constructor
  · intro hquery
    rw [queryTokens, queryTokens, HttpRequest.queryPieces, HttpRequest.queryPieces, hquery]
  · intro htokens
    exact query_eq_of_pieces (UrlEncoded.eq_of_filter_eq h htokens)

/-- The pairs of a query string come from its pieces. -/
theorem parse_query (request : HttpRequest) :
    UrlEncoded.parse (utf8Bytes (request.query.getD "")) =
      (request.queryPieces.filter (· ≠ [])).map UrlEncoded.decodePair := by
  rw [HttpRequest.queryPieces]
  cases request.query with
  | none => rfl
  | some query => rfl

/-! ### Events -/

/-- A flat event does not depend on the tokens among the pairs. -/
theorem flatEvent_filter {pairs : List (String × String)} {fields : SortedTable String String} :
    FlatEvent (pairs.filter fun pair => pair.1 ≠ ingestTokenName) fields ↔ FlatEvent pairs fields := by
  refine forall_congr' fun key => ?_
  by_cases hkey : key = ingestTokenName
  · rw [if_pos hkey, if_pos hkey]
  · rw [if_neg hkey, if_neg hkey, lastValue, lastValue, List.filter_filter]
    have hfilter : (pairs.filter fun pair => decide (pair.1 = key) && decide (pair.1 ≠ ingestTokenName))
        = pairs.filter fun pair => decide (pair.1 = key) :=
      List.filter_congr fun pair _ => by
        by_cases hpair : pair.1 = key
        · simp [hpair, hkey]
        · simp [hpair]
    rw [hfilter]

/-- The other headers determine the stored headers. -/
theorem requestHeaders_eq (h : request.otherHeaders = request'.otherHeaders) :
    requestHeaders request = requestHeaders request' := by
  rw [HttpRequest.otherHeaders, HttpRequest.otherHeaders] at h
  rw [requestHeaders, requestHeaders, h]

/-- The other headers determine how a body is read. -/
theorem isFormUrlencoded_eq (h : request.otherHeaders = request'.otherHeaders) :
    isFormUrlencoded request = isFormUrlencoded request' := by
  have hfind : ∀ request : HttpRequest, request.header "content-type" =
      (request.otherHeaders.find? fun header => header.1 == "content-type").map Prod.snd := by
    intro request
    rw [HttpRequest.header, HttpRequest.otherHeaders, List.find?_filter]
    congr 2
    funext header
    by_cases hname : header.1 = "content-type"
    · have hother : ("content-type" : String).map Char.toLower ≠ ingestTokenName := by
        decide +kernel
      simp [hname, hother]
    · simp [hname]
  rw [isFormUrlencoded, isFormUrlencoded, hfind, hfind, h]

section Payload

variable [JsonCodec] {parsed parsed' : ParsedIngestRequest}

/-- The pairs of a request less its tokens. -/
theorem filter_pairs_eq (h : withoutTokens request = withoutTokens request')
    {pairs : List (String × String)} (hpairs : request.pairs = some pairs) :
    ∃ pairs', request'.pairs = some pairs' ∧
      (pairs.filter fun pair => pair.1 ≠ ingestTokenName) =
        pairs'.filter fun pair => pair.1 ≠ ingestTokenName := by
  obtain ⟨hmethod, -, hquery, hheaders, -, -, hbody⟩ := TokenFree.mk.inj h
  have hform := isFormUrlencoded_eq hheaders
  rw [HttpRequest.pairs] at hpairs ⊢
  rw [bodyWithoutToken, bodyWithoutToken, ← hmethod, ← hform] at hbody
  rw [← hmethod]
  cases hget : request.method with
  | get =>
    rw [hget] at hpairs
    cases hpairs
    refine ⟨_, rfl, ?_⟩
    have hpieces : ∀ request : HttpRequest,
        ((UrlEncoded.parse (utf8Bytes (request.query.getD ""))).filter fun pair =>
            decide (pair.1 ≠ ingestTokenName)) =
          ((request.queryPieces.filter (!isTokenPiece ·)).filter (· ≠ [])).map
            UrlEncoded.decodePair := by
      intro request
      rw [parse_query, List.filter_map, List.filter_filter, List.filter_filter]
      congr 1
      refine List.filter_congr fun piece _ => ?_
      rw [Bool.and_comm, isTokenPiece, beq_eq_decide]
      congr 1
      simp
    rw [hpieces, hpieces, hquery]
  | post =>
    rw [hget] at hpairs hbody
    simp only at hpairs hbody ⊢
    rw [← hform]
    split_ifs at hpairs hbody ⊢ with hread
    cases hpairs
    exact ⟨_, rfl, TokenFreeBody.form.inj hbody⟩
  | other name =>
    rw [hget] at hpairs
    cases hpairs

/-- The payload of a JSON body encodes its value less the token. -/
theorem requestPayload_withoutRootToken (hjson : request.IsJson)
    (h : requestPayload request = .ok parsed) :
    ∃ json, JsonCodec.fromSlice request.body = .ok json ∧
      JsonCodec.toVec (withoutRootToken json) = .ok parsed.body := by
  rw [requestPayload, hjson.1] at h
  simp only [decodePostPayload, hjson.2, Bool.false_eq_true, if_false] at h
  split_ifs at h with hbody
  rw [decodeJsonPayload, parseJson] at h
  cases hparse : JsonCodec.fromSlice request.body with
  | error message =>
    rw [hparse] at h
    cases h
  | ok json =>
    rw [hparse] at h
    refine ⟨json, rfl, ?_⟩
    cases json <;> exact (encodeEvent_ok h).1

/-- **The payload does not depend on the tokens.** -/
theorem payload_eq (h : withoutTokens request = withoutTokens request')
    (hparsed : requestPayload request = .ok parsed) (hparsed' : requestPayload request' = .ok parsed') :
    parsed.body = parsed'.body := by
  rcases isJson_or_pairs hparsed with hjson | ⟨pairs, hpairs⟩
  · obtain ⟨hmethod, -, -, hheaders, -, -, hbody⟩ := TokenFree.mk.inj h
    have hjson' : request'.IsJson :=
      ⟨hmethod ▸ hjson.1, isFormUrlencoded_eq hheaders ▸ hjson.2⟩
    obtain ⟨json, hparse, hpayload⟩ := requestPayload_withoutRootToken hjson hparsed
    obtain ⟨json', hparse', hpayload'⟩ := requestPayload_withoutRootToken hjson' hparsed'
    rw [bodyWithoutToken, bodyWithoutToken, hjson.1, hjson'.1] at hbody
    simp only [hjson.2, hjson'.2, Bool.false_eq_true, if_false, hparse, hparse', Except.map] at hbody
    rw [Except.ok.inj (TokenFreeBody.json.inj hbody), hpayload'] at hpayload
    exact (Except.ok.inj hpayload).symm
  · obtain ⟨pairs', hpairs', hfilter⟩ := filter_pairs_eq h hpairs
    obtain ⟨fields, hflat, hpayload⟩ := requestPayload_pairs hpairs hparsed
    obtain ⟨fields', hflat', hpayload'⟩ := requestPayload_pairs hpairs' hparsed'
    rw [← flatEvent_filter, hfilter, flatEvent_filter] at hflat
    rw [hflat.unique hflat', hpayload'] at hpayload
    exact (Except.ok.inj hpayload).symm

end Payload

/-! ### Records -/

/-- A record less its identity and the time it was received. -/
def storedView (record : WalRecord) : WalRecord :=
  { record with recordId := "", envelope := { record.envelope with receivedAtMs := 0 } }

/-- What a processor is given of a record, less the identity and the time: its event and its
request. -/
def processorView [JsonCodec] (record : WalRecord) :
    Except String Value × ProcessorRequestContext :=
  (JsonCodec.fromSlice record.payload,
    { requestContext record with requestId := none, receivedAtMs := none })

/-- The processor's view of a record of a request. -/
theorem processorView_requestRecord [JsonCodec] (state : IngestState) (request : HttpRequest)
    (body : Bytes) (projectId : Int32) :
    processorView (requestRecord state request body projectId) =
      (JsonCodec.fromSlice body,
        ⟨request.getIp, request.method.asStr, request.path,
          (requestHeaders request).entries.foldl (fun table header =>
            table.insert (header.1.map Char.toLower) header.2) ∅, none, none⟩) := rfl

section Records

variable [JsonCodec] {state state' : IngestState} {record record' : WalRecord}

/-- **What a processor is given never depends on a token.** -/
theorem processorView_eq (h : withoutTokens request = withoutTokens request')
    (hrecord : appended state request = some record)
    (hrecord' : appended state' request' = some record') :
    processorView record = processorView record' := by
  obtain ⟨parsed, project, haccepted, rfl⟩ := accepted_of_appended hrecord
  obtain ⟨parsed', project', haccepted', rfl⟩ := accepted_of_appended hrecord'
  obtain ⟨hmethod, hpath, -, hheaders, hpeer, -, -⟩ := TokenFree.mk.inj h
  rw [processorView_requestRecord, processorView_requestRecord, hmethod, hpath,
    requestHeaders_eq hheaders, payload_eq h haccepted.decoded haccepted'.decoded,
    HttpRequest.getIp, HttpRequest.getIp, hpeer]

/-- **When the stored records are alike**: two accepted requests for one project that differ only in
their tokens give records that are equal up to identity and time, exactly where their query strings
carry the same tokens at the same places. -/
theorem stored_eq_iff (h : withoutTokens request = withoutTokens request')
    (hrecord : appended state request = some record)
    (hrecord' : appended state' request' = some record')
    (hproject : record.projectId = record'.projectId) :
    (storedView record = storedView record' ∧ processorView record = processorView record') ↔
      queryTokens request = queryTokens request' := by
  have hview := processorView_eq h hrecord hrecord'
  obtain ⟨parsed, project, haccepted, rfl⟩ := accepted_of_appended hrecord
  obtain ⟨parsed', project', haccepted', rfl⟩ := accepted_of_appended hrecord'
  obtain ⟨hmethod, hpath, hquery, hheaders, hpeer, -, -⟩ := TokenFree.mk.inj h
  have hid : project.id = project'.id := hproject
  have hbody := payload_eq h haccepted.decoded haccepted'.decoded
  have hstored : storedView (requestRecord state request parsed.body project.id) =
      storedView (requestRecord state' request' parsed'.body project'.id) ↔
        request.query = request'.query := by
    simp only [storedView, requestRecord, newRecord, hmethod, hpath, requestHeaders_eq hheaders,
      HttpRequest.getIp, hpeer, hid, hbody, WalRecord.mk.injEq, WalEnvelope.mk.injEq,
      WalSourceEnvelope.http.injEq, WalHttpEnvelope.mk.injEq, true_and, and_true]
  rw [hstored, query_eq_iff hquery]
  exact and_iff_left hview

end Records

/-! ### Two requests -/

/-- The text of a small event. -/
def installText : Bytes := utf8Bytes "\x7b\"xwhat\":\"install\"\x7d"

/-- The JSON crate on the small event. -/
@[reducible]
def installJson : JsonCodec where
  fromSlice bytes :=
    if bytes = installText then .ok (.object [("xwhat", .string "install")])
    else .error "expected value at line 1 column 1"
  toVec json :=
    if json = .object [("xwhat", .string "install")] then .ok installText
    else .error "key must be a string"

/-- A project with a token, and a log that takes every record. -/
def tokenState : IngestState where
  projectByKey key :=
    if key = "test_app" then
      some ⟨1, "igx_local_test_token", "test_app", .token, [], "test_app", true⟩
    else none
  maxEventBytes := none
  appendAsync _ := .ok ⟨1, 1, 128⟩
  nowMs := 1
  recordSequence := 0

/-- A form POST of the small event. -/
def installRequest (query : Option String) (headers : List (String × Bytes)) (body : String) :
    HttpRequest where
  method := .post
  path := "/ingest/test_app"
  query := query
  headers := ("content-type", utf8Bytes "application/x-www-form-urlencoded") :: headers
  peerAddr := some "127.0.0.1"
  projectKey := some "test_app"
  body := utf8Bytes body

/-- The token in the form. -/
def formTokenRequest : HttpRequest :=
  installRequest none [] "x-ingest-token=igx_local_test_token&xwhat=install"

/-- The token in a header. -/
def headerTokenRequest : HttpRequest :=
  installRequest none [("x-ingest-token", utf8Bytes "igx_local_test_token")] "xwhat=install"

/-- The token in a header, and once more in the query string. -/
def queryTokenRequest : HttpRequest :=
  installRequest (some "x-ingest-token=igx_local_test_token")
    [("x-ingest-token", utf8Bytes "igx_local_test_token")] "xwhat=install"

/-- The token in the form and the token in a header give the same record. -/
theorem stored_eq_iff_sample :
    (storedView (requestRecord tokenState formTokenRequest installText 1) =
        storedView (requestRecord tokenState headerTokenRequest installText 1) ∧
      @processorView installJson (requestRecord tokenState formTokenRequest installText 1) =
        @processorView installJson (requestRecord tokenState headerTokenRequest installText 1)) ↔
      queryTokens formTokenRequest = queryTokens headerTokenRequest :=
  @stored_eq_iff _ _ installJson tokenState tokenState _ _ (by decide +kernel) (by decide +kernel)
    (by decide +kernel) rfl

/-- **A token in the query string of a POST request is stored.** -/
theorem queryToken_is_stored :
    ∃ record record', @withoutTokens installJson headerTokenRequest =
        @withoutTokens installJson queryTokenRequest ∧
      @appended installJson tokenState headerTokenRequest = some record ∧
      @appended installJson tokenState queryTokenRequest = some record' ∧
      record.projectId = record'.projectId ∧ storedView record ≠ storedView record' ∧
      record'.http.query = some "x-ingest-token=igx_local_test_token" :=
  ⟨requestRecord tokenState headerTokenRequest installText 1,
    requestRecord tokenState queryTokenRequest installText 1, by decide +kernel, by decide +kernel,
    by decide +kernel, rfl, by decide +kernel, rfl⟩

end Ingest4x.Ingest
