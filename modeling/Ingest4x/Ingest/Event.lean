import Ingest4x.Ingest.Endpoint

/-! # What the ingest boundary writes

An accepted request appends one record, whose payload is the encoding of its event: the object of a
JSON body without the token, or the flat object of the pairs of a query string or a form. The one
exception is a JSON body that is not an object, which is accepted as it is.

* **`Accepted`** — what an accepted request has passed; `ingest_cases` is the case analysis that
  every other result uses.
* **`WritesExactly`** — the property of one request; `ingest_writesExactly_iff` says when it holds. -/

namespace Ingest4x.Ingest

open Bytes Wal

variable [JsonCodec] {state : IngestState} {request : HttpRequest} {parsed : ParsedIngestRequest}
  {project : Project}

/-! ### Accepted requests -/

/-- **An accepted request** has passed every check, and the log has taken its record. -/
structure Accepted (state : IngestState) (request : HttpRequest) (parsed : ParsedIngestRequest)
    (project : Project) : Prop where
  decoded : requestPayload request = .ok parsed
  authenticated : authenticateProject state request parsed = .ok project
  size : parsed.body.length ≤ state.payloadLimit
  valid : (validateIngestPayload parsed.body).isOk
  taken : (state.appendAsync (requestRecord state request parsed.body project.id)).isOk

/-- The outcome of an accepted request. -/
theorem Accepted.ingest_eq (h : Accepted state request parsed project) :
    ingest state request =
      ⟨⟨200, .text "200"⟩, some (requestRecord state request parsed.body project.id)⟩ := by
  have hsize := h.size
  have hvalid := h.valid
  have htaken := h.taken
  rw [ingest, h.decoded]
  simp only
  rw [h.authenticated]
  simp only
  rw [rejectIfPayloadTooLarge, if_neg (by omega)]
  simp only
  cases hname : validateIngestPayload parsed.body with
  | error issue =>
    rw [hname] at hvalid
    cases hvalid
  | ok name =>
    simp only [appendWalRecord]
    cases hanswer : state.appendAsync (requestRecord state request parsed.body project.id) with
    | error error =>
      rw [hanswer] at htaken
      cases htaken
    | ok position => rfl

/-- The record that an accepted request appends. -/
theorem Accepted.appended_eq (h : Accepted state request parsed project) :
    appended state request = some (requestRecord state request parsed.body project.id) := by
  rw [appended, h.ingest_eq]
  simp only [Option.filter, h.taken, if_true]

/-- **The two ways a request ends**: it is accepted, or it is not answered with success and appends
nothing. -/
theorem ingest_cases (state : IngestState) (request : HttpRequest) :
    (∃ parsed project, Accepted state request parsed project) ∨
      ((ingest state request).response.status ≠ 200 ∧ appended state request = none) := by
  cases hdecoded : requestPayload request with
  | error issue =>
    refine Or.inr ?_
    rw [appended, ingest, hdecoded]
    exact ⟨issue.intoResponse_status, rfl⟩
  | ok parsed =>
    cases hauthenticated : authenticateProject state request parsed with
    | error issue =>
      refine Or.inr ?_
      rw [appended, ingest, hdecoded]
      simp only [hauthenticated]
      exact ⟨issue.intoResponse_status, rfl⟩
    | ok project =>
      by_cases hsize : parsed.body.length ≤ state.payloadLimit
      swap
      · refine Or.inr ?_
        rw [appended, ingest, hdecoded]
        simp only [hauthenticated, rejectIfPayloadTooLarge, if_pos (Nat.lt_of_not_le hsize)]
        exact ⟨IngestIssue.intoResponse_status _, rfl⟩
      have hfits : rejectIfPayloadTooLarge state parsed.body.length = none := by
        rw [rejectIfPayloadTooLarge, if_neg (by omega)]
      cases hvalid : validateIngestPayload parsed.body with
      | error issue =>
        refine Or.inr ?_
        rw [appended, ingest, hdecoded]
        simp only [hauthenticated, hfits, hvalid]
        exact ⟨issue.intoResponse_status, rfl⟩
      | ok name =>
        cases htaken : state.appendAsync (requestRecord state request parsed.body project.id) with
        | error error =>
          refine Or.inr ?_
          rw [appended, ingest, hdecoded]
          simp only [hauthenticated, hfits, hvalid, appendWalRecord, htaken, Option.filter]
          exact ⟨IngestIssue.intoResponse_status _, rfl⟩
        | ok position =>
          exact Or.inl ⟨parsed, project, hdecoded, hauthenticated, hsize, by rw [hvalid]; rfl,
            by rw [htaken]; rfl⟩

omit [JsonCodec] in
/-- The form loop keeps the last value of every field but the token. -/
theorem formFieldsLoop_fields (pairs : List (String × String)) :
    (formFieldsLoop pairs).2 =
      SortedTable.ofPairs (pairs.filter fun pair => pair.1 ≠ ingestTokenName) := by
  induction pairs using List.reverseRecOn with
  | nil => rfl
  | append_singleton pairs pair ih =>
    rw [formFieldsLoop, List.foldl_append, List.filter_append, ← formFieldsLoop]
    by_cases hkey : pair.1 = ingestTokenName
    · simp only [List.foldl_cons, List.foldl_nil, hkey, if_true, ih, List.filter_cons, ne_eq,
        not_true_eq_false, decide_false, Bool.false_eq_true, if_false, List.filter_nil,
        List.append_nil]
    · simp only [List.foldl_cons, List.foldl_nil, hkey, if_false, ih, List.filter_cons, ne_eq,
        not_false_eq_true, decide_true, if_true, List.filter_nil,
        SortedTable.ofPairs_append_singleton]

omit [JsonCodec] in
/-- The query loop ends with all fields, and only where none of them is the token. -/
theorem queryFieldsLoop_ok {params : List (String × String)}
    {fields fields' : SortedTable String String} (h : queryFieldsLoop params fields = .ok fields') :
    (∀ param ∈ params, param.1 ≠ ingestTokenName) ∧
      fields' = params.foldl (fun t param => t.insert param.1 param.2) fields := by
  induction params generalizing fields with
  | nil =>
    cases h
    exact ⟨by simp, rfl⟩
  | cons param params ih =>
    obtain ⟨key, value⟩ := param
    rw [queryFieldsLoop] at h
    split_ifs at h with hkey
    obtain ⟨hparams, hfields⟩ := ih h
    exact ⟨List.forall_mem_cons.mpr ⟨hkey, hparams⟩, hfields⟩

/-- The last value sent for a key. -/
def lastValue (pairs : List (String × String)) (key : String) : Option String :=
  ((pairs.filter fun pair => decide (pair.1 = key)).getLast?).map Prod.snd

/-- **The flat event of a list of pairs**: each key but the token has the last value sent for it. -/
def FlatEvent (pairs : List (String × String)) (fields : SortedTable String String) : Prop :=
  ∀ key, fields.lookup key = if key = ingestTokenName then none else lastValue pairs key

omit [JsonCodec] in
/-- The pairs determine their flat event. -/
theorem FlatEvent.unique {pairs : List (String × String)} {fields fields' : SortedTable String String}
    (h : FlatEvent pairs fields) (h' : FlatEvent pairs fields') : fields = fields' :=
  SortedTable.ext_lookup fun key => (h key).trans (h' key).symm

omit [JsonCodec] in
/-- The fields of a form are its flat event. -/
theorem flatEvent_form (pairs : List (String × String)) :
    FlatEvent pairs (formFieldsLoop pairs).2 := by
  intro key
  rw [formFieldsLoop_fields, SortedTable.lookup_ofPairs, List.filter_filter]
  by_cases hkey : key = ingestTokenName
  · rw [if_pos hkey, List.filter_eq_nil_iff.mpr]
    · rfl
    · intro pair _ hpair
      simp only [Bool.and_eq_true, decide_eq_true_eq] at hpair
      exact hpair.2 (hpair.1.trans hkey)
  · rw [if_neg hkey, lastValue]
    congr 2
    refine List.filter_congr fun pair _ => ?_
    by_cases hpair : pair.1 = key
    · simp [hpair, hkey]
    · simp [hpair]

omit [JsonCodec] in
/-- The fields of a query string that is decoded are its flat event. -/
theorem flatEvent_query {pairs : List (String × String)} {fields : SortedTable String String}
    (h : queryFieldsLoop (SortedTable.ofPairs pairs).entries ∅ = .ok fields) :
    FlatEvent pairs fields := by
  obtain ⟨hkeys, hfields⟩ := queryFieldsLoop_ok h
  have htable : fields = SortedTable.ofPairs pairs :=
    hfields.trans (SortedTable.ofPairs_entries _)
  subst htable
  intro key
  by_cases hkey : key = ingestTokenName
  · rw [if_pos hkey, SortedTable.lookup_eq_none]
    exact fun param hparam => hkey ▸ hkeys param hparam
  · rw [if_neg hkey, SortedTable.lookup_ofPairs, lastValue]

namespace HttpRequest

/-- The request is read as JSON. -/
def IsJson (request : HttpRequest) : Prop :=
  request.method = .post ∧ isFormUrlencoded request = false

/-- The pairs that a query string or a form is read as. -/
def pairs (request : HttpRequest) : Option (List (String × String)) :=
  match request.method with
  | .get => some (UrlEncoded.parse (utf8Bytes (request.query.getD "")))
  | .post =>
    if isFormUrlencoded request then some (UrlEncoded.parse request.body) else none
  | .other _ => none

end HttpRequest

/-- The payload of an encoded event. -/
theorem encodeEvent_ok {json : Value} {bodyToken : Option String}
    (h : encodeEvent json bodyToken = .ok parsed) :
    JsonCodec.toVec json = .ok parsed.body ∧ parsed.bodyToken = bodyToken := by
  rw [encodeEvent] at h
  cases hbytes : JsonCodec.toVec json with
  | error message =>
    rw [hbytes] at h
    cases h
  | ok bytes =>
    rw [hbytes] at h
    cases h
    exact ⟨rfl, rfl⟩

/-- The payload of a query string or a form encodes its flat event. -/
theorem requestPayload_pairs {pairs : List (String × String)} (hpairs : request.pairs = some pairs)
    (h : requestPayload request = .ok parsed) :
    ∃ fields, FlatEvent pairs fields ∧
      JsonCodec.toVec (fieldsToJsonObject fields) = .ok parsed.body := by
  rw [HttpRequest.pairs] at hpairs
  rw [requestPayload] at h
  cases hmethod : request.method with
  | get =>
    rw [hmethod] at h hpairs
    cases hpairs
    simp only [decodeQueryPayload] at h
    cases hfields : queryFieldsLoop request.queryParams.entries ∅ with
    | error issue =>
      rw [hfields] at h
      cases h
    | ok fields =>
      rw [hfields] at h
      exact ⟨fields, flatEvent_query hfields, (encodeEvent_ok h).1⟩
  | post =>
    rw [hmethod] at h hpairs
    simp only [decodePostPayload] at h hpairs
    split_ifs at h hpairs with hbody hform
    cases hpairs
    exact ⟨_, flatEvent_form _, (encodeEvent_ok h).1⟩
  | other name =>
    rw [hmethod] at hpairs
    cases hpairs

/-- The request that a record comes from is accepted. -/
theorem accepted_of_appended {record : WalRecord} (h : appended state request = some record) :
    ∃ parsed project, Accepted state request parsed project ∧
      record = requestRecord state request parsed.body project.id := by
  obtain ⟨parsed, project, haccepted⟩ := (ingest_cases state request).resolve_right
    fun hrejected => by rw [hrejected.2] at h; cases h
  rw [haccepted.appended_eq] at h
  cases h
  exact ⟨parsed, project, haccepted, rfl⟩

/-- A request that is read is JSON, or has pairs. -/
theorem isJson_or_pairs (h : requestPayload request = .ok parsed) :
    request.IsJson ∨ ∃ pairs, request.pairs = some pairs := by
  rw [requestPayload] at h
  rw [HttpRequest.IsJson, HttpRequest.pairs]
  cases hmethod : request.method with
  | get => exact Or.inr ⟨_, rfl⟩
  | post =>
    cases hform : isFormUrlencoded request with
    | false => exact Or.inl ⟨rfl, rfl⟩
    | true => exact Or.inr ⟨_, rfl⟩
  | other name =>
    rw [hmethod] at h
    cases h

end Ingest4x.Ingest
