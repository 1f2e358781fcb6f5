import Ingest4x.Ingest.Event
import Ingest4x.Repositories.StoredProjects

/-! # Authorisation

Who passes `authorize_project`, in terms of what the admin supplied for the project and of what the
request presents: the address of its peer, the token of its header and the token of its body.

* **`headerToken` / `bodyToken`** — the tokens as they are sent; `presentedTokens` are both.
* **`Authorized`** — the request matches the settings of the project.
* **`authorizeProject_iff`** — the code agrees; **`authorization_matches`** — for every project that
  the repository has stored. -/

namespace Ingest4x.Ingest

open Bytes Wal ProjectRepository

/-! ### Tokens -/

/-- The token of the header as it was sent, where it is a text. -/
def headerToken (request : HttpRequest) : Option String :=
  (request.header ingestTokenName).bind headerText

section Tokens

variable [JsonCodec]

/-- **The token of the body** as it was sent: the root field of a JSON object, if it is a text, or the
last field of a form with the name. -/
def bodyToken (request : HttpRequest) : Option String :=
  match request.method with
  | .post =>
    if isFormUrlencoded request then lastValue (UrlEncoded.parse request.body) ingestTokenName
    else
      match JsonCodec.fromSlice request.body with
      | .ok json => (json.get ingestTokenName).bind Value.asStr
      | .error _ => none
  | _ => none

/-- The tokens that a request presents. -/
def presentedTokens (request : HttpRequest) : List String :=
  (headerToken request).toList ++ (bodyToken request).toList

/-- A request presents one token, in its body. -/
def AloneInBody (request : HttpRequest) (token : String) : Prop :=
  request.header ingestTokenName = none ∧ bodyToken request = some token

/-- The peer is on the allow-list, or there is none. -/
def IpAllowed (project : Project) (request : HttpRequest) : Prop :=
  project.allowedIps = [] ∨ ∃ ip, request.peerAddr = some ip ∧ ip ∈ project.allowedIps

/-- **A request matches the settings of a project**: its peer is allowed, and the project is public, or
the request presents a token that is not blank, and no other one than the project's. -/
def Authorized (project : Project) (request : HttpRequest) : Prop :=
  IpAllowed project request ∧
    (project.authMode = .public_ ∨
      (∃ token ∈ presentedTokens request, Text.trim token ≠ "") ∧
        ∀ token ∈ presentedTokens request, Text.trim token ≠ "" →
          Text.trim token = project.ingestToken)

omit [JsonCodec] in
/-- A token that is not blank is trimmed. -/
theorem nonEmptyToken_eq_some {value token : String} :
    nonEmptyToken value = some token ↔ Text.trim value = token ∧ token ≠ "" := by
  unfold nonEmptyToken
  by_cases hblank : Text.trim value = ""
  · simp only [hblank, if_true, reduceCtorEq, false_iff, not_and, not_not]
    exact Eq.symm
  · simp only [hblank, if_false, Option.some.injEq]
    constructor
    · rintro rfl
      exact ⟨rfl, hblank⟩
    · exact And.left

omit [JsonCodec] in
/-- The header is treated like a token of the body. -/
theorem ingestTokenFromRequest_eq (request : HttpRequest) :
    ingestTokenFromRequest request = (headerToken request).bind nonEmptyToken := by
  unfold ingestTokenFromRequest headerToken
  cases (request.header ingestTokenName).bind headerText with
  | none => rfl
  | some text =>
    rw [Option.map_some, Option.bind_some, nonEmptyToken]
    by_cases hblank : Text.trim text = ""
    · simp [hblank]
    · simp [hblank]

omit [JsonCodec] in
/-- **The token of a form** is its last one. -/
theorem formFieldsLoop_token (pairs : List (String × String)) :
    (formFieldsLoop pairs).1 = (lastValue pairs ingestTokenName).bind nonEmptyToken := by
  induction pairs using List.reverseRecOn with
  | nil => rfl
  | append_singleton pairs pair ih =>
    rw [formFieldsLoop, List.foldl_append, ← formFieldsLoop, lastValue, List.filter_append]
    by_cases hname : pair.1 = ingestTokenName
    · simp [hname]
    · rw [lastValue] at ih
      simp [hname, ih]

/-- **What the decoders answer** as the token of the body. -/
theorem requestPayload_bodyToken {request : HttpRequest} {parsed : ParsedIngestRequest}
    (h : requestPayload request = .ok parsed) :
    parsed.bodyToken = (bodyToken request).bind nonEmptyToken := by
  unfold requestPayload at h
  unfold bodyToken
  cases hmethod : request.method with
  | other name =>
    rw [hmethod] at h
    cases h
  | get =>
    rw [hmethod] at h
    simp only [decodeQueryPayload] at h
    split at h
    · cases h
    · exact (encodeEvent_ok h).2
  | post =>
    rw [hmethod] at h
    simp only [decodePostPayload] at h
    split at h
    · cases h
    · split at h
      · rename_i hform
        rw [decodeFormPayload] at h
        simp only [hform, if_true]
        rw [(encodeEvent_ok h).2, formFieldsLoop_token]
      · rename_i hform
        simp only [hform, Bool.false_eq_true, if_false]
        rw [decodeJsonPayload, parseJson] at h
        cases hjson : JsonCodec.fromSlice request.body with
        | error message =>
          rw [hjson] at h
          cases h
        | ok json =>
          rw [hjson] at h
          rw [Result.mapError_ok] at h
          split at h
          · cases h
          · -- the root field of an object
            rename_i fields heq
            cases heq
            exact (encodeEvent_ok h).2
          · -- every other value has no field
            rename_i json' hobject heq
            cases heq
            rw [(encodeEvent_ok h).2]
            cases json with
            | object fields => exact absurd rfl (hobject fields)
            | _ => rfl

/-! ### The decision -/

/-- **The tokens are checked together**: all that are not blank are the project's, and there is one. -/
theorem requestIngestToken_iff {request : HttpRequest} {parsed : ParsedIngestRequest}
    (hparsed : requestPayload request = .ok parsed) (token : String) :
    requestIngestToken request parsed = .ok (some token) ↔
      (∃ sent ∈ presentedTokens request, Text.trim sent ≠ "") ∧
        ∀ sent ∈ presentedTokens request, Text.trim sent ≠ "" → Text.trim sent = token := by
  have hmem : ∀ {sent : Option String} {P : String → Prop},
      (∃ s ∈ sent.toList, Text.trim s ≠ "" ∧ P (Text.trim s)) ↔
        ∃ t, sent.bind nonEmptyToken = some t ∧ P t := by
    intro sent P
    simp only [Option.mem_toList, Option.bind_eq_some_iff, nonEmptyToken_eq_some]
    constructor
    · rintro ⟨s, rfl, hne, hP⟩
      exact ⟨_, ⟨s, rfl, rfl, hne⟩, hP⟩
    · rintro ⟨_, ⟨s, rfl, rfl, hne⟩, hP⟩
      exact ⟨s, rfl, hne, hP⟩
  have hsome : (∃ sent ∈ presentedTokens request, Text.trim sent ≠ "") ↔
      (∃ t, ingestTokenFromRequest request = some t) ∨ ∃ t, parsed.bodyToken = some t := by
    rw [ingestTokenFromRequest_eq, requestPayload_bodyToken hparsed]
    have hheader := @hmem (headerToken request) fun _ => True
    have hbody := @hmem (bodyToken request) fun _ => True
    simp only [and_true] at hheader hbody
    rw [← hheader, ← hbody, presentedTokens]
    simp only [List.mem_append, or_and_right, exists_or]
  have hall : (∀ sent ∈ presentedTokens request, Text.trim sent ≠ "" → Text.trim sent = token) ↔
      (∀ t, ingestTokenFromRequest request = some t → t = token) ∧
        ∀ t, parsed.bodyToken = some t → t = token := by
    rw [ingestTokenFromRequest_eq, requestPayload_bodyToken hparsed]
    have hheader := @hmem (headerToken request) fun t => t ≠ token
    have hbody := @hmem (bodyToken request) fun t => t ≠ token
    rw [← not_iff_not] at hheader hbody
    simp only [not_exists, not_and, not_not] at hheader hbody
    rw [← hheader, ← hbody, presentedTokens]
    simp only [List.mem_append, or_imp, forall_and]
  rw [hsome, hall, requestIngestToken]
  cases ingestTokenFromRequest request with
  | none =>
    cases parsed.bodyToken with
    | none => simp
    | some body => simp
  | some header =>
    cases parsed.bodyToken with
    | none => simp
    | some body =>
      by_cases heq : header = body
      · simp [heq]
      · simp only [ne_eq, heq, not_false_eq_true, if_true, reduceCtorEq, Option.some.injEq,
          exists_eq', or_self, forall_eq', true_and, false_iff, not_and]
        rintro rfl rfl
        exact heq rfl

/-- **The code agrees with the settings**, for a project without a blank entry on its allow-list. -/
theorem authorizeProject_iff {request : HttpRequest} {parsed : ParsedIngestRequest}
    (hparsed : requestPayload request = .ok parsed) {project : Project}
    (hips : "" ∉ project.allowedIps) :
    authorizeProject request parsed project = .ok () ↔ Authorized project request := by
  have hip : ¬ (project.allowedIps ≠ [] ∧ request.getIp.getD "" ∉ project.allowedIps) ↔
      IpAllowed project request := by
    unfold IpAllowed HttpRequest.getIp
    cases request.peerAddr with
    | none =>
      simp only [Option.getD_some, hips, not_false_eq_true, and_true, ne_eq, not_not, reduceCtorEq,
        false_and, exists_const, or_false]
    | some ip =>
      simp only [Option.getD_some, ne_eq, not_and, not_not, Option.some.injEq, exists_eq_left']
      rw [← or_iff_not_imp_left]
  unfold authorizeProject Authorized
  by_cases hallowed : IpAllowed project request
  · rw [if_neg (hip.mpr hallowed), and_iff_right hallowed]
    cases hmode : project.authMode with
    | public_ => simp
    | token =>
      have htoken := requestIngestToken_iff hparsed project.ingestToken
      rw [or_iff_right (by intro h; cases h), ← htoken]
      simp only
      cases hsent : requestIngestToken request parsed with
      | error issue => simp
      | ok sent =>
        cases sent with
        | none => simp
        | some token =>
          by_cases heq : token = project.ingestToken
          · simp [heq]
          · simp [heq]
  · rw [if_pos (not_not.mp fun h => hallowed (hip.mp h))]
    exact iff_of_false (by intro h; cases h) fun h => hallowed h.1

/-! ### Stored projects -/

/-- **Authorisation matches the settings.** For a project that the repository's operations have stored:
no entry of the allow-list that is not blank is lost, so that the list is empty only if every entry is
blank; a request passes exactly if it matches the settings; the token as the admin supplied it passes,
alone in a body, from an allowed peer; and in a project that is not public, tokens from before the
latest rotation pass only if one of them equals the token after trimming. -/
theorem authorization_matches {db : Database} {supplied : Nat → Option Supplied}
    (hhistory : ProjectHistory db supplied) {id : Nat} {row : ProjectRow}
    (hrow : db.projects.get id = some row) (hcolumn : ReadsBack row.allowedIps) :
    ∃ s, supplied id = some s ∧ (row.project id).authMode = s.authMode ∧
      (∀ ip ∈ s.allowedIps, Text.trim ip ≠ "" → Text.trim ip ∈ (row.project id).allowedIps) ∧
      ((row.project id).allowedIps = [] → ∀ ip ∈ s.allowedIps, Text.trim ip = "") ∧
      ∀ request parsed, requestPayload request = .ok parsed →
        (authorizeProject request parsed (row.project id) = .ok () ↔
          Authorized (row.project id) request) ∧
        (AloneInBody request s.token → IpAllowed (row.project id) request →
          authorizeProject request parsed (row.project id) = .ok ()) ∧
        (s.authMode = .token → (∀ token ∈ presentedTokens request, token ∈ s.older) →
          authorizeProject request parsed (row.project id) = .ok () →
          ∃ token ∈ presentedTokens request, Text.trim token = Text.trim s.token) := by
  obtain ⟨s, hs, hholds⟩ := hhistory.stores hrow
  obtain ⟨htoken, hmode, hips⟩ := hholds.project hcolumn id
  have hkept : ∀ ip ∈ s.allowedIps, Text.trim ip ≠ "" →
      Text.trim ip ∈ (row.project id).allowedIps := by
    intro ip hip hne
    rw [hips]
    exact mem_allowedIpsToStorage.mpr ⟨ip, hip, rfl, hne⟩
  have hblank : "" ∉ (row.project id).allowedIps := by
    rw [hips, mem_allowedIpsToStorage]
    rintro ⟨-, -, -, hne⟩
    exact hne rfl
  refine ⟨s, hs, hmode, hkept, ?_, ?_⟩
  · intro hempty ip hip
    by_contra hne
    have hmem := hkept ip hip hne
    rw [hempty] at hmem
    cases hmem
  · intro request parsed hparsed
    have hiff := authorizeProject_iff hparsed hblank
    rw [hiff]
    refine ⟨Iff.rfl, ?_, ?_⟩
    · rintro ⟨hheader, hbody⟩ hallowed
      -- the token of the body is the only one, and it is the project's
      have hpresented : presentedTokens request = [s.token] := by
        rw [presentedTokens, headerToken, hheader, hbody]
        rfl
      refine ⟨hallowed, .inr ⟨⟨s.token, by rw [hpresented]; simp, hholds.notBlank⟩, ?_⟩⟩
      intro token hmem _
      rw [hpresented, List.mem_singleton] at hmem
      rw [hmem, htoken]
    · intro htokenMode _ hauthorized
      obtain hpublic | ⟨⟨token, hmem, hne⟩, hall⟩ := hauthorized.2
      · rw [hmode, htokenMode] at hpublic
        cases hpublic
      · exact ⟨token, hmem, by rw [hall token hmem hne, htoken]⟩

end Tokens

section Sample

/-- A JSON body with a token. -/
def tokenText : Bytes := utf8Bytes "\x7b\"x-ingest-token\":\" clé \"\x7d"

/-- The JSON crate on the empty object, the empty array and the body. -/
@[reducible] def accentJson : JsonCodec where
  fromSlice bytes :=
    if bytes = utf8Bytes "\x7b\x7d" then .ok (.object [])
    else if bytes = utf8Bytes "[]" then .ok (.array [])
    else if bytes = tokenText then .ok (.object [("x-ingest-token", .string " clé ")])
    else .error "expected value at line 1 column 1"
  toVec
    | .object [] => .ok (utf8Bytes "\x7b\x7d")
    | .array [] => .ok (utf8Bytes "[]")
    | _ => .error "key must be a string"

/-- The input for a project whose token has an accent, with a blank entry on its allow-list. -/
def accentInput : CreateProjectInput := ⟨"app", true, " clé "⟩

/-- Its settings. -/
def accentSettings : UpdateProjectIngestSettingsInput := ⟨none, none, some [" "]⟩

/-- The row that is stored. -/
def accentRow : ProjectRow := ⟨"clé", "app", .token, [], "app", true⟩

/-- The project is created. -/
theorem accent_stored : ∃ db supplied, ProjectHistory db supplied ∧ db.projects.get 1 = some accentRow ∧
    supplied 1 = some (.created accentInput accentSettings) := by
  have hrun : (createProjectWithIngestSettings .migrated "0" accentInput accentSettings).toOption.map
      (fun created => (created.1, created.2.projects.get 1)) = some (1, some accentRow) := by
    decide +kernel
  cases hcreate : createProjectWithIngestSettings .migrated "0" accentInput accentSettings with
  | error error =>
    rw [hcreate] at hrun
    cases hrun
  | ok created =>
    obtain ⟨id, db⟩ := created
    rw [hcreate] at hrun
    simp only [Except.toOption, Option.map_some, Option.some.injEq, Prod.mk.injEq] at hrun
    obtain ⟨rfl, hrow⟩ := hrun
    exact ⟨db, _, .create .migrated hcreate, hrow, Function.update_self ..⟩

/-- A POST request with headers and a body. -/
def accentRequest (headers : List (String × Bytes)) (body : Bytes) : HttpRequest where
  method := .post
  path := "/ingest/app"
  query := none
  headers := headers
  peerAddr := some "127.0.0.1"
  projectKey := some "app"
  body := body

/-- A payload by its parts. -/
theorem requestPayload_of_parts [JsonCodec] {request : HttpRequest} {body : Bytes}
    {token : Option String} (h : (requestPayload request).toOption.map
      (fun parsed => (parsed.body, parsed.bodyToken)) = some (body, token)) :
    requestPayload request = .ok ⟨body, token⟩ := by
  cases hparsed : requestPayload request with
  | error issue =>
    rw [hparsed] at h
    cases h
  | ok parsed =>
    rw [hparsed] at h
    simp only [Except.toOption, Option.map_some, Option.some.injEq, Prod.mk.injEq] at h
    rw [← h.1, ← h.2]

/-- **The token as it was supplied**, alone in a JSON body. -/
theorem authorization_matches_sample :
    authorizeProject (accentRequest [] tokenText) ⟨utf8Bytes "\x7b\x7d", some "clé"⟩
      (@ProjectRow.project accentJson 1 accentRow) = .ok () := by
  obtain ⟨db, supplied, hhistory, hrow, hsupplied⟩ := accent_stored
  obtain ⟨s, hs, -, -, -, hrequests⟩ := @authorization_matches accentJson db supplied hhistory 1
    accentRow hrow ⟨"[]", rfl, by decide +kernel⟩
  rw [hsupplied, Option.some.injEq] at hs
  obtain rfl := hs
  exact (hrequests _ _ (@requestPayload_of_parts accentJson (accentRequest [] tokenText) _ _
    (by decide +kernel))).2.1 ⟨by decide +kernel, by decide +kernel⟩ (.inl (by decide +kernel))

/-- **A header that is not ASCII, and a blank entry.** The stored token in the header of a request is
not read, though it passes in a body; and an allow-list with a blank entry is stored as the empty one,
so that every peer is allowed. -/
theorem not_authorization_matches :
    (∃ db supplied, ProjectHistory db supplied ∧ db.projects.get 1 = some accentRow ∧
      supplied 1 = some (.created accentInput accentSettings)) ∧
    (@ProjectRow.project accentJson 1 accentRow).ingestToken = "clé" ∧
    accentSettings.allowedIps = some [" "] ∧
    (@ProjectRow.project accentJson 1 accentRow).allowedIps = [] ∧
    (accentRequest [("x-ingest-token", utf8Bytes "clé")] (utf8Bytes "\x7b\x7d")).header
      ingestTokenName = some (utf8Bytes "clé") ∧
    @requestPayload accentJson
        (accentRequest [("x-ingest-token", utf8Bytes "clé")] (utf8Bytes "\x7b\x7d"))
      = .ok ⟨utf8Bytes "\x7b\x7d", none⟩ ∧
    authorizeProject (accentRequest [("x-ingest-token", utf8Bytes "clé")] (utf8Bytes "\x7b\x7d"))
        ⟨utf8Bytes "\x7b\x7d", none⟩ (@ProjectRow.project accentJson 1 accentRow)
      = .error .missingIngestToken :=
  ⟨accent_stored, by decide +kernel, rfl, by decide +kernel, by decide +kernel,
    @requestPayload_of_parts accentJson _ _ _ (by decide +kernel), by decide +kernel⟩

end Sample

end Ingest4x.Ingest
