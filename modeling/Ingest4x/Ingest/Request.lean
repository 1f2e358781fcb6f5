import Ingest4x.Bytes.UrlEncoded
import Ingest4x.Json
import Ingest4x.Table.Sorted
import Ingest4x.Text
import Ingest4x.Wal.Record
import Mathlib.Data.String.Basic

/-! # HTTP requests and responses

What the ingest endpoint sees of a request, and what it answers. -/

namespace Ingest4x.Ingest

open Bytes Wal

/-! ### Requests -/

/-- The request methods that the endpoint tells apart. -/
inductive Method
  | get
  | post
  | other (name : String)
  deriving DecidableEq, Repr

/-- `Method::as_str`. -/
def Method.asStr : Method → String
  | .get => "GET"
  | .post => "POST"
  | .other name => name

/-- **`HttpRequest`** with its body. Header names are in lower case, as `HeaderName` keeps them. -/
structure HttpRequest where
  method : Method
  path : String
  query : Option String
  headers : List (String × Bytes)
  peerAddr : Option String
  projectKey : Option String
  body : Bytes

namespace HttpRequest

/-- `HeaderMap::get`: the first value of a name. -/
def header (request : HttpRequest) (name : String) : Option Bytes :=
  (request.headers.find? fun header => header.1 == name).map Prod.snd

/-- `get_ip`. -/
def getIp (request : HttpRequest) : Option String :=
  match request.peerAddr with
  | some ip => some ip
  | none => some ""

/-- `Query<HashMap<String, String>>`: the last value of each name in the query string. -/
def queryParams (request : HttpRequest) : SortedTable String String :=
  SortedTable.ofPairs (UrlEncoded.parse (utf8Bytes (request.query.getD "")))

end HttpRequest

/-- `HeaderValue::to_str`: a header value is a text if its bytes are visible ASCII. -/
def headerText (value : Bytes) : Option String :=
  if value.all fun b => (32 ≤ b.toNat && b.toNat < 127) || b.toNat == 9 then
    some (String.ofList (value.map fun b => Char.ofNat b.toNat))
  else none

/-! ### Responses -/

/-- The body of a response. -/
inductive ResponseBody
  | empty
  | text (s : String)
  | json (value : Value)
  deriving DecidableEq

/-- `HttpResponse`. -/
structure HttpResponse where
  status : Nat
  body : ResponseBody
  deriving DecidableEq

end Ingest4x.Ingest
