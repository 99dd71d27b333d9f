import ViewTree.Dispatch.Transport
import ViewTree.Json.Reader
import ViewTree.Text.Split

/-!
# Calls over HTTP

What a remote call looks like to the server it goes to, and what becomes of the server's answer.
-/

namespace ViewTree

namespace Http

/-- A request as a server receives it. -/
structure Received where
  method : Method
  /-- The path and the query. -/
  target : String
  /-- The headers, names in lower case, in order. -/
  headers : List (String × String)
  /-- The text of the body. -/
  body : String

/-- Whether a character may stand in the name of a header. -/
def isNameChar (c : Char) : Bool :=
  c.isAlphanum || "!#$%&'*+-.^_|~`".toList.contains c

/-- Whether a character may stand in the value of a header. -/
def isValueChar (c : Char) : Bool :=
  c = '\t' || (0x20 ≤ c.toNat && c.toNat ≠ 0x7F)

/-- Whether a header can be sent. -/
def isSendable (header : String × String) : Bool :=
  !header.1.isEmpty && header.1.toList.all isNameChar && header.2.toList.all isValueChar

/-- A byte as a percent sign and two digits. -/
def percentByte (byte : UInt8) : List Char :=
  let digits := (Text.hexDigits byte.toNat).map Char.toUpper
  '%' :: (if digits.length = 1 then '0' :: digits else digits)

/-- A character as it may stand in an address: those in `reserved` and those beyond ASCII are given
by their bytes. -/
def percentEncode (reserved : List Char) (c : Char) : List Char :=
  if 0x20 < c.toNat && c.toNat < 0x7F && !reserved.contains c then [c]
  else (String.singleton c).toUTF8.toList.flatMap percentByte

/-- Characters of a path that are given by their bytes. -/
def pathReserved : List Char := "\"#<>?^`\x7b\x7d".toList

/-- Characters of a query that are given by their bytes. -/
def queryReserved : List Char := "\"#<>'".toList

/-- Whether a segment stands for the directory it is in. -/
def isHere (segment : List Char) : Bool :=
  ["." , "%2e"].contains (String.ofList (segment.map Char.toLower))

/-- Whether a segment stands for the directory above. -/
def isAbove (segment : List Char) : Bool :=
  ["..", ".%2e", "%2e.", "%2e%2e"].contains (String.ofList (segment.map Char.toLower))

/-- The segments of a path with those that move resolved; `passed` holds the earlier ones, last
first. -/
def resolveSegments (passed : List (List Char)) : List (List Char) → List (List Char)
  | [] => passed.reverse
  | segment :: rest =>
    if isAbove segment then
      let above := passed.drop 1
      resolveSegments (if rest.isEmpty then [] :: above else above) rest
    else if isHere segment then
      resolveSegments (if rest.isEmpty then [] :: passed else passed) rest
    else resolveSegments (segment :: passed) rest

/-- The path and query an address asks its server for, given what follows the server's name. -/
def target (address : String) : String :=
  let cs := address.toList.filter fun c => c ≠ '\t' && c ≠ '\n' && c ≠ '\r'
  let cs := match Text.cut '#' cs with
    | some (before, _) => before
    | none => cs
  let (path, query) := match Text.cut '?' cs with
    | some (path, query) => (path, some query)
    | none => (cs, none)
  let path := path.map fun c => if c = '\\' then '/' else c
  let segments := (Text.pieces '/' path).drop 1
  let resolved := (resolveSegments [] segments).map fun s => s.flatMap (percentEncode pathReserved)
  let resolved := if resolved.isEmpty then [[]] else resolved
  let query := match query with
    | some query => '?' :: query.flatMap (percentEncode queryReserved)
    | none => []
  String.ofList (resolved.flatMap ('/' :: ·) ++ query)

/-- Puts a header before the first one with a greater name. -/
def insertHeader (header : String × String) : List (String × String) → List (String × String)
  | [] => [header]
  | other :: headers =>
    if header.1 < other.1 then header :: other :: headers
    else other :: insertHeader header headers

/-- The headers of a request, names in lower case.  A body without a content type is JSON. -/
def headersOf (request : Request) : List (String × String) :=
  let own := request.headers.map fun (name, value) =>
    (String.ofList (name.toList.map Char.toLower), value)
  let typed := own.any fun header => header.1 == "content-type"
  let all := if request.body.isSome && !typed then
    own ++ [("content-type", "application/json")] else own
  all.foldl (fun headers header => insertHeader header headers) []

/-- What a server receives, when the request is for the server at `base`; nothing when the request
cannot be built. -/
def receive (base : String) (request : Request) : Option Received := do
  let address ← Text.stripLead base.toList request.url.toList
  if request.headers.all isSendable then
    some { method := request.method, target := target (String.ofList address),
           headers := headersOf request, body := (request.body.map Json.compact).getD "" }
  else none

/-- What becomes of an answer with a status and a text. -/
def decodeAnswer (status : Nat) (text : String) : Reply :=
  if 200 ≤ status && status < 300 then
    match Json.parse text with
    | .ok value => .ok value
    | .error _ => .error (.decode "error decoding response body")
  else statusReply status

/-- A call of a server that answers every request in the same way. -/
def exchange (base : String) (request : Request) (status : Nat) (text : String) :
    Option Received × Reply :=
  match receive base request with
  | none => (none, .error (.request "builder error"))
  | some received => (some received, decodeAnswer status text)

end Http

end ViewTree
