import ViewTree.Config.Action

/-!
# Remote calls

Requests, what can go wrong with them, and a transport that answers from a script.
-/

namespace ViewTree

/-- A remote call with everything filled in. -/
structure Request where
  method : Method
  url : String
  headers : Headers
  body : Option Json
deriving Repr, Inhabited

/-- The failure of a remote call. -/
inductive TransportError where
  /-- The request could not be sent. -/
  | request (reason : String)
  /-- The answer has a status that is no success. -/
  | status (code : Nat) (reason : String)
  /-- The answer could not be understood. -/
  | decode (reason : String)
deriving DecidableEq, Repr, Inhabited

/-- The text of a failure. -/
def TransportError.message : TransportError → String
  | request reason => "request failed: " ++ reason
  | status code reason => "API call failed: " ++ toString code ++ " " ++ reason
  | decode reason => "invalid response body: " ++ reason

/-- The usual phrases for the statuses of HTTP. -/
def statusPhrases : List (Nat × String) :=
  [(100, "Continue"), (101, "Switching Protocols"), (102, "Processing"),
   (103, "Early Hints"), (200, "OK"),
   (201, "Created"), (202, "Accepted"), (203, "Non Authoritative Information"),
   (204, "No Content"), (205, "Reset Content"), (206, "Partial Content"), (207, "Multi-Status"),
   (208, "Already Reported"), (226, "IM Used"), (300, "Multiple Choices"),
   (301, "Moved Permanently"), (302, "Found"), (303, "See Other"), (304, "Not Modified"),
   (305, "Use Proxy"), (307, "Temporary Redirect"), (308, "Permanent Redirect"),
   (400, "Bad Request"), (401, "Unauthorized"), (402, "Payment Required"), (403, "Forbidden"),
   (404, "Not Found"), (405, "Method Not Allowed"), (406, "Not Acceptable"),
   (407, "Proxy Authentication Required"), (408, "Request Timeout"), (409, "Conflict"),
   (410, "Gone"), (411, "Length Required"), (412, "Precondition Failed"),
   (413, "Payload Too Large"), (414, "URI Too Long"), (415, "Unsupported Media Type"),
   (416, "Range Not Satisfiable"), (417, "Expectation Failed"), (418, "I'm a teapot"),
   (421, "Misdirected Request"), (422, "Unprocessable Entity"), (423, "Locked"),
   (424, "Failed Dependency"), (425, "Too Early"), (426, "Upgrade Required"),
   (428, "Precondition Required"), (429, "Too Many Requests"),
   (431, "Request Header Fields Too Large"), (451, "Unavailable For Legal Reasons"),
   (500, "Internal Server Error"), (501, "Not Implemented"), (502, "Bad Gateway"),
   (503, "Service Unavailable"), (504, "Gateway Timeout"), (505, "HTTP Version Not Supported"),
   (506, "Variant Also Negotiates"), (507, "Insufficient Storage"), (508, "Loop Detected"),
   (510, "Not Extended"), (511, "Network Authentication Required")]

/-- The phrase for a status; none for an unusual one. -/
def statusPhrase (code : Nat) : String :=
  (statusPhrases.lookup code).getD ""

/-- What a remote answers. -/
abbrev Reply := Except TransportError Json

/-- The failure with a status. -/
def statusReply (code : Nat) : Reply := .error (.status code (statusPhrase code))

/-- The replies a script has for one method and address. -/
structure Route where
  method : Method
  url : String
  replies : List Reply

/-- A transport that answers from a script.  The replies of a route are used up in order, the last
one stays; a request without a route gets `fallback`. -/
structure Script where
  routes : List Route := []
  fallback : Reply := statusReply 404
  /-- How long each reply takes, in milliseconds. -/
  latency : Nat := 0
  /-- Whether requests are kept. -/
  recording : Bool := true
  /-- The requests kept so far, in order. -/
  requests : List Request := []

namespace Script

/-- Adds a reply to the end of a route. -/
def addTo (method : Method) (url : String) (reply : Reply) : List Route → List Route
  | [] => [⟨method, url, [reply]⟩]
  | route :: routes =>
    if route.method = method ∧ route.url = url then
      { route with replies := route.replies ++ [reply] } :: routes
    else route :: addTo method url reply routes

/-- The script with one more reply. -/
def respond (script : Script) (method : Method) (url : String) (reply : Reply) : Script :=
  { script with routes := addTo method url reply script.routes }

/-- Takes the next reply for a request off the routes. -/
def take (method : Method) (url : String) : List Route → Option Reply × List Route
  | [] => (none, [])
  | route :: routes =>
    if route.method = method ∧ route.url = url then
      match route.replies with
      | reply :: next :: rest => (some reply, { route with replies := next :: rest } :: routes)
      | replies => (replies.head?, route :: routes)
    else
      let (reply, rest) := take method url routes
      (reply, route :: rest)

/-- Sends a request: the reply it will get, and the script afterwards. -/
def send (script : Script) (request : Request) : Reply × Script :=
  let (reply, routes) := take request.method request.url script.routes
  let requests := if script.recording then script.requests ++ [request] else script.requests
  (reply.getD script.fallback, { script with routes, requests })

/-- The transport of a host without a network: no request can even be built. -/
def offline : Script := { fallback := .error (.request "builder error"), recording := false }

end Script

end ViewTree
