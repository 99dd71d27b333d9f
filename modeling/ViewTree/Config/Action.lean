import ViewTree.Json.Basic

/-!
# Actions

What a handler does when its event comes: one side effect, and for a remote call what follows its
success or failure.
-/

namespace ViewTree

/-- The method of a remote call. -/
inductive Method where
  | get | post | put | delete | patch
deriving DecidableEq, Repr, Inhabited

namespace Method

/-- Every method, in order. -/
def all : List Method := [.get, .post, .put, .delete, .patch]

/-- The name of a method. -/
def name : Method → String
  | get => "GET"
  | post => "POST"
  | put => "PUT"
  | delete => "DELETE"
  | patch => "PATCH"

/-- The method with a name. -/
def ofName? (name : String) : Option Method :=
  all.find? fun method => method.name == name

end Method

/-- Header values by name, in increasing order of the names. -/
abbrev Headers := List (String × String)

namespace Headers

/-- The headers with `value` under `name`, in place of what was there. -/
def insert (name value : String) : Headers → Headers
  | [] => [(name, value)]
  | (other, old) :: headers =>
    if name = other then (name, value) :: headers
    else if name < other then (name, value) :: (other, old) :: headers
    else (other, old) :: insert name value headers

/-- Writes headers one after another. -/
def insertAll (headers : Headers) (entries : List (String × String)) : Headers :=
  entries.foldl (fun headers (name, value) => insert name value headers) headers

/-- The headers as a value. -/
def toJson (headers : Headers) : Json :=
  .object (headers.map fun (name, value) => (name, .text value))

end Headers

/-- A remote call.  The address and the texts in the body are templates. -/
structure ApiCall where
  url : String
  method : Method := .get
  headers : Headers := []
  body : Option Json := none
deriving Repr, Inhabited

namespace ApiCall

/-- A call that fetches an address. -/
def get (url : String) : ApiCall := { url }

/-- A call that posts a body to an address. -/
def post (url : String) (body : Json) : ApiCall := { url, method := .post, body := some body }

/-- Sets a header. -/
def header (call : ApiCall) (name value : String) : ApiCall :=
  { call with headers := call.headers.insert name value }

end ApiCall

/-- The kind of side effect of an action. -/
inductive ActionKind where
  | setState | api | submit | navigate
  /-- A name outside the fixed ones; such an action does nothing. -/
  | unknown (name : String)
deriving DecidableEq, Repr, Inhabited

namespace ActionKind

/-- The name of a kind. -/
def name : ActionKind → String
  | setState => "setState"
  | api => "api"
  | submit => "submit"
  | navigate => "navigate"
  | unknown name => name

/-- The kind with a name. -/
def ofName (name : String) : ActionKind :=
  if name = "setState" then .setState
  else if name = "api" then .api
  else if name = "submit" then .submit
  else if name = "navigate" then .navigate
  else .unknown name

end ActionKind

/-- A side effect and what follows it. -/
structure Action where
  kind : ActionKind
  /-- The state key the action writes to. -/
  target : Option String := none
  params : Option Json := none
  /-- What follows a call that succeeds. -/
  onSuccess : Option Action := none
  /-- What follows a call that fails. -/
  onError : Option Action := none
deriving Repr, Inhabited

/-- A remote load that runs when a view is mounted. -/
structure FetchSpec where
  /-- The state key that receives the payload. -/
  key : String
  api : ApiCall
  /-- The transform the payload goes through. -/
  transform : Option String := none
  onSuccess : Option Action := none
  onError : Option Action := none
deriving Repr, Inhabited

end ViewTree
