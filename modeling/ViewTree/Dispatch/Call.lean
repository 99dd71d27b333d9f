import ViewTree.Config.Decode
import ViewTree.Config.Encode
import ViewTree.Dispatch.World

/-!
# Remote calls and the state

A call for a state key marks the key as loading, sends its request and writes what comes back: the
payload under the key, or the text of the failure under the key's error.  Between sending and
settling other work may run; a call that finds the view ended when it could settle writes nothing.
-/

namespace ViewTree

/-- What a call was meant to do. -/
structure CallPlan where
  /-- The state key the payload goes to. -/
  target : String
  /-- The remote call as a value, templates included. -/
  params : Json
  /-- The event the templates may refer to. -/
  event : Option Json := none
  /-- The transform the payload goes through. -/
  transform : Option String := none

/-- A call whose request has been sent. -/
structure Call where
  target : String
  transform : Option String
  reply : Reply
  /-- When the reply comes. -/
  due : Nat

/-- How a call ended. -/
inductive Outcome where
  | succeeded
  | failed
  /-- The view ended first. -/
  | cancelled
deriving DecidableEq, Repr

/-- The status of a link whose call ended so. -/
def Outcome.status : Outcome → Status
  | succeeded => .succeeded
  | failed => .failed
  | cancelled => .skipped

/-- The text of params that describe no remote call. -/
def invalidParams (error : DecodeError) : String :=
  "invalid api params: " ++ (error.message?.getD "")

/-- The request a call makes in a scope.  Its own headers go over those of every request; the names
are put in lower case. -/
def buildRequest (options : Options) (scope : Scope) (params : Json) : Except String Request :=
  match ApiCall.ofJson (scope.expandIn params) with
  | .error error => .error (invalidParams error)
  | .ok call =>
    let own := call.headers.map fun (name, value) => (lowerAscii name, value)
    .ok { method := call.method, url := call.url,
          headers := options.headers.insertAll own, body := call.body }

namespace World

/-- Marks a key as loading, its last error gone. -/
def markLoading (world : World) (target : String) : World :=
  (world.set (loadingKey target) (.bool true)).remove (errorKey target)

/-- Marks a key as no longer loading. -/
def markLoaded (world : World) (target : String) : World :=
  world.set (loadingKey target) (.bool false)

/-- Writes the text of a failure. -/
def settleFailure (world : World) (target message : String) : World :=
  (world.set (errorKey target) (.text message)).markLoaded target

/-- Writes a payload. -/
def settleSuccess (world : World) (target : String) (payload : Json) : World :=
  (world.set target payload).markLoaded target

/-- Starts a call: its request goes out, or the call fails at once for want of one. -/
def startCall (setting : Setting) (world : World) (plan : CallPlan) : World × Option Call :=
  let world := world.markLoading plan.target
  match buildRequest setting.options (world.scope plan.event) plan.params with
  | .error message => (world.settleFailure plan.target message, none)
  | .ok request =>
    let (reply, transport) := world.transport.send request
    ({ world with transport },
      some { target := plan.target, transform := plan.transform, reply,
             due := world.now + transport.latency })

/-- Settles a call with its reply, or drops it when the view has ended. -/
def settleCall (setting : Setting) (world : World) (call : Call) : World × Outcome :=
  if world.ended then (world, .cancelled)
  else
    match call.reply with
    | .ok payload =>
      let payload := setting.transforms.applyOption call.transform payload
      (world.settleSuccess call.target payload, .succeeded)
    | .error error => (world.settleFailure call.target error.message, .failed)

end World

end ViewTree
