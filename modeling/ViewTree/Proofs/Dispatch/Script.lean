import Mathlib.Data.List.Induction
import ViewTree.Dispatch.Transport

/-!
# Scripted replies

The replies that a script has for one method at one address form a queue of their own, `remaining`.
A line of the script puts a reply at its end; a request to the method and address takes the first
reply and uses it up unless it is the last (`remaining_send`); everything else leaves the queue
alone (`remaining_send_of_ne`).  So what is left depends on the number of such requests only
(`remaining_sendAll`), and `Script.answers_by_count` says which reply each request gets.
-/

namespace ViewTree

/-- A request goes to a method at an address. -/
def Request.GoesTo (request : Request) (method : Method) (url : String) : Prop :=
  request.method = method ∧ request.url = url

instance (request : Request) (method : Method) (url : String) :
    Decidable (request.GoesTo method url) :=
  inferInstanceAs (Decidable (_ ∧ _))

namespace Script

/-- A line of a script: a payload, or a failure with a status, for a method at an address. -/
structure Line where
  method : Method
  url : String
  reply : Reply

/-- The script with these lines. -/
def ofLines (latency : Nat) (lines : List Line) : Script :=
  lines.foldl (fun script line => script.respond line.method line.url line.reply) { latency }

/-- The replies that the lines of a script have for a method at an address. -/
def scripted (method : Method) (url : String) (lines : List Line) : List Reply :=
  (lines.filter fun line => line.method = method ∧ line.url = url).map Line.reply

/-- The script after some requests. -/
def sendAll (script : Script) (requests : List Request) : Script :=
  requests.foldl (fun script request => (script.send request).2) script

/-- The replies to some requests. -/
def answers : Script → List Request → List Reply
  | _, [] => []
  | script, request :: requests =>
    (script.send request).1 :: (script.send request).2.answers requests

/-- The replies that routes have left for a method at an address. -/
def remainingOn (method : Method) (url : String) : List Route → List Reply
  | [] => []
  | route :: routes =>
    if route.method = method ∧ route.url = url then route.replies
    else remainingOn method url routes

/-- The replies that a script has left for a method at an address. -/
def remaining (script : Script) (method : Method) (url : String) : List Reply :=
  remainingOn method url script.routes

variable {script : Script} {routes : List Route} {method method' : Method} {url url' : String}
  {request : Request} {requests : List Request}

/-! ### Routes -/

/-- A route for one method and address is for no other. -/
theorem not_route_of_ne {route : Route} (hroute : route.method = method ∧ route.url = url)
    (h : ¬(method = method' ∧ url = url')) : ¬(route.method = method' ∧ route.url = url') := by
  rwa [hroute.1, hroute.2]

/-- The reply that is taken is the first that is left. -/
theorem fst_take : (take method url routes).1 = (remainingOn method url routes).head? := by
  induction routes with
  | nil => rfl
  | cons route routes ih =>
    rw [take, remainingOn]
    split
    · split <;> simp [*]
    · exact ih

/-- It is used up unless it is the last. -/
theorem remainingOn_take :
    remainingOn method url (take method url routes).2
      = (remainingOn method url routes).drop
          (min 1 ((remainingOn method url routes).length - 1)) := by
  induction routes with
  | nil => rfl
  | cons route routes ih =>
    by_cases h : route.method = method ∧ route.url = url
    · simp only [take, remainingOn, if_pos h]
      split
      · rename_i hreplies
        simp [remainingOn, h, hreplies]
      · rename_i hreplies
        have hshort : route.replies.length ≤ 1 := by
          rcases hroute : route.replies with _ | ⟨reply, _ | ⟨next, rest⟩⟩
          · exact Nat.zero_le 1
          · exact Nat.le_refl 1
          · exact absurd hroute (hreplies reply next rest)
        rw [remainingOn, if_pos h, Nat.sub_eq_zero_of_le hshort]
        rfl
    · simp only [take, remainingOn, if_neg h]
      exact ih

/-- What is left for another method or address stays. -/
theorem remainingOn_take_of_ne (h : ¬(method = method' ∧ url = url')) :
    remainingOn method' url' (take method url routes).2 = remainingOn method' url' routes := by
  induction routes with
  | nil => rfl
  | cons route routes ih =>
    rw [take]
    split
    · rename_i hroute
      have hother := not_route_of_ne hroute h
      split <;> simp only [remainingOn, if_neg hother]
    · simp only [remainingOn, ih]

theorem remainingOn_addTo (reply : Reply) :
    remainingOn method url (addTo method url reply routes)
      = remainingOn method url routes ++ [reply] := by
  induction routes with
  | nil => simp [addTo, remainingOn]
  | cons route routes ih =>
    by_cases h : route.method = method ∧ route.url = url
    · simp only [addTo, if_pos h, remainingOn]
    · simp only [addTo, if_neg h, remainingOn, ih]

theorem remainingOn_addTo_of_ne (reply : Reply) (h : ¬(method = method' ∧ url = url')) :
    remainingOn method' url' (addTo method url reply routes) = remainingOn method' url' routes := by
  induction routes with
  | nil => simp only [addTo, remainingOn, if_neg h]
  | cons route routes ih =>
    by_cases hroute : route.method = method ∧ route.url = url
    · have hother := not_route_of_ne hroute h
      simp only [addTo, if_pos hroute, remainingOn, if_neg hother]
    · simp only [addTo, if_neg hroute, remainingOn, ih]

/-! ### Lines -/

theorem scripted_concat (lines : List Line) (line : Line) :
    scripted method url (lines ++ [line])
      = scripted method url lines
        ++ if line.method = method ∧ line.url = url then [line.reply] else [] := by
  rw [scripted, List.filter_append, List.map_append]
  congr 1
  by_cases h : line.method = method ∧ line.url = url <;> simp [h]

/-- A script has left what its lines say, keeps requests, and fails where there is no line. -/
theorem ofLines_spec (latency : Nat) (lines : List Line) :
    (∀ method url, (ofLines latency lines).remaining method url = scripted method url lines) ∧
    (ofLines latency lines).fallback = statusReply 404 ∧
    (ofLines latency lines).recording = true ∧ (ofLines latency lines).requests = [] := by
  induction lines using List.reverseRecOn with
  | nil => exact ⟨fun _ _ => rfl, rfl, rfl, rfl⟩
  | append_singleton lines line ih =>
    obtain ⟨hremaining, hfallback, hrecording, hrequests⟩ := ih
    have hlast : ofLines latency (lines ++ [line])
        = (ofLines latency lines).respond line.method line.url line.reply :=
      List.foldl_append.trans rfl
    rw [hlast]
    refine ⟨fun method url => ?_, hfallback, hrecording, hrequests⟩
    rw [scripted_concat, ← hremaining]
    by_cases h : line.method = method ∧ line.url = url
    · obtain ⟨rfl, rfl⟩ := h
      rw [if_pos ⟨rfl, rfl⟩]
      exact remainingOn_addTo line.reply
    · rw [if_neg h, List.append_nil]
      exact remainingOn_addTo_of_ne line.reply h

/-! ### Requests -/

theorem fst_send :
    (script.send request).1
      = (script.remaining request.method request.url).head?.getD script.fallback :=
  congrArg (Option.getD · script.fallback) fst_take

/-- A request takes the first reply for its method and address, and the last one stays. -/
theorem remaining_send (h : request.GoesTo method url) :
    (script.send request).2.remaining method url
      = (script.remaining method url).drop (min 1 ((script.remaining method url).length - 1)) := by
  obtain ⟨rfl, rfl⟩ := h
  exact remainingOn_take

/-- A request leaves the replies alone that are not for its method and address. -/
theorem remaining_send_of_ne (h : ¬request.GoesTo method url) :
    (script.send request).2.remaining method url = script.remaining method url :=
  remainingOn_take_of_ne h

/-- After some requests to a method and address as many replies are used up, but not the last. -/
theorem remaining_sendAll (method : Method) (url : String) :
    (script.sendAll requests).remaining method url
      = (script.remaining method url).drop
          (min (requests.countP fun request => request.GoesTo method url)
            ((script.remaining method url).length - 1)) := by
  induction requests generalizing script with
  | nil => rw [List.countP_nil, Nat.zero_min, List.drop_zero]; rfl
  | cons request requests ih =>
    have hcons : script.sendAll (request :: requests) = (script.send request).2.sendAll requests :=
      List.foldl_cons ..
    rw [hcons, ih, List.countP_cons]
    by_cases h : request.GoesTo method url
    · rw [remaining_send h, List.drop_drop, List.length_drop, decide_eq_true h, if_pos rfl]
      congr 1
      omega
    · rw [remaining_send_of_ne h, decide_eq_false h, if_neg Bool.false_ne_true, Nat.add_zero]

theorem fallback_sendAll : (script.sendAll requests).fallback = script.fallback := by
  induction requests generalizing script with
  | nil => rfl
  | cons request requests ih => exact ih.trans rfl

/-- A script that keeps requests has kept them all, in order. -/
theorem requests_sendAll (h : script.recording = true) :
    (script.sendAll requests).requests = script.requests ++ requests := by
  induction requests generalizing script with
  | nil => exact (List.append_nil _).symm
  | cons request requests ih =>
    have hkept : (script.send request).2.requests = script.requests ++ [request] := if_pos h
    have hrecording : (script.send request).2.recording = true := h
    have hrest := ih hrecording
    rw [hkept, List.append_assoc] at hrest
    exact hrest

theorem length_answers : (script.answers requests).length = requests.length := by
  induction requests generalizing script with
  | nil => rfl
  | cons request requests ih => rw [answers, List.length_cons, List.length_cons, ih]

/-- A request gets the reply of the script after the requests before it. -/
theorem getElem?_answers {k : Nat} (h : requests[k]? = some request) :
    (script.answers requests)[k]? = some ((script.sendAll (requests.take k)).send request).1 := by
  induction requests generalizing script k with
  | nil => cases h
  | cons first requests ih =>
    cases k with
    | zero =>
      obtain rfl := Option.some.inj h
      rfl
    | succ k =>
      rw [answers, List.take_succ_cons]
      exact ih h

/-- A request gets the reply whose number in the script, among those for its method and address, is
its own number among the requests to them, or the last one when there are fewer; without any it
fails.  Requests leave the replies to others alone, and all are kept in the order they came. -/
theorem answers_by_count (latency : Nat) (lines : List Line) (requests : List Request) :
    let script := ofLines latency lines
    (script.answers requests).length = requests.length ∧
    (∀ (k : Nat) (request : Request), requests[k]? = some request →
      let replies := scripted request.method request.url lines
      let number := (requests.take (k + 1)).countP fun other =>
        other.GoesTo request.method request.url
      (replies ≠ [] →
        (script.answers requests)[k]? = replies[min number replies.length - 1]?) ∧
      (replies = [] →
        (script.answers requests)[k]? = some (.error (.status 404 "Not Found")))) ∧
    (∀ (sent : List Request) (request : Request) (method : Method) (url : String),
      ¬request.GoesTo method url →
        ((script.sendAll sent).send request).2.remaining method url
          = (script.sendAll sent).remaining method url) ∧
    (script.sendAll requests).requests = requests := by
  intro script
  obtain ⟨hremaining, hfallback, hrecording, hrequests⟩ := ofLines_spec latency lines
  refine ⟨length_answers, ?_, fun _ _ _ _ => remaining_send_of_ne, ?_⟩
  · intro k request hrequest replies number
    -- The request is one more than those before it.
    have hnumber : number = (requests.take k).countP (fun other =>
        other.GoesTo request.method request.url) + 1 := by
      have hself : request.GoesTo request.method request.url := ⟨rfl, rfl⟩
      simp only [number, List.take_add_one, hrequest, Option.toList_some, List.countP_append,
        List.countP_singleton, decide_eq_true hself, if_pos]
    have hreply : (script.answers requests)[k]?
        = some ((replies[min (number - 1) (replies.length - 1)]?).getD (statusReply 404)) := by
      rw [getElem?_answers hrequest, fst_send, remaining_sendAll, hremaining, fallback_sendAll,
        hfallback, List.head?_drop, hnumber, Nat.add_sub_cancel]
    constructor
    · intro hne
      have hpos := List.length_pos_iff.mpr hne
      have hindex : min number replies.length - 1 = min (number - 1) (replies.length - 1) := by
        omega
      have hlt : min (number - 1) (replies.length - 1) < replies.length := by omega
      rw [hreply, hindex, List.getElem?_eq_getElem hlt, Option.getD_some]
    · intro hnone
      rw [hreply, hnone]
      rfl
  · rw [requests_sendAll hrecording, hrequests, List.nil_append]

example :
    let request : Request := { method := .get, url := "/n", headers := [], body := none }
    (ofLines 0 [⟨.get, "/n", .ok (.int 1)⟩, ⟨.get, "/n", .ok (.int 2)⟩]).answers
        [request, { request with method := .post }, request, request]
      = [.ok (.int 1), statusReply 404, .ok (.int 2), .ok (.int 2)] := by
  rfl

end Script

end ViewTree
