import BatchAuction.Json.Printer
import BatchAuction.Text.Utf8

/-!
# HTTP messages

Of a request the method, the target and the body matter; of an answer the status
and the body. A body is there as a whole: what does not end or is too long for the
network has been turned away before.
-/

set_option autoImplicit false

namespace BatchAuction.Http

structure Request where
  method : String
  path : String
  /-- What follows the question mark of the target. -/
  query : List UInt8
  body : List UInt8
deriving DecidableEq, Repr

inductive Body where
  | json (value : Json)
  | text (value : String)

structure Response where
  status : Nat
  body : Body

/-- A request with its target still in one piece. -/
def Request.ofTarget (method target : String) (body : List UInt8) : Request :=
  let (path, rest) := target.toList.span (· ≠ '?')
  ⟨method, String.ofList path, Text.Utf8.encode rest.tail, body⟩

def Response.empty (status : Nat) : Response := ⟨status, .text ""⟩

/-- An answer as it is sent. A request for the head of an answer is not told the body. -/
def Response.sentTo (response : Response) (method : String) : Response :=
  if method = "HEAD" then .empty response.status else response

theorem Response.status_sentTo (response : Response) (method : String) :
    (response.sentTo method).status = response.status := by
  unfold sentTo
  split <;> rfl

theorem Response.sentTo_of_ne (response : Response) {method : String} (other : method ≠ "HEAD") :
    response.sentTo method = response := if_neg other

theorem Response.sentTo_empty (status : Nat) (method : String) :
    (empty status).sentTo method = empty status := by
  unfold sentTo
  split <;> rfl

def Body.print : Body → String
  | .json value => value.print
  | .text value => value

end BatchAuction.Http
