/-
Requests and responses.
-/
import Foreman.Http.Header
import Foreman.Json.Printer

namespace Foreman.Http

open Text

/-- A request as it was sent. -/
structure Request where
  method : String
  /-- What follows the method: a path with a query, or a whole URL. -/
  target : String
  headers : Headers
  body : List UInt8 := []

/-- A response. -/
structure Response where
  status : Nat
  headers : Headers := []
  body : String := ""
deriving DecidableEq

/-- The characters that surround a header's value without being part of it. -/
def isPadding (c : Char) : Bool := c == ' ' || c == '\t'

/-- A header's value as it was sent, without the padding around it. -/
def trimPadding (value : String) : String :=
  String.ofList ((value.toList.dropWhile isPadding).reverse.dropWhile isPadding).reverse

/-- A request whose headers are read off the wire. -/
def Request.received (r : Request) : Request :=
  { r with headers := r.headers.map fun h => (h.1, trimPadding h.2) }

/-- What comes before a query or a fragment. -/
def beforeQuery (s : List Char) : List Char :=
  s.takeWhile fun c => c != '?' && c != '#'

/-- The path of a target: of a URL it begins after the host, and is a slash if nothing does. -/
def pathOf (target : List Char) : List Char :=
  match target with
  | '/' :: _ => beforeQuery target
  | _ =>
    match cutAt "://".toList target with
    | none => beforeQuery target
    | some (_, rest) =>
      let path := beforeQuery (rest.dropWhile fun c => c != '/' && c != '?' && c != '#')
      if path = [] then ['/'] else path

/-- The path that a request is for. -/
def Request.path (r : Request) : String := String.ofList (pathOf r.target.toList)

/-- The sender will send another request on the connection: no `connection` header asks to
close it, or a later one asks to keep it. -/
def Request.keepsAlive (r : Request) : Bool :=
  ((r.headers.all "connection").filter isReadable).foldl (fun keeps value =>
    let words := (split ',' value).map fun w => (trim w).toLower
    if keeps then !words.contains "close" else words.contains "keep-alive") true

/-! ### Responses -/

/-- A response with a JSON text. -/
def Response.json (status : Nat) (body : Json) : Response :=
  ⟨status, [("content-type", "application/json")], body.print⟩

/-- The response to a request that failed. -/
def Response.failure (status : Nat) (message : String) : Response :=
  .json status (.record [("errors", .array [.record [("message", .ofText message)]])])

/-- A response without a type. -/
def Response.plain (status : Nat) (body : String) : Response := ⟨status, [], body⟩

/-- A response with a header in place of any other of its name. -/
def Response.withHeader (r : Response) (name value : String) : Response :=
  { r with headers := r.headers.filter (·.1 != name) ++ [(name, value)] }

/-- A response as it goes out: it says so if the connection closes, and the answer to a
`HEAD` has no body. -/
def Response.sentFor (request : Request) (r : Response) : Response :=
  let r := if request.keepsAlive then r else r.withHeader "connection" "close"
  if request.method = "HEAD" then { r with body := "" } else r

end Foreman.Http
