/-
Addresses to listen on: an address and a port, with or without `http://` before
it and a slash after it.
-/
import Foreman.Net.Address
import Foreman.Text.Blank

namespace Foreman.Net

open Text

/-- Why a text is no address to listen on; the text is without blanks around it. -/
inductive BindError where
  | empty
  | scheme (text : String)
  | path (text : String)
  | notSocketAddr (text : String)
  | zeroPort (text : String)
deriving DecidableEq

/-- The wording of an error. -/
def BindError.message : BindError → String
  | empty => "bind address must be non-empty"
  | scheme text => "only plain http listeners are supported: " ++ text
  | path text => "bind address cannot carry a path or query: " ++ text
  | notSocketAddr text => "bind address must be ip:port, hostnames are not resolved: " ++ text
  | zeroPort text => "bind port must be nonzero: " ++ text

/-- The text after the scheme; `none` for a scheme that is not `http`. -/
def afterScheme? (s : List Char) : Option (List Char) :=
  match cutAt "://".toList s with
  | some (scheme, rest) => if scheme.map Char.toLower = "http".toList then some rest else none
  | none => some s

/-- A text without the slash at its end. -/
def withoutSlash (s : List Char) : List Char :=
  if s.getLast? = some '/' then s.dropLast else s

/-- The text goes on behind an address: with a path, a query or a fragment. -/
def hasPath (s : List Char) : Bool :=
  s.any fun c => c == '/' || c == '?' || c == '#'

/-- Reads an address to listen on. -/
def parseBind (raw : String) : Except BindError SocketAddr :=
  let s := trimChars raw.toList
  let text := String.ofList s
  if s = [] then .error .empty
  else match afterScheme? s with
    | none => .error (.scheme text)
    | some rest =>
      let rest := withoutSlash rest
      if hasPath rest then .error (.path text)
      else match SocketAddr.ofText? rest with
        | none => .error (.notSocketAddr text)
        | some a => if a.port = 0 then .error (.zeroPort text) else .ok a

end Foreman.Net
