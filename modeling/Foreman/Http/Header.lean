/-
The headers of a request, and what is read from them.

Names are compared without regard to case and may repeat.  A value is readable
when it consists of visible ASCII, blanks and tabs.
-/
import Foreman.Digest.Sha1
import Foreman.Net.Address
import Foreman.Text.Base64
import Foreman.Text.Blank
import Foreman.Text.Utf8

namespace Foreman.Http

open Text

/-- Names and values, in order. -/
abbrev Headers := List (String × String)

/-- A value has no character outside visible ASCII but blanks and tabs. -/
def isReadable (value : String) : Bool :=
  value.toList.all fun c => c == '\t' || (' ' ≤ c && c ≤ '~')

namespace Headers

/-- The values of a name. -/
def all (h : Headers) (name : String) : List String :=
  (h.filter (·.1.toLower == name)).map (·.2)

/-- The first value of a name. -/
def first? (h : Headers) (name : String) : Option String :=
  (h.all name).head?

/-- The elements of the comma-separated lists that a name's readable values hold. -/
def elements (h : Headers) (name : String) : List String :=
  ((h.all name).filter isReadable).flatMap fun value => (split ',' value).map trim

/-- One of the elements of a name's lists is this word, in any case. -/
def hasElement (h : Headers) (name word : String) : Bool :=
  (h.elements name).any (·.toLower == word)

end Headers

/-- Who is asking: the first entry of the `x-forwarded-for` header if there is one, else
the address at the other end of the connection. -/
def callerIp (h : Headers) (peer : Net.SocketAddr) : String :=
  let forwarded := ((h.first? "x-forwarded-for").filter isReadable).bind fun value =>
    (split ',' value).head?.bind trimmed?
  forwarded.getD (String.ofList peer.printIp)

/-! ### The WebSocket handshake -/

/-- What is appended to a handshake's key. -/
def handshakeSuffix : String := "258EAFA5-E914-47DA-95CA-C5AB0DC85B11"

/-- The answer to a handshake's key. -/
def acceptKey (key : String) : String :=
  String.ofList (Base64.encode Base64.padded (Digest.sha1 (utf8 (key ++ handshakeSuffix))))

/-- The answer to a handshake of version 13, if the headers are one. -/
def websocketAccept (h : Headers) : Option String :=
  if h.hasElement "connection" "upgrade" && h.hasElement "upgrade" "websocket" &&
      h.first? "sec-websocket-version" == some "13" then
    (h.first? "sec-websocket-key").map acceptKey
  else none

end Foreman.Http
