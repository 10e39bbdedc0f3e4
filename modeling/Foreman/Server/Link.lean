/-
The socket between the server and a worker.

A link is two pipes of limited room that carry WebSocket frames.  Frames that the
server has written and the worker has not read are kept in order; the server is
blocked in a write while they take more room than the pipe has.  The worker at the
other end reads all the time or not at all, answers pings and a close, and stops
reporting once it has seen a close or the end.
-/
import Foreman.Message.TextFrame

namespace Foreman.Server

/-- A WebSocket frame. -/
inductive Frame where
  | text (s : String)
  | binary (payload : List UInt8)
  | ping (payload : List UInt8)
  | pong (payload : List UInt8)
  | close
deriving DecidableEq

namespace Frame

/-- The bytes of a frame's contents. -/
def payloadSize : Frame → Nat
  | text s => s.utf8ByteSize
  | binary p => p.length
  | ping p => p.length
  | pong p => p.length
  | close => 0

/-- The bytes of a frame on its way to the worker: contents behind a header. -/
def size (f : Frame) : Nat :=
  let n := f.payloadSize
  n + if n < 126 then 2 else if n < 65536 then 4 else 10

/-- The bytes of a frame on its way to the server, where contents are masked. -/
def maskedSize (f : Frame) : Nat := f.size + 4

end Frame

/-- What a worker reports of its connection. -/
inductive Report where
  | frame (f : Frame)
  /-- The connection ended without a close. -/
  | ended
deriving DecidableEq

/-- The worker at the other end of a link. -/
structure Peer where
  /-- It reads whatever comes. -/
  reading : Bool := true
  /-- Its socket has disappeared. -/
  gone : Bool := false
  /-- It has sent or seen a close. -/
  closing : Bool := false
  /-- It has nothing more to report. -/
  finished : Bool := false
  /-- What it has reported since it was last asked. -/
  reports : List Report := []
deriving DecidableEq

/-- A socket with its two pipes. -/
structure Link where
  /-- The room of each pipe, in bytes. -/
  room : Nat
  /-- Frames of the worker that the server has not looked at. -/
  incoming : List Frame := []
  /-- The bytes of them that are still in the pipe. -/
  incomingBytes : Nat := 0
  /-- Frames of the server that the worker has not read. -/
  outgoing : List Frame := []
  /-- The server's end has disappeared. -/
  serverGone : Bool := false
  peer : Peer := {}
deriving DecidableEq

/-- What came of sending a frame to the server. -/
inductive Sent where
  | sent
  /-- The connection is closed or closing. -/
  | refused
  /-- The worker's own socket has disappeared. -/
  | gone
  /-- The pipe has no room. -/
  | blocked
deriving DecidableEq

namespace Link

/-- The bytes that the worker has not read. -/
def unread (l : Link) : Nat := (l.outgoing.map Frame.size).foldr (· + ·) 0

/-- A write of the server cannot complete. -/
def isBlocked (l : Link) : Bool :=
  !l.peer.reading && !l.peer.gone && decide (l.room < l.unread)

/-- The server writes a frame. -/
def write (f : Frame) (l : Link) : Link := { l with outgoing := l.outgoing ++ [f] }

/-- The frames at the front that fit a room entirely. -/
def fitting : Nat → List Frame → List Frame
  | _, [] => []
  | room, f :: fs => if f.size ≤ room then f :: fitting (room - f.size) fs else []

/-- The server's end disappears; what was not in the pipe is lost. -/
def dropServer (l : Link) : Link :=
  { l with
    serverGone := true
    outgoing := if l.peer.reading then l.outgoing else fitting l.room l.outgoing }

/-- The server takes everything out of the pipe. -/
def drain (l : Link) : Link := { l with incomingBytes := 0 }

/-- The worker's socket disappears. -/
def dropPeer (l : Link) : Link := { l with peer := { l.peer with gone := true } }

/-- The worker begins to read. -/
def wake (l : Link) : Link := { l with peer := { l.peer with reading := true } }

/-- The worker sends a frame. -/
def send (f : Frame) (l : Link) : Sent × Link :=
  if l.peer.gone then (.gone, l)
  else if l.peer.closing || l.peer.finished || l.serverGone then (.refused, l)
  else
    let fits := decide (l.incomingBytes + f.maskedSize ≤ l.room)
    (if fits then .sent else .blocked,
      { l with
        incoming := l.incoming ++ [f]
        incomingBytes := l.incomingBytes + f.maskedSize
        peer := { l.peer with closing := l.peer.closing || f == .close } })

/-- The worker's reports, with one more. -/
def report (r : Report) (l : Link) : Link :=
  { l with peer := { l.peer with reports := l.peer.reports ++ [r] } }

/-- The worker reports the end and nothing after it. -/
def finish (l : Link) : Link :=
  let l := l.report .ended
  { l with peer := { l.peer with finished := true } }

/-- The worker answers a frame, without looking at the room of the pipe. -/
def answer (f : Frame) (l : Link) : Link :=
  if l.peer.closing then l
  else { l with
    incoming := l.incoming ++ [f]
    incomingBytes := l.incomingBytes + f.maskedSize }

/-- The worker reads one frame, or finds that the connection has ended.  A ping that can
no longer be answered ends the connection too. -/
def peerRead (l : Link) : Option Link :=
  if l.peer.gone || l.peer.finished || !l.peer.reading then none
  else match l.outgoing with
    | [] => if l.serverGone then some l.finish else none
    | f :: rest =>
      let l := { l with outgoing := rest }.report (.frame f)
      match f with
      | .close =>
        let l := if l.serverGone then l else l.answer .close
        some { l with peer := { l.peer with closing := true, finished := true } }
      | .ping payload => some (if l.serverGone then l.finish else l.answer (.pong payload))
      | _ => some l

/-- Hands over the worker's reports. -/
def takeReports (l : Link) : List Report × Link :=
  (l.peer.reports, { l with peer := { l.peer with reports := [] } })

end Link

end Foreman.Server
