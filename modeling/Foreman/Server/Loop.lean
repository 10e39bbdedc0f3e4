/-
The two loops of a connection, one step at a time.

The read loop turns frames into work events and puts them on the work queue; what
it cannot decode it counts and forgets.  The write loop sends the accepted
messages and a ping at every interval.  Either loop, when it stops, releases the
connection, which stops the other; a close is sent on the way out.  A step that
has nothing to do yet is `none`.
-/
import Foreman.Server.Hub

namespace Foreman.Server

/-- The grace for the last close to go out. -/
def closeGraceMs : Nat := 1000

/-- How late a ping may be before the ones after it are put off as well. -/
def pingSlackMs : Nat := 5

/-! ### The read loop -/

/-- Moves the read loop of a connection on. -/
def setReader (generation : Nat) (r : Reader) (s : Server) : Server :=
  s.modifyConnection generation fun c => { c with reader := r }

/-- A frame was dealt with: the read loop waits for the next one from now on. -/
def readOn (generation : Nat) (s : Server) : Server :=
  s.setReader generation (.waiting s.clock.monoMs)

/-- A worker's text: an event if it decodes, and a rejection otherwise. -/
def readText (c : Connection) (text : String) (s : Server) : Server :=
  let s := s.bump .framesIn
  match WorkerMessage.ofFrame s.hub.maxFrameBytes text with
  | .ok (.workResult r) => s.setReader c.generation (.offering (.ofResult c.key r))
  | .error _ => (s.bump .framesRejected).readOn c.generation

/-- A worker's frame. -/
def readFrame (c : Connection) (f : Frame) (s : Server) : Server :=
  match f with
  | .text text => s.readText c text
  | .binary _ => (s.bump .framesRejected).readOn c.generation
  | .ping payload =>
    ((s.modifyLink c.link (Link.write (.pong payload))).wake (.peer c.link)).readOn c.generation
  | .pong _ => s.readOn c.generation
  | .close => s.setReader c.generation .leaving

/-- A step of a read loop that waits for a frame: it is told to stop, or a frame has come,
or the socket is gone, or nothing has come for too long. -/
def readWaiting (c : Connection) (l : Link) (sinceMs : Nat) (s : Server) : Option Server :=
  if c.shutdown then some (s.setReader c.generation .leaving)
  else match l.incoming with
    | f :: rest =>
      some ((s.modifyLink c.link fun l => { l with incoming := rest }.drain).readFrame c f)
    | [] =>
      if l.peer.gone then some ((s.bump .transportErrors).setReader c.generation .leaving)
      else if sinceMs + s.hub.keepaliveTimeoutMs ≤ s.clock.monoMs then
        some ((s.bump .keepaliveTimeouts).setReader c.generation .leaving)
      else none

/-- Puts an event into a slot that the read loop holds. -/
def pushEvent (c : Connection) (e : WorkEvent) (s : Server) : Server :=
  ({ s with queue := s.queue.push e }.wake .aggregator).readOn c.generation

/-- Gives a slot back; whoever waits for one gets it. -/
def grantSlot (next : Option Nat) (s : Server) : Server :=
  match next with
  | none => s
  | some g =>
    (s.modifyConnection g fun c =>
      match c.reader with
      | .queued e => { c with reader := .granted e }
      | _ => c).wake (.reader g)

/-- Gives back the slot that the read loop holds. -/
def returnSlot (s : Server) : Server :=
  let (next, q) := s.queue.release
  { s with queue := q }.grantSlot next

/-- A step of a read loop that has an event for the work queue. -/
def readOffering (c : Connection) (e : WorkEvent) (s : Server) : Server :=
  if c.shutdown ∨ s.queue.abandoned then s.setReader c.generation .leaving
  else match s.queue.acquire? with
    | some q => { s with queue := q }.pushEvent c e
    | none => { s with queue := s.queue.enqueue c.generation }.setReader c.generation (.queued e)

/-- A step of a read loop that waits for a slot. -/
def readQueued (c : Connection) (s : Server) : Option Server :=
  if c.shutdown ∨ s.queue.abandoned then
    some ({ s with queue := s.queue.forget c.generation }.setReader c.generation .leaving)
  else none

/-- A step of a read loop for which a slot is held. -/
def readGranted (c : Connection) (e : WorkEvent) (s : Server) : Server :=
  if c.shutdown ∨ s.queue.abandoned then s.returnSlot.setReader c.generation .leaving
  else s.pushEvent c e

/-- Lets go of the link once both loops have stopped. -/
def afterStop (c : Connection) (s : Server) : Server :=
  match s.connection? c.generation with
  | some c => if c.isStopped then s.dropLink c.link else s
  | none => s

/-- The read loop releases the connection and stops; with it goes its sending end of the work
queue. -/
def readLeaving (c : Connection) (s : Server) : Server :=
  let s := (s.release c.key c.generation).2.setReader c.generation .stopped
  ((s.dropWorkSender (.reader c.generation)).afterStop c).wake .aggregator

/-- A step of the read loop of a connection. -/
def readStep (generation : Nat) (s : Server) : Option Server := do
  let c ← s.connection? generation
  match c.reader with
  | .waiting since => s.readWaiting c (← s.link? c.link) since
  | .offering e => some (s.readOffering c e)
  | .queued _ => s.readQueued c
  | .granted e => some (s.readGranted c e)
  | .leaving => some (s.readLeaving c)
  | .stopped => none

/-! ### The write loop -/

/-- Moves the write loop of a connection on. -/
def setWriter (generation : Nat) (w : Writer) (s : Server) : Server :=
  s.modifyConnection generation fun c => { c with writer := w }

/-- Writes a frame to a connection's link. -/
def writeFrame (c : Connection) (f : Frame) (s : Server) : Server :=
  (s.modifyLink c.link (Link.write f)).wake (.peer c.link)

/-- The write loop sends a close, if there is anyone to send it to, and is about to stop. -/
def beginClose (c : Connection) (l : Link) (s : Server) : Server :=
  if l.peer.gone then s.setWriter c.generation .leaving
  else (s.writeFrame c .close).setWriter c.generation (.closing (s.clock.monoMs + closeGraceMs))

/-- A write failed because the socket is gone; a message that is lost is counted. -/
def writeFailed (c : Connection) (isText : Bool) (s : Server) : Server :=
  (if isText then s.bump .transportErrors else s).setWriter c.generation .leaving

/-- Writes a text or a ping. -/
def send (c : Connection) (l : Link) (f : Frame) (isText : Bool) (s : Server) : Server :=
  if l.peer.gone then s.writeFailed c isText
  else (s.writeFrame c f).setWriter c.generation (.sending isText)

/-- When the ping after one that was due at `dueMs` is due. -/
def pingAfter (dueMs : Nat) (s : Server) : Nat :=
  (if dueMs + pingSlackMs < s.clock.monoMs then s.clock.monoMs else dueMs) +
    s.hub.keepaliveIntervalMs

/-- Sends the ping that is due. -/
def sendPing (c : Connection) (l : Link) (s : Server) : Server :=
  (s.modifyConnection c.generation fun d => { d with nextPingMs := s.pingAfter d.nextPingMs }).send
    c l (.ping []) false

/-- Sends a message; one whose text is too long is reported and left out. -/
def sendMessage (c : Connection) (l : Link) (m : ServerMessage) (s : Server) : Server :=
  match m.frame s.hub.maxFrameBytes with
  | .ok text => s.send c l (.text text) true
  | .error _ => s.note (.encodingFailed c.key)

/-- A step of a write loop that has nothing in hand: it is told to stop, or a ping is due,
or a message waits. -/
def writeIdle (c : Connection) (l : Link) (s : Server) : Option Server :=
  if c.shutdown then some (s.beginClose c l)
  else if c.nextPingMs ≤ s.clock.monoMs then some (s.sendPing c l)
  else match c.outbox with
    | m :: rest =>
      some ((s.modifyConnection c.generation fun c => { c with outbox := rest }).sendMessage c l m)
    | [] => none

/-- A step of a write loop that is writing. -/
def writeSending (c : Connection) (l : Link) (isText : Bool) (s : Server) : Option Server :=
  if l.peer.gone then some (s.writeFailed c isText)
  else if l.isBlocked then none
  else some ((if isText then s.bump .framesOut else s).setWriter c.generation .idle)

/-- A step of a write loop whose close is going out. -/
def writeClosing (c : Connection) (l : Link) (untilMs : Nat) (s : Server) : Option Server :=
  if l.isBlocked && !l.peer.gone && decide (s.clock.monoMs < untilMs) then none
  else some (s.setWriter c.generation .leaving)

/-- The write loop releases the connection and stops. -/
def writeLeaving (c : Connection) (s : Server) : Server :=
  ((s.release c.key c.generation).2.setWriter c.generation .stopped).afterStop c

/-- A step of the write loop of a connection. -/
def writeStep (generation : Nat) (s : Server) : Option Server := do
  let c ← s.connection? generation
  let l ← s.link? c.link
  match c.writer with
  | .idle => s.writeIdle c l
  | .sending isText => s.writeSending c l isText
  | .closing untilMs => s.writeClosing c l untilMs
  | .leaving => some (s.writeLeaving c)
  | .stopped => none

end Foreman.Server
