/-
Text frames: one message each, at most so many bytes long.

The length of a frame is the number of bytes of its text in UTF-8.  A frame that
is too long is refused before it is read, and a message whose text is too long is
not sent.
-/
import Foreman.Message

namespace Foreman

/-- Why a frame was refused. -/
inductive FrameError where
  | tooLarge (length limit : Nat)
  | undecodable
deriving DecidableEq

/-- The wording of an error. -/
def FrameError.message : FrameError → String
  | .tooLarge length limit =>
    "frame exceeds maximum size: len=" ++ Nat.repr length ++ " max=" ++ Nat.repr limit
  | .undecodable => "json decode error"

namespace TextFrame

/-- The limit where none is configured. -/
def defaultLimit : Nat := 64 * 1024

/-- The text of a tree, if it is within the limit. -/
def encode (limit : Nat) (j : Json) : Except FrameError String :=
  let text := j.print
  if text.utf8ByteSize > limit then .error (.tooLarge text.utf8ByteSize limit) else .ok text

/-- What a reader of trees finds in a text within the limit. -/
def decode {α : Type} (limit : Nat) (read? : Json → Option α) (text : String) :
    Except FrameError α :=
  if text.utf8ByteSize > limit then .error (.tooLarge text.utf8ByteSize limit)
  else match (Json.ofString? text).bind read? with
    | some a => .ok a
    | none => .error .undecodable

end TextFrame

/-- The frame of a message of the server. -/
def ServerMessage.frame (limit : Nat) (m : ServerMessage) : Except FrameError String :=
  TextFrame.encode limit m.toJson

/-- The message of a worker's frame. -/
def WorkerMessage.ofFrame (limit : Nat) (text : String) : Except FrameError WorkerMessage :=
  TextFrame.decode limit ofJson? text

end Foreman
