/-
The tokens of a TOML document.

Blanks are tokens, since a table header's brackets have to touch; comments are
not.  Strings come out with their escapes undone and are marked where they may
span lines, because only the others may be keys.
-/
import Foreman.Text.Hex
import Foreman.Text.Utf8

namespace Foreman.Toml

open Text

/-- A token of a TOML document. -/
inductive Token where
  | blank (c : Char)
  | newline
  | comma
  | equals
  | dot
  | openBracket
  | closeBracket
  | openBrace
  | closeBrace
  | text (spansLines : Bool) (s : String)
  /-- Characters without quotes around them. -/
  | bare (s : List Char)
deriving DecidableEq

/-- The four ways to quote a text. -/
inductive Quote where
  | basic
  | literal
  | basicLines
  | literalLines
deriving DecidableEq

namespace Quote

/-- The text may span lines. -/
def spansLines : Quote → Bool
  | basicLines => true
  | literalLines => true
  | _ => false

/-- A backslash begins an escape. -/
def hasEscapes : Quote → Bool
  | basic => true
  | basicLines => true
  | _ => false

/-- The character of which the quotes are made. -/
def mark : Quote → Char
  | basic => '"'
  | basicLines => '"'
  | literal => '\''
  | literalLines => '\''

end Quote

/-- Where in a token the reading stands; what is inside it is kept in reverse. -/
inductive Place where
  | between
  | comment
  | bare (s : List Char)
  | text (q : Quote) (s : List Char)
  | escape (q : Quote) (s : List Char)
  /-- Inside a numeric escape, with the number of digits that have to follow. -/
  | code (q : Quote) (s : List Char) (missing value : Nat)
  /-- After a backslash and blanks, up to the end of the line. -/
  | folding (s : List Char)
  /-- After a backslash at the end of a line, up to the next character that is no blank. -/
  | folded (s : List Char)

/-- A control character that may not stand in a text or a comment. -/
def isControl (c : Char) : Bool :=
  (c.toNat < 0x20 && c != '\t') || c.toNat == 0x7f

/-- The characters that end a run of bare ones. -/
def isDelimiter (c : Char) : Bool :=
  c ∈ [' ', '\t', '\n', '\r', '#', '"', '\'', ',', '=', '.', '[', ']', '{', '}']

/-- The token that one character is. -/
def punctuation? (c : Char) : Option Token :=
  if c = ' ' ∨ c = '\t' then some (.blank c)
  else if c = '\n' then some .newline
  else if c = ',' then some .comma
  else if c = '=' then some .equals
  else if c = '.' then some .dot
  else if c = '[' then some .openBracket
  else if c = ']' then some .closeBracket
  else if c = '{' then some .openBrace
  else if c = '}' then some .closeBrace
  else none

/-- The character that a letter after a backslash stands for. -/
def unescape? (c : Char) : Option Char :=
  if c = 'b' then some '\x08'
  else if c = 't' then some '\t'
  else if c = 'n' then some '\n'
  else if c = 'f' then some '\x0c'
  else if c = 'r' then some '\r'
  else if c = 'e' then some '\x1b'
  else if c = '"' then some '"'
  else if c = '\\' then some '\\'
  else none

/-- The number of digits after the letter of a numeric escape. -/
def codeDigits? (c : Char) : Option Nat :=
  if c = 'x' then some 2
  else if c = 'u' then some 4
  else if c = 'U' then some 8
  else none

/-- The token of a text, whose characters are in reverse. -/
def textToken (q : Quote) (reversed : List Char) : Token :=
  .text q.spansLines (String.ofList reversed.reverse)

/-- How many of the characters at the front are quotes, up to five. -/
def quotesAhead (mark : Char) (s : List Char) : Nat :=
  ((s.take 5).takeWhile (· == mark)).length

/-- The tokens of the characters that follow, read from a place. -/
def tokensFrom (place : Place) (input : List Char) : Option (List Token) :=
  match place, input with
  | .between, [] => some []
  | .comment, [] => some []
  | .bare s, [] => some [.bare s.reverse]
  | .between, '\r' :: '\n' :: r => (tokensFrom .between r).map (.newline :: ·)
  | .between, '"' :: '"' :: '"' :: '\r' :: '\n' :: r => tokensFrom (.text .basicLines []) r
  | .between, '"' :: '"' :: '"' :: '\n' :: r => tokensFrom (.text .basicLines []) r
  | .between, '"' :: '"' :: '"' :: r => tokensFrom (.text .basicLines []) r
  | .between, '\'' :: '\'' :: '\'' :: '\r' :: '\n' :: r => tokensFrom (.text .literalLines []) r
  | .between, '\'' :: '\'' :: '\'' :: '\n' :: r => tokensFrom (.text .literalLines []) r
  | .between, '\'' :: '\'' :: '\'' :: r => tokensFrom (.text .literalLines []) r
  | .between, '"' :: r => tokensFrom (.text .basic []) r
  | .between, '\'' :: r => tokensFrom (.text .literal []) r
  | .between, '#' :: r => tokensFrom .comment r
  | .between, c :: r =>
    match punctuation? c with
    | some t => (tokensFrom .between r).map (t :: ·)
    | none => if isControl c then none else tokensFrom (.bare [c]) r
  | .comment, '\n' :: r => (tokensFrom .between r).map (.newline :: ·)
  | .comment, '\r' :: '\n' :: r => (tokensFrom .between r).map (.newline :: ·)
  | .comment, c :: r => if isControl c then none else tokensFrom .comment r
  | .bare s, c :: r =>
    if isDelimiter c then (tokensFrom .between (c :: r)).map (.bare s.reverse :: ·)
    else if isControl c then none
    else tokensFrom (.bare (c :: s)) r
  | .text q s, '\r' :: '\n' :: r => if q.spansLines then tokensFrom (.text q ('\n' :: s)) r else none
  | .text q s, '\n' :: r => if q.spansLines then tokensFrom (.text q ('\n' :: s)) r else none
  | .text q s, c :: r =>
    if c = q.mark then
      if q.spansLines then
        let n := quotesAhead q.mark (c :: r)
        if n < 3 then tokensFrom (.text q (c :: s)) r
        else
          let inside := List.replicate (n - 3) c
          (tokensFrom .between (r.drop (n - 1))).map (textToken q (inside ++ s) :: ·)
      else (tokensFrom .between r).map (textToken q s :: ·)
    else if c = '\\' ∧ q.hasEscapes then tokensFrom (.escape q s) r
    else if isControl c then none
    else tokensFrom (.text q (c :: s)) r
  | .escape q s, c :: r =>
    match unescape? c, codeDigits? c with
    | some d, _ => tokensFrom (.text q (d :: s)) r
    | none, some n => tokensFrom (.code q s n 0) r
    | none, none => if q.spansLines then tokensFrom (.folding s) (c :: r) else none
  | .code q s missing value, c :: r =>
    match Hex.digit? c with
    | none => none
    | some d =>
      let value := 16 * value + d
      if missing ≤ 1 then (scalar? value).bind fun c => tokensFrom (.text q (c :: s)) r
      else tokensFrom (.code q s (missing - 1) value) r
  | .folding s, '\n' :: r => tokensFrom (.folded s) r
  | .folding s, '\r' :: '\n' :: r => tokensFrom (.folded s) r
  | .folding s, c :: r => if c = ' ' ∨ c = '\t' then tokensFrom (.folding s) r else none
  | .folded s, '\r' :: '\n' :: r => tokensFrom (.folded s) r
  | .folded s, c :: r =>
    if c = ' ' ∨ c = '\t' ∨ c = '\n' then tokensFrom (.folded s) r
    else tokensFrom (.text .basicLines s) (c :: r)
  | _, _ => none
termination_by
  (input.length, match place with
    | .bare _ => 1 | .escape _ _ => 1 | .folded _ => 1 | _ => 0)
decreasing_by all_goals simp [Prod.lex_def]; try omega

/-- The tokens of a document; a byte order mark may stand before it. -/
def tokens? (document : String) : Option (List Token) :=
  match document.toList with
  | '\ufeff' :: r => tokensFrom .between r
  | s => tokensFrom .between s

end Foreman.Toml
