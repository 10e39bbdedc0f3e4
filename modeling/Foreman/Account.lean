/-
Accounts: who may run workers and who may ask for work.

An account is known by a 128-bit id and by an email.  Ids are read in four
spellings and written in one, lower case and hyphenated; reading what was written
gives the id back.
-/
import Foreman.Text.Blank
import Foreman.Text.Hex
import Foreman.Text.Split

namespace Foreman

open Text

/-! ### Errors of identifiers -/

/-- Why a text names no account kind, account or worker. -/
inductive IdError where
  | empty
  | unknownUserType (text : String)
  | invalidFormat
deriving DecidableEq

/-- The wording of an error. -/
def IdError.message : IdError → String
  | .empty => "empty value"
  | .unknownUserType text => "unknown user type: " ++ text
  | .invalidFormat => "invalid format"

/-! ### Account kinds -/

/-- A provider runs workers; a requester submits work. -/
inductive UserType where
  | provider
  | requester
deriving DecidableEq

namespace UserType

/-- The name under which a kind is stored and sent. -/
def name : UserType → String
  | provider => "PROVIDER"
  | requester => "REQUESTER"

/-- The kind with exactly this name. -/
def ofName? (s : String) : Option UserType :=
  if s = "PROVIDER" then some provider
  else if s = "REQUESTER" then some requester
  else none

/-- Reads a kind in any case, with blanks around it. -/
def parse (s : String) : Except IdError UserType :=
  if isBlankText s then .error .empty
  else match ofName? (trim s).toUpper with
    | some kind => .ok kind
    | none => .error (.unknownUserType (trim s))

theorem ofName?_name (kind : UserType) : ofName? kind.name = some kind := by
  cases kind <;> simp [ofName?, name]

end UserType

/-! ### Account ids -/

/-- The id of an account. -/
structure UserId where
  bits : BitVec 128
deriving DecidableEq, Hashable

namespace UserId

/-- The lengths of the five groups of digits of a written id. -/
def groupLengths : List Nat := [8, 4, 4, 4, 12]

/-- Cuts a list into groups of the given lengths. -/
def groups : List Nat → List Char → List (List Char)
  | [], _ => []
  | n :: ns, s => s.take n :: groups ns (s.drop n)

/-- The thirty-two digits of an id. -/
def digits (id : UserId) : List Char :=
  Hex.printWidth 32 id.bits.toNat

/-- An id in lower case, its groups joined by hyphens. -/
def print (id : UserId) : List Char :=
  ['-'].intercalate (groups groupLengths id.digits)

/-- The text of an id. -/
def text (id : UserId) : String :=
  String.ofList id.print

instance : ToString UserId := ⟨text⟩

/-- The digits of the hyphenated spelling. -/
def hyphenated? (s : List Char) : Option (List Char) :=
  let parts := splitChars '-' s
  if parts.map List.length = groupLengths then some parts.flatten else none

/-- The digits of a text in one of the four spellings: hyphenated, bare, in braces, or
as a name of the `urn:uuid:` space. -/
def digits? (s : List Char) : Option (List Char) :=
  if s.length = 32 then some s
  else if s.head? = some '{' ∧ s.getLast? = some '}' then hyphenated? (s.drop 1).dropLast
  else match dropLead? "urn:uuid:".toList ((s.take 9).map Char.toLower) with
    | some _ => hyphenated? (s.drop 9)
    | none => hyphenated? s

/-- The id that a text writes, in any of the four spellings and in either case. -/
def read? (s : List Char) : Option UserId :=
  (digits? s).bind fun ds => (Hex.read ds).map fun n => ⟨BitVec.ofNat 128 n⟩

/-- The id that a text writes; blanks around it are refused. -/
def ofText? (s : String) : Option UserId :=
  read? s.toList

/-- Reads an id with blanks around it. -/
def parse (s : String) : Except IdError UserId :=
  if isBlankText s then .error .empty
  else match read? (trimChars s.toList) with
    | some id => .ok id
    | none => .error .invalidFormat

/-- The id that random bits make: its version is four and its variant two. -/
def ofRandom (bits : BitVec 128) : UserId :=
  ⟨(bits &&& ~~~(0xf#128 <<< 76) &&& ~~~(0x3#128 <<< 62)) ||| (0x4#128 <<< 76) ||| (0x2#128 <<< 62)⟩

end UserId

/-! ### Accounts -/

/-- What is known about an account. -/
structure Identity where
  id : UserId
  email : String
  emailVerified : Bool
  canRequestWork : Bool
  kind : UserType
deriving DecidableEq

namespace Identity

/-- The account runs workers. -/
def isProvider (who : Identity) : Bool :=
  who.kind == .provider

/-- The account submits work. -/
def isRequester (who : Identity) : Bool :=
  who.kind == .requester

end Identity

/-- Emails that differ in case and in the blanks around them name one account. -/
def normalizeEmail (email : String) : String :=
  (trim email).toLower

end Foreman
