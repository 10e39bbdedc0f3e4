/-
Signed tokens.

A token is `v1`, a payload and a signature, joined by dots.  The payload is the
claims in JSON, the signature authenticates the payload's text under a secret,
and both are written in URL-safe base 64.  A token is accepted while the second
in which it expires has not begun.
-/
import Foreman.Digest.Sha256
import Foreman.Json.Printer
import Foreman.Json.Record
import Foreman.Text.Base64
import Foreman.Text.Blank
import Foreman.Text.Split
import Foreman.Text.Utf8

namespace Foreman.Auth

open Text

/-- What a token claims: the email of an account, and when the claim expires. -/
structure Claims where
  subject : String
  expiresAt : UInt64
deriving DecidableEq

namespace Claims

/-- The names of the members of claims, in the order in which they are written. -/
def names : List String := ["sub", "exp"]

/-- Claims as a record. -/
def toJson (c : Claims) : Json :=
  .record [("sub", .ofText c.subject), ("exp", .ofNat c.expiresAt.toNat)]

/-- Reads claims from a record. -/
def ofJson? (j : Json) : Option Claims :=
  match j.values? names with
  | some [sub, exp] => do
    return { subject := ← sub.text?, expiresAt := UInt64.ofNat (← exp.nat? (Nat.pow 2 64)) }
  | _ => none

end Claims

/-- Why a token was refused. -/
inductive TokenError where
  | format
  | payload
  | signatureText
  | signature
  | claims
  | expired
  | emptySubject
deriving DecidableEq

/-- The wording of an error. -/
def TokenError.message : TokenError → String
  | format => "invalid token format"
  | payload => "decode token payload"
  | signatureText => "decode token signature"
  | signature => "invalid token signature"
  | claims => "parse token claims"
  | expired => "token expired"
  | emptySubject => "token subject is empty"

namespace Token

/-- What every token begins with. -/
def version : List Char := ['v', '1']

/-- The signature of a payload's text. -/
def sign (secret : String) (payload : List Char) : List UInt8 :=
  Digest.hmacSha256 (utf8 secret) (utf8 (String.ofList payload))

/-- The token of a payload's text. -/
def signed (secret : String) (payload : List Char) : List Char :=
  version ++ '.' :: payload ++ '.' :: Base64.encode Base64.urlSafe (sign secret payload)

/-- The token of claims. -/
def ofClaims (secret : String) (c : Claims) : String :=
  String.ofList (signed secret (Base64.encode Base64.urlSafe (utf8 c.toJson.print)))

/-- A token for `subject` that lives `lifetime` seconds from `now` on. -/
def issue (secret subject : String) (now lifetime : Nat) : String :=
  ofClaims secret ⟨subject, UInt64.ofNat (min (now + lifetime) (Nat.pow 2 64 - 1))⟩

/-- Claims are good while their expiry is ahead, if they name a subject. -/
def check (now : Nat) (c : Claims) : Except TokenError Claims :=
  if c.expiresAt.toNat ≤ now then .error .expired
  else if isBlankText c.subject then .error .emptySubject
  else .ok c

/-- Whether two signatures are the same.  Every byte is looked at, wherever the first
difference is. -/
def agree (a b : List UInt8) : Bool :=
  a.length == b.length && (List.zipWith (· ^^^ ·) a b).foldl (· ||| ·) 0 == 0

/-- The claims of a token under a secret, at the second `now`. -/
def verify (secret : String) (now : Nat) (token : String) : Except TokenError Claims :=
  match splitChars '.' token.toList with
  | [v, payload, signature] =>
    if v ≠ version then .error .format
    else match Base64.decode payload, Base64.decode signature with
      | none, _ => .error .payload
      | _, none => .error .signatureText
      | some bytes, some given =>
        if !agree (sign secret payload) given then .error .signature
        else match (Json.ofUnits? (unitsOfBytes bytes)).bind Claims.ofJson? with
          | none => .error .claims
          | some c => check now c
  | _ => .error .format

/-- Twelve digits that tell tokens apart in a log and give nothing away. -/
def fingerprint (token : String) : String :=
  Hex.ofBytes ((Digest.sha256 (utf8 token)).take 6)

end Token

end Foreman.Auth
