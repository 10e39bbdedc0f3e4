/-
Single settings, as operators write them.
-/
import Foreman.Auth.Credential

namespace Foreman.Config

open Text

/-- A switch: one of four words for on, or of four for off, in any case. -/
def parseSwitch (s : String) : Option Bool :=
  let word := (trim s).toLower
  if word ∈ ["1", "true", "yes", "on"] then some true
  else if word ∈ ["0", "false", "no", "off"] then some false
  else none

/-- A service token without blanks around it and with its mark, if it is not blank. -/
def normalizeServiceToken (s : String) : Option String :=
  (trimmed? s).map fun token =>
    if hasLead Auth.serviceMark token then token else Auth.serviceMark ++ token

/-- An optional text without blanks around it, if it is there and not blank. -/
def nonEmpty (s : Option String) : Option String :=
  s.bind trimmed?

end Foreman.Config
