/-
The handshake, and what a proxy may make of it.

A proxy hands the headers of a request on in another form: it breaks the lists of `Connection`
and `Upgrade` into lines or joins them, writes their words in its own case, puts lines elsewhere
and adds lines of its own.  `Rewrite` lists these changes, each on the few lines that it is about,
and `Refolded` is any number of them anywhere in the headers.

Only four things of the headers count for the answer: which words the two lists have, and what the
first line says for the version and for the key.  The lists are read from all lines of a name and
the other two from one, so a line may be moved or repeated in one case and not in the other.  That
no change touches the four is shown on the lines that it is about, and from there it holds in the
headers as a whole because all four are composed of what the parts of the headers have.
-/
import Mathlib.Data.List.Forall2
import Mathlib.Logic.Relation
import Foreman.Http.Header
import Foreman.Proofs.Account
import Foreman.Proofs.Text.Utf8

namespace Foreman.Http

open Text

namespace Headers

/-! ### Names -/

/-- The lines of this name, which is in lower case, are the parts of one list. -/
def IsListName (name : String) : Prop := name = "connection" ∨ name = "upgrade"

/-- Of the lines of this name, which is in lower case, the first counts. -/
def IsFirstName (name : String) : Prop :=
  name = "sec-websocket-key" ∨ name = "sec-websocket-version"

theorem IsListName.ne {name first : String} (h : IsListName name) (hfirst : IsFirstName first) :
    name ≠ first := by
  rintro rfl
  rcases h with rfl | rfl <;> exact absurd hfirst (by simp [IsFirstName])

/-! ### Changes -/

/-- Two elements of a list are the same word but for blanks around them and the case of
letters. -/
def SameWord (a b : String) : Prop := (trim a).toLower = (trim b).toLower

/-- A change to a few lines that stand behind one another. -/
inductive Rewrite : Headers → Headers → Prop where
  /-- A line of another name is added. -/
  | add {line : String × String} (hlist : ¬ IsListName line.1.toLower)
      (hfirst : ¬ IsFirstName line.1.toLower) : Rewrite [] [line]
  /-- A line of a list changes places with the next line, whatever that is. -/
  | swap {a b : String × String} (hlist : IsListName a.1.toLower) : Rewrite [a, b] [b, a]
  /-- A name is written in another case. -/
  | rename {name name' value : String} (hname : name.toLower = name'.toLower) :
      Rewrite [(name, value)] [(name', value)]
  /-- A list is split at a comma. -/
  | split {name v w : String} (hlist : IsListName name.toLower) (hv : isReadable v = true)
      (hw : isReadable w = true) : Rewrite [(name, v ++ "," ++ w)] [(name, v), (name, w)]
  /-- The words of a list are written with other blanks around them or in another case. -/
  | respell {name v w : String} (hlist : IsListName name.toLower) (hv : isReadable v = true)
      (hw : isReadable w = true)
      (hwords : List.Forall₂ SameWord (Text.split ',' v) (Text.split ',' w)) :
      Rewrite [(name, v)] [(name, w)]
  /-- A further line follows one of a name of which the first counts. -/
  | follow {line again : String × String} (between : Headers) (hfirst : IsFirstName line.1.toLower)
      (hname : again.1.toLower = line.1.toLower) :
      Rewrite (line :: between) (line :: between ++ [again])

/-- One change, somewhere in the headers. -/
inductive Change : Headers → Headers → Prop where
  | within (front back : Headers) {x y : Headers} (h : Rewrite x y) :
      Change (front ++ x ++ back) (front ++ y ++ back)

/-- Headers that come from one another by changes, made or taken back, as many as may be. -/
def Refolded : Headers → Headers → Prop := Relation.EqvGen Change

/-! ### What counts -/

/-- A line is of this name, and its list has this word. -/
def hasWord (name word : String) (line : String × String) : Bool :=
  line.1.toLower == name && isReadable line.2 &&
    (Text.split ',' line.2).any fun e => (trim e).toLower == word

/-- The value of a line of this name. -/
def valueOf? (name : String) (line : String × String) : Option String :=
  if line.1.toLower == name then some line.2 else none

theorem hasElement_eq_any (h : Headers) (name word : String) :
    h.hasElement name word = h.any (hasWord name word) := by
  induction h with
  | nil => rfl
  | cons line h ih =>
    rw [List.any_cons, ← ih, hasWord, hasElement, hasElement, elements, elements, all, all,
      List.filter_cons]
    cases hname : line.1.toLower == name with
    | false => simp
    | true => cases hread : isReadable line.2 <;> simp [hread, Function.comp_def]

theorem first?_eq_findSome? (h : Headers) (name : String) :
    h.first? name = h.findSome? (valueOf? name) := by
  induction h with
  | nil => rfl
  | cons line h ih =>
    rw [List.findSome?_cons, ← ih, first?, first?, all, all, List.filter_cons, valueOf?]
    cases line.1.toLower == name <;> rfl

theorem hasWord_eq_false {name word : String} {line : String × String}
    (h : line.1.toLower ≠ name) : hasWord name word line = false := by
  rw [hasWord, beq_false_of_ne h, Bool.false_and, Bool.false_and]

theorem valueOf?_eq_none {name : String} {line : String × String} (h : line.1.toLower ≠ name) :
    valueOf? name line = none := by
  rw [valueOf?, beq_false_of_ne h]
  rfl

/-- A line of a list says nothing where the first line counts. -/
theorem valueOf?_of_isListName {name : String} (hname : IsFirstName name) {line : String × String}
    (hlist : IsListName line.1.toLower) : valueOf? name line = none :=
  valueOf?_eq_none (hlist.ne hname)

/-- Two parts of the headers have the same words in the lists, and the first lines say the
same. -/
structure Alike (x y : Headers) : Prop where
  words : ∀ name, IsListName name → ∀ word, x.hasElement name word = y.hasElement name word
  first : ∀ name, IsFirstName name → x.first? name = y.first? name

theorem Alike.refl (h : Headers) : Alike h h := ⟨fun _ _ _ => rfl, fun _ _ => rfl⟩

theorem Alike.symm {x y : Headers} (h : Alike x y) : Alike y x :=
  ⟨fun name hname word => (h.words name hname word).symm,
    fun name hname => (h.first name hname).symm⟩

theorem Alike.trans {x y z : Headers} (h : Alike x y) (h' : Alike y z) : Alike x z :=
  ⟨fun name hname word => (h.words name hname word).trans (h'.words name hname word),
    fun name hname => (h.first name hname).trans (h'.first name hname)⟩

/-- Parts that are alike may stand for one another, whatever is around them. -/
theorem Alike.within {x y : Headers} (h : Alike x y) (front back : Headers) :
    Alike (front ++ x ++ back) (front ++ y ++ back) := by
  constructor
  · intro name hname word
    have hwords := h.words name hname word
    rw [hasElement_eq_any, hasElement_eq_any] at hwords ⊢
    simp only [List.any_append, hwords]
  · intro name hname
    have hfirst := h.first name hname
    rw [first?_eq_findSome?, first?_eq_findSome?] at hfirst ⊢
    simp only [List.findSome?_append, hfirst]

theorem isReadable_append (v w : String) :
    isReadable (v ++ w) = (isReadable v && isReadable w) := by
  simp only [isReadable, String.toList_append, List.all_append]

/-- A list that is joined at a comma has the elements of both. -/
theorem split_join (v w : String) :
    Text.split ',' (v ++ "," ++ w) = Text.split ',' v ++ Text.split ',' w := by
  have hjoin : (v ++ "," ++ w).toList = v.toList ++ ',' :: w.toList := by
    simp [String.toList_append]
  simp only [Text.split, splitChars_eq_splitOn, hjoin, List.splitOn_append_cons_self,
    List.map_append]

theorem any_sameWord {xs ys : List String} (h : List.Forall₂ SameWord xs ys) (word : String) :
    (xs.any fun e => (trim e).toLower == word) = ys.any fun e => (trim e).toLower == word := by
  induction h with
  | nil => rfl
  | cons hword _ ih => rw [List.any_cons, List.any_cons, ih, hword]

/-- No change touches the words of the lists. -/
theorem Rewrite.words {x y : Headers} (h : Rewrite x y) {name : String} (hname : IsListName name)
    (word : String) : x.hasElement name word = y.hasElement name word := by
  rw [hasElement_eq_any, hasElement_eq_any]
  cases h with
  | @add line hother _ =>
    have hne : line.1.toLower ≠ name := by
      rintro rfl
      exact hother hname
    rw [List.any_cons, hasWord_eq_false hne]
    rfl
  | @swap a b _ =>
    rw [List.any_cons, List.any_cons, List.any_cons, List.any_cons, Bool.or_left_comm]
  | rename hrename => simp only [List.any_cons, List.any_nil, hasWord, hrename]
  | split _ hv hw =>
    have hcomma : isReadable "," = true := by decide
    simp only [List.any_cons, List.any_nil, hasWord, isReadable_append, split_join,
      List.any_append, hv, hw, hcomma, Bool.and_true, Bool.or_false, Bool.and_or_distrib_left]
  | respell _ hv hw hwords =>
    simp only [List.any_cons, List.any_nil, hasWord, hv, hw, any_sameWord hwords]
  | @follow line again between hfirst hagain =>
    have hne : again.1.toLower ≠ name := by
      rw [hagain]
      exact (hname.ne hfirst).symm
    rw [List.any_append, List.any_cons, List.any_cons, List.any_nil, hasWord_eq_false hne,
      Bool.or_false, Bool.or_false]

/-- No change touches the first line of a name of which the first counts. -/
theorem Rewrite.first {x y : Headers} (h : Rewrite x y) {name : String}
    (hname : IsFirstName name) : x.first? name = y.first? name := by
  rw [first?_eq_findSome?, first?_eq_findSome?]
  cases h with
  | @add line _ hother =>
    have hne : line.1.toLower ≠ name := by
      rintro rfl
      exact hother hname
    rw [List.findSome?_cons, valueOf?_eq_none hne]
  | swap hlist =>
    simp only [List.findSome?_cons, List.findSome?_nil, valueOf?_of_isListName hname hlist]
  | rename hrename => simp only [List.findSome?_cons, valueOf?, hrename]
  | split hlist _ _ => simp only [List.findSome?_cons, valueOf?_of_isListName hname, hlist]
  | respell hlist _ _ _ => simp only [List.findSome?_cons, valueOf?_of_isListName hname, hlist]
  | @follow line again between _ hagain =>
    rw [List.findSome?_append, List.findSome?_cons]
    by_cases hline : line.1.toLower = name
    · -- the first line of the name is this one at the latest, so the further one is not looked at
      have hvalue : valueOf? name line = some line.2 := by
        rw [valueOf?, hline, if_pos (beq_self_eq_true name)]
      rw [hvalue, Option.some_or]
    · have hne : again.1.toLower ≠ name := by
        rw [hagain]
        exact hline
      rw [List.findSome?_cons, valueOf?_eq_none hne, List.findSome?_nil, Option.or_none]

theorem Refolded.alike {h h' : Headers} (hr : Refolded h h') : Alike h h' := by
  induction hr with
  | rel _ _ hchange =>
    obtain ⟨front, back, hrewrite⟩ := hchange
    have hlines : Alike _ _ := ⟨fun _ hname => hrewrite.words hname, fun _ => hrewrite.first⟩
    exact hlines.within front back
  | refl h => exact .refl h
  | symm _ _ _ ih => exact ih.symm
  | trans _ _ _ _ _ ih ih' => exact ih.trans ih'

/-! ### The answer -/

/-- One of the lines of a name lists this word, in any case and with any blanks around it. -/
def Lists (h : Headers) (name word : String) : Prop :=
  ∃ line ∈ h, line.1.toLower = name ∧ ∃ e ∈ Text.split ',' line.2, (trim e).toLower = word

/-- The first of the lines of a name has this value. -/
def FirstOf (h : Headers) (name value : String) : Prop :=
  ∃ front written back, h = front ++ (written, value) :: back ∧ written.toLower = name ∧
    ∀ line ∈ front, line.1.toLower ≠ name

theorem hasElement_iff_lists {h : Headers} (hread : ∀ line ∈ h, isReadable line.2 = true)
    {name word : String} : h.hasElement name word = true ↔ h.Lists name word := by
  rw [hasElement_eq_any, List.any_eq_true]
  refine exists_congr fun line => and_congr_right fun hline => ?_
  simp only [hasWord, hread line hline, Bool.and_true, Bool.and_eq_true, beq_iff_eq,
    List.any_eq_true]

theorem first?_eq_some_iff {h : Headers} {name value : String} :
    h.first? name = some value ↔ h.FirstOf name value := by
  have hvalue (line : String × String) (v : String) :
      valueOf? name line = some v ↔ line.1.toLower = name ∧ line.2 = v := by
    simp [valueOf?]
  have hnone (line : String × String) : valueOf? name line = none ↔ line.1.toLower ≠ name := by
    simp [valueOf?]
  rw [first?_eq_findSome?, List.findSome?_eq_some_iff]
  simp only [hvalue, hnone]
  constructor
  · rintro ⟨front, ⟨written, _⟩, back, rfl, ⟨hname, rfl⟩, hfront⟩
    exact ⟨front, written, back, rfl, hname, hfront⟩
  · rintro ⟨front, written, back, rfl, hname, hfront⟩
    exact ⟨front, (written, value), back, rfl, ⟨hname, rfl⟩, hfront⟩

end Headers

/-- The answer is made of four things. -/
theorem websocketAccept_eq_some {h : Headers} {answer : String} :
    websocketAccept h = some answer ↔
      h.hasElement "connection" "upgrade" = true ∧ h.hasElement "upgrade" "websocket" = true ∧
        h.first? "sec-websocket-version" = some "13" ∧
        ∃ key, h.first? "sec-websocket-key" = some key ∧ answer = acceptKey key := by
  rw [websocketAccept, Option.ite_none_right_eq_some, Option.map_eq_some_iff]
  simp only [Bool.and_eq_true, beq_iff_eq, and_assoc, @eq_comm _ answer]

theorem Headers.Alike.websocketAccept_eq {h h' : Headers} (hr : h.Alike h') :
    websocketAccept h = websocketAccept h' := by
  rw [websocketAccept, websocketAccept, hr.words "connection" (.inl rfl),
    hr.words "upgrade" (.inr rfl), hr.first "sec-websocket-version" (.inr rfl),
    hr.first "sec-websocket-key" (.inl rfl)]

/-- **The answer to a handshake.**  It is the same for headers that come from one another by what
proxies do.  There is one exactly if the lists have the words, the first version is thirteen and
there is a key; and it is made of the bytes of the first key. -/
theorem handshake_answer_decided :
    (∀ h h' : Headers, h.Refolded h' → websocketAccept h = websocketAccept h') ∧
    (∀ h : Headers, (∀ line ∈ h, isReadable line.2 = true) → ∀ answer : String,
      websocketAccept h = some answer ↔
        h.Lists "connection" "upgrade" ∧ h.Lists "upgrade" "websocket" ∧
        h.FirstOf "sec-websocket-version" "13" ∧
        ∃ key, h.FirstOf "sec-websocket-key" key ∧
          answer = String.ofList (Base64.encode Base64.padded
            (Digest.sha1 (utf8 key ++ utf8 "258EAFA5-E914-47DA-95CA-C5AB0DC85B11")))) := by
  constructor
  · intro h h' hr
    exact hr.alike.websocketAccept_eq
  · intro h hread answer
    simp only [websocketAccept_eq_some, Headers.hasElement_iff_lists hread,
      Headers.first?_eq_some_iff, acceptKey, utf8_append, handshakeSuffix]

/-- A list that is split and capitalized, and a version that is told again. -/
theorem handshake_answer_decided_folded :
    Headers.Refolded
      [("Connection", "keep-alive" ++ "," ++ " Upgrade"), ("Upgrade", "websocket"),
        ("Sec-WebSocket-Key", "dGhlIHNhbXBsZSBub25jZQ=="), ("Sec-WebSocket-Version", "13")]
      [("Connection", "keep-alive"), ("Connection", "UPGRADE"), ("Upgrade", "websocket"),
        ("Sec-WebSocket-Key", "dGhlIHNhbXBsZSBub25jZQ=="), ("Sec-WebSocket-Version", "13"),
        ("Sec-WebSocket-Version", "8")] ∧
    websocketAccept
      [("Connection", "keep-alive"), ("Connection", "UPGRADE"), ("Upgrade", "websocket"),
        ("Sec-WebSocket-Key", "dGhlIHNhbXBsZSBub25jZQ=="), ("Sec-WebSocket-Version", "13"),
        ("Sec-WebSocket-Version", "8")] = some "s3pPLMBiTxaQ9kYGzzhZRbK+xOo=" := by
  have hsplit : Headers.Rewrite [("Connection", "keep-alive" ++ "," ++ " Upgrade")]
      [("Connection", "keep-alive"), ("Connection", " Upgrade")] :=
    .split (.inl (by decide +kernel)) (by decide) (by decide)
  have hword : (trim " Upgrade").toLower = "upgrade" := by decide +kernel
  have hword' : (trim "UPGRADE").toLower = "upgrade" := by decide +kernel
  have hsmall : split ',' " Upgrade" = [" Upgrade"] := by decide
  have hcapital : split ',' "UPGRADE" = ["UPGRADE"] := by decide
  have hwords : List.Forall₂ Headers.SameWord [" Upgrade"] ["UPGRADE"] :=
    .cons (hword.trans hword'.symm) .nil
  rw [← hsmall, ← hcapital] at hwords
  have hcase : Headers.Rewrite [("Connection", " Upgrade")] [("Connection", "UPGRADE")] :=
    .respell (.inl (by decide +kernel)) (by decide) (by decide) hwords
  have hagain : Headers.Rewrite [("Sec-WebSocket-Version", "13")]
      [("Sec-WebSocket-Version", "13"), ("Sec-WebSocket-Version", "8")] :=
    .follow [] (.inr (by decide +kernel)) rfl
  have hfirst : Headers.Change _ _ := .within [] [("Upgrade", "websocket"),
    ("Sec-WebSocket-Key", "dGhlIHNhbXBsZSBub25jZQ=="), ("Sec-WebSocket-Version", "13")] hsplit
  have hsecond : Headers.Change _ _ := .within [("Connection", "keep-alive")]
    [("Upgrade", "websocket"), ("Sec-WebSocket-Key", "dGhlIHNhbXBsZSBub25jZQ=="),
      ("Sec-WebSocket-Version", "13")] hcase
  have hthird : Headers.Change _ _ := .within [("Connection", "keep-alive"),
    ("Connection", "UPGRADE"), ("Upgrade", "websocket"),
    ("Sec-WebSocket-Key", "dGhlIHNhbXBsZSBub25jZQ==")] [] hagain
  have hfolded : Headers.Refolded _ _ :=
    .trans _ _ _ (.rel _ _ hfirst) (.trans _ _ _ (.rel _ _ hsecond) (.rel _ _ hthird))
  refine ⟨hfolded, ?_⟩
  refine (handshake_answer_decided.1 _ _ hfolded).symm.trans ?_
  refine (handshake_answer_decided.2 _ (by decide) _).mpr ⟨?_, ?_, ?_, ?_⟩
  · exact (Headers.hasElement_iff_lists (by decide)).mp (by decide +kernel)
  · exact (Headers.hasElement_iff_lists (by decide)).mp (by decide +kernel)
  · exact Headers.first?_eq_some_iff.mp (by decide +kernel)
  · exact ⟨"dGhlIHNhbXBsZSBub25jZQ==", Headers.first?_eq_some_iff.mp (by decide +kernel),
      by decide +kernel⟩

end Foreman.Http
