/-
A result is read by the names of its members.

A worker's frame may spell its names and values in any way, have its members in any order
and have others among them.  `valuesOf` forgets all this: it is what the members with one
name say.  A result is read exactly if each of its six names has one value, which says what
the result has there, and the whole text can be read at all.

The type is a member as any other.  It is taken out first, wherever it stands, and taking it
out changes nothing for the other names.
-/
import Foreman.Message.TextFrame
import Foreman.Proofs.Json.Grammar
import Foreman.Proofs.Message

namespace Foreman

open Text

namespace Json

/-! ### Members of one name -/

/-- The values of the members with a name, in order. -/
def valuesOf (name : String) (members : List (List Glyph × Json)) : List Json :=
  (members.filter fun m => Glyph.text? m.1 = some name).map (·.2)

section

variable {members : List (List Glyph × Json)}

theorem named?_cons (m : List Glyph × Json) :
    named? (m :: members) =
      (Glyph.text? m.1).bind fun name => (named? members).map ((name, m.2) :: ·) := by
  rw [named?, List.mapM_cons]
  cases Glyph.text? m.1 with
  | none => rfl
  | some name =>
    show (named? members).bind _ = _
    cases named? members <;> rfl

theorem isSome_named? :
    (named? members).isSome = true ↔ ∀ m ∈ members, (Glyph.text? m.1).isSome = true := by
  induction members with
  | nil => simp [named?]
  | cons m members ih =>
    rw [named?_cons, List.forall_mem_cons, ← ih]
    cases Glyph.text? m.1 <;> simp

/-- Members keep their values when their names are read. -/
theorem filter_named? {ms : List (String × Json)} (h : named? members = some ms) (name : String) :
    (ms.filter (·.1 == name)).map (·.2) = valuesOf name members := by
  induction members generalizing ms with
  | nil =>
    rw [← Option.some.inj h]
    rfl
  | cons m members ih =>
    rw [named?_cons] at h
    obtain ⟨text, htext, h⟩ := Option.bind_eq_some_iff.mp h
    obtain ⟨rest, hrest, rfl⟩ := Option.map_eq_some_iff.mp h
    have htail := ih hrest
    unfold valuesOf at htail ⊢
    by_cases hname : text = name <;> simp [htext, hname, htail]

theorem only?_eq_some {ms : List (String × Json)} (h : named? members = some ms) {name : String}
    {v : Json} : only? name ms = some v ↔ valuesOf name members = [v] := by
  rw [← filter_named? h name, only?]
  cases ms.filter (·.1 == name) with
  | nil => simp
  | cons m rest => cases rest <;> simp

/-- The members of other names than one. -/
def others (key : String) (members : List (List Glyph × Json)) : List (List Glyph × Json) :=
  members.filter fun m => Glyph.text? m.1 != some key

theorem valuesOf_others {key name : String} (h : name ≠ key) :
    valuesOf name (others key members) = valuesOf name members := by
  unfold valuesOf others
  rw [List.filter_filter]
  congr 1
  refine List.filter_congr fun m _ => ?_
  by_cases hname : Glyph.text? m.1 = some name <;> simp [hname, h]

theorem exists_named?_others {ms : List (String × Json)} (h : named? members = some ms)
    (key : String) : ∃ rest, named? (others key members) = some rest := by
  have hall : ∀ m ∈ members, (Glyph.text? m.1).isSome = true := isSome_named?.mp (by rw [h]; rfl)
  exact Option.isSome_iff_exists.mp (isSome_named?.mpr fun m hm => hall m (List.mem_filter.mp hm).1)

/-- The tag of a record is the text of its one member with the key. -/
theorem tagged?_eq_some {ms : List (String × Json)} (h : named? members = some ms)
    {key tag : String} {fields : Json} :
    tagged? key (.object members) = some (tag, fields) ↔
      (∃ v, valuesOf key members = [v] ∧ v.text? = some tag) ∧
        fields = .object (others key members) := by
  have htagged : tagged? key (.object members) =
      ((only? key ms).bind text?).map fun tag => (tag, .object (others key members)) := by
    simp only [tagged?, h, Option.bind_eq_bind, Option.bind_some]
    cases (only? key ms).bind text? <;> rfl
  rw [htagged, Option.map_eq_some_iff]
  constructor
  · rintro ⟨tag', htag, heq⟩
    obtain ⟨v, hv, htext⟩ := Option.bind_eq_some_iff.mp htag
    obtain ⟨rfl, rfl⟩ := Prod.mk.inj heq
    exact ⟨⟨v, (only?_eq_some h).mp hv, htext⟩, rfl⟩
  · rintro ⟨⟨v, hv, htext⟩, rfl⟩
    exact ⟨tag, Option.bind_eq_some_iff.mpr ⟨v, (only?_eq_some h).mpr hv, htext⟩, rfl⟩

/-- The values of a record are those that its names have, one each. -/
theorem values?_eq_some {ms : List (String × Json)} (h : named? members = some ms)
    {names : List String} {vs : List Json} :
    values? names (.object members) = some vs ↔
      List.Forall₂ (fun name v => valuesOf name members = [v]) names vs := by
  have hvalues : values? names (.object members) = names.mapM (only? · ms) := by
    rw [values?, h, Option.bind_some]
  rw [hvalues]
  clear hvalues
  induction names generalizing vs with
  | nil =>
    rw [List.mapM_nil, List.forall₂_nil_left_iff]
    exact ⟨fun h => (Option.some.inj h).symm, fun h => congrArg some h.symm⟩
  | cons name names ih =>
    simp only [List.mapM_cons, Option.bind_eq_bind, Option.bind_eq_some_iff, only?_eq_some h, ih,
      List.forall₂_cons_left_iff, Option.pure_def, Option.some.injEq]
    constructor
    · rintro ⟨v, hv, rest, hrest, rfl⟩
      exact ⟨v, rest, hv, hrest, rfl⟩
    · rintro ⟨v, rest, hv, hrest, rfl⟩
      exact ⟨v, hv, rest, hrest, rfl⟩

end

/-! ### Values -/

theorem word32?_eq_some {v : Json} {w : UInt32} :
    v.word32? = some w ↔ ∃ lexeme, v = .number lexeme ∧ Decimal.read lexeme = some w.toNat := by
  constructor
  · intro h
    obtain ⟨n, hn, rfl⟩ := Option.map_eq_some_iff.mp h
    cases v with
    | number lexeme =>
      obtain ⟨hread, hlt⟩ := Option.filter_eq_some_iff.mp hn
      refine ⟨lexeme, rfl, ?_⟩
      have hword : n < 2 ^ 32 := of_decide_eq_true hlt
      rw [hread, UInt32.toNat_ofNat', Nat.mod_eq_of_lt hword]
    | _ => cases hn
  · rintro ⟨lexeme, rfl, hread⟩
    have hbelow : Decimal.readBelow (Nat.pow 2 32) lexeme = some w.toNat := by
      rw [Decimal.readBelow, hread, Option.filter_some, if_pos (decide_eq_true w.toNat_lt)]
    rw [word32?, nat?, hbelow, Option.map_some, UInt32.ofNat_toNat]

end Json

namespace WorkResult

/-! ### The fields of a result -/

/-- What a result is sent with: its type and its fields. -/
inductive Field where
  | type
  | requestId
  | requesterId
  | hash
  | work
  | difficultyMultiplier
deriving DecidableEq

/-- The name of the member in which a field is sent. -/
def Field.name : Field → String
  | type => typeKey
  | requestId => "request_id"
  | requesterId => "requester_id"
  | hash => "hash"
  | work => "work"
  | difficultyMultiplier => "difficulty_multiplier"

/-- A value says what a result has in a field. -/
def Field.Says (r : WorkResult) : Field → Json → Prop
  | type, v => v.text? = some tag
  | requestId, v => v.text? = some r.requestId
  | requesterId, v => ∃ text, v.text? = some text ∧ UserId.ofText? text = some r.requesterId
  | hash, v => v.text? = some r.hash
  | work, v => v.text? = some r.work
  | difficultyMultiplier, v =>
    ∃ lexeme, v = .number lexeme ∧ Decimal.read lexeme = some r.difficultyMultiplier.toNat

/-- Members say a field: one of them has its name, and says what the result has there. -/
def Field.SaidBy (r : WorkResult) (members : List (List Glyph × Json)) (field : Field) : Prop :=
  ∃ v, Json.valuesOf field.name members = [v] ∧ field.Says r v

variable {members : List (List Glyph × Json)} {r : WorkResult}

theorem ofJson?_eq_some {ms : List (String × Json)} (h : Json.named? members = some ms) :
    ofJson? (.object members) = some r ↔ ∀ field : Field, field ≠ .type → field.SaidBy r members := by
  constructor
  · intro hread
    unfold ofJson? at hread
    split at hread
    · rename_i requestId requesterId hash work difficulty hvalues
      have hall := (Json.values?_eq_some h).mp hvalues
      simp only [names, List.forall₂_cons, List.forall₂_nil_left_iff, and_true] at hall
      obtain ⟨hrequestId, hrequesterId, hhash, hwork, hdifficulty⟩ := hall
      simp only [Option.bind_eq_bind, Option.bind_eq_some_iff, Option.pure_def,
        Option.some.injEq] at hread
      obtain ⟨a, ha, b, hb, c, hc, d, hd, e, he, rfl⟩ := hread
      intro field hne
      cases field with
      | type => exact absurd rfl hne
      | requestId => exact ⟨requestId, hrequestId, ha⟩
      | requesterId => exact ⟨requesterId, hrequesterId, Option.bind_eq_some_iff.mp hb⟩
      | hash => exact ⟨hash, hhash, hc⟩
      | work => exact ⟨work, hwork, hd⟩
      | difficultyMultiplier => exact ⟨difficulty, hdifficulty, Json.word32?_eq_some.mp he⟩
    · cases hread
  · intro hall
    obtain ⟨requestId, hrequestId, ha⟩ := hall .requestId (by decide)
    obtain ⟨requesterId, hrequesterId, hb⟩ := hall .requesterId (by decide)
    obtain ⟨hash, hhash, hc⟩ := hall .hash (by decide)
    obtain ⟨work, hwork, hd⟩ := hall .work (by decide)
    obtain ⟨difficulty, hdifficulty, he⟩ := hall .difficultyMultiplier (by decide)
    have hvalues : Json.values? names (.object members) =
        some [requestId, requesterId, hash, work, difficulty] :=
      (Json.values?_eq_some h).mpr
        (.cons hrequestId (.cons hrequesterId (.cons hhash (.cons hwork (.cons hdifficulty .nil)))))
    have hid : UserId.ofJson? requesterId = some r.requesterId := Option.bind_eq_some_iff.mpr hb
    have hword : difficulty.word32? = some r.difficultyMultiplier := Json.word32?_eq_some.mpr he
    have hrequest : requestId.text? = some r.requestId := ha
    have hhash' : hash.text? = some r.hash := hc
    have hwork' : work.text? = some r.work := hd
    rw [ofJson?, hvalues]
    simp [hrequest, hid, hhash', hwork', hword]

/-- The type is no field. -/
theorem name_ne_typeKey : ∀ {field : Field}, field ≠ .type → field.name ≠ typeKey := by
  intro field
  cases field <;> decide

/-- Taking the type out leaves the fields as they are. -/
theorem saidBy_others {field : Field} (h : field ≠ .type) :
    field.SaidBy r (Json.others typeKey members) ↔ field.SaidBy r members := by
  unfold Field.SaidBy
  rw [Json.valuesOf_others (name_ne_typeKey h)]

end WorkResult

namespace WorkerMessage

open WorkResult

variable {members : List (List Glyph × Json)} {r : WorkResult}

/-- **An object is read as a result exactly if it is well formed and its members say every field of
it.** -/
theorem ofJson?_object :
    ofJson? (.object members) = some (.workResult r) ↔
      (Json.object members).wellFormed Json.maxDepth = true ∧
        ∀ field : Field, field.SaidBy r members := by
  by_cases hwell : (Json.object members).wellFormed Json.maxDepth = true
  · have hnames : (Json.named? members).isSome = true := by
      refine Json.isSome_named?.mpr fun m hm => ?_
      exact (Bool.and_eq_true_iff.mp (List.all_eq_true.mp hwell m hm)).1
    obtain ⟨ms, hms⟩ := Option.isSome_iff_exists.mp hnames
    obtain ⟨rest, hrest⟩ := Json.exists_named?_others hms typeKey
    rw [ofJson?, if_pos hwell, Option.bind_eq_some_iff]
    constructor
    · rintro ⟨⟨tag, fields⟩, htagged, hread⟩
      obtain ⟨⟨v, hv, htext⟩, rfl⟩ := (Json.tagged?_eq_some hms).mp htagged
      dsimp only at hread
      split at hread
      · rename_i htag
        obtain ⟨r', hfields, heq⟩ := Option.map_eq_some_iff.mp hread
        obtain rfl : r' = r := by injection heq
        refine ⟨hwell, fun field => ?_⟩
        by_cases hfield : field = .type
        · rw [hfield]
          exact ⟨v, hv, htext.trans (congrArg some htag)⟩
        · exact (saidBy_others hfield).mp ((WorkResult.ofJson?_eq_some hrest).mp hfields field hfield)
      · cases hread
    · rintro ⟨-, hall⟩
      have hfields : WorkResult.ofJson? (.object (Json.others typeKey members)) = some r :=
        (WorkResult.ofJson?_eq_some hrest).mpr fun field hfield =>
          (saidBy_others hfield).mpr (hall field)
      refine ⟨(WorkResult.tag, .object (Json.others typeKey members)), ?_, ?_⟩
      · exact (Json.tagged?_eq_some hms).mpr ⟨hall .type, rfl⟩
      · dsimp only
        rw [if_pos rfl, hfields]
        rfl
  · rw [ofJson?, if_neg hwell]
    simp [hwell]

end WorkerMessage

/-! ### Frames of results -/

namespace WorkResult

variable {members : List (List Glyph × Json)} {r : WorkResult} {v : Json}

/-- The members of a result as it is sent. -/
def sentMembers (r : WorkResult) : List (List Glyph × Json) :=
  ((typeKey, .ofText tag) :: r.fields).map fun m => (Glyph.ofText m.1, m.2)

/-- A result that is sent says every field of itself. -/
theorem saidBy_sentMembers (r : WorkResult) (field : Field) : field.SaidBy r r.sentMembers :=
  (WorkerMessage.ofJson?_object.mp (WorkerMessage.ofJson?_toJson (.workResult r))).2 field

theorem saidBy_of_valuesOf_eq {field : Field}
    (h : Json.valuesOf field.name members = Json.valuesOf field.name r.sentMembers) :
    field.SaidBy r members := by
  unfold Field.SaidBy
  rw [h]
  exact saidBy_sentMembers r field

/-- What a field says can be read in full. -/
theorem Field.Says.wellFormed {field : Field} (h : field.Says r v) (depth : Nat) :
    v.wellFormed depth = true := by
  have htext {s : String} (hs : v.text? = some s) : v.wellFormed depth = true := by
    cases v with
    | string glyphs =>
      have hglyphs : Glyph.text? glyphs = some s := hs
      cases depth <;> rw [Json.wellFormed, hglyphs] <;> rfl
    | _ => cases hs
  cases field with
  | type => exact htext h
  | requestId => exact htext h
  | requesterId =>
    obtain ⟨text, hs, -⟩ := h
    exact htext hs
  | hash => exact htext h
  | work => exact htext h
  | difficultyMultiplier =>
    obtain ⟨lexeme, rfl, hread⟩ := h
    have hlt : r.difficultyMultiplier.toNat < 2 ^ 64 :=
      Nat.lt_trans r.difficultyMultiplier.toNat_lt (by decide)
    have hfits : Json.numberFits lexeme = true := Json.numberFits_of_read hread hlt
    cases depth <;> exact hfits

/-- A member has another name than every field. -/
def Other (m : List Glyph × Json) : Prop := ∀ field : Field, Glyph.text? m.1 ≠ some field.name

/-- Members that say every field of a result can be read in full, if the others can. -/
theorem wellFormed_of_saidBy {depth : Nat}
    (hfields : ∀ field : Field, field.SaidBy r members)
    (hothers : ∀ m ∈ members, Other m →
      (∃ name, Glyph.text? m.1 = some name) ∧ m.2.wellFormed depth = true) :
    (Json.object members).wellFormed (depth + 1) = true := by
  rw [Json.wellFormed, List.all_eq_true]
  intro m hm
  rw [Bool.and_eq_true_iff]
  by_cases hother : Other m
  · obtain ⟨⟨name, hname⟩, hwell⟩ := hothers m hm hother
    exact ⟨by rw [hname]; rfl, hwell⟩
  · obtain ⟨field, hname⟩ := not_forall.mp hother
    rw [not_not] at hname
    obtain ⟨v, hv, hsays⟩ := hfields field
    have hmem : m.2 ∈ Json.valuesOf field.name members :=
      List.mem_map.mpr ⟨m, List.mem_filter.mpr ⟨hm, by simpa using hname⟩, rfl⟩
    rw [hv, List.mem_singleton] at hmem
    rw [hmem]
    exact ⟨by rw [hname]; rfl, hsays.wellFormed depth⟩

end WorkResult

open WorkResult in
/--
**A result is read by the names of its members.**  Whatever the limit, and whatever a text of
the grammar within the limit says in the members of an object,

  * it is read as a result, if one member of each name says what the result has there, and the
    members of other names are Unicode, have numbers that fit a double by the reader's own
    arithmetic and no more than a hundred and twenty-six containers open in any of them;
  * and it cannot be decoded, if there is a name of which there is no member or more than one, or
    whose member says what no result has there.

Neither the order of the members, nor the spelling of names and strings, nor blanks, nor
members of other names that occur more than once make a difference.
-/
theorem work_result_read_by_names {text : String} {members : List (List Glyph × Json)}
    (hwritten : Json.Written text.toList (.object members)) {limit : Nat}
    (hsize : text.utf8ByteSize ≤ limit) :
    (∀ r : WorkResult, (∀ field : Field, field.SaidBy r members) →
      (∀ m ∈ members, Other m →
        (∃ name, Glyph.text? m.1 = some name) ∧ m.2.wellFormed 126 = true) →
      WorkerMessage.ofFrame limit text = .ok (.workResult r)) ∧
    ∀ field : Field,
      (Json.valuesOf field.name members = [] ∨ 2 ≤ (Json.valuesOf field.name members).length ∨
        ∃ v ∈ Json.valuesOf field.name members, ∀ r, ¬ field.Says r v) →
      WorkerMessage.ofFrame limit text = .error .undecodable := by
  have hframe : WorkerMessage.ofFrame limit text =
      match WorkerMessage.ofJson? (.object members) with
      | some m => .ok m
      | none => .error .undecodable := by
    rw [WorkerMessage.ofFrame, TextFrame.decode, if_neg (Nat.not_lt.mpr hsize),
      Json.ofString?_of_written hwritten, Option.bind_some]
    cases WorkerMessage.ofJson? (.object members) <;> rfl
  rw [hframe]
  refine ⟨?_, ?_⟩
  · intro r hfields hothers
    have hread : WorkerMessage.ofJson? (.object members) = some (.workResult r) :=
      WorkerMessage.ofJson?_object.mpr ⟨wellFormed_of_saidBy hfields hothers, hfields⟩
    rw [hread]
  · intro field hbad
    cases hread : WorkerMessage.ofJson? (.object members) with
    | none => rfl
    | some m =>
      obtain ⟨r⟩ := m
      obtain ⟨-, hfields⟩ := WorkerMessage.ofJson?_object.mp hread
      obtain ⟨v, hv, hsays⟩ := hfields field
      rw [hv] at hbad
      rcases hbad with hnone | htwo | ⟨v', hv', hno⟩
      · cases hnone
      · simp at htwo
      · rw [List.mem_singleton.mp hv'] at hno
        exact absurd hsays (hno r)

/-! ### Two frames -/

namespace WorkResult

/-- A result that says little. -/
def bare : WorkResult := ⟨"", ⟨0⟩, "", "", 1⟩

/-- Its fields behind a member of another name, in front of its type, which is spelled with an
escape. -/
def shuffledMembers : List Json.MemberText :=
  ⟨[' ', '"', 'x', '"', ' '], Glyph.ofText "x", ['[', ' ', ']'], .array []⟩ ::
    (bare.fields.map fun m => Json.printedMember (Glyph.ofText m.1, m.2)) ++
      [⟨['"', '\\', 'u', '0', '0', '7', '4', 'y', 'p', 'e', '"'], Glyph.ofText typeKey,
        Json.printChars (.ofText tag), .ofText tag⟩]

/-- Their text. -/
def shuffledText : String :=
  "\x7b \"x\" :[ ],\"request_id\":\"\"," ++
    "\"requester_id\":\"00000000-0000-0000-0000-000000000000\",\"hash\":\"\",\"work\":\"\"," ++
    "\"difficulty_multiplier\":1,\"\\u0074ype\":\"work_result\"\x7d"

theorem written_shuffledText :
    Json.Written shuffledText.toList (.object (shuffledMembers.map Json.MemberText.member)) := by
  have htext : shuffledText.toList =
      '{' :: [','].intercalate (shuffledMembers.map Json.MemberText.chars) ++ ['}'] := by
    decide +kernel
  have hblank : Json.Blanks [' '] := by simp [Json.Blanks, Json.isBlank]
  have hletter {c : Char} (hc : c ≠ '"' ∧ c ≠ '\\' ∧ 0x20 ≤ c.toNat) {cs : List Char}
      {glyphs : List Glyph} (h : Json.Spelled cs glyphs) :
      Json.Spelled (c :: cs) (.char c :: glyphs) := .plain hc.1 hc.2.1 hc.2.2 h
  have htype : Json.Spelled ['\\', 'u', '0', '0', '7', '4', 'y', 'p', 'e']
      [Json.glyphOfCode 0x74, .char 'y', .char 'p', .char 'e'] :=
    .code (by decide) (hletter (by decide) (hletter (by decide) (hletter (by decide) .nil)))
  rw [htext]
  refine .object (List.cons_ne_nil _ _) ?_ ?_
  · intro m hm
    rcases List.mem_append.mp hm with hm | hm
    · rcases List.mem_cons.mp hm with rfl | hm
      · exact .padded hblank (.string (hletter (by decide) .nil)) hblank
      · obtain ⟨k, -, rfl⟩ := List.mem_map.mp hm
        exact Json.written_printString (Glyph.printable_ofText k.1)
    · rw [List.mem_singleton.mp hm]
      exact .string htype
  · intro m hm
    rcases List.mem_append.mp hm with hm | hm
    · rcases List.mem_cons.mp hm with rfl | hm
      · exact .emptyArray hblank
      · obtain ⟨k, hk, rfl⟩ := List.mem_map.mp hm
        exact Json.written_printChars (bare.plain k (List.mem_cons_of_mem _ hk)).1
    · rw [List.mem_singleton.mp hm]
      exact Json.written_printChars (Json.printable_ofText tag)

/-- A late type in another spelling, blanks and a member of another name make no difference. -/
theorem work_result_read_by_names_shuffled :
    WorkerMessage.ofFrame 200 shuffledText = .ok (.workResult bare) := by
  refine (work_result_read_by_names written_shuffledText (by decide +kernel)).1 bare ?_ ?_
  · exact fun field => saidBy_of_valuesOf_eq (by cases field <;> rfl)
  · intro m hm _
    obtain ⟨k, hk, rfl⟩ := List.mem_map.mp hm
    rcases List.mem_append.mp hk with hk | hk
    · rcases List.mem_cons.mp hk with rfl | hk
      · exact ⟨⟨"x", rfl⟩, rfl⟩
      · obtain ⟨field, hfield, rfl⟩ := List.mem_map.mp hk
        exact ⟨⟨field.1, Glyph.text?_ofText field.1⟩,
          (bare.plain field (List.mem_cons_of_mem _ hfield)).2 126⟩
    · rw [List.mem_singleton.mp hk]
      exact ⟨⟨typeKey, Glyph.text?_ofText typeKey⟩, Json.wellFormed_ofText 126 tag⟩

/-! ### Large numbers -/

/-- A number below the largest double, whose digits and whose power of ten are both rounded up. -/
def largeNumber : Json := .number "1797693134862315708e290".toList

/-- The members of a result and one with the number. -/
def largeMembers : List (List Glyph × Json) :=
  bare.sentMembers ++ [(Glyph.ofText "x", largeNumber)]

/-- Their text. -/
def largeText : String :=
  "\x7b\"type\":\"work_result\",\"request_id\":\"\"," ++
    "\"requester_id\":\"00000000-0000-0000-0000-000000000000\",\"hash\":\"\",\"work\":\"\"," ++
    "\"difficulty_multiplier\":1,\"x\":1797693134862315708e290\x7d"

theorem written_largeText : Json.Written largeText.toList (.object largeMembers) := by
  have htext : largeText.toList = Json.printChars (.object largeMembers) := by decide +kernel
  have hprintable : (Json.object largeMembers).Printable := by
    have hsent := bare.plain.printable
    cases hsent with
    | object names values =>
      refine .object (List.forall_mem_append.mpr ⟨names, ?_⟩)
        (List.forall_mem_append.mpr ⟨values, ?_⟩)
      · simpa using Glyph.printable_ofText "x"
      · intro m hm
        rw [List.mem_singleton.mp hm]
        exact .number (by decide)
  rw [htext]
  exact Json.written_printChars hprintable

/-- A number is refused, with the result around it, although it is no larger than the largest
double: the reader rounds its digits and its power of ten before it multiplies them. -/
theorem large_number_refused :
    Json.Written largeText.toList (.object largeMembers) ∧
      largeText.utf8ByteSize ≤ TextFrame.defaultLimit ∧
      (∀ field : Field, field.SaidBy bare largeMembers) ∧
      largeMembers.map (fun m => Glyph.text? m.1) =
        ((typeKey :: names) ++ ["x"]).map some ∧
      Json.valuesOf "x" largeMembers = [.number "1797693134862315708e290".toList] ∧
      1797693134862315708 * 10 ^ 290 ≤ 2 ^ 1024 - 2 ^ 971 ∧
      WorkerMessage.ofFrame TextFrame.defaultLimit largeText = .error .undecodable := by
  refine ⟨written_largeText, by decide +kernel, ?_, by decide +kernel, rfl, by decide +kernel,
    by decide +kernel⟩
  exact fun field => saidBy_of_valuesOf_eq (by cases field <;> rfl)

end WorkResult

end Foreman
