/-
Messages and accounts pass through frames unchanged.

A message is a record of single values behind its type.  Each value reads back, the
names of the members differ and the type is none of them, so the record reads back,
and the tree of it is printed without loss.  What is left of a frame is its length:
the sender and the reader look at the same number of bytes, and `Framed` says what
they make of it.
-/
import Foreman.Message.TextFrame
import Foreman.Proofs.Json.Values

namespace Foreman

/-! ### Words and names -/

namespace Json

@[simp] theorem word32?_ofNat (w : UInt32) : (Json.ofNat w.toNat).word32? = some w := by
  rw [word32?, nat?_ofNat (show w.toNat < Nat.pow 2 32 from w.toNat_lt), Option.map_some,
    UInt32.ofNat_toNat]

@[simp] theorem word64?_ofNat (w : UInt64) : (Json.ofNat w.toNat).word64? = some w := by
  rw [word64?, nat?_ofNat (show w.toNat < Nat.pow 2 64 from w.toNat_lt), Option.map_some,
    UInt64.ofNat_toNat]

@[simp] theorem signed64?_ofInt (w : Int64) : (Json.ofInt w.toInt).signed64? = some w := by
  have hlow : -((Nat.pow 2 63 : Nat) : Int) ≤ w.toInt := w.le_toInt
  have hhigh : w.toInt < (Nat.pow 2 63 : Nat) := w.toInt_lt
  rw [signed64?, int?_ofInt hlow hhigh, Option.map_some, Int64.ofInt_toInt]

theorem natAbs_toInt_lt (w : Int64) : w.toInt.natAbs < 2 ^ 64 := by
  have hlow := w.le_toInt
  have hhigh := w.toInt_lt
  omega

end Json

@[simp] theorem UserId.ofJson?_toJson (id : UserId) : UserId.ofJson? id.toJson = some id := by
  rw [toJson, ofJson?, Json.text?_ofText, Option.bind_some, ofText?, text, String.toList_ofList,
    read?_print]

@[simp] theorem UserType.ofJson?_toJson (kind : UserType) :
    UserType.ofJson? kind.toJson = some kind := by
  rw [toJson, ofJson?, Json.choice?_ofText, Option.bind_some, ofName?_name]

/-! ### The records of messages -/

/-- Every value of a record is printed and read in full without loss. -/
def Plain (members : List (String × Json)) : Prop :=
  ∀ m ∈ members, m.2.Printable ∧ ∀ depth, m.2.wellFormed depth = true

namespace Plain

variable {members : List (String × Json)} {name : String}

theorem nil : Plain [] := by
  intro m hm
  simp at hm

theorem cons {j : Json} (hp : j.Printable) (hw : ∀ depth, j.wellFormed depth = true)
    (h : Plain members) : Plain ((name, j) :: members) := by
  intro m hm
  rcases List.mem_cons.mp hm with rfl | hm
  · exact ⟨hp, hw⟩
  · exact h m hm

theorem text (s : String) (h : Plain members) : Plain ((name, .ofText s) :: members) :=
  h.cons (Json.printable_ofText s) (fun depth => Json.wellFormed_ofText depth s)

theorem nat {n : Nat} (hn : n < 2 ^ 64) (h : Plain members) :
    Plain ((name, .ofNat n) :: members) :=
  h.cons (Json.printable_ofNat n) (fun depth => Json.wellFormed_ofNat depth hn)

theorem int (w : Int64) (h : Plain members) : Plain ((name, .ofInt w.toInt) :: members) :=
  h.cons (Json.printable_ofInt w.toInt)
    (fun depth => Json.wellFormed_ofInt depth (Json.natAbs_toInt_lt w))

theorem bool (b : Bool) (h : Plain members) : Plain ((name, .bool b) :: members) :=
  h.cons (.bool b) (fun depth => by cases depth <;> rfl)

theorem printable (h : Plain members) : (Json.record members).Printable :=
  Json.printable_record fun m hm => (h m hm).1

theorem wellFormed (h : Plain members) : (Json.record members).wellFormed Json.maxDepth = true :=
  Json.wellFormed_record fun m hm => (h m hm).2 126

end Plain

namespace WorkResult

/-- The members of a result behind its type. -/
def fields (r : WorkResult) : List (String × Json) := [
  ("request_id", .ofText r.requestId),
  ("requester_id", r.requesterId.toJson),
  ("hash", .ofText r.hash),
  ("work", .ofText r.work),
  ("difficulty_multiplier", .ofNat r.difficultyMultiplier.toNat)]

theorem toJson_eq (r : WorkResult) :
    r.toJson = .record ((typeKey, .ofText tag) :: r.fields) := rfl

theorem plain (r : WorkResult) : Plain ((typeKey, .ofText tag) :: r.fields) := by
  have hlt : r.difficultyMultiplier.toNat < 2 ^ 64 :=
    Nat.lt_trans r.difficultyMultiplier.toNat_lt (by decide)
  exact ((((Plain.nil.nat hlt).text _).text _).text _ |>.text _).text _

theorem ofJson?_fields (r : WorkResult) : ofJson? (.record r.fields) = some r := by
  have hvalues : Json.values? names (.record r.fields) = some (r.fields.map (·.2)) :=
    Json.values?_record rfl (by decide)
  rw [ofJson?, hvalues]
  simp [fields]

end WorkResult

namespace WorkOrder

/-- The members of an order behind its type. -/
def fields (o : WorkOrder) : List (String × Json) := [
  ("request_id", .ofText o.requestId),
  ("requester_id", o.requesterId.toJson),
  ("hash", .ofText o.hash),
  ("difficulty_multiplier", .ofNat o.difficultyMultiplier.toNat)]

theorem toJson_eq (o : WorkOrder) :
    o.toJson = .record ((typeKey, .ofText tag) :: o.fields) := rfl

theorem plain (o : WorkOrder) : Plain ((typeKey, .ofText tag) :: o.fields) := by
  have hlt : o.difficultyMultiplier.toNat < 2 ^ 64 :=
    Nat.lt_trans o.difficultyMultiplier.toNat_lt (by decide)
  exact (((Plain.nil.nat hlt).text _).text _).text _ |>.text _

theorem ofJson?_fields (o : WorkOrder) : ofJson? (.record o.fields) = some o := by
  have hvalues : Json.values? names (.record o.fields) = some (o.fields.map (·.2)) :=
    Json.values?_record rfl (by decide)
  rw [ofJson?, hvalues]
  simp [fields]

end WorkOrder

namespace Reward

/-- The members of a reward behind its type. -/
def fields (r : Reward) : List (String × Json) := [
  ("hash", .ofText r.hash),
  ("requester_id", r.requesterId.toJson),
  ("total_results", .ofNat r.totalResults.toNat),
  ("awarded_at_unix_ms", .ofInt r.awardedAtMs.toInt)]

theorem toJson_eq (r : Reward) : r.toJson = .record ((typeKey, .ofText tag) :: r.fields) := rfl

theorem plain (r : Reward) : Plain ((typeKey, .ofText tag) :: r.fields) :=
  (((Plain.nil.int _).nat r.totalResults.toNat_lt).text _).text _ |>.text _

theorem ofJson?_fields (r : Reward) : ofJson? (.record r.fields) = some r := by
  have hvalues : Json.values? names (.record r.fields) = some (r.fields.map (·.2)) :=
    Json.values?_record rfl (by decide)
  rw [ofJson?, hvalues]
  simp [fields]

end Reward

namespace Identity

theorem plain (who : Identity) : Plain [
    ("id", who.id.toJson), ("email", .ofText who.email),
    ("email_verified", .bool who.emailVerified), ("can_request_work", .bool who.canRequestWork),
    ("user_type", who.kind.toJson)] :=
  ((((Plain.nil.text _).bool _).bool _).text _).text _

theorem ofJson?_toJson (who : Identity) : ofJson? who.toJson = some who := by
  have hvalues : Json.values? names who.toJson = some [who.id.toJson, .ofText who.email,
      .bool who.emailVerified, .bool who.canRequestWork, who.kind.toJson] :=
    Json.values?_record rfl (by decide)
  rw [ofJson?, hvalues]
  simp

end Identity

/-! ### Messages -/

theorem WorkerMessage.ofJson?_toJson (m : WorkerMessage) : ofJson? m.toJson = some m := by
  obtain ⟨r⟩ := m
  rw [toJson, ofJson?, r.toJson_eq, if_pos r.plain.wellFormed,
    Json.tagged?_record WorkResult.names rfl (by decide), Option.bind_some]
  dsimp only
  rw [if_pos rfl, r.ofJson?_fields]
  rfl

theorem ServerMessage.ofJson?_toJson (m : ServerMessage) : ofJson? m.toJson = some m := by
  cases m with
  | workGenerate o =>
      rw [toJson, ofJson?, o.toJson_eq, if_pos o.plain.wellFormed,
        Json.tagged?_record WorkOrder.names rfl (by decide), Option.bind_some]
      dsimp only
      rw [if_pos rfl, o.ofJson?_fields]
      rfl
  | rewardEarned r =>
      rw [toJson, ofJson?, r.toJson_eq, if_pos r.plain.wellFormed,
        Json.tagged?_record Reward.names rfl (by decide), Option.bind_some]
      dsimp only
      rw [if_neg (by decide), if_pos rfl, r.ofJson?_fields]
      rfl

theorem WorkerMessage.printable (m : WorkerMessage) : m.toJson.Printable := by
  obtain ⟨r⟩ := m
  exact r.plain.printable

theorem ServerMessage.printable (m : ServerMessage) : m.toJson.Printable := by
  cases m with
  | workGenerate o => exact o.plain.printable
  | rewardEarned r => exact r.plain.printable

theorem Identity.printable (who : Identity) : who.toJson.Printable := who.plain.printable

/-! ### Frames -/

/-- Values of a type pass through frames.  A value has a frame exactly if its text is within the
limit; the frame is that text, and gives the value back under every limit that it is within.
Beyond the limit there is no frame, and whatever the text is, it is refused for its length. -/
def Framed {α : Type} (toJson : α → Json) (read? : Json → Option α) : Prop :=
  (∀ a limit,
    let text := (toJson a).print
    ((∃ frame, TextFrame.encode limit (toJson a) = .ok frame) ↔ text.utf8ByteSize ≤ limit) ∧
    (text.utf8ByteSize ≤ limit → TextFrame.encode limit (toJson a) = .ok text ∧
      ∀ larger, text.utf8ByteSize ≤ larger → TextFrame.decode larger read? text = .ok a) ∧
    (limit < text.utf8ByteSize →
      TextFrame.encode limit (toJson a) = .error (.tooLarge text.utf8ByteSize limit))) ∧
  ∀ (text : String) limit, limit < text.utf8ByteSize →
    TextFrame.decode limit read? text = .error (.tooLarge text.utf8ByteSize limit)

theorem TextFrame.encode_eq (limit : Nat) (j : Json) :
    encode limit j = if j.print.utf8ByteSize ≤ limit then .ok j.print
      else .error (.tooLarge j.print.utf8ByteSize limit) := by
  unfold encode
  by_cases h : j.print.utf8ByteSize ≤ limit
  · rw [if_pos h]
    exact if_neg (Nat.not_lt.mpr h)
  · rw [if_neg h]
    exact if_pos (Nat.lt_of_not_le h)

/-- The frame of a printed value gives the value back. -/
theorem TextFrame.decode_print {α : Type} {toJson : α → Json} {read? : Json → Option α} {a : α}
    (hprint : (toJson a).Printable) (hread : read? (toJson a) = some a) {limit : Nat}
    (h : (toJson a).print.utf8ByteSize ≤ limit) :
    decode limit read? (toJson a).print = .ok a := by
  unfold decode
  rw [if_neg (Nat.not_lt.mpr h), Json.ofString?_print hprint, Option.bind_some, hread]

theorem framed {α : Type} {toJson : α → Json} {read? : Json → Option α}
    (hprint : ∀ a, (toJson a).Printable) (hread : ∀ a, read? (toJson a) = some a) :
    Framed toJson read? := by
  refine ⟨?_, ?_⟩
  · intro a limit text
    rw [TextFrame.encode_eq]
    refine ⟨?_, ?_, ?_⟩
    · by_cases h : text.utf8ByteSize ≤ limit
      · simp [text, h]
      · simp [text, h]
    · intro h
      refine ⟨if_pos h, ?_⟩
      intro larger hlarger
      exact TextFrame.decode_print (hprint a) (hread a) hlarger
    · intro h
      exact if_neg (Nat.not_le.mpr h)
  · intro text limit h
    unfold TextFrame.decode
    exact if_pos h

/-- **Messages and accounts pass through frames.**  For every message of a worker, every message of
the server and every account, whatever texts, numbers and ids are in it, and for every limit. -/
theorem messages_framed :
    Framed WorkerMessage.toJson WorkerMessage.ofJson? ∧
      Framed ServerMessage.toJson ServerMessage.ofJson? ∧
      Framed Identity.toJson Identity.ofJson? :=
  ⟨framed WorkerMessage.printable WorkerMessage.ofJson?_toJson,
    framed ServerMessage.printable ServerMessage.ofJson?_toJson,
    framed Identity.printable Identity.ofJson?_toJson⟩

/-- The frame of a reward, at its very length. -/
example :
    (ServerMessage.rewardEarned ⟨"a\"\n\x01é", ⟨10⟩, 3, -5⟩).frame 143 = .ok
      ("\x7b\"type\":\"reward_earned\",\"hash\":\"a\\\"\\n\\u0001é\"," ++
        "\"requester_id\":\"00000000-0000-0000-0000-00000000000a\"," ++
        "\"total_results\":3,\"awarded_at_unix_ms\":-5\x7d") := by
  decide +kernel

end Foreman
