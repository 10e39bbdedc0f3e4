/-
How much longer a reward may be than the result that it is for.

A result may be written without the names of its members, and a reward is always written with
them; so the reward for a result that came in at the frame limit may be beyond the limit.  But
the one thing that both have to spell out at any length is the hash.  The rest of a result
takes at least so many bytes, the rest of a reward at most so many, and the difference is a
constant: with that much headroom in its result's frame, a reward is sent.
-/
import Foreman.Proofs.Json.Size
import Foreman.Proofs.Server.Routing

namespace Foreman

open Text

/-! ### The least that a result takes -/

theorem length_flatten_splitChars_le (sep : Char) (s : List Char) :
    (splitChars sep s).flatten.length ≤ s.length := by
  induction s with
  | nil => exact Nat.le_refl _
  | cons c r ih =>
    rw [splitChars]
    split
    · exact Nat.le_succ_of_le ih
    · split
      · simp
      · rename_i p ps hparts
        rw [hparts] at ih
        simp only [List.flatten_cons, List.length_append, List.length_cons] at ih ⊢
        omega

theorem UserId.length_of_hyphenated? {s ds : List Char} (h : hyphenated? s = some ds) :
    32 ≤ s.length := by
  unfold hyphenated? at h
  dsimp only at h
  split at h
  · rename_i hlengths
    have hle := length_flatten_splitChars_le '-' s
    rw [List.length_flatten, hlengths] at hle
    exact hle
  · cases h

/-- Every spelling of an id has all its digits. -/
theorem UserId.length_of_digits? {s ds : List Char} (h : digits? s = some ds) :
    32 ≤ s.length := by
  unfold digits? at h
  split at h
  · rename_i hlength
    exact Nat.le_of_eq hlength.symm
  · split at h
    · have hle := length_of_hyphenated? h
      rw [List.length_dropLast, List.length_drop] at hle
      omega
    · split at h
      · have hle := length_of_hyphenated? h
        rw [List.length_drop] at hle
        omega
      · exact length_of_hyphenated? h

theorem UserId.size_of_ofJson? {j : Json} {id : UserId} (h : ofJson? j = some id) :
    34 ≤ j.size := by
  obtain ⟨s, hs, hid⟩ := Option.bind_eq_some_iff.mp h
  obtain ⟨ds, hds, -⟩ := Option.bind_eq_some_iff.mp hid
  have hlength := length_of_digits? hds
  have htext := Json.length_le_size_ofText s
  have hle := Json.size_text? hs
  omega

namespace Json

theorem size_of_text? {j : Json} {s : String} (h : j.text? = some s) : 2 ≤ j.size := by
  have htext := length_le_size_ofText s
  have hle := size_text? h
  omega

theorem size_of_word32? {j : Json} {w : UInt32} (h : j.word32? = some w) : 1 ≤ j.size := by
  obtain ⟨n, hn, -⟩ := Option.map_eq_some_iff.mp h
  cases j with
  | number lexeme =>
    cases lexeme with
    | nil => cases hn
    | cons c r =>
      have hpos := c.utf8Size_pos
      rw [size_number, String.utf8Len_cons]
      omega
  | _ => cases hn

end Json

/-- What a result takes besides its hash. -/
theorem WorkerMessage.size_of_ofJson? {j : Json} {r : WorkResult}
    (h : ofJson? j = some (.workResult r)) : (Json.ofText r.hash).size + 59 ≤ j.size := by
  unfold ofJson? at h
  split at h
  · obtain ⟨⟨tag, fields⟩, htag, h⟩ := Option.bind_eq_some_iff.mp h
    dsimp only at h
    split at h
    · rename_i hresult
      subst hresult
      obtain ⟨r', hr', heq⟩ := Option.map_eq_some_iff.mp h
      cases heq
      unfold WorkResult.ofJson? at hr'
      split at hr'
      · rename_i requestId requesterId hash work difficulty hvalues
        have htotal := Json.size_tagged? (by decide) htag hvalues
        obtain ⟨a, ha, hr'⟩ := Option.bind_eq_some_iff.mp hr'
        obtain ⟨b, hb, hr'⟩ := Option.bind_eq_some_iff.mp hr'
        obtain ⟨c, hc, hr'⟩ := Option.bind_eq_some_iff.mp hr'
        obtain ⟨d, hd, hr'⟩ := Option.bind_eq_some_iff.mp hr'
        obtain ⟨e, he, hr'⟩ := Option.bind_eq_some_iff.mp hr'
        cases hr'
        have htype : (Json.ofText WorkResult.tag).size = 13 := by decide
        have hrequest := Json.size_of_text? ha
        have hrequester := UserId.size_of_ofJson? hb
        have hhash := Json.size_text? hc
        have hwork := Json.size_of_text? hd
        have hdifficulty := Json.size_of_word32? he
        show (Json.ofText c).size + 59 ≤ j.size
        simp only [Json.itemsSize, List.map_cons, List.sum_cons, List.map_nil, List.sum_nil]
          at htotal
        omega
      · cases hr'
    · cases h
  · cases h

/-! ### The most that a reward takes -/

theorem utf8Len_of_digits {s : List Char} (h : ∀ c ∈ s, c.isDigit = true) :
    String.utf8Len s = s.length := by
  induction s with
  | nil => rfl
  | cons c r ih =>
    rw [List.forall_mem_cons] at h
    have hc : c.utf8Size = 1 := by
      have hdigit := h.1
      simp only [Char.isDigit, Bool.and_eq_true, decide_eq_true_eq] at hdigit
      exact Json.utf8Len_ascii (Nat.lt_of_le_of_lt (UInt32.le_iff_toNat_le.mp hdigit.2) (by decide))
    rw [String.utf8Len_cons, List.length_cons, ih h.2, hc]

theorem Json.size_ofNat_le {n k : Nat} (hk : 0 < k) (h : n < 10 ^ k) : (ofNat n).size ≤ k := by
  rw [ofNat, size_number, utf8Len_of_digits fun c hc => Decimal.isDigit_of_mem_print hc]
  exact (Nat.length_toDigits_le_iff (by decide) hk).mpr h

theorem Json.size_ofInt_le (w : Int64) : (ofInt w.toInt).size ≤ 20 := by
  have hlow := w.le_toInt
  have hhigh := w.toInt_lt
  cases hw : w.toInt with
  | ofNat n =>
    rw [hw] at hhigh
    have hn : (n : Int) < 2 ^ 63 := hhigh
    exact size_ofNat_le (by decide) (show n < 10 ^ 20 by omega)
  | negSucc n =>
    rw [hw] at hlow
    have hdigits := size_ofNat_le (by decide) (show n + 1 < 10 ^ 19 by omega)
    have hminus : '-'.utf8Size = 1 := rfl
    rw [ofNat, size_number] at hdigits
    rw [ofInt, Decimal.printInt, size_number, String.utf8Len_cons]
    omega

theorem Json.size_record (members : List (String × Json)) :
    (record members).size =
      1 + max 1 (members.map fun m => (ofText m.1).size + 1 + (m.2.size + 1)).sum := by
  rw [record, size_object, membersSize, List.map_map]
  simp only [size_ofText]
  rfl

theorem UserId.size_toJson (id : UserId) : id.toJson.size = 38 := by
  have hone : ∀ g ∈ Glyph.ofText id.text, g.size = 1 := by
    intro g hg
    obtain ⟨c, hc, rfl⟩ := List.mem_map.mp hg
    rw [text, String.toList_ofList] at hc
    have hall : (('-' :: hexDigits).all fun c => decide ((Glyph.char c).size = 1)) = true := by
      decide
    refine of_decide_eq_true (List.all_eq_true.mp hall c ?_)
    rcases mem_print id hc with hdigit | rfl
    · exact List.mem_cons_of_mem _ hdigit
    · exact List.mem_cons_self
  have hlength : (Glyph.ofText id.text).length = 36 := by
    rw [Glyph.ofText, List.length_map, text, String.toList_ofList, length_print]
  rw [toJson, Json.size_ofText, Json.stringSize, List.map_congr_left hone, List.map_const',
    List.sum_replicate, hlength]
  rfl

/-- What a reward takes besides its hash. -/
theorem Reward.size_toJson_le (r : Reward) : r.toJson.size ≤ (Json.ofText r.hash).size + 165 := by
  have htotal := Json.size_ofNat_le (by decide) (show r.totalResults.toNat < 10 ^ 20 from
    Nat.lt_trans r.totalResults.toNat_lt (by decide))
  have htime := Json.size_ofInt_le r.awardedAtMs
  have hrequester := r.requesterId.size_toJson
  have hnames : (Json.ofText typeKey).size = 6 ∧ (Json.ofText tag).size = 15 ∧
      (Json.ofText "hash").size = 6 ∧ (Json.ofText "requester_id").size = 14 ∧
      (Json.ofText "total_results").size = 15 ∧
      (Json.ofText "awarded_at_unix_ms").size = 20 := by
    decide
  obtain ⟨htype, htag, hhash, hid, hresults, hawarded⟩ := hnames
  rw [toJson, Json.size_record]
  simp only [List.map_cons, List.sum_cons, List.map_nil, List.sum_nil]
  omega

/-! ### Rewards and their results -/

/-- How much longer than its result's frame a reward's may be. -/
def Reward.headroom : Nat := 106

/-- The reward for a result, whatever count it names and whenever it is awarded. -/
def WorkResult.reward (r : WorkResult) (total : UInt64) (awardedAt : Int64) : Reward :=
  ⟨r.hash, r.requesterId, total, awardedAt⟩

/-- **A reward is longer than its result by no more than the headroom**, in whatever spelling the
result came in. -/
theorem size_reward_le {limit : Nat} {text : String} {r : WorkResult}
    (h : WorkerMessage.ofFrame limit text = .ok (.workResult r)) {reward : Reward}
    (hash : reward.hash = r.hash) :
    reward.toJson.print.utf8ByteSize ≤ text.utf8ByteSize + Reward.headroom := by
  have hread : (Json.ofString? text).bind WorkerMessage.ofJson? = some (.workResult r) := by
    rw [WorkerMessage.ofFrame, TextFrame.decode] at h
    split at h
    · cases h
    · split at h
      · rename_i m hm
        cases h
        exact hm
      · cases h
  obtain ⟨j, hj, hresult⟩ := Option.bind_eq_some_iff.mp hread
  have htext := Json.size_ofUnits? hj
  have hleast := WorkerMessage.size_of_ofJson? hresult
  have hmost := reward.size_toJson_le
  rw [Json.unitsSize_text] at htext
  rw [hash] at hmost
  rw [Json.utf8ByteSize_print, Reward.headroom]
  omega

/-- The shortest result has sixty-one bytes, and the longest reward for it takes all the
headroom. -/
example :
    WorkerMessage.ofFrame 61 "[\"work_result\",\"\",\"00000000000000000000000000000002\",\"\",\"\",0]" =
        .ok (.workResult ⟨"", ⟨2⟩, "", "", 0⟩) ∧
      (WorkResult.reward ⟨"", ⟨2⟩, "", "", 0⟩ (-1) Int64.minValue).toJson.print.utf8ByteSize =
        61 + Reward.headroom := by
  decide +kernel

namespace Server

/-! ### Messages that are thrown away -/

section

variable (c : Connection) (s : Server)

@[simp] theorem notices_wake (t : Task) : (s.wake t).notices = s.notices := by
  unfold wake
  split <;> rfl

@[simp] theorem notices_wakeAll (ts : List Task) : (s.wakeAll ts).notices = s.notices := by
  unfold wakeAll
  induction ts generalizing s with
  | nil => rfl
  | cons t ts ih => rw [List.foldl_cons, ih, notices_wake]

@[simp] theorem notices_writeFrame (f : Frame) : (s.writeFrame c f).notices = s.notices := by
  rw [writeFrame, notices_wake]
  rfl

@[simp] theorem notices_setWriter (g : Nat) (w : Writer) :
    (s.setWriter g w).notices = s.notices := rfl

theorem notices_send (l : Link) (f : Frame) (isText : Bool) :
    (s.send c l f isText).notices = s.notices := by
  unfold send writeFailed
  split
  · split <;> rfl
  · simp

theorem notices_beginClose (l : Link) : (s.beginClose c l).notices = s.notices := by
  unfold beginClose
  split <;> simp

theorem notices_release (key : WorkerKey) (g : Nat) :
    (s.release key g).2.notices = s.notices := by
  unfold release
  split
  · rfl
  · exact notices_wakeAll _ _

theorem notices_afterStop : (s.afterStop c).notices = s.notices := by
  unfold afterStop
  split
  · split
    · exact notices_wake _ _
    · rfl
  · rfl

end

/-- A write loop has something to report only of a message that has no frame. -/
theorem notices_writeAs {c : Connection} {s s' : Server} (h : s.writeAs c = some s') :
    s'.notices = s.notices ∨ ∃ m rest e, c.outbox = m :: rest ∧
      m.frame s.hub.maxFrameBytes = .error e := by
  unfold writeAs at h
  obtain ⟨l, -, hstep⟩ := Option.bind_eq_some_iff.mp h
  cases hw : c.writer with
  | idle =>
    simp only [hw] at hstep
    unfold writeIdle at hstep
    split at hstep
    · cases hstep
      exact .inl (notices_beginClose c s l)
    · split at hstep
      · cases hstep
        exact .inl (notices_send ..)
      · split at hstep
        · rename_i m rest hm
          cases hstep
          unfold sendMessage
          split
          · exact .inl (notices_send ..)
          · rename_i e he
            exact .inr ⟨m, rest, e, hm, he⟩
        · cases hstep
  | sending isText =>
    simp only [hw] at hstep
    unfold writeSending writeFailed at hstep
    split at hstep
    · cases hstep
      exact .inl (by split <;> rfl)
    · split at hstep
      · cases hstep
      · cases hstep
        exact .inl (by split <;> rfl)
  | closing untilMs =>
    simp only [hw] at hstep
    unfold writeClosing at hstep
    split at hstep
    · cases hstep
    · cases hstep
      exact .inl rfl
  | leaving =>
    simp only [hw, Option.some.injEq] at hstep
    subst hstep
    refine .inl ?_
    rw [writeLeaving, notices_afterStop, notices_setWriter, notices_release]
  | stopped => simp [hw] at hstep

/-- In an action of its write loop a connection loses a message that is too long. -/
def Discards (a : Action) (s : Server) (c : Connection) (m : ServerMessage) : Prop :=
  a.writer = some c.generation ∧ c.outbox.head? = some m ∧ (s.act a).notices ≠ s.notices

instance (a : Action) (s : Server) (c : Connection) (m : ServerMessage) :
    Decidable (Discards a s c m) := inferInstanceAs (Decidable (_ ∧ _ ∧ _))

theorem Discards.frame_error {a : Action} {s : Server} (hosted : Hosted s) {c : Connection}
    (hc : c ∈ s.connections) {m : ServerMessage} (h : Discards a s c m) :
    ∃ e, m.frame s.hub.maxFrameBytes = .error e := by
  obtain ⟨hwriter, hhead, hnotices⟩ := h
  have hfound := connection?_of_mem hosted hc
  -- what the loop sees of its connection may be out of date, but not the messages
  have hloop {d : Connection} (hd : d.outbox = c.outbox) (hact : s.act a = (s.writeAs d).getD s) :
      ∃ e, m.frame s.hub.maxFrameBytes = .error e := by
    cases hstep : s.writeAs d with
    | none =>
      rw [hact, hstep] at hnotices
      exact absurd rfl hnotices
    | some s' =>
      rw [hact, hstep] at hnotices
      rcases notices_writeAs hstep with hsame | ⟨m', rest, e, hm', he⟩
      · exact absurd hsame hnotices
      · rw [← hd, hm'] at hhead
        cases hhead
        exact ⟨e, he⟩
  cases a with
  | step t =>
    cases t with
    | writer g =>
      cases hwriter
      refine hloop rfl ?_
      rw [act, step, writeStep_eq, hfound]
      rfl
    | _ => cases hwriter
  | writeEarly g ping =>
    cases hwriter
    refine hloop (d := if ping then c.unaware else c.unaware.beforePing s.clock.monoMs) ?_ ?_
    · cases ping <;> rfl
    · rw [act, hfound]
      rfl
  | _ => cases hwriter

end Server

open Server in
/-- Whoever accepted a reward had sent the result that it is for. -/
theorem reward_of_mem_outbox {k : Tags} {origins : List Nat} {t : Trail} {s : Server}
    (ok : Followed k origins t s) {c : Connection} (hc : c ∈ s.connections) {m : ServerMessage}
    (hm : m ∈ c.outbox) {reward : Reward} (hreward : m.reward? = some reward) :
    ∃ d ∈ s.connections, d.key = c.key ∧ ∃ text r, (d.generation, Frame.text text) ∈ t.frames ∧
      WorkerMessage.ofFrame s.hub.maxFrameBytes text = .ok (.workResult r) ∧
      reward.hash = r.hash ∧ reward.requesterId = r.requesterId := by
  have hkept := ok.routed.kept c.endpoint (List.mem_map_of_mem hc)
  have hmem : reward ∈ c.endpoint.rewards := List.mem_filterMap.mpr ⟨m, hm, hreward⟩
  obtain ⟨n, hn, hget⟩ := List.getElem_of_mem hmem
  have htag := (List.forall₂_iff_get.mp hkept).2 n hn ((List.forall₂_iff_get.mp hkept).1 ▸ hn)
  rw [List.get_eq_getElem, hget] at htag
  obtain ⟨e, he, hkey, hhash, hrequester⟩ := htag
  obtain ⟨i, hi, -⟩ := exists_origin ok.account ok.source (List.getElem?_eq_some_iff.mp he).1
  obtain ⟨d, hd, hdkey, herequester, text, hframe, hdecodes⟩ :=
    consumed_cameFrom ok.account ok.source he hi
  exact ⟨d, hd, hdkey.symm.trans hkey, text, e.result, List.mem_of_getElem? hframe, hdecodes,
    hhash, hrequester.trans herequester⟩

/--
**A reward is lost for its length only if its result came too close to the limit.**

  * Whatever text a result was accepted in, the reward for it has a frame under a limit that is
    higher by the headroom, and under the same limit if the text was shorter by the headroom;
    and this whatever count the reward names and whenever it is awarded.
  * Whatever happens to a supervised server, unless a caller sends rewards of its own, each
    reward that a connection has accepted is for a result that came in under its key, and if its
    write loop throws the reward away, then the text of that result was within the headroom of
    the limit.
-/
theorem rewards_within_headroom :
    (∀ (limit : Nat) (text : String) (r : WorkResult),
      WorkerMessage.ofFrame limit text = .ok (.workResult r) →
      ∀ (total : UInt64) (awardedAt : Int64),
        let m := ServerMessage.rewardEarned (r.reward total awardedAt)
        m.frame (limit + Reward.headroom) = .ok m.toJson.print ∧
        (text.utf8ByteSize + Reward.headroom ≤ limit → m.frame limit = .ok m.toJson.print)) ∧
    ∀ (hub : HubSettings) (payout : Payout) (capacity : Nat) (store : Store) (clock : Clock)
      (actions : List Server.Action),
      (∀ a ∈ actions, a.isSupervised = true ∧ a.bringsReward = false) →
      let s₀ := Server.start hub payout capacity store clock
      let s := s₀.after actions
      ∀ c ∈ s.connections, ∀ m ∈ c.outbox, ∀ reward, m.reward? = some reward →
        ∃ d ∈ s.connections, d.key = c.key ∧ ∃ text r,
          (d.generation, Server.Frame.text text) ∈ (Server.trail actions s₀ {}).frames ∧
          WorkerMessage.ofFrame hub.maxFrameBytes text = .ok (.workResult r) ∧
          reward.hash = r.hash ∧ reward.requesterId = r.requesterId ∧
          ∀ a, Server.Discards a s c m →
            hub.maxFrameBytes < text.utf8ByteSize + Reward.headroom := by
  constructor
  · intro limit text r hread total awardedAt m
    have hle : m.toJson.print.utf8ByteSize ≤ text.utf8ByteSize + Reward.headroom :=
      size_reward_le hread rfl
    have hlimit : text.utf8ByteSize ≤ limit := by
      by_contra hlong
      rw [WorkerMessage.ofFrame, TextFrame.decode, if_pos (Nat.lt_of_not_le hlong)] at hread
      cases hread
    simp only [ServerMessage.frame, TextFrame.encode_eq]
    refine ⟨if_pos ?_, fun hroom => if_pos (hle.trans hroom)⟩
    exact hle.trans (Nat.add_le_add_right hlimit _)
  · intro hub payout capacity store clock actions supervised s₀ s c hc m hm reward hreward
    have hosted₀ : Server.Hosted s₀ := Server.hosted_after rfl rfl []
    have hosted : Server.Hosted s := Server.hosted_after rfl rfl actions
    obtain ⟨k, origins, ok⟩ :=
      Server.followed_after hosted₀ (Server.followed_start rfl rfl rfl) supervised
    have hhub : s.hub = hub := Server.hub_after hosted₀ actions
    obtain ⟨d, hd, hkey, text, r, hframe, hdecodes, hhash, hrequester⟩ :=
      reward_of_mem_outbox ok hc hm hreward
    rw [hhub] at hdecodes
    refine ⟨d, hd, hkey, text, r, hframe, hdecodes, hhash, hrequester, fun a hdiscards => ?_⟩
    -- a message that is thrown away is longer than the limit, and no longer than its result allows
    obtain ⟨e, he⟩ := hdiscards.frame_error hosted hc
    obtain rfl : m = .rewardEarned reward := by
      cases m with
      | workGenerate o => cases hreward
      | rewardEarned r' => cases hreward; rfl
    have hle := size_reward_le hdecodes hhash
    rw [hhub, ServerMessage.frame, TextFrame.encode_eq] at he
    split at he
    · cases he
    · rename_i hlong
      exact Nat.lt_of_lt_of_le (Nat.lt_of_not_le hlong) hle

/-- The limit leaves a result enough headroom, so the reward that is accepted for it is not thrown
away, whatever the write loop does next. -/
theorem rewards_within_headroom_once :
    let hub : HubSettings := { maxFrameBytes := 300 }
    let result : WorkResult := ⟨"request", ⟨2⟩, "hash", "work", 1⟩
    let text := (WorkerMessage.workResult result).toJson.print
    let m := ServerMessage.rewardEarned (result.reward 1 5)
    let link : Server.Link := { room := 1000, incoming := [.text text] }
    let actions : List Server.Action := [.connect link,
      .register ⟨"00000000-0000-0000-0000-000000000001:0"⟩ 0, .step (.reader 1), .step (.reader 1),
      .step .aggregator, .step .notifier]
    let s₀ := Server.start hub {} 1 (.memory {}) (.atMs 5)
    WorkerMessage.ofFrame hub.maxFrameBytes text = .ok (.workResult result) ∧
      text.utf8ByteSize + Reward.headroom ≤ hub.maxFrameBytes ∧
      m.frame hub.maxFrameBytes = .ok m.toJson.print ∧
      (∀ a ∈ actions, a.isSupervised = true ∧ a.bringsReward = false) ∧
      ∃ c ∈ (s₀.after actions).connections, m ∈ c.outbox ∧
        ∀ a, ¬ Server.Discards a (s₀.after actions) c m := by
  intro hub result text m link actions s₀
  have hread : WorkerMessage.ofFrame hub.maxFrameBytes text = .ok (.workResult result) := by
    decide +kernel
  have hroom : text.utf8ByteSize + Reward.headroom ≤ hub.maxFrameBytes := by decide +kernel
  have hsupervised : ∀ a ∈ actions, a.isSupervised = true ∧ a.bringsReward = false := by
    decide +kernel
  obtain ⟨hframes, haccepted⟩ : (Server.trail actions s₀ {}).frames = [(1, .text text)] ∧
      ∃ c ∈ (s₀.after actions).connections, m ∈ c.outbox := by decide +kernel
  obtain ⟨hcodec, hruns⟩ := rewards_within_headroom
  refine ⟨hread, hroom, (hcodec _ text result hread 1 5).2 hroom, hsupervised, ?_⟩
  obtain ⟨c, hc, hm⟩ := haccepted
  obtain ⟨d, -, -, text', r, hframe, -, -, -, hdiscards⟩ :=
    hruns hub {} 1 (.memory {}) (.atMs 5) actions hsupervised c hc m hm _ rfl
  refine ⟨c, hc, hm, fun a hlost => ?_⟩
  have hmem : (d.generation, Server.Frame.text text') ∈ (Server.trail actions s₀ {}).frames :=
    hframe
  rw [hframes, List.mem_singleton] at hmem
  obtain rfl : text' = text := Server.Frame.text.inj (congrArg Prod.snd hmem)
  exact absurd hroom (Nat.not_le.mpr (hdiscards a hlost))

/-- A result of sixty-one bytes, in the shortest spelling there is, is accepted under a limit of a
hundred bytes, and its reward is counted as delivered.  The write loop then throws it away. -/
theorem short_result_loses_reward :
    let hub : HubSettings := { maxFrameBytes := 100 }
    let text := "[\"work_result\",\"\",\"00000000000000000000000000000002\",\"\",\"\",0]"
    let r : WorkResult := ⟨"", ⟨2⟩, "", "", 0⟩
    let m := ServerMessage.rewardEarned (r.reward 1 5)
    let link : Server.Link := { room := 1000, incoming := [.text text] }
    let actions : List Server.Action := [.connect link,
      .register ⟨"00000000-0000-0000-0000-000000000001:0"⟩ 0, .step (.reader 1), .step (.reader 1),
      .step .aggregator, .step .notifier]
    let s := (Server.start hub {} 1 (.memory {}) (.atMs 5)).after actions
    text.utf8ByteSize = 61 ∧
      WorkerMessage.ofFrame hub.maxFrameBytes text = .ok (.workResult r) ∧
      m.frame hub.maxFrameBytes = .error (.tooLarge 129 100) ∧
      s.tally.get .rewardsDelivered = 1 ∧
      ∃ c ∈ s.connections, Server.Discards (.step (.writer 1)) s c m ∧
        (s.act (.step (.writer 1))).notices = [.encodingFailed c.key] := by
  decide +kernel

end Foreman
