/-
The frame of an order is about as long as the body that asked for it.

Of what an order says only the hash may be of any length, and the hash is what a string literal
in the body says.  It is printed in no more bytes than that literal has, so an order is longer
than its body by the rest of its frame at most, and that is a constant.  A body that is accepted
is far enough from the default limit of a frame for all of it, and so no write loop under that
limit throws an order away.
-/
import Foreman.Proofs.Http.Submission
import Foreman.Proofs.Json.Literal
import Foreman.Proofs.Server.Headroom

namespace Foreman

open Text

namespace Json

/-! ### The values of a record -/

/-- The strings of the values of a record are strings of the record. -/
theorem strings_values? {P : List Glyph → Prop} {names : List String} {j : Json} {vs : List Json}
    (hj : Strings P j) (h : j.values? names = some vs) : ∀ v ∈ vs, Strings P v := by
  cases hj with
  | array hitems =>
    rw [values?] at h
    split at h
    · cases h
      exact hitems
    · cases h
  | object hnames hvalues =>
    obtain ⟨ms, hms, hchosen⟩ := Option.bind_eq_some_iff.mp h
    obtain ⟨chosen, -, rfl, hsub⟩ := exists_members hchosen
    intro v hv
    obtain ⟨k, hk, rfl⟩ := List.mem_map.mp hv
    obtain ⟨i, hi, hget⟩ := List.getElem_of_mem (hsub hk)
    have hnamed := List.forall₂_iff_get.mp (forall₂_named? hms)
    have hpair := hnamed.2 i (hnamed.1 ▸ hi) hi
    rw [List.get_eq_getElem, List.get_eq_getElem, hget] at hpair
    rw [hpair.2]
    exact hvalues _ (List.getElem_mem _)
  | _ => cases h

end Json

/-! ### The most that an order takes -/

/-- What an order takes at most besides its hash. -/
def WorkOrder.overhead : Nat := 173

theorem WorkOrder.size_toJson_le {o : WorkOrder} {id : UserId} (hid : o.requestId = id.text) :
    o.toJson.size ≤ (Json.ofText o.hash).size + overhead := by
  have hrequest : (Json.ofText o.requestId).size = 38 := hid ▸ id.size_toJson
  have hrequester := o.requesterId.size_toJson
  have hdifficulty := Json.size_ofNat_le (by decide)
    (show o.difficultyMultiplier.toNat < 10 ^ 10 from
      Nat.lt_trans o.difficultyMultiplier.toNat_lt (by decide))
  have hnames : (Json.ofText typeKey).size = 6 ∧ (Json.ofText tag).size = 15 ∧
      (Json.ofText "request_id").size = 12 ∧ (Json.ofText "requester_id").size = 14 ∧
      (Json.ofText "hash").size = 6 ∧ (Json.ofText "difficulty_multiplier").size = 23 := by
    decide
  obtain ⟨htype, htag, hrequestName, hrequesterName, hhash, hdifficultyName⟩ := hnames
  rw [toJson, Json.size_record, overhead]
  simp only [List.map_cons, List.sum_cons, List.map_nil, List.sum_nil]
  omega

namespace Http

/-! ### Bodies and their orders -/

/-- **The hash of a request is what a literal in its body says.** -/
theorem Asks.exists_literal {body : List UInt8} {w : WorkRequest} (h : Asks body w) :
    ∃ literal : String, literal.toList.map some <:+: unitsOfBytes body ∧
      (Json.ofString? literal).bind Json.text? = some w.hash := by
  obtain ⟨j, hj, hrequest⟩ := Option.bind_eq_some_iff.mp h.reads
  unfold WorkRequest.ofJson? at hrequest
  split at hrequest
  · rename_i hash difficulty hvalues
    obtain ⟨text, htext, hrest⟩ := Option.bind_eq_some_iff.mp hrequest
    obtain ⟨n, -, heq⟩ := Option.bind_eq_some_iff.mp hrest
    cases heq
    have hstrings := Json.strings_values? (Json.literals_ofUnits? hj) hvalues hash
      List.mem_cons_self
    cases hstrings with
    | string hglyphs =>
      obtain ⟨literal, hinfix, hread⟩ := hglyphs text htext
      exact ⟨literal, hinfix, by rw [hread]; exact htext⟩
    | _ => cases htext
  · cases hrequest

/-- **An order is longer than the body that asks for it by the rest of its frame at most.** -/
theorem Asks.size_order_le {body : List UInt8} {w : WorkRequest} (h : Asks body w)
    (id requester : UserId) :
    (w.order id.text requester).toJson.print.utf8ByteSize ≤ body.length + WorkOrder.overhead := by
  obtain ⟨literal, hinfix, hread⟩ := h.exists_literal
  obtain ⟨j, hj, hhash⟩ := Option.bind_eq_some_iff.mp hread
  have hliteral := Json.utf8ByteSize_ofText_le hj hhash
  have hbody := Json.utf8ByteSize_le_length hinfix
  have horder : (w.order id.text requester).toJson.size ≤
      (Json.ofText w.hash).size + WorkOrder.overhead := WorkOrder.size_toJson_le rfl
  rw [Json.utf8ByteSize_print] at hliteral ⊢
  omega

/-- Under the default limit the order has a frame. -/
theorem Asks.frame_order {body : List UInt8} {w : WorkRequest} (h : Asks body w)
    (id requester : UserId) :
    let m := ServerMessage.workGenerate (w.order id.text requester)
    m.toJson.print.utf8ByteSize < TextFrame.defaultLimit ∧
      m.frame TextFrame.defaultLimit = .ok m.toJson.print := by
  intro m
  have hle : m.toJson.print.utf8ByteSize ≤ body.length + WorkOrder.overhead :=
    h.size_order_le id requester
  have hsize := h.size
  have hlt : m.toJson.print.utf8ByteSize < TextFrame.defaultLimit := by
    simp only [WorkOrder.overhead] at hle
    simp only [TextFrame.defaultLimit]
    omega
  refine ⟨hlt, ?_⟩
  rw [ServerMessage.frame, TextFrame.encode_eq]
  exact if_pos hlt.le

namespace Service

/-! ### Orders and the write loops -/

/-- The ids of requests come from one supply. -/
theorem requestId_handle (r : Request) (peer : Net.SocketAddr) (link : Nat) (s : Service) :
    (s.handle r peer link).2.requestId = s.requestId := by
  have hnoted {s' : Service} (noted : Noted s s') : s'.requestId = s.requestId := by
    obtain ⟨tally, notices, rfl, -⟩ := noted
    rfl
  have hhandling := handling_handle r peer link s
  generalize s.handle r peer link = x at hhandling
  cases hhandling with
  | illegible _ noted => exact hnoted noted
  | refused _ _ noted => exact hnoted noted
  | failed _ _ noted => exact hnoted noted
  | @routed caller _ s' noted =>
    rw [← hnoted noted]
    unfold route upgradeWorker submitWork
    repeat' split
    all_goals rfl

/-- What no occurrence changes: the hub's rules, its limit among them, and the supply of ids. -/
structure Ruled (s s' : Service) : Prop where
  hosted : Server.Hosted s'.server
  hub : s'.server.hub = s.server.hub
  requestId : s'.requestId = s.requestId

theorem Ruled.trans {s₁ s₂ s₃ : Service} (h₁ : Ruled s₁ s₂) (h₂ : Ruled s₂ s₃) : Ruled s₁ s₃ :=
  ⟨h₂.hosted, h₂.hub.trans h₁.hub, h₂.requestId.trans h₁.requestId⟩

theorem ruled_handle {s : Service} (hosted : Server.Hosted s.server) (r : Request)
    (peer : Net.SocketAddr) (link : Nat) : Ruled s (s.handle r peer link).2 := by
  obtain ⟨hhosted, hhub⟩ :=
    server_handle (P := fun v => Server.Hosted v ∧ v.hub = s.server.hub)
      (fun _ _ _ hv => ⟨hv.1.between ⟨rfl, rfl⟩, hv.2⟩)
      (fun _ _ _ hv => ⟨Server.hosted_act _ hv.1, (Server.hub_act hv.1 _).trans hv.2⟩)
      (fun _ _ hv => ⟨Server.hosted_act _ hv.1, (Server.hub_act hv.1 _).trans hv.2⟩)
      ⟨hosted, rfl⟩ r peer link
  exact ⟨hhosted, hhub, requestId_handle r peer link s⟩

theorem ruled_happen {s : Service} (hosted : Server.Hosted s.server) (o : Occurrence) :
    Ruled s (s.happen o) := by
  cases o with
  | request r peer l =>
    have hlinked : Ruled s (s.modifyServer fun v => (v.addLink l).2) :=
      ⟨hosted.between ⟨rfl, rfl⟩, rfl, rfl⟩
    exact hlinked.trans (ruled_handle hlinked.hosted r peer (s.server.addLink l).1)
  | server a => exact ⟨Server.hosted_act a hosted, Server.hub_act hosted a, rfl⟩
  | outage o => exact ⟨hosted, rfl, rfl⟩
  | contents store => exact ⟨hosted.between ⟨rfl, rfl⟩, rfl, rfl⟩

theorem ruled_after {s : Service} (hosted : Server.Hosted s.server) (run : List Occurrence) :
    Ruled s (s.after run) :=
  after_induction (fun o _ h => h.trans (ruled_happen h.hosted o)) ⟨hosted, rfl, rfl⟩ run

/--
**No work request that is accepted is lost for its length.**

  * Whatever literal a text is read from, it is printed as a literal in no more bytes.
  * The hash of a body that is accepted is what a literal in the body says, and the order for it
    is longer than the body by a constant at most, whatever id it has and whoever asks for it.  It
    is shorter than the default limit, so under that limit it has a frame.
  * After any run of a service under the default limit, when a request is accepted, no write loop
    ever throws the order away, whatever happens from then on.
-/
theorem accepted_work_fits_frame :
    (∀ (literal : String) (j : Json) (s : String),
      Json.ofString? literal = some j → j.text? = some s →
      (Json.ofText s).print.utf8ByteSize ≤ literal.utf8ByteSize) ∧
    (∀ (body : List UInt8) (w : WorkRequest), Asks body w →
      (∃ literal : String, literal.toList.map some <:+: unitsOfBytes body ∧
        (Json.ofString? literal).bind Json.text? = some w.hash) ∧
      ∀ id requester : UserId,
        let m := ServerMessage.workGenerate (w.order id.text requester)
        m.toJson.print.utf8ByteSize ≤ body.length + WorkOrder.overhead ∧
        m.toJson.print.utf8ByteSize < TextFrame.defaultLimit ∧
        m.frame TextFrame.defaultLimit = .ok m.toJson.print) ∧
    ∀ (hub : HubSettings) (payout : Payout) (queueCapacity : Nat) (store : Store) (clock : Clock)
      (settings : Auth.Settings) (ids : Nat → UserId) (run : List Occurrence),
      hub.maxFrameBytes = TextFrame.defaultLimit →
      let s := (start hub payout queueCapacity store clock settings fun n => (ids n).text).after run
      ∀ (r : Request) (peer : Net.SocketAddr) (link : Nat) (who : Option Auth.Caller)
        (caller : Auth.Caller) (w : WorkRequest), s.Resolves r peer who → Orders r who caller w →
      ∀ later : List Occurrence,
        let t := (s.handle r peer link).2.after later
        ∀ c ∈ t.server.connections, ∀ a,
          ¬ Server.Discards a t.server c (s.orderFrom caller w) := by
  refine ⟨fun literal j s => Json.utf8ByteSize_ofText_le, ?_, ?_⟩
  · intro body w asks
    exact ⟨asks.exists_literal, fun id requester =>
      ⟨asks.size_order_le id requester, asks.frame_order id requester⟩⟩
  · intro hub payout queueCapacity store clock settings ids run hlimit s r peer link who caller w
      _ orders later t c hc a hdiscards
    let s₀ := start hub payout queueCapacity store clock settings fun n => (ids n).text
    have hosted₀ : Server.Hosted s₀.server := hosted_after hub payout queueCapacity store clock
      settings (fun n => (ids n).text) []
    have hs : Ruled s₀ s := ruled_after hosted₀ run
    have hx : Ruled s (s.handle r peer link).2 := ruled_handle hs.hosted r peer link
    have ht : Ruled s₀ t := hs.trans (hx.trans (ruled_after hx.hosted later))
    have hlimit' : t.server.hub.maxFrameBytes = TextFrame.defaultLimit := by
      rw [ht.hub]
      exact hlimit
    have horder : s.orderFrom caller w =
        .workGenerate (w.order (ids (s.accepted + 1)).text caller.identity.id) := by
      rw [orderFrom, hs.requestId]
      rfl
    obtain ⟨-, hframe⟩ := orders.asks.frame_order (ids (s.accepted + 1)) caller.identity.id
    obtain ⟨e, he⟩ := hdiscards.frame_error ht.hosted hc
    rw [hlimit', horder, hframe] at he
    cases he

/-- A request without the names of its members, its hash spelled by numbers, is accepted, and its
order waits for the one worker there is; the write loop does not throw it away. -/
theorem accepted_work_fits_frame_spelled :
    let app : Identity := ⟨⟨2⟩, "app@example.com", true, true, .requester⟩
    let body := utf8 "[ \"\\u0041\\u00e9\\/\", 7 ]"
    let w : WorkRequest := ⟨"Aé/", 7⟩
    let r : Request := {
      method := "POST", target := "/v1/work", headers := [("authorization", "service:a")]
      body := body }
    let peer : Net.SocketAddr := .v4 ⟨127, 0, 0, 1⟩ 80
    let store : Store := .memory {
      identities := [app], bindings := [("service:a", app.id.text)] }
    let run : List Occurrence := [.server (.connect { room := 1000 }),
      .server (.register ⟨"a"⟩ 0)]
    let s := (start {} {} 1 store (.atMs 0) { serviceTokens := ["service:a"] }
      fun _ => UserId.text ⟨1⟩).after run
    let m := ServerMessage.workGenerate (w.order (UserId.text ⟨1⟩) app.id)
    let t := (s.handle r peer 1).2
    Asks body w ∧ m.toJson.print.utf8ByteSize ≤ body.length + WorkOrder.overhead ∧
      s.Resolves r peer (some ⟨app, .serviceToken⟩) ∧
      Orders r (some ⟨app, .serviceToken⟩) ⟨app, .serviceToken⟩ w ∧
      ∃ c ∈ t.server.connections, m ∈ c.outbox ∧ ∀ a, ¬ Server.Discards a t.server c m := by
  intro app body w r peer store run s m t
  have hreads : (Json.ofUnits? (unitsOfBytes body)).bind WorkRequest.ofJson? = some w := by
    rw [unitsOfBytes_utf8]
    decide +kernel
  have hasks : Asks body w := ⟨by decide +kernel, hreads, by decide +kernel, by decide⟩
  have hheader : Headers.first? r.headers "authorization" = some "service:a" := by
    have hname : "authorization".toLower = "authorization" := by decide +kernel
    simp [r, Headers.first?, Headers.all, hname]
  have hresolves : s.Resolves r peer (some ⟨app, .serviceToken⟩) := by
    constructor
    · show (Headers.first? r.headers "authorization").all isReadable = true
      rw [hheader]
      decide +kernel
    · show (Auth.resolve _ _ _ _ (Headers.first? r.headers "authorization")).outcome = _
      rw [hheader]
      decide +kernel
  have horders : Orders r (some ⟨app, .serviceToken⟩) ⟨app, .serviceToken⟩ w :=
    ⟨rfl, by decide +kernel, .inr (by decide +kernel), hasks⟩
  obtain ⟨-, hbodies, hruns⟩ := accepted_work_fits_frame
  have hdiscards := hruns {} {} 1 store (.atMs 0) { serviceTokens := ["service:a"] }
    (fun _ => ⟨1⟩) run rfl r peer 1 _ _ w hresolves horders []
  refine ⟨hasks, ((hbodies body w hasks).2 ⟨1⟩ app.id).1, hresolves, horders, ?_⟩
  have hqueued : ∃ c ∈ t.server.connections, m ∈ c.outbox := by
    decide +kernel
  obtain ⟨c, hc, hm⟩ := hqueued
  exact ⟨c, hc, hm, hdiscards c hc⟩

end Service

end Http

end Foreman
