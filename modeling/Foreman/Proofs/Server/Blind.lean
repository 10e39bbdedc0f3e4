/-
What workers write has no part in the rewards.

Two runs go side by side: the same happens in both, at the same times, but for the contents of
the frames that the workers send.  Where results stand in corresponding frames, with hashes of
one length, and otherwise frames that do the same to a connection, the two servers stay twins,
and so the rewards are the same but for what they repeat of a result.

The lengths matter.  A long reward takes longer to go out than a short one, so a write loop
may find a worker gone that it would not have missed yet, and with the connection the results
that were not read are lost.  That is the only way for them to matter: as long as the same
connections are registered and frames of the same kinds wait, the rewards are the same
whatever the lengths are.
-/
import Foreman.Proofs.Server.Delivery
import Foreman.Proofs.Server.TwinStep

namespace Foreman.Server

/-! ### What is done to a server -/

/-- What a worker does to its end of a socket. -/
inductive Deed where
  | send (f : Frame)
  /-- It begins to read. -/
  | wake
  /-- Its socket disappears. -/
  | drop
  /-- It hands over its reports. -/
  | report

/-- What a deed makes of a link. -/
def Deed.apply : Deed → Link → Link
  | send f, l => (l.send f).2
  | wake, l => l.wake
  | drop, l => l.dropPeer
  | report, l => l.takeReports.2

/-- What is done to a server, by a worker at the other end of a link or otherwise. -/
inductive Input where
  | worker (link : Nat) (deed : Deed)
  | act (a : Action)

/-- The action that an input is. -/
def Input.action (s : Server) : Input → Action
  | worker n deed => .remote n ((s.link? n).elim { room := 0 } deed.apply)
  | act a => a

/-- The run that inputs lead to. -/
def run : List Input → Server → List Action
  | [], _ => []
  | i :: rest, s => i.action s :: run rest (s.act (i.action s))

/-- The rewards that the aggregator queues in a run, the first one first. -/
def rewardsEmitted : List Action → Server → List RewardEvent
  | [], _ => []
  | a :: rest, s => s.emits a ++ rewardsEmitted rest (s.act a)

/-- The same is done, but that a worker sends one frame in place of another. -/
inductive Input.Alike (R : Frame → Frame → Prop) : Input → Input → Prop where
  | same (i : Input) : Alike R i i
  | send (n : Nat) {f g : Frame} (h : R f g) : Alike R (.worker n (.send f)) (.worker n (.send g))

/-- A frame holds a message of a worker. -/
def Frame.decodes (limit : Nat) : Frame → Bool
  | text t => (WorkerMessage.ofFrame limit t).isOk
  | _ => false

/-! ### Twins -/

theorem Frame.Twin.close_beq {limit : Nat} {f g : Frame} (h : f.Twin limit g) :
    (g == .close) = (f == .close) := by
  have hidle {f : Frame} (hf : f.isIdle limit = true) : (f == .close) = false := by
    cases f with
    | close => cases hf
    | _ => rfl
  cases h with
  | result _ _ _ => rfl
  | ping _ => rfl
  | close => rfl
  | idle hf hg => rw [hidle hf, hidle hg]

namespace Link.Twin

variable {limit : Nat} {l k : Link}

theorem send (h : Link.Twin limit l k) {f g : Frame} (twin : f.Twin limit g) :
    Link.Twin limit (l.send f).2 (k.send g).2 := by
  have hrefused : (k.peer.closing || k.peer.finished || k.serverGone) =
      (l.peer.closing || l.peer.finished || l.serverGone) := by
    rw [h.closing, h.finished, h.serverGone]
  unfold Link.send
  rw [h.gone, hrefused]
  split
  · exact h
  · split
    · exact h
    · exact { h with
        incoming := List.rel_append h.incoming (.cons twin .nil)
        closing := by rw [h.closing, twin.close_beq] }

theorem apply (h : Link.Twin limit l k) (deed : Deed) :
    Link.Twin limit (deed.apply l) (deed.apply k) := by
  cases deed with
  | send f => exact h.send (.refl limit f)
  | wake => exact { h with reading := rfl }
  | drop => exact { h with gone := rfl }
  | report => exact { h with }

end Link.Twin

namespace Twin

variable {s t : Server}

theorem emits (h : Twin s t) (a : Action) :
    List.Forall₂ RewardEvent.Twin (s.emits a) (t.emits a) := by
  unfold Server.emits come
  split
  · rw [h.rewards.length_eq]
    exact List.forall₂_drop _ (h.act _).rewards
  · exact .nil

theorem worker (h : Twin s t) (n : Nat) {deed deed' : Deed}
    (hdeed : ∀ l k, Link.Twin s.hub.maxFrameBytes l k →
      Link.Twin s.hub.maxFrameBytes (deed.apply l) (deed'.apply k)) :
    Twin (s.act ((Input.worker n deed).action s)) (t.act ((Input.worker n deed').action t)) := by
  have hlink := h.link? n
  simp only [Input.action]
  generalize s.link? n = found, t.link? n = found' at hlink ⊢
  cases hlink with
  | none => exact h.act _
  | some hlk => exact h.remote n (hdeed _ _ hlk)

/-- An input leaves twins, and the rewards that come of it are twins. -/
theorem input (h : Twin s t) {i j : Input}
    (alike : Input.Alike (Frame.Twin s.hub.maxFrameBytes) i j) :
    Twin (s.act (i.action s)) (t.act (j.action t)) ∧
      List.Forall₂ RewardEvent.Twin (s.emits (i.action s)) (t.emits (j.action t)) := by
  cases alike with
  | same i =>
    cases i with
    | worker n deed => exact ⟨h.worker n fun _ _ hlk => hlk.apply deed, .nil⟩
    | act a => exact ⟨h.act a, h.emits a⟩
  | send n hfg => exact ⟨h.worker n fun _ _ hlk => hlk.send hfg, .nil⟩

/-- Twins stay twins in runs that inputs lead to which are alike. -/
theorem run (h : Twin s t) (hosted : Hosted s) {xs ys : List Input}
    (alike : List.Forall₂ (Input.Alike (Frame.Twin s.hub.maxFrameBytes)) xs ys) :
    Twin (s.after (s.run xs)) (t.after (t.run ys)) ∧
      List.Forall₂ RewardEvent.Twin (rewardsEmitted (s.run xs) s)
        (rewardsEmitted (t.run ys) t) := by
  induction xs generalizing s t ys with
  | nil =>
    cases alike
    exact ⟨h, .nil⟩
  | cons i xs ih =>
    obtain ⟨j, ys, hij, hrest, rfl⟩ := List.forall₂_cons_left_iff.mp alike
    obtain ⟨hnext, hemits⟩ := h.input hij
    rw [← hub_act hosted (i.action s)] at hrest
    obtain ⟨hafter, hlater⟩ := ih hnext (hosted_act _ hosted) hrest
    exact ⟨hafter, List.rel_append hemits hlater⟩

end Twin

/--
**Nothing that a worker writes decides whether a reward is paid, or to whom.**  Take two runs
of a server in which the same is done in the same order, at the same times, but that the workers
send other frames: a result for a result, with a hash of the same length in bytes and with any
other contents; a ping for a ping of the same length; a close for a close; and for any frame that
is none of these another that is none.  Then

  * the aggregator emits as many rewards in one run as in the other, the first to the same
    worker, the second to the same worker, and so on, and each says the same number of results
    and the same time;
  * for every provider the stores have counted the same number of results in the end, and the
    same connections are registered.
-/
theorem rewards_blind_to_contents (hub : HubSettings) (payout : Payout) (capacity : Nat)
    (store : Store) (clock : Clock) {xs ys : List Input}
    (alike : List.Forall₂ (Input.Alike (Frame.Twin hub.maxFrameBytes)) xs ys) :
    let s₀ := start hub payout capacity store clock
    let as := s₀.run xs
    let bs := s₀.run ys
    (rewardsEmitted bs s₀).map RewardEvent.terms = (rewardsEmitted as s₀).map RewardEvent.terms ∧
      (∀ p, (s₀.after bs).store.results p = (s₀.after as).store.results p) ∧
      (s₀.after bs).registry = (s₀.after as).registry := by
  intro s₀ as bs
  have htwin : Twin s₀ s₀ :=
    ⟨rfl, rfl, rfl, rfl, .nil, .nil, ⟨.nil, rfl, rfl, rfl⟩, rfl, rfl, .nil, rfl, rfl, rfl, rfl⟩
  obtain ⟨hafter, hrewards⟩ := htwin.run (hosted_after rfl rfl []) alike
  have hterms : List.Forall₂ Eq ((rewardsEmitted bs s₀).map RewardEvent.terms)
      ((rewardsEmitted as s₀).map RewardEvent.terms) :=
    List.rel_map (fun _ _ hrq => hrq.terms) hrewards.flip
  refine ⟨?_, fun p => ?_, hafter.registry⟩
  · rwa [List.forall₂_eq_eq_eq] at hterms
  · rw [Store.results_eq, Store.results_eq, hafter.books]

/-- A worker that claims rewards for results of its own making gets the same as an honest one. -/
theorem rewards_blind_to_contents_claimed :
    let key : WorkerKey := ⟨"00000000-0000-0000-0000-000000000001:0"⟩
    let said (hash : String) (requester : UserId) (more : List (String × Json)) : Frame :=
      .text (Json.record ([("type", .ofText "work_result"), ("request_id", .ofText "request"),
        ("requester_id", requester.toJson), ("hash", .ofText hash), ("work", .ofText "work"),
        ("difficulty_multiplier", .ofNat 1)] ++ more)).print
    let inputs (f g : Frame) : List Input :=
      .act (.connect { room := 1000 }) :: .act (.register key 0) :: .worker 0 (.send f) ::
        .worker 0 (.send g) :: [Task.reader 1, .reader 1, .reader 1, .aggregator].map
          fun task => .act (.step task)
    let honest := inputs (.text "noise") (said "a" ⟨2⟩ [])
    let claiming := inputs (.binary [0]) (said "x" ⟨3⟩ [("block_awarded", .bool true)])
    let s₀ := start {} {} 1 (.memory {}) (.atMs 5)
    List.Forall₂ (Input.Alike (Frame.Twin ({} : HubSettings).maxFrameBytes)) honest claiming ∧
      rewardsEmitted (s₀.run honest) s₀ = [⟨key, .rewardEarned ⟨"a", ⟨2⟩, 1, 5⟩⟩] ∧
      (rewardsEmitted (s₀.run claiming) s₀).map RewardEvent.terms = [(key, some (1, 5))] := by
  intro key said inputs honest claiming s₀
  have hnoise : Frame.Twin ({} : HubSettings).maxFrameBytes (.text "noise") (.binary [0]) :=
    .idle (by decide +kernel) rfl
  have hsaid : Frame.Twin ({} : HubSettings).maxFrameBytes (said "a" ⟨2⟩ [])
      (said "x" ⟨3⟩ [("block_awarded", .bool true)]) :=
    .result (r := ⟨"request", ⟨2⟩, "a", "work", 1⟩) (q := ⟨"request", ⟨3⟩, "x", "work", 1⟩)
      (by decide +kernel) (by decide +kernel) (by decide +kernel)
  have halike : List.Forall₂ (Input.Alike (Frame.Twin ({} : HubSettings).maxFrameBytes)) honest
      claiming :=
    .cons (.same _) <| .cons (.same _) <| .cons (.send 0 hnoise) <| .cons (.send 0 hsaid) <|
      List.forall₂_same.mpr fun i _ => .same i
  have hhonest : rewardsEmitted (s₀.run honest) s₀ = [⟨key, .rewardEarned ⟨"a", ⟨2⟩, 1, 5⟩⟩] := by
    decide +kernel
  obtain ⟨hterms, -, -⟩ := rewards_blind_to_contents {} {} 1 (.memory {}) (.atMs 5) halike
  have hclaiming : (rewardsEmitted (s₀.run claiming) s₀).map RewardEvent.terms =
      (rewardsEmitted (s₀.run honest) s₀).map RewardEvent.terms := hterms
  rw [hhonest] at hclaiming
  exact ⟨halike, hhonest, hclaiming⟩

/-- What has a length has to have the same in both runs, or rewards are lost: the pipe to a worker
that does not read has room for a reward with a short hash, and the write loop is done with it
before the worker's socket disappears; so it does not miss the worker, and another result is
read.  It has no room for a reward with a long hash, nor for one behind the answer to a ping.
A close ends the reading at once. -/
theorem rewards_not_blind_to_lengths :
    let key : WorkerKey := ⟨"00000000-0000-0000-0000-000000000001:0"⟩
    let said (hash : String) : Frame :=
      .text (Json.array [.ofText "work_result", .ofText "",
        .ofText "00000000000000000000000000000002", .ofText hash, .ofText "", .ofNat 0]).print
    let inputs (f : Frame) (hash : String) : List Input :=
      let steps (tasks : List Task) : List Input := tasks.map fun task => .act (.step task)
      .act (.connect { room := 134, peer := { reading := false } }) :: .act (.register key 0) ::
        .worker 0 (.send f) :: .worker 0 (.send (said hash)) :: .worker 0 (.send (said "b")) ::
        (steps [.reader 1, .reader 1, .reader 1, .aggregator, .notifier, .writer 1, .writer 1] ++
          [.worker 0 .drop] ++
          steps [.writer 1, .writer 1, .reader 1, .reader 1, .reader 1, .aggregator])
    let s₀ := start {} {} 1 (.memory {}) (.atMs 5)
    let decodable (f g : Frame) : Prop :=
      g.decodes s₀.hub.maxFrameBytes = f.decodes s₀.hub.maxFrameBytes
    let rewards (xs : List Input) : List RewardEvent := rewardsEmitted (s₀.run xs) s₀
    let usual := inputs (.binary []) "a"
    (rewards usual).length = 2 ∧
      ∀ other ∈ [inputs (.binary []) "aa", inputs (.ping []) "a", inputs .close "a"],
        List.Forall₂ (Input.Alike decodable) usual other ∧ (rewards other).length < 2 := by
  intro key said inputs s₀ decodable rewards usual
  have halike (f : Frame) (hash : String) (hf : decodable (.binary []) f)
      (hhash : decodable (said "a") (said hash)) :
      List.Forall₂ (Input.Alike decodable) usual (inputs f hash) :=
    .cons (.same _) <| .cons (.same _) <| .cons (.send 0 hf) <| .cons (.send 0 hhash) <|
      List.forall₂_same.mpr fun i _ => .same i
  have hlong : (rewards (inputs (.binary []) "aa")).length < 2 := by decide +kernel
  have hping : (rewards (inputs (.ping []) "a")).length < 2 := by decide +kernel
  have hclose : (rewards (inputs .close "a")).length < 2 := by decide +kernel
  refine ⟨by decide +kernel, fun other hother => ?_⟩
  simp only [List.mem_cons, List.not_mem_nil, or_false] at hother
  obtain rfl | rfl | rfl := hother
  · exact ⟨halike _ _ rfl (by decide +kernel), hlong⟩
  · exact ⟨halike _ _ rfl rfl, hping⟩
  · exact ⟨halike _ _ rfl rfl, hclose⟩

/-! ### Contents of any length -/

/-- The kinds of the frames that wait on a link, for a read loop that reads texts up to a limit, and
whether the worker's socket is gone. -/
def Link.outlook (limit : Nat) (l : Link) : List FrameKind × Bool :=
  (l.incoming.map (Frame.kind limit), l.peer.gone)

theorem view_eq (limit : Nat) (l : Link) :
    l.view limit = ⟨(l.outlook limit).1.head?, (l.outlook limit).2⟩ := by
  rw [Link.view, Link.outlook, List.head?_map]

/-- The same connections are registered in two servers, and the frames that wait on a link are, one
by one, results in both or in neither, and closes in both or in neither. -/
structure Abreast (s t : Server) : Prop where
  registry : t.registry = s.registry
  links : t.links.map (Link.outlook t.hub.maxFrameBytes) =
    s.links.map (Link.outlook s.hub.maxFrameBytes)

theorem Abreast.view? {s t : Server} (h : Abreast s t) (n : Nat) : t.view? n = s.view? n := by
  have hview (v : Server) : v.view? n =
      ((v.links.map (Link.outlook v.hub.maxFrameBytes))[n]?).map fun x => ⟨x.1.head?, x.2⟩ := by
    rw [Server.view?, link?, List.getElem?_map, Option.map_map]
    exact congrArg (fun f => (v.links[n]?).map f) (funext fun l => view_eq v.hub.maxFrameBytes l)
  rw [hview, hview, h.links]

/-- The same happens in two actions, but what a worker does to its end of a socket, or what a
message says, may differ. -/
inductive Action.Like : Action → Action → Prop where
  | same (a : Action) : Like a a
  | connect (l l' : Link) : Like (.connect l) (.connect l')
  | remote (n : Nat) (l l' : Link) : Like (.remote n l) (.remote n l')
  | sendTo (key : WorkerKey) (m m' : ServerMessage) : Like (.sendTo key m) (.sendTo key m')
  | broadcast (m m' : ServerMessage) : Like (.broadcast m) (.broadcast m')

theorem acts_of_like {a b : Action} (h : a.Like b) (r : Registry) (view : Nat → Option View)
    (o : Outline) : o.acts r view b = o.acts r view a := by
  cases h <;> rfl

theorem emits_of_like {a b : Action} (h : a.Like b) (o : Outline) : o.emits b = o.emits a := by
  cases h <;> rfl

theorem outline_act_eq {s t : Server} (hosted : Hosted s) (hosted' : Hosted t)
    (same : t.outline = s.outline) (abreast : Abreast s t) {a b : Action} (like : a.Like b) :
    (t.act b).outline = (s.act a).outline := by
  have hviews : (t.view? ·) = (s.view? ·) := funext abreast.view?
  rw [outline_act hosted, outline_act hosted', same, abreast.registry, hviews, acts_of_like like]

/--
**Lengths matter only by way of who is registered, and of what waits.**  While the same
connections are registered in two runs and frames of the same kinds wait on their links, two
servers with one outline keep one, and the rewards have the same terms, whatever is written.
-/
theorem rewards_blind_while_abreast {as bs : List Action}
    (like : List.Forall₂ Action.Like as bs) {s t : Server}
    (hosted : Hosted s) (hosted' : Hosted t) (same : t.outline = s.outline)
    (abreast : ∀ k < as.length, Abreast (s.after (as.take k)) (t.after (bs.take k))) :
    (t.after bs).outline = (s.after as).outline ∧
      (rewardsEmitted bs t).map RewardEvent.terms =
        (rewardsEmitted as s).map RewardEvent.terms := by
  induction like generalizing s t with
  | nil => exact ⟨same, rfl⟩
  | @cons a b as bs hab _ ih =>
    have hnext := outline_act_eq hosted hosted' same (abreast 0 (Nat.succ_pos _)) hab
    obtain ⟨hafter, hrest⟩ := ih (hosted_act a hosted) (hosted_act b hosted') hnext fun k hk =>
      abreast (k + 1) (Nat.succ_lt_succ hk)
    have hfirst : (t.emits b).map RewardEvent.terms = (s.emits a).map RewardEvent.terms := by
      rw [terms_emits, terms_emits, same, emits_of_like hab]
    refine ⟨hafter, ?_⟩
    rw [rewardsEmitted, rewardsEmitted, List.map_append, List.map_append, hfirst, hrest]

end Foreman.Server
