/-
Who gets a message that is for everyone.

A broadcast goes through the live keys and offers the message to the connection that holds
each of them.  A generation has one connection, and a generation holds one key at most, so
no connection is asked twice, and an offer to one of them is nothing to the others.  What
is left of the order of the offers is a condition on single connections: one gains the
message exactly if it `takes` it, that is, if it is live and has room.
-/
import Foreman.Proofs.Server.Delivery

namespace Foreman.Server

/-! ### Single offers -/

/-- A connection with one more message to send. -/
def Connection.given (m : ServerMessage) (c : Connection) : Connection :=
  { c with outbox := c.outbox ++ [m] }

@[simp] theorem given_generation (m : ServerMessage) (c : Connection) :
    (c.given m).generation = c.generation := rfl

/-- What comes of an offer to a generation. -/
def answer (s : Server) (g : Nat) : Offer := (s.connection? g).elim .closed (·.offer s.hub)

/-- An offer is accepted or refused, and one that is refused changes nothing. -/
theorem offer_eq (g : Nat) (m : ServerMessage) (s : Server) :
    s.offer g m = (s.answer g,
      if s.answer g = .accepted then (s.modifyConnection g (·.given m)).wake (.writer g) else s) := by
  unfold offer
  cases hfound : s.connection? g with
  | none => simp [answer, hfound]
  | some c =>
    have hanswer : s.answer g = c.offer s.hub := by
      rw [answer, hfound]
      rfl
    rw [hanswer]
    dsimp only
    split
    · rename_i haccepts
      simp only [haccepts, if_true]
      rfl
    · rename_i hrefuses
      rw [if_neg hrefuses]

theorem answer_of_mem {s : Server} (hosted : Hosted s) {c : Connection} (hc : c ∈ s.connections) :
    s.answer c.generation = c.offer s.hub := by
  rw [answer, connection?_of_mem hosted hc]
  rfl

theorem Hosted.offer {s : Server} (hosted : Hosted s) (g : Nat) (m : ServerMessage) :
    Hosted (s.offer g m).2 :=
  hosted.between (quiet_offer g m s).sameHub

/-- The connection of a generation gets the message if it accepts it, and no other does. -/
theorem connections_offer {s : Server} (hosted : Hosted s) (g : Nat) (m : ServerMessage) :
    (s.offer g m).2.connections = s.connections.map fun c =>
      if c.generation = g ∧ c.offer s.hub = .accepted then c.given m else c := by
  rw [offer_eq]
  dsimp only
  split
  · rename_i haccepts
    rw [connections_wake, modifyConnection]
    refine List.map_congr_left fun c hc => ?_
    by_cases hg : c.generation = g
    · have hoffer : c.offer s.hub = .accepted := by rw [← answer_of_mem hosted hc, hg, haccepts]
      rw [if_pos hg, if_pos ⟨hg, hoffer⟩]
    · rw [if_neg hg, if_neg fun h => hg h.1]
  · rename_i hrefuses
    refine (List.map_id s.connections).symm.trans (List.map_congr_left fun c hc => ?_)
    rw [id, if_neg]
    rintro ⟨rfl, hoffer⟩
    exact hrefuses ((answer_of_mem hosted hc).trans hoffer)

/-- A change to the connection of one generation is nothing to the others. -/
theorem connection?_modifyConnection {f : Connection → Connection}
    (h : ∀ c, (f c).generation = c.generation) {g g' : Nat} (hne : g' ≠ g) (s : Server) :
    (s.modifyConnection g f).connection? g' = s.connection? g' := by
  have hsame : ((fun c : Connection => c.generation == g') ∘
      fun c => if c.generation = g then f c else c) = fun c => c.generation == g' := by
    funext c
    simp only [Function.comp]
    split
    · rw [h]
    · rfl
  rw [connection?, modifyConnection, List.find?_map, hsame]
  cases hfound : s.connections.find? (·.generation == g') with
  | none => exact hfound.symm
  | some c =>
    have hg : c.generation = g' := generation_of_connection? hfound
    rw [Option.map_some, if_neg (hg ▸ hne), connection?, hfound]

/-- An offer to one generation changes the answer of no other. -/
theorem answer_offer {g g' : Nat} (h : g' ≠ g) (m : ServerMessage) (s : Server) :
    (s.offer g m).2.answer g' = s.answer g' := by
  rw [offer_eq]
  dsimp only
  split
  · have hwake (v : Server) : (v.wake (.writer g)).answer g' = v.answer g' := by
      unfold wake
      split <;> rfl
    have hkept := connection?_modifyConnection (given_generation m) h s
    rw [hwake, answer, hkept, answer]
    rfl
  · rfl

@[simp] theorem tally_wake (t : Task) (s : Server) : (s.wake t).tally = s.tally := by
  unfold wake
  split <;> rfl

theorem tally_offer (g : Nat) (m : ServerMessage) (s : Server) :
    (s.offer g m).2.tally = s.tally := by
  rw [offer_eq]
  dsimp only
  split
  · exact tally_wake _ _
  · rfl

/-! ### All offers -/

theorem foldl_count (answers : List Offer) (b : Broadcast) :
    answers.foldl Broadcast.count b =
      ⟨b.accepted + answers.count .accepted, b.full + answers.count .full⟩ := by
  induction answers generalizing b with
  | nil => rfl
  | cons o rest ih =>
    rw [List.foldl_cons, ih]
    cases o <;> simp [Broadcast.count, Nat.add_assoc, Nat.add_comm 1]

/-- The answers to the offers, each as it would be given alone. -/
theorem offerAll_fst (m : ServerMessage) {gs : List Nat} (hgs : gs.Nodup) (b : Broadcast)
    (s : Server) : (offerAll m gs b s).1 = (gs.map s.answer).foldl Broadcast.count b := by
  induction gs generalizing b s with
  | nil => rfl
  | cons g rest ih =>
    obtain ⟨hg, hrest⟩ := List.nodup_cons.mp hgs
    have hothers : rest.map (s.offer g m).2.answer = rest.map s.answer :=
      List.map_congr_left fun g' hg' => answer_offer (fun h : g' = g => hg (h ▸ hg')) m s
    rw [offerAll, ih hrest, hothers, List.map_cons, List.foldl_cons, offer_eq]

theorem connections_offerAll {s : Server} (hosted : Hosted s) (m : ServerMessage) {gs : List Nat}
    (hgs : gs.Nodup) (b : Broadcast) :
    (offerAll m gs b s).2.connections = s.connections.map fun c =>
      if c.generation ∈ gs ∧ c.offer s.hub = .accepted then c.given m else c := by
  induction gs generalizing b s with
  | nil => simp [offerAll]
  | cons g rest ih =>
    obtain ⟨hg, hrest⟩ := List.nodup_cons.mp hgs
    rw [offerAll, ih (hosted.offer g m) hrest, connections_offer hosted, List.map_map,
      (quiet_offer g m s).sameIntake.hub]
    refine List.map_congr_left fun c _ => ?_
    by_cases hc : c.generation = g
    · have hlater : c.generation ∉ rest := hc ▸ hg
      by_cases hoffer : c.offer s.hub = .accepted <;> simp [hc, hoffer, hg]
    · simp [hc]

theorem tally_offerAll (m : ServerMessage) (gs : List Nat) (b : Broadcast) (s : Server) :
    (offerAll m gs b s).2.tally = s.tally := by
  induction gs generalizing b s with
  | nil => rfl
  | cons g rest ih => exact (ih _ _).trans (tally_offer g m s)

/-! ### A broadcast -/

/-- The connection is the one that holds its key. -/
def isLive (s : Server) (c : Connection) : Bool :=
  decide (s.registry.find c.key = some c.generation)

/-- The connection gets what is broadcast: it is live, its write loop has not stopped, and
there is room in its queue. -/
def takes (s : Server) (c : Connection) : Bool :=
  s.isLive c && decide (c.offer s.hub = .accepted)

/-- The connection is live but has no room for what is broadcast. -/
def misses (s : Server) (c : Connection) : Bool :=
  s.isLive c && decide (c.offer s.hub = .full)

/-- The generations that hold a key are those of the live connections. -/
theorem live_generations_perm {s : Server} (hosted : Hosted s) :
    ((s.connections.filter s.isLive).map (·.generation)).Perm (s.registry.live.map (·.2)) := by
  have hheld {k : WorkerKey} {g : Nat} := Registry.find_eq_some (k := k) (g := g) hosted.tended.keys
  have hnodup : ((s.connections.filter s.isLive).map (·.generation)).Nodup :=
    hosted.nodup_generations.sublist (List.filter_sublist.map _)
  refine (List.perm_ext_iff_of_nodup hnodup hosted.tended.live_generations_nodup).mpr fun g => ?_
  constructor
  · intro hg
    obtain ⟨c, hc, rfl⟩ := List.mem_map.mp hg
    have hlive := of_decide_eq_true (List.mem_filter.mp hc).2
    exact List.mem_map_of_mem (hheld.mp hlive)
  · intro hg
    obtain ⟨⟨k, g⟩, hkg, rfl⟩ := List.mem_map.mp hg
    have hfind := hheld.mpr hkg
    obtain ⟨x, hx, rfl, rfl⟩ := hosted.tended.held k g hfind
    obtain ⟨c, hc, rfl⟩ := List.mem_map.mp hx
    exact List.mem_map.mpr ⟨c, List.mem_filter.mpr ⟨hc, decide_eq_true hfind⟩, rfl⟩

/-- The answers to a broadcast are the answers of the live connections. -/
theorem count_answers {s : Server} (hosted : Hosted s) (o : Offer) :
    ((s.registry.live.map (·.2)).map s.answer).count o =
      s.connections.countP fun c => s.isLive c && decide (c.offer s.hub = o) := by
  have hanswers : ((s.connections.filter s.isLive).map (·.generation)).map s.answer =
      (s.connections.filter s.isLive).map (·.offer s.hub) := by
    rw [List.map_map]
    exact List.map_congr_left fun c hc => answer_of_mem hosted (List.mem_of_mem_filter hc)
  rw [← ((live_generations_perm hosted).map s.answer).count_eq, hanswers, List.count,
    List.countP_map, List.countP_filter]
  refine List.countP_congr fun c _ => ?_
  simp [and_comm]

/-- A connection is live if its generation holds a key. -/
theorem isLive_iff {s : Server} (hosted : Hosted s) {c : Connection} (hc : c ∈ s.connections) :
    s.isLive c = true ↔ c.generation ∈ s.registry.live.map (·.2) := by
  rw [← (live_generations_perm hosted).mem_iff]
  simp only [List.mem_map, List.mem_filter]
  refine ⟨fun h => ⟨c, ⟨hc, h⟩, rfl⟩, ?_⟩
  rintro ⟨d, ⟨hd, hlive⟩, hg⟩
  rwa [← List.inj_on_of_nodup_map hosted.nodup_generations hd hc hg]

/-- A live connection takes what is broadcast if it accepts what is offered to its generation. -/
theorem takes_iff {s : Server} (hosted : Hosted s) {c : Connection} (hc : c ∈ s.connections) :
    s.takes c = true ↔
      c.generation ∈ s.registry.live.map (·.2) ∧ c.offer s.hub = .accepted := by
  rw [← isLive_iff hosted hc, takes, Bool.and_eq_true, decide_eq_true_eq]

/-- What a broadcast of the message `m` does: it is added to the queues of the connections that
take it, once to each of them, and the live ones that have no room are counted, if there are any. -/
structure Spread (s : Server) (m : ServerMessage) (x : Nat × Server) : Prop where
  accepted : x.1 = s.connections.countP s.takes
  connections : x.2.connections = s.connections.map fun c => if s.takes c then c.given m else c
  tally : x.2.tally = if s.connections.countP s.misses = 0 then s.tally
    else s.tally.add .outboundDropped (s.connections.countP s.misses)

/-- **A broadcast treats every connection by itself**, and the order of the keys is no matter. -/
theorem spread_broadcast {s : Server} (hosted : Hosted s) (m : ServerMessage) :
    Spread s m (s.broadcast m) := by
  have hnodup := hosted.tended.live_generations_nodup
  have hconnections := connections_offerAll hosted m hnodup {}
  have hcounts := offerAll_fst m hnodup {} s
  have htally := tally_offerAll m (s.registry.live.map (·.2)) {} s
  rw [foldl_count, count_answers hosted, count_answers hosted] at hcounts
  unfold broadcast
  generalize offerAll m (s.registry.live.map (·.2)) {} s = x at hconnections hcounts htally
  obtain ⟨b, s'⟩ := x
  obtain rfl : b = _ := hcounts
  refine ⟨Nat.zero_add _, ?_, ?_⟩
  · have hadded : ∀ c ∈ s.connections,
        (if c.generation ∈ s.registry.live.map (·.2) ∧ c.offer s.hub = .accepted then c.given m
          else c) = if s.takes c then c.given m else c :=
      fun c hc => by simp only [takes_iff hosted hc]
    rw [← List.map_congr_left hadded, ← hconnections]
    dsimp only
    split <;> rfl
  · dsimp only at htally ⊢
    rw [Nat.zero_add, ← htally]
    show (ite _ _ _ : Server).tally = _
    rw [apply_ite Server.tally]
    rfl

end Foreman.Server
