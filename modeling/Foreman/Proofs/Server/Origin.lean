/-
Which frame each work event came from.

The ledger says that the events of a connection are those of its frames, in order.  It
does not say which frame an event came from, and where two frames say the same it takes
more than the event to tell them apart.  So a frame goes by its number among all the
frames that were read, and `Sourced` names a number for each event that was put on the
work queue, no two of them the same.

The events that read loops have in hand are part of the invariant: such an event has a
frame too, one that is nobody else's, and takes it along onto the queue.
-/
import Foreman.Proofs.Server.Delivery

namespace Foreman.Server

/-- An event of the connection `g` came from the frame with the number `i`. -/
def CameFrom (limit : Nat) (frames : List (Nat × Frame)) (g : Nat) (e : WorkEvent) (i : Nat) :
    Prop :=
  ∃ t, frames[i]? = some (g, .text t) ∧
    WorkerMessage.ofFrame limit t = .ok (.workResult e.result)

section

variable {limit : Nat} {frames : List (Nat × Frame)} {g i : Nat} {e : WorkEvent}

theorem CameFrom.lt (h : CameFrom limit frames g e i) : i < frames.length := by
  obtain ⟨t, ht, -⟩ := h
  exact (List.getElem?_eq_some_iff.mp ht).1

theorem CameFrom.append (h : CameFrom limit frames g e i) (more : List (Nat × Frame)) :
    CameFrom limit (frames ++ more) g e i := by
  obtain ⟨t, ht, hm⟩ := h
  refine ⟨t, ?_, hm⟩
  rw [List.getElem?_append_left (List.getElem?_eq_some_iff.mp ht).1, ht]

/-- A frame belongs to one connection. -/
theorem CameFrom.generation_eq {g' : Nat} {e' : WorkEvent} (h : CameFrom limit frames g e i)
    (h' : CameFrom limit frames g' e' i) : g = g' := by
  obtain ⟨t, ht, -⟩ := h
  obtain ⟨t', ht', -⟩ := h'
  rw [ht] at ht'
  exact congrArg Prod.fst (Option.some.inj ht')

/-- The event of a frame that was read just now. -/
theorem cameFrom_decoded {key : WorkerKey} {f : Frame} (h : e ∈ decoded limit key f) :
    CameFrom limit (frames ++ [(g, f)]) g e frames.length := by
  cases f with
  | text t =>
      rw [decoded] at h
      cases hm : WorkerMessage.ofFrame limit t with
      | ok m =>
          obtain ⟨r⟩ := m
          rw [hm] at h
          obtain rfl := List.mem_singleton.mp h
          exact ⟨t, List.getElem?_concat_length, hm⟩
      | error _ =>
          rw [hm] at h
          simp at h
  | _ => simp [decoded] at h

end

/-- Each event has a frame of its own: `origins` are the frames of those that were put on the
work queue, in their order. -/
structure Sourced (origins : List Nat) (l : Ledger) (s : Server) : Prop where
  put : List.Forall₂ (fun p i => CameFrom s.hub.maxFrameBytes l.frames p.1 p.2 i) l.put origins
  nodup : origins.Nodup
  held : ∀ x ∈ s.readings, ∀ e ∈ x.held,
    ∃ i, CameFrom s.hub.maxFrameBytes l.frames x.generation e i ∧ i ∉ origins

namespace Sourced

variable {origins : List Nat} {l l' : Ledger} {s s' : Server} {c : Connection}

theorem lt (ok : Sourced origins l s) {i : Nat} (hi : i ∈ origins) : i < l.frames.length := by
  obtain ⟨j, hj, rfl⟩ := List.getElem_of_mem hi
  have hput : j < l.put.length := by rw [ok.put.length_eq]; exact hj
  exact ((List.forall₂_iff_get.mp ok.put).2 j hput hj).lt

/-- What reads nothing and puts nothing leaves the frames of the events as they are. -/
theorem of_same (ok : Sourced origins l s) (hub : s'.hub = s.hub) (frames : l'.frames = l.frames)
    (put : l'.put = l.put) (readings : ∀ x ∈ s'.readings, x ∈ s.readings ∨ x.held = []) :
    Sourced origins l' s' where
  put := by
    rw [hub, frames, put]
    exact ok.put
  nodup := ok.nodup
  held := by
    intro x hx e he
    rw [hub, frames]
    rcases readings x hx with hold | hnone
    · exact ok.held x hold e he
    · simp [hnone] at he

/-- A read loop that takes a frame has its event in hand, if there is one. -/
theorem takes (ok : Sourced origins l s) (hn : (s.connections.map (·.generation)).Nodup)
    (found : s.connection? c.generation = some c) {f : Frame} {running : Bool}
    (h : Stroke c s s' [f] [] (decoded s.hub.maxFrameBytes c.key f) running)
    (frames : l'.frames = l.frames ++ [(c.generation, f)]) (put : l'.put = l.put) :
    Sourced origins l' s' where
  put := by
    rw [h.hub, frames, put]
    exact ok.put.imp fun _ _ hp => hp.append _
  nodup := ok.nodup
  held := by
    intro x hx e he
    rw [h.hub, frames]
    rcases h.mem_readings hn found hx with rfl | ⟨-, hx⟩
    · -- the frame is new, so no other event came from it
      refine ⟨l.frames.length, cameFrom_decoded he, fun hmem => ?_⟩
      exact Nat.lt_irrefl _ (ok.lt hmem)
    · obtain ⟨i, hi, hnot⟩ := ok.held x hx e he
      exact ⟨i, hi.append _, hnot⟩

/-- A read loop that puts its event on the queue passes its frame on. -/
theorem puts (ok : Sourced origins l s) (hn : (s.connections.map (·.generation)).Nodup)
    (found : s.connection? c.generation = some c) {e : WorkEvent} (holding : c.reader.held = [e])
    {running : Bool} (h : Stroke c s s' [] [e] [] running) (frames : l'.frames = l.frames)
    (put : l'.put = l.put ++ [(c.generation, e)]) :
    ∃ more, Sourced (origins ++ more) l' s' := by
  have hmem : e ∈ c.reading.held := by
    rw [Connection.reading, holding]
    exact List.mem_singleton_self e
  obtain ⟨i, hi, hnew⟩ := ok.held c.reading (reading_mem found) e hmem
  refine ⟨[i], ?_, ?_, ?_⟩
  · rw [h.hub, frames, put]
    exact List.rel_append ok.put (.cons hi .nil)
  · rw [← List.concat_eq_append, List.nodup_concat]
    exact ⟨hnew, ok.nodup⟩
  · intro x hx e' he'
    rw [h.hub, frames]
    rcases h.mem_readings hn found hx with rfl | ⟨hg, hx⟩
    · simp at he'
    · obtain ⟨j, hj, hnot⟩ := ok.held x hx e' he'
      refine ⟨j, hj, ?_⟩
      rw [List.mem_append, List.mem_singleton]
      rintro (hold | rfl)
      · exact hnot hold
      · exact hg (hj.generation_eq hi)

/-- A read loop that neither takes a frame nor puts an event on the queue has at most the event
in hand that it had. -/
theorem rests (ok : Sourced origins l s) (hn : (s.connections.map (·.generation)).Nodup)
    (found : s.connection? c.generation = some c) {held : List WorkEvent} {running : Bool}
    (h : Stroke c s s' [] [] held running) (kept : ∀ e ∈ held, e ∈ c.reader.held)
    (frames : l'.frames = l.frames) (put : l'.put = l.put) : Sourced origins l' s' where
  put := by
    rw [h.hub, frames, put]
    exact ok.put
  nodup := ok.nodup
  held := by
    intro x hx e he
    rw [h.hub, frames]
    rcases h.mem_readings hn found hx with rfl | ⟨-, hx⟩
    · exact ok.held c.reading (reading_mem found) e (kept e he)
    · exact ok.held x hx e he

end Sourced

/-- Every action leaves each event with a frame of its own. -/
theorem sourced_act {origins : List Nat} {l : Ledger} {s : Server} (hosted : Hosted s)
    (ok : Sourced origins l s) (a : Action) :
    ∃ more, Sourced (origins ++ more) (l.noting a s (s.act a)) (s.act a) := by
  -- all but one of the cases leave `origins` as they are
  have hsame {l' : Ledger} {s' : Server} (h : Sourced origins l' s') :
      ∃ more, Sourced (origins ++ more) l' s' := ⟨[], by rwa [List.append_nil]⟩
  have hn := hosted.nodup_generations
  cases act_cases hosted a with
  | rests h =>
      rw [h, noting_self]
      exact hsame ok
  | still reader _ h =>
      refine hsame (ok.of_same h.hub (frames_noting reader l _ _) (put_noting reader l _ _) ?_)
      rw [h.readings]
      exact fun _ => .inl
  | joins key reader _ hub _ _ readings =>
      refine hsame (ok.of_same hub (frames_noting reader l _ _) (put_noting reader l _ _) ?_)
      intro x hx
      rw [readings, List.mem_append, List.mem_singleton] at hx
      exact hx.imp_right fun h => by rw [h]
  | consumes e reader _ hub _ _ readings _ =>
      refine hsame (ok.of_same hub (frames_noting reader l _ _) (put_noting reader l _ _) ?_)
      rw [readings]
      exact fun _ => .inl
  | abandons reader _ hub _ _ readings _ =>
      refine hsame (ok.of_same hub (frames_noting reader l _ _) (put_noting reader l _ _) ?_)
      rw [readings]
      exact fun _ => .inl
  | reads c reader found _ h =>
      cases h with
      | took f _ _ h =>
          rw [h.noting reader found]
          exact hsame (ok.takes hn found h rfl (List.append_nil _))
      | left _ _ _ h =>
          rw [h.noting reader found]
          exact hsame (ok.rests hn found h (by simp) (List.append_nil _) (List.append_nil _))
      | put e holding _ _ h =>
          rw [h.noting reader found]
          exact ok.puts hn found holding h (List.append_nil _) rfl
      | waits e holding _ h =>
          rw [h.noting reader found]
          refine hsame (ok.rests hn found h ?_ (List.append_nil _) (List.append_nil _))
          rw [holding]
          exact fun _ => id
      | stops _ _ h =>
          rw [h.noting reader found]
          exact hsame (ok.rests hn found h (by simp) (List.append_nil _) (List.append_nil _))

theorem sourced_start {s : Server} (hc : s.connections = []) : Sourced [] {} s where
  put := .nil
  nodup := List.nodup_nil
  held := by simp [readings, hc]

/-! ### From the consumer back to a frame -/

section

variable {origins : List Nat} {l : Ledger} {s : Server}

/-- Every event that was consumed has a frame, and it was read. -/
theorem exists_origin (account : Accounted l s) (source : Sourced origins l s) {j : Nat}
    (hj : j < l.consumed.length) : ∃ i, origins[j]? = some i ∧ i < l.frames.length := by
  have hput : l.consumed.length ≤ l.put.length := by
    have hle := account.order.length_le
    rwa [List.length_map] at hle
  have hlt : j < origins.length := by
    rw [← source.put.length_eq]
    exact Nat.lt_of_lt_of_le hj hput
  exact ⟨origins[j], List.getElem?_eq_getElem hlt, source.lt (List.getElem_mem hlt)⟩

/-- An event that was put on the queue is that of its frame, and of the connection that read the
frame. -/
theorem put_cameFrom (account : Accounted l s) (source : Sourced origins l s) {j i g : Nat}
    {e : WorkEvent} (hput : l.put[j]? = some (g, e)) (hi : origins[j]? = some i) :
    ∃ d ∈ s.connections, e.workerKey = d.key ∧ e.requesterId = e.result.requesterId ∧
      CameFrom s.hub.maxFrameBytes l.frames d.generation e i := by
  have hcame : CameFrom s.hub.maxFrameBytes l.frames g e i := by
    obtain ⟨hj, hputj⟩ := List.getElem?_eq_some_iff.mp hput
    obtain ⟨hj', horiginj⟩ := List.getElem?_eq_some_iff.mp hi
    have hget := (List.forall₂_iff_get.mp source.put).2 j hj hj'
    rwa [List.get_eq_getElem, List.get_eq_getElem, hputj, horiginj] at hget
  have hentry : e ∈ entries g l.put := by
    refine List.mem_map.mpr ⟨(g, e), ?_, rfl⟩
    rw [List.mem_filter]
    exact ⟨List.mem_of_getElem? hput, beq_self_eq_true g⟩
  have hreading : g ∈ s.readings.map (·.generation) := by
    by_contra hnone
    rw [(account.fresh g hnone).2.1] at hentry
    simp at hentry
  obtain ⟨x, hx, rfl⟩ := List.mem_map.mp hreading
  obtain ⟨d, hd, rfl⟩ := List.mem_map.mp hx
  have hdecoded : e ∈ decodings s.hub.maxFrameBytes d.key (entries d.generation l.frames) := by
    have hbalance := account.balance d.reading hx
    simp only [Connection.reading] at hbalance
    rw [hbalance, List.append_assoc]
    exact List.mem_append_left _ hentry
  obtain ⟨hkey, hrequester, -⟩ := mem_decodings hdecoded
  exact ⟨d, hd, hkey, hrequester, hcame⟩

/-- An event that was consumed is that of its frame, and of the connection that read the frame. -/
theorem consumed_cameFrom (account : Accounted l s) (source : Sourced origins l s) {j i : Nat}
    {e : WorkEvent} (he : l.consumed[j]? = some e) (hi : origins[j]? = some i) :
    ∃ d ∈ s.connections, e.workerKey = d.key ∧ e.requesterId = e.result.requesterId ∧
      CameFrom s.hub.maxFrameBytes l.frames d.generation e i := by
  obtain ⟨g, hput⟩ : ∃ g, l.put[j]? = some (g, e) := by
    have hmap : (l.put.map (·.2))[j]? = some e := by
      obtain ⟨rest, hrest⟩ := account.order
      rw [← hrest, List.getElem?_append_left (List.getElem?_eq_some_iff.mp he).1, he]
    rw [List.getElem?_map] at hmap
    obtain ⟨⟨g, e'⟩, hput, rfl⟩ := Option.map_eq_some_iff.mp hmap
    exact ⟨g, hput⟩
  exact put_cameFrom account source hput hi

/-- An event on the queue came from a frame that was read. -/
theorem queued_cameFrom (account : Accounted l s) (source : Sourced origins l s) {e : WorkEvent}
    (he : e ∈ s.queue.items) :
    ∃ d ∈ s.connections, e.workerKey = d.key ∧
      ∃ i, CameFrom s.hub.maxFrameBytes l.frames d.generation e i := by
  have hconsumer : s.queue.abandoned = false := by
    rw [← Bool.not_eq_true]
    intro habandoned
    rw [account.abandoned habandoned] at he
    cases he
  have hmem : e ∈ l.put.map (·.2) := by
    rw [account.queue hconsumer]
    exact List.mem_append_right _ he
  obtain ⟨⟨g, e'⟩, hp, rfl⟩ := List.mem_map.mp hmem
  obtain ⟨j, hput⟩ := List.getElem?_of_mem hp
  have hj : j < origins.length := by
    rw [← source.put.length_eq]
    exact (List.getElem?_eq_some_iff.mp hput).1
  obtain ⟨d, hd, hkey, -, hcame⟩ :=
    put_cameFrom account source hput (List.getElem?_eq_getElem hj)
  exact ⟨d, hd, hkey, _, hcame⟩

end

end Foreman.Server
