/-
From the sockets of the workers to the consumer of the work queue.

Whoever watches a server from outside sees frames go from its sockets, events come
onto the queue and go from it, and the event that a read loop has in hand.  A
`Ledger` is what such an observer has written down; it is made from the states
before and after an action and not from what the action is meant to do.

The ledger always balances: the events of the frames that a read loop has read are
those that it has put on the queue, then the one that it has in hand, then the one
that it lost when it ended; and what has been put on the queue is what the consumer
has seen, then what is on the queue.
-/
import Foreman.Proofs.Server.IntakeStep

namespace Foreman.Server

/-! ### What an observer writes down -/

/-- What has gone from the front of a list. -/
def gone {α : Type} (before after : List α) : List α := before.take (before.length - after.length)

/-- What has come to the end of a list. -/
def come {α : Type} (before after : List α) : List α := after.drop before.length

@[simp] theorem gone_append {α : Type} (xs ys : List α) : gone (xs ++ ys) ys = xs := by
  simp [gone]

@[simp] theorem gone_self {α : Type} (xs : List α) : gone xs xs = [] := by
  simp [gone]

@[simp] theorem come_append {α : Type} (xs ys : List α) : come xs (xs ++ ys) = ys := by
  simp [come]

@[simp] theorem come_self {α : Type} (xs : List α) : come xs xs = [] := by
  simp [come]

/-- The event that the read loop with a number has in hand. -/
def held (g : Nat) (s : Server) : List WorkEvent := (s.connection? g).elim [] (·.reader.held)

/-- The read loop with a number has not come to its end. -/
def isReading (g : Nat) (s : Server) : Bool := (s.connection? g).elim false (·.reader.isRunning)

/-- The frames that went from the socket of a connection. -/
def framesTaken (g : Nat) (s s' : Server) : List Frame :=
  (s.connection? g).elim [] fun c => gone (s.incoming c.link) (s'.incoming c.link)

/-- The events that came onto the work queue. -/
def eventsPut (s s' : Server) : List WorkEvent := come s.queue.items s'.queue.items

/-- The events that a read loop had in hand and that are neither there nor on the queue. -/
def eventsLost (g : Nat) (s s' : Server) : List WorkEvent :=
  (s.held g).filter fun e => e ∉ s'.held g ++ eventsPut s s'

/-- What an observer has written down; most of it with the number of the connection. -/
structure Ledger where
  /-- The frames that the read loops have read. -/
  frames : List (Nat × Frame) := []
  /-- The events that they have put on the work queue. -/
  put : List (Nat × WorkEvent) := []
  /-- The events that they let go of. -/
  lost : List (Nat × WorkEvent) := []
  /-- The events that the consumer has taken. -/
  consumed : List WorkEvent := []

/-- What is written down about one connection. -/
def entries {α : Type} (g : Nat) (xs : List (Nat × α)) : List α :=
  (xs.filter (·.1 == g)).map (·.2)

/-- The ledger after an action that led from one state to another. -/
def Ledger.noting (a : Action) (s s' : Server) (l : Ledger) : Ledger :=
  match a.reader with
  | some g =>
    { l with
      frames := l.frames ++ (framesTaken g s s').map (g, ·)
      put := l.put ++ (eventsPut s s').map (g, ·)
      lost := l.lost ++ (eventsLost g s s').map (g, ·) }
  | none =>
    if a.isAbandon then l
    else { l with consumed := l.consumed ++ gone s.queue.items s'.queue.items }

/-- The ledger after some actions, the first one first. -/
def ledger : List Action → Server → Ledger → Ledger
  | [], _, l => l
  | a :: rest, s, l => ledger rest (s.act a) (l.noting a s (s.act a))

@[simp] theorem entries_append {α : Type} (g : Nat) (xs ys : List (Nat × α)) :
    entries g (xs ++ ys) = entries g xs ++ entries g ys := by
  simp [entries]

@[simp] theorem entries_own {α : Type} (g : Nat) (xs : List α) :
    entries g (xs.map (g, ·)) = xs := by
  simp [entries, List.filter_map, Function.comp_def]

theorem entries_other {α : Type} {g k : Nat} (h : k ≠ g) (xs : List α) :
    entries g (xs.map (k, ·)) = [] := by
  simp [entries, List.filter_map, Function.comp_def, h]

theorem decodings_append (limit : Nat) (key : WorkerKey) (xs ys : List Frame) :
    decodings limit key (xs ++ ys) = decodings limit key xs ++ decodings limit key ys :=
  List.flatMap_append

theorem entries_take {α : Type} (g n : Nat) (xs : List (Nat × α)) :
    entries g (xs.take n) <+: entries g xs :=
  ((List.take_prefix n xs).filter _).map _

/-! ### The account balances -/

/-- The ledger `l` accounts for every event. -/
structure Accounted (l : Ledger) (s : Server) : Prop where
  /-- Nothing is written down about a connection that there has not been. -/
  fresh : ∀ g, g ∉ s.readings.map (·.generation) →
    entries g l.frames = [] ∧ entries g l.put = [] ∧ entries g l.lost = []
  /-- What was read was put on the queue, or is in hand, or was lost. -/
  balance : ∀ x ∈ s.readings, decodings s.hub.maxFrameBytes x.key (entries x.generation l.frames) =
    entries x.generation l.put ++ x.held ++ entries x.generation l.lost
  /-- Only a read loop that has come to its end has lost anything. -/
  ended : ∀ x ∈ s.readings, entries x.generation l.lost ≠ [] → x.running = false
  /-- It has lost one event at most. -/
  once : ∀ x ∈ s.readings, (entries x.generation l.lost).length ≤ 1
  /-- The consumer has seen what was put on the queue, in order. -/
  order : l.consumed <+: l.put.map (·.2)
  /-- As long as there is a consumer, the rest is on the queue. -/
  queue : s.queue.abandoned = false → l.put.map (·.2) = l.consumed ++ s.queue.items
  /-- Afterwards the queue is empty. -/
  abandoned : s.queue.abandoned = true → s.queue.items = []

namespace Accounted

variable {l : Ledger} {s s' : Server}

/-- What happens behind the read loops changes only what is said about the consumer. -/
theorem behind (ok : Accounted l s) (hub : s'.hub = s.hub) (readings : s'.readings = s.readings)
    {seen : List WorkEvent} (order : seen <+: l.put.map (·.2))
    (queue : s'.queue.abandoned = false → l.put.map (·.2) = seen ++ s'.queue.items)
    (abandoned : s'.queue.abandoned = true → s'.queue.items = []) :
    Accounted { l with consumed := seen } s' where
  fresh := by rw [readings]; exact ok.fresh
  balance := by rw [readings, hub]; exact ok.balance
  ended := by rw [readings]; exact ok.ended
  once := by rw [readings]; exact ok.once
  order := order
  queue := queue
  abandoned := abandoned

theorem of_same (ok : Accounted l s) (hub : s'.hub = s.hub) (readings : s'.readings = s.readings)
    (queue : s'.queue = s.queue) : Accounted l s' :=
  ok.behind hub readings ok.order (by rw [queue]; exact ok.queue)
    (by rw [queue]; exact ok.abandoned)

/-- A connection that begins has nothing on account. -/
theorem joins (ok : Accounted l s) {key : WorkerKey} {g : Nat}
    (hnew : g ∉ s.readings.map (·.generation)) (hub : s'.hub = s.hub) (queue : s'.queue = s.queue)
    (readings : s'.readings = s.readings ++ [⟨key, g, [], true⟩]) : Accounted l s' := by
  obtain ⟨hframes, hput, hlost⟩ := ok.fresh g hnew
  have hcases : ∀ x ∈ s'.readings, x ∈ s.readings ∨ x = ⟨key, g, [], true⟩ := by
    intro x hx
    rw [readings, List.mem_append, List.mem_singleton] at hx
    exact hx
  refine ⟨?_, ?_, ?_, ?_, ok.order, by rw [queue]; exact ok.queue,
    by rw [queue]; exact ok.abandoned⟩
  · intro g' hg'
    refine ok.fresh g' fun hmem => hg' ?_
    rw [readings, List.map_append]
    exact List.mem_append_left _ hmem
  · intro x hx
    rw [hub]
    rcases hcases x hx with hold | rfl
    · exact ok.balance x hold
    · simp only [hframes, hput, hlost]
      rfl
  · intro x hx h
    rcases hcases x hx with hold | rfl
    · exact ok.ended x hold h
    · exact absurd hlost h
  · intro x hx
    rcases hcases x hx with hold | rfl
    · exact ok.once x hold
    · simp only [hlost, List.length_nil, Nat.zero_le]

/-- The consumer takes the oldest event. -/
theorem consumes (ok : Accounted l s) {e : WorkEvent} (hub : s'.hub = s.hub)
    (abandoned : s'.queue.abandoned = s.queue.abandoned)
    (items : s.queue.items = e :: s'.queue.items) (readings : s'.readings = s.readings) :
    Accounted { l with consumed := l.consumed ++ [e] } s' := by
  have hconsumer : s.queue.abandoned = false := by
    rw [← Bool.not_eq_true]
    intro h
    simp [ok.abandoned h] at items
  have hqueue := ok.queue hconsumer
  rw [items, ← List.singleton_append, ← List.append_assoc] at hqueue
  refine ok.behind hub readings ⟨s'.queue.items, hqueue.symm⟩ (fun _ => hqueue) fun h => ?_
  simp [abandoned, hconsumer] at h

/-- The consumer ends. -/
theorem abandons (ok : Accounted l s) (hub : s'.hub = s.hub)
    (abandoned : s'.queue.abandoned = true) (items : s'.queue.items = [])
    (readings : s'.readings = s.readings) : Accounted l s' :=
  ok.behind hub readings ok.order (fun h => by simp [abandoned] at h) fun _ => items

end Accounted

/-! ### A read loop on account -/

theorem reading?_eq (g : Nat) (s : Server) :
    s.readings.find? (·.generation == g) = (s.connection? g).map Connection.reading := by
  simp only [readings, List.find?_map, connection?]
  rfl

theorem held_eq (g : Nat) (s : Server) :
    s.held g = (s.readings.find? (·.generation == g)).elim [] (·.held) := by
  rw [reading?_eq, held]
  cases s.connection? g <;> rfl

theorem isReading_eq (g : Nat) (s : Server) :
    s.isReading g = (s.readings.find? (·.generation == g)).elim false (·.running) := by
  rw [reading?_eq, isReading]
  cases s.connection? g <;> rfl

section

variable {a : Action} {l : Ledger} {c : Connection} {s s' : Server} {frames : List Frame}
  {put held : List WorkEvent} {running : Bool}

/-- The reading of a connection whose read loop took a step. -/
theorem Stroke.reading? (h : Stroke c s s' frames put held running)
    (found : s.connection? c.generation = some c) :
    s'.readings.find? (·.generation == c.generation) =
      some ⟨c.key, c.generation, held, running⟩ := by
  have hsame : ((·.generation == c.generation) ∘ Reading.moved c.generation held running) =
      fun x : Reading => x.generation == c.generation := by
    funext x
    simp only [Function.comp, moved_generation]
  rw [h.readings, List.find?_map, hsame, reading?_eq, found]
  simp [Reading.moved, Connection.reading]

theorem Stroke.noting (h : Stroke c s s' frames put held running)
    (reader : a.reader = some c.generation) (found : s.connection? c.generation = some c) :
    l.noting a s s' =
      { l with
        frames := l.frames ++ frames.map (c.generation, ·)
        put := l.put ++ put.map (c.generation, ·)
        lost := l.lost ++
          (c.reader.held.filter fun e => e ∉ held ++ put).map (c.generation, ·) } := by
  have hframes : framesTaken c.generation s s' = frames := by
    rw [framesTaken, found, Option.elim_some, h.socket, gone_append]
  have hput : eventsPut s s' = put := by rw [eventsPut, h.items, come_append]
  have hheld : s.held c.generation = c.reader.held := by rw [Server.held, found, Option.elim_some]
  have hheld' : s'.held c.generation = held := by
    rw [held_eq, h.reading? found, Option.elim_some]
  rw [Ledger.noting, reader]
  simp only [eventsLost, hframes, hput, hheld, hheld']

end

/-- What a step of a read loop does to its account: the event in hand and those of the frames
that it took are put on the queue, are in hand, or are lost. -/
theorem ReadStroke.exists_stroke {c : Connection} {s s' : Server} (h : ReadStroke c s s') :
    ∃ frames put held running, Stroke c s s' frames put held running ∧
      c.reader.held ++ decodings s.hub.maxFrameBytes c.key frames =
        put ++ held ++ (c.reader.held.filter fun e => e ∉ held ++ put) ∧
      (c.reader.held.filter (fun e => e ∉ held ++ put) ≠ [] → running = false) ∧
      (c.reader.isRunning = false → frames = [] ∧ put = [] ∧ c.reader.held = [] ∧ running = false) ∧
      (put ≠ [] → s.queue.abandoned = false) := by
  cases h with
  | took f idle hr h =>
    refine ⟨_, _, _, _, h, ?_, ?_, ?_, ?_⟩
    · simp [idle, decodings]
    · simp [idle]
    · simp [hr]
    · simp
  | left hr _ _ h =>
    refine ⟨_, _, _, _, h, ?_, ?_, ?_, ?_⟩ <;> simp [hr, decodings]
  | put e hheld hr hconsumer h =>
    refine ⟨_, _, _, _, h, ?_, ?_, ?_, ?_⟩ <;> simp [hheld, hr, hconsumer, decodings]
  | waits e hheld hr h =>
    refine ⟨_, _, _, _, h, ?_, ?_, ?_, ?_⟩ <;> simp [hheld, hr, decodings]
  | stops idle hr h =>
    refine ⟨_, _, _, _, h, ?_, ?_, ?_, ?_⟩ <;> simp [idle, decodings]

theorem reading_mem {s : Server} {c : Connection} (found : s.connection? c.generation = some c) :
    c.reading ∈ s.readings :=
  List.mem_map_of_mem (List.mem_of_find?_eq_some found)

/-- A reading after a stroke: that of the connection, or one of another as it was. -/
theorem Stroke.mem_readings {c : Connection} {s s' : Server} {frames : List Frame}
    {put held : List WorkEvent} {running : Bool} (h : Stroke c s s' frames put held running)
    (hn : (s.connections.map (·.generation)).Nodup)
    (found : s.connection? c.generation = some c) {x : Reading} (hx : x ∈ s'.readings) :
    x = ⟨c.key, c.generation, held, running⟩ ∨ x.generation ≠ c.generation ∧ x ∈ s.readings := by
  rw [h.readings] at hx
  obtain ⟨y, hy, rfl⟩ := List.mem_map.mp hx
  by_cases hg : y.generation = c.generation
  · -- numbers are unique, so this is the reading of the connection itself
    have hnodup : (s.readings.map (·.generation)).Nodup := by
      rw [Server.readings, List.map_map]
      exact hn
    have hsame : y = c.reading := List.inj_on_of_nodup_map hnodup hy (reading_mem found) hg
    left
    rw [hsame]
    simp [Reading.moved, Connection.reading]
  · right
    rw [moved_generation, Reading.moved, if_neg hg]
    exact ⟨hg, hy⟩

theorem Stroke.generations {c : Connection} {s s' : Server} {frames : List Frame}
    {put held : List WorkEvent} {running : Bool} (h : Stroke c s s' frames put held running) :
    s'.readings.map (·.generation) = s.readings.map (·.generation) := by
  rw [h.readings, List.map_map]
  exact List.map_congr_left fun x _ => moved_generation c.generation held running x

/-- A step of a read loop keeps the account in balance. -/
theorem Accounted.reads {a : Action} {l : Ledger} {c : Connection} {s s' : Server}
    (ok : Accounted l s) (hn : (s.connections.map (·.generation)).Nodup)
    (reader : a.reader = some c.generation) (found : s.connection? c.generation = some c)
    (h : ReadStroke c s s') : Accounted (l.noting a s s') s' := by
  obtain ⟨frames, put, held, running, hstroke, hmoved, hlost, hdone, hput⟩ := h.exists_stroke
  rw [hstroke.noting reader found]
  have hone : (c.reader.held.filter fun e => e ∉ held ++ put).length ≤ 1 := by
    refine Nat.le_trans (List.length_filter_le _ _) ?_
    cases c.reader <;> simp [Reader.held]
  generalize (c.reader.held.filter fun e => e ∉ held ++ put) = lost at hmoved hlost hone ⊢
  have hmem := reading_mem found
  have hbalance := ok.balance _ hmem
  have honce := ok.once _ hmem
  simp only [Connection.reading] at hbalance honce
  -- a loop that has lost an event has come to its end, and nothing moves any more
  have hcases : entries c.generation l.lost = [] ∨ frames = [] ∧ put = [] ∧ held = [] ∧
      lost = [] ∧ c.reader.held = [] ∧ running = false := by
    by_cases hr : c.reader.isRunning = true
    · left
      by_contra hne
      have hstopped := ok.ended _ hmem hne
      simp [Connection.reading, hr] at hstopped
    · right
      obtain ⟨rfl, rfl, hheld, rfl⟩ := hdone (by simpa using hr)
      rw [hheld] at hmoved
      simpa [decodings, hheld] using hmoved.symm
  refine ⟨?_, ?_, ?_, ?_, ?_, ?_, ?_⟩
  · intro g hg
    rw [hstroke.generations] at hg
    have hne : c.generation ≠ g := by
      rintro rfl
      exact hg (List.mem_map_of_mem hmem)
    simp only [entries_append, entries_other hne, List.append_nil]
    exact ok.fresh g hg
  · intro x hx
    rcases hstroke.mem_readings hn found hx with rfl | ⟨hg, hx⟩
    · simp only [entries_append, entries_own, hstroke.hub, decodings_append, hbalance]
      rcases hcases with hnone | ⟨rfl, rfl, rfl, rfl, hheld, -⟩
      · rw [hnone, List.append_nil, List.append_assoc, hmoved]
        simp only [List.append_assoc, List.nil_append]
      · simp [hheld, decodings]
    · simp only [entries_append, entries_other (Ne.symm hg), List.append_nil, hstroke.hub]
      exact ok.balance x hx
  · intro x hx h
    rcases hstroke.mem_readings hn found hx with rfl | ⟨hg, hx⟩
    · rcases hcases with hnone | ⟨-, -, -, -, -, hstopped⟩
      · refine hlost fun hnil => h ?_
        simp [hnone, hnil]
      · exact hstopped
    · simp only [entries_append, entries_other (Ne.symm hg), List.append_nil] at h
      exact ok.ended x hx h
  · intro x hx
    rcases hstroke.mem_readings hn found hx with rfl | ⟨hg, hx⟩
    · simp only [entries_append, entries_own]
      rcases hcases with hnone | ⟨-, -, -, rfl, -, -⟩
      · rw [hnone]
        exact hone
      · rw [List.append_nil]
        exact honce
    · simp only [entries_append, entries_other (Ne.symm hg), List.append_nil]
      exact ok.once x hx
  · rw [List.map_append]
    exact ok.order.trans (List.prefix_append _ _)
  · intro habandoned
    rw [hstroke.abandoned] at habandoned
    simp only [List.map_append, List.map_map, Function.comp_def, List.map_id', hstroke.items,
      ok.queue habandoned, List.append_assoc]
  · intro habandoned
    rw [hstroke.abandoned] at habandoned
    have hnone : put = [] := by
      by_contra hne
      simp [hput hne] at habandoned
    rw [hstroke.items, ok.abandoned habandoned, hnone, List.append_nil]

/-! ### A run on account -/

theorem noting_self (a : Action) (s : Server) (l : Ledger) : l.noting a s s = l := by
  have hframes (g : Nat) : framesTaken g s s = [] := by
    rw [framesTaken]
    cases s.connection? g <;> simp
  have hput : eventsPut s s = [] := come_self _
  have hlost (g : Nat) : eventsLost g s s = [] := by
    rw [eventsLost, List.filter_eq_nil_iff]
    intro e he
    simp [he]
  unfold Ledger.noting
  cases a.reader with
  | none => simp
  | some g => simp [hframes, hput, hlost]

theorem noting_still {a : Action} (reader : a.reader = none) {s s' : Server}
    (queue : s'.queue = s.queue) (l : Ledger) : l.noting a s s' = l := by
  simp [Ledger.noting, reader, queue]

theorem frames_noting {a : Action} (reader : a.reader = none) (l : Ledger) (s s' : Server) :
    (l.noting a s s').frames = l.frames := by
  rw [Ledger.noting, reader]
  dsimp only
  split <;> rfl

theorem put_noting {a : Action} (reader : a.reader = none) (l : Ledger) (s s' : Server) :
    (l.noting a s s').put = l.put := by
  rw [Ledger.noting, reader]
  dsimp only
  split <;> rfl

/-- Every action keeps the account in balance. -/
theorem accounted_act {l : Ledger} {s : Server} (hosted : Hosted s) (ok : Accounted l s)
    (a : Action) : Accounted (l.noting a s (s.act a)) (s.act a) := by
  cases act_cases hosted a with
  | rests h =>
    rw [h, noting_self]
    exact ok
  | still reader _ h =>
    rw [noting_still reader h.queue]
    exact ok.of_same h.hub h.readings h.queue
  | joins key reader _ hub queue _ readings =>
    rw [noting_still reader queue]
    refine ok.joins ?_ hub queue readings
    intro hmem
    rw [Server.readings, List.map_map] at hmem
    obtain ⟨c, hc, hg⟩ := List.mem_map.mp hmem
    have hle := hosted.tended.le_last (List.mem_map_of_mem hc)
    simp only [Function.comp, Connection.reading] at hg
    simp only [Connection.standing, hg] at hle
    omega
  | reads c reader found _ h => exact ok.reads hosted.nodup_generations reader found h
  | consumes e reader consumer hub abandoned items readings _ =>
    have hnoting : l.noting a s (s.act a) = { l with consumed := l.consumed ++ [e] } := by
      rw [← List.singleton_append] at items
      simp only [Ledger.noting, reader, consumer, items, gone_append]
      rfl
    rw [hnoting]
    exact ok.consumes hub abandoned items readings
  | abandons reader consumer hub abandoned items readings _ =>
    have hnoting : l.noting a s (s.act a) = l := by simp [Ledger.noting, reader, consumer]
    rw [hnoting]
    exact ok.abandons hub abandoned items readings

theorem accounted_start {s : Server} (hc : s.connections = []) (hi : s.queue.items = []) :
    Accounted {} s where
  fresh := fun _ _ => ⟨rfl, rfl, rfl⟩
  balance := by simp [readings, hc]
  ended := by simp [readings, hc]
  once := by simp [readings, hc]
  order := List.prefix_rfl
  queue := fun _ => by rw [hi]; rfl
  abandoned := fun _ => hi

/-- The account balances after any actions. -/
theorem accounted_after {l : Ledger} {s : Server} (hosted : Hosted s) (ok : Accounted l s)
    (actions : List Action) : Accounted (ledger actions s l) (s.after actions) := by
  induction actions generalizing s l with
  | nil => exact ok
  | cons a rest ih => exact ih (hosted_act a hosted) (accounted_act hosted ok a)

theorem slots_act_le {s : Server} (hosted : Hosted s) (a : Action) :
    (s.act a).slots ≤ s.slots := by
  cases act_cases hosted a with
  | rests h => exact Nat.le_of_eq (congrArg slots h)
  | still _ _ h => exact Nat.le_of_eq h.slots
  | joins key _ _ _ queue grants _ => exact Nat.le_of_eq (by rw [slots, slots, queue, grants])
  | reads c _ _ slots _ => exact slots
  | consumes e _ _ _ _ _ _ slots => exact slots
  | abandons _ _ _ _ _ _ slots => exact slots

/-- No actions make the number of slots greater. -/
theorem slots_after_le {s : Server} (hosted : Hosted s) (actions : List Action) :
    (s.after actions).slots ≤ s.slots :=
  hosted.after_induction (P := fun t => t.slots ≤ s.slots)
    (fun a _ ht h => Nat.le_trans (slots_act_le ht a) h) (Nat.le_refl _) actions

theorem hub_act {s : Server} (hosted : Hosted s) (a : Action) : (s.act a).hub = s.hub := by
  cases act_cases hosted a with
  | rests h => rw [h]
  | still _ _ h => exact h.hub
  | joins key _ _ hub _ _ _ => exact hub
  | reads c _ _ _ h =>
    obtain ⟨_, _, _, _, hstroke, -⟩ := h.exists_stroke
    exact hstroke.hub
  | consumes e _ _ hub _ _ _ _ => exact hub
  | abandons _ _ hub _ _ _ _ => exact hub

/-- How connections are served never changes. -/
theorem hub_after {s : Server} (hosted : Hosted s) (actions : List Action) :
    (s.after actions).hub = s.hub :=
  hosted.after_induction (P := fun t => t.hub = s.hub)
    (fun a _ ht h => (hub_act ht a).trans h) rfl actions

theorem abandoned_act {s : Server} (hosted : Hosted s) {a : Action} (ha : a.isAbandon = false) :
    (s.act a).queue.abandoned = s.queue.abandoned := by
  cases act_cases hosted a with
  | rests h => rw [h]
  | still _ _ h => rw [h.queue]
  | joins key _ _ _ queue _ _ => rw [queue]
  | reads c _ _ _ h =>
    obtain ⟨_, _, _, _, hstroke, -⟩ := h.exists_stroke
    exact hstroke.abandoned
  | consumes e _ _ _ abandoned _ _ _ => exact abandoned
  | abandons _ h _ _ _ _ _ => simp [ha] at h

/-- The consumer exists until it ends. -/
theorem abandoned_after {s : Server} (hosted : Hosted s) {actions : List Action}
    (h : ∀ a ∈ actions, a.isAbandon = false) :
    (s.after actions).queue.abandoned = s.queue.abandoned := by
  induction actions generalizing s with
  | nil => rfl
  | cons a rest ih =>
    rw [List.forall_mem_cons] at h
    exact (ih (hosted_act a hosted) h.2).trans (abandoned_act hosted h.1)

/-! ### What one action can do to one connection -/

theorem connection?_of_mem {s : Server} (hosted : Hosted s) {c : Connection}
    (hc : c ∈ s.connections) : s.connection? c.generation = some c := by
  have hsome : (s.connection? c.generation).isSome = true := by
    rw [connection?, List.find?_isSome]
    exact ⟨c, hc, beq_self_eq_true _⟩
  obtain ⟨d, hd⟩ := Option.isSome_iff_exists.mp hsome
  rw [hd, List.inj_on_of_nodup_map hosted.nodup_generations (List.mem_of_find?_eq_some hd) hc
    (generation_of_connection? hd)]

theorem eq_of_found {s : Server} {c d : Connection} (hd : s.connection? d.generation = some d)
    (hc : s.connection? c.generation = some c) (h : d.generation = c.generation) : d = c := by
  rw [h, hc] at hd
  exact (Option.some.inj hd).symm

/-- An event is lost only with a read loop that offers it and leaves. -/
theorem lost_act {s : Server} (hosted : Hosted s) (l : Ledger) (a : Action) {c : Connection}
    (found : s.connection? c.generation = some c) :
    entries c.generation (l.noting a s (s.act a)).lost = entries c.generation l.lost ∨
      a.reader = some c.generation ∧ (c.shutdown = true ∨ s.queue.abandoned = true) ∧
        entries c.generation (l.noting a s (s.act a)).lost =
          entries c.generation l.lost ++ c.reader.held := by
  have hnone (reader : a.reader = none) : (l.noting a s (s.act a)).lost = l.lost := by
    rw [Ledger.noting, reader]
    dsimp only
    split <;> rfl
  cases act_cases hosted a with
  | rests h => exact .inl (by rw [h, noting_self])
  | still reader _ _ => exact .inl (by rw [hnone reader])
  | joins key reader _ _ _ _ _ => exact .inl (by rw [hnone reader])
  | consumes e reader _ _ _ _ _ _ => exact .inl (by rw [hnone reader])
  | abandons reader _ _ _ _ _ _ => exact .inl (by rw [hnone reader])
  | reads d reader hd _ h =>
    by_cases hg : d.generation = c.generation
    · obtain rfl := eq_of_found hd found hg
      cases h with
      | took f idle _ h => exact .inl (by simp [h.noting reader hd, idle])
      | put e holding _ _ h => exact .inl (by simp [h.noting reader hd, holding])
      | waits e holding _ h => exact .inl (by simp [h.noting reader hd, holding])
      | stops idle _ h => exact .inl (by simp [h.noting reader hd, idle])
      | left _ holding _ h =>
        by_cases hheld : d.reader.held = []
        · exact .inl (by simp [h.noting reader hd, hheld])
        · exact .inr ⟨reader, holding hheld, by simp [h.noting reader hd]⟩
    · left
      obtain ⟨_, _, _, _, hstroke, -⟩ := h.exists_stroke
      rw [hstroke.noting reader hd, entries_append, entries_other hg, List.append_nil]

/-- A read loop is not ended by the steps of others. -/
theorem Stroke.isReading_other {c : Connection} {s s' : Server} {frames : List Frame}
    {put held : List WorkEvent} {running : Bool} (h : Stroke c s s' frames put held running)
    {g : Nat} (hg : c.generation ≠ g) : s'.isReading g = s.isReading g := by
  have hsame : ((·.generation == g) ∘ Reading.moved c.generation held running) =
      fun x : Reading => x.generation == g := by
    funext x
    simp only [Function.comp, moved_generation]
  rw [isReading_eq, isReading_eq, h.readings, List.find?_map, hsame]
  cases hx : s.readings.find? (·.generation == g) with
  | none => rfl
  | some x =>
    have hxg : x.generation = g := by simpa using List.find?_some hx
    simp [Reading.moved, hxg, Ne.symm hg]

theorem Stroke.isReading {c : Connection} {s s' : Server} {frames : List Frame}
    {put held : List WorkEvent} {running : Bool} (h : Stroke c s s' frames put held running)
    (found : s.connection? c.generation = some c) : s'.isReading c.generation = running := by
  rw [isReading_eq, h.reading? found, Option.elim_some]

/-- A read loop goes on, unless it is told to stop, or nobody takes its event, or its socket has
run dry, or it has taken a close. -/
theorem isReading_act {s : Server} (hosted : Hosted s) (a : Action) {c : Connection}
    (found : s.connection? c.generation = some c) (hc : c.reader.isRunning = true) :
    (s.act a).isReading c.generation = true ∨
      a.reader = some c.generation ∧
        (c.shutdown = true ∨ c.reader.held ≠ [] ∧ s.queue.abandoned = true ∨ RanDry c s ∨
          framesTaken c.generation s (s.act a) = [.close]) := by
  have hreading : s.isReading c.generation = true := by
    rw [Server.isReading, found, Option.elim_some, hc]
  have hsame {s' : Server} (readings : s'.readings = s.readings) :
      s'.isReading c.generation = true := by
    rw [isReading_eq, readings, ← isReading_eq, hreading]
  cases act_cases hosted a with
  | rests h => exact .inl (by rw [h, hreading])
  | still _ _ h => exact .inl (hsame h.readings)
  | consumes e _ _ _ _ _ readings _ => exact .inl (hsame readings)
  | abandons _ _ _ _ _ readings _ => exact .inl (hsame readings)
  | joins key _ _ _ _ _ readings =>
    left
    rw [isReading_eq, readings, List.find?_append, reading?_eq, found]
    exact hc
  | reads d reader hd _ h =>
    by_cases hg : d.generation = c.generation
    · obtain rfl := eq_of_found hd found hg
      cases h with
      | took f _ _ h =>
        by_cases hf : f = .close
        · refine .inr ⟨reader, .inr (.inr (.inr ?_))⟩
          rw [framesTaken, found, Option.elim_some, h.socket, gone_append, hf]
        · exact .inl (by simp [h.isReading found, hf])
      | put e _ _ _ h => exact .inl (h.isReading found)
      | waits e _ _ h => exact .inl (h.isReading found)
      | stops _ running _ => simp [running] at hc
      | left _ holding idle _ =>
        refine .inr ⟨reader, ?_⟩
        by_cases hheld : d.reader.held = []
        · exact (idle hheld).imp_right fun h => .inr (.inl h)
        · exact (holding hheld).imp_right fun h => .inl ⟨hheld, h⟩
    · left
      obtain ⟨_, _, _, _, hstroke, -⟩ := h.exists_stroke
      rw [hstroke.isReading_other hg, hreading]

/-- A read loop that takes a frame takes one, and goes on unless it is a close. -/
theorem framesTaken_act {s : Server} (hosted : Hosted s) {a : Action} {c : Connection}
    (found : s.connection? c.generation = some c) (reader : a.reader = some c.generation) :
    framesTaken c.generation s (s.act a) = [] ∨
      ∃ f, framesTaken c.generation s (s.act a) = [f] ∧
        (s.act a).isReading c.generation = decide (f ≠ .close) := by
  cases act_cases hosted a with
  | rests h =>
    left
    rw [h, framesTaken, found, Option.elim_some, gone_self]
  | still h _ _ => simp [reader] at h
  | joins key h _ _ _ _ _ => simp [reader] at h
  | consumes e h _ _ _ _ _ _ => simp [reader] at h
  | abandons h _ _ _ _ _ _ => simp [reader] at h
  | reads d hreader hd _ h =>
    obtain rfl := eq_of_found hd found (Option.some.inj (hreader.symm.trans reader))
    have htaken {frames : List Frame} {put held : List WorkEvent} {running : Bool}
        (h : Stroke d s (s.act a) frames put held running) :
        framesTaken d.generation s (s.act a) = frames := by
      rw [framesTaken, found, Option.elim_some, h.socket, gone_append]
    cases h with
    | took f _ _ h => exact .inr ⟨f, htaken h, h.isReading found⟩
    | left _ _ _ h => exact .inl (htaken h)
    | put e _ _ _ h => exact .inl (htaken h)
    | waits e _ _ h => exact .inl (htaken h)
    | stops _ _ h => exact .inl (htaken h)

/-! ### From a frame to the consumer -/

theorem mem_decodings {limit : Nat} {key : WorkerKey} {frames : List Frame} {e : WorkEvent}
    (h : e ∈ decodings limit key frames) :
    e.workerKey = key ∧ e.requesterId = e.result.requesterId ∧
      ∃ t, .text t ∈ frames ∧ WorkerMessage.ofFrame limit t = .ok (.workResult e.result) := by
  obtain ⟨f, hf, he⟩ := List.mem_flatMap.mp h
  cases f with
  | text t =>
    simp only [decoded] at he
    cases hm : WorkerMessage.ofFrame limit t with
    | ok m =>
      obtain ⟨r⟩ := m
      rw [hm] at he
      obtain rfl := List.mem_singleton.mp he
      exact ⟨rfl, rfl, t, hf, hm⟩
    | error _ =>
      rw [hm] at he
      simp at he
  | _ => simp [decoded] at he

/--
**No work event is lost, doubled or put out of order.**  Whatever happens to a server, in
whatever order, and whatever comes from the sockets, after any actions:

  * the events that a connection has put on the queue, then the one that its read
    loop has in hand, then the one that it lost, are those of the frames that it has
    read, each once and in order; each carries the key of the connection and the
    requester of its own frame;
  * only a read loop that has come to its end has lost an event, and then one;
  * the queue holds no more events than it has room for;
  * the consumer has seen the events in the order in which they were put on the
    queue, hence those of a connection in the order of their frames, and the rest is
    still on the queue, unless the consumer has ended.

And whatever happens next, a connection loses an event only if its read loop has it in
hand and was told to stop or has no consumer any more; a read loop takes one frame at
a time and goes on after every one but a close; and it ends only then, or told to stop,
or without a consumer for its event, or over a socket that is gone or silent.
-/
theorem work_events_accounted (hub : HubSettings) (payout : Payout) (capacity : Nat)
    (store : Store) (clock : Clock) (consumer : Option Stage) (actions : List Action) :
    let s₀ : Server := { start hub payout capacity store clock with aggregator := consumer }
    let s := s₀.after actions
    let l := ledger actions s₀ {}
    (∀ c ∈ s.connections,
      entries c.generation l.put ++ c.reader.held ++ entries c.generation l.lost =
          decodings hub.maxFrameBytes c.key (entries c.generation l.frames) ∧
        c.reader.held.length ≤ 1 ∧
        (∀ e ∈ entries c.generation l.put ++ c.reader.held,
          e.workerKey = c.key ∧ e.requesterId = e.result.requesterId ∧
            ∃ t, .text t ∈ entries c.generation l.frames ∧
              WorkerMessage.ofFrame hub.maxFrameBytes t = .ok (.workResult e.result)) ∧
        (entries c.generation l.lost).length ≤ 1 ∧
        (entries c.generation l.lost ≠ [] → c.reader.isRunning = false)) ∧
    s.queue.items.length ≤ max 1 capacity ∧
    l.consumed = (l.put.take l.consumed.length).map (·.2) ∧
    (∀ c ∈ s.connections, entries c.generation (l.put.take l.consumed.length) <+:
      decodings hub.maxFrameBytes c.key (entries c.generation l.frames)) ∧
    ((∀ a ∈ actions, a.isAbandon = false) →
      s.queue.abandoned = false ∧ l.put.map (·.2) = l.consumed ++ s.queue.items) ∧
    ∀ a, ∀ c ∈ s.connections,
      (entries c.generation (l.noting a s (s.act a)).lost = entries c.generation l.lost ∨
        a.reader = some c.generation ∧ (c.shutdown = true ∨ s.queue.abandoned = true) ∧
          entries c.generation (l.noting a s (s.act a)).lost =
            entries c.generation l.lost ++ c.reader.held) ∧
      (a.reader = some c.generation → framesTaken c.generation s (s.act a) = [] ∨
        ∃ f, framesTaken c.generation s (s.act a) = [f] ∧
          (s.act a).isReading c.generation = decide (f ≠ .close)) ∧
      (c.reader.isRunning = true → (s.act a).isReading c.generation = true ∨
        a.reader = some c.generation ∧
          (c.shutdown = true ∨ c.reader.held ≠ [] ∧ s.queue.abandoned = true ∨ RanDry c s ∨
            framesTaken c.generation s (s.act a) = [.close])) := by
  intro s₀ s l
  have hosted₀ : Hosted s₀ := hosted_after rfl rfl []
  have hosted : Hosted s := hosted_after rfl rfl actions
  have ok : Accounted l s := accounted_after hosted₀ (accounted_start rfl rfl) actions
  have hhub : s.hub = hub := hub_after hosted₀ actions
  have hbalance : ∀ c ∈ s.connections,
      entries c.generation l.put ++ c.reader.held ++ entries c.generation l.lost =
        decodings hub.maxFrameBytes c.key (entries c.generation l.frames) := by
    intro c hc
    have h := ok.balance c.reading (List.mem_map_of_mem hc)
    rw [hhub] at h
    exact h.symm
  have horder : l.consumed = (l.put.take l.consumed.length).map (·.2) := by
    rw [List.map_take]
    exact List.prefix_iff_eq_take.mp ok.order
  refine ⟨?_, ?_, horder, ?_, ?_, ?_⟩
  · intro c hc
    have hmem : c.reading ∈ s.readings := List.mem_map_of_mem hc
    refine ⟨hbalance c hc, ?_, ?_, ok.once _ hmem, ok.ended _ hmem⟩
    · cases c.reader <;> simp [Reader.held]
    · intro e he
      refine mem_decodings ?_
      rw [← hbalance c hc]
      exact List.mem_append_left _ he
  · have hslots : s.slots ≤ s₀.slots := slots_after_le hosted₀ actions
    have hstart : s₀.slots = max 1 capacity := by
      have hfree : s₀.slots = 0 + max 1 capacity + 0 := rfl
      omega
    have hitems : s.slots = s.queue.items.length + s.queue.free + s.grants := rfl
    omega
  · intro c hc
    rw [← hbalance c hc, List.append_assoc]
    exact (entries_take _ _ _).trans (List.prefix_append _ _)
  · intro hconsumer
    have hexists : s.queue.abandoned = false := abandoned_after hosted₀ hconsumer
    exact ⟨hexists, ok.queue hexists⟩
  · intro a c hc
    have found := connection?_of_mem hosted hc
    exact ⟨lost_act hosted l a found, framesTaken_act hosted found, isReading_act hosted a found⟩

end Foreman.Server
