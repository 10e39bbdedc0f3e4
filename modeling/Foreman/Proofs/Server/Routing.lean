/-
Which worker gets which reward.

A reward changes hands four times between the event that earned it and the socket that
it is written to, while keys are given to new connections and old ones end.  To follow it
there, each reward goes by the number of its event among those that the aggregator has
recorded.  `Tags` are these numbers, for the rewards that were sent on each connection,
for those accepted for it and not sent, and for those that wait for the notifier.

Two things are true of the tags at all times.  They are `Ordered`: read from a socket
back to the notifier the numbers increase, and no two connections share one.  And they are
right: `Routed` says that every reward, wherever it is, is the one for the event with its
number, and is where the worker of that event is.  Each step that matters behind the work
queue moves one reward on by one place, and its tag with it.
-/
import Foreman.Proofs.Server.BackstageStep
import Foreman.Proofs.Server.Origin

namespace Foreman.Server

/-! ### What an observer of the sockets writes down -/

/-- A ledger that also knows what was written to the sockets. -/
structure Trail extends Ledger where
  /-- The frames that write loops have written, each with the number of the connection and with
  the number of frames that had been read by then. -/
  written : List (Nat × Nat × Frame) := []

/-- The trail after an action that led from one state to another. -/
def Trail.noting (a : Action) (s s' : Server) (t : Trail) : Trail where
  toLedger := t.toLedger.noting a s s'
  written := t.written ++ a.writer.elim [] fun g =>
    ((framesWritten a s s').map (t.frames.length, ·)).map (g, ·)

/-- The trail after some actions, the first one first. -/
def trail : List Action → Server → Trail → Trail
  | [], _, t => t
  | a :: rest, s, t => trail rest (s.act a) (t.noting a s (s.act a))

/-- The rewards that were sent on a connection, each with the number of frames that had been
read by then. -/
def rewardsSent (limit : Nat) (t : Trail) (g : Nat) : List (Nat × Reward) :=
  (entries g t.written).filterMap fun y => (y.2.reward? limit).map (y.1, ·)

theorem filterMap_reward? (limit n : Nat) (frames : List Frame) :
    (frames.map (n, ·)).filterMap (fun y => (y.2.reward? limit).map (y.1, ·)) =
      (rewardsIn limit frames).map (n, ·) := by
  rw [rewardsIn, List.map_filterMap, List.filterMap_map]
  rfl

/-- What is written in an action is added to what was sent on its connection. -/
theorem rewardsSent_noting (limit : Nat) (a : Action) (s s' : Server) (t : Trail) (g : Nat) :
    rewardsSent limit (t.noting a s s') g = rewardsSent limit t g ++
      if a.writer = some g then (rewardsIn limit (framesWritten a s s')).map (t.frames.length, ·)
      else [] := by
  rw [rewardsSent, Trail.noting, entries_append, List.filterMap_append]
  refine congrArg (rewardsSent limit t g ++ ·) ?_
  cases hw : a.writer with
  | none => rfl
  | some k =>
      rw [Option.elim_some]
      by_cases hk : k = g
      · rw [hk, if_pos rfl, entries_own, filterMap_reward?]
      · rw [if_neg (by simpa using hk), entries_other hk]
        rfl

theorem rewardsSent_of_silent {limit : Nat} {a : Action} {s s' : Server}
    (h : rewardsIn limit (framesWritten a s s') = []) (t : Trail) :
    rewardsSent limit (t.noting a s s') = rewardsSent limit t := by
  funext g
  rw [rewardsSent_noting, h]
  split <;> exact List.append_nil _

theorem rewardsSent_of_wrote {limit g : Nat} {r : Reward} {a : Action} {s s' : Server}
    (writer : a.writer = some g) (h : rewardsIn limit (framesWritten a s s') = [r]) (t : Trail) :
    rewardsSent limit (t.noting a s s') = Function.update (rewardsSent limit t) g
      (rewardsSent limit t g ++ [(t.frames.length, r)]) := by
  funext k
  rw [rewardsSent_noting, h, writer]
  by_cases hk : k = g
  · rw [hk, if_pos rfl, Function.update_self]
    rfl
  · rw [if_neg (by simpa using Ne.symm hk), Function.update_of_ne hk, List.append_nil]

/-! ### Numbers for rewards -/

/-- The events that rewards are for, by their numbers among those that were recorded. -/
structure Tags where
  /-- Of the rewards that were sent on a connection. -/
  sent : Nat → List Nat := fun _ => []
  /-- Of those accepted for it and not sent. -/
  kept : Nat → List Nat := fun _ => []
  /-- Of those that wait for the notifier. -/
  queued : List Nat := []

namespace Tags

/-- The rewards that have come to a connection. -/
def arrived (k : Tags) (g : Nat) : List Nat := k.sent g ++ k.kept g

/-- The first of the rewards accepted for a connection is sent. -/
def send (g : Nat) (k : Tags) : Tags :=
  { k with
    sent := Function.update k.sent g (k.sent g ++ (k.kept g).take 1)
    kept := Function.update k.kept g ((k.kept g).drop 1) }

/-- The first of the rewards accepted for a connection cannot be sent. -/
def skip (g : Nat) (k : Tags) : Tags :=
  { k with kept := Function.update k.kept g ((k.kept g).drop 1) }

/-- The first of the rewards that wait is accepted for a connection. -/
def accept (g : Nat) (k : Tags) : Tags :=
  { k with
    kept := Function.update k.kept g (k.kept g ++ k.queued.take 1)
    queued := k.queued.drop 1 }

/-- The first of the rewards that wait is accepted by nobody. -/
def drop (k : Tags) : Tags := { k with queued := k.queued.drop 1 }

/-- There is a reward for the event with the number `n`. -/
def queue (n : Nat) (k : Tags) : Tags := { k with queued := k.queued ++ [n] }

theorem arrived_send (g h : Nat) (k : Tags) : (k.send g).arrived h = k.arrived h := by
  by_cases hg : h = g
  · subst hg
    simp only [Tags.arrived, send, Function.update_self, List.append_assoc,
      List.take_append_drop]
  · simp [Tags.arrived, send, Function.update_of_ne hg]

theorem arrived_skip_sublist (g h : Nat) (k : Tags) :
    ((k.skip g).arrived h).Sublist (k.arrived h) := by
  refine (List.Sublist.refl _).append ?_
  by_cases hg : h = g
  · subst hg
    simp only [skip, Function.update_self]
    exact List.drop_sublist 1 _
  · simp only [skip, Function.update_of_ne hg, List.Sublist.refl]

theorem arrived_accept_self (g : Nat) (k : Tags) :
    (k.accept g).arrived g = k.arrived g ++ k.queued.take 1 := by
  simp [Tags.arrived, accept]

theorem arrived_accept_of_ne {g h : Nat} (hg : h ≠ g) (k : Tags) :
    (k.accept g).arrived h = k.arrived h := by
  simp [Tags.arrived, accept, Function.update_of_ne hg]

/-- The numbers increase on every way from the notifier to a socket, and no two ways meet; all of
them are numbers of the first `n` events. -/
structure Ordered (n : Nat) (k : Tags) : Prop where
  increasing : ∀ g, (k.arrived g ++ k.queued).Pairwise (· < ·)
  apart : ∀ g h, g ≠ h → (k.arrived g).Disjoint (k.arrived h)
  below : ∀ g, ∀ j ∈ k.arrived g ++ k.queued, j < n

namespace Ordered

variable {n g : Nat} {k : Tags}

/-- What only leaves numbers out keeps the order. -/
theorem of_sublist {k' : Tags} (ok : k.Ordered n)
    (harrived : ∀ h, (k'.arrived h).Sublist (k.arrived h))
    (hqueued : k'.queued.Sublist k.queued) : k'.Ordered n where
  increasing h := (ok.increasing h).sublist ((harrived h).append hqueued)
  apart h h' hne _ hj hj' := ok.apart h h' hne ((harrived h).subset hj) ((harrived h').subset hj')
  below h j hj := ok.below h j (((harrived h).append hqueued).subset hj)

theorem send (ok : k.Ordered n) (g : Nat) : (k.send g).Ordered n :=
  ok.of_sublist (fun h => by rw [arrived_send]) (List.Sublist.refl _)

theorem skip (ok : k.Ordered n) (g : Nat) : (k.skip g).Ordered n :=
  ok.of_sublist (fun h => arrived_skip_sublist g h k) (List.Sublist.refl _)

theorem drop (ok : k.Ordered n) : k.drop.Ordered n :=
  ok.of_sublist (fun _ => List.Sublist.refl _) (List.drop_sublist 1 _)

/-- A reward that waits has come to no connection yet. -/
theorem not_mem_arrived (ok : k.Ordered n) {j : Nat} (hj : j ∈ k.queued) (h : Nat) :
    j ∉ k.arrived h :=
  fun hmem => Nat.lt_irrefl j ((List.pairwise_append.mp (ok.increasing h)).2.2 j hmem j hj)

theorem accept (ok : k.Ordered n) (g : Nat) : (k.accept g).Ordered n := by
  -- the way to the connection stays as it is, and every other one gets shorter
  have hway (h : Nat) :
      ((k.accept g).arrived h ++ (k.accept g).queued).Sublist (k.arrived h ++ k.queued) := by
    by_cases hg : h = g
    · rw [hg, arrived_accept_self, List.append_assoc]
      show (k.arrived g ++ (k.queued.take 1 ++ k.queued.drop 1)).Sublist (k.arrived g ++ k.queued)
      rw [List.take_append_drop]
    · rw [arrived_accept_of_ne hg]
      exact (List.Sublist.refl _).append (List.drop_sublist 1 _)
  have hcome {j h : Nat} (hj : j ∈ (k.accept g).arrived h) :
      j ∈ k.arrived h ∨ h = g ∧ j ∈ k.queued := by
    by_cases hg : h = g
    · subst hg
      rw [arrived_accept_self, List.mem_append] at hj
      exact hj.imp_right fun hj => ⟨rfl, List.mem_of_mem_take hj⟩
    · rw [arrived_accept_of_ne hg] at hj
      exact .inl hj
  refine ⟨fun h => (ok.increasing h).sublist (hway h), ?_, fun h j hj => ?_⟩
  · intro h h' hne j hj hj'
    rcases hcome hj with hold | ⟨rfl, hnew⟩
    · rcases hcome hj' with hold' | ⟨rfl, hnew'⟩
      · exact ok.apart h h' hne hold hold'
      · exact ok.not_mem_arrived hnew' h hold
    · rcases hcome hj' with hold' | ⟨rfl, -⟩
      · exact ok.not_mem_arrived hnew h' hold'
      · exact hne rfl
  · exact ok.below h j ((hway h).subset hj)

theorem queue (ok : k.Ordered n) : (k.queue n).Ordered (n + 1) where
  increasing h := by
    show (k.arrived h ++ (k.queued ++ [n])).Pairwise (· < ·)
    rw [← List.append_assoc, List.pairwise_append]
    refine ⟨ok.increasing h, List.pairwise_singleton _ _, fun j hj m hm => ?_⟩
    rw [List.mem_singleton.mp hm]
    exact ok.below h j hj
  apart := ok.apart
  below h j hj := by
    have hj : j ∈ (k.arrived h ++ k.queued) ++ [n] := by
      rw [List.append_assoc]
      exact hj
    rcases List.mem_append.mp hj with hj | hj
    · exact Nat.lt_succ_of_lt (ok.below h j hj)
    · rw [List.mem_singleton.mp hj]
      exact Nat.lt_succ_self n

theorem mono (ok : k.Ordered n) {m : Nat} (hm : n ≤ m) : k.Ordered m :=
  ⟨ok.increasing, ok.apart, fun h j hj => Nat.lt_of_lt_of_le (ok.below h j hj) hm⟩

end Ordered

end Tags

/-! ### Every reward is where it belongs -/

/-- The reward is the one for the event with the number `j`, which is an event of a worker. -/
def IsFor (done : List WorkEvent) (key : WorkerKey) (r : Reward) (j : Nat) : Prop :=
  ∃ e, done[j]? = some e ∧ e.workerKey = key ∧
    r.hash = e.result.hash ∧ r.requesterId = e.requesterId

theorem IsFor.append {done : List WorkEvent} {key : WorkerKey} {r : Reward} {j : Nat}
    (h : IsFor done key r j) (more : List WorkEvent) : IsFor (done ++ more) key r j := by
  obtain ⟨e, he, hkey, hhash, hrequester⟩ := h
  refine ⟨e, ?_, hkey, hhash, hrequester⟩
  rw [List.getElem?_append_left (List.getElem?_eq_some_iff.mp he).1, he]

/-- The frame of the event with the number `j` was among the first `n` that were read. -/
def ReadWithin (origins : List Nat) (n j : Nat) : Prop := ∃ i, origins[j]? = some i ∧ i < n

theorem ReadWithin.append {origins : List Nat} {n j : Nat} (h : ReadWithin origins n j)
    (more : List Nat) : ReadWithin (origins ++ more) n j := by
  obtain ⟨i, hi, hlt⟩ := h
  refine ⟨i, ?_, hlt⟩
  rw [List.getElem?_append_left (List.getElem?_eq_some_iff.mp hi).1, hi]

/-- Every reward, whether it was sent, or was accepted for a connection, or waits for the
notifier, is for the event that its tag names, and on its way to the worker of that event. -/
structure Routed (k : Tags) (origins : List Nat) (out : Nat → List (Nat × Reward))
    (done : List WorkEvent) (xs : List Endpoint) (rewards : List RewardEvent) : Prop where
  ordered : k.Ordered done.length
  sent : ∀ x ∈ xs,
    List.Forall₂ (fun y j => IsFor done x.key y.2 j ∧ ReadWithin origins y.1 j)
      (out x.generation) (k.sent x.generation)
  kept : ∀ x ∈ xs, List.Forall₂ (IsFor done x.key) x.rewards (k.kept x.generation)
  queued : List.Forall₂ (fun r j => ∃ p, r.payload = .rewardEarned p ∧ IsFor done r.target p j)
    rewards k.queued
  fresh : ∀ g, g ∉ xs.map (·.generation) → out g = [] ∧ k.arrived g = []

theorem generations_map_holding (g : Nat) (rs : List Reward) (xs : List Endpoint) :
    (xs.map (Endpoint.holding g rs)).map (·.generation) = xs.map (·.generation) := by
  simp [Function.comp_def]

theorem generations_map_retired (g : Nat) (xs : List Endpoint) :
    (xs.map (Endpoint.retired g)).map (·.generation) = xs.map (·.generation) := by
  simp [Function.comp_def]

/-- The endpoints after the rewards of one of them have changed. -/
theorem mem_map_holding {xs : List Endpoint} {x y : Endpoint} {rs : List Reward}
    (alone : ∀ y ∈ xs, y.generation = x.generation → y = x)
    (hy : y ∈ xs.map (Endpoint.holding x.generation rs)) :
    y = { x with rewards := rs } ∨ y ∈ xs ∧ y.generation ≠ x.generation := by
  obtain ⟨z, hz, rfl⟩ := List.mem_map.mp hy
  by_cases hg : z.generation = x.generation
  · left
    rw [alone z hz hg, Endpoint.holding, if_pos rfl]
  · right
    rw [Endpoint.holding, if_neg hg]
    exact ⟨hz, hg⟩

namespace Routed

variable {k : Tags} {origins : List Nat} {out : Nat → List (Nat × Reward)}
  {done : List WorkEvent} {xs : List Endpoint} {rewards : List RewardEvent}

/-- More events make no difference to the rewards for those before. -/
theorem grows (ok : Routed k origins out done xs rewards) (frames : List Nat)
    (events : List WorkEvent) : Routed k (origins ++ frames) out (done ++ events) xs rewards where
  ordered := ok.ordered.mono (by rw [List.length_append]; exact Nat.le_add_right _ _)
  sent x hx := (ok.sent x hx).imp fun _ _ h => ⟨h.1.append _, h.2.append _⟩
  kept x hx := (ok.kept x hx).imp fun _ _ h => h.append _
  queued := ok.queued.imp fun _ _ ⟨p, hp, h⟩ => ⟨p, hp, h.append _⟩
  fresh := ok.fresh

/-- A connection that begins was sent nothing. -/
theorem joins (ok : Routed k origins out done xs rewards) {g : Nat}
    (hnew : g ∉ xs.map (·.generation)) (key : WorkerKey) (link : Nat) :
    Routed k origins out done (xs ++ [⟨key, g, link, [], false⟩]) rewards := by
  obtain ⟨hsent, harrived⟩ := ok.fresh g hnew
  obtain ⟨hksent, hkept⟩ := List.append_eq_nil_iff.mp harrived
  refine ⟨ok.ordered, ?_, ?_, ok.queued, ?_⟩
  · intro x hx
    rcases List.mem_append.mp hx with hold | hx
    · exact ok.sent x hold
    · rw [List.mem_singleton.mp hx, hsent, hksent]
      exact .nil
  · intro x hx
    rcases List.mem_append.mp hx with hold | hx
    · exact ok.kept x hold
    · rw [List.mem_singleton.mp hx, hkept]
      exact .nil
  · intro h hh
    rw [List.map_append, List.mem_append, not_or] at hh
    exact ok.fresh h hh.1

theorem retires (ok : Routed k origins out done xs rewards) (g : Nat) :
    Routed k origins out done (xs.map (Endpoint.retired g)) rewards := by
  refine ⟨ok.ordered, ?_, ?_, ok.queued, ?_⟩
  · intro y hy
    obtain ⟨x, hx, rfl⟩ := List.mem_map.mp hy
    rw [Endpoint.retired_key, Endpoint.retired_generation]
    exact ok.sent x hx
  · intro y hy
    obtain ⟨x, hx, rfl⟩ := List.mem_map.mp hy
    rw [Endpoint.retired_key, Endpoint.retired_generation, Endpoint.retired_rewards]
    exact ok.kept x hx
  · rw [generations_map_retired]
    exact ok.fresh

section

variable {x : Endpoint} {r : Reward} {rest : List Reward}

/-- A write loop sends the first of the rewards that were accepted. -/
theorem sends (ok : Routed k origins out done xs rewards) (hx : x ∈ xs)
    (alone : ∀ y ∈ xs, y.generation = x.generation → y = x) (held : x.rewards = r :: rest)
    {n : Nat} (early : ∀ j < done.length, ReadWithin origins n j) :
    Routed (k.send x.generation) origins
      (Function.update out x.generation (out x.generation ++ [(n, r)])) done
      (xs.map (Endpoint.holding x.generation rest)) rewards := by
  have hkept := ok.kept x hx
  rw [held] at hkept
  obtain ⟨j, js, hj, hjs, htags⟩ := List.forall₂_cons_left_iff.mp hkept
  have hbelow : j < done.length := by
    obtain ⟨e, he, -⟩ := hj
    exact (List.getElem?_eq_some_iff.mp he).1
  refine ⟨ok.ordered.send _, ?_, ?_, ok.queued, ?_⟩
  · intro y hy
    rcases mem_map_holding alone hy with rfl | ⟨hy, hne⟩
    · simp only [Tags.send, Function.update_self, htags]
      exact List.rel_append (ok.sent x hx) (.cons ⟨hj, early j hbelow⟩ .nil)
    · simp only [Tags.send, Function.update_of_ne hne]
      exact ok.sent y hy
  · intro y hy
    rcases mem_map_holding alone hy with rfl | ⟨hy, hne⟩
    · simp only [Tags.send, Function.update_self, htags]
      exact hjs
    · simp only [Tags.send, Function.update_of_ne hne]
      exact ok.kept y hy
  · intro g hg
    rw [generations_map_holding] at hg
    have hne : g ≠ x.generation := by
      rintro rfl
      exact hg (List.mem_map_of_mem hx)
    rw [Tags.arrived_send, Function.update_of_ne hne]
    exact ok.fresh g hg

/-- A write loop takes the first of the rewards that were accepted and cannot send it. -/
theorem skips (ok : Routed k origins out done xs rewards) (hx : x ∈ xs)
    (alone : ∀ y ∈ xs, y.generation = x.generation → y = x) (held : x.rewards = r :: rest) :
    Routed (k.skip x.generation) origins out done
      (xs.map (Endpoint.holding x.generation rest)) rewards := by
  have hkept := ok.kept x hx
  rw [held] at hkept
  obtain ⟨j, js, -, hjs, htags⟩ := List.forall₂_cons_left_iff.mp hkept
  refine ⟨ok.ordered.skip _, ?_, ?_, ok.queued, ?_⟩
  · intro y hy
    rcases mem_map_holding alone hy with rfl | ⟨hy, -⟩
    · exact ok.sent x hx
    · exact ok.sent y hy
  · intro y hy
    rcases mem_map_holding alone hy with rfl | ⟨hy, hne⟩
    · simp only [Tags.skip, Function.update_self, htags]
      exact hjs
    · simp only [Tags.skip, Function.update_of_ne hne]
      exact ok.kept y hy
  · intro g hg
    rw [generations_map_holding] at hg
    obtain ⟨hsent, harrived⟩ := ok.fresh g hg
    have hskip := Tags.arrived_skip_sublist x.generation g k
    rw [harrived] at hskip
    exact ⟨hsent, List.eq_nil_of_sublist_nil hskip⟩

end

section

variable {r : RewardEvent} {rest : List RewardEvent}

/-- The notifier hands the first reward over to a connection of its worker. -/
theorem delivers (ok : Routed k origins out done xs (r :: rest)) {x : Endpoint} (hx : x ∈ xs)
    (alone : ∀ y ∈ xs, y.generation = x.generation → y = x) (key : x.key = r.target) :
    Routed (k.accept x.generation) origins out done
      (xs.map (Endpoint.holding x.generation (x.rewards ++ r.payload.reward?.toList))) rest := by
  obtain ⟨j, js, ⟨p, hp, hj⟩, hjs, htags⟩ := List.forall₂_cons_left_iff.mp ok.queued
  refine ⟨ok.ordered.accept _, ?_, ?_, ?_, ?_⟩
  · intro y hy
    rcases mem_map_holding alone hy with rfl | ⟨hy, -⟩
    · exact ok.sent x hx
    · exact ok.sent y hy
  · intro y hy
    rcases mem_map_holding alone hy with rfl | ⟨hy, hne⟩
    · simp only [Tags.accept, Function.update_self, htags, hp]
      rw [← key] at hj
      exact List.rel_append (ok.kept x hx) (.cons hj .nil)
    · simp only [Tags.accept, Function.update_of_ne hne]
      exact ok.kept y hy
  · simp only [Tags.accept, htags]
    exact hjs
  · intro g hg
    rw [generations_map_holding] at hg
    have hne : g ≠ x.generation := by
      rintro rfl
      exact hg (List.mem_map_of_mem hx)
    rw [Tags.arrived_accept_of_ne hne]
    exact ok.fresh g hg

/-- The notifier finds nobody to hand the first reward over to. -/
theorem drops (ok : Routed k origins out done xs (r :: rest)) :
    Routed k.drop origins out done xs rest := by
  obtain ⟨j, js, -, hjs, htags⟩ := List.forall₂_cons_left_iff.mp ok.queued
  refine ⟨ok.ordered.drop, ok.sent, ok.kept, ?_, ok.fresh⟩
  simp only [Tags.drop, htags]
  exact hjs

end

/-- The aggregator rewards the event that it has just recorded. -/
theorem earns (ok : Routed k origins out done xs rewards) (clock : Clock) (e : WorkEvent)
    (tally : WorkTally) :
    Routed (k.queue done.length) origins out (done ++ [e]) xs
      (rewards ++ [Payout.reward clock e tally]) := by
  have hgrown := ok.grows [] [e]
  rw [List.append_nil] at hgrown
  refine ⟨?_, hgrown.sent, hgrown.kept, ?_, hgrown.fresh⟩
  · rw [List.length_append, List.length_singleton]
    exact ok.ordered.queue
  · refine List.rel_append hgrown.queued (.cons ⟨_, rfl, e, ?_, rfl, rfl, rfl⟩ .nil)
    exact List.getElem?_concat_length

end Routed

/-! ### Runs -/

/-- The rewards of a server are where they belong, by what an observer has written down. -/
def RoutedIn (k : Tags) (origins : List Nat) (t : Trail) (s : Server) : Prop :=
  Routed k origins (rewardsSent s.hub.maxFrameBytes t) t.consumed s.endpoints s.rewards

section

variable {k : Tags} {origins : List Nat} {t : Trail} {s : Server}

theorem RoutedIn.of_shift {s₁ s' : Server} {t' : Trail} {b : Backstage} {xs : List Endpoint}
    {out : Nat → List (Nat × Reward)} {done : List WorkEvent} (hub : s'.hub = s.hub)
    (h : Shift s₁ s' b xs) (hout : rewardsSent s.hub.maxFrameBytes t' = out)
    (hdone : t'.consumed = done) (ok : Routed k origins out done xs b.rewards) :
    RoutedIn k origins t' s' := by
  have hrewards : s'.rewards = b.rewards := congrArg Backstage.rewards h.backstage
  rw [RoutedIn, hub, hout, hdone, h.endpoints, hrewards]
  exact ok

/-- A new connection gets a number that no other has. -/
theorem next_not_mem_endpoints (hosted : Hosted s) :
    s.registry.lastGeneration + 1 ∉ s.endpoints.map (·.generation) := by
  intro hmem
  rw [endpoints, List.map_map] at hmem
  obtain ⟨c, hc, hg⟩ := List.mem_map.mp hmem
  have hle := hosted.tended.le_last (List.mem_map_of_mem hc)
  simp only [Function.comp, Connection.endpoint] at hg
  simp only [Connection.standing, hg] at hle
  omega

/-- Endpoints have different numbers. -/
theorem endpoint_alone (hosted : Hosted s) {x : Endpoint} (hx : x ∈ s.endpoints) :
    ∀ y ∈ s.endpoints, y.generation = x.generation → y = x := by
  intro y hy hg
  obtain ⟨c, hc, rfl⟩ := List.mem_map.mp hx
  exact endpoint_of_generation hosted (connection?_of_mem hosted hc) hy hg

/-- Every action of a supervised server leaves the rewards where they belong. -/
theorem routed_act (hosted : Hosted s) (ok : RoutedIn k origins t s)
    (early : ∀ j < t.consumed.length, ReadWithin origins t.frames.length j) {a : Action}
    (supervised : a.isSupervised = true) (brings : a.bringsReward = false) :
    ∃ k', RoutedIn k' origins (t.noting a s (s.act a)) (s.act a) := by
  have hub := hub_act hosted a
  have hout (silent : Silent a s (s.act a)) := rewardsSent_of_silent silent.wrote t
  have hdone (queue : a.reader = none → (s.act a).queue.items = s.queue.items) :
      (t.noting a s (s.act a)).consumed = t.consumed := consumed_of_same queue t.toLedger
  cases backstage_act hosted supervised with
  | aside silent h => exact ⟨k, .of_shift hub h (hout silent) (hdone silent.queue) ok⟩
  | posts hbrings _ _ => simp [brings] at hbrings
  | waits key link _ silent _ h => exact ⟨k, .of_shift hub h (hout silent) (hdone silent.queue) ok⟩
  | joins key link _ silent _ h =>
      refine ⟨k, .of_shift hub h (hout silent) (hdone silent.queue) ?_⟩
      exact Routed.joins ok (next_not_mem_endpoints hosted) key link
  | retires c _ silent h =>
      exact ⟨k, .of_shift hub h (hout silent) (hdone silent.queue) (Routed.retires ok _)⟩
  | takes c r rest writer found held queue wrote h =>
      have hx := endpoint_mem found
      have halone := endpoint_alone hosted hx
      rcases wrote with hnone | hone
      · have hsent := rewardsSent_of_silent hnone t
        exact ⟨_, .of_shift hub h hsent (hdone fun _ => queue) (Routed.skips ok hx halone held)⟩
      · have hsent := rewardsSent_of_wrote writer hone t
        exact ⟨_, .of_shift hub h hsent (hdone fun _ => queue)
          (Routed.sends ok hx halone held early)⟩
  | records e action _ items h =>
      have hconsumed : (t.noting a s (s.act a)).consumed = t.consumed ++ [e] :=
        consumed_of_taken (by rw [action]; rfl) (by rw [action]; rfl) items t.toLedger
      have hsilent : rewardsIn s.hub.maxFrameBytes (framesWritten a s (s.act a)) = [] := by
        rw [framesWritten_of_writer (by rw [action]; rfl)]
        rfl
      have hsent := rewardsSent_of_silent hsilent t
      have hgrown := Routed.grows ok [] [e]
      rw [List.append_nil] at hgrown
      unfold Backstage.recording at h
      split at h
      · split at h
        · exact ⟨_, .of_shift hub h hsent hconsumed (Routed.earns ok s.clock e _)⟩
        · exact ⟨k, .of_shift hub h hsent hconsumed hgrown⟩
      · exact ⟨k, .of_shift hub h hsent hconsumed hgrown⟩
  | finishes _ _ _ _ silent h => exact ⟨k, .of_shift hub h (hout silent) (hdone silent.queue) ok⟩
  | delivers r rest x _ _ rewards hx key _ silent h =>
      rw [RoutedIn, rewards] at ok
      refine ⟨k.accept x.generation, .of_shift hub h (hout silent) (hdone silent.queue) ?_⟩
      exact ok.delivers hx (endpoint_alone hosted hx) key
  | drops r rest _ _ rewards silent h =>
      rw [RoutedIn, rewards] at ok
      exact ⟨k.drop, .of_shift hub h (hout silent) (hdone silent.queue) ok.drops⟩
  | ends _ _ _ _ silent h => exact ⟨k, .of_shift hub h (hout silent) (hdone silent.queue) ok⟩

/-- All that is known about the way of an event from its frame to its reward. -/
structure Followed (k : Tags) (origins : List Nat) (t : Trail) (s : Server) : Prop where
  account : Accounted t.toLedger s
  source : Sourced origins t.toLedger s
  routed : RoutedIn k origins t s

theorem followed_act (hosted : Hosted s) (ok : Followed k origins t s) {a : Action}
    (supervised : a.isSupervised = true) (brings : a.bringsReward = false) :
    ∃ k' origins', Followed k' origins' (t.noting a s (s.act a)) (s.act a) := by
  have early : ∀ j < t.consumed.length, ReadWithin origins t.frames.length j :=
    fun _ hj => exists_origin ok.account ok.source hj
  obtain ⟨more, hsource⟩ := sourced_act hosted ok.source a
  obtain ⟨k', hrouted⟩ := routed_act hosted ok.routed early supervised brings
  have hgrown := Routed.grows hrouted more []
  rw [List.append_nil] at hgrown
  exact ⟨k', origins ++ more, accounted_act hosted ok.account a, hsource, hgrown⟩

theorem followed_after (hosted : Hosted s) (ok : Followed k origins t s) {actions : List Action}
    (h : ∀ a ∈ actions, a.isSupervised = true ∧ a.bringsReward = false) :
    ∃ k' origins', Followed k' origins' (trail actions s t) (s.after actions) := by
  induction actions generalizing k origins t s with
  | nil => exact ⟨k, origins, ok⟩
  | cons a rest ih =>
      rw [List.forall_mem_cons] at h
      obtain ⟨k', origins', hact⟩ := followed_act hosted ok h.1.1 h.1.2
      exact ih (hosted_act a hosted) hact h.2

theorem followed_start (hc : s.connections = []) (hi : s.queue.items = [])
    (hr : s.rewards = []) : Followed {} [] {} s where
  account := accounted_start hc hi
  source := sourced_start hc
  routed := by
    rw [RoutedIn, endpoints, hc, hr]
    refine ⟨⟨?_, ?_, ?_⟩, ?_, ?_, .nil, ?_⟩ <;> simp [Tags.arrived, rewardsSent, entries]

end

/--
**A reward goes to the worker whose result earned it, once, and in order.**  Whatever happens
to a supervised server, unless a caller sends rewards of its own, the rewards that write
loops have sent can be matched with events that the aggregator has recorded, and those with
frames that read loops have read.  So that

  * a reward that was sent on a connection is for an event whose frame was read before, on a
    connection that was registered under the same key;
  * the frame is a text that decodes to a result, and the reward has its hash and its
    requester;
  * two rewards are never for one event, on one connection or on two, nor two events of
    one frame;
  * on each connection the rewards are in the order in which their events were recorded.
-/
theorem rewards_reach_their_workers (hub : HubSettings) (payout : Payout) (capacity : Nat)
    (store : Store) (clock : Clock) {actions : List Action}
    (supervised : ∀ a ∈ actions, a.isSupervised = true ∧ a.bringsReward = false) :
    let s₀ := start hub payout capacity store clock
    let s := s₀.after actions
    let t := trail actions s₀ {}
    ∃ (frame : List Nat) (event : Nat → List Nat),
      frame.Nodup ∧
      (∀ g, (event g).Pairwise (· < ·)) ∧
      (∀ g h, g ≠ h → (event g).Disjoint (event h)) ∧
      (∀ g, rewardsSent hub.maxFrameBytes t g ≠ [] → ∃ c ∈ s.connections, c.generation = g) ∧
      ∀ c ∈ s.connections,
        List.Forall₂ (fun y j => ∃ e i text,
          t.consumed[j]? = some e ∧ frame[j]? = some i ∧ i < y.1 ∧
          (∃ d ∈ s.connections, d.key = c.key ∧ t.frames[i]? = some (d.generation, .text text)) ∧
          WorkerMessage.ofFrame hub.maxFrameBytes text = .ok (.workResult e.result) ∧
          y.2.hash = e.result.hash ∧ y.2.requesterId = e.result.requesterId)
        (rewardsSent hub.maxFrameBytes t c.generation) (event c.generation) := by
  intro s₀ s t
  have hosted₀ : Hosted s₀ := hosted_after rfl rfl []
  obtain ⟨k, origins, ok⟩ := followed_after hosted₀ (followed_start rfl rfl rfl) supervised
  have hhub : s.hub = hub := hub_after hosted₀ actions
  have hrouted : Routed k origins (rewardsSent hub.maxFrameBytes t) t.consumed s.endpoints
      s.rewards := by
    rw [← hhub]
    exact ok.routed
  have hway (g : Nat) : (k.sent g).Sublist (k.arrived g) := List.sublist_append_left _ _
  refine ⟨origins, k.sent, ok.source.nodup, ?_, ?_, ?_, ?_⟩
  · intro g
    exact (hrouted.ordered.increasing g).sublist ((hway g).trans (List.sublist_append_left _ _))
  · intro g h hne j hj hj'
    exact hrouted.ordered.apart g h hne ((hway g).subset hj) ((hway h).subset hj')
  · intro g hsent
    by_contra hnone
    refine hsent (hrouted.fresh g fun hmem => hnone ?_).1
    rw [endpoints, List.map_map] at hmem
    exact List.mem_map.mp hmem
  · intro c hc
    refine (hrouted.sent c.endpoint (List.mem_map_of_mem hc)).imp fun y j h => ?_
    obtain ⟨⟨e, he, hkey, hhash, hrequester⟩, i, hi, hlt⟩ := h
    obtain ⟨d, hd, hdkey, herequester, text, hframe, hdecodes⟩ :=
      consumed_cameFrom ok.account ok.source he hi
    rw [hhub] at hdecodes
    exact ⟨e, i, text, he, hi, hlt, ⟨d, hd, hdkey.symm.trans hkey, hframe⟩, hdecodes, hhash,
      hrequester.trans herequester⟩

/-- A worker sends a result and gets the reward for it. -/
theorem rewards_reach_their_workers_once :
    let hub : HubSettings := {}
    let key : WorkerKey := ⟨"00000000-0000-0000-0000-000000000001:0"⟩
    let result : WorkResult := ⟨"request", ⟨2⟩, "hash", "work", 1⟩
    let link : Link := {
      room := 1000
      incoming := [.text (WorkerMessage.workResult result).toJson.print] }
    let actions : List Action := [.connect link, .register key 0, .step (.reader 1),
      .step (.reader 1), .step .aggregator, .step .notifier, .step (.writer 1)]
    let s₀ := start hub {} 1 (.memory {}) (.atMs 5)
    let t := trail actions s₀ {}
    (∀ a ∈ actions, a.isSupervised = true ∧ a.bringsReward = false) ∧
      rewardsSent hub.maxFrameBytes t 1 = [(1, ⟨"hash", ⟨2⟩, 1, 5⟩)] ∧
      ∃ d ∈ (s₀.after actions).connections, d.key = key ∧
        ∃ text, t.frames[0]? = some (d.generation, .text text) ∧
          ∃ r, WorkerMessage.ofFrame hub.maxFrameBytes text = .ok (.workResult r) ∧
            r.hash = "hash" := by
  intro hub key result link actions s₀ t
  have hsupervised : ∀ a ∈ actions, a.isSupervised = true ∧ a.bringsReward = false := by
    decide +kernel
  have hsent : rewardsSent hub.maxFrameBytes t 1 = [(1, ⟨"hash", ⟨2⟩, 1, 5⟩)] := by
    decide +kernel
  have hconnection : ∃ c ∈ (s₀.after actions).connections, c.generation = 1 ∧ c.key = key := by
    decide +kernel
  obtain ⟨frame, event, -, -, -, -, hrewards⟩ :=
    rewards_reach_their_workers hub {} 1 (.memory {}) (.atMs 5) hsupervised
  obtain ⟨c, hc, hgeneration, hkey⟩ := hconnection
  have hfirst := hrewards c hc
  rw [hgeneration] at hfirst
  change List.Forall₂ _ (rewardsSent hub.maxFrameBytes t 1) _ at hfirst
  rw [hsent] at hfirst
  obtain ⟨j, -, ⟨e, i, text, -, -, hi, ⟨d, hd, hdkey, hframe⟩, hdecodes, hhash, -⟩, -⟩ :=
    List.forall₂_cons_left_iff.mp hfirst
  obtain rfl : i = 0 := Nat.lt_one_iff.mp hi
  exact ⟨hsupervised, hsent, d, hd, hdkey.trans hkey, text, hframe, e.result, hdecodes, hhash.symm⟩

end Foreman.Server
