/-
When the aggregator rewards whom.

The aggregator looks at one event at a time and at a count in a store, and yet what
it emits over a whole run follows a schedule: of each provider every `threshold`-th
result is rewarded, whoever else's results come in between.  `emitted` is the
schedule, written over the events alone; `Aggregated` are the runs of the aggregator,
with anything else going on between its steps that leaves the counts alone.

The counts are what ties the two together.  As long as the store has counted, for each
provider, the results among the events so far, the aggregator's decision about the next
event and the schedule's are the same.
-/
import Mathlib.Data.List.Induction
import Foreman.Proofs.Server.Delivery
import Foreman.Proofs.Store.Results

namespace Foreman.Server

/-! ### What the aggregator works with -/

/-- Nothing that the aggregator works with has changed but the queue. -/
structure SameBooks (s s' : Server) : Prop where
  payout : s'.payout = s.payout
  clock : s'.clock = s.clock
  store : s'.store = s.store
  rewards : s'.rewards = s.rewards

theorem SameBooks.refl (s : Server) : SameBooks s s := ⟨rfl, rfl, rfl, rfl⟩

theorem SameBooks.trans {s₁ s₂ s₃ : Server} (h₁ : SameBooks s₁ s₂) (h₂ : SameBooks s₂ s₃) :
    SameBooks s₁ s₃ :=
  ⟨h₂.payout.trans h₁.payout, h₂.clock.trans h₁.clock, h₂.store.trans h₁.store,
    h₂.rewards.trans h₁.rewards⟩

theorem sameBooks_wake (t : Task) (s : Server) : SameBooks s (s.wake t) := by
  unfold wake
  split <;> exact ⟨rfl, rfl, rfl, rfl⟩

theorem sameBooks_grantSlot (next : Option Nat) (s : Server) : SameBooks s (s.grantSlot next) := by
  unfold grantSlot
  split
  · exact .refl s
  · refine SameBooks.trans ?_ (sameBooks_wake _ _)
    exact ⟨rfl, rfl, rfl, rfl⟩

theorem sameBooks_takeEvent {s s' : Server} {e : WorkEvent} (h : s.takeEvent = some (e, s')) :
    SameBooks s s' := by
  obtain ⟨q, -, -, -, rfl⟩ := takeEvent_eq_some h
  refine SameBooks.trans ?_ (sameBooks_grantSlot _ _)
  exact ⟨rfl, rfl, rfl, rfl⟩

/-- The reward for the result that brought its provider's count to `n`. -/
def rewardFor (n : Nat) (x : Clock × WorkEvent) : RewardEvent where
  target := x.2.workerKey
  payload := .rewardEarned {
    hash := x.2.result.hash
    requesterId := x.2.requesterId
    totalResults := UInt64.ofNat n
    awardedAtMs := x.1.unixMs }

theorem rewards_rewardEvent (e : WorkEvent) (tally : WorkTally) (s : Server) :
    (s.rewardEvent e tally).rewards = s.rewards ++
      if s.payout.pays tally then [rewardFor tally.providerResults (s.clock, e)] else [] := by
  unfold rewardEvent
  split
  · rw [(sameBooks_wake _ _).rewards]
    rfl
  · exact (List.append_nil _).symm

theorem store_rewardEvent (e : WorkEvent) (tally : WorkTally) (s : Server) :
    (s.rewardEvent e tally).store = s.store := by
  unfold rewardEvent
  split
  · exact (sameBooks_wake _ _).store
  · rfl

theorem payout_rewardEvent (e : WorkEvent) (tally : WorkTally) (s : Server) :
    (s.rewardEvent e tally).payout = s.payout := by
  unfold rewardEvent
  split
  · exact (sameBooks_wake _ _).payout
  · rfl

theorem payout_processEvent (e : WorkEvent) (s : Server) :
    (s.processEvent e).payout = s.payout := by
  have hrecord : ((s.bump .workEvents).recordEvent e).2.payout = s.payout := by
    unfold recordEvent
    split <;> rfl
  unfold processEvent
  split <;> rename_i heq <;> rw [heq] at hrecord
  · exact hrecord
  · rw [payout_rewardEvent]
    exact hrecord

/-- An event is recorded, and if it can be, its count decides on a reward. -/
theorem processEvent_spec (e : WorkEvent) (s : Server) :
    (s.processEvent e).store = (s.store.recordWork e).2 ∧
      (s.processEvent e).rewards = s.rewards ++
        match (s.store.recordWork e).1 with
        | .ok tally =>
          if s.payout.pays tally then [rewardFor tally.providerResults (s.clock, e)] else []
        | .error _ => [] := by
  have hstore : (s.bump .workEvents).store = s.store := rfl
  unfold processEvent recordEvent
  rw [hstore]
  rcases s.store.recordWork e with ⟨answer, store⟩
  cases answer with
  | error err => exact ⟨rfl, (List.append_nil _).symm⟩
  | ok tally => exact ⟨store_rewardEvent _ _ _, rewards_rewardEvent _ _ _⟩

/-- The count of a result that was recorded is never zero, so the threshold decides alone. -/
theorem pays_recorded (p : Payout) (n m : Nat) :
    p.pays ⟨n + 1, m⟩ = true ↔ 0 < p.threshold ∧ p.threshold ∣ n + 1 := by
  rw [Payout.pays_iff]
  simp

/-- An event of an account is credited to it, and rewarded if the count calls for it. -/
theorem processEvent_of_owner {s : Server} (ok : s.store.Records) {e : WorkEvent} {p : UserId}
    (ho : e.workerKey.owner? = some p) :
    (s.processEvent e).store.Records ∧
      (∀ q, (s.processEvent e).store.results q = s.store.results q + if p = q then 1 else 0) ∧
      (s.processEvent e).rewards = s.rewards ++
        if 0 < s.payout.threshold ∧ s.payout.threshold ∣ s.store.results p + 1 then
          [rewardFor (s.store.results p + 1) (s.clock, e)]
        else [] := by
  obtain ⟨n, store, hrecord, hrecords, hresults⟩ := Store.recordWork_of_owner ok ho
  have hevent : (s.bump .workEvents).recordEvent e =
      (some ⟨s.store.results p + 1, n⟩, { s.bump .workEvents with store := store }) := by
    have hstore : (s.bump .workEvents).store.recordWork e = _ := hrecord
    rw [recordEvent, hstore]
  rw [processEvent, hevent]
  refine ⟨?_, ?_, ?_⟩
  · rw [store_rewardEvent]
    exact hrecords
  · intro q
    rw [store_rewardEvent]
    exact hresults q
  · rw [rewards_rewardEvent]
    simp only [pays_recorded]
    rfl

/-- An event of nobody is dropped. -/
theorem processEvent_of_ownerless {e : WorkEvent} (ho : e.workerKey.owner? = none) (s : Server) :
    SameBooks s (s.processEvent e) := by
  have hevent : (s.bump .workEvents).recordEvent e =
      (none, ({ s.bump .workEvents with store := s.store }.bump .statsErrors).note
        (.recordingFailed e.workerKey e.result.hash)) := by
    have hstore : (s.bump .workEvents).store.recordWork e = _ :=
      Store.recordWork_of_ownerless ho s.store
    rw [recordEvent, hstore]
  rw [processEvent, hevent]
  exact ⟨rfl, rfl, rfl, rfl⟩

/-! ### The schedule -/

/-- The results of a provider among events, each with the time at which it was looked at. -/
def resultsOf (p : UserId) (es : List (Clock × WorkEvent)) : List (Clock × WorkEvent) :=
  es.filter fun x => x.2.workerKey.owner? == some p

/-- The rewards of a provider. -/
def rewardsOf (p : UserId) (rs : List RewardEvent) : List RewardEvent :=
  rs.filter fun r => r.target.owner? == some p

/-- The reward that is due for the event `x` after the events `es`: one if it brings the results
of its provider to a multiple of the threshold. -/
def due (threshold : Nat) (es : List (Clock × WorkEvent)) (x : Clock × WorkEvent) :
    List RewardEvent :=
  match x.2.workerKey.owner? with
  | none => []
  | some p =>
    let n := (resultsOf p es).length + 1
    if 0 < threshold ∧ threshold ∣ n then [rewardFor n x] else []

/-- The rewards that are due for events, in the order of the events. -/
def emitted (threshold : Nat) (es : List (Clock × WorkEvent)) : List RewardEvent :=
  (List.range es.length).flatMap fun i => es[i]?.elim [] (due threshold (es.take i))

theorem emitted_concat (threshold : Nat) (es : List (Clock × WorkEvent)) (x : Clock × WorkEvent) :
    emitted threshold (es ++ [x]) = emitted threshold es ++ due threshold es x := by
  have hlast : (es ++ [x])[es.length]? = some x := by simp
  have hbefore : ∀ i ∈ List.range es.length,
      (es ++ [x])[i]?.elim [] (due threshold ((es ++ [x]).take i)) =
        es[i]?.elim [] (due threshold (es.take i)) := by
    intro i hi
    have hlt : i < es.length := List.mem_range.mp hi
    rw [List.getElem?_append_left hlt, List.take_append_of_le_length hlt.le]
  unfold emitted
  rw [List.length_append, List.length_singleton, List.range_succ, List.flatMap_append,
    List.flatMap_congr hbefore, List.flatMap_singleton, hlast, Option.elim_some, List.take_left']
  rfl

theorem resultsOf_concat_own {p : UserId} {x : Clock × WorkEvent}
    (h : x.2.workerKey.owner? = some p) (es : List (Clock × WorkEvent)) :
    resultsOf p (es ++ [x]) = resultsOf p es ++ [x] := by
  simp [resultsOf, h]

theorem resultsOf_concat_other {p : UserId} {x : Clock × WorkEvent}
    (h : x.2.workerKey.owner? ≠ some p) (es : List (Clock × WorkEvent)) :
    resultsOf p (es ++ [x]) = resultsOf p es := by
  simp [resultsOf, h]

theorem due_of_owner {threshold : Nat} {es : List (Clock × WorkEvent)} {x : Clock × WorkEvent}
    {p : UserId} (h : x.2.workerKey.owner? = some p) :
    due threshold es x =
      if 0 < threshold ∧ threshold ∣ (resultsOf p es).length + 1 then
        [rewardFor ((resultsOf p es).length + 1) x]
      else [] := by
  rw [due, h]

theorem due_of_ownerless {x : Clock × WorkEvent} (h : x.2.workerKey.owner? = none)
    (threshold : Nat) (es : List (Clock × WorkEvent)) : due threshold es x = [] := by
  rw [due, h]

/-- What is due for an event goes to the worker of the event. -/
theorem target_of_mem_due {threshold : Nat} {es : List (Clock × WorkEvent)} {x : Clock × WorkEvent}
    {r : RewardEvent} (h : r ∈ due threshold es x) :
    r.target = x.2.workerKey ∧ x.2.workerKey.owner?.isSome = true := by
  cases ho : x.2.workerKey.owner? with
  | none => simp [due_of_ownerless ho] at h
  | some p =>
    rw [due_of_owner ho] at h
    split at h
    · rw [List.mem_singleton.mp h]
      exact ⟨rfl, rfl⟩
    · simp at h

theorem rewardsOf_due_other {p : UserId} {x : Clock × WorkEvent}
    (h : x.2.workerKey.owner? ≠ some p) (threshold : Nat) (es : List (Clock × WorkEvent)) :
    rewardsOf p (due threshold es x) = [] := by
  rw [rewardsOf, List.filter_eq_nil_iff]
  intro r hr
  rw [(target_of_mem_due hr).1]
  simpa using h

/-- The results of a provider that are rewarded, with the count that each of them brings. -/
def OnSchedule (threshold : Nat) (mine : List (Clock × WorkEvent)) (rs : List RewardEvent) : Prop :=
  rs.length = mine.length / threshold ∧
    ∀ k r, rs[k]? = some r →
      ∃ x, mine[(k + 1) * threshold - 1]? = some x ∧ r = rewardFor ((k + 1) * threshold) x

/-- One more result is rewarded if it completes a multiple of the threshold. -/
theorem OnSchedule.concat {threshold : Nat} {mine : List (Clock × WorkEvent)}
    {rs : List RewardEvent} (ok : OnSchedule threshold mine rs) (x : Clock × WorkEvent) :
    OnSchedule threshold (mine ++ [x])
      (rs ++ if 0 < threshold ∧ threshold ∣ mine.length + 1
        then [rewardFor (mine.length + 1) x] else []) := by
  obtain ⟨hlength, hitems⟩ := ok
  have hkept : ∀ k r, rs[k]? = some r →
      ∃ y, (mine ++ [x])[(k + 1) * threshold - 1]? = some y ∧
        r = rewardFor ((k + 1) * threshold) y := by
    intro k r hr
    obtain ⟨y, hy, rfl⟩ := hitems k r hr
    refine ⟨y, ?_, rfl⟩
    rw [List.getElem?_append_left (List.getElem?_eq_some_iff.mp hy).1, hy]
  by_cases hdue : 0 < threshold ∧ threshold ∣ mine.length + 1
  · rw [if_pos hdue]
    obtain ⟨hpos, hdvd⟩ := hdue
    have hdiv : (mine.length + 1) / threshold = mine.length / threshold + 1 :=
      Nat.succ_div_of_dvd hdvd
    have hcount : (rs.length + 1) * threshold = mine.length + 1 := by
      rw [hlength, ← hdiv, Nat.div_mul_cancel hdvd]
    refine ⟨?_, ?_⟩
    · rw [List.length_append, List.length_append, List.length_singleton, List.length_singleton,
        hdiv, hlength]
    · intro k r hr
      by_cases hk : k < rs.length
      · rw [List.getElem?_append_left hk] at hr
        exact hkept k r hr
      · -- the last reward is the one for `x`
        have hlast : k = rs.length := by
          have hlt := (List.getElem?_eq_some_iff.mp hr).1
          rw [List.length_append, List.length_singleton] at hlt
          omega
        subst hlast
        rw [List.getElem?_concat_length] at hr
        obtain rfl := Option.some.inj hr
        refine ⟨x, ?_, by rw [hcount]⟩
        rw [hcount, Nat.add_sub_cancel, List.getElem?_concat_length]
  · rw [if_neg hdue, List.append_nil]
    refine ⟨?_, hkept⟩
    rw [List.length_append, List.length_singleton, hlength]
    rcases Nat.eq_zero_or_pos threshold with rfl | hpos
    · rw [Nat.div_zero, Nat.div_zero]
    · rw [Nat.succ_div_of_not_dvd fun hdvd => hdue ⟨hpos, hdvd⟩]

/-- **Each provider is rewarded on schedule, whoever else is.** -/
theorem emitted_onSchedule (threshold : Nat) (p : UserId) (es : List (Clock × WorkEvent)) :
    OnSchedule threshold (resultsOf p es) (rewardsOf p (emitted threshold es)) := by
  induction es using List.reverseRec with
  | nil => exact ⟨by simp [resultsOf, rewardsOf, emitted], by simp [rewardsOf, emitted]⟩
  | append_singleton es x ih =>
    have hsplit : rewardsOf p (emitted threshold (es ++ [x])) =
        rewardsOf p (emitted threshold es) ++ rewardsOf p (due threshold es x) := by
      rw [emitted_concat, rewardsOf, List.filter_append]
      rfl
    rw [hsplit]
    by_cases ho : x.2.workerKey.owner? = some p
    · have hown : rewardsOf p (due threshold es x) = due threshold es x := by
        rw [rewardsOf, List.filter_eq_self]
        intro r hr
        rw [(target_of_mem_due hr).1, ho]
        exact beq_self_eq_true _
      rw [hown, due_of_owner ho, resultsOf_concat_own ho]
      exact ih.concat x
    · rw [rewardsOf_due_other ho, List.append_nil, resultsOf_concat_other ho]
      exact ih

/-- Events of nobody make no difference to the rewards for the others. -/
theorem emitted_filter (threshold : Nat) (es : List (Clock × WorkEvent)) :
    emitted threshold (es.filter (·.2.workerKey.owner?.isSome)) = emitted threshold es := by
  induction es using List.reverseRec with
  | nil => rfl
  | append_singleton es x ih =>
    rw [emitted_concat, List.filter_append]
    cases ho : x.2.workerKey.owner? with
    | none => simp [ho, due_of_ownerless ho, ih]
    | some p =>
      have hsame : resultsOf p (es.filter (·.2.workerKey.owner?.isSome)) = resultsOf p es := by
        rw [resultsOf, List.filter_filter]
        refine List.filter_congr fun y _ => ?_
        cases y.2.workerKey.owner? <;> simp
      simp [ho, emitted_concat, ih, due_of_owner ho, hsame]

/-! ### Runs of the aggregator -/

/-- Neither the threshold nor any count has changed, and results can still be recorded. -/
structure SameCounts (s s' : Server) : Prop where
  payout : s'.payout = s.payout
  records : s.store.Records → s'.store.Records
  results : ∀ p, s'.store.results p = s.store.results p

/-- The runs of an aggregator over a store in which nothing was recorded: the events that it has
taken, with the time of each, and the rewards that it has queued.  Between its steps anything
may happen that leaves the counts alone. -/
inductive Aggregated : List (Clock × WorkEvent) → List RewardEvent → Server → Prop where
  | start {s : Server} (fresh : s.store.Fresh) : Aggregated [] [] s
  | step {es : List (Clock × WorkEvent)} {rs : List RewardEvent} {s s' : Server}
      (h : Aggregated es rs s) (hs : s.aggregateStep = some s') :
      Aggregated (es ++ (gone s.queue.items s'.queue.items).map (s.clock, ·))
        (rs ++ come s.rewards s'.rewards) s'
  | between {es : List (Clock × WorkEvent)} {rs : List RewardEvent} {s s' : Server}
      (h : Aggregated es rs s) (same : SameCounts s s') : Aggregated es rs s'

/-- The aggregator takes the oldest event and deals with it, or it stops. -/
theorem aggregateStep_cases {s s' : Server} (h : s.aggregateStep = some s') :
    (∃ e t, SameBooks s t ∧ s.queue.items = e :: s'.queue.items ∧ s' = t.processEvent e) ∨
      SameBooks s s' ∧ s'.queue = s.queue := by
  unfold aggregateStep at h
  split at h
  · split at h
    · rename_i e t htake
      obtain rfl := Option.some.inj h
      refine .inl ⟨e, t, sameBooks_takeEvent htake, ?_, rfl⟩
      rw [(quiet_processEvent e _).sameIntake.queue]
      exact items_takeEvent htake
    · split at h
      · obtain rfl := Option.some.inj h
        right
        refine ⟨SameBooks.trans ?_ (sameBooks_wake _ _), (quiet_wake _ _).sameIntake.queue⟩
        exact ⟨rfl, rfl, rfl, rfl⟩
      · simp at h
  · simp at h

/-- Every sequence of events is that of a run. -/
theorem exists_aggregated (threshold : Nat) (es : List (Clock × WorkEvent)) :
    ∃ rs s, Aggregated es rs s ∧ s.payout.threshold = threshold := by
  induction es using List.reverseRec with
  | nil =>
    let s : Server := {
      payout := { threshold := threshold }
      clock := ⟨0, 0⟩
      queue := .ofCapacity 1 }
    exact ⟨[], s, .start (Store.fresh_memory rfl), rfl⟩
  | append_singleton es x ih =>
    obtain ⟨clock, e⟩ := x
    obtain ⟨rs, s, h, hthreshold⟩ := ih
    -- the event arrives at an idle aggregator, at its time
    let ready : Server := { s with
      clock := clock
      aggregator := some .running
      queue := { items := [e], free := 0 } }
    let taken : Server := { ready with queue := { free := 1 } }
    have hready : Aggregated es rs ready := h.between ⟨rfl, id, fun _ => rfl⟩
    have hstep : ready.aggregateStep = some (taken.processEvent e) := rfl
    have hgone : gone ready.queue.items (taken.processEvent e).queue.items = [e] := by
      rw [(quiet_processEvent e taken).sameIntake.queue]
      rfl
    have hrun := hready.step hstep
    rw [hgone] at hrun
    refine ⟨_, _, hrun, ?_⟩
    rw [payout_processEvent]
    exact hthreshold

/-- The store has counted the results among the events, and the rewards are those that are due. -/
structure Counted (es : List (Clock × WorkEvent)) (rs : List RewardEvent) (s : Server) : Prop where
  records : s.store.Records
  results : ∀ p, s.store.results p = (resultsOf p es).length
  rewards : rs = emitted s.payout.threshold es

/-- An event that is taken is counted, and what is due for it is queued. -/
theorem Counted.event {es : List (Clock × WorkEvent)} {rs : List RewardEvent} {s t : Server}
    (ok : Counted es rs s) (hst : SameBooks s t) (e : WorkEvent) :
    Counted (es ++ [(s.clock, e)]) (rs ++ come s.rewards (t.processEvent e).rewards)
      (t.processEvent e) := by
  have hrecords : t.store.Records := by
    rw [hst.store]
    exact ok.records
  have hresults (p : UserId) : t.store.results p = (resultsOf p es).length := by
    rw [hst.store, ok.results]
  cases ho : e.workerKey.owner? with
  | none =>
    have hnone : (s.clock, e).2.workerKey.owner? = none := ho
    have hsame := processEvent_of_ownerless ho t
    refine ⟨?_, ?_, ?_⟩
    · rw [hsame.store]
      exact hrecords
    · intro p
      have hother : (s.clock, e).2.workerKey.owner? ≠ some p := by simp [ho]
      rw [hsame.store, hresults, resultsOf_concat_other hother]
    · rw [hsame.rewards, hst.rewards, come_self, hsame.payout, hst.payout, emitted_concat,
        due_of_ownerless hnone, List.append_nil, List.append_nil]
      exact ok.rewards
  | some p =>
    obtain ⟨hrecords', hresults', hrewards⟩ := processEvent_of_owner hrecords ho
    refine ⟨hrecords', ?_, ?_⟩
    · intro q
      rw [hresults', hresults]
      by_cases hpq : p = q
      · have hown : (s.clock, e).2.workerKey.owner? = some q := by rw [← hpq]; exact ho
        rw [if_pos hpq, resultsOf_concat_own hown, List.length_append, List.length_singleton]
      · have hother : (s.clock, e).2.workerKey.owner? ≠ some q := by simp [ho, hpq]
        rw [if_neg hpq, resultsOf_concat_other hother, Nat.add_zero]
    · have howner : (s.clock, e).2.workerKey.owner? = some p := ho
      rw [hrewards, hst.rewards, come_append, payout_processEvent, hst.payout, hst.clock, hresults,
        emitted_concat, due_of_owner howner, ok.rewards]

theorem Aggregated.counted {es : List (Clock × WorkEvent)} {rs : List RewardEvent} {s : Server}
    (h : Aggregated es rs s) : Counted es rs s := by
  induction h with
  | start fresh => exact ⟨fresh.1, fresh.2, rfl⟩
  | @step es rs s s' _ hs ih =>
    rcases aggregateStep_cases hs with ⟨e, t, hst, hitems, rfl⟩ | ⟨hsame, hqueue⟩
    · rw [hitems, ← List.singleton_append, gone_append]
      exact ih.event hst e
    · rw [hqueue, gone_self, hsame.rewards, come_self, List.map_nil, List.append_nil,
        List.append_nil]
      exact ⟨by rw [hsame.store]; exact ih.records,
        fun p => by rw [hsame.store]; exact ih.results p,
        by rw [hsame.payout]; exact ih.rewards⟩
  | between _ same ih =>
    exact ⟨same.records ih.records, fun p => (same.results p).trans (ih.results p),
      by rw [same.payout]; exact ih.rewards⟩

theorem emitted_zero (es : List (Clock × WorkEvent)) : emitted 0 es = [] := by
  induction es using List.reverseRec with
  | nil => rfl
  | append_singleton es x ih =>
    rw [emitted_concat, ih, List.nil_append]
    unfold due
    split
    · rfl
    · simp

/-- A reward goes to a worker that has an owner. -/
theorem target_of_mem_emitted {threshold : Nat} {es : List (Clock × WorkEvent)} {r : RewardEvent}
    (h : r ∈ emitted threshold es) : r.target.owner?.isSome = true := by
  obtain ⟨i, -, hr⟩ := List.mem_flatMap.mp h
  cases hx : es[i]? with
  | none => simp [hx] at hr
  | some x =>
    rw [hx, Option.elim_some] at hr
    rw [(target_of_mem_due hr).1]
    exact (target_of_mem_due hr).2

/--
**Rewards follow the schedule.**  Let the aggregator take any events over a store in which
nothing was recorded, in any order and with anything else going on.  Then

  * the rewards are those that are due, in the order of the events that they are due for;
  * a provider with `n` results has got `n / threshold` of them: the one numbered `k`, from
    zero on, is for the result with which the provider had `(k + 1) * threshold`, goes to the
    worker of that result, and says its hash, its requester and that count;
  * there is none at all if the threshold is zero, and none for a worker without an owner;
  * the store has counted each provider's results, and nothing else;
  * leaving out the events of workers without an owner leaves the rewards as they are, and
    such an event changes neither the store nor the rewards.
-/
theorem rewards_on_schedule {es : List (Clock × WorkEvent)} {rs : List RewardEvent} {s : Server}
    (h : Aggregated es rs s) :
    let threshold := s.payout.threshold
    rs = emitted threshold es ∧
    (∀ p, (rewardsOf p rs).length = (resultsOf p es).length / threshold ∧
      ∀ k r, (rewardsOf p rs)[k]? = some r →
        ∃ clock e, (resultsOf p es)[(k + 1) * threshold - 1]? = some (clock, e) ∧
          r = { target := e.workerKey
                payload := .rewardEarned {
                  hash := e.result.hash
                  requesterId := e.requesterId
                  totalResults := UInt64.ofNat ((k + 1) * threshold)
                  awardedAtMs := clock.unixMs } }) ∧
    (threshold = 0 → rs = []) ∧
    (∀ r ∈ rs, r.target.owner?.isSome = true) ∧
    (∀ p, s.store.results p = (resultsOf p es).length) ∧
    rs = emitted threshold (es.filter (·.2.workerKey.owner?.isSome)) ∧
    ∀ e, e.workerKey.owner? = none →
      (s.processEvent e).store = s.store ∧ (s.processEvent e).rewards = s.rewards := by
  intro threshold
  have ok := h.counted
  have hrs : rs = emitted threshold es := ok.rewards
  refine ⟨hrs, ?_, ?_, ?_, ok.results, ?_, ?_⟩
  · intro p
    obtain ⟨hlength, hitems⟩ := emitted_onSchedule threshold p es
    rw [hrs]
    refine ⟨hlength, ?_⟩
    intro k r hr
    obtain ⟨⟨clock, e⟩, hx, rfl⟩ := hitems k r hr
    exact ⟨clock, e, hx, rfl⟩
  · intro hzero
    rw [hrs, hzero, emitted_zero]
  · intro r hr
    rw [hrs] at hr
    exact target_of_mem_emitted hr
  · rw [emitted_filter]
    exact hrs
  · intro e ho
    have hsame := processEvent_of_ownerless ho s
    exact ⟨hsame.store, hsame.rewards⟩

/-- Of two results of a provider with a threshold of two the second is rewarded, and the event of
nobody between them is not. -/
theorem rewards_on_schedule_second :
    let provider : UserId := ⟨1⟩
    let event (key hash : String) : WorkEvent := .ofResult ⟨key⟩ ⟨"", ⟨2⟩, hash, "", 1⟩
    let first := event "00000000-0000-0000-0000-000000000001:0" "a"
    let second := event "00000000-0000-0000-0000-000000000001:1" "b"
    let es := [first, event "nobody" "c", second].map (Clock.atMs 5, ·)
    ∃ rs s, Aggregated es rs s ∧ s.payout.threshold = 2 ∧
      rs = [⟨second.workerKey, .rewardEarned ⟨"b", ⟨2⟩, 2, 5⟩⟩] ∧ s.store.results provider = 2 := by
  intro provider event first second es
  obtain ⟨rs, s, h, hthreshold⟩ := exists_aggregated 2 es
  obtain ⟨hrs, -, -, -, hresults, -, -⟩ := rewards_on_schedule h
  refine ⟨rs, s, h, hthreshold, ?_, ?_⟩
  · rw [hrs, hthreshold]
    decide +kernel
  · rw [hresults]
    decide +kernel

end Foreman.Server
