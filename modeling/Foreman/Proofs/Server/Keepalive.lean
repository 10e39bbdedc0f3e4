/-
Who is taken for dead, and who never is.

A read loop that has waited for a frame for the whole timeout takes its worker for dead and
leaves.  `exists_silence` finds the stretch of the run in which it has waited: it has read
nothing there and has not done anything else, so no time that it spent on the work queue is in
it.

The two loops of a connection have timers of their own, and what keeps a healthy worker from
being dropped is that they stay in step.  While the write loop serves, its next ping is due
within an interval of now, and also within an interval of the instant since when the read loop
waits, unless there is a pong on its way or a frame to be read.  `Lively` says so; a step of
either loop keeps it, and time keeps it as long as no ping is left unanswered when time passes.
So the wait of a read loop is never older than an interval, and with a timeout that is longer
than the interval it comes to an end in time.
-/
import Foreman.Proofs.Server.Outbox
import Foreman.Proofs.Server.Waiting

namespace Foreman.Server

/-! ### Giving up -/

/-- The frames that the read loop of a connection reads in an action. -/
def framesRead (g : Nat) (a : Action) (s : Server) : List Frame :=
  if a.reader = some g then framesTaken g s (s.act a) else []

section

variable {a : Action} {s s₀ : Server} {g since : Nat}

theorem framesRead_of_idle (h : a.reader = some g → s.act a = s) : framesRead g a s = [] := by
  unfold framesRead
  split
  · rename_i reader
    rw [h reader, framesTaken]
    cases s.connection? g <;> simp
  · rfl

/-- Nobody but a read loop that has waited for too long is counted as silent. -/
theorem timeouts_act (hosted : Hosted s) (a : Action)
    (h : (s.act a).tally.get .keepaliveTimeouts ≠ s.tally.get .keepaliveTimeouts) :
    ∃ c since, a.reader = some c.generation ∧ s.connection? c.generation = some c ∧
      Tires c since s (s.act a) := by
  cases mailStep_act hosted a with
  | still _ _ hcarried => exact absurd (hcarried.losses _ rfl) h
  | posts _ _ hposts => exact absurd hposts.timeouts h
  | joins _ _ _ _ _ hjoins => exact absurd (hjoins.losses _ rfl) h
  | writes c _ _ hmove =>
    obtain ⟨f, frames, hwrote, -⟩ := hmove.wrote
    exact absurd (hwrote.carried.losses _ rfl) h
  | tires c since reader found htires => exact ⟨c, since, reader, found, htires⟩

/-- What giving up for want of a sign of life comes to. -/
theorem Tires.spec {c : Connection} {s' : Server} (found : s.connection? c.generation = some c)
    (h : Tires c since s s') :
    s'.tally.get .keepaliveTimeouts = s.tally.get .keepaliveTimeouts + 1 ∧
      s'.reader? c.generation = some .leaving := by
  rw [h.result]
  refine ⟨Tally.get_add .keepaliveTimeouts .keepaliveTimeouts 1 s.tally, ?_⟩
  refine reader?_of_found (c := { c with reader := .leaving }) ?_
  refine connection?_modified (s := s.bump .keepaliveTimeouts) ?_ found
  exact fun _ => rfl

/-- **A read loop that waits has waited for a stretch of the run**: from its beginning on it has
stood at one place, and it has read nothing. -/
theorem exists_silence (hosted₀ : Hosted s₀) (hc : s₀.connections = []) {actions : List Action}
    (h : (s₀.after actions).reader? g = some (.waiting since)) :
    ∃ early late, actions = early ++ late ∧ (s₀.after early).clock.monoMs = since ∧
      (∀ part, part <+: late → (s₀.after (early ++ part)).reader? g = some (.waiting since)) ∧
      collect (framesRead g) late (s₀.after early) = [] := by
  induction actions using List.reverseRecOn with
  | nil => simp [reader?, connection?, hc] at h
  | append_singleton as a ih =>
    have hosted : Hosted (s₀.after as) :=
      after_induction (fun b _ h => hosted_act b h) hosted₀ as
    have hafter : s₀.after (as ++ [a]) = (s₀.after as).act a := after_append _ _ _
    have hact := h
    rw [hafter] at hact
    -- The stretch begins with the last action, or goes on with it.
    rcases waiting_act hosted a hact with hnow | ⟨hold, hidle⟩
    · refine ⟨as ++ [a], [], (List.append_nil _).symm, by rw [hafter, hnow], fun part hpart => ?_,
        rfl⟩
      rw [List.prefix_nil.mp hpart, List.append_nil]
      exact h
    · obtain ⟨early, late, rfl, hclock, hwaits, hread⟩ := ih hold
      refine ⟨early, late ++ [a], List.append_assoc _ _ _, hclock, fun part hpart => ?_, ?_⟩
      · rcases List.prefix_concat_iff.mp hpart with rfl | hshorter
        · rw [← List.append_assoc]
          exact h
        · exact hwaits part hshorter
      · rw [after_append] at hidle
        rw [collect_concat, hread, framesRead_of_idle hidle]
        rfl

end

/-! ### A worker that answers -/

/-- The frames that have come for a connection and were not read. -/
def unread (g : Nat) (s : Server) : List Frame :=
  (s.connection? g).elim [] fun c => s.incoming c.link

/-- The frame is a ping. -/
def Frame.isPing : Frame → Bool
  | ping _ => true
  | _ => false

/-- The frame is a pong. -/
def Frame.isPong : Frame → Bool
  | pong _ => true
  | _ => false

/-- The write loop is writing. -/
def Writer.isSending : Writer → Bool
  | sending _ => true
  | _ => false

/-- The worker of a connection owes an answer to a ping after an action; `owed` says whether it
did before. -/
def owes (g : Nat) (a : Action) (s : Server) (owed : Bool) : Bool :=
  if a.writer = some g then owed || (framesWritten a s (s.act a)).any Frame.isPing
  else if a.reader = some g then owed
  else owed && !(come (s.unread g) ((s.act a).unread g)).any Frame.isPong

/-- The loops of a connection have nothing to do, and its write loop is not held up. -/
def isAtRest (g : Nat) (s : Server) : Bool :=
  (s.connection? g).all fun c =>
    (s.link? c.link).isSome && (s.readAs c).isNone && (s.writeAs c).isNone && !c.writer.isSending

/-- In a run, the worker of a connection answers each ping at the instant at which it is sent, and
the write loop is never held up: when time passes, no answer is owed, and the loops have done all
that there is to do.  Whatever else the worker sends stays there to be read. -/
def answers (g : Nat) : List Action → Server → Bool → Bool
  | [], _, _ => true
  | a :: rest, s, owed =>
    (a.sets.all fun c => decide (c.monoMs = s.clock.monoMs) || !owed && s.isAtRest g) &&
      (decide (a.reader = some g) || (s.unread g).isPrefixOf ((s.act a).unread g)) &&
      answers g rest (s.act a) (owes g a s owed)

/-- The deadlines of the two loops of a connection are in step. -/
structure Lively (g : Nat) (owed : Bool) (s : Server) (c : Connection) : Prop where
  /-- Nobody waits for longer than an interval, unless there is something to be read. -/
  heard : ∀ since, c.reader = .waiting since →
    s.clock.monoMs ≤ since + s.hub.keepaliveIntervalMs ∨ s.unread g ≠ []
  /-- The next ping is due within an interval of now. -/
  due : c.writer.isServing = true → s.clock.monoMs ≤ c.nextPingMs ∧
    c.nextPingMs ≤ s.clock.monoMs + s.hub.keepaliveIntervalMs
  /-- It is due within an interval of the beginning of the wait, or something is coming or there. -/
  soon : c.writer.isServing = true → ∀ since, c.reader = .waiting since →
    c.nextPingMs ≤ since + s.hub.keepaliveIntervalMs ∨ owed = true ∨ s.unread g ≠ []
  /-- A write loop that is at its end has been told to stop, or is about to tell. -/
  told : c.writer.isServing = false → c.shutdown = true ∨ c.writer = .leaving

/-- The connection of a number, if there is one, is lively. -/
def Alive (g : Nat) (owed : Bool) (s : Server) : Prop :=
  ∀ c, s.connection? g = some c → Lively g owed s c

section

variable {a : Action} {s s' : Server} {g : Nat} {owed owed' : Bool} {c c' : Connection}

theorem unread_of_found (h : s.connection? g = some c) : s.unread g = s.incoming c.link := by
  rw [unread, h]
  rfl

/-! ### Time passes -/

theorem isAtRest_of_found (found : s.connection? g = some c) (rest : s.isAtRest g = true) :
    ∃ l, s.link? c.link = some l ∧ s.readAs c = none ∧ s.writeAs c = none ∧
      c.writer.isSending = false := by
  rw [isAtRest, found] at rest
  simp only [Option.all_some, Bool.and_eq_true, Option.isNone_iff_eq_none, Bool.not_eq_true']
    at rest
  obtain ⟨⟨⟨hlink, hread⟩, hwrite⟩, hsending⟩ := rest
  obtain ⟨l, hl⟩ := Option.isSome_iff_exists.mp hlink
  exact ⟨l, hl, hread, hwrite, hsending⟩

/-- When time passes, a write loop that serves has nothing in hand, and its ping is not due. -/
theorem idle_of_rest (found : s.connection? g = some c) (rest : s.isAtRest g = true)
    (serving : c.writer.isServing = true) :
    c.writer = .idle ∧ s.clock.monoMs < c.nextPingMs := by
  obtain ⟨l, hl, -, hwrite, hsending⟩ := isAtRest_of_found found rest
  have hidle : c.writer = .idle := by
    cases hw : c.writer <;> simp_all [Writer.isServing, Writer.isSending]
  refine ⟨hidle, Nat.lt_of_not_le fun hdue => ?_⟩
  simp only [writeAs, hl, Option.bind_some, hidle, writeIdle, if_pos hdue] at hwrite
  split at hwrite <;> cases hwrite

/-- When time passes, a read loop that waits has a write loop that serves. -/
theorem Lively.serving_of_rest (ok : Lively g owed s c) (found : s.connection? g = some c)
    (rest : s.isAtRest g = true) {since : Nat} (waits : c.reader = .waiting since) :
    c.writer.isServing = true := by
  by_contra hends
  obtain ⟨l, hl, hread, hwrite, -⟩ := isAtRest_of_found found rest
  rcases ok.told (Bool.not_eq_true _ ▸ hends) with htold | hleaving
  · have hstep := isSome_readAs htold (by simp [waits]) (by rw [hl]; rfl)
    simp [hread] at hstep
  · simp [writeAs, hl, hleaving] at hwrite

/-- Time does not pass the next ping of a write loop that serves. -/
theorem reaches_ping {clock : Clock} (found : s.connection? g = some c)
    (rest : s.isAtRest g = true) (serving : c.writer.isServing = true)
    (timers : ∀ d ∈ s.connections, ∀ t ∈ s.timers d,
      clock.monoMs ≤ t.1 ∨ t.1 ≤ s.clock.monoMs ∧ s.step t.2 = none) :
    clock.monoMs ≤ c.nextPingMs := by
  obtain ⟨hidle, hahead⟩ := idle_of_rest found rest serving
  have htimer := timers c (List.mem_of_find?_eq_some found) (c.nextPingMs, .writer c.generation)
    (by simp [Server.timers, hidle])
  exact htimer.resolve_right fun hdue => Nat.not_le_of_lt hahead hdue.1

theorem Alive.clock {clock : Clock} (ok : Alive g owed s) (reaches : s.reaches clock = true)
    (rest : clock.monoMs = s.clock.monoMs ∨ owed = false ∧ s.isAtRest g = true) :
    Alive g owed (s.act (.clock clock)) := by
  intro c (found : s.connection? g = some c)
  have hlively := ok c found
  have hunread : (s.act (.clock clock)).unread g = s.unread g := rfl
  have hhub : (s.act (.clock clock)).hub = s.hub := rfl
  have hclock : (s.act (.clock clock)).clock = clock := rfl
  rcases reaches_iff.mp reaches with hsame | ⟨hpasses, htimers⟩
  · refine ⟨?_, ?_, ?_, hlively.told⟩ <;> rw [hhub]
    · rw [hunread, hclock, hsame]
      exact hlively.heard
    · rw [hclock, hsame]
      exact hlively.due
    · rw [hunread]
      exact hlively.soon
  · -- Time passes, and only so far as to the next ping; by then no answer is owed any more, so
    -- that the ping is due within an interval of the wait or there is something to be read.
    obtain ⟨howed, hrest⟩ := rest.resolve_left (Nat.ne_of_gt hpasses)
    have hping (serving : c.writer.isServing = true) : clock.monoMs ≤ c.nextPingMs :=
      reaches_ping found hrest serving htimers
    refine ⟨fun since hwaits => ?_, fun hserving => ?_, ?_, hlively.told⟩ <;> rw [hhub]
    · have hserving := hlively.serving_of_rest found hrest hwaits
      have hdue := hping hserving
      rcases hlively.soon hserving since hwaits with hsoon | howing | hthere
      · left
        rw [hclock]
        omega
      · simp [howed] at howing
      · exact .inr hthere
    · have hdue := hping hserving
      have hbefore := (hlively.due hserving).2
      rw [hclock]
      omega
    · rw [hunread]
      exact hlively.soon

/-! ### Loops take steps -/

/-- What is kept at one instant, when the read loop waits since now if it did not wait before. -/
theorem Lively.next (ok : Lively g owed s c) (clock : s'.clock = s.clock) (hub : s'.hub = s.hub)
    (waits : ∀ since, c'.reader = .waiting since → since = s.clock.monoMs ∨
      c.reader = .waiting since ∧ (s.unread g ≠ [] → s'.unread g ≠ []))
    (owing : owed = true → owed' = true ∨ s'.unread g ≠ [])
    (paced : c'.writer.isServing = true → c.writer.isServing = true ∧
      (c'.nextPingMs = c.nextPingMs ∨
        c'.nextPingMs = s.clock.monoMs + s.hub.keepaliveIntervalMs ∧ owed' = true))
    (told : c'.writer.isServing = false → c'.shutdown = true ∨ c'.writer = .leaving) :
    Lively g owed' s' c' := by
  refine ⟨fun since hwaits => ?_, fun hserving => ?_, fun hserving since hwaits => ?_, told⟩ <;>
    simp only [clock, hub]
  · rcases waits since hwaits with rfl | ⟨hold, hthere⟩
    · exact .inl (Nat.le_add_right _ _)
    · exact (ok.heard since hold).imp_right hthere
  · obtain ⟨hserved, hsame | ⟨hnew, -⟩⟩ := paced hserving
    · rw [hsame]
      exact ok.due hserved
    · omega
  · obtain ⟨hserved, hsame | ⟨-, howed⟩⟩ := paced hserving
    · have hdue := (ok.due hserved).2
      rcases waits since hwaits with rfl | ⟨hold, hthere⟩
      · exact .inl (by omega)
      · rw [hsame]
        rcases ok.soon hserved since hold with hsoon | howed | hunread
        · exact .inl hsoon
        · exact .inr (owing howed)
        · exact .inr (.inr (hthere hunread))
    · exact .inr (.inl howed)

/-- A ping that is not late is followed by one after an interval. -/
theorem pingAfter_now (s : Server) :
    s.pingAfter s.clock.monoMs = s.clock.monoMs + s.hub.keepaliveIntervalMs := by
  rw [pingAfter, if_neg]
  omega

/-- A write loop that goes on serving keeps the instant of its next ping, or it has sent one now;
and it begins to close only if it was told to stop. -/
theorem WriteMove.paced (h : WriteMove c s s')
    (due : c.writer.isServing = true → s.clock.monoMs ≤ c.nextPingMs) :
    ∃ f frames, Wrote c f frames s s' ∧
      ((f c).writer.isServing = true → c.writer.isServing = true ∧
        ((f c).nextPingMs = c.nextPingMs ∨
          (f c).nextPingMs = s.clock.monoMs + s.hub.keepaliveIntervalMs ∧
            frames.any Frame.isPing = true)) ∧
      ∀ t, (f c).writer = .closing t → (f c).shutdown = true := by
  cases h with
  | closes w frames _ told next h =>
    refine ⟨_, frames, h, fun (hw : w.isServing = true) => ?_, fun _ _ => told⟩
    rcases next with ⟨rfl, -⟩ | ⟨⟨t, rfl⟩, -⟩ <;> cases hw
  | pings w frames idle hdue sends h =>
    refine ⟨_, frames, h, fun (hw : w.isServing = true) => ?_, fun t (hw : w = .closing t) => ?_⟩
    · -- The ping was not due before now, so the one after it is not put off.
      have hserving : c.writer.isServing = true := by rw [idle]; rfl
      have hnow : c.nextPingMs = s.clock.monoMs := Nat.le_antisymm hdue (due hserving)
      cases sends with
      | written => exact ⟨hserving, .inr ⟨by rw [hnow, pingAfter_now], rfl⟩⟩
      | failed => cases hw
    · cases sends <;> cases hw
  | takes m rest text w frames idle _ _ sends h =>
    refine ⟨_, frames, h, fun _ => ⟨by rw [idle]; rfl, .inl rfl⟩, fun t (hw : w = .closing t) => ?_⟩
    cases sends <;> cases hw
  | skips m rest e idle _ _ h =>
    subst h
    refine ⟨_, [], wrote_skip rest _, fun _ => ⟨by rw [idle]; rfl, .inl rfl⟩, fun t hw => ?_⟩
    rw [show c.writer = .closing t from hw] at idle
    cases idle
  | finishes isText w sending next h =>
    refine ⟨_, [], h, fun _ => ⟨by rw [sending]; rfl, .inl rfl⟩, fun t (hw : w = .closing t) => ?_⟩
    rcases next with rfl | rfl <;> cases hw
  | closed untilMs _ h => exact ⟨_, [], h, nofun, nofun⟩
  | leaves _ _ h => exact ⟨_, [], h, nofun, nofun⟩

/-- An answer that is owed is owed still, or it has come. -/
theorem owes_of_owed (g : Nat) (a : Action) (s : Server) :
    owes g a s true = true ∨ (s.act a).unread g ≠ [] := by
  by_cases hsilent : (s.act a).unread g = []
  · left
    have hnone : come (s.unread g) ((s.act a).unread g) = [] := by rw [hsilent, come, List.drop_nil]
    simp [owes, hnone]
  · exact .inr hsilent

/-- A read loop that waits after an action waits since now, or it has waited before, and what was
there to be read is there still. -/
theorem waits_kept (hosted : Hosted s) (sets : a.sets = none)
    (kept : a.reader = some g ∨ s.unread g <+: (s.act a).unread g)
    (before : s.connection? g = some c) (after : (s.act a).connection? g = some c') (since : Nat)
    (h : c'.reader = .waiting since) : since = s.clock.monoMs ∨
      c.reader = .waiting since ∧ (s.unread g ≠ [] → (s.act a).unread g ≠ []) := by
  have hwaits : (s.act a).reader? g = some (.waiting since) := by rw [reader?_of_found after, h]
  rcases waiting_act hosted a hwaits with hnow | ⟨hold, hidle⟩
  · rw [clock_act hosted, sets, Option.getD_none] at hnow
    exact .inl hnow
  · rw [reader?_of_found before] at hold
    refine .inr ⟨Option.some.inj hold, fun hthere => ?_⟩
    rcases kept with hreader | hprefix
    · rwa [hidle hreader]
    · exact fun hnone => hthere (List.prefix_nil.mp (hnone ▸ hprefix))

/-- A connection that begins is lively. -/
theorem lively_start (clock : s'.clock = s.clock) (hub : s'.hub = s.hub) (key : WorkerKey)
    (link : Nat) : Lively g owed s' (Connection.start s key g link) := by
  refine ⟨fun since hsince => ?_, fun _ => ?_, fun _ since hsince => ?_, nofun⟩ <;>
    simp only [clock, hub]
  · obtain rfl := Reader.waiting.inj hsince
    exact .inl (Nat.le_add_right _ _)
  · exact ⟨Nat.le_add_right _ _, Nat.le_refl _⟩
  · obtain rfl := Reader.waiting.inj hsince
    exact .inl (Nat.le_refl _)

/-- **At one instant the loops stay in step**, whatever happens. -/
theorem Alive.act (hosted : Hosted s) (heeded : Heeded s) (ok : Alive g owed s)
    (sets : a.sets = none) (kept : a.reader = some g ∨ s.unread g <+: (s.act a).unread g) :
    Alive g (owes g a s owed) (s.act a) := by
  intro c' hc'
  have hclock : (s.act a).clock = s.clock := by rw [clock_act hosted, sets, Option.getD_none]
  have hhub := hub_act hosted a
  have hstopped := heeded_act hosted heeded a g c' hc'
  have howing : owed = true → owes g a s owed = true ∨ (s.act a).unread g ≠ [] := by
    rintro rfl
    exact owes_of_owed g a s
  cases fate_of_mailStep (mailStep_act hosted a) g with
  | absent _ after => simp [after] at hc'
  | fresh d _ after key link h =>
    obtain rfl := Option.some.inj (after.symm.trans hc')
    exact h ▸ lively_start hclock hhub key link
  | kept c d before after mailbox told _ =>
    obtain rfl := Option.some.inj (after.symm.trans hc')
    have hwriter : d.writer = c.writer := congrArg Mailbox.writer mailbox
    have hping : d.nextPingMs = c.nextPingMs := congrArg Mailbox.nextPingMs mailbox
    have hwaits := waits_kept hosted sets kept before after
    refine (ok c before).next hclock hhub hwaits howing (fun hserving => ?_) fun hends => ?_
    · rw [hwriter] at hserving
      exact ⟨hserving, .inl hping⟩
    · rw [hwriter] at hends ⊢
      exact ((ok c before).told hends).imp_left told
  | moves c before generation writer h =>
    subst generation
    have hlively := ok c before
    obtain ⟨f, frames, hwrote, hpaced, hclosing⟩ := h.paced fun h => (hlively.due h).1
    obtain ⟨d, after, hcarries⟩ := hwrote.found before
    obtain rfl := Option.some.inj (after.symm.trans hc')
    have hframes : framesWritten a s (s.act a) = frames := by
      rw [framesWritten, writer, Option.bind_some, before]
      exact hwrote.frames
    have hwaits := waits_kept hosted sets kept before after
    refine hlively.next hclock hhub hwaits howing (fun hserving => ?_) fun hends => ?_
    · rw [hcarries.writer] at hserving
      rw [hcarries.nextPingMs]
      obtain ⟨hserved, hsame | ⟨hnew, hpinged⟩⟩ := hpaced hserving
      · exact ⟨hserved, .inl hsame⟩
      · refine ⟨hserved, .inr ⟨hnew, ?_⟩⟩
        rw [owes, if_pos writer, hframes, hpinged, Bool.or_true]
    · cases hw : d.writer with
      | closing t =>
        rw [hcarries.writer] at hw
        exact .inl (hcarries.told (hclosing t hw))
      | leaving => exact .inr rfl
      | stopped => exact .inl (hstopped hw)
      | _ => simp [hw, Writer.isServing] at hends

/-! ### Runs -/

/-- A worker that answers stays lively. -/
theorem Alive.after {actions : List Action} (hosted : Hosted s) (heeded : Heeded s)
    (ok : Alive g owed s) (timely : timely actions s = true)
    (answers : answers g actions s owed = true) : ∃ owed', Alive g owed' (s.after actions) := by
  induction actions generalizing s owed with
  | nil => exact ⟨owed, ok⟩
  | cons a rest ih =>
    rw [Server.timely, Bool.and_eq_true] at timely
    rw [Server.answers, Bool.and_eq_true, Bool.and_eq_true] at answers
    obtain ⟨⟨hrest, hkept⟩, hlater⟩ := answers
    refine ih (hosted_act a hosted) (heeded_act hosted heeded a) ?_ timely.2 hlater
    cases hsets : a.sets with
    | some clock =>
      obtain rfl := Action.eq_clock hsets
      have howes : owes g (.clock clock) s owed = owed := by
        have hnone : come (s.unread g) ((s.act (.clock clock)).unread g) = [] := come_self _
        simp [owes, Action.writer, Action.reader, hnone]
      rw [howes]
      exact ok.clock timely.1 (by simpa [Action.sets] using hrest)
    | none =>
      refine ok.act hosted heeded hsets ?_
      simpa using hkept

theorem Punctual.after {actions : List Action} (hosted : Hosted s) (plugged : Plugged s)
    (ok : Punctual s) (timely : timely actions s = true) (sockets : haveSockets actions s = true) :
    Punctual (s.after actions) := by
  induction actions generalizing s with
  | nil => exact ok
  | cons a rest ih =>
    rw [Server.timely, Bool.and_eq_true] at timely
    rw [haveSockets, Bool.and_eq_true] at sockets
    exact ih (hosted_act a hosted) (plugged_act hosted plugged sockets.1)
      (punctual_act hosted plugged ok timely.1) timely.2 sockets.2

/-- Who is lively is not taken for dead. -/
theorem Alive.timeouts (hosted : Hosted s) (ok : Alive g owed s)
    (faster : s.hub.keepaliveIntervalMs < s.hub.keepaliveTimeoutMs) (reader : a.reader = some g) :
    (s.act a).tally.get .keepaliveTimeouts = s.tally.get .keepaliveTimeouts := by
  by_contra hcounted
  obtain ⟨c, since, hreader, found, htires⟩ := timeouts_act hosted a hcounted
  obtain rfl : c.generation = g := Option.some.inj (hreader.symm.trans reader)
  have hoverdue := htires.overdue
  rcases (ok c found).heard since htires.waiting with hheard | hthere
  · omega
  · exact hthere ((unread_of_found found).trans htires.empty)

end

/--
**A silent worker is dropped in time, and one that answers never is.**  Let a server run with any
settings, with its connections over sockets, and let no action turn time back or make it jump
over a timer.  At any time

  * a read loop is counted as having missed its sign of life, and leaves, only if it has waited
    for a frame since exactly one timeout ago: all that time it has stood at this one place, has
    read nothing, and nothing is there to be read.  No time that it spent on the work queue is
    in it;
  * because whoever waits after an action waits since now, or has waited before and read nothing;
  * no read loop has waited for longer than the timeout;
  * if the timeout is longer than the interval between two pings, a worker that answers each ping
    at the instant at which it is sent, over a socket that never holds the write loop up, is not
    counted as silent, whatever else it sends.
-/
theorem keepalive_deadlines (hub : HubSettings) (payout : Payout) (capacity : Nat) (store : Store)
    (clock : Clock) (consumer : Option Stage) {actions : List Action}
    (timely : timely actions
      { start hub payout capacity store clock with aggregator := consumer } = true)
    (sockets : haveSockets actions
      { start hub payout capacity store clock with aggregator := consumer } = true) :
    let s₀ : Server := { start hub payout capacity store clock with aggregator := consumer }
    let s := s₀.after actions
    let missed (s : Server) := s.tally.get .keepaliveTimeouts
    (∀ a, missed (s.act a) ≠ missed s → ∃ g since early late, a.reader = some g ∧
      missed (s.act a) = missed s + 1 ∧ (s.act a).reader? g = some .leaving ∧
      since + hub.keepaliveTimeoutMs = s.clock.monoMs ∧
      actions = early ++ late ∧ (s₀.after early).clock.monoMs = since ∧
      (∀ part, part <+: late → (s₀.after (early ++ part)).reader? g = some (.waiting since)) ∧
      collect (framesRead g) late (s₀.after early) = [] ∧ s.unread g = []) ∧
    (∀ a g since, (s.act a).reader? g = some (.waiting since) →
      since = (s.act a).clock.monoMs ∨
        s.reader? g = some (.waiting since) ∧ framesRead g a s = []) ∧
    (∀ g since, s.reader? g = some (.waiting since) →
      since ≤ s.clock.monoMs ∧ s.clock.monoMs ≤ since + hub.keepaliveTimeoutMs) ∧
    (hub.keepaliveIntervalMs < hub.keepaliveTimeoutMs →
      ∀ g, answers g actions s₀ false = true →
        ∀ a, a.reader = some g → missed (s.act a) = missed s) := by
  intro s₀ s missed
  have hosted₀ : Hosted s₀ := hosted_after rfl rfl []
  have hosted : Hosted s := hosted_after rfl rfl actions
  have hhub : s.hub = hub := hub_after hosted₀ actions
  have punctual : Punctual s :=
    (punctual_start rfl).after hosted₀ (plugged_start rfl rfl) timely sockets
  rw [Punctual, hhub] at punctual
  refine ⟨fun a hmissed => ?_, fun a g since hwaits => ?_, punctual,
    fun hfaster g hanswers a hreader => ?_⟩
  · obtain ⟨c, since, hreader, found, htires⟩ := timeouts_act hosted a hmissed
    obtain ⟨hcounted, hleaves⟩ := htires.spec found
    have hwaits : s.reader? c.generation = some (.waiting since) := by
      rw [reader?_of_found found, htires.waiting]
    obtain ⟨early, late, hsplit, hclock, hsilence, hread⟩ := exists_silence hosted₀ rfl hwaits
    have hoverdue := htires.overdue
    rw [hhub] at hoverdue
    refine ⟨c.generation, since, early, late, hreader, hcounted, hleaves,
      Nat.le_antisymm hoverdue (punctual _ since hwaits).2, hsplit, hclock, hsilence, hread, ?_⟩
    exact (unread_of_found found).trans htires.empty
  · refine (waiting_act hosted a hwaits).imp_right fun ⟨hold, hidle⟩ => ⟨hold, ?_⟩
    exact framesRead_of_idle hidle
  · have hnobody : Alive g false s₀ := by
      intro c hc
      cases hc
    obtain ⟨owed, halive⟩ := hnobody.after hosted₀ (heeded_start rfl) timely hanswers
    exact halive.timeouts hosted (hhub ▸ hfaster) hreader

/-- Of two workers one answers its ping and is kept; the other one is dropped after fifteen
milliseconds. -/
theorem keepalive_deadlines_two_workers :
    let hub : HubSettings := { keepaliveIntervalMs := 10, keepaliveTimeoutMs := 15 }
    let writes (g : Nat) := Action.step (.writer g)
    let actions := [.connect { room := 1000 }, .register ⟨"a"⟩ 0,
      .connect { room := 1000, peer := { reading := false } }, .register ⟨"b"⟩ 1,
      .clock ⟨0, 10000000⟩, writes 1, .step (.peer 0), writes 1, .step (.reader 1), writes 2,
      writes 2, .clock ⟨0, 15000000⟩]
    let s₀ := start hub {} 1 (.memory {}) (.atMs 0)
    let s := s₀.after actions
    let missed (s : Server) := s.tally.get .keepaliveTimeouts
    timely actions s₀ = true ∧ haveSockets actions s₀ = true ∧
      answers 1 actions s₀ false = true ∧ missed (s.act (.step (.reader 2))) ≠ missed s ∧
      (∃ early late, actions = early ++ late ∧ (s₀.after early).clock.monoMs = 0 ∧
        collect (framesRead 2) late (s₀.after early) = []) ∧
      ∀ a, a.reader = some 1 → missed (s.act a) = missed s := by
  intro hub writes actions s₀ s missed
  have htimely : timely actions s₀ = true := by decide +kernel
  have hsockets : haveSockets actions s₀ = true := by decide +kernel
  have hanswers : answers 1 actions s₀ false = true := by decide +kernel
  have hmissed : missed (s.act (.step (.reader 2))) ≠ missed s := by decide +kernel
  have hclock : s.clock.monoMs = 15 := by decide +kernel
  obtain ⟨hsilent, -, -, hlively⟩ :=
    keepalive_deadlines hub {} 1 (.memory {}) (.atMs 0) (some .running) htimely hsockets
  refine ⟨htimely, hsockets, hanswers, hmissed, ?_, hlively (by decide) 1 hanswers⟩
  obtain ⟨g, since, early, late, hreader, -, -, hsince, hsplit, hbegan, -, hread, -⟩ :=
    hsilent _ hmissed
  obtain rfl : 2 = g := Option.some.inj hreader
  have hzero : since = 0 := Nat.add_right_cancel (hsince.trans hclock)
  exact ⟨early, late, hsplit, hbegan.trans hzero, hread⟩

end Foreman.Server
