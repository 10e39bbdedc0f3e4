/-
The slots of the work queue.

There are the slots that an event takes up, those that are free and those that are
held for a read loop which has not put its event in yet.  No action makes their
number greater, so the queue never holds more events than it had slots at first.

A slot must not be doubled on its way from the aggregator to a read loop, nor when
that loop is told to stop in between and gives it back.  What makes the count work
there is that no two connections have the same number, so that a slot is held for
one read loop only.
-/
import Foreman.Proofs.Server.Intake

namespace Foreman.Server

/-- The slots of the work queue, wherever they are. -/
def slots (s : Server) : Nat := s.queue.items.length + s.queue.free + s.grants

theorem slots_of_queue (q : WorkQueue) (s : Server) :
    { s with queue := q }.slots = q.items.length + q.free + s.grants := rfl

theorem SameIntake.slots {s s' : Server} (h : SameIntake s s') : s'.slots = s.slots := by
  rw [Server.slots, Server.slots, h.queue, h.grants]

/-! ### Counting after a change -/

section

variable {α : Type} {p : α → Bool} {f : α → α}

theorem countP_map_le {l : List α} (h : ∀ x ∈ l, p (f x) = true → p x = true) :
    (l.map f).countP p ≤ l.countP p := by
  rw [List.countP_map]
  exact List.countP_mono_left h

theorem countP_map_lt {l : List α} (h : ∀ x ∈ l, p (f x) = true → p x = true) {y : α} (hy : y ∈ l)
    (hp : p y = true) (hf : p (f y) = false) : (l.map f).countP p + 1 ≤ l.countP p := by
  induction l with
  | nil => simp at hy
  | cons x rest ih =>
      have hrest : ∀ z ∈ rest, p (f z) = true → p z = true :=
        fun z hz => h z (List.mem_cons_of_mem x hz)
      rw [List.map_cons, List.countP_cons, List.countP_cons]
      rcases List.mem_cons.mp hy with rfl | hy
      · have hle := countP_map_le hrest
        rw [if_pos hp, hf, if_neg (by simp)]
        omega
      · have hlt := ih hrest hy
        have hx := h x List.mem_cons_self
        by_cases hfx : p (f x) = true
        · rw [if_pos hfx, if_pos (hx hfx)]
          omega
        · rw [if_neg hfx]
          omega

end

/-- A change to one connection of many adds one to a count at most. -/
theorem countP_modifyConnection_le {s : Server} (hn : (s.connections.map (·.generation)).Nodup)
    (g : Nat) (f : Connection → Connection) (p : Connection → Bool) :
    (s.modifyConnection g f).connections.countP p ≤ s.connections.countP p + 1 := by
  simp only [modifyConnection]
  generalize s.connections = l at hn
  induction l with
  | nil => simp
  | cons c rest ih =>
      rw [List.map_cons, List.nodup_cons] at hn
      obtain ⟨hnew, hrest⟩ := hn
      rw [List.map_cons, List.countP_cons, List.countP_cons]
      by_cases hg : c.generation = g
      · -- the one that changes is here, so the rest stays as it is
        have hsame : ∀ d ∈ rest, (if d.generation = g then f d else d) = d := by
          intro d hd
          rw [if_neg]
          intro hdg
          exact hnew (List.mem_map.mpr ⟨d, hd, hdg.trans hg.symm⟩)
        rw [List.map_congr_left hsame, List.map_id']
        split <;> split <;> omega
      · have hle := ih hrest
        rw [if_neg hg]
        omega

/-! ### Slots that are held -/

/-- A slot is held for the read loop with a number. -/
def HoldsSlot (g : Nat) (s : Server) : Prop :=
  ∃ c ∈ s.connections, c.generation = g ∧ c.reader.isGranted = true

theorem grants_setReader_le {r : Reader} (hr : r.isGranted = false) (g : Nat) (s : Server) :
    (s.setReader g r).grants ≤ s.grants := by
  refine countP_map_le fun c _ hc => ?_
  by_cases hg : c.generation = g
  · simp [hg, hr] at hc
  · simpa [hg] using hc

/-- A read loop that goes on to something else gives up the slot that was held for it. -/
theorem grants_setReader_lt {r : Reader} (hr : r.isGranted = false) {g : Nat} {s : Server}
    (h : s.HoldsSlot g) : (s.setReader g r).grants + 1 ≤ s.grants := by
  obtain ⟨c, hc, hg, hgranted⟩ := h
  refine countP_map_lt (fun d _ hd => ?_) hc hgranted ?_
  · by_cases hdg : d.generation = g
    · simp [hdg, hr] at hd
    · simpa [hdg] using hd
  · simp [hg, hr]

theorem grants_grantSlot_le {s : Server} (hn : (s.connections.map (·.generation)).Nodup)
    (next : Option Nat) : (s.grantSlot next).grants ≤ s.grants + next.toList.length := by
  unfold grantSlot
  split
  · exact Nat.le_refl _
  · rename_i g
    rw [(quiet_wake _ _).sameIntake.grants]
    exact countP_modifyConnection_le hn g _ _

theorem connections_wake (t : Task) (s : Server) : (s.wake t).connections = s.connections := by
  unfold wake
  split <;> rfl

/-- Handing over a slot takes none from anybody. -/
theorem holdsSlot_grantSlot {g : Nat} {s : Server} (h : s.HoldsSlot g) (next : Option Nat) :
    (s.grantSlot next).HoldsSlot g := by
  obtain ⟨c, hc, hg, hgranted⟩ := h
  unfold grantSlot
  split
  · exact ⟨c, hc, hg, hgranted⟩
  · rename_i g'
    unfold HoldsSlot
    rw [connections_wake]
    refine ⟨_, List.mem_map_of_mem hc, ?_⟩
    cases hr : c.reader with
    | granted e => by_cases hg' : c.generation = g' <;> simp [hg', hr, Reader.isGranted, ← hg]
    | _ => simp [hr, Reader.isGranted] at hgranted

/-! ### The steps that move slots -/

theorem free_release (q : WorkQueue) :
    q.release.2.free + q.release.1.toList.length = q.free + 1 := by
  unfold WorkQueue.release
  split <;> rfl

/-- A slot that an event or a read loop gives up is free again or held for another one. -/
theorem slots_release_le {s : Server} (hn : (s.connections.map (·.generation)).Nodup)
    (q : WorkQueue) :
    ({ s with queue := q.release.2 }.grantSlot q.release.1).slots ≤
      q.items.length + q.free + s.grants + 1 := by
  have hgrants : ({ s with queue := q.release.2 }.grantSlot q.release.1).grants ≤
      s.grants + q.release.1.toList.length :=
    grants_grantSlot_le (s := { s with queue := q.release.2 }) hn q.release.1
  have hfree := free_release q
  rw [slots, queue_grantSlot, items_release]
  dsimp only
  omega

/-- What is taken is the oldest event. -/
theorem takeEvent_eq_some {s s' : Server} {e : WorkEvent} (h : s.takeEvent = some (e, s')) :
    ∃ q : WorkQueue, s.queue.items = e :: q.items ∧ q.free = s.queue.free ∧
      q.abandoned = s.queue.abandoned ∧
      s' = { s with queue := q.release.2 }.grantSlot q.release.1 := by
  unfold takeEvent WorkQueue.take at h
  cases hi : s.queue.items with
  | nil => simp [hi] at h
  | cons e' rest =>
    simp only [hi, Option.map_some, Option.some.injEq, Prod.mk.injEq] at h
    obtain ⟨rfl, rfl⟩ := h
    exact ⟨{ s.queue with items := rest }, rfl, rfl, rfl, rfl⟩

theorem items_takeEvent {s s' : Server} {e : WorkEvent} (h : s.takeEvent = some (e, s')) :
    s.queue.items = e :: s'.queue.items := by
  obtain ⟨q, hitems, -, -, rfl⟩ := takeEvent_eq_some h
  rw [queue_grantSlot, hitems]
  exact congrArg (e :: ·) (items_release q).symm

theorem slots_takeEvent {s s' : Server} {e : WorkEvent}
    (hn : (s.connections.map (·.generation)).Nodup) (h : s.takeEvent = some (e, s')) :
    s'.slots ≤ s.slots := by
  obtain ⟨q, hi, hf, -, rfl⟩ := takeEvent_eq_some h
  have hle := slots_release_le hn q
  have hlength : s.queue.items.length = q.items.length + 1 := by rw [hi, List.length_cons]
  have hslots : s.slots = s.queue.items.length + s.queue.free + s.grants := rfl
  omega

/-- A read loop goes on to something for which no slot is held. -/
theorem slots_setReader_le {r : Reader} (hr : r.isGranted = false) {g : Nat} {s s₁ : Server}
    (h : s₁.slots = s.slots) : (s₁.setReader g r).slots ≤ s.slots := by
  have hgrants := grants_setReader_le hr g s₁
  have hslots : (s₁.setReader g r).slots =
      s₁.queue.items.length + s₁.queue.free + (s₁.setReader g r).grants := rfl
  have hsame : s₁.slots = s₁.queue.items.length + s₁.queue.free + s₁.grants := rfl
  omega

/-- It gives up the slot that was held for it. -/
theorem slots_setReader_lt {r : Reader} (hr : r.isGranted = false) {g : Nat} {s : Server}
    (h : s.HoldsSlot g) : (s.setReader g r).slots + 1 ≤ s.slots := by
  have hgrants := grants_setReader_lt hr h
  have hslots : (s.setReader g r).slots =
      s.queue.items.length + s.queue.free + (s.setReader g r).grants := rfl
  have hsame : s.slots = s.queue.items.length + s.queue.free + s.grants := rfl
  omega

/-! ### The read loop -/

theorem slots_readText_le (c : Connection) (text : String) (s : Server) :
    (s.readText c text).slots ≤ s.slots := by
  have hbump := (quiet_bump .framesIn s).sameIntake
  unfold readText
  dsimp only
  split
  · exact slots_setReader_le rfl hbump.slots
  · have hreject := (quiet_bump .framesRejected (s.bump .framesIn)).sameIntake
    exact slots_setReader_le rfl (hbump.trans hreject).slots

theorem slots_readFrame_le (c : Connection) (f : Frame) (s : Server) :
    (s.readFrame c f).slots ≤ s.slots := by
  cases f with
  | text t => exact slots_readText_le c t s
  | binary p => exact slots_setReader_le rfl (quiet_bump .framesRejected s).sameIntake.slots
  | ping p =>
    have hpong := (quiet_modifyLink c.link (Link.write (.pong p)) s).trans
      (quiet_wake (.peer c.link) _)
    exact slots_setReader_le rfl hpong.sameIntake.slots
  | pong p => exact slots_setReader_le rfl rfl
  | close => exact slots_setReader_le rfl rfl

theorem slots_readWaiting_le {c : Connection} {l : Link} {since : Nat} {s s' : Server}
    (h : s.readWaiting c l since = some s') : s'.slots ≤ s.slots := by
  unfold readWaiting at h
  split at h
  · obtain rfl := Option.some.inj h
    exact slots_setReader_le rfl rfl
  · split at h
    · rename_i f rest _
      obtain rfl := Option.some.inj h
      have htake := quiet_modifyLink c.link (fun l => { l with incoming := rest }.drain) s
      rw [← htake.sameIntake.slots]
      exact slots_readFrame_le c f _
    · split at h
      · obtain rfl := Option.some.inj h
        exact slots_setReader_le rfl (quiet_bump _ s).sameIntake.slots
      · split at h
        · obtain rfl := Option.some.inj h
          exact slots_setReader_le rfl (quiet_bump _ s).sameIntake.slots
        · simp at h

/-- An event that is put in takes up a slot. -/
theorem slots_push (e : WorkEvent) (s : Server) :
    ({ s with queue := s.queue.push e }.wake .aggregator).slots = s.slots + 1 := by
  have hlength : (s.queue.push e).items.length = s.queue.items.length + 1 := List.length_append
  have hfree : (s.queue.push e).free = s.queue.free := rfl
  rw [(quiet_wake .aggregator _).sameIntake.slots, slots_of_queue, hlength, hfree]
  unfold slots
  omega

theorem slots_pushEvent_le (c : Connection) (e : WorkEvent) (s : Server) :
    (s.pushEvent c e).slots ≤ s.slots + 1 := by
  rw [← slots_push e s]
  exact slots_setReader_le rfl rfl

/-- The slot that was held for a read loop is the one that its event takes up. -/
theorem slots_pushEvent_of_holds {c : Connection} {s : Server} (h : s.HoldsSlot c.generation)
    (e : WorkEvent) : (s.pushEvent c e).slots ≤ s.slots := by
  have hholds : ({ s with queue := s.queue.push e }.wake .aggregator).HoldsSlot c.generation := by
    unfold HoldsSlot
    rw [connections_wake]
    exact h
  have hlt : (s.pushEvent c e).slots + 1 ≤ _ := slots_setReader_lt rfl hholds
  rw [slots_push] at hlt
  omega

theorem slots_readOffering_le (c : Connection) (e : WorkEvent) (s : Server) :
    (s.readOffering c e).slots ≤ s.slots := by
  unfold readOffering
  split
  · exact slots_setReader_le rfl rfl
  · split
    · rename_i q hq
      have hle := slots_pushEvent_le c e { s with queue := q }
      have hslots := slots_of_queue q s
      unfold WorkQueue.acquire? at hq
      split at hq
      · simp at hq
      · -- the free slot that the loop takes is the one that the event takes up
        obtain rfl := Option.some.inj hq
        have hsame : s.slots = s.queue.items.length + s.queue.free + s.grants := rfl
        dsimp only at hslots
        omega
    · exact slots_setReader_le rfl rfl

theorem slots_readQueued_le {c : Connection} {s s' : Server} (h : s.readQueued c = some s') :
    s'.slots ≤ s.slots := by
  unfold readQueued at h
  split at h
  · obtain rfl := Option.some.inj h
    exact slots_setReader_le rfl rfl
  · simp at h

/-- A read loop that is told to stop gives back the slot that was held for it. -/
theorem slots_readGranted_le {c : Connection} {s : Server}
    (hn : (s.connections.map (·.generation)).Nodup) (h : s.HoldsSlot c.generation)
    (e : WorkEvent) : (s.readGranted c e).slots ≤ s.slots := by
  unfold readGranted
  split
  · have hreturn : s.returnSlot.slots ≤ s.slots + 1 := slots_release_le hn s.queue
    have hholds : s.returnSlot.HoldsSlot c.generation :=
      holdsSlot_grantSlot (s := { s with queue := s.queue.release.2 }) h s.queue.release.1
    have hlt : (s.returnSlot.setReader c.generation .leaving).slots + 1 ≤ _ :=
      slots_setReader_lt rfl hholds
    omega
  · exact slots_pushEvent_of_holds h e

theorem slots_readLeaving_le (c : Connection) (s : Server) : (s.readLeaving c).slots ≤ s.slots := by
  rw [(quiet_readLeaving c s).sameIntake.slots]
  exact slots_setReader_le rfl (sameIntake_release c.key c.generation s).slots

/-- No step of a read loop makes the number of slots greater. -/
theorem slots_readAs_le {c : Connection} {s s' : Server}
    (hn : (s.connections.map (·.generation)).Nodup)
    (hc : c.reader.isGranted = true → s.HoldsSlot c.generation) (h : s.readAs c = some s') :
    s'.slots ≤ s.slots := by
  cases readCase_of_readAs h with
  | waiting since l _ _ hstep => exact slots_readWaiting_le hstep
  | offering e _ hstep => exact hstep ▸ slots_readOffering_le c e s
  | queued e _ hstep => exact slots_readQueued_le hstep
  | granted e phase hstep =>
    have hholds := hc (by rw [phase]; rfl)
    exact hstep ▸ slots_readGranted_le hn hholds e
  | leaving _ hstep => exact hstep ▸ slots_readLeaving_le c s

end Foreman.Server
