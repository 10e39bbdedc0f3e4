/-
What recording a result is answered with.

A store is handed one event after the other.  The events that name an account as the
owner of their worker are the ones that are recorded, and the answer to such an event
tells how many of the events so far were recorded for the same provider, and how many
for the same requester.  `tallyAfter` says this over the events alone.

Memory counts up, a database counts rows.  Both follow the events: as long as each of a
store's counts is a number of recorded events, its next answer is the tally, and its
counts afterwards are again numbers of recorded events.
-/
import Mathlib.Algebra.BigOperators.Finprod
import Mathlib.Data.List.Induction
import Foreman.Proofs.Store.Results

namespace Foreman

/-! ### Tallies of events -/

/-- The events whose workers are owned by an account. -/
def recorded (es : List WorkEvent) : List WorkEvent :=
  es.filter (·.workerKey.owner?.isSome)

/-- The number of recorded events of a provider. -/
def resultsAmong (p : UserId) (es : List WorkEvent) : Nat :=
  (recorded es).countP (·.workerKey.owner? == some p)

/-- The number of recorded events of a requester. -/
def requestsAmong (r : UserId) (es : List WorkEvent) : Nat :=
  (recorded es).countP (·.requesterId == r)

/-- The answer that is due for the event `e` after the events `es`: how many events, this one
included, were recorded for its provider and for its requester. -/
def tallyAfter (es : List WorkEvent) (e : WorkEvent) : Except StoreError WorkTally :=
  match e.workerKey.owner? with
  | none => .error (.noOwner e.workerKey)
  | some p => .ok ⟨resultsAmong p (es ++ [e]), requestsAmong e.requesterId (es ++ [e])⟩

theorem recorded_concat_of_owner {e : WorkEvent} {p : UserId} (ho : e.workerKey.owner? = some p)
    (es : List WorkEvent) : recorded (es ++ [e]) = recorded es ++ [e] := by
  simp [recorded, ho]

theorem recorded_concat_of_ownerless {e : WorkEvent} (ho : e.workerKey.owner? = none)
    (es : List WorkEvent) : recorded (es ++ [e]) = recorded es := by
  simp [recorded, ho]

theorem resultsAmong_concat {e : WorkEvent} {p : UserId} (ho : e.workerKey.owner? = some p)
    (es : List WorkEvent) (q : UserId) :
    resultsAmong q (es ++ [e]) = resultsAmong q es + if p = q then 1 else 0 := by
  rw [resultsAmong, recorded_concat_of_owner ho, List.countP_append, List.countP_singleton, ho]
  by_cases h : p = q
  · simp [resultsAmong, h]
  · simp [resultsAmong, h]

theorem requestsAmong_concat {e : WorkEvent} {p : UserId} (ho : e.workerKey.owner? = some p)
    (es : List WorkEvent) (r : UserId) :
    requestsAmong r (es ++ [e]) = requestsAmong r es + if e.requesterId = r then 1 else 0 := by
  rw [requestsAmong, recorded_concat_of_owner ho, List.countP_append, List.countP_singleton]
  by_cases h : e.requesterId = r
  · simp [requestsAmong, h]
  · simp [requestsAmong, h]

/-! ### Sums of counts -/

/-- Counted by a key that every entry has, the entries are as many as the counts together. -/
theorem finsum_countP {α β : Type} [DecidableEq β] {key : α → Option β} {l : List α}
    (h : ∀ a ∈ l, (key a).isSome = true) :
    ∑ᶠ b, l.countP (fun a => key a == some b) = l.length := by
  have hcount : ∀ b, l.countP (fun a => key a == some b) = (l.filterMap key).count b := by
    intro b
    rw [List.count_filterMap]
  have hsupport : Function.support (fun b => (l.filterMap key).count b) ⊆
      ((l.filterMap key).toFinset : Set β) := by
    intro b hb
    rw [Function.mem_support, ne_eq, List.count_eq_zero, not_not] at hb
    simpa using hb
  have hlength : (l.filterMap key).length = l.length := by
    rw [List.length_filterMap_eq_countP, List.countP_eq_length]
    exact h
  calc ∑ᶠ b, l.countP (fun a => key a == some b)
      = ∑ᶠ b, (l.filterMap key).count b := finsum_congr hcount
    _ = ∑ b ∈ (l.filterMap key).toFinset, (l.filterMap key).count b :=
        finsum_eq_sum_of_support_subset _ hsupport
    _ = (l.filterMap key).length := List.sum_toFinset_count_eq_length _
    _ = l.length := hlength

theorem finsum_resultsAmong (es : List WorkEvent) :
    ∑ᶠ p, resultsAmong p es = (recorded es).length := by
  refine finsum_countP ?_
  intro e he
  exact (List.mem_filter.mp he).2

theorem finsum_requestsAmong (es : List WorkEvent) :
    ∑ᶠ r, requestsAmong r es = (recorded es).length := by
  have hkey : ∀ r, requestsAmong r es =
      (recorded es).countP fun e => some e.requesterId == some r := by
    intro r
    exact List.countP_congr fun e _ => by simp
  rw [finsum_congr hkey]
  exact finsum_countP fun _ _ => rfl

/-! ### Runs of a store -/

namespace Store

/-- The store once events were handed to it, one after the other. -/
def afterEvents (es : List WorkEvent) (s : Store) : Store :=
  es.foldl (fun s e => (s.recordWork e).2) s

theorem afterEvents_concat (es : List WorkEvent) (e : WorkEvent) (s : Store) :
    s.afterEvents (es ++ [e]) = ((s.afterEvents es).recordWork e).2 := by
  rw [afterEvents, List.foldl_append]
  rfl

/-- What is answered to the events that are handed to a store, one after the other. -/
def answers : List WorkEvent → Store → List (Except StoreError WorkTally)
  | [], _ => []
  | e :: es, s => (s.recordWork e).1 :: answers es (s.recordWork e).2

/-- An event is answered by the store as the events before it have left it. -/
theorem getElem?_answers (es : List WorkEvent) :
    ∀ (s : Store) (i : Nat), (s.answers es)[i]? =
      es[i]?.map fun e => ((s.afterEvents (es.take i)).recordWork e).1 := by
  induction es with
  | nil => intro s i; rfl
  | cons e es ih =>
      intro s i
      cases i with
      | zero => rfl
      | succ i =>
          rw [answers, List.getElem?_cons_succ, List.getElem?_cons_succ, List.take_succ_cons, ih]
          rfl

/-- What a store has counted are the recorded ones among the events. -/
structure Follows (es : List WorkEvent) (s : Store) : Prop where
  records : s.Records
  results : ∀ p, s.results p = resultsAmong p es
  requests : ∀ r, s.requests r = requestsAmong r es

namespace Follows

variable {es : List WorkEvent} {s : Store}

/-- The next event is answered with its tally, and counted if it is recorded. -/
theorem event (ok : Follows es s) (e : WorkEvent) :
    (s.recordWork e).1 = tallyAfter es e ∧ Follows (es ++ [e]) (s.recordWork e).2 := by
  cases ho : e.workerKey.owner? with
  | none =>
      have hsame : recorded (es ++ [e]) = recorded es := recorded_concat_of_ownerless ho es
      rw [recordWork_of_ownerless ho s, tallyAfter, ho]
      refine ⟨rfl, ok.records, ?_, ?_⟩
      · intro p
        rw [ok.results, resultsAmong, resultsAmong, hsame]
      · intro r
        rw [ok.requests, requestsAmong, requestsAmong, hsame]
  | some p =>
      obtain ⟨s', tallied⟩ := exists_tallied ok.records ho
      rw [tallied.answer, tallyAfter, ho]
      refine ⟨?_, tallied.records, ?_, ?_⟩
      · show Except.ok _ = Except.ok _
        rw [ok.results, ok.requests, resultsAmong_concat ho, requestsAmong_concat ho,
          if_pos rfl, if_pos rfl]
      · intro q
        rw [tallied.results, ok.results, resultsAmong_concat ho]
      · intro r
        rw [tallied.requests, ok.requests, requestsAmong_concat ho]

/-- A store that has counted nothing follows whatever it is handed. -/
theorem after (ok : Follows [] s) (es : List WorkEvent) : Follows es (s.afterEvents es) := by
  induction es using List.reverseRecOn with
  | nil => exact ok
  | append_singleton es e ih =>
      rw [afterEvents_concat]
      exact (ih.event e).2

end Follows

theorem follows_memory {m : MemoryStore} (hp : m.byProvider = []) (hr : m.byRequester = []) :
    Follows [] (memory m) where
  records := trivial
  results p := by rw [results, hp]; rfl
  requests r := by rw [requests, hr]; rfl

theorem follows_sql {db : Database} (hwork : db.work = some []) (haccepts : db.Accepts) :
    Follows [] (sql db) where
  records := ⟨by rw [hwork]; rfl, haccepts⟩
  results p := by rw [results, hwork]; rfl
  requests r := by rw [requests, hwork]; rfl

variable {m : MemoryStore} {db : Database}

/-- **Memory and a table tally alike.**  Both are empty and are handed the same events.  They
give the same answers: an event of nobody is refused and changes nothing, and any other is
answered with the numbers of events recorded so far, this one included, for its provider and for
its requester.  After any number of events, what is counted for each provider and for each
requester are its recorded events, and either way the counts add up to all recorded events. -/
theorem stores_tally_alike (hp : m.byProvider = []) (hr : m.byRequester = [])
    (hwork : db.work = some []) (haccepts : db.Accepts) (es : List WorkEvent) :
    (memory m).answers es = (sql db).answers es ∧
    ∀ s ∈ [memory m, sql db],
      (∀ i e, es[i]? = some e →
        (s.answers es)[i]? = some (tallyAfter (es.take i) e) ∧
        (e.workerKey.owner? = none →
          s.afterEvents (es.take (i + 1)) = s.afterEvents (es.take i))) ∧
      ∀ n, let after := s.afterEvents (es.take n)
        (∀ p, after.results p = resultsAmong p (es.take n)) ∧
        (∀ r, after.requests r = requestsAmong r (es.take n)) ∧
        ∑ᶠ p, after.results p = (recorded (es.take n)).length ∧
        ∑ᶠ r, after.requests r = (recorded (es.take n)).length := by
  have hmemory : Follows [] (memory m) := follows_memory hp hr
  have hsql : Follows [] (sql db) := follows_sql hwork haccepts
  have hanswer {s : Store} (ok : Follows [] s) (i : Nat) :
      (s.answers es)[i]? = es[i]?.map (tallyAfter (es.take i)) := by
    rw [getElem?_answers]
    congr 1
    funext e
    exact ((ok.after (es.take i)).event e).1
  have hboth : ∀ s ∈ [memory m, sql db], Follows [] s := by
    intro s hs
    rcases List.mem_pair.mp hs with rfl | rfl
    · exact hmemory
    · exact hsql
  refine ⟨?_, ?_⟩
  · refine List.ext_getElem? fun i => ?_
    rw [hanswer hmemory, hanswer hsql]
  · intro s hs
    have ok : Follows [] s := hboth s hs
    refine ⟨?_, ?_⟩
    · intro i e he
      refine ⟨?_, ?_⟩
      · rw [hanswer ok, he, Option.map_some]
      · intro ho
        rw [List.take_add_one, he, Option.toList_some, afterEvents_concat,
          recordWork_of_ownerless ho]
    · intro n
      have hafter : Follows (es.take n) (s.afterEvents (es.take n)) := ok.after (es.take n)
      refine ⟨hafter.results, hafter.requests, ?_, ?_⟩
      · rw [finsum_congr hafter.results, finsum_resultsAmong]
      · rw [finsum_congr hafter.requests, finsum_requestsAmong]

/-- Of three events the one in the middle is of nobody, and the last one was requested by its own
provider. -/
theorem stores_tally_alike_three :
    let provider : UserId := ⟨1⟩
    let event (key : String) (requester : UserId) : WorkEvent :=
      .ofResult ⟨key⟩ ⟨"", requester, "a", "", 1⟩
    let first := event "00000000-0000-0000-0000-000000000001:0" ⟨2⟩
    let nobodys := event "nobody" ⟨2⟩
    let last := event "00000000-0000-0000-0000-000000000001:1" provider
    let es := [first, nobodys, last]
    (memory {}).answers es = (sql {}).answers es ∧
    ((sql {}).answers es)[2]? = some (.ok ⟨2, 1⟩) ∧
    (sql {}).afterEvents [first, nobodys] = (sql {}).afterEvents [first] ∧
    ∑ᶠ p, ((sql {}).afterEvents es).results p = 2 := by
  intro provider event first nobodys last es
  have haccepts : ({} : Database).Accepts := Database.accepts_of_no_refusals rfl
  obtain ⟨hsame, hrun⟩ := stores_tally_alike (m := {}) rfl rfl rfl haccepts es
  obtain ⟨hanswers, hcounts⟩ := hrun (sql {}) (List.mem_pair.mpr (.inr rfl))
  have hlast := (hanswers 2 last rfl).1
  have hnobodys := (hanswers 1 nobodys rfl).2
  have hsum := (hcounts 3).2.2.1
  have hrecorded : recorded es = [first, last] := by decide +kernel
  have htally : tallyAfter (es.take 2) last = .ok ⟨2, 1⟩ := by decide +kernel
  have hnobody : nobodys.workerKey.owner? = none := by decide +kernel
  refine ⟨hsame, hlast.trans (congrArg some htally), hnobodys hnobody, ?_⟩
  refine hsum.trans ?_
  show (recorded es).length = 2
  rw [hrecorded]
  rfl

end Store

end Foreman
