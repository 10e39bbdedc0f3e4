/-
No table of a document has a key twice.

A table grows in one way only: a key gets a value, in place of any other that it has.  So
its keys stay different, and what has to be followed through the reading of a document is
merely that every table is made like this: the tables below the root, and those that are
still being read.  `Keyed` says it of a value with everything in it, a change of a table
keeps it (`Keeps`), and the reader's state is keyed after every token.
-/
import Mathlib.Data.List.Nodup
import Foreman.Toml.Document

namespace Foreman.Toml

/-- In every table of a value the keys differ. -/
inductive Value.Keyed : Value → Prop where
  | string (s : String) : Keyed (.string s)
  | scalar (s : Scalar) : Keyed (.scalar s)
  | array {ofTables : Bool} {items : List Value} (h : ∀ v ∈ items, Keyed v) :
      Keyed (.array ofTables items)
  | table {origin : Origin} {entries : List (String × Value)} (keys : (entries.map (·.1)).Nodup)
      (h : ∀ e ∈ entries, Keyed e.2) : Keyed (.table origin entries)

namespace Entries

/-- The keys of a table differ, and so do those of every table in it. -/
structure Keyed (t : Entries) : Prop where
  keys : (t.map (·.1)).Nodup
  values : ∀ e ∈ t, e.2.Keyed

theorem Keyed.nil : Keyed [] := ⟨List.nodup_nil, by simp⟩

theorem Keyed.table {t : Entries} (h : t.Keyed) (origin : Origin) :
    (Value.table origin t).Keyed := .table h.keys h.values

theorem keyed_of_table {origin : Origin} {t : Entries} (h : (Value.table origin t).Keyed) :
    t.Keyed := by
  cases h with
  | table keys values => exact ⟨keys, values⟩

theorem Keyed.find {t : Entries} (h : t.Keyed) {key : String} {v : Value}
    (hv : t.find key = some v) : v.Keyed := by
  obtain ⟨e, he, rfl⟩ := Option.map_eq_some_iff.mp hv
  exact h.values e (List.mem_of_find?_eq_some he)

/-- A key that has a value keeps its place, and a new one is different from all others. -/
theorem Keyed.put {t : Entries} (h : t.Keyed) (key : String) {v : Value} (hv : v.Keyed) :
    (t.put key v).Keyed := by
  unfold Entries.put
  by_cases hany : t.any (·.1 == key) = true
  · rw [if_pos hany]
    refine ⟨?_, ?_⟩
    · have hsame : (t.map fun e => if e.1 == key then (key, v) else e).map (·.1) = t.map (·.1) := by
        rw [List.map_map]
        refine List.map_congr_left fun e _ => ?_
        by_cases he : e.1 = key <;> simp [he]
      rw [hsame]
      exact h.keys
    · intro e he
      obtain ⟨e', he', rfl⟩ := List.mem_map.mp he
      split
      · exact hv
      · exact h.values e' he'
  · rw [if_neg hany]
    refine ⟨?_, ?_⟩
    · rw [List.map_append, List.map_cons, List.map_nil, List.nodup_append]
      refine ⟨h.keys, List.nodup_singleton key, ?_⟩
      intro k hk k' hk' heq
      obtain ⟨e, he, rfl⟩ := List.mem_map.mp hk
      have hkey : e.1 = key := heq.trans (List.mem_singleton.mp hk')
      exact hany (List.any_eq_true.mpr ⟨e, he, by simpa using hkey⟩)
    · intro e he
      rcases List.mem_append.mp he with hold | hnew
      · exact h.values e hold
      · rw [List.mem_singleton.mp hnew]
        exact hv

end Entries

/-! ### Changes of tables -/

/-- A change leaves keys different. -/
def Keeps (change : Change) : Prop :=
  ∀ t t', t.entries.Keyed → change t = some t' → t'.entries.Keyed

/-- What a key gets for the value that it has is keyed. -/
def Gives (f : Option Value → Option Value) : Prop :=
  ∀ old new, (∀ v, old = some v → v.Keyed) → f old = some new → new.Keyed

theorem keeps_alter {f : Option Value → Option Value} (hf : Gives f) (key : String) :
    Keeps (Table.alter key f) := by
  intro t t' ht h
  obtain ⟨v, hv, rfl⟩ := Option.map_eq_some_iff.mp h
  exact ht.put key (hf _ v (fun w hw => ht.find hw) hv)

theorem gives_enter {change : Change} (h : Keeps change) (dotted : Bool) :
    Gives (enter dotted change) := by
  intro old new hold hnew
  unfold enter at hnew
  split at hnew
  · obtain ⟨t, ht, rfl⟩ := Option.map_eq_some_iff.mp hnew
    exact (h _ t .nil ht).table t.origin
  · split at hnew
    · simp at hnew
    · obtain ⟨t, ht, rfl⟩ := Option.map_eq_some_iff.mp hnew
      exact (h _ t (Entries.keyed_of_table (hold _ rfl)) ht).table t.origin
  · rename_i items
    cases hold _ rfl with
    | array hitems =>
      split at hnew
      · rename_i origin entries hlast
        obtain ⟨t, ht, rfl⟩ := Option.map_eq_some_iff.mp hnew
        have hentries := Entries.keyed_of_table (hitems _ (List.mem_of_getLast? hlast))
        refine .array fun v hv => ?_
        rcases List.mem_append.mp hv with hfirst | hv
        · exact hitems v (List.dropLast_subset items hfirst)
        · rw [List.mem_singleton.mp hv]
          exact (h _ t hentries ht).table t.origin
      · simp at hnew
  · simp at hnew

theorem keeps_descend {change : Change} (h : Keeps change) (dotted : Bool) (path : List String) :
    Keeps (Table.descend dotted path change) := by
  induction path with
  | nil => exact h
  | cons key path ih => exact keeps_alter (gives_enter ih dotted) key

theorem keeps_assign {v : Value} (hv : v.Keyed) (path : List String) (key : String) :
    Keeps (Table.assign path key v) := by
  refine keeps_descend ?_ true path
  intro t t' ht h
  unfold Table.assignLast at h
  split at h
  · simp at h
  · refine keeps_alter ?_ key t t' ht h
    intro old new _ hnew
    dsimp only at hnew
    split at hnew
    · rw [← Option.some.inj hnew]
      exact hv
    · simp at hnew

theorem keeps_openTable (path : List String) (key : String) :
    Keeps (Table.openTable path key) := by
  refine keeps_descend (keeps_alter ?_ key) false path
  intro old new hold hnew
  dsimp only at hnew
  split at hnew
  · rw [← Option.some.inj hnew]
    exact Entries.Keyed.nil.table _
  · rw [← Option.some.inj hnew]
    exact (Entries.keyed_of_table (hold _ rfl)).table _
  · simp at hnew

theorem keeps_openItem (path : List String) (key : String) : Keeps (Table.openItem path key) := by
  have hempty : (Value.table .header []).Keyed := Entries.Keyed.nil.table _
  refine keeps_descend (keeps_alter ?_ key) false path
  intro old new hold hnew
  dsimp only at hnew
  split at hnew
  · rw [← Option.some.inj hnew]
    exact .array (by simpa using hempty)
  · rw [← Option.some.inj hnew]
    cases hold _ rfl with
    | array hitems =>
      refine .array fun v hv => ?_
      rcases List.mem_append.mp hv with hv | hv
      · exact hitems v hv
      · rw [List.mem_singleton.mp hv]
        exact hempty
  · simp at hnew

theorem keeps_within {change : Change} (h : Keeps change) (path : List String) :
    Keeps (Table.within path change) := keeps_descend h false path

/-! ### Reading a document -/

/-- What is open around a value is keyed. -/
def Open.Keyed : Open → Prop
  | .entry _ _ => True
  | .array items => ∀ v ∈ items, v.Keyed
  | .inline table _ _ => table.entries.Keyed

/-- The table and the stack behind a key are keyed. -/
def Target.Keyed : Target → Prop
  | .member table stack => table.entries.Keyed ∧ ∀ o ∈ stack, o.Keyed
  | _ => True

/-- What has been read of a value and of everything around it is keyed. -/
def Expect.Keyed : Expect → Prop
  | .key target _ | .keyEnd target _ _ => target.Keyed
  | .value stack | .bare _ stack | .dateEnd _ stack => ∀ o ∈ stack, o.Keyed
  | .item items stack | .itemEnd items stack => (∀ v ∈ items, v.Keyed) ∧ ∀ o ∈ stack, o.Keyed
  | .member table stack | .memberEnd table stack =>
    table.entries.Keyed ∧ ∀ o ∈ stack, o.Keyed
  | _ => True

namespace Reader

/-- Everything that has been read is keyed. -/
structure Keyed (r : Reader) : Prop where
  root : r.root.entries.Keyed
  expect : r.expect.Keyed

/-- Whatever comes out is keyed. -/
def Yields (next : Option Reader) : Prop := ∀ r, next = some r → r.Keyed

theorem yields_none : Yields none := by
  intro r h
  cases h

theorem yields_some {r : Reader} (h : r.Keyed) : Yields (some r) := by
  intro r' hr'
  rwa [← Option.some.inj hr']

theorem Yields.bind {next : Option Reader} (h : Yields next) {f : Reader → Option Reader}
    (hf : ∀ r, r.Keyed → Yields (f r)) : Yields (next.bind f) := by
  intro r' hr'
  obtain ⟨r, hr, hnext⟩ := Option.bind_eq_some_iff.mp hr'
  exact hf r (h r hr) r' hnext

variable {r : Reader}

theorem yields_next (h : r.Keyed) {e : Expect} (he : e.Keyed) : Yields (r.next e) :=
  yields_some ⟨h.root, he⟩

/-- A change of the root keeps everything keyed. -/
theorem yields_root (h : r.Keyed) {change : Change} (hchange : Keeps change)
    (current : List String) : Yields ((change r.root).map fun root => ⟨root, current, .lineEnd⟩) := by
  intro r' hr'
  obtain ⟨root, hroot, rfl⟩ := Option.map_eq_some_iff.mp hr'
  exact ⟨hchange _ _ h.root hroot, trivial⟩

theorem yields_complete (h : r.Keyed) {v : Value} (hv : v.Keyed) {stack : List Open}
    (hstack : ∀ o ∈ stack, o.Keyed) : Yields (r.complete v stack) := by
  match stack with
  | [] => exact yields_none
  | .entry path key :: _ =>
    exact yields_root h (keeps_within (keeps_assign hv path key) r.current) r.current
  | .array items :: stack =>
    rw [List.forall_mem_cons] at hstack
    have hitems : ∀ w ∈ v :: items, w.Keyed := List.forall_mem_cons.mpr ⟨hv, hstack.1⟩
    exact yields_next h (e := .itemEnd (v :: items) stack) ⟨hitems, hstack.2⟩
  | .inline table path key :: stack =>
    rw [List.forall_mem_cons] at hstack
    intro r' hr'
    obtain ⟨t, ht, hnext⟩ := Option.bind_eq_some_iff.mp hr'
    have htable : t.entries.Keyed := keeps_assign hv path key _ _ hstack.1 ht
    exact yields_next h (e := .memberEnd t stack) ⟨htable, hstack.2⟩ r' hnext

theorem yields_readValue (h : r.Keyed) {stack : List Open} (hstack : ∀ o ∈ stack, o.Keyed)
    (t : Token) : Yields (r.readValue stack t) := by
  cases t with
  | blank _ => exact yields_next h hstack
  | text _ s => exact yields_complete h (.string s) hstack
  | bare _ => exact yields_next h hstack
  | openBracket =>
    dsimp only [readValue]
    by_cases hdeep : stack.length > maxDepth
    · rw [if_pos hdeep]
      exact yields_none
    · rw [if_neg hdeep]
      exact yields_next h ⟨by simp, hstack⟩
  | openBrace =>
    dsimp only [readValue]
    by_cases hdeep : stack.length > maxDepth
    · rw [if_pos hdeep]
      exact yields_none
    · rw [if_neg hdeep]
      exact yields_next h ⟨.nil, hstack⟩
  | _ => exact yields_none

theorem yields_readKey (h : r.Keyed) {target : Target} (ht : target.Keyed) (path : List String)
    (t : Token) : Yields (r.readKey target path t) := by
  unfold readKey
  split
  · exact yields_next h ht
  · exact yields_next h ht
  · split
    · exact yields_next h ht
    · exact yields_none
  · exact yields_none

theorem yields_readKeyEnd (h : r.Keyed) {target : Target} (ht : target.Keyed) (path : List String)
    (key : String) (t : Token) : Yields (r.readKeyEnd target path key t) := by
  cases t with
  | blank _ => exact yields_next h ht
  | dot => exact yields_next h ht
  | equals =>
    cases target with
    | entry => exact yields_next h (by simp [Expect.Keyed, Open.Keyed])
    | member table stack => exact yields_next h (List.forall_mem_cons.mpr ⟨ht.1, ht.2⟩)
    | _ => exact yields_none
  | closeBracket =>
    cases target with
    | header => exact yields_root h (keeps_openTable _ key) _
    | itemHeader => exact yields_next h trivial
    | _ => exact yields_none
  | _ => exact yields_none

/-- Where a member may begin, a token is a blank, or ends the table, or is read as a key. -/
theorem readMember_cases (r : Reader) (table : Table) (stack : List Open) (t : Token) :
    r.readMember table stack t = r.next (.member table stack) ∨
      r.readMember table stack t = r.complete table.value stack ∨
      r.readMember table stack t = r.readKey (.member table stack) [] t := by
  cases t with
  | blank _ | newline => exact .inl rfl
  | closeBrace => exact .inr (.inl rfl)
  | _ => exact .inr (.inr rfl)

theorem yields_readMember (h : r.Keyed) {table : Table} (ht : table.entries.Keyed)
    {stack : List Open} (hstack : ∀ o ∈ stack, o.Keyed) (t : Token) :
    Yields (r.readMember table stack t) := by
  have htarget : (Target.member table stack).Keyed := ⟨ht, hstack⟩
  rcases readMember_cases r table stack t with heq | heq | heq
  · rw [heq]
    exact yields_next h ⟨ht, hstack⟩
  · rw [heq]
    exact yields_complete h (ht.table table.origin) hstack
  · rw [heq]
    exact yields_readKey h htarget [] t

theorem keyed_items {items : List Value} (hitems : ∀ v ∈ items, v.Keyed) :
    (Value.array false items.reverse).Keyed :=
  .array fun v hv => hitems v (List.mem_reverse.mp hv)

/-- Where an item may begin, a token is a blank, or ends the array, or is read as a value. -/
theorem readItem_cases (r : Reader) (items : List Value) (stack : List Open) (t : Token) :
    r.readItem items stack t = r.next (.item items stack) ∨
      r.readItem items stack t = r.complete (.array false items.reverse) stack ∨
      r.readItem items stack t = r.readValue (.array items :: stack) t := by
  cases t with
  | blank _ | newline => exact .inl rfl
  | closeBracket => exact .inr (.inl rfl)
  | _ => exact .inr (.inr rfl)

theorem yields_readItem (h : r.Keyed) {items : List Value} (hitems : ∀ v ∈ items, v.Keyed)
    {stack : List Open} (hstack : ∀ o ∈ stack, o.Keyed) (t : Token) :
    Yields (r.readItem items stack t) := by
  have hopen : ∀ o ∈ Open.array items :: stack, o.Keyed :=
    List.forall_mem_cons.mpr ⟨hitems, hstack⟩
  rcases readItem_cases r items stack t with heq | heq | heq
  · rw [heq]
    exact yields_next h ⟨hitems, hstack⟩
  · rw [heq]
    exact yields_complete h (keyed_items hitems) hstack
  · rw [heq]
    exact yields_readValue h hopen t

/-- Where a line begins, a token is a blank, or opens a header, or is read as a key. -/
theorem readLine_cases (root : Table) (current : List String) (t : Token) :
    let r : Reader := ⟨root, current, .line⟩
    r.readToken t = some r ∨ r.readToken t = r.next .header ∨
      r.readToken t = r.readKey .entry [] t := by
  cases t with
  | blank _ | newline => exact .inl rfl
  | openBracket => exact .inr (.inl rfl)
  | _ => exact .inr (.inr rfl)

/-- Behind a bracket, a token is a second one, or is read as a key. -/
theorem readHeader_cases (root : Table) (current : List String) (t : Token) :
    let r : Reader := ⟨root, current, .header⟩
    r.readToken t = r.next (.key .itemHeader []) ∨ r.readToken t = r.readKey .header [] t := by
  cases t with
  | openBracket => exact .inl rfl
  | _ => exact .inr rfl

theorem yields_readToken (h : r.Keyed) (t : Token) : Yields (r.readToken t) := by
  obtain ⟨root, current, expect⟩ := r
  have hexpect := h.expect
  have hentry : Target.entry.Keyed := trivial
  have hheader : Target.header.Keyed := trivial
  cases expect with
  | line =>
    rcases readLine_cases root current t with heq | heq | heq
    · rw [heq]
      exact yields_some h
    · rw [heq]
      exact yields_next h trivial
    · rw [heq]
      exact yields_readKey h hentry [] t
  | lineEnd =>
    cases t with
    | blank _ => exact yields_some h
    | newline => exact yields_next h trivial
    | _ => exact yields_none
  | header =>
    rcases readHeader_cases root current t with heq | heq
    · rw [heq]
      exact yields_next h trivial
    · rw [heq]
      exact yields_readKey h hheader [] t
  | secondBracket path key =>
    cases t with
    | closeBracket => exact yields_root h (keeps_openItem path key) _
    | _ => exact yields_none
  | key target path => exact yields_readKey h hexpect path t
  | keyEnd target path key => exact yields_readKeyEnd h hexpect path key t
  | value stack => exact yields_readValue h hexpect t
  | bare text stack => exact yields_none
  | dateEnd text stack => exact yields_none
  | item items stack => exact yields_readItem h hexpect.1 hexpect.2 t
  | itemEnd items stack =>
    cases t with
    | blank _ | newline => exact yields_some h
    | comma => exact yields_next h hexpect
    | closeBracket => exact yields_complete h (keyed_items hexpect.1) hexpect.2
    | _ => exact yields_none
  | member table stack => exact yields_readMember h hexpect.1 hexpect.2 t
  | memberEnd table stack =>
    cases t with
    | blank _ | newline => exact yields_some h
    | comma => exact yields_next h hexpect
    | closeBrace => exact yields_complete h (hexpect.1.table table.origin) hexpect.2
    | _ => exact yields_none

theorem yields_endBare (h : r.Keyed) {stack : List Open} (hstack : ∀ o ∈ stack, o.Keyed)
    (text : List Char) (t : Token) : Yields (r.endBare text stack t) := by
  intro r' hr'
  obtain ⟨s, -, hnext⟩ := Option.bind_eq_some_iff.mp hr'
  exact (yields_complete h (.scalar s) hstack).bind (fun r hr => yields_readToken hr t) r' hnext

theorem yields_read (h : r.Keyed) (t : Token) : Yields (r.read t) := by
  have hbare {text stack} (he : r.expect = .bare text stack) : ∀ o ∈ stack, o.Keyed := by
    have hexpect := h.expect
    rwa [he] at hexpect
  have hdate {text stack} (he : r.expect = .dateEnd text stack) : ∀ o ∈ stack, o.Keyed := by
    have hexpect := h.expect
    rwa [he] at hexpect
  unfold read
  split
  · exact yields_next h (hbare ‹_›)
  · exact yields_next h (hbare ‹_›)
  · split
    · exact yields_next h (hbare ‹_›)
    · exact yields_endBare h (hbare ‹_›) _ _
  · exact yields_endBare h (hbare ‹_›) _ _
  · exact yields_next h (hdate ‹_›)
  · exact yields_endBare h (hdate ‹_›) _ _
  · exact yields_readToken h _

theorem yields_readAll (h : r.Keyed) (ts : List Token) : Yields (r.readAll ts) := by
  induction ts generalizing r with
  | nil => exact yields_some h
  | cons t ts ih => exact (yields_read h t).bind fun _ hr => ih hr

end Reader

/-- **No table of a document has a key twice.** -/
theorem keyed_of_parse {document : String} {t : Entries} (h : parse document = some t) :
    t.Keyed := by
  unfold parse at h
  simp only [Option.bind_eq_bind, Option.bind_eq_some_iff] at h
  obtain ⟨ts, -, r, hr, hend⟩ := h
  have hstart : Reader.start.Keyed := ⟨.nil, trivial⟩
  have hkeyed := Reader.yields_readAll hstart _ r hr
  split at hend
  · rw [← Option.some.inj hend]
    exact hkeyed.root
  · cases hend

end Foreman.Toml
