import Mathlib.Data.List.Induction
import FastSearch.Browser.Database

/-!
# The recently-opened rows of the web engines

`updateRecentlyOpen` of `browser/engine/WebEngineViewModel.kt` called by any number of web
engines in any order. An engine reads its new row back by its time, which need not be unique:
the random part has a fixed seed and the clock may repeat or go back. Of the rows with that
time the query gives the one with the largest id, and ids are numbered upwards.
-/

namespace FastSearch.Browser

/-- A call of `updateRecentlyOpen` by an engine, with what the clock shows then. -/
structure RecentlyCall (ν : Type) where
  engine : ν
  url : Option String
  title : Option String
  clock : Int64

/-- The table and the row object of each engine. -/
structure RecentlyOpened (ν : Type) where
  table : RecentlyTable
  own : ν → Option RecentlyOpenedDB := fun _ ↦ none

section Calls

variable {ν : Type} [DecidableEq ν] (P : Platform)
  (g : AutoKey RecentlyOpenedDB RecentlyOpenedDB.id)

/-- The call runs on the main thread without interruption. -/
def RecentlyOpened.update (s : RecentlyOpened ν) (c : RecentlyCall ν) : RecentlyOpened ν :=
  let (row, table) := updateRecentlyOpen P g (s.own c.engine) s.table c.url c.title c.clock
  { table, own := Function.update s.own c.engine row }

/-- Calls of new engines on a table of earlier runs. -/
def updateAll (t : RecentlyTable) (calls : List (RecentlyCall ν)) : RecentlyOpened ν :=
  calls.foldl (RecentlyOpened.update P g) { table := t }

/-- The engines that have called, in the order of their first calls. -/
def callers (calls : List (RecentlyCall ν)) : List ν :=
  calls.foldl (fun es c ↦ if c.engine ∈ es then es else es ++ [c.engine]) []

/-- The latest call of an engine. -/
def latestCall (calls : List (RecentlyCall ν)) (e : ν) : Option (RecentlyCall ν) :=
  calls.findRev? (·.engine = e)

/-! ### Reading the new row back -/

private theorem getByTime_foldl_mem (time : Int64) (rows : List RecentlyOpenedDB)
    (best : Option RecentlyOpenedDB) {r : RecentlyOpenedDB}
    (h : rows.foldl
      (fun best r ↦
        if r.time = time then
          match best with
          | some b => if b.id < r.id then some r else best
          | none => some r
        else best) best = some r) : r ∈ rows ∨ best = some r := by
  induction rows generalizing best with
  | nil => exact Or.inr h
  | cons a rows ih =>
    rw [List.foldl_cons] at h
    rcases ih _ h with hm | hb
    · exact Or.inl (List.mem_cons_of_mem a hm)
    · split at hb
      · cases best with
        | none => exact Or.inl (Option.some.inj hb ▸ List.mem_cons_self)
        | some b =>
          simp only at hb
          split at hb
          · exact Or.inl (Option.some.inj hb ▸ List.mem_cons_self)
          · exact Or.inr hb
      · exact Or.inr hb

theorem getByTime_mem {t : RecentlyTable} {time : Int64} {r : RecentlyOpenedDB}
    (h : t.getByTime time = some r) : r ∈ t.rows := by
  rcases getByTime_foldl_mem time t.rows none h with hm | hn
  · exact hm
  · cases hn

/-- The row just added is the one the query by its time gives. -/
theorem getByTime_add {g : AutoKey RecentlyOpenedDB RecentlyOpenedDB.id} (hg : g.Increasing)
    (t : RecentlyTable) (r : RecentlyOpenedDB) :
    (t.add g r).getByTime r.time = some { r with id := g.next t.rows } := by
  have hf : (t.add g r).getByTime r.time =
      match t.getByTime r.time with
      | some b =>
        if b.id < g.next t.rows then some { r with id := g.next t.rows } else some b
      | none => some { r with id := g.next t.rows } := by
    simp only [RecentlyTable.getByTime, RecentlyTable.add, RowTable.insert, List.foldl_append,
      List.foldl_cons, List.foldl_nil, if_true]
    split <;> simp_all
  rw [hf]
  cases hb : t.getByTime r.time with
  | none => rfl
  | some b => exact if_pos (hg t.rows b (getByTime_mem hb))

/-! ### The engines that have called -/

theorem callers_append (calls : List (RecentlyCall ν)) (c : RecentlyCall ν) :
    callers (calls ++ [c]) =
      if c.engine ∈ callers calls then callers calls else callers calls ++ [c.engine] := by
  rw [callers, List.foldl_append]
  rfl

theorem mem_callers (calls : List (RecentlyCall ν)) (e : ν) :
    e ∈ callers calls ↔ ∃ c ∈ calls, c.engine = e := by
  induction calls using List.reverseRecOn with
  | nil => simp [callers]
  | append_singleton calls c ih =>
    have hc : e ∈ callers (calls ++ [c]) ↔ e ∈ callers calls ∨ c.engine = e := by
      rw [callers_append]
      by_cases hm : c.engine ∈ callers calls
      · rw [if_pos hm]
        constructor
        · exact Or.inl
        · rintro (he | rfl)
          · exact he
          · exact hm
      · rw [if_neg hm, List.mem_append, List.mem_singleton, eq_comm (a := e)]
    rw [hc, ih]
    simp [or_and_right, exists_or]

theorem nodup_callers (calls : List (RecentlyCall ν)) : (callers calls).Nodup := by
  induction calls using List.reverseRecOn with
  | nil => exact List.nodup_nil
  | append_singleton calls c ih =>
    rw [callers_append]
    by_cases hm : c.engine ∈ callers calls
    · rw [if_pos hm]
      exact ih
    · rw [if_neg hm]
      exact ih.append (List.nodup_singleton _) (by simpa using hm)

theorem latestCall_append (calls : List (RecentlyCall ν)) (c : RecentlyCall ν) (e : ν) :
    latestCall (calls ++ [c]) e = if c.engine = e then some c else latestCall calls e := by
  unfold latestCall
  by_cases hc : c.engine = e
  · simp [List.findRev?_eq_find?_reverse, hc]
  · simp [List.findRev?_eq_find?_reverse, hc]

theorem latestCall_mem {calls : List (RecentlyCall ν)} {c : RecentlyCall ν} {e : ν}
    (h : latestCall calls e = some c) : c ∈ calls ∧ c.engine = e := by
  rw [latestCall, List.findRev?_eq_find?_reverse] at h
  exact ⟨List.mem_reverse.mp (List.mem_of_find?_eq_some h), by simpa using List.find?_some h⟩

/-! ### One row for each engine -/

variable {P g}

/-- Behind the rows of earlier runs there is one row for each engine that has called: the
engine's own row object, with the page of its latest call. -/
structure OneRowEach (t : RecentlyTable) (calls : List (RecentlyCall ν)) (s : RecentlyOpened ν)
    (row : ν → RecentlyOpenedDB) : Prop where
  rows : s.table.rows = t.rows ++ (callers calls).map row
  own : ∀ e, s.own e = if e ∈ callers calls then some (row e) else none
  latest : ∀ e c, latestCall calls e = some c → (row e).url = c.url ∧ (row e).title = c.title

/-- A call replaces the page of its engine's row and leaves the other engines' rows alone. -/
private theorem latest_update {calls : List (RecentlyCall ν)} {c : RecentlyCall ν}
    {row : ν → RecentlyOpenedDB} {r : RecentlyOpenedDB}
    (h : ∀ e c, latestCall calls e = some c → (row e).url = c.url ∧ (row e).title = c.title)
    (hu : r.url = c.url) (ht : r.title = c.title) (e : ν) (d : RecentlyCall ν)
    (hd : latestCall (calls ++ [c]) e = some d) :
    (Function.update row c.engine r e).url = d.url ∧
      (Function.update row c.engine r e).title = d.title := by
  rw [latestCall_append] at hd
  by_cases hc : c.engine = e
  · rw [if_pos hc] at hd
    cases hd
    rw [← hc, Function.update_self]
    exact ⟨hu, ht⟩
  · rw [if_neg hc] at hd
    rw [Function.update_of_ne (Ne.symm hc)]
    exact h e d hd

private theorem own_update {es : List ν} {own : ν → Option RecentlyOpenedDB}
    {row : ν → RecentlyOpenedDB} {e : ν} {r : RecentlyOpenedDB}
    {es' : List ν} (h : ∀ e, own e = if e ∈ es then some (row e) else none)
    (he : ∀ d, d ∈ es' ↔ d ∈ es ∨ d = e) (d : ν) :
    Function.update own e (some r) d =
      if d ∈ es' then some (Function.update row e r d) else none := by
  by_cases hd : d = e
  · rw [hd, Function.update_self, Function.update_self, if_pos ((he e).mpr (Or.inr rfl))]
  · rw [Function.update_of_ne hd, Function.update_of_ne hd, h d]
    simp only [he d, hd, or_false]

/-- A first call appends a row and keeps it as the engine's own. -/
theorem oneRowEach_first (hg : g.Increasing) {t : RecentlyTable} {calls : List (RecentlyCall ν)}
    {s : RecentlyOpened ν} {row : ν → RecentlyOpenedDB} (h : OneRowEach t calls s row)
    {c : RecentlyCall ν} (hc : c.engine ∉ callers calls) :
    ∃ row', OneRowEach t (calls ++ [c]) (s.update P g c) row' := by
  have ho : s.own c.engine = none := by rw [h.own, if_neg hc]
  let r := (RecentlyOpenedDB.new P c.clock).setPage P c.url c.title
  have hs : s.update P g c =
      { table := s.table.add g r
        own := Function.update s.own c.engine (some { r with id := g.next s.table.rows }) } := by
    simp only [RecentlyOpened.update, updateRecentlyOpen, ho, r]
    rw [getByTime_add hg]
  refine ⟨Function.update row c.engine { r with id := g.next s.table.rows }, ?_⟩
  rw [hs]
  have he : callers (calls ++ [c]) = callers calls ++ [c.engine] := by
    rw [callers_append, if_neg hc]
  refine ⟨?_, ?_, latest_update h.latest rfl rfl⟩
  · have hm : (callers calls).map
        (Function.update row c.engine { r with id := g.next s.table.rows }) =
          (callers calls).map row := by
      apply List.map_congr_left
      intro e hm
      have hn : e ≠ c.engine := by
        rintro rfl
        exact hc hm
      exact Function.update_of_ne hn _ _
    rw [he, List.map_append, hm, List.map_singleton, Function.update_self, ← List.append_assoc,
      ← h.rows]
    rfl
  · exact own_update h.own (fun d ↦ by rw [he, List.mem_append, List.mem_singleton])

/-- A later call updates the engine's own row. -/
theorem oneRowEach_again {t : RecentlyTable} {calls : List (RecentlyCall ν)}
    {s : RecentlyOpened ν} {row : ν → RecentlyOpenedDB} (h : OneRowEach t calls s row)
    {c : RecentlyCall ν} (hc : c.engine ∈ callers calls) :
    ∃ row', OneRowEach t (calls ++ [c]) (s.update P g c) row' := by
  have ho : s.own c.engine = some (row c.engine) := by rw [h.own, if_pos hc]
  let r := (row c.engine).setPage P c.url c.title
  have hs : s.update P g c =
      { table := s.table.update r, own := Function.update s.own c.engine (some r) } := by
    simp only [RecentlyOpened.update, updateRecentlyOpen, ho, r]
  refine ⟨Function.update row c.engine r, ?_⟩
  rw [hs]
  have he : callers (calls ++ [c]) = callers calls := by rw [callers_append, if_pos hc]
  refine ⟨?_, ?_, latest_update h.latest rfl rfl⟩
  · rw [he]
    exact RowTable.rows_update_owner h.rows hc rfl
  · apply own_update h.own
    intro d
    rw [he]
    constructor
    · exact Or.inl
    · rintro (hd | rfl)
      · exact hd
      · exact hc

theorem exists_oneRowEach (hg : g.Increasing) (t : RecentlyTable)
    (calls : List (RecentlyCall ν)) : ∃ row, OneRowEach t calls (updateAll P g t calls) row := by
  induction calls using List.reverseRecOn with
  | nil =>
    refine ⟨fun _ ↦ { time := 0 }, ?_, ?_, ?_⟩
    · simp [updateAll, callers]
    · intro e
      rfl
    · intro e c hc
      cases hc
  | append_singleton calls c ih =>
    obtain ⟨row, h⟩ := ih
    rw [updateAll, List.foldl_append]
    by_cases hc : c.engine ∈ callers calls
    · exact oneRowEach_again h hc
    · exact oneRowEach_first hg h hc

/-- After any calls the table has the rows of earlier runs unchanged and one row for each
engine that has called. The row is the engine's own, no other row has its id, and it holds the
page of the engine's latest call. -/
theorem updateAll_one_row_each (hg : g.Increasing) (t : RecentlyTable)
    (calls : List (RecentlyCall ν)) :
    ∃ row : ν → RecentlyOpenedDB,
      (updateAll P g t calls).table.rows = t.rows ++ (callers calls).map row ∧
      (callers calls).Nodup ∧
      (∀ e, e ∈ callers calls ↔ ∃ c ∈ calls, c.engine = e) ∧
      (∀ d ∈ callers calls, ∀ e ∈ callers calls, (row d).id = (row e).id → d = e) ∧
      (∀ r ∈ t.rows, ∀ e ∈ callers calls, r.id ≠ (row e).id) ∧
      ∀ e c, latestCall calls e = some c →
        (updateAll P g t calls).own e = some (row e) ∧
          (row e).url = c.url ∧ (row e).title = c.title := by
  obtain ⟨row, h⟩ := exists_oneRowEach (P := P) hg t calls
  have hk := (updateAll P g t calls).table.keys_nodup
  rw [h.rows, List.map_append, List.map_map, List.nodup_append] at hk
  obtain ⟨_, hinj, hdis⟩ := hk
  refine ⟨row, h.rows, nodup_callers calls, mem_callers calls, ?_, ?_, ?_⟩
  · intro d hd e he hi
    exact List.inj_on_of_nodup_map hinj hd he hi
  · intro r hr e he
    exact hdis _ (List.mem_map_of_mem hr) _ (List.mem_map_of_mem he)
  · intro e c hc
    have hm : e ∈ callers calls := (mem_callers calls e).mpr ⟨c, latestCall_mem hc⟩
    refine ⟨?_, h.latest e c hc⟩
    rw [h.own, if_pos hm]

end Calls

/-- A platform whose seeded number is one. -/
def seededOne : Platform where
  uriHost _ := none
  uriScheme _ := none
  seed := 1

/-- An earlier run has left a row with the time that two engines get for theirs. -/
def earlierRun : RecentlyTable :=
  RowTable.empty.insert (.succMax _) (fun k ↦ ⟨k, none, none, none, none, 6⟩) fun _ ↦ rfl

/-- Two engines, the second with the same clock and a third call with the clock set back. -/
def collidingCalls : List (RecentlyCall Bool) :=
  [⟨false, some "https://a.com/", some "A", 5⟩, ⟨true, some "https://b.com/", some "B", 5⟩,
    ⟨false, some "https://c.com/", some "C", 4⟩]

/-- Three rows have the same time, and each engine has its own. -/
theorem one_row_each_colliding :
    (AutoKey.succMax RecentlyOpenedDB.id).Increasing ∧
      ∃ row : Bool → RecentlyOpenedDB,
        (updateAll seededOne (.succMax _) earlierRun collidingCalls).table.rows =
          earlierRun.rows ++ (callers collidingCalls).map row ∧
        (row false).url = some "https://c.com/" ∧ (row true).url = some "https://b.com/" := by
  have hg := AutoKey.increasing_succMax RecentlyOpenedDB.id
  obtain ⟨row, hr, _, _, _, _, hl⟩ :=
    updateAll_one_row_each (P := seededOne) hg earlierRun collidingCalls
  exact ⟨hg, row, hr, (hl false _ rfl).2.1, (hl true _ rfl).2.1⟩

end FastSearch.Browser
