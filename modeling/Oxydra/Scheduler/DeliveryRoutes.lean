import Mathlib.Algebra.Group.Nat.Defs
import Mathlib.Data.List.Nodup
import Oxydra.Library.Lts

/-!
# Delivery routes

A scheduled notification goes to the route of its schedule, a channel context. `report_outcome` of
`crates/memory/src/scheduler_store.rs` counts the deliveries in a row that did not find the route,
and when it has counted three, a delivery that succeeded by a fallback makes the fallback the route.

The counter is a column of the table. `streak_counted` says what it counts: the reports in the
history, since the last delivery that found the route and the last remap, that were made against the
route of the time and did not find it. `route_remapped_at_threshold` says when a route changes.
-/

namespace Oxydra

open List Lts

/-! ## The table -/

/-- The columns of a schedule that deliveries read and write. -/
structure DeliveryRoute where
  schedule_id : String
  channel_context_id : Option String
  delivery_thread_not_found_streak : ℕ := 0
  deriving DecidableEq, Repr

/-- The table, in which a schedule id is there once. -/
structure RouteTable where
  rows : List DeliveryRoute
  nodup : (rows.map DeliveryRoute.schedule_id).Nodup
  deriving DecidableEq

inductive RouteDeliveryOutcome where
  | primaryRouteSucceeded
  | primaryRouteNotFoundFallbackSucceeded (fallback_channel_context_id : String)
  | primaryRouteNotFoundFallbackFailed
  deriving DecidableEq, Repr

/-- The arguments of `report_outcome`. -/
structure DeliveryReport where
  schedule_id : String
  attempted_channel_context_id : String
  outcome : RouteDeliveryOutcome
  deriving DecidableEq, Repr

/-- `ROUTE_NOT_FOUND_REMAP_THRESHOLD`. -/
def routeNotFoundRemapThreshold : ℕ := 3

/-- `WHERE schedule_id = ? AND channel_context_id = ?`. -/
def DeliveryReport.guards (r : DeliveryReport) (row : DeliveryRoute) : Bool :=
  row.schedule_id = r.schedule_id ∧ row.channel_context_id = some r.attempted_channel_context_id

/-- `SET delivery_thread_not_found_streak = delivery_thread_not_found_streak + 1`. -/
def DeliveryRoute.countNotFound (row : DeliveryRoute) : DeliveryRoute :=
  { row with delivery_thread_not_found_streak := row.delivery_thread_not_found_streak + 1 }

/-- `SET delivery_thread_not_found_streak = 0`. -/
def DeliveryRoute.resetStreak (row : DeliveryRoute) : DeliveryRoute :=
  { row with delivery_thread_not_found_streak := 0 }

/-- `SET channel_context_id = ?, delivery_thread_not_found_streak = 0`. -/
def DeliveryRoute.remap (channel_context_id : String) (row : DeliveryRoute) : DeliveryRoute :=
  { row with
    channel_context_id := some channel_context_id
    delivery_thread_not_found_streak := 0 }

/-- A change of a row that keeps its schedule id. -/
structure RowUpdate where
  set : DeliveryRoute → DeliveryRoute
  keeps : ∀ row, (set row).schedule_id = row.schedule_id

theorem update_ids (rows : List DeliveryRoute) (r : DeliveryReport) (u : RowUpdate) :
    (rows.map fun row => if r.guards row then u.set row else row).map DeliveryRoute.schedule_id =
      rows.map DeliveryRoute.schedule_id := by
  rw [map_map]
  refine map_congr_left fun row _ => ?_
  simp only [Function.comp_apply]
  split_ifs
  · exact u.keeps row
  · rfl

section

variable (table : RouteTable) (r : DeliveryReport)

/-- `UPDATE schedules SET ... WHERE ...`. -/
def RouteTable.update (u : RowUpdate) : RouteTable where
  rows := table.rows.map fun row => if r.guards row then u.set row else row
  nodup := by
    rw [update_ids]
    exact table.nodup

/-- `RETURNING delivery_thread_not_found_streak`, of an update that counts. -/
def RouteTable.returningStreak : Option ℕ :=
  (table.rows.find? r.guards).map fun row => row.countNotFound.delivery_thread_not_found_streak

/-- `report_outcome`: the table, and whether the route was remapped, which is only logged. -/
def reportOutcome : RouteTable × Bool :=
  match r.outcome with
  | .primaryRouteSucceeded => (table.update r ⟨DeliveryRoute.resetStreak, fun _ => rfl⟩, false)
  | .primaryRouteNotFoundFallbackSucceeded fallback_channel_context_id =>
    let counted := table.update r ⟨DeliveryRoute.countNotFound, fun _ => rfl⟩
    match table.returningStreak r with
    | some new_streak =>
      -- `as u32`
      if routeNotFoundRemapThreshold ≤ new_streak % 2^32 then
        (counted.update r ⟨DeliveryRoute.remap fallback_channel_context_id, fun _ => rfl⟩, true)
      else (counted, false)
    | none => (counted, false)
  | .primaryRouteNotFoundFallbackFailed =>
    (table.update r ⟨DeliveryRoute.countNotFound, fun _ => rfl⟩, false)

end

/-! ## Histories -/

/-- A report, with the route of its schedule when it was made, and whether it remapped the route. -/
structure RouteEvent where
  report : DeliveryReport
  route : Option String
  remapped : Bool
  deriving DecidableEq, Repr

/-- The table, and the reports that were made, the newest first. -/
structure DeliveryState where
  table : RouteTable
  history : List RouteEvent := []
  deriving DecidableEq

/-- The route of a schedule. -/
def RouteTable.route (table : RouteTable) (schedule_id : String) : Option String :=
  (table.rows.find? fun row => row.schedule_id = schedule_id).bind DeliveryRoute.channel_context_id

/-- One report. -/
def deliveryStep (s : DeliveryState) (r : DeliveryReport) : Option DeliveryState :=
  let (table, remapped) := reportOutcome s.table r
  some ⟨table, ⟨r, s.table.route r.schedule_id, remapped⟩ :: s.history⟩

/-- All serial sequences of reports, from tables in which nothing was counted. -/
def deliverySystem : System DeliveryState DeliveryReport :=
  ofStep (fun s => s.history = [] ∧ ∀ row ∈ s.table.rows, row.delivery_thread_not_found_streak = 0)
    deliveryStep

/-- A report against a route that is not the one of its schedule. -/
def RouteEvent.IsStale (e : RouteEvent) : Prop :=
  e.route ≠ some e.report.attempted_channel_context_id

instance (e : RouteEvent) : Decidable e.IsStale :=
  inferInstanceAs (Decidable (e.route ≠ some e.report.attempted_channel_context_id))

/-- The not-found outcomes of a schedule since its last success and its last remap, without the
reports that were stale. -/
def notFoundsSince (schedule_id : String) : List RouteEvent → ℕ
  | [] => 0
  | e :: history =>
    if e.report.schedule_id ≠ schedule_id ∨ e.IsStale then notFoundsSince schedule_id history
    else if e.remapped ∨ e.report.outcome = .primaryRouteSucceeded then 0
    else notFoundsSince schedule_id history + 1

/-! ## One row -/

/-- A report by which a row gets another route. -/
def DeliveryReport.Remaps (r : DeliveryReport) (row : DeliveryRoute) : Prop :=
  r.guards row ∧ (∃ fallback, r.outcome = .primaryRouteNotFoundFallbackSucceeded fallback) ∧
    routeNotFoundRemapThreshold ≤ (row.delivery_thread_not_found_streak + 1) % 2^32

/-- All that a report can do to a row. -/
inductive RowEffect (r : DeliveryReport) (row : DeliveryRoute) : DeliveryRoute → Prop
  | stale (h : ¬r.guards row) : RowEffect r row row
  | succeeded (h : r.guards row) (hout : r.outcome = .primaryRouteSucceeded) :
    RowEffect r row row.resetStreak
  | counted (h : r.guards row) (hout : r.outcome ≠ .primaryRouteSucceeded)
    (hkeeps : ¬r.Remaps row) : RowEffect r row row.countNotFound
  | remapped (fallback : String)
    (hout : r.outcome = .primaryRouteNotFoundFallbackSucceeded fallback) (h : r.Remaps row) :
    RowEffect r row (row.remap fallback)

variable {table : RouteTable} {r : DeliveryReport} {row row' : DeliveryRoute}

/-- Rows with the same schedule id are the same. -/
theorem RouteTable.eq_of_id (hrow : row ∈ table.rows) (hrow' : row' ∈ table.rows)
    (hid : row'.schedule_id = row.schedule_id) : row' = row :=
  inj_on_of_nodup_map table.nodup hrow' hrow hid

theorem RouteTable.route_eq (hrow : row ∈ table.rows) :
    table.route row.schedule_id = row.channel_context_id := by
  unfold RouteTable.route
  cases hfind : table.rows.find? fun row' => row'.schedule_id = row.schedule_id with
  | none => simpa using List.find?_eq_none.mp hfind row hrow
  | some row' =>
    have hid : row'.schedule_id = row.schedule_id := by simpa using List.find?_some hfind
    rw [table.eq_of_id hrow (mem_of_find?_eq_some hfind) hid]
    rfl

theorem guards_iff : r.guards row ↔ row.schedule_id = r.schedule_id ∧
    row.channel_context_id = some r.attempted_channel_context_id := by
  simp [DeliveryReport.guards]

/-- The streak that an update returns is the one of the row that it guards. -/
theorem RouteTable.returningStreak_eq (hrow : row ∈ table.rows) (h : r.guards row) :
    table.returningStreak r = some (row.delivery_thread_not_found_streak + 1) := by
  unfold RouteTable.returningStreak
  cases hfind : table.rows.find? r.guards with
  | none => exact absurd h (List.find?_eq_none.mp hfind row hrow)
  | some row' =>
    have hid : row'.schedule_id = row.schedule_id :=
      (guards_iff.mp (List.find?_some hfind)).1.trans (guards_iff.mp h).1.symm
    rw [table.eq_of_id hrow (mem_of_find?_eq_some hfind) hid]
    rfl

/-- A row of the table is updated where it stands. -/
theorem RouteTable.mem_update (u : RowUpdate) (hrow : row ∈ table.rows) :
    (if r.guards row then u.set row else row) ∈ (table.update r u).rows :=
  mem_map.mpr ⟨row, hrow, rfl⟩

theorem RouteTable.update_row {u : RowUpdate} (hrow : row ∈ table.rows)
    (hrow' : row' ∈ (table.update r u).rows) (hid : row'.schedule_id = row.schedule_id) :
    row' = if r.guards row then u.set row else row := by
  refine (table.update r u).eq_of_id (table.mem_update u hrow) hrow' (hid.trans ?_)
  split_ifs
  · exact (u.keeps row).symm
  · rfl

/-- A report that does not guard a row leaves it alone. -/
theorem reportOutcome_stale (hrow : row ∈ table.rows)
    (hrow' : row' ∈ (reportOutcome table r).1.rows) (hid : row'.schedule_id = row.schedule_id)
    (h : ¬r.guards row) : row' = row := by
  have hupdate : ∀ {u : RowUpdate}, row' ∈ (table.update r u).rows → row' = row := by
    intro u hu
    rw [RouteTable.update_row hrow hu hid, if_neg h]
  unfold reportOutcome at hrow'
  cases hout : r.outcome with
  | primaryRouteSucceeded =>
    rw [hout] at hrow'
    exact hupdate hrow'
  | primaryRouteNotFoundFallbackFailed =>
    rw [hout] at hrow'
    exact hupdate hrow'
  | primaryRouteNotFoundFallbackSucceeded fallback =>
    rw [hout] at hrow'
    dsimp only at hrow'
    split at hrow'
    · split_ifs at hrow'
      · -- counted and remapped, elsewhere
        have hcounted := table.mem_update ⟨DeliveryRoute.countNotFound, fun _ => rfl⟩ hrow (r := r)
        rw [if_neg h] at hcounted
        rw [RouteTable.update_row hcounted hrow' hid, if_neg h]
      · exact hupdate hrow'
    · exact hupdate hrow'

/-- What a report does to the row that it guards, and that it says whether it remapped it. -/
theorem reportOutcome_guarded (hrow : row ∈ table.rows)
    (hrow' : row' ∈ (reportOutcome table r).1.rows) (hid : row'.schedule_id = row.schedule_id)
    (h : r.guards row) :
    RowEffect r row row' ∧ ((reportOutcome table r).2 ↔ r.Remaps row) := by
  have hupdate : ∀ {u : RowUpdate}, row' ∈ (table.update r u).rows → row' = u.set row := by
    intro u hu
    rw [RouteTable.update_row hrow hu hid, if_pos h]
  unfold reportOutcome at hrow' ⊢
  cases hout : r.outcome with
  | primaryRouteSucceeded =>
    rw [hout] at hrow'
    rw [hupdate hrow']
    exact ⟨.succeeded h hout, by simp [DeliveryReport.Remaps, hout]⟩
  | primaryRouteNotFoundFallbackFailed =>
    have hkeeps : ¬r.Remaps row := by simp [DeliveryReport.Remaps, hout]
    rw [hout] at hrow'
    rw [hupdate hrow']
    exact ⟨.counted h (by simp [hout]) hkeeps, by simp [hkeeps]⟩
  | primaryRouteNotFoundFallbackSucceeded fallback =>
    rw [hout] at hrow'
    dsimp only at hrow' ⊢
    rw [RouteTable.returningStreak_eq hrow h] at hrow' ⊢
    dsimp only at hrow' ⊢
    split_ifs at hrow' ⊢ with hthreshold
    · have hremaps : r.Remaps row := ⟨h, ⟨fallback, hout⟩, hthreshold⟩
      have hcounted := table.mem_update ⟨DeliveryRoute.countNotFound, fun _ => rfl⟩ hrow (r := r)
      rw [if_pos h] at hcounted
      rw [RouteTable.update_row hcounted hrow' hid]
      -- the count leaves the guarded columns alone
      rw [if_pos (show r.guards row.countNotFound from h)]
      exact ⟨.remapped fallback hout hremaps, by simp [hremaps]⟩
    · have hkeeps : ¬r.Remaps row := fun hremaps => hthreshold hremaps.2.2
      rw [hupdate hrow']
      exact ⟨.counted h (by simp [hout]) hkeeps, by simp [hkeeps]⟩

/-! ## All sequences of reports -/

/-- What a step is. -/
theorem deliverySystem_step {s t : DeliveryState} (h : deliverySystem.step s r t) :
    t = ⟨(reportOutcome s.table r).1,
      ⟨r, s.table.route r.schedule_id, (reportOutcome s.table r).2⟩ :: s.history⟩ :=
  (Option.some.inj h).symm

/-- A report adds and removes no schedule. -/
theorem reportOutcome_ids (table : RouteTable) (r : DeliveryReport) :
    (reportOutcome table r).1.rows.map DeliveryRoute.schedule_id =
      table.rows.map DeliveryRoute.schedule_id := by
  unfold reportOutcome
  split
  · exact update_ids _ _ _
  · dsimp only
    split
    · split_ifs
      · exact (update_ids _ _ _).trans (update_ids _ _ _)
      · exact update_ids _ _ _
    · exact update_ids _ _ _
  · exact update_ids _ _ _

theorem mem_reportOutcome (hrow' : row' ∈ (reportOutcome table r).1.rows) :
    ∃ row ∈ table.rows, row'.schedule_id = row.schedule_id := by
  have hid := mem_map_of_mem (f := DeliveryRoute.schedule_id) hrow'
  rw [reportOutcome_ids] at hid
  obtain ⟨row, hrow, hid⟩ := mem_map.mp hid
  exact ⟨row, hrow, hid.symm⟩

/-- The streaks of the table are the counts of the history. -/
def StreaksCounted (s : DeliveryState) : Prop :=
  ∀ row ∈ s.table.rows,
    row.delivery_thread_not_found_streak = notFoundsSince row.schedule_id s.history

/-- A report keeps the streaks and the counts together. -/
theorem streaksCounted_step (s : DeliveryState) (r : DeliveryReport) (t : DeliveryState)
    (hinv : StreaksCounted s) (h : deliverySystem.step s r t) : StreaksCounted t := by
  intro row' hrow'
  rw [deliverySystem_step h] at hrow' ⊢
  obtain ⟨row, hrow, hid⟩ := mem_reportOutcome hrow'
  have hcount := hinv row hrow
  rw [hid]
  unfold notFoundsSince RouteEvent.IsStale
  by_cases hguards : r.guards row
  · obtain ⟨heffect, hremapped⟩ := reportOutcome_guarded hrow hrow' hid hguards
    obtain ⟨hsame, hroute⟩ := guards_iff.mp hguards
    rw [← hsame, RouteTable.route_eq hrow, if_neg (by simp [hroute])]
    cases heffect with
    | stale hnot => exact absurd hguards hnot
    | succeeded _ hout =>
      rw [if_pos (.inr hout)]
      rfl
    | counted _ hout hkeeps =>
      rw [if_neg (not_or.mpr ⟨mt hremapped.mp hkeeps, hout⟩), ← hcount]
      rfl
    | remapped fallback _ hremaps =>
      rw [if_pos (.inl (hremapped.mpr hremaps))]
      rfl
  · rw [reportOutcome_stale hrow hrow' hid hguards, if_pos]
    · exact hcount
    · -- the report is for another schedule, or against another route
      by_cases hsame : r.schedule_id = row.schedule_id
      · refine .inr fun hroute => hguards (guards_iff.mpr ⟨hsame.symm, ?_⟩)
        rwa [hsame, RouteTable.route_eq hrow] at hroute
      · exact .inl hsame

/-- In every sequence of reports, the streak of a schedule is the number of not-found outcomes since
its last success and its last remap. -/
theorem streak_counted {s : DeliveryState} (h : deliverySystem.Reach s) : StreaksCounted s := by
  have hinit : ∀ s : DeliveryState, deliverySystem.init s → StreaksCounted s := by
    rintro s ⟨hnone, hzero⟩ row hrow
    rw [hnone, hzero row hrow]
    rfl
  exact h.invariant hinit fun s r t hinv _ hst => streaksCounted_step s r t hinv hst

/-- In every sequence of reports, a route changes only by a fallback that succeeded, in a report
against the route, with which at least the threshold of not-found outcomes are counted since the
last success and the last remap. A stale report changes nothing, and a remap resets the counter. -/
theorem route_remapped_at_threshold {s t : DeliveryState} {r : DeliveryReport}
    (h : deliverySystem.Reach s) (hst : deliverySystem.step s r t) {row row' : DeliveryRoute}
    (hrow : row ∈ s.table.rows) (hrow' : row' ∈ t.table.rows)
    (hid : row'.schedule_id = row.schedule_id) :
    (row'.channel_context_id ≠ row.channel_context_id →
      r.schedule_id = row.schedule_id ∧
      row.channel_context_id = some r.attempted_channel_context_id ∧
      (∃ fallback, r.outcome = .primaryRouteNotFoundFallbackSucceeded fallback ∧
        row'.channel_context_id = some fallback) ∧
      routeNotFoundRemapThreshold ≤ notFoundsSince row.schedule_id s.history + 1 ∧
      row'.delivery_thread_not_found_streak = 0) ∧
    (r.schedule_id ≠ row.schedule_id ∨
      row.channel_context_id ≠ some r.attempted_channel_context_id → row' = row) ∧
    (∀ e ∈ t.history.head?, e.remapped → e.report.schedule_id = row.schedule_id → ¬e.IsStale →
      row'.delivery_thread_not_found_streak = 0) ∧
    row'.delivery_thread_not_found_streak = notFoundsSince row.schedule_id t.history := by
  have hcount := streak_counted h row hrow
  have hcount' := streaksCounted_step s r t (streak_counted h) hst row' hrow'
  rw [hid] at hcount'
  rw [deliverySystem_step hst] at hrow' ⊢
  have hhead : ∀ e ∈ (RouteEvent.mk r (s.table.route r.schedule_id) (reportOutcome s.table r).2 ::
      s.history).head?, e = ⟨r, s.table.route r.schedule_id, (reportOutcome s.table r).2⟩ :=
    fun e he => (Option.some.inj he).symm
  by_cases hguards : r.guards row
  · obtain ⟨heffect, hremapped⟩ := reportOutcome_guarded hrow hrow' hid hguards
    obtain ⟨hsame, hroute⟩ := guards_iff.mp hguards
    refine ⟨fun hne => ?_, fun hstale => ?_, fun e he hflag _ _ => ?_, ?_⟩
    · cases heffect with
      | stale hnot => exact absurd hguards hnot
      | succeeded | counted => exact absurd rfl hne
      | remapped fallback hout hremaps =>
        refine ⟨hsame.symm, hroute, ⟨fallback, hout, rfl⟩, ?_, rfl⟩
        rw [← hcount]
        exact Nat.le_trans hremaps.2.2 (Nat.mod_le _ _)
    · exact absurd hroute (hstale.resolve_left fun hne => hne hsame.symm)
    · rw [hhead e he] at hflag
      cases heffect with
      | stale hnot => exact absurd hguards hnot
      | succeeded | remapped => rfl
      | counted _ _ hkeeps => exact absurd (hremapped.mp hflag) hkeeps
    · rw [← deliverySystem_step hst]
      exact hcount'
  · have hkept := reportOutcome_stale hrow hrow' hid hguards
    refine ⟨fun hne => absurd (by rw [hkept]) hne, fun _ => hkept,
      fun e he _ hsame hfresh => ?_, ?_⟩
    · rw [hhead e he] at hsame hfresh
      refine absurd (guards_iff.mpr ⟨hsame.symm, ?_⟩) hguards
      have hroute := not_not.mp hfresh
      rwa [hsame, RouteTable.route_eq hrow] at hroute
    · rw [← deliverySystem_step hst]
      exact hcount'

/-- A schedule that reports to a thread of a group. -/
def threadRoute : RouteTable := ⟨[{ schedule_id := "s1", channel_context_id := some "-100:42" }],
  by decide⟩

/-- A report of that schedule. -/
def threadReport (attempted : String) (outcome : RouteDeliveryOutcome) : DeliveryReport :=
  ⟨"s1", attempted, outcome⟩

/-- The thread is not found twice, with a stale report in between. -/
def notFoundTwice : List DeliveryReport :=
  [threadReport "-100:42" .primaryRouteNotFoundFallbackFailed,
    threadReport "-999:99" (.primaryRouteNotFoundFallbackSucceeded "-999"),
    threadReport "-100:42" (.primaryRouteNotFoundFallbackSucceeded "-100")]

/-- The third time, the route becomes the fallback, and the counter starts again. -/
theorem notFoundTwice_then_remapped : ∃ s t row row', deliverySystem.Reach s ∧
    deliverySystem.step s
      (threadReport "-100:42" (.primaryRouteNotFoundFallbackSucceeded "-100")) t ∧
    row ∈ s.table.rows ∧ row' ∈ t.table.rows ∧ row'.channel_context_id = some "-100" ∧
    3 ≤ notFoundsSince "s1" s.history + 1 ∧ row'.delivery_thread_not_found_streak = 0 := by
  obtain ⟨s, hs, t, ht, row, hrow, row', hrow', hids, hne⟩ :
      ∃ s ∈ exec (fun _ _ => True) deliveryStep ⟨threadRoute, []⟩ notFoundTwice,
      ∃ t ∈ deliveryStep s
        (threadReport "-100:42" (.primaryRouteNotFoundFallbackSucceeded "-100")),
      ∃ row ∈ s.table.rows, ∃ row' ∈ t.table.rows,
        (row'.schedule_id = row.schedule_id ∧ row.schedule_id = "s1") ∧
        (row'.channel_context_id = some "-100" ∧ row.channel_context_id = some "-100:42") := by
    decide
  have hreach : deliverySystem.Reach s := reachWithin_exec (.init ⟨rfl, by decide⟩) hs
  have hremap := (route_remapped_at_threshold hreach ht hrow hrow' hids.1).1 (by simp [hne])
  refine ⟨s, t, row, row', hreach, ht, hrow, hrow', hne.1, ?_, hremap.2.2.2.2⟩
  rw [← hids.2]
  exact hremap.2.2.2.1

end Oxydra
